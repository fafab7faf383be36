import WindsAloft.Proofs.Course
import WindsAloft.Proofs.Weights

/-!
# Nearness

Of two samples of one quality, seen from one point, the one that is no farther away in
altitude and in time weighs no less.  The curves show this only step by step: while an
offset grows, its square grows and what it leaves of one shrinks, so that dividends fall and
divisors rise; each step keeps its direction in double arithmetic, and so do the rounding to
integers and the product.

How far a sample is away is an exact number.  The computed difference may hide how two
distances differ, but it never reverses them.  So samples at equal distances weigh the same,
on whichever side of the point they are, and nothing that is at least a full range away is
within the window.
-/

namespace WindsAloft

open Binary64

attribute [local irreducible] unit overflow

section Curves

variable {x y z : Float} {a b c : ℤ}

/-- The curve over the altitude falls with the magnitude of the offset. -/
theorem altitudeCurve_antitone
    (near : quanta? x = some a)
    (far : quanta? y = some b)
    (order : |a| ≤ |b|)
    (inside : |b| ≤ unit) :
    2 / (y * y + 1) - 1 ≤ 2 / (x * x + 1) - 1 := by
  have one : 0 < (unit : ℤ) := unit_pos_int
  obtain ⟨d, divisor, least, -⟩ := exists_quanta?_altitudeDivisor near (order.trans inside)
  have above : 1 ≤ x * x + 1 := (le_iff_quanta_le quanta?_one divisor).mpr least
  have divisors : x * x + 1 ≤ y * y + 1 :=
    add_le_add_finite (mul_self_le_mul_self_finite near far order) quanta?_one
  have quotients : 2 / (y * y + 1) ≤ 2 / (x * x + 1) :=
    div_le_div_divisor quanta?_two quanta?_two (by omega) le_rfl quanta?_one one above divisors
  exact sub_le_sub_right_finite quotients quanta?_one

/-- The curve over the time falls with the offset. -/
theorem timeCurve_antitone
    (near : quanta? x = some a)
    (far : quanta? y = some b)
    (sharpness : quanta? z = some c)
    (lower : 0 ≤ a)
    (order : a ≤ b)
    (inside : b ≤ unit)
    (positive : 0 < c) :
    z * (1 - y) / (y * y + z) ≤ z * (1 - x) / (x * x + z) := by
  obtain ⟨r, nearRest, -⟩ := exists_quanta?_rest near lower (order.trans inside)
  obtain ⟨s, farRest, -⟩ := exists_quanta?_rest far (lower.trans order) inside
  have rests : s ≤ r :=
    (le_iff_quanta_le farRest nearRest).mp (sub_le_sub_finite near far order quanta?_one)
  obtain ⟨p, nearDividend, -⟩ :=
    exists_quanta?_timeDividend near sharpness lower (order.trans inside) positive.le
  obtain ⟨q, farDividend, farLower, -⟩ :=
    exists_quanta?_timeDividend far sharpness (lower.trans order) inside positive.le
  have dividends : q ≤ p :=
    (le_iff_quanta_le farDividend nearDividend).mp
      (mul_le_mul_left_finite farRest nearRest rests sharpness positive.le)
  have magnitudes : |a| ≤ |b| := by
    rwa [abs_of_nonneg lower, abs_of_nonneg (lower.trans order)]
  have divisors : x * x + z ≤ y * y + z :=
    add_le_add_finite (mul_self_le_mul_self_finite near far magnitudes) sharpness
  exact div_le_div_divisor farDividend nearDividend farLower dividends sharpness positive
    (le_mul_self_add near sharpness) divisors

end Curves

namespace Kernel

variable {kernel : Kernel}

/-- A lesser altitude offset is within the window too and weighs no less. -/
theorem altitudeWeight_antitone
    (sound : kernel.Sound)
    {near far : Float}
    (order : near.abs ≤ far.abs)
    (inside : far.abs < 1) :
    near.abs < 1 ∧ (kernel.altitudeWeight far).toInt ≤ (kernel.altitudeWeight near).toInt := by
  obtain ⟨b, farValue, farInside⟩ := quanta?_of_abs_lt_one inside
  have farMagnitude : quanta? far.abs = some |b| := by rw [quanta?_abs, farValue, Option.map_some]
  obtain ⟨a, nearValue, magnitudes⟩ := exists_quanta?_of_abs_le order farMagnitude
  have nearMagnitude : quanta? near.abs = some |a| := by
    rw [quanta?_abs, nearValue, Option.map_some]
  obtain ⟨f, factor, factorLower⟩ := sound.altitudeFactor.exists_quanta?
  obtain ⟨c, nearCurve, -⟩ := exists_quanta?_altitudeCurve nearValue (magnitudes.trans farInside.le)
  obtain ⟨d, farCurve, -⟩ := exists_quanta?_altitudeCurve farValue farInside.le
  have curves : d ≤ c :=
    (le_iff_quanta_le farCurve nearCurve).mp
      (altitudeCurve_antitone nearValue farValue magnitudes farInside.le)
  refine ⟨(lt_iff_quanta_lt nearMagnitude quanta?_one).mpr (magnitudes.trans_lt farInside), ?_⟩
  exact roundHalfUp_mono (mul_le_mul_finite farCurve nearCurve curves factor factorLower)

/-- A lesser time offset is within the window too and weighs no less. -/
theorem timeWeight_antitone
    (sound : kernel.Sound)
    {near far : Float}
    (nearNotNegative : (ofFloat near).NotNegative)
    (farNotNegative : (ofFloat far).NotNegative)
    (order : near ≤ far)
    (inside : far < 1) :
    near < 1 ∧ (kernel.timeWeight far).toInt ≤ (kernel.timeWeight near).toInt := by
  obtain ⟨b, farValue, farLower, farInside⟩ :=
    exists_quanta?_of_lt farNotNegative inside quanta?_one
  obtain ⟨a, nearValue, nearLower, offsets⟩ := exists_quanta?_of_le nearNotNegative order farValue
  obtain ⟨k, sharpness, positive⟩ := sound.timeSharpness.exists_quanta?
  obtain ⟨f, factor, factorLower⟩ := sound.timeFactor.exists_quanta?
  obtain ⟨c, nearCurve, -⟩ :=
    exists_quanta?_timeCurve nearValue sharpness nearLower (offsets.trans farInside.le) positive
  obtain ⟨d, farCurve, -⟩ :=
    exists_quanta?_timeCurve farValue sharpness farLower farInside.le positive
  have curves : d ≤ c :=
    (le_iff_quanta_le farCurve nearCurve).mp
      (timeCurve_antitone nearValue farValue sharpness nearLower offsets farInside.le positive)
  refine ⟨(lt_iff_quanta_lt nearValue quanta?_one).mpr (offsets.trans_lt farInside), ?_⟩
  exact roundHalfUp_mono (mul_le_mul_finite farCurve nearCurve curves factor factorLower)

end Kernel

/-- Whether a sample stands at a finite time and altitude. -/
def Sample.IsPlaced (sample : Sample) : Prop :=
  sample.time.isFinite = true ∧ sample.altitude.isFinite = true

instance (sample : Sample) : Decidable sample.IsPlaced :=
  inferInstanceAs (Decidable (_ ∧ _))

namespace Point

/-- How far a sample is away in altitude, exactly and in quanta. -/
def altitudeDistance (point : Point) (sample : Sample) : ℤ :=
  |(ofFloat point.altitude).level - (ofFloat sample.altitude).level|

/-- How far a sample is away in time, exactly and in quanta. -/
def timeDistance (point : Point) (sample : Sample) : ℤ :=
  |(ofFloat point.time).level - (ofFloat sample.time).level|

/-- Whether a sample is computed to be no farther away than another. -/
structure NoFarther (point : Point) (near far : Sample) : Prop where
  altitude : (point.altitude - near.altitude).abs ≤ (point.altitude - far.altitude).abs
  time : (point.time - near.time).abs ≤ (point.time - far.time).abs

variable {point : Point} {near far sample : Sample}

/-- What is no farther away is never computed to be farther. -/
theorem noFarther_of_distance_le
    (here : point.IsFinite)
    (nearPlaced : near.IsPlaced)
    (farPlaced : far.IsPlaced)
    (altitude : point.altitudeDistance near ≤ point.altitudeDistance far)
    (time : point.timeDistance near ≤ point.timeDistance far) :
    point.NoFarther near far where
  altitude :=
    abs_sub_le_abs_sub (quanta?_of_isFinite here.2) (quanta?_of_isFinite nearPlaced.2)
      (quanta?_of_isFinite here.2) (quanta?_of_isFinite farPlaced.2) altitude
  time :=
    abs_sub_le_abs_sub (quanta?_of_isFinite here.1) (quanta?_of_isFinite nearPlaced.1)
      (quanta?_of_isFinite here.1) (quanta?_of_isFinite farPlaced.1) time

end Point

/-- No factor being negative, the product grows with each of them, also against its bounds. -/
theorem Weight.combined_mono
    {less more : Weight}
    (quality : 0 ≤ less.quality.toInt)
    (altitude : 0 ≤ less.altitude.toInt)
    (time : 0 ≤ less.time.toInt)
    (qualityOrder : less.quality.toInt ≤ more.quality.toInt)
    (altitudeOrder : less.altitude.toInt ≤ more.altitude.toInt)
    (timeOrder : less.time.toInt ≤ more.time.toInt) :
    less.combined.toInt ≤ more.combined.toInt := by
  have nearness :
      Saturating.clamp (less.altitude.toInt * less.time.toInt) ≤
        Saturating.clamp (more.altitude.toInt * more.time.toInt) :=
    Saturating.clamp_mono
      (mul_le_mul altitudeOrder timeOrder time (altitude.trans altitudeOrder))
  have nonnegative := Saturating.clamp_nonneg (mul_nonneg altitude time)
  rw [Kernel.toInt_combined, Kernel.toInt_combined]
  exact Saturating.clamp_mono
    (mul_le_mul qualityOrder nearness nonnegative (quality.trans qualityOrder))

namespace Kernel

variable {kernel : Kernel} {point : Point} {near far sample twin : Sample}

theorem abs_altitudeOffset (sound : kernel.Sound) (point : Point) (sample : Sample) :
    (kernel.altitudeOffset point sample).abs =
      (point.altitude - sample.altitude).abs / kernel.altitudeRange := by
  obtain ⟨r, range, positive⟩ := sound.altitudeRange.exists_quanta?
  exact abs_div_of_pos range positive _

/-- What is no farther away has no greater offsets. -/
theorem offsets_le (sound : kernel.Sound) (nearer : point.NoFarther near far) :
    (kernel.altitudeOffset point near).abs ≤ (kernel.altitudeOffset point far).abs ∧
      kernel.timeOffset point near ≤ kernel.timeOffset point far := by
  obtain ⟨r, altitudeRange, altitudePositive⟩ := sound.altitudeRange.exists_quanta?
  obtain ⟨t, timeRange, timePositive⟩ := sound.timeRange.exists_quanta?
  rw [abs_altitudeOffset sound, abs_altitudeOffset sound]
  exact ⟨div_le_div_finite nearer.altitude altitudeRange altitudePositive,
    div_le_div_finite nearer.time timeRange timePositive⟩

/-- What is no farther away is within the window too and has no lesser weights. -/
theorem weigh_of_noFarther
    (sound : kernel.Sound)
    (nearer : point.NoFarther near far)
    (quality : near.quality = far.quality)
    {less : Weight}
    (weighed : kernel.weigh point far = some less) :
    ∃ more, kernel.weigh point near = some more ∧
      less.quality = more.quality ∧
      less.altitude.toInt ≤ more.altitude.toInt ∧
      less.time.toInt ≤ more.time.toInt := by
  obtain ⟨⟨inAltitude, inTime⟩, rfl⟩ := weigh_eq_some_iff.mp weighed
  obtain ⟨altitudeOrder, timeOrder⟩ := offsets_le sound nearer
  obtain ⟨nearInAltitude, altitude⟩ := altitudeWeight_antitone sound altitudeOrder inAltitude
  obtain ⟨nearInTime, time⟩ :=
    timeWeight_antitone sound (notNegative_timeOffset sound) (notNegative_timeOffset sound)
      timeOrder inTime
  exact ⟨_, weigh_eq_some_iff.mpr ⟨⟨nearInAltitude, nearInTime⟩, rfl⟩,
    congrArg kernel.qualityWeight quality.symm, altitude, time⟩

/-- At equal distances, on whichever side of the point, samples of one quality weigh the same. -/
theorem weigh_of_distance_eq
    (here : point.IsFinite)
    (samplePlaced : sample.IsPlaced)
    (twinPlaced : twin.IsPlaced)
    (quality : sample.quality = twin.quality)
    (altitude : point.altitudeDistance sample = point.altitudeDistance twin)
    (time : point.timeDistance sample = point.timeDistance twin) :
    kernel.weigh point sample = kernel.weigh point twin := by
  refine kernel.weigh_of_abs_eq ?_ ?_ quality
  · exact abs_sub_eq_abs_sub (quanta?_of_isFinite here.2) (quanta?_of_isFinite samplePlaced.2)
      (quanta?_of_isFinite here.2) (quanta?_of_isFinite twinPlaced.2) altitude
  · exact abs_sub_eq_abs_sub (quanta?_of_isFinite here.1) (quanta?_of_isFinite samplePlaced.1)
      (quanta?_of_isFinite here.1) (quanta?_of_isFinite twinPlaced.1) time

/-- What reaches a full range is computed to reach it. -/
theorem range_le_of_distance
    (sound : kernel.Sound)
    (here : point.IsFinite)
    (placed : sample.IsPlaced)
    (far :
      (ofFloat kernel.altitudeRange).level ≤ point.altitudeDistance sample ∨
        (ofFloat kernel.timeRange).level ≤ point.timeDistance sample) :
    kernel.altitudeRange ≤ (point.altitude - sample.altitude).abs ∨
      kernel.timeRange ≤ (point.time - sample.time).abs := by
  refine far.imp ?_ ?_
  · exact le_abs_sub (quanta?_of_isFinite here.2) (quanta?_of_isFinite placed.2)
      (quanta?_of_isFinite sound.altitudeRange.1)
  · exact le_abs_sub (quanta?_of_isFinite here.1) (quanta?_of_isFinite placed.1)
      (quanta?_of_isFinite sound.timeRange.1)

/-- A full range away, in altitude or in time, is outside the window. -/
theorem weigh_of_range_le
    (sound : kernel.Sound)
    (far :
      kernel.altitudeRange ≤ (point.altitude - sample.altitude).abs ∨
        kernel.timeRange ≤ (point.time - sample.time).abs) :
    kernel.weigh point sample = none := by
  obtain ⟨r, altitudeRange, altitudePositive⟩ := sound.altitudeRange.exists_quanta?
  obtain ⟨t, timeRange, timePositive⟩ := sound.timeRange.exists_quanta?
  refine if_neg fun ⟨inAltitude, inTime⟩ => ?_
  rcases far with far | far
  · have outside : 1 ≤ (kernel.altitudeOffset point sample).abs := by
      rw [abs_altitudeOffset sound]
      exact one_le_div altitudeRange altitudePositive far
    obtain ⟨oneNumber, number⟩ := ne_nan_of_le outside
    exact (le_iff_not_lt oneNumber number).mp outside inAltitude
  · have outside : 1 ≤ kernel.timeOffset point sample := one_le_div timeRange timePositive far
    obtain ⟨oneNumber, number⟩ := ne_nan_of_le outside
    exact (le_iff_not_lt oneNumber number).mp outside inTime

/--
Seen from a finite point with a valid kernel, what is nearer never counts less.  A sample that
is no farther away than another is computed to be no farther; one of the same quality that is
computed so is within the window where the other is, no weight of it is less, and neither is
the product unless the quality is negative.  Samples at equal distances weigh exactly the same,
and what is a full range away in altitude or in time, or is computed to be, is outside the window.
-/
theorem nearer_weighs_no_less
    {settings : Settings}
    (valid : settings.Valid)
    {point : Point}
    (here : point.IsFinite) :
    let kernel := settings.kernel
    (∀ near far : Sample, near.IsPlaced → far.IsPlaced →
      point.altitudeDistance near ≤ point.altitudeDistance far →
      point.timeDistance near ≤ point.timeDistance far →
      point.NoFarther near far) ∧
    (∀ near far : Sample, point.NoFarther near far → near.quality = far.quality →
      ∀ less, kernel.weigh point far = some less →
        ∃ more, kernel.weigh point near = some more ∧
          less.quality ≤ more.quality ∧ less.altitude ≤ more.altitude ∧
          less.time ≤ more.time ∧
          (0 ≤ near.quality → less.combined ≤ more.combined)) ∧
    (∀ sample twin : Sample, sample.IsPlaced → twin.IsPlaced → sample.quality = twin.quality →
      point.altitudeDistance sample = point.altitudeDistance twin →
      point.timeDistance sample = point.timeDistance twin →
      kernel.weigh point sample = kernel.weigh point twin) ∧
    (∀ sample : Sample, sample.IsPlaced →
      (ofFloat kernel.altitudeRange).level ≤ point.altitudeDistance sample ∨
        (ofFloat kernel.timeRange).level ≤ point.timeDistance sample →
      kernel.weigh point sample = none) ∧
    (∀ sample : Sample,
      kernel.altitudeRange ≤ (point.altitude - sample.altitude).abs ∨
        kernel.timeRange ≤ (point.time - sample.time).abs →
      kernel.weigh point sample = none) := by
  intro kernel
  have sound : kernel.Sound := valid.sound
  simp only [Int64.le_iff_toInt_le, Int32.le_iff_toInt_le]
  refine ⟨fun near far => Point.noFarther_of_distance_le here, ?_,
    fun sample twin => weigh_of_distance_eq here,
    fun sample placed far => weigh_of_range_le sound (range_le_of_distance sound here placed far),
    fun sample => weigh_of_range_le sound⟩
  intro near far nearer quality less weighed
  obtain ⟨more, nearWeighed, same, altitude, time⟩ :=
    weigh_of_noFarther sound nearer quality weighed
  obtain ⟨⟨altitudeLower, -⟩, timeLower, -⟩ := nearness_bounds sound weighed
  have qualityOrder : less.quality.toInt ≤ more.quality.toInt := by rw [same]
  refine ⟨more, nearWeighed, qualityOrder, altitude, time, fun nonnegative => ?_⟩
  have qualityLower : 0 ≤ less.quality.toInt := quality_nonneg sound (quality ▸ nonnegative) weighed
  exact Weight.combined_mono qualityLower altitudeLower timeLower qualityOrder altitude time

/--
Three minutes and half a range of altitude away, a sample weighs no less than at the rim of the
window, and the same on either side of the point; half an hour and a range away it does not
count at all.
-/
theorem three_minutes_weigh_no_less :
    let kernel := Settings.classic.kernel
    let point : Point := ⟨3600, 1000⟩
    let near : Sample := ⟨.calm, 5, 3420, 500⟩
    let twin : Sample := ⟨.calm, 5, 3780, 1500⟩
    let rim : Sample := ⟨.calm, 5, 5400, 10⟩
    let gone : Sample := ⟨.calm, 5, 5400, 2000⟩
    Settings.classic.Valid ∧ point.IsFinite ∧ near.IsPlaced ∧ twin.IsPlaced ∧ rim.IsPlaced ∧
      gone.IsPlaced ∧
      point.altitudeDistance near ≤ point.altitudeDistance rim ∧
      point.timeDistance near ≤ point.timeDistance rim ∧
      kernel.weigh point rim = some ⟨100, 1, 1⟩ ∧
      (∃ more, kernel.weigh point near = some more ∧ (100 : Int64) ≤ more.combined) ∧
      kernel.weigh point near = kernel.weigh point twin ∧
      kernel.weigh point gone = none := by
  intro kernel point near twin rim gone
  have valid : Settings.classic.Valid := by decide +kernel
  have placed : point.IsFinite ∧ near.IsPlaced ∧ twin.IsPlaced ∧ rim.IsPlaced ∧ gone.IsPlaced := by
    decide +kernel
  obtain ⟨here, nearPlaced, twinPlaced, rimPlaced, gonePlaced⟩ := placed
  have nearer : point.altitudeDistance near ≤ point.altitudeDistance rim ∧
      point.timeDistance near ≤ point.timeDistance rim := by
    decide +kernel
  have same : point.altitudeDistance near = point.altitudeDistance twin ∧
      point.timeDistance near = point.timeDistance twin := by
    decide +kernel
  have far : (ofFloat kernel.altitudeRange).level ≤ point.altitudeDistance gone := by
    decide +kernel
  have weighed : kernel.weigh point rim = some ⟨100, 1, 1⟩ := by decide +kernel
  obtain ⟨computed, weighs, alike, outside, -⟩ := nearer_weighs_no_less valid here
  obtain ⟨more, nearWeighed, -, -, -, product⟩ :=
    weighs near rim (computed near rim nearPlaced rimPlaced nearer.1 nearer.2) rfl _ weighed
  exact ⟨valid, here, nearPlaced, twinPlaced, rimPlaced, gonePlaced, nearer.1, nearer.2, weighed,
    ⟨more, nearWeighed, product (by decide)⟩,
    alike near twin nearPlaced twinPlaced rfl same.1 same.2, outside gone gonePlaced (.inl far)⟩

end Kernel
end WindsAloft
