import WindsAloft.Proofs.Binary64.Distances
import WindsAloft.Settings

/-!
# Weights within the window

Valid settings give a kernel whose ranges, sharpness and greatest quality are
above zero and whose factors are not below it.  Within the window the curves
over the altitude offset and over the time offset then lie between nothing and
one, also in double arithmetic, since every bound on the way is a double.  So
each weight of nearness lies between nothing and its rounded factor.  The weight
of the quality grows with the quality and is nothing where that is zero.
-/

namespace WindsAloft

open Binary64

attribute [local irreducible] unit overflow

theorem Settings.IsPositive.exists_quanta? {x : Float} (positive : IsPositive x) :
    ∃ a, quanta? x = some a ∧ 0 < a := by
  obtain ⟨a, value⟩ := (isFinite_iff x).mp positive.1
  refine ⟨a, value, ?_⟩
  by_contra notPositive
  exact positive.2 ((le_iff_quanta_le value quanta?_zero).mpr (not_lt.mp notPositive))

theorem Settings.IsNonnegative.exists_quanta? {x : Float} (nonnegative : IsNonnegative x) :
    ∃ a, quanta? x = some a ∧ 0 ≤ a := by
  obtain ⟨a, value⟩ := (isFinite_iff x).mp nonnegative.1
  refine ⟨a, value, ?_⟩
  by_contra negative
  exact nonnegative.2 ((lt_iff_quanta_lt value quanta?_zero).mpr (not_le.mp negative))

/-- What the rules say of a kernel. -/
structure Kernel.Sound (kernel : Kernel) : Prop where
  altitudeRange : Settings.IsPositive kernel.altitudeRange
  timeRange : Settings.IsPositive kernel.timeRange
  timeSharpness : Settings.IsPositive kernel.timeSharpness
  maxQuality : Settings.IsPositive kernel.maxQuality
  qualityFactor : Settings.IsNonnegative kernel.qualityFactor
  altitudeFactor : Settings.IsNonnegative kernel.altitudeFactor
  timeFactor : Settings.IsNonnegative kernel.timeFactor

theorem Settings.positive_eq_none_iff (field : String) (x : Float) :
    positive field x = none ↔ IsPositive x := by
  unfold positive
  split <;> simp_all

theorem Settings.nonnegative_eq_none_iff (field : String) (x : Float) :
    nonnegative field x = none ↔ IsNonnegative x := by
  unfold nonnegative
  split <;> simp_all

theorem Settings.Valid.sound {settings : Settings} (valid : settings.Valid) :
    settings.kernel.Sound := by
  unfold Settings.Valid Settings.complaint? at valid
  simp only [Option.orElse_eq_none, positive_eq_none_iff,
    nonnegative_eq_none_iff] at valid
  obtain ⟨-, -, altitudeRange, timeRange, timeSharpness, maxQuality, qualityFactor,
    altitudeFactor, timeFactor⟩ := valid
  exact ⟨altitudeRange, timeRange, timeSharpness, maxQuality, qualityFactor, altitudeFactor,
    timeFactor⟩

theorem isDouble_unit : IsDouble (unit : ℤ) :=
  isDouble_of_quanta? quanta?_one

theorem isDouble_two_units : IsDouble (2 * unit : ℤ) :=
  isDouble_of_quanta? quanta?_two

section Curves

variable {x y : Float} {a b : ℤ}

/-- The square of what is less than one is at most one. -/
theorem exists_quanta?_square (value : quanta? x = some a) (inside : |a| ≤ unit) :
    ∃ c, quanta? (x * x) = some c ∧ 0 ≤ c ∧ c ≤ unit := by
  rw [quanta?_mul value value]
  refine exists_limit?_near isDouble_zero isDouble_unit ?_ ?_
  · rw [Int.cast_zero]
    exact div_nonneg (mul_self_nonneg _) unit_pos.le
  · have magnitude : |(a : ℚ)| ≤ unit := by exact_mod_cast inside
    rw [div_le_iff₀ unit_pos, Int.cast_natCast, ← abs_mul_abs_self]
    exact mul_self_le_mul_self (abs_nonneg _) magnitude

/-- A share of what is not negative lies between nothing and the whole. -/
theorem exists_quanta?_share
    (left : quanta? x = some a)
    (right : quanta? y = some b)
    (lower : 0 ≤ a)
    (upper : a ≤ unit)
    (nonnegative : 0 ≤ b) :
    ∃ c, quanta? (x * y) = some c ∧ 0 ≤ c ∧ c ≤ b := by
  have lower' : (0 : ℚ) ≤ a := by exact_mod_cast lower
  have upper' : (a : ℚ) ≤ unit := by exact_mod_cast upper
  have nonnegative' : (0 : ℚ) ≤ b := by exact_mod_cast nonnegative
  rw [quanta?_mul left right]
  refine exists_limit?_near isDouble_zero (isDouble_of_quanta? right) ?_ ?_
  · rw [Int.cast_zero]
    exact div_nonneg (mul_nonneg lower' nonnegative') unit_pos.le
  · rw [div_le_iff₀ unit_pos, mul_comm]
    exact mul_le_mul_of_nonneg_left upper' nonnegative'

/-- The divisor of the curve over the altitude offset lies between one and two. -/
theorem exists_quanta?_altitudeDivisor (value : quanta? x = some a) (inside : |a| ≤ unit) :
    ∃ d, quanta? (x * x + 1) = some d ∧ (unit : ℤ) ≤ d ∧ d ≤ 2 * unit := by
  obtain ⟨s, square, lower, upper⟩ := exists_quanta?_square value inside
  have lower' : (0 : ℚ) ≤ s := by exact_mod_cast lower
  have upper' : (s : ℚ) ≤ unit := by exact_mod_cast upper
  rw [quanta?_add square quanta?_one]
  refine exists_limit?_near isDouble_unit isDouble_two_units ?_ ?_
  · push_cast
    linarith
  · push_cast
    linarith

/-- The curve over the altitude offset lies between nothing and one. -/
theorem exists_quanta?_altitudeCurve (value : quanta? x = some a) (inside : |a| ≤ unit) :
    ∃ c, quanta? (2 / (x * x + 1) - 1) = some c ∧ 0 ≤ c ∧ c ≤ unit := by
  have one : (0 : ℚ) < unit := unit_pos
  obtain ⟨d, divisor, divisorLower, divisorUpper⟩ := exists_quanta?_altitudeDivisor value inside
  have divisorLower' : (unit : ℚ) ≤ d := by exact_mod_cast divisorLower
  have divisorUpper' : (d : ℚ) ≤ 2 * unit := by exact_mod_cast divisorUpper
  have divisorPositive : (0 : ℚ) < d := one.trans_le divisorLower'
  obtain ⟨q, quotient, quotientLower, quotientUpper⟩ :
      ∃ q, quanta? (2 / (x * x + 1)) = some q ∧ (unit : ℤ) ≤ q ∧ q ≤ 2 * unit := by
    rw [quanta?_div quanta?_two divisor (by exact_mod_cast divisorPositive.ne')]
    refine exists_limit?_near isDouble_unit isDouble_two_units ?_ ?_
    · push_cast
      rw [le_div_iff₀ divisorPositive, mul_comm]
      exact mul_le_mul_of_nonneg_right divisorUpper' one.le
    · push_cast
      rw [div_le_iff₀ divisorPositive]
      exact mul_le_mul_of_nonneg_left divisorLower' (by positivity)
  have quotientLower' : (unit : ℚ) ≤ q := by exact_mod_cast quotientLower
  have quotientUpper' : (q : ℚ) ≤ 2 * unit := by exact_mod_cast quotientUpper
  rw [quanta?_sub quotient quanta?_one]
  refine exists_limit?_near isDouble_zero isDouble_unit ?_ ?_
  · push_cast
    linarith
  · push_cast
    linarith

/-- What an offset leaves of one lies between nothing and one. -/
theorem exists_quanta?_rest (value : quanta? x = some a) (lower : 0 ≤ a) (upper : a ≤ unit) :
    ∃ r, quanta? (1 - x) = some r ∧ 0 ≤ r ∧ r ≤ unit := by
  have lower' : (0 : ℚ) ≤ a := by exact_mod_cast lower
  have upper' : (a : ℚ) ≤ unit := by exact_mod_cast upper
  rw [quanta?_sub quanta?_one value]
  refine exists_limit?_near isDouble_zero isDouble_unit ?_ ?_
  · push_cast
    linarith
  · push_cast
    linarith

/-- The dividend of the curve over the time offset is a share of the sharpness. -/
theorem exists_quanta?_timeDividend
    (value : quanta? x = some a)
    (sharpness : quanta? y = some b)
    (lower : 0 ≤ a)
    (upper : a ≤ unit)
    (nonnegative : 0 ≤ b) :
    ∃ p, quanta? (y * (1 - x)) = some p ∧ 0 ≤ p ∧ p ≤ b := by
  obtain ⟨r, rest, restLower, restUpper⟩ := exists_quanta?_rest value lower upper
  have commuted := exists_quanta?_share rest sharpness restLower restUpper nonnegative
  rw [quanta?_mul rest sharpness, mul_comm (r : ℚ)] at commuted
  rwa [quanta?_mul sharpness rest]

/-- The curve over the time offset lies between nothing and one, whatever its sharpness is. -/
theorem exists_quanta?_timeCurve
    (value : quanta? x = some a)
    (sharpness : quanta? y = some b)
    (lower : 0 ≤ a)
    (upper : a ≤ unit)
    (positive : 0 < b) :
    ∃ c, quanta? (y * (1 - x) / (x * x + y)) = some c ∧ 0 ≤ c ∧ c ≤ unit := by
  obtain ⟨p, share, shareLower, shareUpper⟩ :=
    exists_quanta?_timeDividend value sharpness lower upper positive.le
  obtain ⟨s, square, squareLower, squareUpper⟩ :=
    exists_quanta?_square value (abs_le.mpr ⟨by omega, upper⟩)
  cases divisor : quanta? (x * x + y) with
  | none =>
      -- An infinite divisor, whether or not there can be one, leaves nothing of the curve.
      obtain ⟨sign, infinite⟩ := exists_infinite_of_add square sharpness divisor
      exact ⟨0, quanta?_div_infinite share infinite, le_rfl, Int.natCast_nonneg _⟩
  | some d =>
      have squareLower' : (0 : ℚ) ≤ s := by exact_mod_cast squareLower
      have divisorLower : b ≤ d := by
        rw [quanta?_add square sharpness] at divisor
        exact le_of_limit?_near (isDouble_of_quanta? sharpness) (by linarith) divisor
      have divisorPositive : 0 < d := positive.trans_le divisorLower
      have shareLower' : (0 : ℚ) ≤ p := by exact_mod_cast shareLower
      have below : (p : ℚ) ≤ d := by exact_mod_cast shareUpper.trans divisorLower
      have divisorPositive' : (0 : ℚ) < d := by exact_mod_cast divisorPositive
      rw [quanta?_div share divisor divisorPositive.ne']
      refine exists_limit?_near isDouble_zero isDouble_unit ?_ ?_
      · rw [Int.cast_zero]
        exact div_nonneg (mul_nonneg shareLower' unit_pos.le) divisorPositive'.le
      · rw [div_le_iff₀ divisorPositive', mul_comm, Int.cast_natCast]
        exact mul_le_mul_of_nonneg_left below unit_pos.le

end Curves

namespace Kernel

variable {kernel : Kernel} {point : Point} {sample : Sample} {weight : Weight}

theorem weigh_eq_some_iff :
    kernel.weigh point sample = some weight ↔
      ((kernel.altitudeOffset point sample).abs < 1 ∧ kernel.timeOffset point sample < 1) ∧
        Weight.mk (kernel.qualityWeight sample.quality)
          (kernel.altitudeWeight (kernel.altitudeOffset point sample))
          (kernel.timeWeight (kernel.timeOffset point sample)) = weight := by
  simp only [weigh, Option.ite_none_right_eq_some, Option.some.injEq]

/-- Of a sample's place only its distances from the point matter. -/
theorem weigh_of_abs_eq
    (kernel : Kernel)
    {point other : Point}
    {sample twin : Sample}
    (altitude :
      (point.altitude - sample.altitude).abs = (other.altitude - twin.altitude).abs)
    (time : (point.time - sample.time).abs = (other.time - twin.time).abs)
    (quality : sample.quality = twin.quality) :
    kernel.weigh point sample = kernel.weigh other twin := by
  have offset :
      (kernel.altitudeOffset point sample).abs = (kernel.altitudeOffset other twin).abs :=
    abs_div_of_abs_eq altitude kernel.altitudeRange
  have altitudeWeight :
      kernel.altitudeWeight (kernel.altitudeOffset point sample) =
        kernel.altitudeWeight (kernel.altitudeOffset other twin) := by
    unfold Kernel.altitudeWeight
    rw [mul_self_of_abs_eq offset]
  have timeOffset : kernel.timeOffset point sample = kernel.timeOffset other twin := by
    unfold Kernel.timeOffset
    rw [time]
  simp only [weigh, offset, altitudeWeight, timeOffset, quality]

theorem quanta?_of_abs_lt_one {x : Float} (inside : x.abs < 1) :
    ∃ a, quanta? x = some a ∧ |a| < unit := by
  have notNegative : (ofFloat x.abs).NotNegative := by
    rw [ofFloat_abs]
    exact notNegative_unsigned _
  obtain ⟨b, absolute, -, below⟩ := exists_quanta?_of_lt notNegative inside quanta?_one
  rw [quanta?_abs] at absolute
  obtain ⟨a, value, rfl⟩ := Option.map_eq_some_iff.mp absolute
  exact ⟨a, value, below⟩

theorem notNegative_timeOffset (sound : kernel.Sound) :
    (ofFloat (kernel.timeOffset point sample)).NotNegative := by
  obtain ⟨r, range, positive⟩ := sound.timeRange.exists_quanta?
  unfold timeOffset
  rw [ofFloat_div, ofFloat_abs]
  exact (notNegative_unsigned _).dividedBy (positive_of_quanta? range positive)

/-- What is rounded to the weight of an altitude offset is a share of the factor. -/
theorem exists_quanta?_altitudeShare
    (sound : kernel.Sound)
    {offset : Float}
    (inside : offset.abs < 1) :
    ∃ p f, quanta? ((2 / (offset * offset + 1) - 1) * kernel.altitudeFactor) = some p ∧
      quanta? kernel.altitudeFactor = some f ∧ 0 ≤ p ∧ p ≤ f := by
  obtain ⟨a, value, within⟩ := quanta?_of_abs_lt_one inside
  obtain ⟨f, factor, factorLower⟩ := sound.altitudeFactor.exists_quanta?
  obtain ⟨c, curve, curveLower, curveUpper⟩ := exists_quanta?_altitudeCurve value within.le
  obtain ⟨p, product, lower, upper⟩ :=
    exists_quanta?_share curve factor curveLower curveUpper factorLower
  exact ⟨p, f, product, factor, lower, upper⟩

/-- What is rounded to the weight of a time offset is a share of the factor. -/
theorem exists_quanta?_timeShare
    (sound : kernel.Sound)
    {offset : Float}
    (notNegative : (ofFloat offset).NotNegative)
    (inside : offset < 1) :
    ∃ p f,
      quanta? (kernel.timeSharpness * (1 - offset) / (offset * offset + kernel.timeSharpness)
        * kernel.timeFactor) = some p ∧
      quanta? kernel.timeFactor = some f ∧ 0 ≤ p ∧ p ≤ f := by
  obtain ⟨a, value, lower, upper⟩ := exists_quanta?_of_lt notNegative inside quanta?_one
  obtain ⟨k, sharpness, positive⟩ := sound.timeSharpness.exists_quanta?
  obtain ⟨f, factor, factorLower⟩ := sound.timeFactor.exists_quanta?
  obtain ⟨c, curve, curveLower, curveUpper⟩ :=
    exists_quanta?_timeCurve value sharpness lower upper.le positive
  obtain ⟨p, product, productLower, productUpper⟩ :=
    exists_quanta?_share curve factor curveLower curveUpper factorLower
  exact ⟨p, f, product, factor, productLower, productUpper⟩

/-- The weight of an altitude offset lies between nothing and the rounded factor. -/
theorem altitudeWeight_bounds
    (sound : kernel.Sound)
    {offset : Float}
    (inside : offset.abs < 1) :
    0 ≤ (kernel.altitudeWeight offset).toInt ∧
      (kernel.altitudeWeight offset).toInt ≤ (roundHalfUp kernel.altitudeFactor).toInt := by
  obtain ⟨p, f, share, factor, lower, upper⟩ := exists_quanta?_altitudeShare sound inside
  exact ⟨roundHalfUp_nonneg (notNegative_of_quanta? share lower),
    roundHalfUp_mono ((le_iff_quanta_le share factor).mpr upper)⟩

/-- The weight of a time offset lies between nothing and the rounded factor. -/
theorem timeWeight_bounds
    (sound : kernel.Sound)
    {offset : Float}
    (notNegative : (ofFloat offset).NotNegative)
    (inside : offset < 1) :
    0 ≤ (kernel.timeWeight offset).toInt ∧
      (kernel.timeWeight offset).toInt ≤ (roundHalfUp kernel.timeFactor).toInt := by
  obtain ⟨p, f, share, factor, lower, upper⟩ := exists_quanta?_timeShare sound notNegative inside
  exact ⟨roundHalfUp_nonneg (notNegative_of_quanta? share lower),
    roundHalfUp_mono ((le_iff_quanta_le share factor).mpr upper)⟩

theorem quanta?_ofInt32 (quality : Int32) :
    quanta? (ofInt32 quality) = some (quality.toInt * unit) := by
  apply quanta?_ofInt_whole
  have lower := quality.le_toInt
  have upper := quality.toInt_lt
  rw [abs_le]
  omega

/-- A better quality is graded no worse. -/
theorem grade_mono
    (sound : kernel.Sound)
    {worse better : Int32}
    (order : worse.toInt ≤ better.toInt) :
    ofInt32 worse * kernel.qualityFactor / kernel.maxQuality ≤
      ofInt32 better * kernel.qualityFactor / kernel.maxQuality := by
  obtain ⟨f, factor, factorLower⟩ := sound.qualityFactor.exists_quanta?
  obtain ⟨m, most, positive⟩ := sound.maxQuality.exists_quanta?
  have scaled : worse.toInt * (unit : ℤ) ≤ better.toInt * unit :=
    mul_le_mul_of_nonneg_right order (Int.natCast_nonneg _)
  exact div_le_div_finite
    (mul_le_mul_finite (quanta?_ofInt32 worse) (quanta?_ofInt32 better) scaled factor factorLower)
    most positive

/-- A better quality weighs no less. -/
theorem qualityWeight_mono
    (sound : kernel.Sound)
    {worse better : Int32}
    (order : worse.toInt ≤ better.toInt) :
    (kernel.qualityWeight worse).toInt ≤ (kernel.qualityWeight better).toInt :=
  roundHalfUp_mono (grade_mono sound order)

/-- A quality of zero weighs nothing. -/
theorem qualityWeight_zero (sound : kernel.Sound) : kernel.qualityWeight 0 = 0 := by
  obtain ⟨f, factor, -⟩ := sound.qualityFactor.exists_quanta?
  obtain ⟨m, most, positive⟩ := sound.maxQuality.exists_quanta?
  have zero : quanta? (ofInt32 0) = some 0 := by
    rw [quanta?_ofInt32, show (0 : Int32).toInt = 0 from rfl, zero_mul]
  have grade : quanta? (ofInt32 0 * kernel.qualityFactor / kernel.maxQuality) = some 0 :=
    quanta?_zero_div (quanta?_zero_mul zero factor) most positive.ne'
  unfold qualityWeight
  rw [roundHalfUp_congr grade quanta?_zero, roundHalfUp_zero]

theorem qualityWeight_nonneg
    (sound : kernel.Sound)
    {quality : Int32}
    (nonnegative : 0 ≤ quality.toInt) :
    0 ≤ (kernel.qualityWeight quality).toInt := by
  have order : (kernel.qualityWeight 0).toInt ≤ (kernel.qualityWeight quality).toInt :=
    qualityWeight_mono sound nonnegative
  rwa [qualityWeight_zero sound] at order

theorem qualityWeight_nonpos
    (sound : kernel.Sound)
    {quality : Int32}
    (nonpositive : quality.toInt ≤ 0) :
    (kernel.qualityWeight quality).toInt ≤ 0 := by
  have order : (kernel.qualityWeight quality).toInt ≤ (kernel.qualityWeight 0).toInt :=
    qualityWeight_mono sound nonpositive
  rwa [qualityWeight_zero sound] at order

/-- The weights of nearness lie between nothing and the rounded factors. -/
theorem nearness_bounds
    (sound : kernel.Sound)
    (weighed : kernel.weigh point sample = some weight) :
    (0 ≤ weight.altitude.toInt ∧
      weight.altitude.toInt ≤ (roundHalfUp kernel.altitudeFactor).toInt) ∧
    (0 ≤ weight.time.toInt ∧
      weight.time.toInt ≤ (roundHalfUp kernel.timeFactor).toInt) := by
  obtain ⟨⟨inAltitude, inTime⟩, rfl⟩ := weigh_eq_some_iff.mp weighed
  exact ⟨altitudeWeight_bounds sound inAltitude,
    timeWeight_bounds sound (notNegative_timeOffset sound) inTime⟩

/-- The two weights of nearness make up a product that is not negative. -/
theorem nearness_nonneg
    (sound : kernel.Sound)
    (weighed : kernel.weigh point sample = some weight) :
    0 ≤ Saturating.clamp (weight.altitude.toInt * weight.time.toInt) := by
  obtain ⟨⟨altitude, -⟩, time, -⟩ := nearness_bounds sound weighed
  exact Saturating.clamp_nonneg (mul_nonneg altitude time)

/-- The quality of a sample within the window is weighed as it would be anywhere. -/
theorem quality_of_weigh (weighed : kernel.weigh point sample = some weight) :
    weight.quality = kernel.qualityWeight sample.quality := by
  obtain ⟨-, rfl⟩ := weigh_eq_some_iff.mp weighed
  rfl

theorem quality_nonneg
    (sound : kernel.Sound)
    (nonnegative : 0 ≤ sample.quality.toInt)
    (weighed : kernel.weigh point sample = some weight) :
    0 ≤ weight.quality.toInt := by
  rw [quality_of_weigh weighed]
  exact qualityWeight_nonneg sound nonnegative

theorem quality_nonpos
    (sound : kernel.Sound)
    (nonpositive : sample.quality.toInt ≤ 0)
    (weighed : kernel.weigh point sample = some weight) :
    weight.quality.toInt ≤ 0 := by
  rw [quality_of_weigh weighed]
  exact qualityWeight_nonpos sound nonpositive

theorem toInt_combined (weight : Weight) :
    weight.combined.toInt =
      Saturating.clamp (weight.quality.toInt *
        Saturating.clamp (weight.altitude.toInt * weight.time.toInt)) := by
  unfold Weight.combined
  rw [Saturating.toInt_mul, Saturating.toInt_mul]

/-- No weight within the window is negative, unless the quality is. -/
theorem combined_nonneg
    (sound : kernel.Sound)
    (nonnegative : 0 ≤ sample.quality.toInt)
    (weighed : kernel.weigh point sample = some weight) :
    0 ≤ weight.combined.toInt := by
  rw [toInt_combined]
  exact Saturating.clamp_nonneg
    (mul_nonneg (quality_nonneg sound nonnegative weighed) (nearness_nonneg sound weighed))

/-- A quality that is weighed at nothing or less leaves nothing or less of the product. -/
theorem combined_nonpos
    (sound : kernel.Sound)
    (weighed : kernel.weigh point sample = some weight)
    (nonpositive : weight.quality.toInt ≤ 0) :
    weight.combined.toInt ≤ 0 := by
  rw [toInt_combined]
  exact Saturating.clamp_nonpos
    (mul_nonpos_of_nonpos_of_nonneg nonpositive (nearness_nonneg sound weighed))

end Kernel
end WindsAloft
