import WindsAloft.Proofs.Course
import WindsAloft.Proofs.Weights

/-!
# Settings that never find a wind

A factor is the weight of what is nearest, and no weight of its kind exceeds it
once it is rounded; the quality weight grows with the quality.  So settings never
find a wind just if one of the two factors of nearness, or the weight of the best
quality there is, is rounded to zero.  Where none is, one measurement is enough.
The warnings name a factor that equals zero.  They miss those that are only rounded
to it.
-/

namespace WindsAloft

open Binary64

attribute [local irreducible] unit overflow

namespace Kernel

variable {kernel : Kernel}

/-- The best quality there is. -/
def bestGrade (kernel : Kernel) : Float :=
  ofInt32 Int32.maxValue * kernel.qualityFactor / kernel.maxQuality

theorem qualityWeight_le (sound : kernel.Sound) (quality : Int32) :
    (kernel.qualityWeight quality).toInt ≤ (roundHalfUp kernel.bestGrade).toInt :=
  qualityWeight_mono sound quality.toInt_le

/-- Straight at the point the curve over the altitude is at its full height. -/
theorem altitudeWeight_zero (sound : kernel.Sound) :
    kernel.altitudeWeight 0 = roundHalfUp kernel.altitudeFactor := by
  obtain ⟨f, factor, -⟩ := sound.altitudeFactor.exists_quanta?
  have top : quanta? (2 / (0 * 0 + 1) - 1) = some (unit : ℤ) := by decide +kernel
  exact roundHalfUp_congr (quanta?_one_mul top factor) factor

/-- Straight at the point the curve over the time is at its full height. -/
theorem timeWeight_zero (sound : kernel.Sound) :
    kernel.timeWeight 0 = roundHalfUp kernel.timeFactor := by
  obtain ⟨k, sharpness, positive⟩ := sound.timeSharpness.exists_quanta?
  obtain ⟨f, factor, -⟩ := sound.timeFactor.exists_quanta?
  have rest : quanta? (1 - 0) = some (unit : ℤ) := by decide +kernel
  have square : quanta? (0 * 0) = some 0 := quanta?_zero_mul quanta?_zero quanta?_zero
  have top : quanta?
      (kernel.timeSharpness * (1 - 0) / (0 * 0 + kernel.timeSharpness)) = some (unit : ℤ) :=
    quanta?_div_same (quanta?_mul_of_one sharpness rest) (quanta?_zero_add square sharpness)
      positive.ne'
  exact roundHalfUp_congr (quanta?_one_mul top factor) factor

/-- The sample of the best quality there is, a calm at the origin. -/
def bestSample : Sample :=
  ⟨.calm, Int32.maxValue, 0, 0⟩

/-- The origin of time and altitude. -/
def origin : Point :=
  ⟨0, 0⟩

theorem zero_div_eq_zero {x : Float} {a : ℤ} (value : quanta? x = some a) (positive : 0 < a) :
    0 / x = 0 := by
  have nothing : ofFloat 0 = .finite false 0 := by decide +kernel
  obtain ⟨s, m, finite, -⟩ := exists_finite_of_quanta? value
  have sign := positive_of_quanta? value positive
  rw [finite] at sign
  obtain ⟨rfl, nonzero⟩ := sign
  apply ofFloat_injective
  rw [ofFloat_div, nothing, finite]
  simp only [dividedBy, if_neg nonzero, Nat.cast_zero, zero_mul, zero_div, rounded_zero,
    Bool.xor_false]

/-- From its own place the best sample weighs what the factors say. -/
theorem weigh_bestSample (sound : kernel.Sound) :
    kernel.weigh origin bestSample =
      some ⟨roundHalfUp kernel.bestGrade, roundHalfUp kernel.altitudeFactor,
        roundHalfUp kernel.timeFactor⟩ := by
  obtain ⟨r, altitudeRange, altitudePositive⟩ := sound.altitudeRange.exists_quanta?
  obtain ⟨t, timeRange, timePositive⟩ := sound.timeRange.exists_quanta?
  have altitude : kernel.altitudeOffset origin bestSample = 0 := by
    have here : (0 : Float) - 0 = 0 := by decide +kernel
    show (0 - 0) / kernel.altitudeRange = 0
    rw [here, zero_div_eq_zero altitudeRange altitudePositive]
  have time : kernel.timeOffset origin bestSample = 0 := by
    have now : ((0 : Float) - 0).abs = 0 := by decide +kernel
    show (0 - 0 : Float).abs / kernel.timeRange = 0
    rw [now, zero_div_eq_zero timeRange timePositive]
  have within : (0 : Float).abs < 1 ∧ (0 : Float) < 1 := by decide +kernel
  refine weigh_eq_some_iff.mpr ⟨by rw [altitude, time]; exact within, ?_⟩
  rw [altitude, time, altitudeWeight_zero sound, timeWeight_zero sound]
  rfl

/-- Whether some weight is nothing even at its greatest. -/
def Mute (kernel : Kernel) : Prop :=
  roundHalfUp kernel.altitudeFactor = 0 ∨ roundHalfUp kernel.timeFactor = 0 ∨
    roundHalfUp kernel.bestGrade = 0

theorem greatest_nonneg (sound : kernel.Sound) :
    0 ≤ (roundHalfUp kernel.altitudeFactor).toInt ∧ 0 ≤ (roundHalfUp kernel.timeFactor).toInt ∧
      0 ≤ (roundHalfUp kernel.bestGrade).toInt := by
  obtain ⟨a, altitude, altitudeLower⟩ := sound.altitudeFactor.exists_quanta?
  obtain ⟨t, time, timeLower⟩ := sound.timeFactor.exists_quanta?
  exact ⟨roundHalfUp_nonneg (notNegative_of_quanta? altitude altitudeLower),
    roundHalfUp_nonneg (notNegative_of_quanta? time timeLower),
    qualityWeight_nonneg sound (show 0 ≤ Int32.maxValue.toInt by decide)⟩

/-- A weight that is never more than nothing leaves nothing of the product. -/
theorem combined_nonpos_of_mute
    (sound : kernel.Sound)
    (mute : kernel.Mute)
    {point : Point}
    {sample : Sample}
    {weight : Weight}
    (weighed : kernel.weigh point sample = some weight) :
    weight.combined.toInt ≤ 0 := by
  obtain ⟨⟨altitudeLower, altitudeUpper⟩, timeLower, timeUpper⟩ := nearness_bounds sound weighed
  rcases mute with nothing | nothing | nothing
  · rw [nothing, Int64.toInt_zero] at altitudeUpper
    rw [toInt_combined, le_antisymm altitudeUpper altitudeLower, zero_mul,
      Saturating.clamp_zero, mul_zero, Saturating.clamp_zero]
  · rw [nothing, Int64.toInt_zero] at timeUpper
    rw [toInt_combined, le_antisymm timeUpper timeLower, mul_zero,
      Saturating.clamp_zero, mul_zero, Saturating.clamp_zero]
  · have qualityUpper := qualityWeight_le sound sample.quality
    rw [nothing, Int64.toInt_zero, ← quality_of_weigh weighed] at qualityUpper
    exact combined_nonpos sound weighed qualityUpper

/-- Weights that are not positive add up to no positive total. -/
theorem totalWeight_nonpos
    {point : Point}
    {samples : List Sample}
    (nonpos : ∀ sample ∈ samples, ∀ weight,
      kernel.weigh point sample = some weight → weight.combined.toInt ≤ 0)
    {sum : WeightedSum}
    (start : sum.totalWeight.toInt ≤ 0) :
    (samples.foldl (kernel.accumulate point) sum).totalWeight.toInt ≤ 0 := by
  induction samples generalizing sum with
  | nil => exact start
  | cons sample samples ih =>
      obtain ⟨head, tail⟩ := List.forall_mem_cons.mp nonpos
      refine ih tail ?_
      unfold accumulate
      cases weighed : kernel.weigh point sample with
      | none => exact start
      | some weight =>
          show (Saturating.add sum.totalWeight weight.combined).toInt ≤ 0
          rw [Saturating.toInt_add]
          exact Saturating.clamp_nonpos (add_nonpos start (head weight weighed))

/-- A mute kernel finds a wind among no samples. -/
theorem not_found_of_mute
    (sound : kernel.Sound)
    (mute : kernel.Mute)
    (samples : List Sample)
    (point : Point) :
    (kernel.estimate samples point).found = false := by
  have start : WeightedSum.empty.totalWeight.toInt ≤ 0 := by decide
  have total : (samples.foldl (kernel.accumulate point) .empty).totalWeight.toInt ≤ 0 :=
    totalWeight_nonpos (fun _ _ _ weighed => combined_nonpos_of_mute sound mute weighed) start
  rw [Bool.eq_false_iff]
  intro found
  have positive := (found_iff kernel samples point).mp found
  unfold estimate at positive
  rw [WeightedSum.totalWeight_estimate] at positive
  exact absurd total positive.not_ge

/-- A kernel that is not mute finds the wind of the best sample. -/
theorem found_of_not_mute (sound : kernel.Sound) (notMute : ¬ kernel.Mute) :
    (kernel.estimate [bestSample] origin).found = true := by
  obtain ⟨altitudeLower, timeLower, gradeLower⟩ := greatest_nonneg sound
  simp only [Mute, not_or, ← Int64.toInt_inj] at notMute
  obtain ⟨altitude, time, grade⟩ := notMute
  have altitudePositive := altitudeLower.lt_of_ne' altitude
  have timePositive := timeLower.lt_of_ne' time
  have gradePositive := gradeLower.lt_of_ne' grade
  have positive : 0 < (Weight.mk (roundHalfUp kernel.bestGrade)
      (roundHalfUp kernel.altitudeFactor) (roundHalfUp kernel.timeFactor)).combined.toInt := by
    rw [toInt_combined]
    exact Saturating.clamp_pos
      (mul_pos gradePositive (Saturating.clamp_pos (mul_pos altitudePositive timePositive)))
  rw [found_iff]
  unfold estimate
  rw [WeightedSum.totalWeight_estimate]
  simp only [List.foldl_cons, List.foldl_nil, accumulate, weigh_bestSample sound]
  show 0 < (Saturating.add 0 _).toInt
  rw [Saturating.toInt_add]
  exact Saturating.clamp_pos (by simpa using positive)

/-- What is mute is told by comparing with the double before one half. -/
theorem mute_iff (sound : kernel.Sound) :
    kernel.Mute ↔
      kernel.altitudeFactor < 0.49999999999999994 ∨ kernel.timeFactor < 0.49999999999999994 ∨
        kernel.bestGrade < 0.49999999999999994 := by
  obtain ⟨a, altitude, altitudeLower⟩ := sound.altitudeFactor.exists_quanta?
  obtain ⟨t, time, timeLower⟩ := sound.timeFactor.exists_quanta?
  obtain ⟨f, factor, factorLower⟩ := sound.qualityFactor.exists_quanta?
  obtain ⟨m, most, positive⟩ := sound.maxQuality.exists_quanta?
  have best : 0 ≤ Int32.maxValue.toInt * (unit : ℤ) :=
    mul_nonneg (by decide) (Int.natCast_nonneg _)
  have gradeLower : 0 ≤ kernel.bestGrade := by
    rw [← zero_div_eq_zero most positive]
    exact div_le_div_finite
      (zero_le_mul_finite (quanta?_ofInt32 Int32.maxValue) best factor factorLower) most positive
  unfold Mute
  rw [roundHalfUp_eq_zero_iff ((le_iff_quanta_le quanta?_zero altitude).mpr altitudeLower),
    roundHalfUp_eq_zero_iff ((le_iff_quanta_le quanta?_zero time).mpr timeLower),
    roundHalfUp_eq_zero_iff gradeLower]

end Kernel

namespace Settings

variable {settings : Settings}

/-- Whether no measurements ever lead to a wind, whatever is asked for behind them. -/
def NeverFinds (settings : Settings) : Prop :=
  ∀ samples : List Sample, (∀ sample ∈ samples, sample.IsFinite) → ∀ point : Point,
    (((Replay.start settings).history.addAll samples).query point).found = false

theorem neverFinds_of_mute (valid : settings.Valid) (mute : settings.kernel.Mute) :
    settings.NeverFinds := by
  intro samples _ point
  unfold History.query
  rw [History.addAll_kernel]
  exact Kernel.not_found_of_mute valid.sound mute _ point

/-- The wind of the best sample as the only measurement. -/
theorem query_bestSample (settings : Settings) :
    ((Replay.start settings).history.add Kernel.bestSample).1.query Kernel.origin =
      settings.kernel.estimate [Kernel.bestSample] Kernel.origin := by
  have room : (Replay.start settings).history.store.size <
      (Replay.start settings).history.store.capacity :=
    (Replay.start settings).history.store.capacity_pos
  have held := (Store.insert_of_room room Kernel.bestSample).2.1
  exact congrArg (settings.kernel.estimate · Kernel.origin) held

/-- Whether a warning says that no wind will be found. -/
def Warned (settings : Settings) : Prop :=
  ∃ field : String,
    "estimator." ++ field ++ " is 0 - every weight is zero and no wind will be found" ∈
      settings.warnings

theorem getLast?_append {back : String} {c : Char}
    (last : back.toList.getLast? = some c)
    (front : String) :
    (front ++ back).toList.getLast? = some c := by
  rw [String.toList_append, List.getLast?_append, last]
  rfl

/-- A warning that no wind will be found is one about a factor: all others end otherwise. -/
theorem warned_iff (settings : Settings) :
    settings.Warned ↔
      (settings.kernel.qualityFactor == 0) = true ∨
        (settings.kernel.altitudeFactor == 0) = true ∨
          (settings.kernel.timeFactor == 0) = true := by
  have ofFactor (field text : String) (factor : Float)
      (inside : text ∈ deadFactorWarning field factor) : (factor == 0) = true := by
    unfold deadFactorWarning at inside
    split at inside
    · next zero => exact zero
    · exact absurd inside List.not_mem_nil
  have toFactor (field : String) (factor : Float) (zero : (factor == 0) = true) :
      "estimator." ++ field ++ " is 0 - every weight is zero and no wind will be found" ∈
        deadFactorWarning field factor := by
    unfold deadFactorWarning
    rw [if_pos zero]
    exact List.mem_singleton_self _
  unfold Warned
  constructor
  · rintro ⟨field, inside⟩
    have last := getLast?_append
      (show " is 0 - every weight is zero and no wind will be found".toList.getLast? = some 'd'
        by decide) ("estimator." ++ field)
    generalize "estimator." ++ field ++ " is 0 - every weight is zero and no wind will be found" =
      text at inside last
    unfold warnings at inside
    rcases List.mem_append.mp inside with inside | inside
    · rcases List.mem_append.mp inside with inside | inside
      · rcases List.mem_append.mp inside with inside | inside
        · rcases List.mem_append.mp inside with inside | inside
          · exact .inl (ofFactor _ _ _ inside)
          · exact .inr (.inl (ofFactor _ _ _ inside))
        · exact .inr (.inr (ofFactor _ _ _ inside))
      · split at inside
        · rw [List.mem_singleton.mp inside, getLast?_append (c := 'l') (by decide)] at last
          cases last
        · exact absurd inside List.not_mem_nil
    · split at inside
      · rw [List.mem_singleton.mp inside] at last
        exact absurd last (by decide)
      · exact absurd inside List.not_mem_nil
  · rintro (zero | zero | zero)
    · exact ⟨_, List.mem_append_left _ (List.mem_append_left _ (List.mem_append_left _
        (List.mem_append_left _ (toFactor _ _ zero))))⟩
    · exact ⟨_, List.mem_append_left _ (List.mem_append_left _ (List.mem_append_left _
        (List.mem_append_right _ (toFactor _ _ zero))))⟩
    · exact ⟨_, List.mem_append_left _ (List.mem_append_left _
        (List.mem_append_right _ (toFactor _ _ zero)))⟩

/-- A factor of zero is one of those that are rounded to zero. -/
theorem mute_of_zero_factor
    {kernel : Kernel}
    (sound : kernel.Sound)
    (zero : (kernel.qualityFactor == 0) = true ∨ (kernel.altitudeFactor == 0) = true ∨
      (kernel.timeFactor == 0) = true) :
    kernel.Mute := by
  obtain ⟨f, quality, -⟩ := sound.qualityFactor.exists_quanta?
  obtain ⟨a, altitude, -⟩ := sound.altitudeFactor.exists_quanta?
  obtain ⟨t, time, -⟩ := sound.timeFactor.exists_quanta?
  obtain ⟨m, most, positive⟩ := sound.maxQuality.exists_quanta?
  rw [beq_iff_quanta_eq quality quanta?_zero, beq_iff_quanta_eq altitude quanta?_zero,
    beq_iff_quanta_eq time quanta?_zero] at zero
  rcases zero with rfl | rfl | rfl
  · right
    right
    have grade : quanta? kernel.bestGrade = some 0 :=
      quanta?_zero_div (quanta?_mul_zero (Kernel.quanta?_ofInt32 _) quality) most positive.ne'
    rw [roundHalfUp_congr grade quanta?_zero, roundHalfUp_zero]
  · left
    rw [roundHalfUp_congr altitude quanta?_zero, roundHalfUp_zero]
  · right
    left
    rw [roundHalfUp_congr time quanta?_zero, roundHalfUp_zero]

/--
Valid settings that are warned about never find a wind.  But the warnings look for factors
equal to zero, while a wind is never found just if one of the factors of nearness or the
grade of the best quality falls short of the double before one half.  Where that is not so,
a single measurement is enough.
-/
theorem warned_and_neverFinds_iff (valid : settings.Valid) :
    let kernel := settings.kernel
    (settings.Warned ↔
      (kernel.qualityFactor == 0) = true ∨ (kernel.altitudeFactor == 0) = true ∨
        (kernel.timeFactor == 0) = true) ∧
      (settings.Warned → settings.NeverFinds) ∧
      (settings.NeverFinds ↔
        kernel.altitudeFactor < 0.49999999999999994 ∨ kernel.timeFactor < 0.49999999999999994 ∨
          ofInt32 Int32.maxValue * kernel.qualityFactor / kernel.maxQuality <
            0.49999999999999994) ∧
      (¬ settings.NeverFinds → ∃ sample : Sample, sample.IsFinite ∧ ∃ point : Point,
        point.IsFinite ∧
          (((Replay.start settings).history.add sample).1.query point).found = true) := by
  intro kernel
  have sound : kernel.Sound := valid.sound
  have best : Kernel.bestSample.IsFinite ∧ Kernel.origin.IsFinite := by decide +kernel
  have single (notMute : ¬ kernel.Mute) :
      (((Replay.start settings).history.add Kernel.bestSample).1.query Kernel.origin).found =
        true := by
    rw [query_bestSample]
    exact Kernel.found_of_not_mute sound notMute
  have neverFinds_iff : settings.NeverFinds ↔ kernel.Mute := by
    refine ⟨fun never => ?_, neverFinds_of_mute valid⟩
    by_contra notMute
    have silent := never [Kernel.bestSample] (by simpa using best.1) Kernel.origin
    exact Bool.false_ne_true (silent.symm.trans (single notMute))
  refine ⟨warned_iff settings, ?_, neverFinds_iff.trans (Kernel.mute_iff sound), ?_⟩
  · intro warned
    exact neverFinds_iff.mpr (mute_of_zero_factor sound ((warned_iff settings).mp warned))
  · intro finds
    exact ⟨_, best.1, _, best.2, single fun mute => finds (neverFinds_iff.mpr mute)⟩

/-- A factor of three tenths is rounded to zero, and no warning says so. -/
theorem faint_not_warned :
    let settings : Settings :=
      { Settings.classic with kernel := { Kernel.classic with altitudeFactor := 0.3 } }
    settings.Valid ∧ settings.NeverFinds ∧ ¬ settings.Warned := by
  intro settings
  have valid : settings.Valid := by decide +kernel
  obtain ⟨warned, -, never, -⟩ := warned_and_neverFinds_iff valid
  refine ⟨valid, never.mpr (.inl (by decide +kernel)), ?_⟩
  rw [warned]
  decide +kernel

end Settings
end WindsAloft
