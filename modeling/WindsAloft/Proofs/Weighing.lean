import WindsAloft.Proofs.Weights

/-!
# Weighing without mishap

Doubles divide by zero without complaint, and what is not a number is rounded to zero as
if it were one.  This module weighs a sample once more with a guard at every division and
every rounding.  Valid settings pass all of them, wherever the sample and the point are:
the rules keep every divisor at or above some positive double, the dividends may become
infinite but never stop being numbers, and differences that are no numbers leave the window
before anything is made of them.

So each weight is what its formula means: the weights of nearness lie between nothing and
their rounded factors, and the sign of the product is the one of the quality.
-/

namespace WindsAloft

open Binary64

attribute [local irreducible] unit overflow

/-- What must not happen on the way to a weight. -/
inductive Mishap where
  /-- A division by zero, of either sign. -/
  | zeroDivisor
  /-- The rounding of what is not a number. -/
  | notANumber
  deriving DecidableEq, Repr

namespace Guarded

/-- A quotient, if the divisor is not zero. -/
def divide (x y : Float) : Except Mishap Float :=
  if y == 0 then .error .zeroDivisor else .ok (x / y)

/-- The nearest integer, if there is a number to be rounded. -/
def round (x : Float) : Except Mishap Int64 :=
  if x.isNaN then .error .notANumber else .ok (roundHalfUp x)

/-- The weight a quality earns. -/
def qualityWeight (kernel : Kernel) (quality : Int32) : Except Mishap Int64 := do
  let grade ← divide (ofInt32 quality * kernel.qualityFactor) kernel.maxQuality
  round grade

/-- The weight of an altitude offset. -/
def altitudeWeight (kernel : Kernel) (offset : Float) : Except Mishap Int64 := do
  let quotient ← divide 2 (offset * offset + 1)
  round ((quotient - 1) * kernel.altitudeFactor)

/-- The weight of a time offset. -/
def timeWeight (kernel : Kernel) (offset : Float) : Except Mishap Int64 := do
  let curve ← divide (kernel.timeSharpness * (1 - offset)) (offset * offset + kernel.timeSharpness)
  round (curve * kernel.timeFactor)

/-- The weights of a sample as seen from a point, `none` outside the window. -/
def weigh
    (kernel : Kernel)
    (point : Point)
    (sample : Sample) :
    Except Mishap (Option Weight) := do
  let altitudeOffset ← divide (point.altitude - sample.altitude) kernel.altitudeRange
  let timeOffset ← divide (point.time - sample.time).abs kernel.timeRange
  if altitudeOffset.abs < 1 ∧ timeOffset < 1 then
    let quality ← qualityWeight kernel sample.quality
    let altitude ← altitudeWeight kernel altitudeOffset
    let time ← timeWeight kernel timeOffset
    return some ⟨quality, altitude, time⟩
  else
    return none

section Passing

variable {kernel : Kernel} {x y z : Float} {c : ℤ}

/-- A divisor that is at least some positive double passes. -/
theorem divide_eq
    (value : quanta? z = some c)
    (positive : 0 < c)
    (above : z ≤ y)
    (x : Float) :
    divide x y = .ok (x / y) := by
  unfold divide
  rw [beq_zero_eq_false value positive above]
  rfl

/-- A divisor that is a positive double itself passes. -/
theorem divide_eq_of_positive (positive : Settings.IsPositive y) (x : Float) :
    divide x y = .ok (x / y) := by
  obtain ⟨c, value, above⟩ := positive.exists_quanta?
  exact divide_eq value above ((le_iff_quanta_le value value).mpr le_rfl) x

/-- A number passes, also an infinite one. -/
theorem round_eq (number : ofFloat x ≠ .nan) : round x = .ok (roundHalfUp x) := by
  have notNaN : ¬ x.isNaN = true := fun nan => number ((isNaN_iff x).mp nan)
  unfold round
  rw [if_neg notNaN]

theorem qualityWeight_eq (sound : kernel.Sound) (quality : Int32) :
    qualityWeight kernel quality = .ok (kernel.qualityWeight quality) := by
  -- What stands in the order, if only beside itself, is a number.
  have number := (ne_nan_of_le (Kernel.grade_mono sound (le_refl quality.toInt))).1
  unfold qualityWeight
  rw [divide_eq_of_positive sound.maxQuality]
  exact round_eq number

theorem altitudeWeight_eq (sound : kernel.Sound) {offset : Float} (inside : offset.abs < 1) :
    altitudeWeight kernel offset = .ok (kernel.altitudeWeight offset) := by
  obtain ⟨a, value, within⟩ := Kernel.quanta?_of_abs_lt_one inside
  obtain ⟨d, divisor, above, -⟩ := exists_quanta?_altitudeDivisor value within.le
  obtain ⟨p, -, share, -⟩ := Kernel.exists_quanta?_altitudeShare sound inside
  have one : (0 : ℤ) < unit := unit_pos_int
  unfold altitudeWeight
  rw [divide_eq quanta?_one one ((le_iff_quanta_le quanta?_one divisor).mpr above)]
  exact round_eq (ne_nan_of_quanta? share)

theorem timeWeight_eq
    (sound : kernel.Sound)
    {offset : Float}
    (notNegative : (ofFloat offset).NotNegative)
    (inside : offset < 1) :
    timeWeight kernel offset = .ok (kernel.timeWeight offset) := by
  obtain ⟨a, value, -, -⟩ := exists_quanta?_of_lt notNegative inside quanta?_one
  obtain ⟨k, sharpness, positive⟩ := sound.timeSharpness.exists_quanta?
  obtain ⟨p, -, share, -⟩ := Kernel.exists_quanta?_timeShare sound notNegative inside
  unfold timeWeight
  rw [divide_eq sharpness positive (le_mul_self_add value sharpness)]
  exact round_eq (ne_nan_of_quanta? share)

/-- No guard ever stops the weighing. -/
theorem weigh_eq (sound : kernel.Sound) (point : Point) (sample : Sample) :
    weigh kernel point sample = .ok (kernel.weigh point sample) := by
  have altitude : divide (point.altitude - sample.altitude) kernel.altitudeRange =
      .ok (kernel.altitudeOffset point sample) :=
    divide_eq_of_positive sound.altitudeRange _
  have time : divide (point.time - sample.time).abs kernel.timeRange =
      .ok (kernel.timeOffset point sample) :=
    divide_eq_of_positive sound.timeRange _
  unfold weigh Kernel.weigh
  simp only [altitude, time, bind, Except.bind]
  split
  · next inside =>
      rw [qualityWeight_eq sound, altitudeWeight_eq sound inside.1,
        timeWeight_eq sound (Kernel.notNegative_timeOffset sound) inside.2]
      rfl
  · rfl

end Passing

end Guarded

namespace Kernel

variable {kernel : Kernel} {point : Point} {sample : Sample} {weight : Weight}

/-- The sign of the product is the one of the quality, unless nothing is left of it. -/
theorem sign_combined
    (sound : kernel.Sound)
    (weighed : kernel.weigh point sample = some weight)
    (something : weight.combined ≠ 0) :
    weight.combined.toInt.sign = sample.quality.toInt.sign := by
  have nonzero : weight.combined.toInt ≠ 0 := fun zero => something (Int64.toInt_inj.mp zero)
  rcases lt_trichotomy sample.quality.toInt 0 with negative | zero | positive
  · have below := combined_nonpos sound weighed (quality_nonpos sound negative.le weighed)
    rw [Int.sign_eq_neg_one_of_neg negative,
      Int.sign_eq_neg_one_of_neg (lt_of_le_of_ne below nonzero)]
  · have below := combined_nonpos sound weighed (quality_nonpos sound zero.le weighed)
    exact absurd (le_antisymm below (combined_nonneg sound zero.ge weighed)) nonzero
  · have above := combined_nonneg sound positive.le weighed
    rw [Int.sign_eq_one_of_pos positive,
      Int.sign_eq_one_of_pos (lt_of_le_of_ne above nonzero.symm)]

/--
A sample within the window of a valid kernel is weighed without mishap: no division is by zero
and nothing is rounded that is not a number.  Its weights of nearness lie between nothing and
their rounded factors, its weight of quality is on the side of zero where the quality is, and
the product has the sign of the quality unless nothing is left of it.
-/
theorem weighs_properly
    {settings : Settings}
    (valid : settings.Valid)
    {point : Point}
    {sample : Sample}
    {weight : Weight}
    (weighed : settings.kernel.weigh point sample = some weight) :
    let kernel := settings.kernel
    Guarded.weigh kernel point sample = .ok (some weight) ∧
    (0 ≤ weight.altitude ∧ weight.altitude ≤ roundHalfUp kernel.altitudeFactor) ∧
    (0 ≤ weight.time ∧ weight.time ≤ roundHalfUp kernel.timeFactor) ∧
    (0 ≤ sample.quality → 0 ≤ weight.quality) ∧
    (sample.quality ≤ 0 → weight.quality ≤ 0) ∧
    (weight.combined = 0 ∨ weight.combined.toInt.sign = sample.quality.toInt.sign) := by
  intro kernel
  have sound : kernel.Sound := valid.sound
  obtain ⟨altitude, time⟩ := nearness_bounds sound weighed
  have passes := Guarded.weigh_eq sound point sample
  rw [weighed] at passes
  simp only [Int64.le_iff_toInt_le, Int32.le_iff_toInt_le]
  refine ⟨passes, altitude, time, fun nonnegative => quality_nonneg sound nonnegative weighed,
    fun nonpositive => quality_nonpos sound nonpositive weighed, ?_⟩
  by_cases nothing : weight.combined = 0
  · exact .inl nothing
  · exact .inr (sign_combined sound weighed nothing)

/-- A poor sample of quality -3, half the range of the altitude and three minutes away. -/
theorem weighs_poor_sample_properly :
    let kernel := Settings.classic.kernel
    let poor : Sample := ⟨⟨4, 0⟩, -3, 0, 0⟩
    let weight : Weight := ⟨-60, 60, 95⟩
    Settings.classic.Valid ∧ kernel.weigh ⟨180, 500⟩ poor = some weight ∧
      Guarded.weigh kernel ⟨180, 500⟩ poor = .ok (some weight) ∧
      weight.altitude ≤ 100 ∧ weight.time ≤ 200 ∧ weight.quality ≤ 0 ∧
      weight.combined.toInt.sign = -1 := by
  intro kernel poor weight
  have valid : Settings.classic.Valid := by decide +kernel
  have weighed : kernel.weigh ⟨180, 500⟩ poor = some weight := by decide +kernel
  have factors : roundHalfUp kernel.altitudeFactor = 100 ∧ roundHalfUp kernel.timeFactor = 200 := by
    decide +kernel
  have something : weight.combined ≠ 0 := by decide
  obtain ⟨passes, ⟨-, altitude⟩, ⟨-, time⟩, -, quality, sign⟩ := weighs_properly valid weighed
  rw [factors.1] at altitude
  rw [factors.2] at time
  exact ⟨valid, weighed, passes, altitude, time, quality (by decide), sign.resolve_left something⟩

/-- Without the rule for the sharpness, the peak of the time curve is a division by zero. -/
example :
    Guarded.weigh { Kernel.classic with timeSharpness := 0 } ⟨0, 0⟩ ⟨.calm, 5, 0, 0⟩ =
      .error .zeroDivisor := by
  decide +kernel

end Kernel
end WindsAloft
