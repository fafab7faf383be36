import WindsAloft.Proofs.Binary64.Nearest
import WindsAloft.Proofs.Binary64.Packed

/-!
# The rounding of a computed mantissa

Every operation on doubles ends in the same way: a mantissa, which may have
more or fewer bits than fit, is shifted to the exponent that its size demands,
and what is shifted out decides how it is rounded.  Whatever number the mantissa
and the record of what was lost describe, the outcome is `nearest` of it.
-/

namespace WindsAloft
namespace Binary64

open Float.Model (UnpackedFloat Format totalExponent)
open Float.Model.UnpackedFloat

/-- What a mantissa and the record of what it lost say of the exact number. -/
def Describes (mantissa : ℕ) : Accuracy → ℚ → Prop
  | .exact, x => x = mantissa
  | .inexact .lt, x => mantissa < x ∧ x < mantissa + 1 / 2
  | .inexact .eq, x => x = mantissa + 1 / 2
  | .inexact .gt, x => mantissa + 1 / 2 < x ∧ x < mantissa + 1

theorem Describes.bounds
    {mantissa : ℕ}
    {accuracy : Accuracy}
    {x : ℚ}
    (describes : Describes mantissa accuracy x) :
    mantissa ≤ x ∧ x < mantissa + 1 := by
  rcases accuracy with _ | (_ | _ | _) <;>
    simp only [Describes] at describes <;>
    constructor <;> linarith

theorem Describes.floor_eq
    {mantissa : ℕ}
    {accuracy : Accuracy}
    {x : ℚ}
    (describes : Describes mantissa accuracy x) :
    ⌊x⌋₊ = mantissa := by
  obtain ⟨lower, upper⟩ := describes.bounds
  rw [Nat.floor_eq_iff (le_trans (Nat.cast_nonneg _) lower)]
  exact ⟨lower, upper⟩

/-- The record is all that rounding needs. -/
theorem Describes.roundToNearestEven_eq
    {mantissa : ℕ}
    {accuracy : Accuracy}
    {x : ℚ}
    (describes : Describes mantissa accuracy x) :
    accuracy.roundToNearestEven mantissa = halfEven x := by
  unfold halfEven
  rw [describes.floor_eq]
  rcases accuracy with _ | (_ | _ | _) <;>
    simp only [Describes] at describes <;>
    simp only [Accuracy.roundToNearestEven]
  · rw [if_pos (by linarith)]
  · rw [if_pos (by linarith)]
  · rw [if_neg (by linarith), if_neg (by linarith)]
  · rw [if_neg (by linarith), if_pos (by linarith)]

/-- A step to the right halves the number and keeps the record. -/
theorem describes_shiftRightOne
    {extended : ExtendedMantissa}
    {x : ℚ}
    (describes : Describes extended.mantissa extended.accuracy x) :
    Describes extended.shiftRightOne.mantissa extended.shiftRightOne.accuracy (x / 2) := by
  obtain ⟨mantissa, roundBit, stickyBit⟩ := extended
  have parts : (mantissa : ℚ) = 2 * (mantissa / 2 : ℕ) + (mantissa % 2 : ℕ) := by
    exact_mod_cast (Nat.div_add_mod mantissa 2).symm
  rcases Nat.mod_two_eq_zero_or_one mantissa with even | odd
  · rw [even] at parts
    cases roundBit <;> cases stickyBit <;>
      simp [Describes, ExtendedMantissa.shiftRightOne, ExtendedMantissa.accuracy,
        even] at describes ⊢ <;>
      (try constructor) <;> linarith
  · rw [odd] at parts
    cases roundBit <;> cases stickyBit <;>
      simp [Describes, ExtendedMantissa.shiftRightOne, ExtendedMantissa.accuracy,
        odd] at describes ⊢ <;>
      (try constructor) <;> linarith

theorem describes_shiftRight
    {extended : ExtendedMantissa}
    {x : ℚ}
    (describes : Describes extended.mantissa extended.accuracy x)
    (n : ℕ) :
    Describes (extended >>> n).mantissa (extended >>> n).accuracy (x / 2 ^ n) := by
  show Describes (n.repeat ExtendedMantissa.shiftRightOne extended).mantissa
    (n.repeat ExtendedMantissa.shiftRightOne extended).accuracy (x / 2 ^ n)
  induction n with
  | zero => simpa [Nat.repeat] using describes
  | succ n ih =>
      have halved := describes_shiftRightOne ih
      rwa [div_div, ← pow_succ] at halved

theorem describes_ofMantissaAndAccuracy
    {mantissa : ℕ}
    {accuracy : Accuracy}
    {x : ℚ}
    (describes : Describes mantissa accuracy x) :
    Describes (ExtendedMantissa.ofMantissaAndAccuracy mantissa accuracy).mantissa
      (ExtendedMantissa.ofMantissaAndAccuracy mantissa accuracy).accuracy x := by
  rcases accuracy with _ | (_ | _ | _) <;> exact describes

/-- The exponent that a mantissa is shifted to. -/
theorem targetExponent_eq (mantissa : ℕ) (exponent : ℤ) :
    Format.binary64.targetExponent (totalExponent mantissa exponent) =
      max (mantissa.log2 + exponent - 52) (-1074) := by
  show max ((mantissa.log2 : ℤ) + 1 + exponent - 53) (-1074) = _
  congr 1
  omega

/-- What the shift to the target exponent leaves. -/
theorem describes_shiftToTargetExponent
    {mantissa : ℕ}
    {exponent : ℤ}
    {accuracy : Accuracy}
    {x : ℚ}
    (describes : Describes mantissa accuracy x)
    (target : ℤ)
    (toTarget : target = max (mantissa.log2 + exponent - 52 : ℤ) (-1074))
    (low : exponent ≤ target) :
    ∃ shifted : ExtendedMantissa,
      shiftToTargetExponent .binary64 mantissa exponent accuracy = (shifted, target) ∧
      Describes shifted.mantissa shifted.accuracy (x / 2 ^ (target - exponent)) := by
  refine ⟨ExtendedMantissa.ofMantissaAndAccuracy mantissa accuracy
    >>> (target - exponent).toNat, ?_, ?_⟩
  · unfold shiftToTargetExponent shiftToExponent
    rw [targetExponent_eq, ← toTarget]
    simp only [Prod.mk.injEq, true_and]
    omega
  · have shifted := describes_shiftRight
      (describes_ofMantissaAndAccuracy describes) (target - exponent).toNat
    rwa [← zpow_natCast, Int.toNat_of_nonneg (by omega)] at shifted

/-- The second shift, which makes up for a carry out of the highest bit. -/
theorem exists_shiftToTargetExponent_exact
    {mantissa : ℕ}
    {exponent : ℤ}
    (small : mantissa ≤ 2 ^ 53)
    (least : -1074 ≤ exponent)
    (filled : 2 ^ 52 ≤ mantissa ∨ exponent = -1074) :
    ∃ (shifted : ExtendedMantissa) (target : ℤ),
      shiftToTargetExponent .binary64 mantissa exponent .exact = (shifted, target) ∧
      shifted.mantissa < 2 ^ 53 ∧
      -1074 ≤ target ∧
      (2 ^ 52 ≤ shifted.mantissa ∨ target = -1074) ∧
      shifted.mantissa * Nat.pow 2 (target + 1074).toNat =
        mantissa * Nat.pow 2 (exponent + 1074).toNat := by
  have exact : Describes mantissa .exact (mantissa : ℚ) := rfl
  rcases small.lt_or_eq with below | carry
  · have short : mantissa.log2 ≤ 52 := by
      rcases Nat.eq_zero_or_pos mantissa with zero | positive
      · rw [zero]
        decide
      · have := (Nat.log2_lt positive.ne').mpr below
        omega
    have bits : 2 ^ 52 ≤ mantissa → 52 ≤ mantissa.log2 := fun large =>
      (Nat.le_log2 (lt_of_lt_of_le (by norm_num) large).ne').mpr large
    have stays : exponent = max (mantissa.log2 + exponent - 52 : ℤ) (-1074) := by
      rcases filled with large | rfl
      · have := bits large
        omega
      · omega
    obtain ⟨shifted, shift, describes⟩ :=
      describes_shiftToTargetExponent exact exponent stays le_rfl
    have same : shifted.mantissa = mantissa := by
      rw [← describes.floor_eq, sub_self, zpow_zero, div_one, Nat.floor_natCast]
    rw [← same] at below filled
    exact ⟨shifted, exponent, shift, below, least, filled, by rw [same]⟩
  · have full : mantissa.log2 = 53 := by
      rw [carry]
      exact Nat.log2_two_pow
    have next : exponent + 1 = max (mantissa.log2 + exponent - 52 : ℤ) (-1074) := by
      omega
    obtain ⟨shifted, shift, describes⟩ :=
      describes_shiftToTargetExponent exact (exponent + 1) next (by omega)
    have half : shifted.mantissa = 2 ^ 52 := by
      have value : (mantissa : ℚ) / 2 ^ (exponent + 1 - exponent) = ((2 ^ 52 : ℕ) : ℚ) := by
        rw [add_sub_cancel_left, carry]
        norm_num
      rw [← describes.floor_eq, value, Nat.floor_natCast]
    refine ⟨shifted, exponent + 1, shift, by omega, by omega, by omega, ?_⟩
    rw [half, carry, show (exponent + 1 + 1074).toNat = (exponent + 1074).toNat + 1 by omega]
    show 2 ^ 52 * (Nat.pow 2 (exponent + 1074).toNat * 2) = _
    ring

/-- A number as a double holds it once it is rounded. -/
def rounded (negative : Bool) (q : ℚ) : Binary64 :=
  limited negative (nearest q)

/-- Where a number of quanta lies, seen from the mantissa that describes it. -/
theorem inScale_of_describes
    {mantissa : ℕ}
    {exponent : ℤ}
    {accuracy : Accuracy}
    {x : ℚ}
    (describes : Describes mantissa accuracy x)
    {target : ℤ}
    (toTarget : target = max (mantissa.log2 + exponent - 52 : ℤ) (-1074))
    (low : exponent ≤ target) :
    InScale (target + 1074).toNat (x * 2 ^ (exponent + 1074)) := by
  obtain ⟨lower, upper⟩ := describes.bounds
  have positive : (0 : ℚ) < 2 ^ (exponent + 1074) := by positivity
  constructor
  · have wide : x < 2 ^ (mantissa.log2 + 1) := by
      refine lt_of_lt_of_le upper ?_
      exact_mod_cast Nat.lt_log2_self
    calc
      x * 2 ^ (exponent + 1074) < 2 ^ (mantissa.log2 + 1) * 2 ^ (exponent + 1074) :=
        mul_lt_mul_of_pos_right wide positive
      _ = 2 ^ (((mantissa.log2 + 1 : ℕ) : ℤ) + (exponent + 1074)) := by
        rw [zpow_add₀ two_ne_zero ((mantissa.log2 + 1 : ℕ) : ℤ), zpow_natCast]
      _ ≤ 2 ^ ((53 + (target + 1074).toNat : ℕ) : ℤ) :=
        zpow_le_zpow_right₀ one_le_two (by push_cast; omega)
      _ = 2 ^ (53 + (target + 1074).toNat) := zpow_natCast _ _
  · rcases eq_or_lt_of_le (show -1074 ≤ target by omega) with least | above
    · left
      omega
    · right
      have nonzero : mantissa ≠ 0 := by
        rintro rfl
        have : (0 : ℕ).log2 = 0 := by decide
        omega
      have large : (2 : ℚ) ^ mantissa.log2 ≤ x := by
        refine le_trans ?_ lower
        exact_mod_cast Nat.log2_self_le nonzero
      calc
        (2 : ℚ) ^ (52 + (target + 1074).toNat)
            = 2 ^ ((52 + (target + 1074).toNat : ℕ) : ℤ) := (zpow_natCast _ _).symm
        _ = 2 ^ ((mantissa.log2 : ℤ) + (exponent + 1074)) := by
          congr 1
          push_cast
          omega
        _ = 2 ^ mantissa.log2 * 2 ^ (exponent + 1074) := by
          rw [zpow_add₀ two_ne_zero (mantissa.log2 : ℤ), zpow_natCast]
        _ ≤ x * 2 ^ (exponent + 1074) := mul_le_mul_of_nonneg_right large positive.le

/-- A mantissa with bits enough, or an exponent that is low enough, is rounded to the nearest. -/
theorem ofFloat_pack_roundWithAccuracy
    (sign : Sign)
    {mantissa : ℕ}
    {exponent : ℤ}
    {accuracy : Accuracy}
    {x : ℚ}
    (describes : Describes mantissa accuracy x)
    (enough : 2 ^ 52 ≤ mantissa ∨ exponent ≤ -1074) :
    ofFloat (.ofModel (.pack (roundWithAccuracy .binary64 sign mantissa exponent accuracy))) =
      rounded (isNegative sign) (x * 2 ^ (exponent + 1074)) := by
  obtain ⟨target, toTarget⟩ :
      ∃ target : ℤ, target = max (mantissa.log2 + exponent - 52 : ℤ) (-1074) := ⟨_, rfl⟩
  have low : exponent ≤ target := by
    rcases enough with large | low
    · have : 52 ≤ mantissa.log2 :=
        (Nat.le_log2 (lt_of_lt_of_le (by norm_num) large).ne').mpr large
      omega
    · omega
  have scale := inScale_of_describes describes toTarget low
  obtain ⟨shifted, shift, kept⟩ :=
    describes_shiftToTargetExponent describes target toTarget low
  have quotient :
      x * 2 ^ (exponent + 1074) / 2 ^ (target + 1074).toNat = x / 2 ^ (target - exponent) := by
    rw [← zpow_natCast, Int.toNat_of_nonneg (by omega), mul_div_assoc,
      ← zpow_sub₀ two_ne_zero, div_eq_mul_inv, ← zpow_neg]
    congr 2
    omega
  have roundedMantissa :
      shifted.roundedMantissa =
        halfEven (x * 2 ^ (exponent + 1074) / 2 ^ (target + 1074).toNat) := by
    rw [quotient]
    exact kept.roundToNearestEven_eq
  have filled : 2 ^ 52 ≤ shifted.roundedMantissa ∨ target = -1074 := by
    rw [roundedMantissa]
    rcases scale.2 with least | large
    · right
      omega
    · exact .inl (le_halfEven_of_inScale large)
  -- Rounding up may carry out of the highest bit, so there is a second shift.
  obtain ⟨final, finalExponent, finalShift, small, least, filled', value⟩ :=
    exists_shiftToTargetExponent_exact
      (roundedMantissa ▸ halfEven_le_of_inScale scale) (by omega) filled
  have quanta :
      nearest (x * 2 ^ (exponent + 1074)) =
        final.mantissa * Nat.pow 2 (finalExponent + 1074).toNat := by
    rw [nearest_eq scale, value, roundedMantissa]
    rfl
  unfold rounded
  rw [quanta]
  unfold roundWithAccuracy
  simp only [shift, finalShift]
  split
  · next zero =>
      rw [zero, Nat.zero_mul, limited, if_pos overflow_pos, ofFloat_pack_zero]
  · next nonzero =>
      exact ofFloat_pack_finite sign (Nat.pos_of_ne_zero nonzero) ⟨small, least, filled'⟩

end Binary64
end WindsAloft
