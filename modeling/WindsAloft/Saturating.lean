/-!
# 64-bit arithmetic that stops at its bounds

Products and sums of weights and scores are formed exactly and then brought
into the 64-bit range: what lies beyond a bound becomes that bound.
-/

namespace WindsAloft
namespace Saturating

/-- The exact product, brought into the 64-bit range. -/
def mul (a b : Int64) : Int64 :=
  Int64.ofIntClamp (a.toInt * b.toInt)

/-- The exact sum, brought into the 64-bit range. -/
def add (a b : Int64) : Int64 :=
  Int64.ofIntClamp (a.toInt + b.toInt)

/-- An integer cut off at the two bounds of the 64-bit range. -/
def clamp (n : Int) : Int :=
  max Int64.minValue.toInt (min Int64.maxValue.toInt n)

theorem toInt_ofIntClamp (n : Int) : (Int64.ofIntClamp n).toInt = clamp n := by
  have least := Int64.toInt_minValue
  have greatest := Int64.toInt_maxValue
  unfold clamp Int64.ofIntClamp
  by_cases low : Int64.minValue.toInt ≤ n
  · by_cases high : n ≤ Int64.maxValue.toInt
    · rw [dif_pos low, dif_pos high, Int64.toInt_ofIntLE]
      omega
    · rw [dif_pos low, dif_neg high]
      omega
  · rw [dif_neg low]
    omega

@[simp] theorem clamp_zero : clamp 0 = 0 :=
  rfl

theorem clamp_mono {m n : Int} (le : m ≤ n) : clamp m ≤ clamp n := by
  unfold clamp
  omega

theorem clamp_nonneg {n : Int} (nonnegative : 0 ≤ n) : 0 ≤ clamp n :=
  clamp_zero ▸ clamp_mono nonnegative

theorem clamp_nonpos {n : Int} (nonpositive : n ≤ 0) : clamp n ≤ 0 :=
  clamp_zero ▸ clamp_mono nonpositive

theorem clamp_pos {n : Int} (positive : 0 < n) : 0 < clamp n :=
  Int.lt_of_lt_of_le (by decide : 0 < clamp 1) (clamp_mono positive)

theorem clamp_of_mem
    {n : Int}
    (lower : -9223372036854775808 ≤ n)
    (upper : n ≤ 9223372036854775807) :
    clamp n = n := by
  have least := Int64.toInt_minValue
  have greatest := Int64.toInt_maxValue
  unfold clamp
  omega

theorem clamp_of_greatest_le {n : Int} (above : Int64.maxValue.toInt ≤ n) :
    clamp n = Int64.maxValue.toInt := by
  have least := Int64.toInt_minValue
  have greatest := Int64.toInt_maxValue
  unfold clamp
  omega

theorem clamp_of_le_least {n : Int} (below : n ≤ Int64.minValue.toInt) :
    clamp n = Int64.minValue.toInt := by
  have least := Int64.toInt_minValue
  have greatest := Int64.toInt_maxValue
  unfold clamp
  omega

theorem toInt_mul (a b : Int64) : (mul a b).toInt = clamp (a.toInt * b.toInt) :=
  toInt_ofIntClamp _

theorem toInt_add (a b : Int64) : (add a b).toInt = clamp (a.toInt + b.toInt) :=
  toInt_ofIntClamp _

theorem mul_comm (a b : Int64) : mul a b = mul b a := by
  rw [mul, mul, Int.mul_comm]

theorem clamp_toInt (n : Int64) : clamp n.toInt = n.toInt :=
  clamp_of_mem n.le_toInt n.toInt_le

@[simp] theorem add_zero (n : Int64) : add n 0 = n := by
  rw [← Int64.toInt_inj, toInt_add, Int64.toInt_zero, Int.add_zero, clamp_toInt]

@[simp] theorem zero_add (n : Int64) : add 0 n = n := by
  rw [← Int64.toInt_inj, toInt_add, Int64.toInt_zero, Int.zero_add, clamp_toInt]

end Saturating
end WindsAloft
