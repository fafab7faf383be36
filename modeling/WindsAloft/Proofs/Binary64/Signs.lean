import WindsAloft.Proofs.Binary64.Values
import WindsAloft.Saturating

/-!
# What is not below zero

Infinite results have a sign too, so the signs of results are followed through
the operations without asking whether they are finite.  Not to be below zero
includes not to be a number: the conversion to an integer turns that into zero.
-/

namespace WindsAloft
namespace Binary64

attribute [local irreducible] unit overflow

/-- Not to be a negative number. -/
def NotNegative : Binary64 → Prop
  | .nan => True
  | .infinite s => s = false
  | .finite s m => s = false ∨ m = 0

/-- To be a finite number above zero. -/
def Positive : Binary64 → Prop
  | .finite s m => s = false ∧ m ≠ 0
  | _ => False

theorem notNegative_of_quanta?
    {x : Float}
    {a : ℤ}
    (value : quanta? x = some a)
    (nonnegative : 0 ≤ a) :
    (ofFloat x).NotNegative := by
  obtain ⟨s, m, number, rfl⟩ := exists_finite_of_quanta? value
  rw [number]
  cases s
  · exact .inl rfl
  · right
    unfold signed at nonnegative
    simp only [if_true] at nonnegative
    omega

theorem positive_of_quanta?
    {x : Float}
    {a : ℤ}
    (value : quanta? x = some a)
    (positive : 0 < a) :
    (ofFloat x).Positive := by
  obtain ⟨s, m, number, rfl⟩ := exists_finite_of_quanta? value
  rw [number]
  cases s
  · refine ⟨rfl, ?_⟩
    rintro rfl
    exact lt_irrefl _ positive
  · unfold signed at positive
    simp only [if_true] at positive
    omega

theorem notNegative_rounded (q : ℚ) : (rounded false q).NotNegative := by
  unfold rounded limited
  split
  · exact .inl rfl
  · rfl

theorem NotNegative.dividedBy {a b : Binary64} (left : a.NotNegative) (right : b.Positive) :
    (a.dividedBy b).NotNegative := by
  cases b with
  | nan => exact right.elim
  | infinite t => exact right.elim
  | finite t n =>
      obtain ⟨rfl, nonzero⟩ := right
      cases a with
      | nan => trivial
      | infinite s =>
          rw [show s = false from left]
          rfl
      | finite s m =>
          simp only [Binary64.dividedBy, if_neg nonzero]
          rcases left with rfl | rfl
          · exact notNegative_rounded _
          · rw [Nat.cast_zero, zero_mul, zero_div, rounded_zero]
            exact .inr rfl

theorem signed_nonneg {s : Bool} {m : ℕ} (notNegative : (finite s m).NotNegative) :
    0 ≤ signed s m := by
  rcases notNegative with rfl | rfl
  · exact Int.natCast_nonneg m
  · rw [signed_zero]

theorem NotNegative.plus {a b : Binary64} (left : a.NotNegative) (right : b.NotNegative) :
    (a.plus b).NotNegative := by
  cases a with
  | nan => trivial
  | infinite s =>
      cases b with
      | nan => trivial
      | infinite t =>
          show (if s = t then infinite s else nan).NotNegative
          split
          · exact left
          · trivial
      | finite t n => exact left
  | finite s m =>
      cases b with
      | nan => trivial
      | infinite t => exact right
      | finite t n =>
          have sum := add_nonneg (signed_nonneg left) (signed_nonneg right)
          simp only [Binary64.plus]
          split
          · exact .inr rfl
          · rw [decide_eq_false sum.not_gt]
            exact notNegative_rounded _

theorem notNegative_unsigned (a : Binary64) : a.unsigned.NotNegative := by
  cases a with
  | nan => trivial
  | infinite s => rfl
  | finite s m => exact .inl rfl

/-- What stands below a finite double and is not negative is finite. -/
theorem exists_quanta?_of_lt
    {x y : Float}
    {b : ℤ}
    (notNegative : (ofFloat x).NotNegative)
    (below : x < y)
    (value : quanta? y = some b) :
    ∃ a, quanta? x = some a ∧ 0 ≤ a ∧ a < b := by
  have order := (lt_iff_order? x y).mp below
  obtain ⟨t, n, number, rfl⟩ := exists_finite_of_quanta? value
  cases operand : ofFloat x with
  | nan =>
      rw [operand] at order
      cases order
  | infinite s =>
      rw [operand] at notNegative order
      rw [show s = false from notNegative, number] at order
      cases order
  | finite s m =>
      have left := quanta?_of_finite operand
      rw [operand] at notNegative
      exact ⟨_, left, signed_nonneg notNegative, (lt_iff_quanta_lt left value).mp below⟩

theorem quanta?_half : quanta? 0.5 = some (Nat.pow 2 1073 : ℕ) := by
  decide +kernel

theorem ofIntClamp_nonneg {n : ℤ} (nonnegative : 0 ≤ n) : 0 ≤ (Int64.ofIntClamp n).toInt := by
  rw [Saturating.toInt_ofIntClamp]
  exact Saturating.clamp_nonneg nonnegative

theorem quanta?_two_pow_63 : quanta? 9223372036854775808 = some (9223372036854775808 * unit) := by
  decide +kernel

/-- The double nearest to a positive 64-bit integer is at least one. -/
theorem exists_quanta?_ofInt64_pos {n : Int64} (positive : 0 < n.toInt) :
    ∃ c, quanta? (ofInt64 n) = some c ∧ (unit : ℤ) ≤ c := by
  have one : (1 : ℚ) ≤ n.toInt := by exact_mod_cast positive
  have bound : (n.toInt : ℚ) ≤ 9223372036854775808 := by
    have := n.toInt_lt
    exact_mod_cast this.le
  unfold ofInt64
  rw [quanta?_ofInt]
  obtain ⟨c, value, above, -⟩ :=
    exists_limit?_near (isDouble_of_quanta? quanta?_one) (isDouble_of_quanta? quanta?_two_pow_63)
      (q := n.toInt * unit)
      (by
        push_cast
        exact le_mul_of_one_le_left unit_pos.le one)
      (by
        push_cast
        exact mul_le_mul_of_nonneg_right bound unit_pos.le)
  exact ⟨c, value, above⟩

/-- A positive 64-bit integer is a positive double. -/
theorem ofInt64_pos {n : Int64} (positive : 0 < n.toInt) : 0 < ofInt64 n := by
  obtain ⟨c, value, above⟩ := exists_quanta?_ofInt64_pos positive
  have least : 0 < (unit : ℤ) := unit_pos_int
  exact (lt_iff_quanta_lt quanta?_zero value).mpr (least.trans_le above)

/-- The double nearest to a 64-bit integer does not exceed the power of two next to the bounds. -/
theorem exists_quanta?_ofInt64 (n : Int64) :
    ∃ c, quanta? (ofInt64 n) = some c ∧ |c| ≤ 9223372036854775808 * unit := by
  have lower := n.le_toInt
  have upper := n.toInt_lt
  have magnitude : |(n.toInt : ℚ)| ≤ 9223372036854775808 := by
    rw [abs_le]
    constructor
    · exact_mod_cast lower
    · exact_mod_cast upper.le
  unfold ofInt64
  rw [quanta?_ofInt]
  refine exists_limit?_near_of_abs_le (isDouble_of_quanta? quanta?_two_pow_63) ?_
  rw [abs_mul, abs_of_pos unit_pos]
  push_cast
  exact mul_le_mul_of_nonneg_right magnitude unit_pos.le

theorem toInt64By_finite (rounding : ℤ → ℤ) (s : Bool) (m : ℕ) :
    (finite s m).toInt64By rounding = Int64.ofIntClamp (rounding (signed s m)) := by
  cases s <;> rfl

/-- What is not negative is rounded to an integer that is not negative. -/
theorem roundHalfUp_nonneg {x : Float} (notNegative : (ofFloat x).NotNegative) :
    0 ≤ (roundHalfUp x).toInt := by
  have half : (ofFloat 0.5).NotNegative :=
    notNegative_of_quanta? quanta?_half (Int.natCast_nonneg _)
  have sum := notNegative.plus half
  unfold roundHalfUp floorToInt64
  rw [← ofFloat_add] at sum
  cases number : ofFloat (x + 0.5) with
  | nan => decide
  | infinite s =>
      rw [number] at sum
      rw [show s = false from sum]
      decide
  | finite s m =>
      rw [number] at sum
      rw [toInt64By_finite]
      exact ofIntClamp_nonneg (Int.fdiv_nonneg (signed_nonneg sum) (Int.natCast_nonneg _))

section Bits

variable {x y : Float} {a b : ℤ}

theorem nonneg_of_signBit (value : quanta? x = some a) (plus : (ofFloat x).signBit = false) :
    0 ≤ a := by
  obtain ⟨s, m, finite, rfl⟩ := exists_finite_of_quanta? value
  rw [finite] at plus
  obtain rfl : s = false := plus
  exact Int.natCast_nonneg m

theorem nonpos_of_signBit (value : quanta? x = some a) (minus : (ofFloat x).signBit = true) :
    a ≤ 0 := by
  obtain ⟨s, m, finite, rfl⟩ := exists_finite_of_quanta? value
  rw [finite] at minus
  obtain rfl : s = true := minus
  exact Int.neg_nonpos_of_nonneg (Int.natCast_nonneg m)

theorem signBit_rounded (s : Bool) (q : ℚ) : (rounded s q).signBit = s := by
  unfold rounded limited
  split <;> rfl

/-- A divisor above zero leaves the sign as it is, that of a zero as well. -/
theorem signBit_div_of_pos
    (left : quanta? x = some a)
    (right : quanta? y = some b)
    (positive : 0 < b) :
    (ofFloat (x / y)).signBit = (ofFloat x).signBit := by
  obtain ⟨s, m, finite, rfl⟩ := exists_finite_of_quanta? left
  have divisor := positive_of_quanta? right positive
  obtain ⟨t, n, yFinite, rfl⟩ := exists_finite_of_quanta? right
  rw [yFinite] at divisor
  obtain ⟨rfl, nonzero⟩ := divisor
  rw [ofFloat_div, finite, yFinite]
  simp only [dividedBy, if_neg nonzero]
  rw [signBit_rounded, Bool.xor_false]
  rfl

end Bits

end Binary64
end WindsAloft
