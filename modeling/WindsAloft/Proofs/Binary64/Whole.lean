import WindsAloft.Proofs.Binary64.Signs

/-!
# Whole numbers among the doubles

Whole numbers up to `2 ^ 53` are doubles, so sums and differences of whole numbers
that stay within this bound are computed exactly.  A double is known by its number of
quanta up to the sign of zero; the conversions to integers do not see that sign, nor
do magnitudes and squares, also of quotients.  So whatever is made of a difference of
whole numbers by such means does not change when both numbers are moved alike.
-/

namespace WindsAloft
namespace Binary64

attribute [local irreducible] unit overflow

/-- Whole numbers up to `2 ^ 53` are doubles. -/
theorem isDouble_whole {n : ℤ} (small : |n| ≤ 2 ^ 53) : IsDouble (n * unit) := by
  unfold IsDouble
  rw [Int.natAbs_mul, Int.natAbs_natCast]
  by_cases bound : n.natAbs < 2 ^ 53
  · exact small_mul_unit bound
  · have last : n.natAbs = 2 ^ 53 := by
      rw [Int.abs_eq_natAbs] at small
      omega
    obtain ⟨k, exponent, power⟩ := exists_unit_eq_pow
    have whole : 2 ^ 53 * unit = 1 * Nat.pow 2 (53 + k) := by
      rw [power, Nat.one_mul]
      exact (Nat.pow_add 2 53 k).symm
    have narrow : 53 + k ≤ 2045 := by omega
    have below := mul_pow_lt (show 1 < 2 ^ 53 by norm_num) narrow
    rw [last, whole]
    unfold overflow
    exact ⟨representable_mul_pow (by norm_num) (53 + k), below⟩

section Neutral

variable {x y : Float} {a b : ℤ}

theorem quanta?_mul_of_one (left : quanta? x = some a) (right : quanta? y = some (unit : ℤ)) :
    quanta? (x * y) = some a := by
  have exact : (a : ℚ) * (unit : ℤ) / unit = a := by
    rw [Int.cast_natCast, mul_div_cancel_right₀ _ unit_pos.ne']
  rw [quanta?_mul left right, exact, limit?_of_isDouble (isDouble_of_quanta? left)]

theorem quanta?_one_mul (left : quanta? x = some (unit : ℤ)) (right : quanta? y = some b) :
    quanta? (x * y) = some b := by
  have exact : ((unit : ℤ) : ℚ) * b / unit = b := by
    rw [Int.cast_natCast, mul_div_cancel_left₀ _ unit_pos.ne']
  rw [quanta?_mul left right, exact, limit?_of_isDouble (isDouble_of_quanta? right)]

theorem quanta?_zero_add (left : quanta? x = some 0) (right : quanta? y = some b) :
    quanta? (x + y) = some b := by
  rw [quanta?_add left right, Int.cast_zero, zero_add,
    limit?_of_isDouble (isDouble_of_quanta? right)]

theorem quanta?_zero_mul (left : quanta? x = some 0) (right : quanta? y = some b) :
    quanta? (x * y) = some 0 := by
  rw [quanta?_mul left right, Int.cast_zero, zero_mul, zero_div]
  exact limit?_of_isDouble isDouble_zero

theorem quanta?_mul_zero (left : quanta? x = some a) (right : quanta? y = some 0) :
    quanta? (x * y) = some 0 := by
  rw [quanta?_mul left right, Int.cast_zero, mul_zero, zero_div]
  exact limit?_of_isDouble isDouble_zero

theorem quanta?_zero_div
    (left : quanta? x = some 0)
    (right : quanta? y = some b)
    (nonzero : b ≠ 0) :
    quanta? (x / y) = some 0 := by
  rw [quanta?_div left right nonzero, Int.cast_zero, zero_mul, zero_div]
  exact limit?_of_isDouble isDouble_zero

theorem quanta?_div_same
    (left : quanta? x = some a)
    (right : quanta? y = some a)
    (nonzero : a ≠ 0) :
    quanta? (x / y) = some (unit : ℤ) := by
  have exact : (a : ℚ) * unit / a = ((unit : ℤ) : ℚ) := by
    rw [Int.cast_natCast, mul_div_cancel_left₀ _ (by exact_mod_cast nonzero)]
  rw [quanta?_div left right nonzero, exact,
    limit?_of_isDouble (isDouble_of_quanta? quanta?_one)]

end Neutral

section Exact

variable {x y : Float} {m n : ℤ}

theorem quanta?_ofInt_whole (small : |n| ≤ 2 ^ 53) :
    quanta? (Float.ofInt n) = some (n * unit) := by
  have value := limit?_of_isDouble (isDouble_whole small)
  rw [quanta?_ofInt]
  exact_mod_cast value

theorem quanta?_add_whole
    (left : quanta? x = some (m * unit))
    (right : quanta? y = some (n * unit))
    (small : |m + n| ≤ 2 ^ 53) :
    quanta? (x + y) = some ((m + n) * unit) := by
  rw [quanta?_add left right, ← limit?_of_isDouble (isDouble_whole small)]
  congr 2
  push_cast
  ring

theorem quanta?_sub_whole
    (left : quanta? x = some (m * unit))
    (right : quanta? y = some (n * unit))
    (small : |m - n| ≤ 2 ^ 53) :
    quanta? (x - y) = some ((m - n) * unit) := by
  rw [quanta?_sub left right, ← limit?_of_isDouble (isDouble_whole small)]
  congr 2
  push_cast
  ring

end Exact

section SameQuanta

variable {x y : Float} {a : ℤ}

/-- Equal numbers of quanta leave only the sign of zero open. -/
theorem abs_eq_of_quanta?
    (left : quanta? x = some a)
    (right : quanta? y = some a) :
    x.abs = y.abs := by
  obtain ⟨s, m, xNumber, rfl⟩ := exists_finite_of_quanta? left
  obtain ⟨t, n, yNumber, same⟩ := exists_finite_of_quanta? right
  have magnitude : m = n := by
    rw [← natAbs_signed s m, same, natAbs_signed]
  apply ofFloat_injective
  rw [ofFloat_abs, ofFloat_abs, xNumber, yNumber, magnitude]
  rfl

theorem truncate_of_quanta? (value : quanta? x = some a) :
    truncate x = Int64.ofIntClamp (a.tdiv unit) := by
  obtain ⟨s, m, number, rfl⟩ := exists_finite_of_quanta? value
  have meaning : truncate x = (finite s m).toInt64By (fun quanta => quanta.tdiv unit) := by
    unfold truncate
    rw [number]
  rw [meaning]
  exact toInt64By_finite _ s m

end SameQuanta

section Magnitudes

theorem unsigned_rounded (negative : Bool) (q : ℚ) :
    (rounded negative q).unsigned = rounded false q := by
  unfold rounded limited
  split
  · rfl
  · rfl

/-- The magnitude of a quotient takes no more of the dividend than its magnitude. -/
theorem unsigned_dividedBy (a b : Binary64) :
    (a.dividedBy b).unsigned = (a.unsigned.dividedBy b).unsigned := by
  cases a with
  | nan => rfl
  | infinite s => cases b <;> rfl
  | finite s m =>
      cases b with
      | nan => rfl
      | infinite t => rfl
      | finite t n =>
          rw [show (finite s m).unsigned = finite false m from rfl]
          simp only [dividedBy]
          split_ifs with zero nothing
          · rfl
          · rfl
          · rw [unsigned_rounded, unsigned_rounded]

/-- A square takes no more than a magnitude. -/
theorem times_self (a : Binary64) : a.times a = a.unsigned.times a.unsigned := by
  cases a with
  | nan => rfl
  | infinite s => simp [times, unsigned]
  | finite s m => simp [times, unsigned]

variable {x y : Float}

theorem abs_div_of_abs_eq (same : x.abs = y.abs) (z : Float) :
    (x / z).abs = (y / z).abs := by
  apply ofFloat_injective
  rw [ofFloat_abs, ofFloat_abs, ofFloat_div, ofFloat_div, unsigned_dividedBy,
    unsigned_dividedBy (ofFloat y), ← ofFloat_abs, ← ofFloat_abs, same]

theorem mul_self_of_abs_eq (same : x.abs = y.abs) : x * x = y * y := by
  apply ofFloat_injective
  rw [ofFloat_mul, ofFloat_mul, times_self, times_self (ofFloat y), ← ofFloat_abs,
    ← ofFloat_abs, same]

end Magnitudes

end Binary64
end WindsAloft
