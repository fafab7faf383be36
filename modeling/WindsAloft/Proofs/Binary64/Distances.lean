import WindsAloft.Proofs.Binary64.Levels

/-!
# Distances between doubles

The distance of two doubles is the magnitude of their computed difference.  It is the exact
distance, rounded once: a greater distance is never computed to be less, equal distances are
computed alike, and a distance that reaches some double is computed to reach it.  Measuring
it in a positive unit keeps that.

What is computed from a distance may run against it.  Squares grow with it, and quotients
fall while their divisor grows, also where the divisor becomes infinite.
-/

namespace WindsAloft
namespace Binary64

attribute [local irreducible] unit overflow

variable {x y z u v : Float} {a b c d : ℤ}

theorem signed_not (s : Bool) (m : ℕ) : signed (!s) m = -signed s m := by
  cases s
  · rfl
  · exact (neg_neg (m : ℤ)).symm

section Distances

/-- A computed distance is the exact one, rounded. -/
theorem ofFloat_abs_sub (left : quanta? x = some a) (right : quanta? y = some b) :
    ofFloat (x - y).abs = rounded false (|a - b| : ℤ) := by
  obtain ⟨s, m, xFinite, rfl⟩ := exists_finite_of_quanta? left
  obtain ⟨t, n, yFinite, rfl⟩ := exists_finite_of_quanta? right
  rw [ofFloat_abs, sub_eq_plus_neg, ofFloat_add, ofFloat_neg, xFinite, yFinite]
  simp only [negated, plus, signed_not, ← sub_eq_add_neg]
  generalize signed s m - signed t n = difference
  by_cases zero : difference = 0
  · rw [if_pos zero, zero, abs_zero, Int.cast_zero, rounded_zero]
    rfl
  · rw [if_neg zero, unsigned_rounded, Int.abs_eq_natAbs, Int.cast_natCast]

theorem isRounded_abs_sub (left : quanta? x = some a) (right : quanta? y = some b) :
    IsRounded (x - y).abs (|a - b| : ℤ) := by
  have nonnegative : (0 : ℚ) ≤ (|a - b| : ℤ) := by exact_mod_cast abs_nonneg (a - b)
  exact isRounded_of_rounded (ofFloat_abs_sub left right) nonnegative

/-- What is nearer is computed to be no farther. -/
theorem abs_sub_le_abs_sub
    (xValue : quanta? x = some a)
    (yValue : quanta? y = some b)
    (uValue : quanta? u = some c)
    (vValue : quanta? v = some d)
    (nearer : |a - b| ≤ |c - d|) :
    (x - y).abs ≤ (u - v).abs :=
  (isRounded_abs_sub xValue yValue).le (isRounded_abs_sub uValue vValue) (by exact_mod_cast nearer)

/-- Equal distances are computed alike. -/
theorem abs_sub_eq_abs_sub
    (xValue : quanta? x = some a)
    (yValue : quanta? y = some b)
    (uValue : quanta? u = some c)
    (vValue : quanta? v = some d)
    (same : |a - b| = |c - d|) :
    (x - y).abs = (u - v).abs := by
  apply ofFloat_injective
  rw [ofFloat_abs_sub xValue yValue, ofFloat_abs_sub uValue vValue, same]

/-- A distance that reaches a double is computed to reach it. -/
theorem le_abs_sub
    (xValue : quanta? x = some a)
    (yValue : quanta? y = some b)
    (bound : quanta? z = some c)
    (far : c ≤ |a - b|) :
    z ≤ (x - y).abs :=
  (isRounded_of_quanta? bound).le (isRounded_abs_sub xValue yValue) (by exact_mod_cast far)

end Distances

section Units

/-- In a positive unit, the magnitude of a difference is the distance. -/
theorem abs_div_of_pos (value : quanta? z = some c) (positive : 0 < c) (x : Float) :
    (x / z).abs = x.abs / z := by
  obtain ⟨t, n, zFinite, -⟩ := exists_finite_of_quanta? value
  have sign := positive_of_quanta? value positive
  rw [zFinite] at sign
  obtain ⟨rfl, nonzero⟩ := sign
  apply ofFloat_injective
  rw [ofFloat_abs, ofFloat_div, ofFloat_div, ofFloat_abs, zFinite]
  cases ofFloat x with
  | nan => rfl
  | infinite s => rfl
  | finite s m =>
      rw [show (finite s m).unsigned = finite false m from rfl]
      simp only [dividedBy, if_neg nonzero, Bool.xor_false]
      exact unsigned_rounded s _

/-- What reaches a unit is computed to be at least one of it. -/
theorem one_le_div (value : quanta? z = some c) (positive : 0 < c) (le : z ≤ x) :
    1 ≤ x / z := by
  have whole : 1 ≤ z / z :=
    (le_iff_quanta_le quanta?_one (quanta?_div_same value value positive.ne')).mpr le_rfl
  exact le_of_le_of_le whole (div_le_div_finite le value positive)

end Units

section Directions

/-- Squares grow with the magnitude. -/
theorem mul_self_le_mul_self_finite
    (left : quanta? x = some a)
    (right : quanta? y = some b)
    (order : |a| ≤ |b|) :
    x * x ≤ y * y := by
  refine (isRounded_mul left left).le (isRounded_mul right right) ?_
  refine div_le_div_of_nonneg_right ?_ unit_pos.le
  exact_mod_cast abs_le_iff_mul_self_le.mp order

/-- Multiplying a finite double that is not negative keeps the order of the other factors. -/
theorem mul_le_mul_left_finite
    (left : quanta? x = some a)
    (right : quanta? y = some b)
    (order : a ≤ b)
    (value : quanta? z = some c)
    (nonnegative : 0 ≤ c) :
    z * x ≤ z * y := by
  refine (isRounded_mul value left).le (isRounded_mul value right) ?_
  refine div_le_div_of_nonneg_right ?_ unit_pos.le
  exact mul_le_mul_of_nonneg_left (by exact_mod_cast order) (by exact_mod_cast nonnegative)

/-- A square and a finite double add up to no less than the latter. -/
theorem le_mul_self_add (left : quanta? x = some a) (value : quanta? z = some c) :
    z ≤ x * x + z := by
  have nothing : 0 ≤ (0 : Float) * 0 :=
    (le_iff_quanta_le quanta?_zero (quanta?_zero_mul quanta?_zero quanta?_zero)).mpr le_rfl
  have square : 0 * 0 ≤ x * x :=
    mul_self_le_mul_self_finite quanta?_zero left (by rw [abs_zero]; exact abs_nonneg a)
  have itself : z ≤ 0 + z :=
    (le_iff_quanta_le value (quanta?_zero_add quanta?_zero value)).mpr le_rfl
  exact le_of_le_of_le itself (add_le_add_finite (le_of_le_of_le nothing square) value)

/-- Subtracting a finite double keeps the order. -/
theorem sub_le_sub_right_finite (le : x ≤ y) (value : quanta? z = some c) : x - z ≤ y - z := by
  rw [sub_eq_plus_neg, sub_eq_plus_neg]
  exact add_le_add_finite le (quanta?_neg value)

/-- What is at least a positive double is infinite or finite above zero. -/
theorem infinite_or_positive (value : quanta? z = some c) (positive : 0 < c) (above : z ≤ x) :
    ofFloat x = .infinite false ∨ ∃ d, quanta? x = some d ∧ 0 < d := by
  have number := (ne_nan_of_le above).2
  have inside := quanta_bounds value
  rcases exists_infinite_or_quanta? number with ⟨_ | _, infinite⟩ | ⟨d, finite⟩
  · exact .inl infinite
  · rw [le_iff_level_le (ne_nan_of_quanta? value) number, level_of_quanta? value, infinite,
      level_infinite_true] at above
    omega
  · rw [le_iff_quanta_le value finite] at above
    exact .inr ⟨d, finite, positive.trans_le above⟩

/-- What is at least a positive double is not zero. -/
theorem beq_zero_eq_false (value : quanta? z = some c) (positive : 0 < c) (above : z ≤ x) :
    (x == 0) = false := by
  rw [Bool.eq_false_iff, Ne, beq_iff_order?,
    order?_eq (ne_nan_of_le above).2 (ne_nan_of_quanta? quanta?_zero)]
  rw [le_iff_level_le (ne_nan_of_quanta? value) (ne_nan_of_le above).2, level_of_quanta? value]
    at above
  rw [level_of_quanta? quanta?_zero, Option.some_inj, compare_eq_iff_eq]
  omega

theorem quanta?_div_infinite
    {s : Bool}
    (value : quanta? x = some a)
    (infinite : ofFloat y = .infinite s) :
    quanta? (x / y) = some 0 := by
  obtain ⟨t, n, finite, -⟩ := exists_finite_of_quanta? value
  unfold quanta?
  rw [ofFloat_div, finite, infinite]
  exact (signedQuanta_finite _ 0).trans (congrArg some (signed_zero _))

/-- Divided by a finite double above zero, what is not negative stays so. -/
theorem zero_le_div (le : 0 ≤ x) (value : quanta? z = some c) (positive : 0 < c) : 0 ≤ x / z := by
  have zero : quanta? (0 / z) = some 0 := quanta?_zero_div quanta?_zero value positive.ne'
  have nothing : 0 ≤ 0 / z := (le_iff_quanta_le quanta?_zero zero).mpr le_rfl
  exact le_of_le_of_le nothing (div_le_div_finite le value positive)

/-- A quotient of what is not negative by what is positive or infinite is not negative. -/
theorem zero_le_div_finite
    (left : quanta? x = some a)
    (lower : 0 ≤ a)
    (value : quanta? z = some c)
    (positive : 0 < c)
    (above : z ≤ y) :
    0 ≤ x / y := by
  rcases infinite_or_positive value positive above with infinite | ⟨d, finite, divisor⟩
  · exact (le_iff_quanta_le quanta?_zero (quanta?_div_infinite left infinite)).mpr le_rfl
  · exact zero_le_div ((le_iff_quanta_le quanta?_zero left).mpr lower) finite divisor

/-- Quotients fall while their divisor grows. -/
theorem div_le_div_divisor
    (left : quanta? x = some a)
    (right : quanta? y = some b)
    (lower : 0 ≤ a)
    (order : a ≤ b)
    (value : quanta? z = some c)
    (positive : 0 < c)
    (above : z ≤ u)
    (le : u ≤ v) :
    x / v ≤ y / u := by
  rcases infinite_or_positive value positive (le_of_le_of_le above le) with
    infinite | ⟨d, great, greatPositive⟩
  · -- An infinite divisor leaves nothing of the quotient.
    have nothing : x / v ≤ 0 :=
      (le_iff_quanta_le (quanta?_div_infinite left infinite) quanta?_zero).mpr le_rfl
    exact le_of_le_of_le nothing
      (zero_le_div_finite right (lower.trans order) value positive above)
  · obtain ⟨e, small, smallPositive⟩ : ∃ e, quanta? u = some e ∧ 0 < e := by
      refine (infinite_or_positive value positive above).resolve_left fun infinite => ?_
      have inside := quanta_bounds great
      rw [le_iff_level_le (ne_nan_of_le le).1 (ne_nan_of_le le).2, level_of_quanta? great,
        infinite, level_infinite_false] at le
      omega
    have divisors : e ≤ d := (le_iff_quanta_le small great).mp le
    have quotient := isRounded_div left great greatPositive.ne'
    have larger := isRounded_div right small smallPositive.ne'
    refine quotient.le larger ?_
    have dividend : (0 : ℚ) ≤ b * unit :=
      mul_nonneg (by exact_mod_cast lower.trans order) unit_pos.le
    refine div_le_div₀ dividend ?_ (by exact_mod_cast smallPositive) (by exact_mod_cast divisors)
    exact mul_le_mul_of_nonneg_right (by exact_mod_cast order) unit_pos.le

end Directions

end Binary64
end WindsAloft
