import WindsAloft.Proofs.Binary64.Levels

/-!
# Results that stay finite

An infinity never leaves a sum again: a finite sum has finite summands, and a finite
quotient a finite dividend.  In the other direction, adding to a sum what is less than
half the distance of the greatest doubles never takes it past the power of two at which
that distance begins.  So a sum of such terms stays finite however many they are.
-/

namespace WindsAloft
namespace Binary64

attribute [local irreducible] unit overflow

section Parts

variable {x y : Float}

/-- A finite sum has finite summands. -/
theorem isFinite_of_isFinite_add (finite : (x + y).isFinite = true) :
    x.isFinite = true ∧ y.isFinite = true := by
  obtain ⟨c, value⟩ := (isFinite_iff _).mp finite
  obtain ⟨s, m, number, -⟩ := exists_finite_of_quanta? value
  rw [ofFloat_add] at number
  simp only [isFinite_iff, quanta?]
  cases left : ofFloat x with
  | nan =>
      rw [left] at number
      cases number
  | infinite s =>
      rw [left] at number
      cases right : ofFloat y with
      | nan =>
          rw [right] at number
          cases number
      | infinite t =>
          rw [right, plus] at number
          split at number <;> cases number
      | finite t n =>
          rw [right] at number
          cases number
  | finite s m =>
      rw [left] at number
      cases right : ofFloat y with
      | nan =>
          rw [right] at number
          cases number
      | infinite t =>
          rw [right] at number
          cases number
      | finite t n => exact ⟨⟨_, signedQuanta_finite s m⟩, ⟨_, signedQuanta_finite t n⟩⟩

/-- Over a positive 64-bit integer, a quotient is finite just if the dividend is. -/
theorem isFinite_div_ofInt64 {n : Int64} (positive : 0 < n.toInt) :
    (x / ofInt64 n).isFinite = true ↔ x.isFinite = true := by
  obtain ⟨c, divisor, least⟩ := exists_quanta?_ofInt64_pos positive
  have one : 0 < (unit : ℤ) := unit_pos_int
  have nonzero : c ≠ 0 := by omega
  constructor
  · intro finite
    obtain ⟨q, value⟩ := (isFinite_iff _).mp finite
    obtain ⟨s, m, number, -⟩ := exists_finite_of_quanta? value
    obtain ⟨t, n, right, -⟩ := exists_finite_of_quanta? divisor
    rw [ofFloat_div, right] at number
    simp only [isFinite_iff, quanta?]
    cases left : ofFloat x with
    | nan =>
        rw [left] at number
        cases number
    | infinite s =>
        rw [left] at number
        cases number
    | finite s m => exact ⟨_, signedQuanta_finite s m⟩
  · intro finite
    obtain ⟨a, dividend⟩ := (isFinite_iff _).mp finite
    have least' : (unit : ℚ) ≤ c := by exact_mod_cast least
    have small : |(a : ℚ) * unit / c| ≤ |a| := by
      rw [abs_div, abs_mul, abs_of_pos unit_pos, abs_of_pos (unit_pos.trans_le least'),
        div_le_iff₀ (unit_pos.trans_le least'), Int.cast_abs]
      exact mul_le_mul_of_nonneg_left least' (abs_nonneg _)
    obtain ⟨q, value, -⟩ := exists_limit?_near_of_abs_le (isDouble_of_quanta? dividend).abs small
    exact (isFinite_iff _).mpr ⟨q, (quanta?_div dividend divisor nonzero).trans value⟩

end Parts

/-- Every term is finite, and so is every sum on the way. -/
def StaysFinite : Float → List Float → Prop
  | _, [] => True
  | sum, term :: terms =>
      term.isFinite = true ∧ (sum + term).isFinite = true ∧ StaysFinite (sum + term) terms

/-- What is not finite does not become finite by adding to it. -/
theorem isFinite_of_isFinite_foldl_add
    {sum : Float}
    {terms : List Float}
    (finite : (terms.foldl (· + ·) sum).isFinite = true) :
    sum.isFinite = true := by
  induction terms generalizing sum with
  | nil => exact finite
  | cons term terms ih => exact (isFinite_of_isFinite_add (ih finite)).1

/-- A sum that was finite at first is finite at last just if it has been so all the way. -/
theorem isFinite_foldl_add_iff
    {sum : Float}
    {terms : List Float}
    (start : sum.isFinite = true) :
    (terms.foldl (· + ·) sum).isFinite = true ↔ StaysFinite sum terms := by
  induction terms generalizing sum with
  | nil => exact ⟨fun _ => trivial, fun _ => start⟩
  | cons term terms ih =>
      rw [List.foldl_cons]
      constructor
      · intro finite
        have next : (sum + term).isFinite = true := isFinite_of_isFinite_foldl_add finite
        exact ⟨(isFinite_of_isFinite_add next).2, next, (ih next).mp finite⟩
      · rintro ⟨-, next, rest⟩
        exact (ih next).mpr rest

section Bounds

variable {x y : Float} {a b : ℤ} {k : ℕ}

/-- Less than half a distance beyond a power of two, numbers are rounded back to it. -/
theorem nearest_le_pow {q : ℚ} (below : q < 2 ^ (52 + k) + 2 ^ k / 2) :
    nearest q ≤ 2 ^ (52 + k) := by
  rcases lt_or_ge q (2 ^ (52 + k)) with less | atLeast
  · rw [← nearest_natCast (representable_pow (52 + k))]
    apply nearest_mono
    push_cast
    exact less.le
  · -- From the power on, doubles are `2 ^ k` apart.
    have scale : InScale k q := by
      refine ⟨below.trans_le ?_, .inr atLeast⟩
      have positive : (0 : ℚ) < 2 ^ k := by positivity
      have one : (1 : ℚ) ≤ 2 ^ 52 := by norm_num
      rw [pow_add, pow_add]
      nlinarith
    have most : halfEven (q / 2 ^ k) ≤ 2 ^ 52 := by
      apply halfEven_le
      rw [div_lt_iff₀ (by positivity)]
      refine below.trans_eq ?_
      push_cast
      ring
    rw [nearest_eq scale, pow_add]
    exact Nat.mul_le_mul_right _ most

theorem natAbs_near (q : ℚ) : (near q).natAbs = nearest |q| :=
  natAbs_signed _ _

/-- The greatest power of two keeps sums with small terms from growing. -/
theorem exists_quanta?_add_within
    (limit : overflow = 2 ^ (53 + k))
    (left : quanta? x = some a)
    (leftWithin : |a| ≤ 2 ^ (52 + k))
    (right : quanta? y = some b)
    (rightSmall : 2 * |b| < 2 ^ k) :
    ∃ c, quanta? (x + y) = some c ∧ |c| ≤ 2 ^ (52 + k) := by
  have leftWithin' : |(a : ℚ)| ≤ 2 ^ (52 + k) := by exact_mod_cast leftWithin
  have rightSmall' : 2 * |(b : ℚ)| < 2 ^ k := by exact_mod_cast rightSmall
  have sum : |(a : ℚ) + b| < 2 ^ (52 + k) + 2 ^ k / 2 := by
    have := abs_add_le (a : ℚ) b
    linarith
  have within : (near (a + b)).natAbs ≤ 2 ^ (52 + k) := by
    rw [natAbs_near]
    exact nearest_le_pow sum
  have finite : (near (a + b)).natAbs < overflow := by
    rw [limit]
    exact within.trans_lt (Nat.pow_lt_pow_right (by norm_num) (by omega))
  refine ⟨near (a + b), ?_, ?_⟩
  · rw [quanta?_add left right, limit?, if_pos finite]
  · rw [Int.abs_eq_natAbs]
    exact_mod_cast within

theorem exists_quanta?_foldl_add
    (limit : overflow = 2 ^ (53 + k))
    (start : quanta? x = some a)
    (within : |a| ≤ 2 ^ (52 + k))
    {terms : List Float}
    (small : ∀ term ∈ terms, ∃ b, quanta? term = some b ∧ 2 * |b| < 2 ^ k) :
    ∃ c, quanta? (terms.foldl (· + ·) x) = some c ∧ |c| ≤ 2 ^ (52 + k) := by
  induction terms generalizing x a with
  | nil => exact ⟨a, start, within⟩
  | cons term terms ih =>
      obtain ⟨⟨b, value, head⟩, tail⟩ := List.forall_mem_cons.mp small
      obtain ⟨c, next, nextWithin⟩ := exists_quanta?_add_within limit start within value head
      exact ih next nextWithin tail

/-- The products of `1e273` with 64-bit integers, and half the distance of the greatest doubles. -/
theorem exists_quanta?_bound :
    ∃ b k, quanta? 1e273 = some b ∧ 2 * (b * 2 ^ 63) < 2 ^ k ∧ overflow = 2 ^ (53 + k) := by
  -- The exponent stays a variable, or the powers would be evaluated by every step.
  obtain ⟨k, rest⟩ : ∃ k, k = 2045 := ⟨_, rfl⟩
  have power : overflow = Nat.pow 2 (53 + k) := by
    subst rest
    unfold overflow
    rfl
  have within :
      (quanta? 1e273).any
        (fun b : ℤ => decide (2 * (b * 2 ^ 63) < (Nat.pow 2 k : ℕ))) = true := by
    subst rest
    decide +kernel
  obtain ⟨b, value, less⟩ := (Option.any_eq_true _ _).mp within
  refine ⟨b, k, value, ?_, power⟩
  have less' := of_decide_eq_true less
  exact_mod_cast less'

theorem IsDouble.mul_pow
    {n : ℤ}
    {j : ℕ}
    (double : IsDouble n)
    (small : (n * 2 ^ j).natAbs < overflow) :
    IsDouble (n * 2 ^ j) := by
  refine ⟨?_, small⟩
  obtain ⟨m, i, less, equal⟩ := double.1
  refine ⟨m, i + j, less, ?_⟩
  rw [Int.natAbs_mul, equal, pow_add, mul_assoc, Int.natAbs_pow]
  rfl

/--
A product of a double up to `1e273` and a 64-bit integer is less than half the distance
of the greatest doubles.
-/
theorem exists_quanta?_mul_ofInt64_within :
    ∃ k, overflow = 2 ^ (53 + k) ∧
      ∀ {x : Float} (n : Int64), x.abs ≤ 1e273 →
        ∃ c, quanta? (x * ofInt64 n) = some c ∧ 2 * |c| < 2 ^ k := by
  obtain ⟨b, k, bound, within, limit⟩ := exists_quanta?_bound
  refine ⟨k, limit, fun {x} n small => ?_⟩
  obtain ⟨a, left, aWithin⟩ := exists_quanta?_of_abs_le small bound
  obtain ⟨c, right, cWithin⟩ := exists_quanta?_ofInt64 n
  have nonnegative : 0 ≤ b := (abs_nonneg a).trans aWithin
  have double : IsDouble (b * 2 ^ 63) := by
    apply (isDouble_of_quanta? bound).mul_pow
    have narrow : 2 ^ k ≤ 2 ^ (53 + k) := Nat.pow_le_pow_right (by norm_num) (by omega)
    have narrow' : ((2 ^ k : ℕ) : ℤ) ≤ overflow := by
      rw [limit]
      exact_mod_cast narrow
    push_cast at narrow'
    omega
  have product : |(a : ℚ) * c / unit| ≤ (b * 2 ^ 63 : ℤ) := by
    rw [abs_div, abs_mul, abs_of_pos unit_pos, div_le_iff₀ unit_pos]
    have aWithin' : |(a : ℚ)| ≤ b := by exact_mod_cast aWithin
    have cWithin' : |(c : ℚ)| ≤ 2 ^ 63 * unit := by exact_mod_cast cWithin
    push_cast
    rw [mul_assoc]
    exact mul_le_mul aWithin' cWithin' (abs_nonneg _) (by exact_mod_cast nonnegative)
  obtain ⟨p, value, pWithin⟩ := exists_limit?_near_of_abs_le double product
  exact ⟨p, (quanta?_mul left right).trans value, by omega⟩

end Bounds

/-- Products of doubles up to `1e273` with 64-bit integers add up to a finite double, however
many they are. -/
theorem isFinite_foldl_products
    {terms : List Float}
    (small : ∀ term ∈ terms, ∃ (x : Float) (n : Int64), x.abs ≤ 1e273 ∧ term = x * ofInt64 n) :
    (terms.foldl (· + ·) 0).isFinite = true := by
  obtain ⟨k, limit, share⟩ := exists_quanta?_mul_ofInt64_within
  obtain ⟨c, value, -⟩ :=
    exists_quanta?_foldl_add limit quanta?_zero (by positivity) fun term member => by
      obtain ⟨x, n, bound, rfl⟩ := small term member
      exact share n bound
  exact (isFinite_iff _).mpr ⟨c, value⟩

end Binary64
end WindsAloft
