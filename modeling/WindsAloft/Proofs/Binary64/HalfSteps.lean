import WindsAloft.Proofs.Binary64.Restored
import WindsAloft.Proofs.Binary64.Steps

/-!
# Half a step more

Rounding half up adds one half to a double, and the sum is rounded before its floor is taken.
This module says when the rounding takes that floor along.  A step is `2 ^ (54 + k)` quanta here,
so that half a step is a whole number of quanta as well.

Below `2 ^ 52` steps the floor stays that of the exact sum, except from the double just below half
a step.  From there on doubles are whole numbers of steps, and half a step is either rounded away
or to the even side: odd numbers of 53 bits are carried on to the next one.

Everything is shown of magnitudes first.
-/

namespace WindsAloft
namespace Binary64

section Magnitudes

variable {k m n : ℕ}

/-- Below a power of two, doubles keep their distance from it. -/
theorem Representable.add_pow_le
    (representable : Representable m)
    (below : m < 2 ^ (53 + k)) :
    m + 2 ^ k ≤ 2 ^ (53 + k) := by
  rcases Nat.lt_or_ge m (2 ^ (52 + k)) with low | high
  · have narrow : 2 ^ k ≤ 2 ^ (52 + k) := Nat.pow_le_pow_right two_pos (by omega)
    have double : 2 ^ (53 + k) = 2 * 2 ^ (52 + k) := by
      rw [← pow_succ']
      congr 1
      omega
    omega
  · exact add_distance_le representable ⟨by exact_mod_cast below, .inr (by exact_mod_cast high)⟩

/-- Half a step that is taken off a magnitude leaves what is representable. -/
theorem representable_sub_half
    (representable : Representable m)
    (upper : m ≤ 2 ^ (106 + k)) :
    Representable (m - 2 ^ (53 + k)) := by
  obtain ⟨j, scale⟩ := exists_inScale (m : ℚ)
  rcases upper.lt_or_eq with below | rfl
  · obtain ⟨c, small, rfl⟩ := exists_eq_pow_mul representable scale
    have fine : j ≤ 53 + k := by
      rcases scale.2 with rfl | lower
      · omega
      · have := exponent_lt (by exact_mod_cast lower) below
        omega
    obtain ⟨i, rest⟩ := Nat.exists_eq_add_of_le fine
    rw [rest, pow_add, ← Nat.mul_sub, Nat.mul_comm]
    exact ⟨c - 2 ^ i, j, (Nat.sub_le _ _).trans_lt small, rfl⟩
  · have power : 2 ^ (106 + k) - 2 ^ (53 + k) = (2 ^ 53 - 1) * 2 ^ (53 + k) := by
      rw [Nat.sub_mul, ← pow_add, Nat.one_mul]
      congr 2
      omega
    rw [power]
    exact ⟨_, _, by norm_num, rfl⟩

/-- Beyond a power of two half a step is representable, as long as there are few steps below it. -/
theorem exists_representable_beyond
    {l : ℕ}
    (few : l < 52)
    (most : m ≤ 2 ^ l * 2 ^ (54 + k))
    (beyond : 2 ^ l * 2 ^ (54 + k) < m + 2 ^ (53 + k))
    (below : m + 2 ^ (53 + k) < n * 2 ^ (54 + k)) :
    ∃ r, Representable r ∧ m + 2 ^ (53 + k) ≤ r ∧ r < n * 2 ^ (54 + k) := by
  have positive : 0 < 2 ^ (53 + k) := by positivity
  have double : 2 ^ (54 + k) = 2 * 2 ^ (53 + k) := by
    rw [← pow_succ']
    congr 1
    omega
  have next : 2 ^ l + 1 ≤ n := Nat.lt_of_mul_lt_mul_right (beyond.trans below)
  refine ⟨2 ^ l * 2 ^ (54 + k) + 2 ^ (53 + k), ?_, by omega, ?_⟩
  · have mantissa : 2 ^ l * 2 ^ (54 + k) + 2 ^ (53 + k) = (2 * 2 ^ l + 1) * 2 ^ (53 + k) := by
      rw [double]
      ring
    have small : 2 * 2 ^ l ≤ 2 ^ 52 := by
      rw [← pow_succ']
      exact Nat.pow_le_pow_right two_pos few
    rw [mantissa]
    exact representable_of_le (by omega) _
  · calc
      2 ^ l * 2 ^ (54 + k) + 2 ^ (53 + k) < 2 ^ l * 2 ^ (54 + k) + 2 ^ (54 + k) := by omega
      _ = (2 ^ l + 1) * 2 ^ (54 + k) := by ring
      _ ≤ n * 2 ^ (54 + k) := Nat.mul_le_mul_right _ next

/-- Half a step added to a magnitude stays apart from the whole number of steps above it. -/
theorem exists_representable_below
    (representable : Representable m)
    (lower : 2 ^ (53 + k) ≤ m)
    (upper : m < 2 ^ (106 + k))
    (below : m + 2 ^ (53 + k) < n * 2 ^ (54 + k)) :
    ∃ r, Representable r ∧ m + 2 ^ (53 + k) ≤ r ∧ r < n * 2 ^ (54 + k) := by
  obtain ⟨j, scale⟩ := exists_inScale (m : ℚ)
  have coarse : k < j := by
    have := exponent_lt lower (by exact_mod_cast scale.1)
    omega
  have fine : j ≤ 53 + k := by
    have := exponent_lt (by exact_mod_cast scale.2.resolve_left (by omega)) upper
    omega
  obtain ⟨c, small, rfl⟩ := exists_eq_pow_mul representable scale
  obtain ⟨i, rest⟩ := Nat.exists_eq_add_of_le fine
  by_cases within : c + 2 ^ i ≤ 2 ^ 53
  · -- The sum has a mantissa that fits.
    refine ⟨_, ?_, le_rfl, below⟩
    rw [rest, pow_add, ← Nat.mul_add, Nat.mul_comm]
    exact representable_of_le within j
  · -- The sum goes beyond a power of two.
    obtain ⟨l, wide⟩ := Nat.exists_eq_add_of_lt coarse
    have power : 2 ^ l * 2 ^ (54 + k) = 2 ^ j * 2 ^ 53 := by
      rw [← pow_add, ← pow_add]
      congr 1
      omega
    have sum : 2 ^ j * c + 2 ^ (53 + k) = 2 ^ j * (c + 2 ^ i) := by
      rw [rest, pow_add, Nat.mul_add]
    have several : i ≠ 0 := by
      rintro rfl
      omega
    refine exists_representable_beyond (l := l) (by omega) ?_ ?_ below
    · rw [power]
      exact Nat.mul_le_mul_left _ small.le
    · rw [power, sum]
      exact Nat.mul_lt_mul_of_pos_left (not_le.mp within) (by positivity)

/--
Half a step more is not rounded to a whole number of steps above the exact sum, except from the
magnitude just below half a step.
-/
theorem nearest_add_half_lt
    (representable : Representable m)
    (upper : m < 2 ^ (106 + k))
    (other : m + 2 ^ k ≠ 2 ^ (53 + k))
    (below : m + 2 ^ (53 + k) < n * 2 ^ (54 + k)) :
    nearest (m + 2 ^ (53 + k)) < n * 2 ^ (54 + k) := by
  rcases Nat.lt_or_ge m (2 ^ (53 + k)) with less | large
  · have most : m + 2 ^ k < 2 ^ (53 + k) := (representable.add_pow_le less).lt_of_ne other
    have most' : (m : ℚ) + 2 ^ k < 2 ^ (53 + k) := by exact_mod_cast most
    have double : (2 : ℚ) ^ (54 + k) = 2 * 2 ^ (53 + k) := by
      rw [← pow_succ']
      congr 1
      omega
    have one : 0 < n := Nat.pos_of_mul_pos_right ((Nat.zero_le _).trans_lt below)
    calc
      nearest (m + 2 ^ (53 + k)) < 2 ^ (54 + k) := nearest_lt_pow (by simp) (by linarith)
      _ ≤ n * 2 ^ (54 + k) := Nat.le_mul_of_pos_left _ one
  · obtain ⟨r, double, atLeast, less⟩ :=
      exists_representable_below representable large upper below
    calc
      nearest (m + 2 ^ (53 + k)) ≤ nearest r := nearest_mono (by exact_mod_cast atLeast)
      _ = r := nearest_natCast double
      _ < n * 2 ^ (54 + k) := less

/-- From `2 ^ 52` steps on, half a step is rounded to the even side. -/
theorem nearest_add_half (lower : 2 ^ 52 ≤ n) (upper : n < 2 ^ 53) :
    nearest (n * 2 ^ (54 + k) + 2 ^ (53 + k)) = (n + n % 2) * 2 ^ (54 + k) := by
  have step : (0 : ℚ) < 2 ^ (54 + k) := by positivity
  have half : (2 : ℚ) ^ (53 + k) = 2 ^ (54 + k) / 2 := by
    rw [eq_div_iff two_ne_zero, ← pow_succ]
    congr 1
    omega
  have lower' : (2 : ℚ) ^ 52 ≤ n := by exact_mod_cast lower
  have upper' : (n : ℚ) + 1 ≤ 2 ^ 53 := by exact_mod_cast upper
  have scale : InScale (54 + k) ((n : ℚ) * 2 ^ (54 + k) + 2 ^ (53 + k)) := by
    rw [half]
    refine ⟨?_, .inr ?_⟩
    · rw [pow_add 2 53]
      nlinarith
    · rw [pow_add 2 52]
      nlinarith
  have quotient : ((n : ℚ) * 2 ^ (54 + k) + 2 ^ (53 + k)) / 2 ^ (54 + k) = n + 1 / 2 := by
    rw [half, div_eq_iff step.ne']
    ring
  rw [nearest_eq scale, quotient, halfEven_add_half]

/-- From `2 ^ 53` steps on, half a step more is rounded away. -/
theorem nearest_add_half_of_far
    (representable : Representable m)
    (far : 2 ^ (107 + k) ≤ m) :
    nearest (m + 2 ^ (53 + k)) = m := by
  obtain ⟨j, scale⟩ := exists_inScale (m : ℚ)
  have coarse : 54 + k < j := by
    have := exponent_lt far (by exact_mod_cast scale.1)
    omega
  have half : (2 : ℚ) ^ (53 + k) < 2 ^ j / 2 := by
    rw [lt_div_iff₀ two_pos, ← pow_succ]
    exact pow_lt_pow_right₀ one_lt_two (by omega)
  have room : (m : ℚ) + 2 ^ j ≤ 2 ^ (53 + j) := by
    exact_mod_cast add_distance_le representable scale
  have positive : (0 : ℚ) < 2 ^ (53 + k) := by positivity
  refine nearest_eq_of_close (k := j) ⟨by linarith, .inr ?_⟩ (representable.dvd scale) ?_
  · have := scale.2.resolve_left (by omega)
    linarith
  · rw [add_sub_cancel_left, abs_of_pos positive]
    exact half

/-- Beyond `2 ^ 53` steps, half a step less is rounded away. -/
theorem nearest_sub_half_of_far
    (representable : Representable m)
    (far : 2 ^ (107 + k) < m) :
    nearest (m - 2 ^ (53 + k)) = m := by
  obtain ⟨j, scale⟩ := exists_inScale ((m : ℚ) - 2 ^ (53 + k))
  have positive : (0 : ℚ) < 2 ^ (53 + k) := by positivity
  have apart : 2 ^ (107 + k) + 2 ^ (55 + k) ≤ m :=
    representable.add_pow_le_of_lt (pow_dvd_pow 2 (by omega))
      (Nat.pow_le_pow_right two_pos (by omega)) far
  have above : (2 : ℚ) ^ (107 + k) ≤ m - 2 ^ (53 + k) := by
    have step : (2 : ℚ) ^ (53 + k) ≤ 2 ^ (55 + k) := pow_le_pow_right₀ one_le_two (by omega)
    have apart' : (2 : ℚ) ^ (107 + k) + 2 ^ (55 + k) ≤ m := by exact_mod_cast apart
    linarith
  have coarse : 54 + k < j := by
    have := (pow_lt_pow_iff_right₀ (one_lt_two (α := ℚ))).mp (above.trans_lt scale.1)
    omega
  have divides : 2 ^ j ∣ m := by
    apply representable.dvd_of_le
    have lower := scale.2.resolve_left (by omega)
    have : (2 : ℚ) ^ (52 + j) ≤ m := by linarith
    exact_mod_cast this
  refine nearest_eq_of_close scale divides ?_
  rw [sub_sub_cancel_left, abs_neg, abs_of_pos positive, lt_div_iff₀ two_pos, ← pow_succ]
  exact pow_lt_pow_right₀ one_lt_two (by omega)

end Magnitudes

section Integers

variable {k : ℕ} {a m n : ℤ}

theorem two_pow_succ_eq : (2 : ℤ) ^ (54 + k) = 2 * 2 ^ (53 + k) := by
  rw [← pow_succ']
  congr 1
  omega

/-- The same below zero, where half a step more is at most half a step or exact. -/
theorem near_neg_add_half_lt
    {m : ℕ}
    (representable : Representable m)
    (upper : m ≤ 2 ^ (106 + k))
    (below : -(m : ℤ) + 2 ^ (53 + k) < n * 2 ^ (54 + k)) :
    near (-m + 2 ^ (53 + k)) < n * 2 ^ (54 + k) := by
  have half : (0 : ℤ) < 2 ^ (53 + k) := by positivity
  have step : (2 : ℤ) ^ (54 + k) = 2 * 2 ^ (53 + k) := two_pow_succ_eq
  rcases Nat.lt_or_ge m (2 ^ (53 + k)) with less | large
  · have less' : (m : ℤ) < 2 ^ (53 + k) := by exact_mod_cast less
    have most : near (-m + 2 ^ (53 + k)) ≤ near ((2 ^ (53 + k) : ℤ) : ℚ) :=
      near_mono (by push_cast; linarith [(Nat.cast_nonneg m : (0 : ℚ) ≤ m)])
    rw [near_intCast (by rw [Int.natAbs_pow]; exact representable_pow _)] at most
    have one : 0 < n := by
      refine (mul_pos_iff_of_pos_right (by positivity : (0 : ℤ) < 2 ^ (54 + k))).mp ?_
      omega
    have least : (2 : ℤ) ^ (54 + k) ≤ n * 2 ^ (54 + k) :=
      le_mul_of_one_le_left (by positivity) one
    omega
  · have exact : -(m : ℤ) + 2 ^ (53 + k) = -((m - 2 ^ (53 + k) : ℕ) : ℤ) := by
      push_cast [large]
      ring
    have double : Representable (-(m : ℤ) + 2 ^ (53 + k)).natAbs := by
      rw [exact, Int.natAbs_neg, Int.natAbs_natCast]
      exact representable_sub_half representable upper
    have place := near_intCast double
    push_cast at place
    rwa [place]

theorem near_add_half_lt
    (representable : Representable a.natAbs)
    (lower : -2 ^ (106 + k) ≤ a)
    (upper : a < 2 ^ (106 + k))
    (other : a ≠ 2 ^ (53 + k) - 2 ^ k)
    (below : a + 2 ^ (53 + k) < n * 2 ^ (54 + k)) :
    near (a + 2 ^ (53 + k)) < n * 2 ^ (54 + k) := by
  obtain ⟨m, rfl | rfl⟩ := a.eq_nat_or_neg
  · rw [Int.natAbs_natCast] at representable
    have half : (0 : ℤ) < 2 ^ (53 + k) := by positivity
    have one : 0 < n := by
      refine (mul_pos_iff_of_pos_right (by positivity : (0 : ℤ) < 2 ^ (54 + k))).mp ?_
      omega
    lift n to ℕ using one.le
    have apart : m + 2 ^ k ≠ 2 ^ (53 + k) := fun same =>
      other (eq_sub_of_add_eq (by exact_mod_cast same))
    rw [Int.cast_natCast, near_of_nonneg (by positivity)]
    exact_mod_cast nearest_add_half_lt representable (by exact_mod_cast upper) apart
      (by exact_mod_cast below)
  · rw [Int.natAbs_neg, Int.natAbs_natCast] at representable
    rw [Int.cast_neg, Int.cast_natCast]
    exact near_neg_add_half_lt representable (by exact_mod_cast neg_le_neg_iff.mp lower) below

/-- So the whole number below the sum is that of the exact sum. -/
theorem near_add_half_ediv
    (representable : Representable a.natAbs)
    (lower : -2 ^ (106 + k) ≤ a)
    (upper : a < 2 ^ (106 + k))
    (other : a ≠ 2 ^ (53 + k) - 2 ^ k) :
    near (a + 2 ^ (53 + k)) / 2 ^ (54 + k) = (a + 2 ^ (53 + k)) / 2 ^ (54 + k) := by
  have positive : (0 : ℤ) < 2 ^ (54 + k) := by positivity
  have half : (0 : ℤ) < 2 ^ (53 + k) := by positivity
  have range : (2 : ℤ) ^ (106 + k) = 2 ^ 52 * 2 ^ (54 + k) := by
    rw [← pow_add]
    congr 1
    omega
  have step : (2 : ℤ) ^ (54 + k) = 2 * 2 ^ (53 + k) := two_pow_succ_eq
  apply le_antisymm
  · rw [← Int.lt_add_one_iff, Int.ediv_lt_iff_lt_mul positive]
    exact near_add_half_lt representable lower upper other
      (Int.lt_ediv_add_one_mul_self _ positive)
  · have least : -2 ^ 52 ≤ (a + 2 ^ (53 + k)) / 2 ^ (54 + k) := by
      rw [Int.le_ediv_iff_mul_le positive]
      omega
    have greatest : (a + 2 ^ (53 + k)) / 2 ^ (54 + k) < 2 ^ 52 + 1 := by
      rw [Int.ediv_lt_iff_lt_mul positive]
      omega
    have whole := Int.ediv_mul_le (a + 2 ^ (53 + k)) positive.ne'
    rw [Int.le_ediv_iff_mul_le positive]
    generalize (a + 2 ^ (53 + k)) / 2 ^ (54 + k) = n at least greatest whole ⊢
    have double : Representable (n * 2 ^ (54 + k)).natAbs := by
      rw [Int.natAbs_mul, Int.natAbs_pow]
      exact representable_of_le (by omega) _
    rw [← near_intCast double]
    exact near_mono (by exact_mod_cast whole)

/-- Whole numbers with 53 bits are taken to the even side. -/
theorem near_whole_add_half
    (within : 2 ^ 52 ≤ m ∧ m < 2 ^ 53 ∨ -2 ^ 53 ≤ m ∧ m < -2 ^ 52) :
    near (m * 2 ^ (54 + k) + 2 ^ (53 + k)) = (m + m % 2) * 2 ^ (54 + k) := by
  rcases within with ⟨lower, upper⟩ | ⟨lower, upper⟩
  · lift m to ℕ using by omega
    have rounded := nearest_add_half (k := k) (n := m) (by omega) (by omega)
    rw [Int.cast_natCast, near_of_nonneg (by positivity), rounded]
    push_cast
    ring
  · obtain ⟨n, rfl⟩ : ∃ n : ℕ, m = -(n + 1 : ℤ) := ⟨(-m - 1).toNat, by omega⟩
    have rounded := nearest_add_half (k := k) (n := n) (by omega) (by omega)
    have half : (2 : ℚ) ^ (54 + k) = 2 * 2 ^ (53 + k) := by exact_mod_cast two_pow_succ_eq (k := k)
    have sum : ((-(n + 1) : ℤ) : ℚ) * 2 ^ (54 + k) + 2 ^ (53 + k) =
        -(n * 2 ^ (54 + k) + 2 ^ (53 + k)) := by
      push_cast
      rw [half]
      ring
    rw [sum, near_neg, near_of_nonneg (by positivity), rounded]
    have even : (-(n + 1 : ℤ)) + (-(n + 1 : ℤ)) % 2 = -((n + n % 2 : ℕ) : ℤ) := by omega
    rw [even]
    push_cast
    ring

/-- Whole numbers beyond that stay as they are. -/
theorem near_far_whole_add_half
    (representable : Representable (m * 2 ^ (54 + k)).natAbs)
    (beyond : 2 ^ 53 ≤ m ∨ m < -2 ^ 53) :
    near (m * 2 ^ (54 + k) + 2 ^ (53 + k)) = m * 2 ^ (54 + k) := by
  have range : (2 : ℕ) ^ (107 + k) = 2 ^ 53 * 2 ^ (54 + k) := by
    rw [← pow_add]
    congr 1
    omega
  rw [Int.natAbs_mul, Int.natAbs_pow] at representable
  change Representable (m.natAbs * 2 ^ (54 + k)) at representable
  rcases beyond with above | below
  · lift m to ℕ using by omega
    have far : 2 ^ (107 + k) ≤ m * 2 ^ (54 + k) := by
      rw [range]
      exact Nat.mul_le_mul_right _ (by omega)
    have rounded := nearest_add_half_of_far representable far
    rw [Int.natAbs_natCast] at rounded
    push_cast at rounded ⊢
    rw [near_of_nonneg (by positivity), rounded]
    push_cast
    rfl
  · obtain ⟨n, rfl⟩ : ∃ n : ℕ, m = -(n : ℤ) := ⟨(-m).toNat, by omega⟩
    rw [Int.natAbs_neg, Int.natAbs_natCast] at representable
    have far : 2 ^ (107 + k) < n * 2 ^ (54 + k) := by
      rw [range]
      exact Nat.mul_lt_mul_of_pos_right (by omega) (by positivity)
    have rounded := nearest_sub_half_of_far representable far
    have sum : ((-n : ℤ) : ℚ) * 2 ^ (54 + k) + 2 ^ (53 + k) =
        -(((n * 2 ^ (54 + k) : ℕ) : ℚ) - 2 ^ (53 + k)) := by
      push_cast
      ring
    have nonnegative : (0 : ℚ) ≤ ((n * 2 ^ (54 + k) : ℕ) : ℚ) - 2 ^ (53 + k) := by
      have narrow : 2 ^ (53 + k) ≤ 2 ^ (107 + k) := Nat.pow_le_pow_right two_pos (by omega)
      rw [sub_nonneg]
      exact_mod_cast narrow.trans far.le
    rw [sum, near_neg, near_of_nonneg nonnegative, rounded]
    push_cast
    ring

/--
One half added to a whole number from `2 ^ 52` on is dropped again, but for the odd ones of 53 bits,
which it carries to the next whole number.
-/
theorem near_whole_add_half_ediv
    (representable : Representable (m * 2 ^ (54 + k)).natAbs)
    (large : 2 ^ 52 ≤ |m|) :
    near (m * 2 ^ (54 + k) + 2 ^ (53 + k)) / 2 ^ (54 + k) =
      m + if |m| < 2 ^ 53 then m % 2 else 0 := by
  have positive : (0 : ℤ) < 2 ^ (54 + k) := by positivity
  have whole (n : ℤ) : n * 2 ^ (54 + k) / 2 ^ (54 + k) = n := Int.mul_ediv_cancel _ positive.ne'
  rw [le_abs] at large
  by_cases edge : m = -2 ^ 52
  · -- Half a step makes this one shorter, and it is the only one for which it does.
    have least : m * 2 ^ (54 + k) = -(2 : ℤ) ^ (106 + k) := by
      rw [edge, neg_mul, ← pow_add]
      congr 2
      omega
    have half : (0 : ℤ) < 2 ^ (53 + k) := by positivity
    have step : (2 : ℤ) ^ (54 + k) = 2 * 2 ^ (53 + k) := two_pow_succ_eq
    have range : (0 : ℤ) < 2 ^ (106 + k) := by positivity
    have narrow : (2 : ℤ) ^ k ≤ 2 ^ (53 + k) := pow_le_pow_right₀ one_le_two (by omega)
    have floor := near_add_half_ediv (k := k) representable (by omega) (by omega) (by omega)
    rw [Int.cast_mul, Int.cast_pow, Int.cast_ofNat] at floor
    rw [floor, Int.add_comm, Int.add_mul_ediv_right _ _ positive.ne',
      Int.ediv_eq_zero_of_lt half.le (by omega), edge]
    rfl
  · by_cases narrow : |m| < 2 ^ 53
    · have bounds := abs_lt.mp narrow
      rw [if_pos narrow, near_whole_add_half (by omega), whole]
    · have bounds := le_abs.mp (not_lt.mp narrow)
      rw [if_neg narrow, add_zero]
      by_cases last : m = -2 ^ 53
      · rw [near_whole_add_half (by omega), whole, last]
        rfl
      · rw [near_far_whole_add_half representable (by omega), whole]

end Integers

end Binary64
end WindsAloft
