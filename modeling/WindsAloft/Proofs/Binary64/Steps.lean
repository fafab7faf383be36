import WindsAloft.Proofs.Binary64.Distances

/-!
# Steps from one double towards another

A step goes from one double towards another by a share of their computed difference.  The
difference is rounded and may be greater than the exact one, so that it is not obvious that
the step ends between the two.  It does if the share is no more than a half: a power of two
up to the exact difference is at least half of the computed one, and rounding the share
does not take it beyond that power.  So the exact end of the step lies between two doubles,
and rounding leaves it there.
-/

namespace WindsAloft
namespace Binary64

attribute [local irreducible] unit overflow

variable {x y z : Float} {a b c d : ℤ}

section Halves

/-- Rounding does not see the sign. -/
theorem near_neg (q : ℚ) : near (-q) = -near q := by
  rcases lt_trichotomy q 0 with negative | rfl | positive
  · rw [near_of_neg negative, near_of_nonneg (neg_nonneg.mpr negative.le), neg_neg]
  · rw [neg_zero, near_of_nonneg le_rfl, nearest_zero]
    rfl
  · rw [near_of_neg (neg_neg_of_pos positive), near_of_nonneg positive.le, neg_neg]

/-- Half of a rounded number, or less, is rounded to no more than the number. -/
theorem nearest_nearest_div_le {n : ℕ} {r : ℚ} (half : 2 ≤ r) : nearest (nearest n / r) ≤ n := by
  rcases Nat.eq_zero_or_pos n with rfl | positive
  · rw [Nat.cast_zero, nearest_zero, Nat.cast_zero, zero_div, nearest_zero]
  · have lower : 2 ^ n.log2 ≤ n := Nat.log2_self_le positive.ne'
    have upper : (n : ℚ) ≤ ((2 ^ (n.log2 + 1) : ℕ) : ℚ) := by
      exact_mod_cast Nat.lt_log2_self.le
    have whole : nearest n ≤ 2 ^ (n.log2 + 1) :=
      (nearest_mono upper).trans_eq (nearest_natCast (representable_pow _))
    have share : (nearest n / r : ℚ) ≤ ((2 ^ n.log2 : ℕ) : ℚ) := by
      rw [div_le_iff₀ (by linarith)]
      calc
        (nearest n : ℚ) ≤ ((2 ^ (n.log2 + 1) : ℕ) : ℚ) := by exact_mod_cast whole
        _ = ((2 ^ n.log2 : ℕ) : ℚ) * 2 := by rw [pow_succ, Nat.cast_mul, Nat.cast_two]
        _ ≤ ((2 ^ n.log2 : ℕ) : ℚ) * r := mul_le_mul_of_nonneg_left half (Nat.cast_nonneg _)
    calc
      nearest (nearest n / r) ≤ nearest ((2 ^ n.log2 : ℕ) : ℚ) := nearest_mono share
      _ = 2 ^ n.log2 := nearest_natCast (representable_pow _)
      _ ≤ n := lower

/-- Half of a rounded number, or less, is rounded to what lies between zero and the number. -/
theorem near_near_div_mem {r : ℚ} (half : 2 ≤ r) (n : ℤ) :
    near (near n / r) ∈ Set.uIcc 0 n := by
  have natural (m : ℕ) : near (near (m : ℤ) / r) ∈ Set.Icc 0 (m : ℤ) := by
    have magnitude : (0 : ℚ) ≤ nearest m / r := div_nonneg (Nat.cast_nonneg _) (by linarith)
    rw [Int.cast_natCast, near_of_nonneg (Nat.cast_nonneg m), Int.cast_natCast,
      near_of_nonneg magnitude]
    exact ⟨Int.natCast_nonneg _, by exact_mod_cast nearest_nearest_div_le half⟩
  obtain ⟨m, rfl | rfl⟩ := n.eq_nat_or_neg
  · exact Set.Icc_subset_uIcc (natural m)
  · obtain ⟨lower, upper⟩ := natural m
    rw [Int.cast_neg, near_neg, Int.cast_neg, neg_div, near_neg]
    exact Set.Icc_subset_uIcc' ⟨neg_le_neg upper, neg_nonpos.mpr lower⟩

end Halves

section Counts

theorem isRounded_ofCount (n : ℕ) : IsRounded (ofCount n) (n * unit) := by
  have nonnegative : (0 : ℚ) ≤ n * unit := mul_nonneg (Nat.cast_nonneg _) unit_pos.le
  exact isRounded_of_rounded (ofFloat_ofNat n) nonnegative

/-- A greater count has no lesser double. -/
theorem ofCount_mono {m n : ℕ} (le : m ≤ n) : ofCount m ≤ ofCount n := by
  refine (isRounded_ofCount m).le (isRounded_ofCount n) ?_
  exact mul_le_mul_of_nonneg_right (by exact_mod_cast le) unit_pos.le

/-- From two on, the double of a count is infinite or finite and at least two. -/
theorem ofCount_cases {n : ℕ} (several : 2 ≤ n) :
    ofFloat (ofCount n) = .infinite false ∨
      ∃ c, quanta? (ofCount n) = some c ∧ 2 * (unit : ℤ) ≤ c := by
  have above : 2 ≤ ofCount n := ofCount_mono several
  have one : 0 < (unit : ℤ) := unit_pos_int
  refine (infinite_or_positive quanta?_two (by omega) above).imp_right ?_
  rintro ⟨c, value, -⟩
  exact ⟨c, value, (le_iff_quanta_le quanta?_two value).mp above⟩

end Counts

section Between

/-- A share of a number lies between zero and the number. -/
theorem div_mem_uIcc {r : ℚ} (whole : 1 ≤ r) (q : ℚ) : q / r ∈ Set.uIcc 0 q := by
  rcases le_total 0 q with nonnegative | nonpositive
  · exact Set.Icc_subset_uIcc
      ⟨div_nonneg nonnegative (by linarith), div_le_self nonnegative whole⟩
  · have magnitude : -q / r ≤ -q := div_le_self (neg_nonneg.mpr nonpositive) whole
    rw [neg_div, neg_le_neg_iff] at magnitude
    exact Set.Icc_subset_uIcc' ⟨magnitude, div_nonpos_of_nonpos_of_nonneg nonpositive (by linarith)⟩

/-- Rounding keeps what lies between zero and a number between zero and the rounded number. -/
theorem near_mem_uIcc {m n : ℤ} (between : m ∈ Set.uIcc 0 n) : near m ∈ Set.uIcc 0 (near n) := by
  have monotone : Monotone fun k : ℤ => near k := fun _ _ le => near_mono (by exact_mod_cast le)
  have zero : near ((0 : ℤ) : ℚ) = 0 := near_intCast isDouble_zero.1
  simpa only [zero] using monotone.mapsTo_uIcc between

/-- What lies between two doubles is rounded between them, whichever is the greater. -/
theorem exists_limit?_near_mem
    {q : ℚ}
    (left : IsDouble a)
    (right : IsDouble b)
    (between : q ∈ Set.uIcc (a : ℚ) b) :
    ∃ c, limit? (near q) = some c ∧ c ∈ Set.uIcc a b := by
  rcases le_total a b with order | order
  · rw [Set.uIcc_of_le (by exact_mod_cast order)] at between
    rw [Set.uIcc_of_le order]
    exact exists_limit?_near left right between.1 between.2
  · rw [Set.uIcc_of_ge (by exact_mod_cast order)] at between
    rw [Set.uIcc_of_ge order]
    exact exists_limit?_near right left between.1 between.2

/-- A difference that is finite is the exact one, rounded. -/
theorem eq_near_of_sub
    (left : quanta? x = some a)
    (right : quanta? y = some b)
    (difference : quanta? (x - y) = some d) :
    d = near (a - b : ℤ) := by
  rw [quanta?_sub left right] at difference
  rw [Int.cast_sub]
  exact eq_of_limit? difference

/-- A share of the difference, by a count of two or more, lies between zero and the exact one. -/
theorem exists_quanta?_share
    {n : ℕ}
    (left : quanta? x = some a)
    (right : quanta? y = some b)
    (difference : quanta? (x - y) = some d)
    (several : 2 ≤ n) :
    ∃ c, quanta? ((x - y) / ofCount n) = some c ∧ c ∈ Set.uIcc 0 (a - b) := by
  rcases ofCount_cases several with infinite | ⟨c, divisor, atLeast⟩
  · exact ⟨0, quanta?_div_infinite difference infinite, Set.left_mem_uIcc⟩
  · have one : 0 < (unit : ℤ) := unit_pos_int
    have half : (2 : ℚ) ≤ c / unit := by
      rw [le_div_iff₀ unit_pos]
      exact_mod_cast atLeast
    have share : (d : ℚ) * unit / c = d / (c / unit) := by
      rw [div_div_eq_mul_div]
    have between : (d : ℚ) / (c / unit) ∈ Set.uIcc ((0 : ℤ) : ℚ) d := by
      rw [Int.cast_zero]
      exact div_mem_uIcc (by linarith) _
    obtain ⟨e, value, -⟩ := exists_limit?_near_mem isDouble_zero (isDouble_of_quanta? difference)
      between
    refine ⟨e, ?_, ?_⟩
    · rw [quanta?_div difference divisor (by omega), share, value]
    · rw [eq_of_limit? value, eq_near_of_sub left right difference]
      exact near_near_div_mem half _

/-- A step by a share of the difference ends between the two doubles. -/
theorem exists_quanta?_step
    {n : ℕ}
    (left : quanta? x = some a)
    (right : quanta? y = some b)
    (difference : quanta? (x - y) = some d)
    (several : 2 ≤ n) :
    ∃ c, quanta? (y + (x - y) / ofCount n) = some c ∧ c ∈ Set.uIcc b a := by
  obtain ⟨e, share, between⟩ := exists_quanta?_share left right difference several
  rw [quanta?_add right share]
  apply exists_limit?_near_mem (isDouble_of_quanta? right) (isDouble_of_quanta? left)
  have inside : b + e ∈ Set.uIcc b a := by
    rw [Set.mem_uIcc] at between ⊢
    omega
  rw [Set.mem_uIcc] at inside ⊢
  exact_mod_cast inside

/-- Where a step ends between two doubles, both differences to the farther one agree in sign. -/
theorem zero_le_mul_sub_step
    (left : quanta? x = some a)
    (right : quanta? y = some b)
    (step : quanta? z = some c)
    (between : c ∈ Set.uIcc b a)
    (difference : quanta? (x - y) = some d) :
    0 ≤ (x - y) * (x - z) := by
  have part : near (a - c : ℤ) ∈ Set.uIcc 0 d := by
    rw [eq_near_of_sub left right difference]
    apply near_mem_uIcc
    rw [Set.mem_uIcc] at between ⊢
    omega
  have inside := quanta_bounds difference
  have rest : quanta? (x - z) = some (near (a - c : ℤ)) := by
    rw [quanta?_sub left step, Int.cast_sub]
    rw [Int.cast_sub, Set.mem_uIcc] at part
    exact if_pos (by omega)
  refine zero_le_mul_of_signs difference rest ?_
  rcases Set.mem_uIcc.mp part with ⟨lower, upper⟩ | ⟨lower, upper⟩
  · exact mul_nonneg (lower.trans upper) lower
  · exact mul_nonneg_of_nonpos_of_nonpos (lower.trans upper) upper

/-- The lesser of one that is below and the other one is below what lies between. -/
theorem lesser_le_of_mem
    {w : Float}
    (below : w ≤ y)
    (left : quanta? x = some a)
    (right : quanta? y = some b)
    (value : quanta? z = some c)
    (between : c ∈ Set.uIcc b a) :
    lesser w x ≤ z := by
  obtain ⟨lower, lowerOther⟩ := lesser_le (ne_nan_of_le below).1 (ne_nan_of_quanta? left)
  rcases Set.mem_uIcc.mp between with ⟨above, -⟩ | ⟨above, -⟩
  · exact le_of_le_of_le lower (le_of_le_of_le below ((le_iff_quanta_le right value).mpr above))
  · exact le_of_le_of_le lowerOther ((le_iff_quanta_le left value).mpr above)

/-- The greater of one that is above and the other one is above what lies between. -/
theorem le_greater_of_mem
    {w : Float}
    (above : y ≤ w)
    (left : quanta? x = some a)
    (right : quanta? y = some b)
    (value : quanta? z = some c)
    (between : c ∈ Set.uIcc b a) :
    z ≤ greater w x := by
  obtain ⟨upper, upperOther⟩ := le_greater (ne_nan_of_le above).2 (ne_nan_of_quanta? left)
  rcases Set.mem_uIcc.mp between with ⟨-, below⟩ | ⟨-, below⟩
  · exact le_of_le_of_le ((le_iff_quanta_le value left).mpr below) upperOther
  · exact le_of_le_of_le (le_of_le_of_le ((le_iff_quanta_le value right).mpr below) above) upper

end Between

section Ranges

variable {j k : ℕ}

/-- To be finite and no farther from zero than `2 ^ j`. -/
def Within (j : ℕ) (x : Float) : Prop :=
  ∃ a, quanta? x = some a ∧ |a| ≤ Nat.pow 2 j * unit

instance (j : ℕ) (x : Float) : Decidable (Within j x) :=
  decidable_of_iff ((quanta? x).any (fun a : ℤ => |a| ≤ Nat.pow 2 j * unit) = true) <| by
    simp only [Option.any_eq_true, decide_eq_true_eq, Within]

theorem Within.mono (within : Within j x) (le : j ≤ k) : Within k x := by
  obtain ⟨a, value, bound⟩ := within
  refine ⟨a, value, bound.trans ?_⟩
  exact_mod_cast Nat.mul_le_mul_right unit (Nat.pow_le_pow_right Nat.two_pos le)

/-- Powers of two are doubles up to the greatest exponent. -/
theorem isDouble_pow_mul_unit (small : j < 1024) : IsDouble (Nat.pow 2 j * unit : ℕ) := by
  obtain ⟨i, unitExponent, unitPower⟩ := exists_unit_eq_pow
  obtain ⟨k, exponent, power⟩ := exists_overflow_eq_pow
  have product : Nat.pow 2 j * unit = 2 ^ (j + i) := by
    rw [unitPower]
    exact (pow_add 2 j i).symm
  have below : 2 ^ (j + i) < overflow := by
    rw [power]
    exact Nat.pow_lt_pow_right Nat.one_lt_two (by omega)
  unfold IsDouble
  rw [Int.natAbs_natCast, product]
  exact ⟨representable_pow _, below⟩

/-- Up to a power of two, whole numbers of quanta are rounded to doubles up to it. -/
theorem exists_limit?_within
    {n : ℤ}
    (within : |n| ≤ Nat.pow 2 j * unit)
    (small : j < 1024) :
    ∃ c, limit? (near n) = some c ∧ |c| ≤ Nat.pow 2 j * unit := by
  have bound := isDouble_pow_mul_unit small
  rw [Int.natCast_mul] at bound
  obtain ⟨lower, upper⟩ := abs_le.mp within
  obtain ⟨c, value, least, greatest⟩ :=
    exists_limit?_near bound.neg bound (Int.cast_le.mpr lower) (Int.cast_le.mpr upper)
  exact ⟨c, value, abs_le.mpr ⟨least, greatest⟩⟩

/-- A difference is farther from zero by one power of two at most. -/
theorem Within.sub (left : Within j x) (right : Within j y) (small : j + 1 < 1024) :
    Within (j + 1) (x - y) := by
  obtain ⟨a, xValue, xBound⟩ := left
  obtain ⟨b, yValue, yBound⟩ := right
  have doubled : (Nat.pow 2 (j + 1) : ℤ) = Nat.pow 2 j + Nat.pow 2 j := by
    exact_mod_cast (pow_succ 2 j).trans (Nat.mul_two _)
  have exact : |a - b| ≤ Nat.pow 2 (j + 1) * unit := by
    rw [doubled, add_mul]
    exact (abs_sub a b).trans (add_le_add xBound yBound)
  obtain ⟨c, value, bound⟩ := exists_limit?_within exact small
  rw [Int.cast_sub] at value
  exact ⟨c, (quanta?_sub xValue yValue).trans value, bound⟩

/-- Whole numbers up to a power of two have doubles up to it. -/
theorem within_ofInt {n : ℤ} (whole : |n| ≤ Nat.pow 2 j) (small : j < 1024) :
    Within j (Float.ofInt n) := by
  have exact : |n * (unit : ℤ)| ≤ Nat.pow 2 j * unit := by
    rw [abs_mul, Nat.abs_cast]
    exact mul_le_mul_of_nonneg_right whole (Int.natCast_nonneg _)
  obtain ⟨c, value, bound⟩ := exists_limit?_within exact small
  rw [Int.cast_mul, Int.cast_natCast] at value
  exact ⟨c, (quanta?_ofInt n).trans value, bound⟩

theorem within_ofInt32 (n : Int32) : Within 31 (ofInt32 n) := by
  have lower := n.le_toInt
  have upper := n.toInt_lt
  have power : ((Nat.pow 2 31 : ℕ) : ℤ) = 2 ^ 31 := rfl
  refine within_ofInt ?_ (by norm_num)
  rw [power]
  exact abs_le.mpr ⟨lower, upper.le⟩

theorem within_ofCount {n : ℕ} (le : n ≤ Nat.pow 2 j) (small : j < 1024) :
    Within j (ofCount n) := by
  have whole : |(n : ℤ)| ≤ Nat.pow 2 j := by
    rw [Nat.abs_cast]
    exact Int.ofNat_le.mpr le
  have same : ofCount n = Float.ofInt n := by
    unfold ofCount Float.ofInt
    rfl
  rw [same]
  exact within_ofInt whole small

/-- A finite double of a count above zero is above zero. -/
theorem exists_quanta?_ofCount {n : ℕ} (counted : n ≠ 0) (within : Within j (ofCount n)) :
    ∃ c, quanta? (ofCount n) = some c ∧ 0 < c := by
  obtain ⟨c, value, -⟩ := within
  have one : 0 < (unit : ℤ) := unit_pos_int
  have above : 1 ≤ ofCount n := ofCount_mono (Nat.one_le_iff_ne_zero.mpr counted)
  exact ⟨c, value, one.trans_le ((le_iff_quanta_le quanta?_one value).mp above)⟩

/-- What lies between two doubles is no farther from zero than both. -/
theorem within_of_mem
    (left : Within j x)
    (right : Within j y)
    (xValue : quanta? x = some a)
    (yValue : quanta? y = some b)
    (value : quanta? z = some c)
    (between : c ∈ Set.uIcc a b) :
    Within j z := by
  obtain ⟨a', xValue', xBound⟩ := left
  obtain ⟨b', yValue', yBound⟩ := right
  obtain rfl : a = a' := Option.some.inj (xValue.symm.trans xValue')
  obtain rfl : b = b' := Option.some.inj (yValue.symm.trans yValue')
  refine ⟨c, value, ?_⟩
  rw [abs_le] at xBound yBound ⊢
  rw [Set.mem_uIcc] at between
  omega

end Ranges

end Binary64
end WindsAloft
