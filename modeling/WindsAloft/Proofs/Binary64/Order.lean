import WindsAloft.Proofs.Binary64.Sums

/-!
# The order of doubles

Doubles are compared by their exponents first, which for canonical numbers is
the comparison of what they stand for.  This module also says what the sign of a
result is: products, quotients and sums of what is not below zero are not below
zero, and neither is the difference of what stands in order.
-/

namespace WindsAloft
namespace Binary64

open Float.Model (UnpackedFloat Format totalExponent)
open Float.Model.UnpackedFloat

attribute [local irreducible] unit overflow

/-- The greater exponent makes the greater magnitude. -/
theorem quanta_lt_of_exponent_lt
    {m n : ℕ}
    {e f : ℤ}
    (small : m < 2 ^ 53)
    (least : -1074 ≤ e)
    (filled : 2 ^ 52 ≤ n ∨ f = -1074)
    (below : e < f) :
    m * Nat.pow 2 (e + 1074).toNat < n * Nat.pow 2 (f + 1074).toNat :=
  calc
    m * 2 ^ (e + 1074).toNat < 2 ^ 53 * 2 ^ (e + 1074).toNat :=
      Nat.mul_lt_mul_of_pos_right small (by positivity)
    _ = 2 ^ 52 * 2 ^ ((e + 1074).toNat + 1) := by ring
    _ ≤ n * 2 ^ (f + 1074).toNat :=
      Nat.mul_le_mul (filled.resolve_right (by omega))
        (Nat.pow_le_pow_right (by norm_num) (by omega))

/-- Exponents first and mantissas next: that is the order of canonical magnitudes. -/
theorem compare_then_compare
    {s t : Sign}
    {m n : ℕ}
    {e f : ℤ}
    {mPositive : 0 < m}
    {nPositive : 0 < n}
    (left : Canonical (.finite s m e mPositive))
    (right : Canonical (.finite t n f nPositive)) :
    (compare e f).then (compare m n) =
      compare (m * Nat.pow 2 (e + 1074).toNat) (n * Nat.pow 2 (f + 1074).toNat) := by
  rcases lt_trichotomy e f with below | rfl | above
  · rw [compare_lt_iff_lt.mpr below, compare_lt_iff_lt.mpr
      (quanta_lt_of_exponent_lt left.1 left.2.1 right.2.2 below)]
    rfl
  · have positive : 0 < Nat.pow 2 (e + 1074).toNat := Nat.pow_pos Nat.two_pos
    rw [compare_eq_iff_eq.mpr rfl]
    rcases lt_trichotomy m n with less | rfl | more
    · rw [compare_lt_iff_lt.mpr less,
        compare_lt_iff_lt.mpr (Nat.mul_lt_mul_of_pos_right less positive)]
      rfl
    · rw [compare_eq_iff_eq.mpr rfl, compare_eq_iff_eq.mpr rfl]
      rfl
    · rw [compare_gt_iff_gt.mpr more,
        compare_gt_iff_gt.mpr (Nat.mul_lt_mul_of_pos_right more positive)]
      rfl
  · rw [compare_gt_iff_gt.mpr above, compare_gt_iff_gt.mpr
      (quanta_lt_of_exponent_lt right.1 right.2.1 left.2.2 above)]
    rfl

/-- Canonical magnitudes that are equal have equal mantissas and equal exponents. -/
theorem eq_of_quanta_eq
    {s t : Sign}
    {m n : ℕ}
    {e f : ℤ}
    {mPositive : 0 < m}
    {nPositive : 0 < n}
    (left : Canonical (.finite s m e mPositive))
    (right : Canonical (.finite t n f nPositive))
    (same : m * Nat.pow 2 (e + 1074).toNat = n * Nat.pow 2 (f + 1074).toNat) :
    e = f ∧ m = n := by
  have order := compare_then_compare left right
  rw [compare_eq_iff_eq.mpr same, Ordering.then_eq_eq] at order
  exact ⟨compare_eq_iff_eq.mp order.1, compare_eq_iff_eq.mp order.2⟩

theorem isNegative_injective : Function.Injective isNegative := by
  intro s t same
  cases s <;> cases t <;> first | rfl | contradiction

/-- A double is determined by what it stands for. -/
theorem ofFloat_injective : Function.Injective ofFloat := by
  intro x y same
  rw [ofFloat_eq_ofUnpacked, ofFloat_eq_ofUnpacked] at same
  suffices unpacked : x.toModel.unpack = y.toModel.unpack by
    obtain ⟨⟨⟨xBits⟩, xValid⟩⟩ := x
    obtain ⟨⟨⟨yBits⟩, yValid⟩⟩ := y
    obtain rfl : xBits = yBits := (unpack_inj_of_valid xValid yValid).mp unpacked
    rfl
  have left := canonical_toModel x
  have right := canonical_toModel y
  generalize x.toModel.unpack = a at left same ⊢
  generalize y.toModel.unpack = b at right same ⊢
  cases a with
  | notANumber => cases b <;> simp [ofUnpacked] at same ⊢
  | infinity s =>
      cases b <;> simp [ofUnpacked] at same ⊢
      exact isNegative_injective same
  | zero s =>
      cases b with
      | zero t => simpa [ofUnpacked] using isNegative_injective (Binary64.finite.inj same).1
      | finite t n f nPositive =>
          simp only [ofUnpacked, finite.injEq, zero_eq_mul] at same
          exact absurd same.2 (by simp [nPositive.ne'])
      | _ => simp [ofUnpacked] at same
  | finite s m e mPositive =>
      cases b with
      | finite t n f nPositive =>
          obtain ⟨signs, quanta⟩ := Binary64.finite.inj same
          obtain ⟨rfl, rfl⟩ := eq_of_quanta_eq left right quanta
          obtain rfl := isNegative_injective signs
          rfl
      | zero t => simp [ofUnpacked, mPositive.ne'] at same
      | _ => simp [ofUnpacked] at same

theorem order?_finite_pos (m n : ℕ) :
    order? (.finite false m) (.finite false n) = some (compare m n) := by
  show some (compare (m : ℤ) (n : ℤ)) = _
  rcases lt_trichotomy m n with less | rfl | more
  · rw [compare_lt_iff_lt.mpr less, compare_lt_iff_lt.mpr (Int.ofNat_lt.mpr less)]
  · rw [compare_eq_iff_eq.mpr rfl, compare_eq_iff_eq.mpr rfl]
  · rw [compare_gt_iff_gt.mpr more, compare_gt_iff_gt.mpr (Int.ofNat_lt.mpr more)]

theorem order?_finite_neg (m n : ℕ) :
    order? (.finite true m) (.finite true n) = some (compare m n).swap := by
  show some (compare (-m : ℤ) (-n : ℤ)) = _
  rcases lt_trichotomy m n with less | rfl | more
  · rw [compare_lt_iff_lt.mpr less, compare_gt_iff_gt.mpr (by omega)]
    rfl
  · rw [compare_eq_iff_eq.mpr rfl, compare_eq_iff_eq.mpr rfl]
    rfl
  · rw [compare_gt_iff_gt.mpr more, compare_lt_iff_lt.mpr (by omega)]
    rfl

theorem order?_of_lt {s t : Bool} {m n : ℕ} (below : signed s m < signed t n) :
    order? (.finite s m) (.finite t n) = some .lt :=
  congrArg some (compare_lt_iff_lt.mpr below)

theorem order?_of_gt {s t : Bool} {m n : ℕ} (above : signed t n < signed s m) :
    order? (.finite s m) (.finite t n) = some .gt :=
  congrArg some (compare_gt_iff_gt.mpr above)

theorem signed_true_neg {n : ℕ} (positive : 0 < n) : signed true n < 0 :=
  Int.neg_neg_of_pos (Int.natCast_pos.mpr positive)

theorem signed_false_pos {n : ℕ} (positive : 0 < n) : 0 < signed false n :=
  Int.natCast_pos.mpr positive

/-- The comparison of doubles is that of what they stand for. -/
theorem compare_toModel (x y : Float) :
    x.toModel.compare y.toModel = (ofFloat x).order? (ofFloat y) := by
  rw [ofFloat_eq_ofUnpacked x, ofFloat_eq_ofUnpacked y]
  show x.toModel.unpack.compare y.toModel.unpack = _
  have left := canonical_toModel x
  have right := canonical_toModel y
  generalize x.toModel.unpack = a at left ⊢
  generalize y.toModel.unpack = b at right ⊢
  have quanta_pos {m : ℕ} (e : ℤ) (positive : 0 < m) : 0 < m * Nat.pow 2 (e + 1074).toNat :=
    Nat.mul_pos positive (Nat.pow_pos Nat.two_pos)
  cases a with
  | notANumber => rfl
  | infinity s =>
      cases s <;> cases b with
      | infinity t => cases t <;> rfl
      | _ => rfl
  | zero s =>
      cases b with
      | notANumber => rfl
      | infinity t => cases t <;> rfl
      | zero t => cases s <;> cases t <;> rfl
      | finite t n f positive =>
          simp only [ofUnpacked]
          cases t
          · exact (order?_of_gt ((signed_true_neg (quanta_pos f positive)).trans_eq
              (signed_zero _).symm)).symm
          · exact (order?_of_lt ((signed_zero _).trans_lt
              (signed_false_pos (quanta_pos f positive)))).symm
  | finite s m e mPositive =>
      cases b with
      | notANumber => cases s <;> rfl
      | infinity t => cases s <;> cases t <;> rfl
      | zero t =>
          simp only [ofUnpacked]
          cases s
          · exact (order?_of_lt ((signed_true_neg (quanta_pos e mPositive)).trans_eq
              (signed_zero _).symm)).symm
          · exact (order?_of_gt ((signed_zero _).trans_lt
              (signed_false_pos (quanta_pos e mPositive)))).symm
      | finite t n f nPositive =>
          have magnitudes := compare_then_compare left right
          simp only [ofUnpacked]
          cases s <;> cases t
          · exact (congrArg (fun order => some order.swap) magnitudes).trans
              (order?_finite_neg _ _).symm
          · exact (order?_of_lt ((signed_true_neg (quanta_pos e mPositive)).trans
              (signed_false_pos (quanta_pos f nPositive)))).symm
          · exact (order?_of_gt ((signed_true_neg (quanta_pos f nPositive)).trans
              (signed_false_pos (quanta_pos e mPositive)))).symm
          · exact (congrArg some magnitudes).trans (order?_finite_pos _ _).symm

theorem lt_iff_order? (x y : Float) :
    x < y ↔ (ofFloat x).order? (ofFloat y) = some .lt := by
  rw [← compare_toModel]
  show decide (x.toModel.unpack.lt y.toModel.unpack = true) = true ↔ _
  rw [decide_eq_true_iff]
  exact beq_iff_eq

theorem le_iff_order? (x y : Float) :
    x ≤ y ↔
      (ofFloat x).order? (ofFloat y) = some .lt ∨ (ofFloat x).order? (ofFloat y) = some .eq := by
  rw [← compare_toModel]
  show decide (x.toModel.unpack.le y.toModel.unpack = true) = true ↔ _
  rw [decide_eq_true_iff]
  show (x.toModel.compare y.toModel).any Ordering.isLE = true ↔ _
  rcases x.toModel.compare y.toModel with _ | (_ | _ | _) <;> simp

theorem beq_iff_order? (x y : Float) :
    (x == y) = true ↔ (ofFloat x).order? (ofFloat y) = some .eq := by
  rw [← compare_toModel]
  show (x.toModel.unpack.compare y.toModel.unpack == some .eq) = true ↔ _
  exact beq_iff_eq

end Binary64
end WindsAloft
