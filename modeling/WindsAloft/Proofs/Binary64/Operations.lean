import WindsAloft.Proofs.Binary64.Rounded

/-!
# The operations on doubles

Each operation on doubles is restated on what the doubles stand for: the exact
result, rounded once, and besides it what zeros, infinities and values that are
not numbers give.  Whatever is proved of computed doubles goes through such
equations, and none of it looks at bits.  This module has the definitions and the
equations of products and quotients.
-/

namespace WindsAloft
namespace Binary64

open Float.Model (UnpackedFloat Format totalExponent)
open Float.Model.UnpackedFloat

/-- A magnitude with its sign. -/
def signed (negative : Bool) (quanta : ℕ) : ℤ :=
  if negative then -quanta else quanta

@[simp] theorem signed_zero (negative : Bool) : signed negative 0 = 0 := by
  cases negative <;> rfl

theorem natAbs_signed (negative : Bool) (quanta : ℕ) :
    (signed negative quanta).natAbs = quanta := by
  cases negative
  · exact Int.natAbs_natCast quanta
  · exact (Int.natAbs_neg _).trans (Int.natAbs_natCast quanta)

@[simp] theorem nearest_zero : nearest 0 = 0 :=
  nearest_natCast ⟨0, 0, by norm_num, rfl⟩

@[simp] theorem rounded_zero (negative : Bool) : rounded negative 0 = .finite negative 0 := by
  rw [rounded, nearest_zero, limited, if_pos overflow_pos]

/-- The product of what two doubles stand for. -/
def times : Binary64 → Binary64 → Binary64
  | .nan, _ => .nan
  | _, .nan => .nan
  | .infinite s, .infinite t => .infinite (s ^^ t)
  | .infinite s, .finite t n => if n = 0 then .nan else .infinite (s ^^ t)
  | .finite s m, .infinite t => if m = 0 then .nan else .infinite (s ^^ t)
  | .finite s m, .finite t n => rounded (s ^^ t) (m * n / unit)

/-- The quotient of what two doubles stand for. -/
def dividedBy : Binary64 → Binary64 → Binary64
  | .nan, _ => .nan
  | _, .nan => .nan
  | .infinite _, .infinite _ => .nan
  | .infinite s, .finite t _ => .infinite (s ^^ t)
  | .finite s _, .infinite t => .finite (s ^^ t) 0
  | .finite s m, .finite t n =>
      if n = 0 then
        if m = 0 then .nan else .infinite (s ^^ t)
      else
        rounded (s ^^ t) (m * unit / n)

/-- The sum of what two doubles stand for; of zeros, only two negative ones give a negative one. -/
def plus : Binary64 → Binary64 → Binary64
  | .nan, _ => .nan
  | _, .nan => .nan
  | .infinite s, .infinite t => if s = t then .infinite s else .nan
  | .infinite s, .finite _ _ => .infinite s
  | .finite _ _, .infinite t => .infinite t
  | .finite s m, .finite t n =>
      if signed s m + signed t n = 0 then
        .finite (s && t) 0
      else
        rounded (decide (signed s m + signed t n < 0)) (signed s m + signed t n).natAbs

/-- What a double stands for, with the other sign. -/
def negated : Binary64 → Binary64
  | .nan => .nan
  | .infinite s => .infinite !s
  | .finite s m => .finite (!s) m

/-- What a double stands for, without its sign. -/
def unsigned : Binary64 → Binary64
  | .nan => .nan
  | .infinite _ => .infinite false
  | .finite _ m => .finite false m

/-- How two doubles stand to each other; values that are not numbers stand in no relation. -/
def order? : Binary64 → Binary64 → Option Ordering
  | .nan, _ => none
  | _, .nan => none
  | .infinite s, .infinite t => some (compare t s)
  | .infinite s, .finite _ _ => some (if s then .lt else .gt)
  | .finite _ _, .infinite t => some (if t then .gt else .lt)
  | .finite s m, .finite t n => some (compare (signed s m) (signed t n))

@[simp] theorem isNegative_mul (s t : Sign) :
    isNegative (s * t) = (isNegative s ^^ isNegative t) := by
  cases s <;> cases t <;> rfl

@[simp] theorem isNegative_div (s t : Sign) :
    isNegative (s / t) = (isNegative s ^^ isNegative t) := by
  cases s <;> cases t <;> rfl

@[simp] theorem isNegative_neg (s : Sign) : isNegative (-s) = !isNegative s := by
  cases s <;> rfl

theorem canonical_toModel (x : Float) : Canonical x.toModel.unpack :=
  (canonical_unpack _).1

theorem fits_toModel (x : Float) : Fits x.toModel.unpack :=
  (canonical_unpack _).2

theorem cast_pow_two (n : ℕ) : ((Nat.pow 2 n : ℕ) : ℚ) = 2 ^ (n : ℤ) :=
  (Nat.cast_pow 2 n).trans (zpow_natCast 2 n).symm

/-- The quanta of a mantissa with its exponent, as a rational number. -/
theorem cast_quanta (mantissa : ℕ) {exponent : ℤ} (least : -1074 ≤ exponent) :
    ((mantissa * Nat.pow 2 (exponent + 1074).toNat : ℕ) : ℚ) =
      mantissa * 2 ^ (exponent + 1074) := by
  rw [Nat.cast_mul, cast_pow_two, Int.toNat_of_nonneg (by omega)]

-- The exponent is kept apart from its value so that nothing tries to compute the power.
theorem exists_unit_eq_pow : ∃ k, k = 1074 ∧ unit = Nat.pow 2 k := by
  unfold unit
  exact ⟨1074, rfl, rfl⟩

theorem cast_unit : (unit : ℚ) = 2 ^ (1074 : ℤ) := by
  obtain ⟨k, exponent, power⟩ := exists_unit_eq_pow
  rw [power, cast_pow_two, exponent]
  rfl

attribute [local irreducible] unit

theorem unit_pos : (0 : ℚ) < unit := by
  rw [cast_unit]
  positivity

theorem unit_pos_int : (0 : ℤ) < unit := by
  exact_mod_cast unit_pos

/-- The product of two mantissas has bits enough, or its exponent is low enough. -/
theorem enough_of_mul
    {m n : ℕ}
    {e f : ℤ}
    {mPositive : 0 < m}
    {nPositive : 0 < n}
    (s t : Sign)
    (left : Canonical (.finite s m e mPositive))
    (right : Canonical (.finite t n f nPositive)) :
    2 ^ 52 ≤ m * n ∨ e + f ≤ -1074 := by
  obtain ⟨-, -, leftFilled⟩ := left
  obtain ⟨-, -, rightFilled⟩ := right
  rcases leftFilled with large | rfl
  · exact .inl (large.trans (Nat.le_mul_of_pos_right m nPositive))
  · rcases rightFilled with large | rfl
    · exact .inl (large.trans (Nat.le_mul_of_pos_left n mPositive))
    · exact .inr (by norm_num)

theorem ofFloat_mul (x y : Float) : ofFloat (x * y) = (ofFloat x).times (ofFloat y) := by
  rw [ofFloat_eq_ofUnpacked x, ofFloat_eq_ofUnpacked y]
  show ofFloat (.ofModel (.pack (mul .binary64 x.toModel.unpack y.toModel.unpack))) = _
  have left := canonical_toModel x
  have right := canonical_toModel y
  generalize x.toModel.unpack = a at left ⊢
  generalize y.toModel.unpack = b at right ⊢
  cases a with
  | notANumber => simp [mul, ofUnpacked, times]
  | infinity s =>
      cases b with
      | finite t n f nPositive => simp [mul, ofUnpacked, times, nPositive.ne']
      | _ => simp [mul, ofUnpacked, times]
  | zero s => cases b <;> simp [mul, ofUnpacked, times]
  | finite s m e mPositive =>
      cases b with
      | notANumber => simp [mul, ofUnpacked, times]
      | infinity t => simp [mul, ofUnpacked, times, mPositive.ne']
      | zero t => simp [mul, ofUnpacked, times]
      | finite t n f nPositive =>
          have exact : Describes (m * n) .exact ((m * n : ℕ) : ℚ) := rfl
          rw [mul, ofFloat_pack_roundWithAccuracy _ exact (enough_of_mul s t left right)]
          simp only [ofUnpacked, times, isNegative_mul]
          rw [cast_quanta m left.2.1, cast_quanta n right.2.1, cast_unit]
          congr 1
          rw [eq_div_iff (zpow_pos two_pos _).ne', Nat.cast_mul]
          rw [mul_assoc, ← zpow_add₀ two_ne_zero, mul_mul_mul_comm, ← zpow_add₀ two_ne_zero]
          congr 2
          ring

theorem describes_quotient (m : ℕ) {n : ℕ} (positive : 0 < n) :
    Describes (m / n) (accuracyOfFraction (m % n) n) ((m : ℚ) / n) := by
  have divisor : (0 : ℚ) < n := Nat.cast_pos.mpr positive
  have parts : (m : ℚ) / n = (m / n : ℕ) + ((m % n : ℕ) : ℚ) / n := by
    rw [eq_comm, ← eq_sub_iff_add_eq, eq_comm, sub_eq_iff_eq_add, div_eq_iff divisor.ne',
      add_mul, div_mul_cancel₀ _ divisor.ne']
    exact_mod_cast (Nat.div_add_mod' m n).symm
  have below : ((m % n : ℕ) : ℚ) / n < 1 := by
    rw [div_lt_one divisor]
    exact_mod_cast Nat.mod_lt m positive
  rw [parts]
  unfold accuracyOfFraction
  split
  · next zero => simp [Describes, zero]
  · next nonzero =>
      have above : (0 : ℚ) < ((m % n : ℕ) : ℚ) / n :=
        div_pos (Nat.cast_pos.mpr (Nat.pos_of_ne_zero nonzero)) divisor
      rcases lt_trichotomy (2 * (m % n)) n with less | same | more
      · have less' : ((m % n : ℕ) : ℚ) / n < 1 / 2 := by
          rw [div_lt_div_iff₀ divisor two_pos]
          exact_mod_cast (by omega : m % n * 2 < 1 * n)
        rw [compare_lt_iff_lt.mpr less]
        exact ⟨by linarith, by linarith⟩
      · have same' : ((m % n : ℕ) : ℚ) / n = 1 / 2 := by
          rw [div_eq_div_iff divisor.ne' two_ne_zero]
          exact_mod_cast (by omega : m % n * 2 = 1 * n)
        rw [compare_eq_iff_eq.mpr same]
        exact congrArg _ same'
      · have more' : 1 / 2 < ((m % n : ℕ) : ℚ) / n := by
          rw [div_lt_div_iff₀ two_pos divisor]
          exact_mod_cast (by omega : 1 * n < m % n * 2)
        rw [compare_gt_iff_gt.mpr more]
        exact ⟨by linarith, by linarith⟩

/-- The quotient is computed to bits enough. -/
theorem exists_divCore
    {m n : ℕ}
    (mPositive : 0 < m)
    (nPositive : 0 < n)
    (e f : ℤ) :
    ∃ (shift : ℕ) (target : ℤ),
      divCore .binary64 m e n f =
        (m * 2 ^ shift / n, target, accuracyOfFraction (m * 2 ^ shift % n) n) ∧
      target = e - f - shift ∧
      (2 ^ 52 ≤ m * 2 ^ shift / n ∨ target ≤ -1074) := by
  obtain ⟨target, toTarget⟩ :
      ∃ target : ℤ,
        target = min (e - f) (max (m.log2 + e - (n.log2 + f) - 53 : ℤ) (-1074)) :=
    ⟨_, rfl⟩
  have formatted :
      min (e - f) (Format.binary64.targetExponent (totalExponent m e - totalExponent n f)) =
        target := by
    rw [toTarget]
    show min (e - f) (max ((m.log2 : ℤ) + 1 + e - (n.log2 + 1 + f) - 53) (-1074)) = _
    congr 2
    omega
  refine ⟨(e - f - target).toNat, target, ?_, by omega, ?_⟩
  · simp only [divCore, formatted, Nat.shiftLeft_eq]
  · by_cases low : target ≤ -1074
    · exact .inr low
    · left
      rw [Nat.le_div_iff_mul_le nPositive]
      calc
        2 ^ 52 * n ≤ 2 ^ 52 * 2 ^ (n.log2 + 1) := Nat.mul_le_mul_left _ Nat.lt_log2_self.le
        _ = 2 ^ (52 + (n.log2 + 1)) := (pow_add 2 52 _).symm
        _ ≤ 2 ^ (m.log2 + (e - f - target).toNat) :=
          Nat.pow_le_pow_right two_pos (by omega)
        _ = 2 ^ m.log2 * 2 ^ (e - f - target).toNat := pow_add 2 _ _
        _ ≤ m * 2 ^ (e - f - target).toNat :=
          Nat.mul_le_mul_right _ (Nat.log2_self_le mPositive.ne')

/-- A quotient of any two mantissas, at any exponents, is rounded to the nearest. -/
theorem ofFloat_pack_div
    (s t : Sign)
    {m n : ℕ}
    (mPositive : 0 < m)
    (nPositive : 0 < n)
    (e f : ℤ) :
    ofFloat (.ofModel (.pack
        (div .binary64 (.finite s m e mPositive) (.finite t n f nPositive)))) =
      rounded (isNegative s ^^ isNegative t) (m / n * 2 ^ (e - f) * 2 ^ (1074 : ℤ)) := by
  obtain ⟨shift, target, core, toTarget, enough⟩ := exists_divCore mPositive nPositive e f
  have describes := describes_quotient (m * 2 ^ shift) nPositive
  have powers : (2 : ℚ) ^ shift * 2 ^ (target + 1074) = 2 ^ (e - f) * 2 ^ (1074 : ℤ) := by
    rw [← zpow_natCast, ← zpow_add₀ two_ne_zero, ← zpow_add₀ two_ne_zero, toTarget]
    congr 1
    ring
  rw [div, core, ofFloat_pack_roundWithAccuracy _ describes enough, isNegative_div, mul_assoc,
    ← powers, Nat.cast_mul, Nat.cast_pow, Nat.cast_ofNat]
  congr 1
  ring

theorem ofFloat_div (x y : Float) :
    ofFloat (x / y) = (ofFloat x).dividedBy (ofFloat y) := by
  rw [ofFloat_eq_ofUnpacked x, ofFloat_eq_ofUnpacked y]
  show ofFloat (.ofModel (.pack (div .binary64 x.toModel.unpack y.toModel.unpack))) = _
  have left := canonical_toModel x
  have right := canonical_toModel y
  generalize x.toModel.unpack = a at left ⊢
  generalize y.toModel.unpack = b at right ⊢
  cases a with
  | notANumber => simp [div, ofUnpacked, dividedBy]
  | infinity s => cases b <;> simp [div, ofUnpacked, dividedBy]
  | zero s =>
      cases b with
      | finite t n f nPositive => simp [div, ofUnpacked, dividedBy, nPositive.ne']
      | _ => simp [div, ofUnpacked, dividedBy]
  | finite s m e mPositive =>
      cases b with
      | finite t n f nPositive =>
          have nonzero : n * Nat.pow 2 (f + 1074).toNat ≠ 0 :=
            (Nat.mul_pos nPositive (Nat.pow_pos Nat.two_pos)).ne'
          have divisor : (0 : ℚ) < n := Nat.cast_pos.mpr nPositive
          have positive : (0 : ℚ) < 2 ^ (f + 1074) := zpow_pos two_pos _
          rw [ofFloat_pack_div]
          simp only [ofUnpacked, dividedBy]
          rw [if_neg nonzero, cast_quanta m left.2.1, cast_quanta n right.2.1, cast_unit]
          congr 1
          have powers : (2 : ℚ) ^ (e - f) * 2 ^ (f + 1074) = 2 ^ (e + 1074) := by
            rw [← zpow_add₀ two_ne_zero]
            congr 1
            ring
          rw [← powers]
          field_simp
      | _ => simp [div, ofUnpacked, dividedBy, mPositive.ne']

end Binary64
end WindsAloft
