import WindsAloft.Proofs.Binary64.Operations

/-!
# Sums of doubles

A sum may cancel to fewer bits than fit, so its mantissa can have to be
lengthened before it is rounded; otherwise sums go the way of products.  A
difference is the sum with the other sign, and the double of an integer is the
rounding of it.
-/

namespace WindsAloft
namespace Binary64

open Float.Model (UnpackedFloat Format totalExponent)
open Float.Model.UnpackedFloat

attribute [local irreducible] unit overflow

/-- A mantissa of any size, at any exponent, is rounded to the nearest. -/
theorem ofFloat_pack_round
    (sign : Sign)
    {mantissa : ℕ}
    (positive : 0 < mantissa)
    (exponent : ℤ) :
    ofFloat (.ofModel (.pack (UnpackedFloat.round .binary64 sign mantissa exponent))) =
      rounded (isNegative sign) (mantissa * 2 ^ (exponent + 1074)) := by
  obtain ⟨target, toTarget⟩ :
      ∃ target : ℤ, target = max (mantissa.log2 + exponent - 52 : ℤ) (-1074) := ⟨_, rfl⟩
  obtain ⟨shift, toShift⟩ : ∃ shift : ℕ, shift = (exponent - target).toNat := ⟨_, rfl⟩
  have lengthened :
      UnpackedFloat.round .binary64 sign mantissa exponent =
        roundWithAccuracy .binary64 sign (mantissa * 2 ^ shift) (exponent - shift) .exact := by
    simp only [UnpackedFloat.round, decreaseExponent, targetExponent_eq, Nat.shiftLeft_eq,
      ← toTarget, ← toShift]
  have enough : 2 ^ 52 ≤ mantissa * 2 ^ shift ∨ exponent - shift ≤ -1074 := by
    by_cases low : exponent - shift ≤ -1074
    · exact .inr low
    · left
      calc
        2 ^ 52 ≤ 2 ^ (mantissa.log2 + shift) := Nat.pow_le_pow_right two_pos (by omega)
        _ = 2 ^ mantissa.log2 * 2 ^ shift := pow_add 2 _ _
        _ ≤ mantissa * 2 ^ shift := Nat.mul_le_mul_right _ (Nat.log2_self_le positive.ne')
  have exact : Describes (mantissa * 2 ^ shift) .exact ((mantissa * 2 ^ shift : ℕ) : ℚ) := rfl
  rw [lengthened, ofFloat_pack_roundWithAccuracy sign exact enough]
  congr 1
  rw [Nat.cast_mul, Nat.cast_pow, Nat.cast_ofNat, mul_assoc, ← zpow_natCast,
    ← zpow_add₀ two_ne_zero]
  congr 2
  ring

theorem ofFloat_pack_normalize (mantissa exponent : ℤ) (zeroSign : Sign) :
    ofFloat (.ofModel (.pack (UnpackedFloat.normalize .binary64 mantissa exponent zeroSign))) =
      if mantissa = 0 then
        .finite (isNegative zeroSign) 0
      else
        rounded (decide (mantissa < 0)) (mantissa.natAbs * 2 ^ (exponent + 1074)) := by
  unfold UnpackedFloat.normalize
  rcases lt_trichotomy mantissa 0 with below | rfl | above
  · rw [compare_lt_iff_lt.mpr below, if_neg below.ne, decide_eq_true below]
    show ofFloat (.ofModel (.pack
      (UnpackedFloat.round .binary64 .negative (-mantissa).toNat exponent))) = _
    rw [ofFloat_pack_round .negative (by omega), show (-mantissa).toNat = mantissa.natAbs by omega]
    rfl
  · rw [if_pos rfl]
    exact ofFloat_pack_zero zeroSign
  · rw [compare_gt_iff_gt.mpr above, if_neg above.ne', decide_eq_false above.not_gt]
    show ofFloat (.ofModel (.pack
      (UnpackedFloat.round .binary64 .positive mantissa.toNat exponent))) = _
    rw [ofFloat_pack_round .positive (by omega), show mantissa.toNat = mantissa.natAbs by omega]
    rfl

/-- A mantissa that is lengthened to a lower exponent keeps its quanta. -/
theorem signed_decreaseExponent
    (sign : Sign)
    (mantissa : ℕ)
    {exponent target : ℤ}
    (least : -1074 ≤ target)
    (low : target ≤ exponent) :
    signed (isNegative sign) (mantissa * Nat.pow 2 (exponent + 1074).toNat) =
      sign.apply ((decreaseExponent mantissa exponent target).1 : ℕ) *
        (Nat.pow 2 (target + 1074).toNat : ℕ) := by
  have split :
      mantissa * Nat.pow 2 (exponent + 1074).toNat =
        (decreaseExponent mantissa exponent target).1 * Nat.pow 2 (target + 1074).toNat := by
    simp only [decreaseExponent, Nat.shiftLeft_eq]
    rw [show (exponent + 1074).toNat = (exponent - target).toNat + (target + 1074).toNat by omega,
      mul_assoc]
    congr 1
    exact pow_add 2 _ _
  rw [split]
  cases sign
  · show -(((_ * _ : ℕ) : ℤ)) = -_ * _
    rw [Nat.cast_mul, neg_mul]
  · exact Nat.cast_mul _ _

theorem representable_mul_pow {m : ℕ} (small : m < 2 ^ 53) (k : ℕ) :
    Representable (m * Nat.pow 2 k) :=
  ⟨m, k, small, rfl⟩

/-- What a double is able to hold is not changed by rounding. -/
theorem rounded_natCast
    (negative : Bool)
    {quanta : ℕ}
    (representable : Representable quanta)
    (small : quanta < overflow) :
    rounded negative quanta = .finite negative quanta := by
  rw [rounded, nearest_natCast representable, limited, if_pos small]

theorem signed_eq_zero_iff (negative : Bool) (quanta : ℕ) :
    signed negative quanta = 0 ↔ quanta = 0 := by
  rw [← Int.natAbs_eq_zero, natAbs_signed]

theorem decide_signed_lt_zero (negative : Bool) {quanta : ℕ} (nonzero : quanta ≠ 0) :
    decide (signed negative quanta < 0) = negative := by
  cases negative
  · exact decide_eq_false (by simp [signed])
  · exact decide_eq_true (by simp [signed]; omega)

theorem unpack_neg (x : Float) : (-x).toModel.unpack = x.toModel.unpack.neg := by
  have canonical : Canonical x.toModel.unpack.neg := by
    have := canonical_toModel x
    cases number : x.toModel.unpack <;> simp_all [UnpackedFloat.neg, Canonical]
  have fits : Fits x.toModel.unpack.neg := by
    have := fits_toModel x
    cases number : x.toModel.unpack <;> simp_all [UnpackedFloat.neg, Fits]
  exact unpack_pack_of_fits canonical fits

theorem ofFloat_neg (x : Float) : ofFloat (-x) = (ofFloat x).negated := by
  rw [ofFloat_eq_ofUnpacked, ofFloat_eq_ofUnpacked, unpack_neg]
  cases x.toModel.unpack <;> simp [UnpackedFloat.neg, ofUnpacked, negated]

theorem ofFloat_abs (x : Float) : ofFloat x.abs = (ofFloat x).unsigned := by
  rw [ofFloat_eq_ofUnpacked x]
  show ofFloat (.ofModel (.pack x.toModel.unpack.abs)) = _
  have canonical := canonical_toModel x
  have fits := fits_toModel x
  generalize x.toModel.unpack = a at canonical fits ⊢
  cases a with
  | finite s m e positive =>
      have canonical' : Canonical (.finite .positive m e positive) := canonical
      exact ofFloat_pack_of_fits canonical' fits
  | _ => simp [UnpackedFloat.abs, ofUnpacked, unsigned, isNegative]

/-- A canonical number with a fitting exponent is what a double is able to hold. -/
theorem rounded_quanta
    {sign : Sign}
    {mantissa : ℕ}
    {exponent : ℤ}
    {positive : 0 < mantissa}
    (negative : Bool)
    (canonical : Canonical (.finite sign mantissa exponent positive))
    (fits : Fits (.finite sign mantissa exponent positive)) :
    rounded negative ((mantissa * Nat.pow 2 (exponent + 1074).toNat : ℕ) : ℚ) =
      .finite negative (mantissa * Nat.pow 2 (exponent + 1074).toNat) :=
  rounded_natCast negative (representable_mul_pow canonical.1 _)
    ((quanta_lt_overflow_iff canonical.1 canonical.2.2).mpr fits)

theorem decreaseExponent_pos
    {mantissa : ℕ}
    (positive : 0 < mantissa)
    (exponent target : ℤ) :
    0 < (decreaseExponent mantissa exponent target).1 := by
  simp only [decreaseExponent, Nat.shiftLeft_eq]
  positivity

/-- Two nonzero numbers of the same sign do not cancel. -/
theorem not_both_negative_of_sum_eq_zero
    (s t : Sign)
    {m n : ℕ}
    (mPositive : 0 < m)
    (nPositive : 0 < n)
    (cancel : s.apply m + t.apply n = 0) :
    (isNegative s && isNegative t) = false := by
  cases s
  · cases t
    · simp only [Sign.apply] at cancel
      omega
    · rfl
  · rfl

theorem ofFloat_add (x y : Float) : ofFloat (x + y) = (ofFloat x).plus (ofFloat y) := by
  rw [ofFloat_eq_ofUnpacked x, ofFloat_eq_ofUnpacked y]
  show ofFloat (.ofModel (.pack (add .binary64 x.toModel.unpack y.toModel.unpack))) = _
  have left := canonical_toModel x
  have leftFits := fits_toModel x
  have right := canonical_toModel y
  have rightFits := fits_toModel y
  generalize x.toModel.unpack = a at left leftFits ⊢
  generalize y.toModel.unpack = b at right rightFits ⊢
  cases a with
  | notANumber => simp [add, ofUnpacked, plus]
  | infinity s =>
      cases b with
      | infinity t => cases s <;> cases t <;> simp [add, ofUnpacked, plus, isNegative]
      | _ => simp [add, ofUnpacked, plus]
  | zero s =>
      cases b with
      | zero t => cases s <;> cases t <;> simp [add, ofUnpacked, plus, isNegative]
      | finite t n f nPositive =>
          have nonzero : n * Nat.pow 2 (f + 1074).toNat ≠ 0 :=
            (Nat.mul_pos nPositive (Nat.pow_pos Nat.two_pos)).ne'
          show ofFloat (.ofModel (.pack (.finite t n f nPositive))) = _
          rw [ofFloat_pack_of_fits right rightFits]
          simp only [ofUnpacked, plus, signed_zero, zero_add, signed_eq_zero_iff, if_neg nonzero,
            natAbs_signed, decide_signed_lt_zero _ nonzero]
          exact (rounded_quanta _ right rightFits).symm
      | _ => simp [add, ofUnpacked, plus]
  | finite s m e mPositive =>
      cases b with
      | zero t =>
          have nonzero : m * Nat.pow 2 (e + 1074).toNat ≠ 0 :=
            (Nat.mul_pos mPositive (Nat.pow_pos Nat.two_pos)).ne'
          show ofFloat (.ofModel (.pack (.finite s m e mPositive))) = _
          rw [ofFloat_pack_of_fits left leftFits]
          simp only [ofUnpacked, plus, signed_zero, add_zero, signed_eq_zero_iff, if_neg nonzero,
            natAbs_signed, decide_signed_lt_zero _ nonzero]
          exact (rounded_quanta _ left leftFits).symm
      | finite t n f nPositive =>
          have least : -1074 ≤ min e f := le_min left.2.1 right.2.1
          have positive : 0 < (Nat.pow 2 (min e f + 1074).toNat : ℤ) :=
            Int.natCast_pos.mpr (Nat.pow_pos Nat.two_pos)
          rw [add, ofFloat_pack_normalize]
          simp only [ofUnpacked, plus, signed_decreaseExponent s m least (min_le_left e f),
            signed_decreaseExponent t n least (min_le_right e f), ← add_mul]
          have signs := not_both_negative_of_sum_eq_zero s t
            (decreaseExponent_pos mPositive e (min e f))
            (decreaseExponent_pos nPositive f (min e f))
          generalize s.apply ((decreaseExponent m e (min e f)).1 : ℕ)
            + t.apply ((decreaseExponent n f (min e f)).1 : ℕ) = sum at signs ⊢
          by_cases zero : sum = 0
          · rw [if_pos zero, if_pos (by rw [zero, zero_mul]), signs zero]
            rfl
          · have below : sum * (Nat.pow 2 (min e f + 1074).toNat : ℕ) < 0 ↔ sum < 0 :=
              ⟨fun product => neg_of_mul_neg_left product positive.le,
                fun negative => mul_neg_of_neg_of_pos negative positive⟩
            rw [if_neg zero, if_neg (mul_ne_zero zero positive.ne'), decide_eq_decide.mpr below,
              Int.natAbs_mul, Int.natAbs_natCast, cast_quanta _ least]
      | _ => simp [add, ofUnpacked, plus]

/-- A difference is a sum. -/
theorem sub_eq_plus_neg (x y : Float) : x - y = x + -y := by
  have same (a b : UnpackedFloat) : sub .binary64 a b = add .binary64 a b.neg := by
    cases a with
    | zero s => cases b <;> rfl
    | finite s m e mPositive =>
        cases b with
        | finite t n f nPositive =>
            cases t
            · exact congrArg (fun sum => UnpackedFloat.normalize .binary64 sum (min e f) .positive)
                (sub_neg_eq_add _ _)
            · rfl
        | _ => rfl
    | _ => cases b <;> rfl
  show Float.ofModel (.pack (sub .binary64 x.toModel.unpack y.toModel.unpack)) =
    Float.ofModel (.pack (add .binary64 x.toModel.unpack (-y).toModel.unpack))
  rw [unpack_neg, same]

theorem small_mul_unit {n : ℕ} (small : n < 2 ^ 53) :
    Representable (n * unit) ∧ n * unit < overflow := by
  obtain ⟨k, exponent, power⟩ := exists_unit_eq_pow
  have narrow : k ≤ 2045 := by omega
  have below := mul_pow_lt small narrow
  rw [power]
  unfold overflow
  exact ⟨representable_mul_pow small k, below⟩

/-- Small natural numbers are doubles. -/
theorem rounded_small {n : ℕ} (small : n < 2 ^ 53) :
    rounded false (n * unit) = .finite false (n * unit) := by
  obtain ⟨representable, below⟩ := small_mul_unit small
  rw [← rounded_natCast false representable below, Nat.cast_mul]

/-- The double of a natural number is the rounding of it. -/
theorem ofFloat_ofNat (n : ℕ) : ofFloat (Float.ofNat n) = rounded false (n * unit) := by
  show ofFloat (Float.ofScientific n false 0) = _
  unfold Float.ofScientific
  split
  · next small =>
      have one : ofFloat (Float.ofBits 0x3FF0000000000000) = .finite false unit := by
        decide +kernel
      have word : ofFloat n.toUInt64.toFloat = rounded false (n * unit) := by
        have whole : n.toUInt64.toNat = n := Nat.mod_eq_of_lt (by omega)
        show ofFloat (.ofModel (.pack
          (UnpackedFloat.normalize .binary64 n.toUInt64.toNat 0 .positive))) = _
        rw [whole, ofFloat_pack_normalize, zero_add, ← cast_unit, Int.natAbs_natCast]
        split
        · next zero =>
            obtain rfl : n = 0 := by exact_mod_cast zero
            rw [Nat.cast_zero, zero_mul, rounded_zero]
            rfl
        · rw [decide_eq_false (by omega)]
      show ofFloat (n.toUInt64.toFloat * Float.ofBits 0x3FF0000000000000) = _
      rw [ofFloat_mul, one, word, rounded_small small.1]
      simp only [times, Nat.cast_mul]
      rw [mul_div_cancel_right₀ _ unit_pos.ne']
      exact rounded_small small.1
  · next large =>
      have great : 2 ^ 53 ≤ n := by omega
      have nonzero : n ≠ 0 := (lt_of_lt_of_le (by norm_num) great).ne'
      have exact : Describes (n <<< 53 * 1) .exact ((n <<< 53 * 1 : ℕ) : ℚ) := rfl
      have scientific :
          UnpackedFloat.ofScientific .binary64 n (Int.ofNat 0) =
            roundWithAccuracy .binary64 .positive (n <<< 53 * 1) (-53 + 0) .exact := by
        unfold UnpackedFloat.ofScientific
        rw [dif_neg nonzero, if_neg (by decide), if_neg (by simp), if_pos (by decide)]
        rfl
      show ofFloat (.ofModel (.pack (UnpackedFloat.ofScientific .binary64 n (Int.ofNat 0)))) = _
      rw [scientific, ofFloat_pack_roundWithAccuracy .positive exact
        (.inl (by rw [Nat.shiftLeft_eq]; omega)), cast_unit, Nat.shiftLeft_eq]
      congr 1
      have exponents : ((53 : ℕ) : ℤ) + (-53 + 0 + 1074) = 1074 := by norm_num
      rw [Nat.mul_one, Nat.cast_mul, Nat.cast_pow, Nat.cast_ofNat, ← zpow_natCast, mul_assoc,
        ← zpow_add₀ two_ne_zero, exponents]

theorem negated_rounded (negative : Bool) (q : ℚ) :
    (rounded negative q).negated = rounded (!negative) q := by
  unfold rounded limited
  by_cases small : nearest q < overflow
  · rw [if_pos small, if_pos small]
    rfl
  · rw [if_neg small, if_neg small]
    rfl

/-- The double of an integer is the rounding of it. -/
theorem ofFloat_ofInt (n : ℤ) :
    ofFloat (Float.ofInt n) = rounded (decide (n < 0)) (n.natAbs * unit) := by
  cases n with
  | ofNat n => exact ofFloat_ofNat n
  | negSucc n =>
      show ofFloat (-Float.ofNat (n + 1)) = _
      rw [ofFloat_neg, ofFloat_ofNat, negated_rounded, Int.natAbs_negSucc,
        decide_eq_true (Int.negSucc_lt_zero n)]
      rfl

end Binary64
end WindsAloft
