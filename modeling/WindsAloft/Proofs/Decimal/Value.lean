import WindsAloft.Decimal.Notation
import WindsAloft.Proofs.Binary64.Values

/-!
# The value of a decimal

A decimal is a rational number, and reading it as a double is rounding that number
once, however many digits it has and however great its exponent is.  So decimals of
equal value read alike, and the shortest decimal of a double reads back as the
double.
-/

namespace WindsAloft

open Binary64

attribute [local irreducible] unit overflow

namespace Binary64

/-- What lies below half a quantum is rounded to zero. -/
theorem nearest_of_lt_half {q : ℚ} (small : q < 1 / 2) : nearest q = 0 := by
  have floor : ⌊q⌋₊ = 0 := Nat.floor_eq_zero.mpr (small.trans (by norm_num))
  have scale : spacing 0 = 1 := by decide
  rw [nearest, floor, scale, Nat.cast_one, div_one, Nat.mul_one, halfEven, floor, Nat.cast_zero,
    sub_zero, if_pos small]

/-- From the overflow on everything is rounded to an infinity. -/
theorem rounded_of_overflow_le (negative : Bool) {q : ℚ} (great : (overflow : ℚ) ≤ q) :
    rounded negative q = .infinite negative := by
  have double : Representable overflow := by
    obtain ⟨k, -, power⟩ := exists_overflow_eq_pow
    exact ⟨1, k, by norm_num, power.trans (Nat.one_mul _).symm⟩
  have beyond : overflow ≤ nearest q := by
    rw [← nearest_natCast double]
    exact nearest_mono great
  rw [rounded, limited, if_neg (not_lt_of_ge beyond)]

end Binary64

namespace Decimal

open Float.Model (UnpackedFloat Format)
open Float.Model.UnpackedFloat

/-- The number that a decimal is. -/
def value (decimal : Decimal) : ℚ :=
  decimal.digits * 10 ^ decimal.exponent

/-- A decimal with so great an exponent lies beyond all doubles. -/
theorem overflow_le_of_exponent
    {m : ℕ}
    {e : ℤ}
    (positive : 0 < m)
    (great : 2048 < e) :
    (overflow : ℚ) ≤ (m : ℚ) * 10 ^ e * unit := by
  have tenPower : (2 : ℚ) ^ e ≤ 10 ^ e := by
    obtain ⟨n, rfl⟩ := Int.eq_ofNat_of_zero_le (show 0 ≤ e by omega)
    rw [zpow_natCast, zpow_natCast]
    exact pow_le_pow_left₀ two_pos.le (by norm_num) n
  have atLeastOne : (1 : ℚ) ≤ m := by exact_mod_cast positive
  obtain ⟨k, exponent, power⟩ := exists_overflow_eq_pow
  calc
    (overflow : ℚ) = 2 ^ (k : ℤ) := by rw [power, cast_pow_two]
    _ ≤ 2 ^ (e + 1074) := zpow_le_zpow_right₀ one_le_two (by omega)
    _ = 1 * 2 ^ e * unit := by rw [zpow_add₀ two_ne_zero, cast_unit, one_mul]
    _ ≤ m * 10 ^ e * unit := by gcongr

/-- A decimal with so low an exponent lies below half a quantum. -/
theorem lt_half_of_exponent
    {m : ℕ}
    {e : ℤ}
    (low : e < -(2048 + m.log2 : ℤ)) :
    (m : ℚ) * 10 ^ e * unit < 1 / 2 := by
  have tenPower : (10 : ℚ) ^ e ≤ 2 ^ e := by
    obtain ⟨n, exponent⟩ := Int.eq_ofNat_of_zero_le (show 0 ≤ -e by omega)
    rw [← neg_neg e, exponent, zpow_neg, zpow_neg, zpow_natCast, zpow_natCast]
    exact inv_anti₀ (by positivity) (pow_le_pow_left₀ two_pos.le (by norm_num) n)
  have short : (m : ℚ) < 2 ^ ((m.log2 + 1 : ℕ) : ℤ) := by
    rw [zpow_natCast]
    exact_mod_cast Nat.lt_log2_self
  calc
    (m : ℚ) * 10 ^ e * unit ≤ m * 2 ^ e * unit := by gcongr
    _ < 2 ^ ((m.log2 + 1 : ℕ) : ℤ) * 2 ^ e * unit := by
      have : (0 : ℚ) < unit := unit_pos
      gcongr
    _ = 2 ^ (((m.log2 + 1 : ℕ) : ℤ) + e + 1074) := by
      rw [cast_unit, ← zpow_add₀ two_ne_zero, ← zpow_add₀ two_ne_zero]
    _ ≤ 2 ^ (-1 : ℤ) := zpow_le_zpow_right₀ one_le_two (by omega)
    _ = 1 / 2 := by norm_num

/-- The product with a power of ten, of a factor that is shifted to have bits enough. -/
theorem ofFloat_pack_shifted
    {m : ℕ}
    {e : ℤ}
    (positive : 0 < m)
    (nonnegative : 0 ≤ e) :
    ofFloat (.ofModel (.pack
        (roundWithAccuracy .binary64 .positive (m <<< 53 * 10 ^ e.toNat) (-53 + 0) .exact))) =
      rounded false (m * 10 ^ e * unit) := by
  have exact :
      Describes (m <<< 53 * 10 ^ e.toNat) .exact ((m <<< 53 * 10 ^ e.toNat : ℕ) : ℚ) := rfl
  have large : 2 ^ 52 ≤ m <<< 53 * 10 ^ e.toNat := by
    rw [Nat.shiftLeft_eq]
    calc
      2 ^ 52 ≤ 1 * 2 ^ 53 * 1 := by norm_num
      _ ≤ m * 2 ^ 53 * 10 ^ e.toNat :=
        Nat.mul_le_mul (Nat.mul_le_mul_right _ positive) (Nat.one_le_pow _ _ (by norm_num))
  have exponents : ((53 : ℕ) : ℤ) + (-53 + 0 + 1074) = 1074 := by norm_num
  have shift : (2 : ℚ) ^ 53 * 2 ^ ((-53 : ℤ) + 0 + 1074) = unit := by
    rw [cast_unit, ← zpow_natCast, ← zpow_add₀ two_ne_zero, exponents]
  have power : (10 : ℚ) ^ e = 10 ^ e.toNat := by
    rw [← zpow_natCast, Int.toNat_of_nonneg nonnegative]
  rw [ofFloat_pack_roundWithAccuracy .positive exact (.inl large), Nat.shiftLeft_eq, ← shift, power]
  generalize (2 : ℚ) ^ ((-53 : ℤ) + 0 + 1074) = p
  push_cast
  congr 1
  ring

/-- Reading a decimal rounds its value once. -/
theorem ofFloat_toFloat (decimal : Decimal) :
    ofFloat decimal.toFloat = rounded false (decimal.value * unit) := by
  obtain ⟨m, e⟩ := decimal
  show ofFloat (.ofModel (.pack (ofScientific .binary64 m e))) = rounded false (m * 10 ^ e * unit)
  unfold UnpackedFloat.ofScientific
  split
  · next zero =>
      rw [zero, Nat.cast_zero, zero_mul, zero_mul, rounded_zero, ofFloat_pack_zero]
      rfl
  next nonzero =>
  have positive : 0 < m := Nat.pos_of_ne_zero nonzero
  have bits : (2 : ℤ) ^ Format.binary64.exponentBits = 2048 := by decide
  rw [bits]
  split
  · next great =>
      rw [rounded_of_overflow_le false (overflow_le_of_exponent positive great),
        ofFloat_pack_infinity]
      rfl
  split
  · next low =>
      rw [rounded, nearest_of_lt_half (lt_half_of_exponent low), limited, if_pos overflow_pos,
        ofFloat_pack_zero]
      rfl
  split
  · next nonnegative => exact ofFloat_pack_shifted positive nonnegative
  · next negative =>
      have power : (10 : ℚ) ^ e = 1 / (10 ^ (-e).toNat : ℕ) := by
        rw [← neg_neg e, zpow_neg, neg_neg, Nat.cast_pow, ← zpow_natCast,
          Int.toNat_of_nonneg (by omega), one_div]
        rfl
      rw [ofFloat_pack_div .positive .positive positive (by positivity), power, cast_unit, sub_self,
        zpow_zero, mul_one]
      congr 1
      ring

/-- Decimals of equal value read alike. -/
theorem toFloat_congr {left right : Decimal} (same : left.value = right.value) :
    left.toFloat = right.toFloat := by
  apply ofFloat_injective
  rw [ofFloat_toFloat, ofFloat_toFloat, same]

theorem value_normalize (decimal : Decimal) : decimal.normalize.value = decimal.value := by
  fun_induction normalize decimal with
  | case1 decimal trailing ih =>
      have whole : decimal.digits / 10 * 10 = decimal.digits :=
        Nat.div_mul_cancel (Nat.dvd_of_mod_eq_zero trailing.2)
      rw [ih]
      unfold value
      simp only
      rw [zpow_add_one₀ (by norm_num), ← mul_assoc, mul_right_comm]
      exact congrArg (· * _) (by exact_mod_cast whole)
  | case2 => rfl

theorem roundToEven_eq_or (numerator denominator : ℕ) :
    roundToEven numerator denominator = numerator / denominator ∨
      roundToEven numerator denominator = numerator / denominator + 1 := by
  have parity := Nat.mod_two_eq_zero_or_one (numerator / denominator)
  unfold roundToEven
  simp only
  split_ifs <;> omega

/-- A decimal that the search keeps reads back. -/
theorem readsBack_of_ofLength?
    {quanta length : ℕ}
    {decimal : Decimal}
    (kept : ofLength? quanta length = some decimal) :
    readsBack quanta decimal = true := by
  unfold ofLength? at kept
  simp only at kept
  split at kept
  · next below above =>
      obtain rfl := Option.some.inj kept
      rcases roundToEven_eq_or (inUnitsOf (decimalExponent quanta + 1 - length) quanta).1
        (inUnitsOf (decimalExponent quanta + 1 - length) quanta).2 with down | up
      · rwa [down]
      · rwa [up]
  · next below _ => rwa [Option.some.inj kept] at below
  · next _ above => rwa [Option.some.inj kept] at above
  · cases kept

theorem mul_pow_five_mul_ten_mul_pow_two (quanta k : ℕ) :
    ((quanta * Nat.pow 5 k : ℕ) : ℚ) * 10 ^ (-(k : ℤ)) * 2 ^ (k : ℤ) = quanta := by
  have five : ((Nat.pow 5 k : ℕ) : ℚ) = 5 ^ (k : ℤ) :=
    (Nat.cast_pow 5 k).trans (zpow_natCast 5 k).symm
  rw [Nat.cast_mul, five, zpow_neg, show (10 : ℚ) = 5 * 2 by norm_num, mul_zpow]
  field_simp

-- Nor may anything compute this power.
theorem exists_digits_exact_eq (quanta : ℕ) :
    ∃ k, k = 1074 ∧ (exact quanta).digits = quanta * Nat.pow 5 k := by
  unfold exact
  exact ⟨1074, rfl, rfl⟩

theorem value_exact (quanta : ℕ) : (exact quanta).value * unit = quanta := by
  obtain ⟨k, exponent, digits⟩ := exists_digits_exact_eq quanta
  have exponent' : (exact quanta).exponent = -(k : ℤ) := by
    rw [exponent]
    rfl
  rw [value, digits, exponent', cast_unit, show (1074 : ℤ) = k by omega,
    mul_pow_five_mul_ten_mul_pow_two]

/-- The exact expansion of a double reads back. -/
theorem readsBack_exact {quanta : ℕ} (double : Representable quanta) (fits : quanta < overflow) :
    readsBack quanta (exact quanta) = true := by
  unfold readsBack
  rw [ofFloat_toFloat, value_exact, rounded, nearest_natCast double, limited, if_pos fits]
  exact beq_self_eq_true _

theorem readsBack_searchLength
    {quanta : ℕ}
    (double : Representable quanta)
    (fits : quanta < overflow)
    (length remaining : ℕ) :
    readsBack quanta (searchLength quanta length remaining) = true := by
  fun_induction searchLength quanta length remaining with
  | case1 => exact readsBack_exact double fits
  | case2 length remaining decimal kept => exact readsBack_of_ofLength? kept
  | case3 length remaining missed ih => exact ih

/-- The shortest decimal of a double reads back as the double. -/
theorem ofFloat_toFloat_shortest
    {quanta : ℕ}
    (double : Representable quanta)
    (fits : quanta < overflow) :
    ofFloat (shortest quanta).toFloat = .finite false quanta := by
  unfold shortest
  split
  · next zero =>
      rw [ofFloat_toFloat, zero]
      simp [value]
  · have found := readsBack_searchLength double fits 1 17
    rw [toFloat_congr (value_normalize _)]
    exact eq_of_beq found

end Decimal
end WindsAloft
