import Mathlib
import WindsAloft.Binary64

/-!
# Doubles in 64 bits

A double is computed as a sign, a mantissa and an exponent, and then packed into
64 bits.  The results of computations are canonical: their mantissa has 53 bits
unless the exponent is the least.  For these, packing loses nothing as long as the
exponent fits, and beyond that it leaves an infinity.  What is unpacked is
canonical in turn.
-/

namespace WindsAloft
namespace Binary64

open Float.Model (UnpackedFloat Format)
open Float.Model.UnpackedFloat

/-- The meaning of a sign, a mantissa and an exponent. -/
def ofUnpacked : UnpackedFloat → Binary64
  | .notANumber => .nan
  | .infinity sign => .infinite (isNegative sign)
  | .zero sign => .finite (isNegative sign) 0
  | .finite sign mantissa exponent _ =>
      .finite (isNegative sign) (mantissa * Nat.pow 2 (exponent + 1074).toNat)

theorem ofFloat_eq_ofUnpacked (x : Float) : ofFloat x = ofUnpacked x.toModel.unpack := by
  unfold ofFloat ofUnpacked
  split <;> simp_all

/-- The mantissa has 53 bits unless the exponent is the least. -/
def Canonical : UnpackedFloat → Prop
  | .finite _ mantissa exponent _ =>
      mantissa < 2 ^ 53 ∧ -1074 ≤ exponent ∧ (2 ^ 52 ≤ mantissa ∨ exponent = -1074)
  | _ => True

/-- The exponent is none that is too great to be packed. -/
def Fits : UnpackedFloat → Prop
  | .finite _ _ exponent _ => exponent ≤ 971
  | _ => True

/-- What is unpacked is canonical and can be packed again. -/
theorem canonical_unpack (bits : BitVec 64) :
    Canonical (unpack .binary64 bits) ∧ Fits (unpack .binary64 bits) := by
  fun_cases unpack .binary64 bits with
  | case1 => exact ⟨trivial, trivial⟩
  | case2 => exact ⟨trivial, trivial⟩
  | case3 => exact ⟨trivial, trivial⟩
  | case4 mantissa exponent e _ _ _ zero _ =>
      have least : e = -1075 := by
        show ((exponent.toNat : ℕ) : ℤ) - _ = _
        rw [zero]
        rfl
      have small : mantissa.toNat < 2 ^ 52 := mantissa.isLt
      simp only [Canonical, Fits]
      omega
  | case5 mantissa exponent e _ _ notOnes notZero =>
      have value : e = (exponent.toNat : ℤ) - 1075 := rfl
      have positive : 0 < exponent.toNat := by
        apply Nat.pos_of_ne_zero
        intro zero
        exact notZero (BitVec.eq_of_toNat_eq zero)
      have below : exponent.toNat < 2047 := by
        have bound : exponent.toNat < 2048 := exponent.isLt
        have other : exponent.toNat ≠ 2047 := by
          intro ones
          exact notOnes (BitVec.eq_of_toNat_eq ones)
        omega
      have small : mantissa.toNat < 2 ^ 52 := mantissa.isLt
      have whole : (1#1 ++ mantissa).toNat = 2 ^ 52 + mantissa.toNat := by
        rw [BitVec.toNat_append, ← Nat.shiftLeft_add_eq_or_of_lt mantissa.isLt]
        rfl
      simp only [Canonical, Fits, whole]
      omega

/-- What the three fields of a subnormal number are unpacked to. -/
theorem unpack_subnormal
    (sign : Sign)
    {mantissa : ℕ}
    (positive : 0 < mantissa)
    (small : mantissa < 2 ^ 52) :
    unpack .binary64 (packComponents .binary64 sign 0#11 (BitVec.ofNat 52 mantissa)) =
      .finite sign mantissa (-1074) positive := by
  have kept : (BitVec.ofNat 52 mantissa).toNat = mantissa := by
    rw [BitVec.toNat_ofNat, Nat.mod_eq_of_lt small]
  have nonzero : BitVec.ofNat 52 mantissa ≠ 0#52 := by
    intro zero
    rw [zero] at kept
    exact positive.ne kept
  simp only [unpack, unpackMantissa_packComponents, unpackExponent_packComponents,
    unpackSign_packComponents, Sign.ofBitVec_toBitVec]
  rw [if_neg (by decide), if_pos trivial, dif_neg nonzero]
  congr

/-- What the three fields of a normal number are unpacked to. -/
theorem unpack_normal
    (sign : Sign)
    {mantissa biased : ℕ}
    (large : 2 ^ 52 ≤ mantissa)
    (small : mantissa < 2 ^ 53)
    (nonzero : 0 < biased)
    (narrow : biased < 2047) :
    unpack .binary64
        (packComponents .binary64 sign (BitVec.ofNat 11 biased) (BitVec.ofNat 52 mantissa)) =
      .finite sign mantissa (biased - 1075) (by omega) := by
  have kept : (BitVec.ofNat 11 biased).toNat = biased := by
    rw [BitVec.toNat_ofNat, Nat.mod_eq_of_lt (by omega)]
  have notOnes : BitVec.ofNat 11 biased ≠ -1#11 := by
    intro ones
    rw [ones] at kept
    exact narrow.ne kept.symm
  have notZero : BitVec.ofNat 11 biased ≠ 0#11 := by
    intro zero
    rw [zero] at kept
    exact nonzero.ne kept
  have whole : (1#1 ++ BitVec.ofNat 52 mantissa).toNat = mantissa := by
    rw [BitVec.toNat_append, ← Nat.shiftLeft_add_eq_or_of_lt (BitVec.isLt _),
      BitVec.toNat_ofNat]
    show 2 ^ 52 + mantissa % 2 ^ 52 = mantissa
    omega
  simp only [unpack, unpackMantissa_packComponents, unpackExponent_packComponents,
    unpackSign_packComponents, Sign.ofBitVec_toBitVec]
  rw [if_neg notOnes, if_neg notZero]
  congr

/-- How a sign, a mantissa and an exponent are packed. -/
theorem pack_finite
    (sign : Sign)
    {mantissa : ℕ}
    (exponent : ℤ)
    (positive : 0 < mantissa) :
    pack .binary64 (.finite sign mantissa exponent positive) =
      if 2048 ≤ (exponent + 1075).toNat + 1 then
        packedInfinity .binary64 sign
      else if mantissa.log2 + 1 = 53 then
        packComponents .binary64 sign
          (BitVec.ofNat 11 (exponent + 1075).toNat) (BitVec.ofNat 52 mantissa)
      else
        packComponents .binary64 sign 0#11 (BitVec.ofNat 52 mantissa) := by
  have biased :
      exponent + (Format.binary64.exponentBias : ℤ) +
          (Format.binary64.mantissaBitsWithoutImplicit : ℤ) = exponent + 1075 := by
    show exponent + 1023 + 52 = _
    omega
  rw [pack]
  simp only [biased]
  rfl

theorem unpack_packedInfinity (sign : Sign) :
    unpack .binary64 (packedInfinity .binary64 sign) = .infinity sign := by
  simp [packedInfinity, unpack]

/-- Packing a canonical number with a fitting exponent loses nothing. -/
theorem unpack_pack_of_fits
    {number : UnpackedFloat}
    (canonical : Canonical number)
    (fits : Fits number) :
    (Float.Model.pack number).unpack = number := by
  show unpack .binary64 (pack .binary64 number) = number
  cases number with
  | notANumber => exact unpack_packedNaN
  | zero sign => exact unpack_packedZero
  | infinity sign => exact unpack_packedInfinity sign
  | finite sign mantissa exponent positive =>
      obtain ⟨small, least, filled⟩ := canonical
      have fits' : exponent ≤ 971 := fits
      rw [pack_finite, if_neg (by omega)]
      rcases Nat.lt_or_ge mantissa (2 ^ 52) with subnormal | normal
      · have short : mantissa.log2 < 52 := (Nat.log2_lt positive.ne').mpr subnormal
        obtain rfl : exponent = -1074 := by omega
        rw [if_neg (by omega)]
        exact unpack_subnormal sign positive subnormal
      · have full : mantissa.log2 = 52 :=
          (Nat.log2_eq_iff positive.ne').mpr ⟨normal, small⟩
        rw [if_pos (by omega), unpack_normal sign normal small (by omega) (by omega)]
        congr 1
        omega

theorem mul_pow_lt
    {mantissa k n : ℕ}
    (small : mantissa < 2 ^ 53)
    (fits : k ≤ n) :
    mantissa * Nat.pow 2 k < Nat.pow 2 (53 + n) :=
  calc
    mantissa * 2 ^ k ≤ mantissa * 2 ^ n :=
      Nat.mul_le_mul_left _ (Nat.pow_le_pow_right (by norm_num) fits)
    _ < 2 ^ 53 * 2 ^ n := Nat.mul_lt_mul_of_pos_right small (by positivity)
    _ = 2 ^ (53 + n) := (pow_add 2 53 n).symm

theorem mul_pow_lt_iff
    {mantissa k n : ℕ}
    (small : mantissa < 2 ^ 53)
    (filled : 2 ^ 52 ≤ mantissa ∨ k = 0) :
    mantissa * Nat.pow 2 k < Nat.pow 2 (53 + n) ↔ k ≤ n := by
  refine ⟨fun below => ?_, mul_pow_lt small⟩
  by_contra great
  refine absurd below (not_lt_of_ge ?_)
  calc
    2 ^ (53 + n) ≤ 2 ^ (52 + k) := Nat.pow_le_pow_right (by norm_num) (by omega)
    _ = 2 ^ 52 * 2 ^ k := pow_add 2 52 k
    _ ≤ mantissa * 2 ^ k := Nat.mul_le_mul_right _ (filled.resolve_right (by omega))

/-- The least number of quanta that is too great for a double. -/
def overflow : ℕ := Nat.pow 2 (53 + 2045)

-- The exponent is kept apart from its value so that nothing tries to compute the power.
theorem exists_overflow_eq_pow : ∃ k, k = 53 + 2045 ∧ overflow = Nat.pow 2 k := by
  unfold overflow
  exact ⟨53 + 2045, rfl, rfl⟩

/-- The quanta of a canonical number stay below the overflow as long as its exponent fits. -/
theorem quanta_lt_overflow_iff
    {mantissa : ℕ}
    {exponent : ℤ}
    (small : mantissa < 2 ^ 53)
    (filled : 2 ^ 52 ≤ mantissa ∨ exponent = -1074) :
    mantissa * Nat.pow 2 (exponent + 1074).toNat < overflow ↔ exponent ≤ 971 := by
  have bound := mul_pow_lt_iff (n := 2045) small
    (filled.imp_right (fun least => show (exponent + 1074).toNat = 0 by omega))
  have exponents : (exponent + 1074).toNat ≤ 2045 ↔ exponent ≤ 971 := by omega
  unfold overflow
  rw [← exponents]
  exact bound

theorem overflow_pos : 0 < overflow := by
  have below := (quanta_lt_overflow_iff (Nat.two_pow_pos 53) (.inr rfl)).mpr (by norm_num)
  rwa [Nat.zero_mul] at below

/-- Whatever stands behind it, an exponent that is not all ones is that of a number. -/
theorem unpack_packComponents_ne_notANumber
    (sign : Sign)
    {exponent : BitVec 11}
    (notOnes : exponent ≠ -1#11)
    (mantissa : BitVec 52) :
    unpack .binary64 (packComponents .binary64 sign exponent mantissa) ≠ .notANumber := by
  simp only [unpack, unpackMantissa_packComponents, unpackExponent_packComponents]
  rw [if_neg notOnes]
  split_ifs <;> exact nofun

/-- What is a number is packed to one, canonical or not. -/
theorem ofFloat_pack_ne_nan {number : UnpackedFloat} (isNumber : number ≠ .notANumber) :
    ofFloat (.ofModel (.pack number)) ≠ .nan := by
  suffices packed : (Float.Model.pack number).unpack ≠ .notANumber by
    rw [ofFloat_eq_ofUnpacked]
    show ofUnpacked (Float.Model.pack number).unpack ≠ .nan
    cases unpacked : (Float.Model.pack number).unpack with
    | notANumber => exact absurd unpacked packed
    | _ => exact nofun
  cases number with
  | notANumber => exact absurd rfl isNumber
  | infinity sign =>
      have kept : (Float.Model.pack (.infinity sign)).unpack = .infinity sign :=
        unpack_pack_of_fits trivial trivial
      rwa [kept]
  | zero sign =>
      have kept : (Float.Model.pack (.zero sign)).unpack = .zero sign :=
        unpack_pack_of_fits trivial trivial
      rwa [kept]
  | finite sign mantissa exponent positive =>
      show unpack .binary64 (pack .binary64 _) ≠ _
      rw [pack_finite]
      split_ifs with great normal
      · rw [unpack_packedInfinity]
        exact nofun
      · refine unpack_packComponents_ne_notANumber sign (fun ones => ?_) _
        have kept := congrArg BitVec.toNat ones
        rw [BitVec.toNat_ofNat, Nat.mod_eq_of_lt (by omega)] at kept
        rw [kept] at great
        exact great (by decide)
      · exact unpack_packComponents_ne_notANumber sign (by decide) _

/-- A finite number as a double holds it: an infinity where it is too great. -/
def limited (negative : Bool) (quanta : ℕ) : Binary64 :=
  if quanta < overflow then .finite negative quanta else .infinite negative

theorem ofFloat_pack_of_fits
    {number : UnpackedFloat}
    (canonical : Canonical number)
    (fits : Fits number) :
    ofFloat (.ofModel (.pack number)) = ofUnpacked number := by
  rw [ofFloat_eq_ofUnpacked, unpack_pack_of_fits canonical fits]

@[simp] theorem ofFloat_pack_notANumber : ofFloat (.ofModel (.pack .notANumber)) = .nan :=
  ofFloat_pack_of_fits trivial trivial

@[simp] theorem ofFloat_pack_infinity (sign : Sign) :
    ofFloat (.ofModel (.pack (.infinity sign))) = .infinite (isNegative sign) :=
  ofFloat_pack_of_fits trivial trivial

@[simp] theorem ofFloat_pack_zero (sign : Sign) :
    ofFloat (.ofModel (.pack (.zero sign))) = .finite (isNegative sign) 0 :=
  ofFloat_pack_of_fits trivial trivial

/-- The double that a canonical number is packed to. -/
theorem ofFloat_pack_finite
    (sign : Sign)
    {mantissa : ℕ}
    {exponent : ℤ}
    (positive : 0 < mantissa)
    (canonical : Canonical (.finite sign mantissa exponent positive)) :
    ofFloat (.ofModel (.pack (.finite sign mantissa exponent positive))) =
      limited (isNegative sign) (mantissa * Nat.pow 2 (exponent + 1074).toNat) := by
  obtain ⟨small, least, filled⟩ := id canonical
  unfold limited
  by_cases fits : exponent ≤ 971
  · rw [if_pos ((quanta_lt_overflow_iff small filled).mpr fits)]
    exact ofFloat_pack_of_fits canonical fits
  · rw [if_neg (fun below => fits ((quanta_lt_overflow_iff small filled).mp below)),
      ofFloat_eq_ofUnpacked]
    show ofUnpacked (unpack .binary64 (pack .binary64 _)) = _
    rw [pack_finite, if_pos (by omega), unpack_packedInfinity]
    rfl

end Binary64
end WindsAloft
