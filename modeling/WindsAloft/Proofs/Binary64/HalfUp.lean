import WindsAloft.Proofs.Binary64.HalfSteps

/-!
# Rounding half up

Taking the floor of a double plus one half is meant to round to the nearest integer, and of two
equally near ones to the greater.  It does so for all doubles but two kinds, which come out one
too high because the addition is rounded itself: the double just below one half, and the odd whole
numbers that take up all 53 bits of a double.
-/

namespace WindsAloft
namespace Binary64

attribute [local irreducible] unit overflow

section Doubles

variable {x : Float} {a h : ℤ} {k : ℕ}

/-- The integer next to a number, of two equally near ones the greater. -/
def HalfUp (q : ℚ) (n : ℤ) : Prop :=
  n - 1 / 2 ≤ q ∧ q < n + 1 / 2

theorem halfUp_iff {q : ℚ} {n : ℤ} : HalfUp q n ↔ round q = n := by
  rw [round_eq, Int.floor_eq_iff, HalfUp]
  constructor <;> rintro ⟨lower, upper⟩ <;> constructor <;> linarith

/--
The doubles that are rounded one too high: the one just below one half, and the odd whole numbers
that take up all 53 bits.
-/
def Overshoots (x : Float) : Prop :=
  exactValue x = exactValue 0.49999999999999994 ∨
    ∃ m : ℤ, exactValue x = m ∧ m % 2 = 1 ∧ 2 ^ 52 < |m| ∧ |m| < 2 ^ 53

theorem exactValue_of_quanta? (value : quanta? x = some a) : exactValue x = a / unit := by
  rw [exactValue, value, Option.getD_some]

theorem exactValue_eq_intCast_iff (value : quanta? x = some a) (m : ℤ) :
    exactValue x = m ↔ a = m * unit := by
  rw [exactValue_of_quanta? value, div_eq_iff unit_pos.ne']
  exact_mod_cast Iff.rfl

/-- The end of the scale is too far away to be seen in an integer of 64 bits. -/
theorem clamp_confined_ediv (n : ℤ) :
    Saturating.clamp (confined n / unit) = Saturating.clamp (n / unit) := by
  have one : 0 < (unit : ℤ) := unit_pos_int
  have beyond := le_overflow_ediv_unit
  have below : -(overflow : ℤ) / unit ≤ -9223372036854775808 := by
    have far := two_pow_63_lt_overflow
    exact Int.ediv_le_of_le_mul one (by omega)
  have least := Int64.toInt_minValue
  have greatest := Int64.toInt_maxValue
  have far := overflow_pos
  rcases lt_or_ge n (-overflow) with less | atLeast
  · have place : confined n = -overflow := by
      unfold confined
      omega
    have farther := Int.ediv_le_ediv one less.le
    rw [place, Saturating.clamp_of_le_least (by omega), Saturating.clamp_of_le_least (by omega)]
  · rcases lt_or_ge (overflow : ℤ) n with more | atMost
    · have place : confined n = overflow := by
        unfold confined
        omega
      have farther := Int.ediv_le_ediv one more.le
      rw [place, Saturating.clamp_of_greatest_le (by omega),
        Saturating.clamp_of_greatest_le (by omega)]
    · have place : confined n = n := by
        unfold confined
        omega
      rw [place]

theorem toInt_roundHalfUp_eq_clamp (value : quanta? x = some a) (half : quanta? 0.5 = some h) :
    (roundHalfUp x).toInt = Saturating.clamp (near (a + h) / unit) := by
  have one : 0 < (unit : ℤ) := unit_pos_int
  unfold roundHalfUp
  rw [toInt_floorToInt64, (isRounded_add value half).level_eq, Int.fdiv_eq_ediv_of_nonneg _ one.le,
    clamp_confined_ediv]

/-- Rounding half up is the floor of the exact sum with one half. -/
theorem round_exactValue (value : quanta? x = some a) (double : (unit : ℤ) = 2 * h) :
    round (exactValue x) = (a + h) / unit := by
  have step : (unit : ℚ) = 2 * h := by exact_mod_cast double
  have exact : exactValue x + 1 / 2 = ((a + h : ℤ) : ℚ) / (unit : ℕ) := by
    have positive := unit_pos
    rw [exactValue_of_quanta? value, Int.cast_add]
    field_simp
    rw [step]
    ring
  rw [round_eq, exact, Rat.floor_intCast_div_natCast]

/-- One half, the double just below it and one, as powers of two. -/
structure Halves (k : ℕ) : Prop where
  half : quanta? 0.5 = some (2 ^ (53 + k))
  almost : quanta? 0.49999999999999994 = some (2 ^ (53 + k) - 2 ^ k)
  one : (unit : ℤ) = 2 ^ (54 + k)

theorem exists_halves : ∃ k, Halves k := by
  obtain ⟨k, half, almost, one⟩ := exists_quanta?_halves
  have narrow : 2 ^ k ≤ 2 ^ (53 + k) := Nat.pow_le_pow_right two_pos (by omega)
  rw [Nat.cast_sub narrow] at almost
  exact ⟨k, by exact_mod_cast half, by exact_mod_cast almost, by exact_mod_cast one⟩

namespace Halves

variable {m : ℤ}

theorem unit_eq (halves : Halves k) : (unit : ℤ) = 2 * 2 ^ (53 + k) :=
  halves.one.trans two_pow_succ_eq

theorem range_eq (halves : Halves k) : (2 : ℤ) ^ (106 + k) = 2 ^ 52 * unit := by
  rw [halves.one, ← pow_add]
  congr 1
  omega

theorem almost_mem (k : ℕ) : (0 : ℤ) < 2 ^ k ∧ (2 : ℤ) ^ k < 2 ^ (53 + k) :=
  ⟨by positivity, pow_lt_pow_right₀ one_lt_two (by omega)⟩

/-- Where there may be a fraction, only the double just below one half is not rounded right. -/
theorem toInt_roundHalfUp_of_fine
    (halves : Halves k)
    (value : quanta? x = some a)
    (lower : -2 ^ (106 + k) ≤ a)
    (upper : a < 2 ^ (106 + k)) :
    (roundHalfUp x).toInt =
      round (exactValue x) + if a = 2 ^ (53 + k) - 2 ^ k then 1 else 0 := by
  have one : 0 < (unit : ℤ) := unit_pos_int
  have double := halves.unit_eq
  have exact := round_exactValue value double
  obtain ⟨positive, narrow⟩ := almost_mem k
  split
  · next last =>
      have least : (roundHalfUp 0.49999999999999994).toInt = 1 := by decide +kernel
      rw [roundHalfUp_congr value (last ▸ halves.almost), least, exact,
        Int.ediv_eq_zero_of_lt (by omega) (by omega)]
      rfl
  · next other =>
      have floor := near_add_half_ediv (isDouble_of_quanta? value).1 lower upper other
      rw [← halves.one, ← exact] at floor
      have range := halves.range_eq
      have least : -2 ^ 52 ≤ round (exactValue x) := by
        rw [exact, Int.le_ediv_iff_mul_le one]
        omega
      have greatest : round (exactValue x) < 2 ^ 52 + 1 := by
        rw [exact, Int.ediv_lt_iff_lt_mul one]
        omega
      rw [toInt_roundHalfUp_eq_clamp value halves.half, Int.cast_pow, Int.cast_ofNat, floor,
        Saturating.clamp_of_mem (by omega) (by omega), add_zero]

/-- Where there is none, only odd numbers of 53 bits are not rounded right. -/
theorem toInt_roundHalfUp_of_whole
    (halves : Halves k)
    (value : quanta? x = some (m * unit))
    (large : 2 ^ 52 ≤ |m|)
    (small : |m| < 2 ^ 63) :
    (roundHalfUp x).toInt = m + if |m| < 2 ^ 53 then m % 2 else 0 := by
  have representable := (isDouble_of_quanta? value).1
  rw [halves.one] at representable
  have floor := near_whole_add_half_ediv representable large
  have bounds := abs_lt.mp small
  rw [toInt_roundHalfUp_eq_clamp value halves.half, halves.one, Int.cast_mul, Int.cast_pow,
    Int.cast_pow, Int.cast_ofNat, floor]
  split
  · next narrow =>
      have bounds' := abs_lt.mp narrow
      exact Saturating.clamp_of_mem (by omega) (by omega)
  · exact Saturating.clamp_of_mem (by omega) (by omega)

/-- Beyond `2 ^ 52` all doubles are whole numbers. -/
theorem exists_whole
    (halves : Halves k)
    (value : quanta? x = some a)
    (large : 2 ^ (106 + k) ≤ |a|) :
    ∃ m : ℤ, a = m * unit ∧ 2 ^ 52 ≤ |m| := by
  have one : 0 < (unit : ℤ) := unit_pos_int
  have divides : 2 ^ (54 + k) ∣ a.natAbs := by
    refine (isDouble_of_quanta? value).1.dvd_of_le ?_
    rw [show 52 + (54 + k) = 106 + k by omega]
    rw [Int.abs_eq_natAbs] at large
    exact_mod_cast large
  obtain ⟨m, rfl⟩ : (unit : ℤ) ∣ a := by
    rw [halves.one]
    exact_mod_cast Int.natCast_dvd.mpr divides
  refine ⟨m, mul_comm _ _, ?_⟩
  rw [abs_mul, abs_of_pos one, mul_comm, halves.range_eq] at large
  exact le_of_mul_le_mul_right large one

/-- What is rounded one too high, in quanta. -/
theorem overshoots_iff (halves : Halves k) (value : quanta? x = some a) :
    Overshoots x ↔
      a = 2 ^ (53 + k) - 2 ^ k ∨
        ∃ m : ℤ, a = m * unit ∧ m % 2 = 1 ∧ 2 ^ 52 < |m| ∧ |m| < 2 ^ 53 := by
  unfold Overshoots
  rw [exactValue_of_quanta? halves.almost, exactValue_of_quanta? value,
    div_left_inj' unit_pos.ne', Int.cast_inj]
  simp only [← exactValue_of_quanta? value, exactValue_eq_intCast_iff value]

end Halves

/--
Within the 64-bit range, what is called rounding half up is that, and one too much for the doubles
that overshoot.
-/
theorem toInt_roundHalfUp
    (value : quanta? x = some a)
    (within : |a| < 2 ^ 63 * unit) :
    (Overshoots x → (roundHalfUp x).toInt = round (exactValue x) + 1) ∧
      (¬ Overshoots x → (roundHalfUp x).toInt = round (exactValue x)) := by
  obtain ⟨k, halves⟩ := exists_halves
  have one : 0 < (unit : ℤ) := unit_pos_int
  obtain ⟨positive, narrow⟩ := Halves.almost_mem k
  rw [halves.overshoots_iff value]
  by_cases fine : -2 ^ (106 + k) ≤ a ∧ a < 2 ^ (106 + k)
  · rw [halves.toInt_roundHalfUp_of_fine value fine.1 fine.2]
    have fractional : ¬ ∃ m : ℤ, a = m * unit ∧ m % 2 = 1 ∧ 2 ^ 52 < |m| ∧ |m| < 2 ^ 53 := by
      rintro ⟨m, rfl, -, above, -⟩
      rw [halves.range_eq, ← neg_mul] at fine
      have lower : -2 ^ 52 ≤ m := le_of_mul_le_mul_right fine.1 one
      have upper : m < 2 ^ 52 := lt_of_mul_lt_mul_right fine.2 one.le
      rw [lt_abs] at above
      omega
    rw [or_iff_left fractional]
    constructor
    · intro last
      rw [if_pos last]
    · intro other
      rw [if_neg other, add_zero]
  · obtain ⟨m, rfl, large⟩ := halves.exists_whole value (by rw [le_abs]; omega)
    have small : |m| < 2 ^ 63 := by
      rw [abs_mul, abs_of_pos one] at within
      exact lt_of_mul_lt_mul_right within one.le
    have whole : round (exactValue x) = m := by
      rw [(exactValue_eq_intCast_iff value m).mpr rfl, round_intCast]
    have other : m * (unit : ℤ) ≠ 2 ^ (53 + k) - 2 ^ k := by
      have far : (2 : ℤ) ^ (53 + k) ≤ 2 ^ (106 + k) := pow_le_pow_right₀ one_le_two (by omega)
      intro same
      exact fine ⟨by omega, by omega⟩
    rw [halves.toInt_roundHalfUp_of_whole value large small, whole, or_iff_right other]
    constructor
    · rintro ⟨n, same, odd, -, few⟩
      obtain rfl : m = n := mul_right_cancel₀ one.ne' same
      rw [if_pos few, odd]
    · intro regular
      split
      · next few =>
          have even : m % 2 = 0 := by
            by_contra odd
            have inside : 2 ^ 52 < |m| := by
              refine large.lt_of_ne fun edge => ?_
              rcases abs_choice m with sign | sign <;> omega
            exact regular ⟨m, rfl, by omega, inside, few⟩
          rw [even, add_zero]
      · exact add_zero m

/-- From `2 ^ 63` on the greatest 64-bit integer is all there is. -/
theorem roundHalfUp_of_le (le : 9223372036854775808 ≤ x) : roundHalfUp x = Int64.maxValue := by
  have least : (roundHalfUp 9223372036854775808).toInt = 9223372036854775807 := by decide +kernel
  have greatest := (roundHalfUp x).toInt_le
  have order := roundHalfUp_mono le
  apply Int64.toInt_inj.mp
  rw [least] at order
  exact le_antisymm greatest order

/-- Down from `-2 ^ 63` the least one is. -/
theorem roundHalfUp_of_ge (le : x ≤ -9223372036854775808) : roundHalfUp x = Int64.minValue := by
  have greatest : (roundHalfUp (-9223372036854775808)).toInt = -9223372036854775808 := by
    decide +kernel
  have least := (roundHalfUp x).le_toInt
  have order := roundHalfUp_mono le
  apply Int64.toInt_inj.mp
  rw [greatest] at order
  exact le_antisymm order least

theorem roundHalfUp_of_isNaN (notNumber : x.isNaN = true) : roundHalfUp x = 0 := by
  have sum : ofFloat (x + 0.5) = .nan := by
    rw [ofFloat_add, (isNaN_iff x).mp notNumber]
    rfl
  unfold roundHalfUp floorToInt64
  rw [sum]
  rfl

theorem abs_exactValue_lt_iff (value : quanta? x = some a) :
    |exactValue x| < 2 ^ 63 ↔ |a| < 2 ^ 63 * unit := by
  rw [exactValue_of_quanta? value, abs_div, abs_of_pos unit_pos, div_lt_iff₀ unit_pos]
  exact_mod_cast Iff.rfl

/--
Within the 64-bit range there is exactly one nearest integer, of two equally near ones the
greater.  A double is rounded to it, unless it overshoots: then it is rounded to the next one.  So
a whole number stays as it is just if it does not overshoot.  From the ends of the range on the
bound of the matching sign is what is left, what is not a number becomes zero, and the order is
kept everywhere.
-/
theorem roundHalfUp_nearest_or_next (x : Float) :
    (x.isFinite = true → |exactValue x| < 2 ^ 63 →
      (∃ n : ℤ,
        HalfUp (exactValue x) n ∧
        (∀ other, HalfUp (exactValue x) other → other = n) ∧
        (¬ Overshoots x → (roundHalfUp x).toInt = n) ∧
        (Overshoots x → (roundHalfUp x).toInt = n + 1)) ∧
      ∀ m : ℤ, exactValue x = m → ((roundHalfUp x).toInt = m ↔ ¬ Overshoots x)) ∧
    (9223372036854775808 ≤ x → roundHalfUp x = Int64.maxValue) ∧
    (x ≤ -9223372036854775808 → roundHalfUp x = Int64.minValue) ∧
    (x.isNaN = true → roundHalfUp x = 0) ∧
    ∀ y, x ≤ y → roundHalfUp x ≤ roundHalfUp y := by
  refine ⟨fun finite within => ?_, roundHalfUp_of_le, roundHalfUp_of_ge, roundHalfUp_of_isNaN,
    fun y le => Int64.le_iff_toInt_le.mpr (roundHalfUp_mono le)⟩
  obtain ⟨a, value⟩ := (isFinite_iff x).mp finite
  obtain ⟨next, nearest⟩ := toInt_roundHalfUp value ((abs_exactValue_lt_iff value).mp within)
  refine ⟨⟨round (exactValue x), halfUp_iff.mpr rfl, fun other rounded => ?_, nearest, next⟩,
    fun m whole => ?_⟩
  · exact (halfUp_iff.mp rounded).symm
  · rw [whole, round_intCast] at next nearest
    refine ⟨fun same overshoots => ?_, nearest⟩
    have := next overshoots
    omega

/-- The double just below one half is rounded to one, and a whole number to the next one. -/
theorem roundHalfUp_of_just_below_half :
    let x : Float := 0.49999999999999994
    let y : Float := 4503599627370497
    (x.isFinite = true ∧ |exactValue x| < 2 ^ 63 ∧ x ≤ y) ∧
    (Overshoots x ∧ HalfUp (exactValue x) 0 ∧ (roundHalfUp x).toInt = 1) ∧
    (Overshoots y ∧ exactValue y = (4503599627370497 : ℤ) ∧
      (roundHalfUp y).toInt ≠ 4503599627370497) ∧
    roundHalfUp x ≤ roundHalfUp y ∧
    roundHalfUp 1e300 = Int64.maxValue ∧
    roundHalfUp (-1 / 0) = Int64.minValue ∧
    roundHalfUp (0 / 0) = 0 := by
  intro x y
  have finite : x.isFinite = true ∧ y.isFinite = true := by decide +kernel
  have within : |exactValue x| < 2 ^ 63 ∧ |exactValue y| < 2 ^ 63 := by decide +kernel
  have order : x ≤ y := by decide +kernel
  have rounded : HalfUp (exactValue x) 0 := ⟨by decide +kernel, by decide +kernel⟩
  have whole : exactValue y = (4503599627370497 : ℤ) := by decide +kernel
  have xOvershoots : Overshoots x := .inl rfl
  have yOvershoots : Overshoots y := .inr ⟨_, whole, by norm_num, by norm_num, by norm_num⟩
  obtain ⟨xFinite, -, -, -, kept⟩ := roundHalfUp_nearest_or_next x
  obtain ⟨n, -, only, -, next⟩ := (xFinite finite.1 within.1).1
  obtain rfl : 0 = n := only 0 rounded
  have moved := ((roundHalfUp_nearest_or_next y).1 finite.2 within.2).2 _ whole
  refine ⟨⟨finite.1, within.1, order⟩, ⟨xOvershoots, rounded, next xOvershoots⟩,
    ⟨yOvershoots, whole, fun same => moved.mp same yOvershoots⟩, kept y order, ?_, ?_, ?_⟩
  · exact (roundHalfUp_nearest_or_next 1e300).2.1 (by decide +kernel)
  · exact (roundHalfUp_nearest_or_next (-1 / 0)).2.2.1 (by decide +kernel)
  · exact (roundHalfUp_nearest_or_next (0 / 0)).2.2.2.1 (by decide +kernel)

end Doubles
end Binary64
end WindsAloft
