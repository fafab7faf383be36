import Mathlib.Data.Rat.Floor
import Mathlib.Tactic.Linarith
import Mathlib.Tactic.Positivity

/-!
# Rounding to the nearest double

Magnitudes are counted in quanta, as everywhere.  A double has 53 significant
bits, so that doubles lie one quantum apart up to `2 ^ 53` quanta and twice as far
apart with every further power of two.  `nearest` takes a rational number of
quanta to the multiple of that distance next to it, of two equally near ones to
the even multiple.  It keeps the order and leaves alone what is representable;
nearly everything that is said of double arithmetic elsewhere comes from these
two facts.
-/

namespace WindsAloft
namespace Binary64

/-- The natural number nearest to a rational, of two equally near ones the even one. -/
def halfEven (q : ℚ) : ℕ :=
  if q - ⌊q⌋₊ < 1 / 2 then ⌊q⌋₊
  else if 1 / 2 < q - ⌊q⌋₊ then ⌊q⌋₊ + 1
  else ⌊q⌋₊ + ⌊q⌋₊ % 2

theorem floor_le_halfEven (q : ℚ) : ⌊q⌋₊ ≤ halfEven q := by
  unfold halfEven
  split_ifs <;> omega

theorem halfEven_le_floor_add_one (q : ℚ) : halfEven q ≤ ⌊q⌋₊ + 1 := by
  unfold halfEven
  split_ifs <;> omega

theorem halfEven_natCast (n : ℕ) : halfEven n = n := by
  unfold halfEven
  rw [Nat.floor_natCast, sub_self, if_pos (by norm_num)]

theorem halfEven_mono {q r : ℚ} (le : q ≤ r) : halfEven q ≤ halfEven r := by
  rcases (Nat.floor_mono le).lt_or_eq with below | same
  · calc
      halfEven q ≤ ⌊q⌋₊ + 1 := halfEven_le_floor_add_one q
      _ ≤ ⌊r⌋₊ := below
      _ ≤ halfEven r := floor_le_halfEven r
  · unfold halfEven
    rw [same]
    split_ifs <;> first | omega | (exfalso; linarith)

/-- What lies nearer to a natural number than to the next one is not rounded beyond it. -/
theorem halfEven_le {q : ℚ} {n : ℕ} (below : q < n + 1 / 2) : halfEven q ≤ n := by
  have wholes : ⌊q⌋₊ ≤ n := by
    have : ⌊q⌋₊ < n + 1 := (Nat.floor_lt' n.succ_ne_zero).mpr (by push_cast; linarith)
    omega
  rcases wholes.lt_or_eq with less | same
  · exact (halfEven_le_floor_add_one q).trans less
  · unfold halfEven
    rw [same, if_pos (by linarith)]

theorem halfEven_add_half (n : ℕ) : halfEven (n + 1 / 2) = n + n % 2 := by
  have floor : ⌊(n + 1 / 2 : ℚ)⌋₊ = n := by
    rw [Nat.floor_eq_iff (by positivity)]
    constructor <;> linarith
  unfold halfEven
  rw [floor, if_neg (by linarith), if_neg (by linarith)]

/-- The distance between neighbouring doubles at a number of quanta. -/
def spacing (n : ℕ) : ℕ :=
  2 ^ (n.log2 - 52)

/-- The double nearest to a rational number of quanta. -/
def nearest (q : ℚ) : ℕ :=
  halfEven (q / spacing ⌊q⌋₊) * spacing ⌊q⌋₊

/-- Where the distance between doubles is `2 ^ k`. -/
def InScale (k : ℕ) (q : ℚ) : Prop :=
  q < 2 ^ (53 + k) ∧ (k = 0 ∨ 2 ^ (52 + k) ≤ q)

theorem spacing_of_inScale {k : ℕ} {q : ℚ} (scale : InScale k q) :
    spacing ⌊q⌋₊ = 2 ^ k := by
  obtain ⟨upper, lower⟩ := scale
  have below : ⌊q⌋₊ < 2 ^ (53 + k) := by
    rcases lt_or_ge q 0 with negative | nonnegative
    · rw [Nat.floor_of_nonpos negative.le]
      positivity
    · rw [Nat.floor_lt nonnegative]
      exact_mod_cast upper
  unfold spacing
  congr 1
  rcases lower with rfl | lower
  · have small : ⌊q⌋₊.log2 < 53 := by
      rcases Nat.eq_zero_or_pos ⌊q⌋₊ with zero | positive
      · rw [zero]
        decide
      · exact (Nat.log2_lt positive.ne').mpr below
    omega
  · have above : 2 ^ (52 + k) ≤ ⌊q⌋₊ := by
      apply Nat.le_floor
      exact_mod_cast lower
    have nonzero : ⌊q⌋₊ ≠ 0 := (lt_of_lt_of_le (by positivity) above).ne'
    have exact : ⌊q⌋₊.log2 = 52 + k := by
      rw [Nat.log2_eq_iff nonzero]
      exact ⟨above, by rwa [show 52 + k + 1 = 53 + k by omega]⟩
    omega

theorem exists_inScale (q : ℚ) : ∃ k, InScale k q := by
  refine ⟨⌊q⌋₊.log2 - 52, ?_, ?_⟩
  · calc
      q < (⌊q⌋₊ + 1 : ℚ) := Nat.lt_floor_add_one q
      _ ≤ ((2 ^ (⌊q⌋₊.log2 + 1) : ℕ) : ℚ) := by
        exact_mod_cast Nat.lt_log2_self
      _ ≤ 2 ^ (53 + (⌊q⌋₊.log2 - 52)) := by
        rw [Nat.cast_pow]
        exact pow_le_pow_right₀ (by norm_num) (by omega)
  · rcases Nat.lt_or_ge ⌊q⌋₊.log2 53 with small | large
    · left
      omega
    · right
      have nonzero : ⌊q⌋₊ ≠ 0 := by
        intro zero
        rw [zero] at large
        exact absurd large (by decide)
      have nonnegative : 0 ≤ q := by
        by_contra negative
        exact nonzero (Nat.floor_of_nonpos (le_of_not_ge negative))
      have lower : 2 ^ ⌊q⌋₊.log2 ≤ ⌊q⌋₊ := Nat.log2_self_le nonzero
      rw [show 52 + (⌊q⌋₊.log2 - 52) = ⌊q⌋₊.log2 by omega]
      calc
        (2 : ℚ) ^ ⌊q⌋₊.log2 ≤ (⌊q⌋₊ : ℚ) := by exact_mod_cast lower
        _ ≤ q := Nat.floor_le nonnegative

theorem nearest_eq {k : ℕ} {q : ℚ} (scale : InScale k q) :
    nearest q = halfEven (q / 2 ^ k) * 2 ^ k := by
  unfold nearest
  rw [spacing_of_inScale scale]
  push_cast
  rfl

/-- At most 53 bits are left of a magnitude in units of its distance. -/
theorem halfEven_le_of_inScale {k : ℕ} {q : ℚ} (scale : InScale k q) :
    halfEven (q / 2 ^ k) ≤ 2 ^ 53 := by
  have below : q / 2 ^ k ≤ ((2 ^ 53 : ℕ) : ℚ) := by
    rw [div_le_iff₀ (by positivity), Nat.cast_pow, Nat.cast_ofNat, ← pow_add]
    exact scale.1.le
  simpa only [halfEven_natCast] using halfEven_mono below

/-- Beyond the least distance, no fewer than 53 bits are left. -/
theorem le_halfEven_of_inScale {k : ℕ} {q : ℚ} (large : 2 ^ (52 + k) ≤ q) :
    2 ^ 52 ≤ halfEven (q / 2 ^ k) := by
  have above : ((2 ^ 52 : ℕ) : ℚ) ≤ q / 2 ^ k := by
    rw [le_div_iff₀ (by positivity), Nat.cast_pow, Nat.cast_ofNat, ← pow_add]
    exact large
  simpa only [halfEven_natCast] using halfEven_mono above

/-- Rounding keeps the order. -/
theorem nearest_mono {q r : ℚ} (le : q ≤ r) : nearest q ≤ nearest r := by
  obtain ⟨k, scaleLeft⟩ := exists_inScale q
  obtain ⟨l, scaleRight⟩ := exists_inScale r
  rw [nearest_eq scaleLeft, nearest_eq scaleRight]
  rcases lt_trichotomy k l with below | rfl | above
  · have large : 2 ^ (52 + l) ≤ r := scaleRight.2.resolve_left (by omega)
    calc
      halfEven (q / 2 ^ k) * 2 ^ k ≤ 2 ^ 53 * 2 ^ k :=
        Nat.mul_le_mul_right _ (halfEven_le_of_inScale scaleLeft)
      _ = 2 ^ (53 + k) := (pow_add 2 53 k).symm
      _ ≤ 2 ^ (52 + l) := Nat.pow_le_pow_right (by norm_num) (by omega)
      _ = 2 ^ 52 * 2 ^ l := pow_add 2 52 l
      _ ≤ halfEven (r / 2 ^ l) * 2 ^ l :=
        Nat.mul_le_mul_right _ (le_halfEven_of_inScale large)
  · apply Nat.mul_le_mul_right
    apply halfEven_mono
    exact div_le_div_of_nonneg_right le (by positivity)
  · exfalso
    have large : 2 ^ (52 + k) ≤ q := scaleLeft.2.resolve_left (by omega)
    have step : (2 : ℚ) ^ (53 + l) ≤ 2 ^ (52 + k) :=
      pow_le_pow_right₀ (by norm_num) (by omega)
    have upper := scaleRight.1
    linarith

/-- A number of quanta with at most 53 significant bits. -/
def Representable (n : ℕ) : Prop :=
  ∃ m k, m < 2 ^ 53 ∧ n = m * 2 ^ k

/-- Powers of two around a number are in order. -/
theorem exponent_lt {i j m : ℕ} (lower : 2 ^ i ≤ m) (upper : m < 2 ^ j) : i < j :=
  (Nat.pow_lt_pow_iff_right one_lt_two).mp (lower.trans_lt upper)

/-- What is representable is a multiple of the distance where it lies. -/
theorem Representable.dvd {k n : ℕ} (representable : Representable n) (scale : InScale k n) :
    2 ^ k ∣ n := by
  obtain ⟨m, j, small, rfl⟩ := representable
  rcases scale.2 with rfl | large
  · exact one_dvd _
  · have below : m * 2 ^ j < 2 ^ (53 + j) := by
      rw [pow_add 2 53 j]
      exact Nat.mul_lt_mul_of_pos_right small (by positivity)
    have atLeast : k ≤ j := by
      have := exponent_lt (by exact_mod_cast large) below
      omega
    exact Dvd.dvd.mul_left (pow_dvd_pow 2 atLeast) m

/-- A multiple of the distance needs no rounding. -/
theorem nearest_of_dvd {k n : ℕ} (divides : 2 ^ k ∣ n) (scale : InScale k n) : nearest n = n := by
  obtain ⟨c, rfl⟩ := divides
  rw [nearest_eq scale]
  have whole : ((2 ^ k * c : ℕ) : ℚ) / 2 ^ k = (c : ℚ) := by
    push_cast
    field_simp
  rw [whole, halfEven_natCast, Nat.mul_comm]

/-- What is representable needs no rounding. -/
theorem nearest_natCast {n : ℕ} (representable : Representable n) : nearest n = n := by
  obtain ⟨k, scale⟩ := exists_inScale (n : ℚ)
  exact nearest_of_dvd (representable.dvd scale) scale

theorem representable_pow (k : ℕ) : Representable (2 ^ k) :=
  ⟨1, k, by norm_num, (one_mul _).symm⟩

/-- Multiples of a power of two are representable up to the greatest mantissa and one more. -/
theorem representable_of_le {n : ℕ} (le : n ≤ 2 ^ 53) (k : ℕ) : Representable (n * 2 ^ k) := by
  rcases le.lt_or_eq with small | rfl
  · exact ⟨n, k, small, rfl⟩
  · rw [← pow_add]
    exact representable_pow (53 + k)

/-- What is not below a number of 53 bits times a power of two is a multiple of that power. -/
theorem Representable.dvd_of_le
    {j m : ℕ}
    (representable : Representable m)
    (large : 2 ^ (52 + j) ≤ m) :
    2 ^ j ∣ m := by
  obtain ⟨l, scale⟩ := exists_inScale (m : ℚ)
  have atLeast : j ≤ l := by
    have := exponent_lt large (by exact_mod_cast scale.1)
    omega
  exact (pow_dvd_pow 2 atLeast).trans (representable.dvd scale)

/-- Above a multiple of the distance the next double is one distance away. -/
theorem Representable.add_pow_le_of_lt
    {j m n : ℕ}
    (representable : Representable m)
    (divides : 2 ^ j ∣ n)
    (large : 2 ^ (52 + j) ≤ n)
    (above : n < m) :
    n + 2 ^ j ≤ m :=
  Nat.le_of_lt_add_of_dvd (Nat.add_lt_add_right above _) (Nat.dvd_add divides dvd_rfl)
    (representable.dvd_of_le (large.trans above.le))

end Binary64
end WindsAloft
