import WindsAloft.Proofs.Binary64.Whole

/-!
# A product divided again

Multiplying a double by another one and dividing by it again rounds twice, and
the second rounding need not make up for the first.  This module says how far the
result is from the double one started with: never further than the next double,
and not at all exactly when the product was rounded by less than half that distance
times the factor.

Everything is shown of magnitudes first.  The factor is a whole number `n` there,
so that the product of `m` quanta by it is a whole number of quanta as well.
-/

namespace WindsAloft
namespace Binary64

theorem halfEven_eq {q : ℚ} {n : ℕ} (close : |q - n| < 1 / 2) : halfEven q = n := by
  obtain ⟨lower, upper⟩ := abs_lt.mp close
  have above : n < ⌊q⌋₊ + 2 := by
    have := Nat.lt_floor_add_one q
    exact_mod_cast (by linarith : (n : ℚ) < ⌊q⌋₊ + 2)
  refine le_antisymm (halfEven_le (by linarith)) ?_
  rcases Nat.lt_or_ge ⌊q⌋₊ n with below | reached
  · -- The floor is one less, and what is above it is more than one half.
    have floor : n = ⌊q⌋₊ + 1 := by omega
    have more : (1 : ℚ) / 2 < q - ⌊q⌋₊ := by
      rw [floor] at lower
      push_cast at lower
      linarith
    unfold halfEven
    rw [if_neg more.not_gt, if_pos more]
    exact floor.le
  · exact reached.trans (floor_le_halfEven q)

theorem abs_halfEven_sub_le {q : ℚ} (nonnegative : 0 ≤ q) : |(halfEven q : ℚ) - q| ≤ 1 / 2 := by
  have lower := Nat.floor_le nonnegative
  have upper := Nat.lt_floor_add_one q
  rw [abs_le]
  unfold halfEven
  split_ifs with less more
  · constructor <;> linarith
  · push_cast
    constructor <;> linarith
  · have least : (0 : ℚ) ≤ (⌊q⌋₊ % 2 : ℕ) := Nat.cast_nonneg _
    have greatest : ((⌊q⌋₊ % 2 : ℕ) : ℚ) ≤ 1 := by
      exact_mod_cast Nat.lt_succ_iff.mp (Nat.mod_lt _ two_pos)
    rw [Nat.cast_add]
    constructor <;> linarith

section Scale

variable {k : ℕ} {q : ℚ}

/-- Rounding moves a number by no more than half the distance of the doubles around it. -/
theorem abs_nearest_sub_le (scale : InScale k q) (nonnegative : 0 ≤ q) :
    |(nearest q : ℚ) - q| ≤ 2 ^ k / 2 := by
  have distance : (0 : ℚ) < 2 ^ k := by positivity
  have step := abs_halfEven_sub_le (div_nonneg nonnegative distance.le)
  calc
    |(nearest q : ℚ) - q| = |(halfEven (q / 2 ^ k) : ℚ) - q / 2 ^ k| * 2 ^ k := by
      rw [nearest_eq scale, ← abs_of_pos distance, ← abs_mul, abs_of_pos distance, sub_mul,
        div_mul_cancel₀ _ distance.ne', Nat.cast_mul, Nat.cast_pow, Nat.cast_ofNat]
    _ ≤ 1 / 2 * 2 ^ k := mul_le_mul_of_nonneg_right step distance.le
    _ = 2 ^ k / 2 := by ring

/-- What is nearer to a double than half the distance is rounded to it. -/
theorem nearest_eq_of_close
    {n : ℕ}
    (scale : InScale k q)
    (divides : 2 ^ k ∣ n)
    (close : |q - n| < 2 ^ k / 2) :
    nearest q = n := by
  have distance : (0 : ℚ) < 2 ^ k := by positivity
  obtain ⟨c, rfl⟩ := divides
  have near : |q / 2 ^ k - c| < 1 / 2 := by
    have whole : q / 2 ^ k - c = (q - (2 ^ k * c : ℕ)) / 2 ^ k := by
      push_cast
      field_simp
    rw [whole, abs_div, abs_of_pos distance, div_lt_iff₀ distance]
    linarith
  rw [nearest_eq scale, halfEven_eq near, Nat.mul_comm]

/-- Rounding keeps the powers of two that divide a number. -/
theorem pow_dvd_nearest {i n : ℕ} (divides : 2 ^ i ∣ n) : 2 ^ i ∣ nearest n := by
  obtain ⟨k, scale⟩ := exists_inScale (n : ℚ)
  rcases Nat.le_total i k with coarse | fine
  · rw [nearest_eq scale]
    exact Dvd.dvd.mul_left (pow_dvd_pow 2 coarse) _
  · rwa [nearest_of_dvd ((pow_dvd_pow 2 fine).trans divides) scale]

end Scale

/-- A magnitude multiplied by a whole number, and rounded. -/
def multiplied (m n : ℕ) : ℕ :=
  nearest (m * n : ℕ)

/-- A magnitude multiplied by a whole number and divided by it again, rounded each time. -/
def restored (m n : ℕ) : ℕ :=
  nearest (multiplied m n / n)

section Restored

variable {m n k : ℕ}

theorem exists_eq_pow_mul (representable : Representable m) (scale : InScale k (m : ℚ)) :
    ∃ c < 2 ^ 53, m = 2 ^ k * c := by
  obtain ⟨c, rfl⟩ := representable.dvd scale
  have upper : 2 ^ k * c < 2 ^ k * 2 ^ 53 := by
    rw [← pow_add, Nat.add_comm k]
    exact_mod_cast scale.1
  exact ⟨c, Nat.lt_of_mul_lt_mul_left upper, rfl⟩

theorem add_distance_le (representable : Representable m) (scale : InScale k (m : ℚ)) :
    m + 2 ^ k ≤ 2 ^ (53 + k) := by
  obtain ⟨c, small, rfl⟩ := exists_eq_pow_mul representable scale
  rw [Nat.add_comm 53, pow_add, ← Nat.mul_succ]
  exact Nat.mul_le_mul_left _ small

/-- The next double of either side. -/
theorem representable_neighbours
    (representable : Representable m)
    (scale : InScale k (m : ℚ)) :
    Representable (m - 2 ^ k) ∧ Representable (m + 2 ^ k) := by
  obtain ⟨c, small, rfl⟩ := exists_eq_pow_mul representable scale
  constructor
  · refine ⟨c - 1, k, by omega, ?_⟩
    rw [Nat.sub_mul, Nat.one_mul, Nat.mul_comm]
  · rcases (Nat.succ_le_of_lt small).lt_or_eq with below | last
    · exact ⟨c + 1, k, below, by ring⟩
    · have power : 2 ^ k * c + 2 ^ k = 2 ^ (53 + k) := by
        rw [pow_add, ← last, Nat.succ_eq_add_one]
        ring
      rw [power]
      exact representable_pow (53 + k)

/-- A product is rounded by at most the distance at one factor, times the other. -/
theorem abs_multiplied_sub_le (scale : InScale k (m : ℚ)) (positive : 0 < n) :
    |(multiplied m n : ℚ) - m * n| ≤ n * 2 ^ k := by
  obtain ⟨l, productScale⟩ := exists_inScale ((m * n : ℕ) : ℚ)
  have rounding := abs_nearest_sub_le productScale (Nat.cast_nonneg _)
  rw [← multiplied, Nat.cast_mul] at rounding
  have distance : (2 : ℚ) ^ l / 2 ≤ n * 2 ^ k := by
    have atLeast : (1 : ℚ) ≤ n := by exact_mod_cast positive
    rcases productScale.2 with rfl | large
    · have one : (1 : ℚ) ≤ 2 ^ k := one_le_pow₀ one_le_two
      linarith [one_le_mul_of_one_le_of_one_le atLeast one]
    · have below : (2 : ℚ) ^ (52 + l) ≤ 2 ^ (53 + k) * n := by
        rw [Nat.cast_mul] at large
        exact large.trans (mul_le_mul_of_nonneg_right scale.1.le (Nat.cast_nonneg n))
      rw [pow_add, pow_add] at below
      linarith
  exact rounding.trans distance

/-- What comes out is at most one double away from what went in. -/
theorem abs_restored_sub_le
    (representable : Representable m)
    (scale : InScale k (m : ℚ))
    (positive : 0 < n) :
    |(restored m n : ℚ) - m| ≤ 2 ^ k := by
  have divisor : (0 : ℚ) < n := by exact_mod_cast positive
  obtain ⟨lower, upper⟩ := abs_le.mp (abs_multiplied_sub_le scale positive)
  obtain ⟨before, after⟩ := representable_neighbours representable scale
  have above : restored m n ≤ m + 2 ^ k := by
    rw [← nearest_natCast after]
    refine nearest_mono ?_
    rw [div_le_iff₀ divisor]
    push_cast
    linarith
  have below : m - 2 ^ k ≤ restored m n := by
    rw [← nearest_natCast before]
    refine nearest_mono ?_
    rw [le_div_iff₀ divisor]
    rcases Nat.le_total m (2 ^ k) with small | large
    · rw [Nat.sub_eq_zero_of_le small, Nat.cast_zero, zero_mul]
      exact Nat.cast_nonneg _
    · rw [Nat.cast_sub large]
      push_cast
      linarith
  rw [abs_le]
  constructor
  · have : m ≤ restored m n + 2 ^ k := by omega
    have : (m : ℚ) ≤ restored m n + 2 ^ k := by exact_mod_cast this
    linarith
  · have : (restored m n : ℚ) ≤ m + 2 ^ k := by exact_mod_cast above
    linarith

/-- The quotient does not fall below the power of two at which the distances change. -/
theorem inScale_quotient
    (factor : Representable n)
    (positive : 0 < n)
    (scale : InScale k (m : ℚ))
    (below : (multiplied m n / n : ℚ) < 2 ^ (53 + k)) :
    InScale k (multiplied m n / n : ℚ) := by
  refine ⟨below, scale.2.imp_right fun large => ?_⟩
  -- That power times the factor is a double, and the product is not less.
  obtain ⟨c, j, small, rfl⟩ := factor
  have double : Representable (2 ^ (52 + k) * (c * 2 ^ j)) :=
    ⟨c, 52 + k + j, small, by rw [pow_add 2 (52 + k)]; ring⟩
  have order : 2 ^ (52 + k) * (c * 2 ^ j) ≤ multiplied m (c * 2 ^ j) := by
    rw [← nearest_natCast double]
    refine nearest_mono ?_
    rw [Nat.cast_mul, Nat.cast_mul m, Nat.cast_pow, Nat.cast_ofNat]
    exact mul_le_mul_of_nonneg_right large (Nat.cast_nonneg _)
  rw [le_div_iff₀ (by exact_mod_cast positive)]
  exact_mod_cast order

/-- The product is never rounded by exactly half the distance at a factor, times the other. -/
theorem two_mul_abs_multiplied_sub_ne
    (representable : Representable m)
    (scale : InScale k (m : ℚ))
    (positive : 0 < n) :
    2 * |(multiplied m n : ℤ) - (m * n : ℕ)| ≠ n * 2 ^ k := by
  intro tie
  -- Both the product and what it is rounded to have more twos than such a difference.
  obtain ⟨j, odd, isOdd, rfl⟩ := Nat.exists_eq_two_pow_mul_odd positive.ne'
  have divides : 2 ^ (k + j) ∣ m * (2 ^ j * odd) := by
    rw [pow_add, ← Nat.mul_assoc]
    exact Dvd.dvd.mul_right (Nat.mul_dvd_mul_right (representable.dvd scale) _) odd
  obtain ⟨r, product⟩ := divides
  obtain ⟨p, result⟩ := pow_dvd_nearest (Dvd.intro r product.symm)
  have twos : (0 : ℤ) < 2 ^ (k + j) := by positivity
  rw [multiplied, result, product] at tie
  push_cast at tie
  rw [← mul_sub, abs_mul, abs_of_pos twos] at tie
  have even : 2 * |(p : ℤ) - r| = odd := by
    refine mul_left_cancel₀ twos.ne' ?_
    calc
      (2 : ℤ) ^ (k + j) * (2 * |(p : ℤ) - r|) = 2 * (2 ^ (k + j) * |(p : ℤ) - r|) := by ring
      _ = 2 ^ j * odd * 2 ^ k := tie
      _ = 2 ^ (k + j) * odd := by ring
  obtain ⟨half, parity⟩ := isOdd
  omega

theorem quotient_lt_of_restored_lt (small : restored m n < 2 ^ (53 + k)) :
    (multiplied m n / n : ℚ) < 2 ^ (53 + k) := by
  by_contra! great
  have order : 2 ^ (53 + k) ≤ restored m n := by
    rw [← nearest_natCast (representable_pow (53 + k))]
    exact nearest_mono (by exact_mod_cast great)
  exact absurd small order.not_gt

/-- What went in comes out exactly when the product is rounded by little enough. -/
theorem restored_eq_iff
    (representable : Representable m)
    (factor : Representable n)
    (scale : InScale k (m : ℚ))
    (positive : 0 < n) :
    restored m n = m ↔ |(multiplied m n : ℚ) - m * n| < n * 2 ^ k / 2 := by
  have divisor : (0 : ℚ) < n := by exact_mod_cast positive
  have step : |(multiplied m n / n : ℚ) - m| = |(multiplied m n : ℚ) - m * n| / n := by
    rw [← abs_of_pos divisor, ← abs_div, abs_of_pos divisor, sub_div,
      mul_div_cancel_right₀ _ divisor.ne']
  constructor
  · intro same
    have bound : restored m n < 2 ^ (53 + k) := by
      rw [same]
      exact_mod_cast scale.1
    have quotient :=
      inScale_quotient factor positive scale (quotient_lt_of_restored_lt bound)
    have rounding := abs_nearest_sub_le quotient (by positivity)
    rw [← restored, same, abs_sub_comm, step, div_le_iff₀ divisor] at rounding
    have atMost : |(multiplied m n : ℚ) - m * n| ≤ n * 2 ^ k / 2 := by linarith
    refine atMost.lt_of_ne fun tie => ?_
    refine two_mul_abs_multiplied_sub_ne representable scale positive ?_
    have doubled : 2 * |(multiplied m n : ℚ) - (m * n : ℕ)| = n * 2 ^ k := by
      rw [Nat.cast_mul, tie]
      ring
    exact_mod_cast doubled
  · intro close
    have near : |(multiplied m n / n : ℚ) - m| < 2 ^ k / 2 := by
      rw [step, div_lt_iff₀ divisor]
      linarith
    have below : (multiplied m n / n : ℚ) < 2 ^ (53 + k) := by
      have upper := (abs_lt.mp near).2
      have room : (m : ℚ) + 2 ^ k ≤ 2 ^ (53 + k) := by
        exact_mod_cast add_distance_le representable scale
      have distance : (0 : ℚ) < 2 ^ k := by positivity
      linarith
    exact nearest_eq_of_close (inScale_quotient factor positive scale below)
      (representable.dvd scale) near

end Restored

attribute [local irreducible] unit overflow

section Whole

theorem Representable.of_mul_pow {n k : ℕ} (representable : Representable (n * 2 ^ k)) :
    Representable n := by
  obtain ⟨m, j, small, same⟩ := representable
  rcases Nat.le_total k j with coarse | fine
  · refine ⟨m, j - k, small, ?_⟩
    refine Nat.mul_right_cancel (Nat.two_pow_pos k) ?_
    rw [same, Nat.mul_assoc, ← pow_add, Nat.sub_add_cancel coarse]
  · refine ⟨n, 0, ?_, by rw [pow_zero, Nat.mul_one]⟩
    have power : 2 ^ k = 2 ^ (k - j) * 2 ^ j := by rw [← pow_add, Nat.sub_add_cancel fine]
    rw [power, ← Nat.mul_assoc] at same
    rw [← Nat.mul_right_cancel (Nat.two_pow_pos j) same] at small
    exact (Nat.le_mul_of_pos_right n (Nat.two_pow_pos _)).trans_lt small

/-- The double nearest to a positive 64-bit integer is a whole number. -/
theorem exists_quanta?_ofInt64_whole {w : Int64} (positive : 0 < w.toInt) :
    ∃ n : ℕ, 0 < n ∧ Representable n ∧ quanta? (ofInt64 w) = some ((n * unit : ℕ) : ℤ) := by
  obtain ⟨c, value, least⟩ := exists_quanta?_ofInt64_pos positive
  have magnitude : c = nearest (w.toInt.toNat * unit : ℕ) := by
    have exact : ((w.toInt.toNat * unit : ℕ) : ℚ) = w.toInt * unit := by
      rw [Nat.cast_mul, ← Int.cast_natCast, Int.toNat_of_nonneg positive.le]
    have rounding := value
    unfold ofInt64 at rounding
    rw [quanta?_ofInt, ← exact, near_of_nonneg (Nat.cast_nonneg _)] at rounding
    exact eq_of_limit? rounding
  obtain ⟨k, -, power⟩ := exists_unit_eq_pow
  replace power : unit = 2 ^ k := power
  have divides : 2 ^ k ∣ nearest (w.toInt.toNat * unit : ℕ) :=
    pow_dvd_nearest (power ▸ Dvd.intro_left _ rfl)
  obtain ⟨n, whole⟩ := divides
  have quanta : c = ((n * unit : ℕ) : ℤ) := by rw [magnitude, whole, power, Nat.mul_comm]
  have double := (isDouble_of_quanta? value).1
  rw [quanta, Int.natAbs_natCast, power] at double
  refine ⟨n, ?_, double.of_mul_pow, by rw [value, quanta]⟩
  refine Nat.pos_of_ne_zero ?_
  rintro rfl
  have one : (0 : ℤ) < unit := unit_pos_int
  omega

end Whole

section Doubles

variable {x y : Float} {s : Bool} {m n : ℕ}

theorem quanta?_mul_whole
    (left : quanta? x = some (signed s m))
    (right : quanta? y = some ((n * unit : ℕ) : ℤ))
    (finite : (x * y).isFinite = true) :
    quanta? (x * y) = some (signed s (multiplied m n)) := by
  obtain ⟨c, value⟩ := (isFinite_iff _).mp finite
  have exact : ((signed s m : ℤ) : ℚ) * ((n * unit : ℕ) : ℤ) / unit =
      if s then -((m * n : ℕ) : ℚ) else (m * n : ℕ) := by
    rw [cast_signed, Int.cast_natCast, Nat.cast_mul n, ← mul_assoc,
      mul_div_cancel_right₀ _ unit_pos.ne', Nat.cast_mul]
    cases s <;> simp
  have rounding := value
  rw [quanta?_mul left right, exact, near_ite_neg s (Nat.cast_nonneg _)] at rounding
  rw [value, eq_of_limit? rounding, multiplied]

theorem quanta?_div_whole
    (left : quanta? x = some (signed s m))
    (right : quanta? y = some ((n * unit : ℕ) : ℤ))
    (positive : 0 < n) :
    quanta? (x / y) = some (signed s (nearest (m / n))) := by
  have divisor : (0 : ℚ) < n := by exact_mod_cast positive
  have nonzero : ((n * unit : ℕ) : ℤ) ≠ 0 := by
    have one : (unit : ℚ) ≠ 0 := unit_pos.ne'
    exact_mod_cast mul_ne_zero divisor.ne' one
  have exact : ((signed s m : ℤ) : ℚ) * unit / ((n * unit : ℕ) : ℤ) =
      if s then -((m : ℚ) / n) else (m : ℚ) / n := by
    rw [cast_signed, Int.cast_natCast, Nat.cast_mul, mul_div_mul_right _ _ unit_pos.ne']
    cases s <;> simp [neg_div]
  have quotient : (0 : ℚ) ≤ m / n := by positivity
  -- Dividing by a whole number makes nothing greater, so the quotient is finite.
  have bound : |(if s then -((m : ℚ) / n) else (m : ℚ) / n)| ≤ |signed s m| := by
    have atLeast : (1 : ℚ) ≤ n := by exact_mod_cast positive
    have magnitude : |(if s then -((m : ℚ) / n) else (m : ℚ) / n)| = (m : ℚ) / n := by
      cases s <;> simp [abs_of_nonneg quotient]
    rw [magnitude, Int.abs_eq_natAbs, natAbs_signed, Int.cast_natCast]
    exact div_le_self (Nat.cast_nonneg m) atLeast
  obtain ⟨c, value, -⟩ := exists_limit?_near_of_abs_le (isDouble_of_quanta? left).abs bound
  rw [quanta?_div left right nonzero, exact, value, eq_of_limit? value, near_ite_neg s quotient]

/-- A finite double as an exact number; zero for the other doubles. -/
def exactValue (x : Float) : ℚ :=
  ((quanta? x).getD 0 : ℤ) / unit

/-- The distance from a finite double to the next one away from zero. -/
def ulp (x : Float) : ℚ :=
  (spacing ((quanta? x).getD 0).natAbs : ℚ) / unit

/--
What is left of a double after a multiplication and a division: itself or one of
the next doubles, and itself exactly when the rounding of the product is small.
-/
structure Restored (factor x y : Float) : Prop where
  isFinite : y.isFinite = true
  near : |exactValue y - exactValue x| ≤ ulp x
  same_iff :
    (y == x) = true ↔
      |exactValue (x * factor) - exactValue x * exactValue factor| <
        exactValue factor * ulp x / 2

theorem exactValue_signed (value : quanta? x = some (signed s m)) :
    exactValue x = (if s then -(m : ℚ) else m) / unit := by
  rw [exactValue, value, Option.getD_some, cast_signed]

theorem exactValue_whole (value : quanta? x = some ((n * unit : ℕ) : ℤ)) : exactValue x = n := by
  rw [exactValue, value, Option.getD_some, Int.cast_natCast, Nat.cast_mul,
    mul_div_cancel_right₀ _ unit_pos.ne']

theorem ulp_signed (value : quanta? x = some (signed s m)) : ulp x = (spacing m : ℚ) / unit := by
  rw [ulp, value, Option.getD_some, natAbs_signed]

theorem abs_ite_neg_sub (s : Bool) (p q : ℚ) :
    |(if s then -p else p) - (if s then -q else q)| = |p - q| := by
  cases s
  · rfl
  · simp only [if_true]
    rw [neg_sub_neg, abs_sub_comm]

/-- A finite double times a positive integer, divided by it again. -/
theorem restored_of_ofInt64
    {w : Int64}
    (positive : 0 < w.toInt)
    (finite : x.isFinite = true)
    (product : (x * ofInt64 w).isFinite = true) :
    Restored (ofInt64 w) x ((0 + x * ofInt64 w) / ofInt64 w) := by
  obtain ⟨n, nPositive, factor, wValue⟩ := exists_quanta?_ofInt64_whole positive
  obtain ⟨a, xValue⟩ := (isFinite_iff x).mp finite
  obtain ⟨s, m, -, rfl⟩ := exists_finite_of_quanta? xValue
  have representable := (isDouble_of_quanta? xValue).1
  rw [natAbs_signed] at representable
  obtain ⟨k, scale⟩ := exists_inScale (m : ℚ)
  have distance : spacing m = 2 ^ k := by rw [← spacing_of_inScale scale, Nat.floor_natCast]
  have pValue := quanta?_mul_whole xValue wValue product
  have yValue := quanta?_div_whole (quanta?_zero_add quanta?_zero pValue) wValue nPositive
  rw [← restored] at yValue
  have whole := exactValue_whole wValue
  refine ⟨(isFinite_iff _).mpr ⟨_, yValue⟩, ?_, ?_⟩
  · rw [exactValue_signed yValue, exactValue_signed xValue, ulp_signed xValue, distance,
      ← sub_div, abs_div, abs_of_pos unit_pos, abs_ite_neg_sub, Nat.cast_pow, Nat.cast_ofNat]
    exact div_le_div_of_nonneg_right (abs_restored_sub_le representable scale nPositive)
      unit_pos.le
  · have sides :
        |exactValue (x * ofInt64 w) - exactValue x * exactValue (ofInt64 w)| =
          |(multiplied m n : ℚ) - m * n| / unit := by
      rw [exactValue_signed pValue, exactValue_signed xValue, whole, div_mul_eq_mul_div,
        ← sub_div, abs_div, abs_of_pos unit_pos, ite_mul, neg_mul, abs_ite_neg_sub]
    have room : exactValue (ofInt64 w) * ulp x / 2 = n * 2 ^ k / 2 / unit := by
      rw [whole, ulp_signed xValue, distance, Nat.cast_pow, Nat.cast_ofNat]
      ring
    rw [sides, room, div_lt_div_iff_of_pos_right unit_pos,
      ← restored_eq_iff representable factor scale nPositive, beq_iff_quanta_eq yValue xValue]
    constructor
    · intro same
      rw [← natAbs_signed s (restored m n), same, natAbs_signed]
    · intro same
      rw [same]

end Doubles

end Binary64
end WindsAloft
