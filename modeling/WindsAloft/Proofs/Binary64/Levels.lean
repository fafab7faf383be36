import WindsAloft.Proofs.Binary64.Whole

/-!
# Doubles on one scale

The order of doubles takes in the infinities, and so do the operations that keep
it.  To follow the order through a result that may be too great, an infinity is
placed where the finite doubles end.  On that scale adding a finite double,
multiplying by one and dividing by one keep the order, and so does the rounding to
integers, which ends at bounds of its own.
-/

namespace WindsAloft
namespace Binary64

attribute [local irreducible] unit overflow

/-- The place of a double on the scale; what is not a number has none and is put at zero. -/
def level : Binary64 → ℤ
  | .nan => 0
  | .infinite s => signed s overflow
  | .finite s m => signed s m

@[simp] theorem level_infinite_true : level (.infinite true) = -overflow :=
  rfl

@[simp] theorem level_infinite_false : level (.infinite false) = overflow :=
  rfl

/-- A number of quanta that is kept on the scale. -/
def confined (n : ℤ) : ℤ :=
  max (-overflow) (min overflow n)

theorem confined_mono {m n : ℤ} (le : m ≤ n) : confined m ≤ confined n := by
  unfold confined
  omega

theorem level_rounded (s : Bool) {q : ℚ} (nonnegative : 0 ≤ q) :
    (rounded s q).level = confined (near (if s then -q else q)) := by
  rw [near_ite_neg s nonnegative, rounded, limited, confined]
  by_cases small : nearest q < overflow
  · rw [if_pos small]
    cases s <;> simp only [level, signed, if_true, Bool.false_eq_true, if_false] <;> omega
  · rw [if_neg small]
    cases s <;> simp only [level, signed, if_true, Bool.false_eq_true, if_false] <;> omega

theorem rounded_ne_nan (s : Bool) (q : ℚ) : rounded s q ≠ .nan := by
  unfold rounded limited
  split <;> exact nofun

section Order

variable {x y : Float} {a b : ℤ}

theorem level_of_quanta? (value : quanta? x = some a) : (ofFloat x).level = a := by
  obtain ⟨s, m, number, rfl⟩ := exists_finite_of_quanta? value
  rw [number]
  rfl

theorem quanta?_of_isFinite (finite : x.isFinite = true) : quanta? x = some (ofFloat x).level := by
  obtain ⟨a, value⟩ := (isFinite_iff x).mp finite
  rw [level_of_quanta? value, value]

theorem ne_nan_of_quanta? (value : quanta? x = some a) : ofFloat x ≠ .nan := by
  obtain ⟨s, m, number, -⟩ := exists_finite_of_quanta? value
  rw [number]
  exact nofun

/-- What is a number is finite or one of the infinities. -/
theorem exists_infinite_or_quanta? (number : ofFloat x ≠ .nan) :
    (∃ s, ofFloat x = .infinite s) ∨ ∃ a, quanta? x = some a := by
  cases known : ofFloat x with
  | nan => exact absurd known number
  | infinite s => exact .inl ⟨s, rfl⟩
  | finite s m =>
      exact .inr ⟨_, quanta?_of_finite known⟩

theorem quanta_bounds (value : quanta? x = some a) : -overflow < a ∧ a < overflow := by
  have := (isDouble_of_quanta? value).2
  omega

/-- A double is not moved by rounding, nor by keeping it on the scale. -/
theorem confined_near (value : quanta? x = some a) : confined (near a) = a := by
  have inside := quanta_bounds value
  rw [near_intCast (isDouble_of_quanta? value).1, confined]
  omega

theorem level_bounds (x : Float) :
    -overflow ≤ (ofFloat x).level ∧ (ofFloat x).level ≤ overflow := by
  have far := overflow_pos
  by_cases number : ofFloat x = .nan
  · rw [number]
    simp only [level]
    omega
  · rcases exists_infinite_or_quanta? number with ⟨_ | _, infinite⟩ | ⟨a, value⟩
    · rw [infinite, level_infinite_false]
      omega
    · rw [infinite, level_infinite_true]
      omega
    · rw [level_of_quanta? value]
      have := quanta_bounds value
      omega

/-- Numbers stand to each other as their places do. -/
theorem order?_eq (xNumber : ofFloat x ≠ .nan) (yNumber : ofFloat y ≠ .nan) :
    (ofFloat x).order? (ofFloat y) = some (compare (ofFloat x).level (ofFloat y).level) := by
  have far := overflow_pos
  rcases exists_infinite_or_quanta? xNumber with ⟨s, xInfinite⟩ | ⟨a, left⟩
  · rcases exists_infinite_or_quanta? yNumber with ⟨t, yInfinite⟩ | ⟨b, right⟩
    · rw [xInfinite, yInfinite]
      cases s <;> cases t
      · exact congrArg some (compare_eq_iff_eq.mpr rfl).symm
      · exact congrArg some (compare_gt_iff_gt.mpr (by simp; omega)).symm
      · exact congrArg some (compare_lt_iff_lt.mpr (by simp; omega)).symm
      · exact congrArg some (compare_eq_iff_eq.mpr rfl).symm
    · have inside := quanta_bounds right
      rw [level_of_quanta? right, xInfinite]
      obtain ⟨t, n, yFinite, rfl⟩ := exists_finite_of_quanta? right
      rw [yFinite]
      cases s
      · exact congrArg some (compare_gt_iff_gt.mpr (by simp; omega)).symm
      · exact congrArg some (compare_lt_iff_lt.mpr (by simp; omega)).symm
  · have inside := quanta_bounds left
    rw [level_of_quanta? left]
    obtain ⟨s, m, xFinite, rfl⟩ := exists_finite_of_quanta? left
    rw [xFinite]
    rcases exists_infinite_or_quanta? yNumber with ⟨t, yInfinite⟩ | ⟨b, right⟩
    · rw [yInfinite]
      cases t
      · exact congrArg some (compare_lt_iff_lt.mpr (by simp; omega)).symm
      · exact congrArg some (compare_gt_iff_gt.mpr (by simp; omega)).symm
    · obtain ⟨t, n, yFinite, rfl⟩ := exists_finite_of_quanta? right
      rw [yFinite]
      rfl

/-- The order of numbers is the one of their places. -/
theorem le_iff_level_le (xNumber : ofFloat x ≠ .nan) (yNumber : ofFloat y ≠ .nan) :
    x ≤ y ↔ (ofFloat x).level ≤ (ofFloat y).level := by
  rw [le_iff_order?, order?_eq xNumber yNumber, le_iff_lt_or_eq]
  exact or_congr (Option.some_inj.trans compare_lt_iff_lt) (Option.some_inj.trans compare_eq_iff_eq)

theorem lt_iff_level_lt (xNumber : ofFloat x ≠ .nan) (yNumber : ofFloat y ≠ .nan) :
    x < y ↔ (ofFloat x).level < (ofFloat y).level := by
  rw [lt_iff_order?, order?_eq xNumber yNumber]
  exact Option.some_inj.trans compare_lt_iff_lt

/-- What is compared is a number. -/
theorem ne_nan_of_le (le : x ≤ y) : ofFloat x ≠ .nan ∧ ofFloat y ≠ .nan := by
  rw [le_iff_order?] at le
  cases left : ofFloat x with
  | nan =>
      rw [left] at le
      simp [order?] at le
  | _ =>
      cases right : ofFloat y with
      | nan =>
          rw [left, right] at le
          simp [order?] at le
      | _ => exact ⟨nofun, nofun⟩

theorem le_of_le_of_le {z : Float} (low : x ≤ y) (high : y ≤ z) : x ≤ z := by
  obtain ⟨xNumber, yNumber⟩ := ne_nan_of_le low
  have zNumber := (ne_nan_of_le high).2
  rw [le_iff_level_le xNumber yNumber] at low
  rw [le_iff_level_le yNumber zNumber] at high
  exact (le_iff_level_le xNumber zNumber).mpr (low.trans high)

/-- What makes a double at most another: an infinity, or the order of two finite doubles. -/
theorem le_cases (le : x ≤ y) :
    ofFloat x = .infinite true ∨ ofFloat y = .infinite false ∨
      ∃ a b, quanta? x = some a ∧ quanta? y = some b ∧ a ≤ b := by
  obtain ⟨xNumber, yNumber⟩ := ne_nan_of_le le
  have far := overflow_pos
  have order := (le_iff_level_le xNumber yNumber).mp le
  rcases exists_infinite_or_quanta? xNumber with ⟨_ | _, xInfinite⟩ | ⟨a, left⟩
  · rcases exists_infinite_or_quanta? yNumber with ⟨_ | _, yInfinite⟩ | ⟨b, right⟩
    · exact .inr (.inl yInfinite)
    · rw [xInfinite, yInfinite, level_infinite_false, level_infinite_true] at order
      omega
    · have inside := quanta_bounds right
      rw [xInfinite, level_infinite_false, level_of_quanta? right] at order
      omega
  · exact .inl xInfinite
  · rcases exists_infinite_or_quanta? yNumber with ⟨_ | _, yInfinite⟩ | ⟨b, right⟩
    · exact .inr (.inl yInfinite)
    · have inside := quanta_bounds left
      rw [yInfinite, level_infinite_true, level_of_quanta? left] at order
      omega
    · exact .inr (.inr ⟨a, b, left, right, (le_iff_quanta_le left right).mp le⟩)

theorem le_of_infinite_true (xInfinite : ofFloat x = .infinite true) (yNumber : ofFloat y ≠ .nan) :
    x ≤ y := by
  rw [le_iff_level_le (by rw [xInfinite]; exact nofun) yNumber, xInfinite]
  exact (level_bounds y).1

theorem le_of_infinite_false
    (xNumber : ofFloat x ≠ .nan)
    (yInfinite : ofFloat y = .infinite false) :
    x ≤ y := by
  rw [le_iff_level_le xNumber (by rw [yInfinite]; exact nofun), yInfinite]
  exact (level_bounds x).2

theorem le_iff_not_lt (xNumber : ofFloat x ≠ .nan) (yNumber : ofFloat y ≠ .nan) :
    x ≤ y ↔ ¬ y < x := by
  rw [le_iff_level_le xNumber yNumber, lt_iff_level_lt yNumber xNumber, not_lt]

theorem lt_iff_not_le (xNumber : ofFloat x ≠ .nan) (yNumber : ofFloat y ≠ .nan) :
    x < y ↔ ¬ y ≤ x := by
  rw [lt_iff_level_lt xNumber yNumber, le_iff_level_le yNumber xNumber, not_le]

/-- A number that is not less than a finite double is at least as great. -/
theorem le_of_not_lt (number : ofFloat x ≠ .nan) (value : quanta? y = some b) (not : ¬ x < y) :
    y ≤ x :=
  (le_iff_not_lt (ne_nan_of_quanta? value) number).mpr not

theorem le_of_lt (less : x < y) : x ≤ y := by
  rw [lt_iff_order?] at less
  exact (le_iff_order? x y).mpr (.inl less)

theorem le_self (number : ofFloat x ≠ .nan) : x ≤ x :=
  (le_iff_level_le number number).mpr le_rfl

theorem lesser_eq_or (x y : Float) : lesser x y = x ∨ lesser x y = y := by
  unfold lesser
  split_ifs <;> simp

theorem greater_eq_or (x y : Float) : greater x y = x ∨ greater x y = y := by
  unfold greater
  split_ifs <;> simp

/-- The lesser of two numbers is at most each of them. -/
theorem lesser_le (xNumber : ofFloat x ≠ .nan) (yNumber : ofFloat y ≠ .nan) :
    lesser x y ≤ x ∧ lesser x y ≤ y := by
  unfold lesser
  rw [if_neg (mt (isNaN_iff x).mp xNumber)]
  split
  · next less => exact ⟨le_of_lt less, le_self yNumber⟩
  · next not => exact ⟨le_self xNumber, (le_iff_not_lt xNumber yNumber).mpr not⟩

/-- The greater of two numbers is at least each of them. -/
theorem le_greater (xNumber : ofFloat x ≠ .nan) (yNumber : ofFloat y ≠ .nan) :
    x ≤ greater x y ∧ y ≤ greater x y := by
  unfold greater
  rw [if_neg (mt (isNaN_iff x).mp xNumber)]
  split
  · next less => exact ⟨le_of_lt less, le_self yNumber⟩
  · next not => exact ⟨le_self xNumber, (le_iff_not_lt yNumber xNumber).mpr not⟩

/-- What is not below zero is infinite or finite and not below zero. -/
theorem infinite_or_nonneg (le : 0 ≤ x) :
    ofFloat x = .infinite false ∨ ∃ a, quanta? x = some a ∧ 0 ≤ a := by
  rcases le_cases le with infinite | infinite | ⟨z, a, zero, value, order⟩
  · obtain ⟨s, m, finite, -⟩ := exists_finite_of_quanta? quanta?_zero
    rw [infinite] at finite
    cases finite
  · exact .inl infinite
  · obtain rfl : 0 = z := Option.some.inj (quanta?_zero.symm.trans zero)
    exact .inr ⟨a, value, order⟩

/-- What lies between finite doubles is finite. -/
theorem exists_quanta?_of_mem
    {low high : Float}
    {a b : ℤ}
    (lower : low ≤ x)
    (upper : x ≤ high)
    (lowValue : quanta? low = some a)
    (highValue : quanta? high = some b) :
    ∃ c, quanta? x = some c ∧ a ≤ c ∧ c ≤ b := by
  obtain ⟨lowNumber, number⟩ := ne_nan_of_le lower
  have highNumber := (ne_nan_of_le upper).2
  rw [le_iff_level_le lowNumber number, level_of_quanta? lowValue] at lower
  rw [le_iff_level_le number highNumber, level_of_quanta? highValue] at upper
  have least := quanta_bounds lowValue
  have greatest := quanta_bounds highValue
  rcases exists_infinite_or_quanta? number with ⟨_ | _, infinite⟩ | ⟨c, value⟩
  · rw [infinite, level_infinite_false] at upper
    omega
  · rw [infinite, level_infinite_true] at lower
    omega
  · rw [level_of_quanta? value] at lower upper
    exact ⟨c, value, lower, upper⟩

/-- What does not exceed a finite double and is not negative is finite. -/
theorem exists_quanta?_of_le
    (notNegative : (ofFloat x).NotNegative)
    (le : x ≤ y)
    (value : quanta? y = some b) :
    ∃ a, quanta? x = some a ∧ 0 ≤ a ∧ a ≤ b := by
  rcases le_cases le with infinite | infinite | ⟨m, n, left, right, order⟩
  · rw [infinite] at notNegative
    cases notNegative
  · obtain ⟨s, n, finite, -⟩ := exists_finite_of_quanta? value
    rw [infinite] at finite
    cases finite
  · obtain rfl : b = n := Option.some.inj (value.symm.trans right)
    obtain ⟨s, k, finite, rfl⟩ := exists_finite_of_quanta? left
    rw [finite] at notNegative
    exact ⟨_, left, signed_nonneg notNegative, order⟩

/-- What does not exceed a finite double in magnitude is finite. -/
theorem exists_quanta?_of_abs_le
    (small : x.abs ≤ y)
    (bound : quanta? y = some b) :
    ∃ a, quanta? x = some a ∧ |a| ≤ b := by
  have notNegative : (ofFloat x.abs).NotNegative := by
    rw [ofFloat_abs]
    exact notNegative_unsigned _
  obtain ⟨m, magnitude, -, below⟩ := exists_quanta?_of_le notNegative small bound
  rw [quanta?_abs] at magnitude
  obtain ⟨a, value, rfl⟩ := Option.map_eq_some_iff.mp magnitude
  exact ⟨a, value, below⟩

end Order

section Operations

variable {x y z : Float} {a c : ℤ}

/-- A double stands at the place that an exact number of quanta is rounded to. -/
structure IsRounded (x : Float) (q : ℚ) : Prop where
  number : ofFloat x ≠ .nan
  level_eq : (ofFloat x).level = confined (near q)

/-- A finite double is its own number of quanta, rounded. -/
theorem isRounded_of_quanta? (value : quanta? x = some a) : IsRounded x a where
  number := ne_nan_of_quanta? value
  level_eq := (level_of_quanta? value).trans (confined_near value).symm

theorem isRounded_of_rounded
    {s : Bool}
    {q : ℚ}
    (same : ofFloat x = rounded s q)
    (nonnegative : 0 ≤ q) :
    IsRounded x (if s then -q else q) where
  number := same ▸ rounded_ne_nan s q
  level_eq := same ▸ level_rounded s nonnegative

/-- Rounding keeps the order of the exact numbers. -/
theorem IsRounded.le
    {p q : ℚ}
    (left : IsRounded x p)
    (right : IsRounded y q)
    (order : p ≤ q) :
    x ≤ y := by
  rw [le_iff_level_le left.number right.number, left.level_eq, right.level_eq]
  exact confined_mono (near_mono order)

theorem isRounded_add (left : quanta? x = some a) (right : quanta? z = some c) :
    IsRounded (x + z) (a + c) := by
  obtain ⟨s, m, xFinite, rfl⟩ := exists_finite_of_quanta? left
  obtain ⟨t, n, zFinite, rfl⟩ := exists_finite_of_quanta? right
  have same := ofFloat_add x z
  rw [xFinite, zFinite] at same
  simp only [plus] at same
  rw [← Int.cast_add]
  generalize signed s m + signed t n = sum at same ⊢
  by_cases zero : sum = 0
  · rw [if_pos zero] at same
    have nothing : quanta? (x + z) = some sum := by
      rw [quanta?, same, zero]
      exact (signedQuanta_finite _ 0).trans (congrArg some (signed_zero _))
    exact isRounded_of_quanta? nothing
  · rw [if_neg zero] at same
    rw [← ite_neg_natAbs]
    exact isRounded_of_rounded same (Nat.cast_nonneg _)

theorem isRounded_mul (left : quanta? x = some a) (right : quanta? z = some c) :
    IsRounded (x * z) (a * c / unit) := by
  obtain ⟨s, m, xFinite, rfl⟩ := exists_finite_of_quanta? left
  obtain ⟨t, n, zFinite, rfl⟩ := exists_finite_of_quanta? right
  have same : ofFloat (x * z) = rounded (s ^^ t) (m * n / unit) := by
    rw [ofFloat_mul, xFinite, zFinite]
    rfl
  have product : (0 : ℚ) ≤ m * n / unit := by positivity
  rw [cast_signed, cast_signed]
  convert isRounded_of_rounded same product using 1
  cases s <;> cases t <;> simp [neg_div]

theorem isRounded_div
    (left : quanta? x = some a)
    (right : quanta? z = some c)
    (nonzero : c ≠ 0) :
    IsRounded (x / z) (a * unit / c) := by
  obtain ⟨s, m, xFinite, rfl⟩ := exists_finite_of_quanta? left
  obtain ⟨t, n, zFinite, rfl⟩ := exists_finite_of_quanta? right
  have divisor : n ≠ 0 := fun zero => nonzero ((signed_eq_zero_iff t n).mpr zero)
  have same : ofFloat (x / z) = rounded (s ^^ t) (m * unit / n) := by
    rw [ofFloat_div, xFinite, zFinite]
    exact if_neg divisor
  have quotient : (0 : ℚ) ≤ m * unit / n := by positivity
  rw [cast_signed, cast_signed]
  convert isRounded_of_rounded same quotient using 1
  cases s <;> cases t <;> simp [neg_div, div_neg]

/-- Adding a finite double keeps the order. -/
theorem add_le_add_finite (le : x ≤ y) (value : quanta? z = some c) : x + z ≤ y + z := by
  obtain ⟨t, n, zFinite, -⟩ := exists_finite_of_quanta? value
  have stays (s : Bool) (w : Float) (infinite : ofFloat w = .infinite s) :
      ofFloat (w + z) = .infinite s := by
    rw [ofFloat_add, infinite, zFinite]
    rfl
  have number (w : Float) (wNumber : ofFloat w ≠ .nan) : ofFloat (w + z) ≠ .nan := by
    rcases exists_infinite_or_quanta? wNumber with ⟨s, infinite⟩ | ⟨a, finite⟩
    · rw [stays s w infinite]
      exact nofun
    · exact (isRounded_add finite value).number
  obtain ⟨xNumber, yNumber⟩ := ne_nan_of_le le
  rcases le_cases le with xInfinite | yInfinite | ⟨a, b, left, right, order⟩
  · exact le_of_infinite_true (stays true x xInfinite) (number y yNumber)
  · exact le_of_infinite_false (number x xNumber) (stays false y yInfinite)
  · exact (isRounded_add left value).le (isRounded_add right value)
      (add_le_add_left (by exact_mod_cast order) _)

/-- Adding what is not below zero to what is not below zero leaves no less. -/
theorem le_add_of_nonneg (left : 0 ≤ x) (right : 0 ≤ y) : x ≤ x + y := by
  have number := (ne_nan_of_le left).2
  rcases infinite_or_nonneg left with xInfinite | ⟨a, xValue, -⟩
  · refine le_of_infinite_false number ?_
    rw [ofFloat_add, xInfinite]
    rcases infinite_or_nonneg right with yInfinite | ⟨b, yValue, -⟩
    · rw [yInfinite]
      rfl
    · obtain ⟨s, m, yFinite, -⟩ := exists_finite_of_quanta? yValue
      rw [yFinite]
      rfl
  · rcases infinite_or_nonneg right with yInfinite | ⟨b, yValue, nonnegative⟩
    · obtain ⟨s, m, xFinite, -⟩ := exists_finite_of_quanta? xValue
      refine le_of_infinite_false number ?_
      rw [ofFloat_add, xFinite, yInfinite]
      rfl
    · exact (isRounded_of_quanta? xValue).le (isRounded_add xValue yValue)
        (le_add_of_nonneg_right (by exact_mod_cast nonnegative))

/-- Subtracting finite doubles from one reverses the order. -/
theorem sub_le_sub_finite
    {b : ℤ}
    (left : quanta? x = some a)
    (right : quanta? y = some b)
    (order : a ≤ b)
    (value : quanta? z = some c) :
    z - y ≤ z - x := by
  rw [sub_eq_plus_neg, sub_eq_plus_neg]
  exact (isRounded_add value (quanta?_neg right)).le (isRounded_add value (quanta?_neg left))
    (add_le_add_right (by exact_mod_cast neg_le_neg order) _)

/-- Multiplying finite doubles by one that is not negative keeps the order. -/
theorem mul_le_mul_finite
    {b : ℤ}
    (left : quanta? x = some a)
    (right : quanta? y = some b)
    (order : a ≤ b)
    (value : quanta? z = some c)
    (nonnegative : 0 ≤ c) :
    x * z ≤ y * z := by
  refine (isRounded_mul left value).le (isRounded_mul right value) ?_
  refine div_le_div_of_nonneg_right ?_ unit_pos.le
  exact mul_le_mul_of_nonneg_right (by exact_mod_cast order) (by exact_mod_cast nonnegative)

/-- Where the exact product is not negative, the computed one is not. -/
theorem zero_le_mul_of_signs
    (left : quanta? x = some a)
    (right : quanta? z = some c)
    (signs : 0 ≤ a * c) :
    0 ≤ x * z := by
  have product : (0 : ℚ) ≤ a * c / unit :=
    div_nonneg (by exact_mod_cast signs) unit_pos.le
  refine (isRounded_of_quanta? quanta?_zero).le (isRounded_mul left right) ?_
  rwa [Int.cast_zero]

theorem zero_le_mul_finite
    (left : quanta? x = some a)
    (leftLower : 0 ≤ a)
    (right : quanta? z = some c)
    (rightLower : 0 ≤ c) :
    0 ≤ x * z :=
  zero_le_mul_of_signs left right (mul_nonneg leftLower rightLower)

/-- Dividing by a finite double above zero keeps the order. -/
theorem div_le_div_finite (le : x ≤ y) (value : quanta? z = some c) (positive : 0 < c) :
    x / z ≤ y / z := by
  obtain ⟨t, n, zFinite, -⟩ := exists_finite_of_quanta? value
  obtain rfl : t = false := by
    have sign := positive_of_quanta? value positive
    rw [zFinite] at sign
    exact sign.1
  have stays (s : Bool) (w : Float) (infinite : ofFloat w = .infinite s) :
      ofFloat (w / z) = .infinite s := by
    rw [ofFloat_div, infinite, zFinite]
    exact congrArg Binary64.infinite (Bool.xor_false s)
  have number (w : Float) (wNumber : ofFloat w ≠ .nan) : ofFloat (w / z) ≠ .nan := by
    rcases exists_infinite_or_quanta? wNumber with ⟨s, infinite⟩ | ⟨a, finite⟩
    · rw [stays s w infinite]
      exact nofun
    · exact (isRounded_div finite value positive.ne').number
  obtain ⟨xNumber, yNumber⟩ := ne_nan_of_le le
  rcases le_cases le with xInfinite | yInfinite | ⟨a, b, left, right, order⟩
  · exact le_of_infinite_true (stays true x xInfinite) (number y yNumber)
  · exact le_of_infinite_false (number x xNumber) (stays false y yInfinite)
  · refine (isRounded_div left value positive.ne').le (isRounded_div right value positive.ne') ?_
    refine div_le_div_of_nonneg_right ?_ (by exact_mod_cast positive.le)
    exact mul_le_mul_of_nonneg_right (by exact_mod_cast order) unit_pos.le

end Operations

section Roots

open Float.Model (UnpackedFloat Format)

theorem roundWithAccuracy_ne_notANumber
    (sign : UnpackedFloat.Sign)
    (mantissa : ℕ)
    (exponent : ℤ)
    (accuracy : UnpackedFloat.Accuracy) :
    UnpackedFloat.roundWithAccuracy .binary64 sign mantissa exponent accuracy ≠ .notANumber := by
  unfold UnpackedFloat.roundWithAccuracy
  dsimp only
  split
  · simp
  · simp

/-- Where a root is taken of what is not below zero, it is a number. -/
theorem sqrt_ne_notANumber
    {number : UnpackedFloat}
    (known :
      ofUnpacked number = .infinite false ∨
        ∃ s m, ofUnpacked number = .finite s m ∧ 0 ≤ signed s m) :
    UnpackedFloat.sqrt .binary64 number ≠ .notANumber := by
  cases number with
  | notANumber => simp [ofUnpacked] at known
  | infinity sign =>
      cases sign
      · simp [ofUnpacked, isNegative] at known
      · simp [UnpackedFloat.sqrt]
  | zero sign => simp [UnpackedFloat.sqrt]
  | finite sign mantissa exponent positive =>
      cases sign
      · rcases known with infinite | ⟨s, m, finite, nonnegative⟩
        · cases infinite
        · obtain ⟨rfl, rfl⟩ := Binary64.finite.inj finite
          exact absurd nonnegative
            (signed_true_neg (Nat.mul_pos positive (Nat.pow_pos Nat.two_pos))).not_ge
      · exact roundWithAccuracy_ne_notANumber _ _ _ _

/-- The root of what is not below zero is a number. -/
theorem isNaN_sqrt_eq_false {x : Float} (le : 0 ≤ x) : x.sqrt.isNaN = false := by
  rw [Bool.eq_false_iff, Ne, isNaN_iff]
  show ofFloat (.ofModel (.pack (UnpackedFloat.sqrt .binary64 x.toModel.unpack))) ≠ .nan
  apply ofFloat_pack_ne_nan
  apply sqrt_ne_notANumber
  rw [← ofFloat_eq_ofUnpacked]
  refine (infinite_or_nonneg le).imp_right ?_
  rintro ⟨a, value, nonnegative⟩
  obtain ⟨s, m, finite, rfl⟩ := exists_finite_of_quanta? value
  exact ⟨s, m, finite, nonnegative⟩

end Roots

section Integers

variable {x y : Float} {a : ℤ}

/-- Where the finite doubles end, the 64-bit integers have long ended. -/
theorem two_pow_63_lt_overflow : 9223372036854775808 * (unit : ℤ) < overflow :=
  (quanta_bounds quanta?_two_pow_63).2

/--
A rounding to integers that ends beyond the 64-bit range sees no more of a double than
its place.
-/
theorem toInt_toInt64By
    (rounding : ℤ → ℤ)
    (zero : rounding 0 = 0)
    (beyond : 9223372036854775808 ≤ rounding overflow)
    (below : rounding (-overflow) ≤ -9223372036854775808)
    (number : Binary64) :
    (number.toInt64By rounding).toInt = Saturating.clamp (rounding number.level) := by
  have least := Int64.toInt_minValue
  have greatest := Int64.toInt_maxValue
  cases number with
  | nan =>
      show (0 : Int64).toInt = Saturating.clamp (rounding 0)
      rw [zero]
      rfl
  | infinite s =>
      cases s with
      | false =>
          show (Int64.ofIntClamp Int64.maxValue.toInt).toInt = Saturating.clamp (rounding overflow)
          rw [Saturating.toInt_ofIntClamp, Saturating.clamp_toInt,
            Saturating.clamp_of_greatest_le (by omega)]
      | true =>
          show (Int64.ofIntClamp Int64.minValue.toInt).toInt =
            Saturating.clamp (rounding (-overflow))
          rw [Saturating.toInt_ofIntClamp, Saturating.clamp_toInt,
            Saturating.clamp_of_le_least (by omega)]
  | finite s m =>
      rw [toInt64By_finite, Saturating.toInt_ofIntClamp]
      rfl

theorem le_overflow_ediv_unit : 9223372036854775808 ≤ (overflow : ℤ) / unit := by
  have one : 0 < (unit : ℤ) := unit_pos_int
  exact (Int.le_ediv_iff_mul_le one).mpr two_pow_63_lt_overflow.le

/-- The floor sees no more of a double than its place. -/
theorem toInt_floorToInt64 (x : Float) :
    (floorToInt64 x).toInt = Saturating.clamp ((ofFloat x).level.fdiv unit) := by
  have one : 0 < (unit : ℤ) := unit_pos_int
  refine toInt_toInt64By (fun quanta => quanta.fdiv unit) (Int.zero_fdiv _) ?_ ?_ _
  · rw [Int.fdiv_eq_ediv_of_nonneg _ one.le]
    exact le_overflow_ediv_unit
  · have far := two_pow_63_lt_overflow
    rw [Int.fdiv_eq_ediv_of_nonneg _ one.le]
    exact Int.ediv_le_of_le_mul one (by omega)

/-- Dropping the fraction sees no more of a double than its place. -/
theorem toInt_truncate (x : Float) :
    (truncate x).toInt = Saturating.clamp ((ofFloat x).level.tdiv unit) := by
  have ends := le_overflow_ediv_unit
  rw [← Int.tdiv_eq_ediv_of_nonneg (Int.natCast_nonneg _)] at ends
  refine toInt_toInt64By (fun quanta => quanta.tdiv unit) (Int.zero_tdiv _) ends ?_ _
  rw [Int.neg_tdiv]
  omega

/-- Dropping the fraction keeps the order. -/
theorem truncate_mono (le : x ≤ y) : (truncate x).toInt ≤ (truncate y).toInt := by
  obtain ⟨xNumber, yNumber⟩ := ne_nan_of_le le
  have one : 0 < (unit : ℤ) := unit_pos_int
  rw [toInt_truncate, toInt_truncate]
  exact Saturating.clamp_mono
    (Int.tdiv_le_tdiv one ((le_iff_level_le xNumber yNumber).mp le))

/-- Rounding to integers keeps the order. -/
theorem roundHalfUp_mono (le : x ≤ y) : (roundHalfUp x).toInt ≤ (roundHalfUp y).toInt := by
  have sums := add_le_add_finite le quanta?_half
  obtain ⟨left, right⟩ := ne_nan_of_le sums
  rw [le_iff_level_le left right] at sums
  unfold roundHalfUp
  rw [toInt_floorToInt64, toInt_floorToInt64]
  have one : 0 < (unit : ℤ) := unit_pos_int
  rw [Int.fdiv_eq_ediv_of_nonneg _ one.le, Int.fdiv_eq_ediv_of_nonneg _ one.le]
  exact Saturating.clamp_mono (Int.ediv_le_ediv one sums)

/-- Rounding to integers does not see the sign of zero. -/
theorem roundHalfUp_congr (left : quanta? x = some a) (right : quanta? y = some a) :
    roundHalfUp x = roundHalfUp y := by
  apply Int64.toInt_inj.mp
  apply le_antisymm
  · exact roundHalfUp_mono ((le_iff_quanta_le left right).mpr le_rfl)
  · exact roundHalfUp_mono ((le_iff_quanta_le right left).mpr le_rfl)

theorem roundHalfUp_zero : roundHalfUp 0 = 0 := by
  decide +kernel

/-- One half, the double before it and one as powers of two. -/
theorem exists_quanta?_halves :
    ∃ k, quanta? 0.5 = some ((2 ^ (53 + k) : ℕ) : ℤ) ∧
      quanta? 0.49999999999999994 = some ((2 ^ (53 + k) - 2 ^ k : ℕ) : ℤ) ∧
      unit = 2 ^ (54 + k) := by
  obtain ⟨l, exponent, power⟩ := exists_unit_eq_pow
  obtain ⟨k, rest⟩ : ∃ k, k = 1020 := ⟨_, rfl⟩
  have halves :
      quanta? 0.5 = some (Nat.pow 2 (53 + k) : ℕ) ∧
        quanta? 0.49999999999999994 = some ((Nat.pow 2 (53 + k) - Nat.pow 2 k : ℕ) : ℤ) := by
    subst rest
    decide +kernel
  obtain rfl : l = 54 + k := by omega
  exact ⟨k, halves.1, halves.2, power⟩

/-- What one half is added to before it gets to one is rounded to less than one. -/
theorem nearest_lt_pow
    {q : ℚ}
    {k : ℕ}
    (lower : 2 ^ (53 + k) ≤ q)
    (upper : q < 2 ^ (54 + k) - 2 ^ k) :
    nearest q < 2 ^ (54 + k) := by
  have scale : InScale (k + 1) q := by
    refine ⟨?_, .inr ?_⟩
    · have positive : (0 : ℚ) < 2 ^ k := by positivity
      rw [show 53 + (k + 1) = 54 + k by omega]
      linarith
    · rwa [show 52 + (k + 1) = 53 + k by omega]
  have most : halfEven (q / 2 ^ (k + 1)) ≤ 2 ^ 53 - 1 := by
    apply halfEven_le
    rw [div_lt_iff₀ (by positivity)]
    refine upper.trans_eq ?_
    push_cast
    ring
  calc
    nearest q = halfEven (q / 2 ^ (k + 1)) * 2 ^ (k + 1) := nearest_eq scale
    _ ≤ (2 ^ 53 - 1) * 2 ^ (k + 1) := Nat.mul_le_mul_right _ most
    _ < 2 ^ 53 * 2 ^ (k + 1) := Nat.mul_lt_mul_of_pos_right (by norm_num) (by positivity)
    _ = 2 ^ (54 + k) := by ring

theorem notNegative_of_zero_le (le : 0 ≤ x) : (ofFloat x).NotNegative := by
  obtain ⟨zeroNumber, number⟩ := ne_nan_of_le le
  have place := (le_iff_level_le zeroNumber number).mp le
  have far := overflow_pos
  rw [level_of_quanta? quanta?_zero] at place
  cases known : ofFloat x with
  | nan => trivial
  | infinite s =>
      cases s with
      | false => rfl
      | true =>
          rw [known, level_infinite_true] at place
          omega
  | finite s m =>
      cases s with
      | false => exact .inl rfl
      | true =>
          have place' : 0 ≤ -(m : ℤ) := by rwa [known] at place
          exact .inr (by omega)

/-- What is not negative is rounded to zero up to the double before one half. -/
theorem roundHalfUp_eq_zero_iff (nonnegative : 0 ≤ x) :
    roundHalfUp x = 0 ↔ x < 0.49999999999999994 := by
  have number := (ne_nan_of_le nonnegative).2
  obtain ⟨k, half, almost, one⟩ := exists_quanta?_halves
  constructor
  · intro zero
    by_contra notLess
    have least : (roundHalfUp 0.49999999999999994).toInt = 1 := by decide +kernel
    have order := roundHalfUp_mono (le_of_not_lt number almost notLess)
    rw [least, zero] at order
    exact absurd order (by decide)
  · intro below
    obtain ⟨a, value, lower, upper⟩ :=
      exists_quanta?_of_lt (notNegative_of_zero_le nonnegative) below almost
    have lower' : (0 : ℚ) ≤ a := by exact_mod_cast lower
    have less : nearest (a + 2 ^ (53 + k)) < 2 ^ (54 + k) := by
      refine nearest_lt_pow (by linarith) ?_
      have narrow : 2 ^ k ≤ 2 ^ (53 + k) := Nat.pow_le_pow_right (by norm_num) (by omega)
      have upper' : (a : ℚ) < 2 ^ (53 + k) - 2 ^ k := by
        have cast : (a : ℚ) < ((2 ^ (53 + k) - 2 ^ k : ℕ) : ℤ) := by exact_mod_cast upper
        rw [Int.cast_natCast, Nat.cast_sub narrow] at cast
        exact_mod_cast cast
      calc
        (a : ℚ) + 2 ^ (53 + k) < 2 ^ (53 + k) - 2 ^ k + 2 ^ (53 + k) := by linarith
        _ = 2 ^ (54 + k) - 2 ^ k := by ring
    have place : (ofFloat (x + 0.5)).level = confined (nearest (a + 2 ^ (53 + k))) := by
      rw [(isRounded_add value half).level_eq, near_of_nonneg (by positivity)]
      push_cast
      rfl
    have floor : (ofFloat (x + 0.5)).level.fdiv unit = 0 := by
      rw [place, Int.fdiv_eq_ediv_of_nonneg _ (Int.natCast_nonneg _)]
      apply Int.ediv_eq_zero_of_lt
      · unfold confined
        omega
      · rw [one]
        unfold confined
        omega
    apply Int64.toInt_inj.mp
    unfold roundHalfUp
    rw [toInt_floorToInt64, floor]
    rfl

end Integers
end Binary64
end WindsAloft
