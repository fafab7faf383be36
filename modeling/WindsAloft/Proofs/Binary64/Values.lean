import WindsAloft.Proofs.Binary64.Order

/-!
# Finite doubles as integers

A finite double is a whole number of quanta, with a sign.  On these integers
every operation is the exact one followed by `near`, which keeps the order and
leaves doubles alone; only a result that is too great is none.  So a result
whose exact value lies between two doubles is finite and lies between them too.
-/

namespace WindsAloft
namespace Binary64

attribute [local irreducible] unit overflow

/-- A double as a whole number of quanta, where it is finite. -/
def quanta? (x : Float) : Option ℤ :=
  (ofFloat x).signedQuanta

theorem signedQuanta_finite (s : Bool) (m : ℕ) :
    (finite s m).signedQuanta = some (signed s m) := by
  cases s <;> rfl

theorem exists_finite_of_quanta? {x : Float} {a : ℤ} (value : quanta? x = some a) :
    ∃ s m, ofFloat x = .finite s m ∧ a = signed s m := by
  unfold quanta? at value
  cases number : ofFloat x with
  | finite s m =>
      rw [number, signedQuanta_finite] at value
      exact ⟨s, m, rfl, (Option.some.inj value).symm⟩
  | _ =>
      rw [number] at value
      cases value

theorem quanta?_of_finite {x : Float} {s : Bool} {m : ℕ} (number : ofFloat x = .finite s m) :
    quanta? x = some (signed s m) := by
  unfold quanta?
  rw [number, signedQuanta_finite]

/-- What a double is able to hold. -/
def IsDouble (n : ℤ) : Prop :=
  Representable n.natAbs ∧ n.natAbs < overflow

theorem isDouble_zero : IsDouble 0 :=
  ⟨⟨0, 0, by norm_num, rfl⟩, overflow_pos⟩

theorem isDouble_of_quanta? {x : Float} {a : ℤ} (value : quanta? x = some a) : IsDouble a := by
  obtain ⟨s, m, number, rfl⟩ := exists_finite_of_quanta? value
  unfold IsDouble
  rw [natAbs_signed]
  have canonical := canonical_toModel x
  have fits := fits_toModel x
  rw [ofFloat_eq_ofUnpacked] at number
  generalize x.toModel.unpack = unpacked at canonical fits number
  cases unpacked with
  | notANumber => cases number
  | infinity sign => cases number
  | zero sign =>
      obtain rfl : 0 = m := (Binary64.finite.inj number).2
      exact isDouble_zero
  | finite sign mantissa exponent positive =>
      obtain rfl := (Binary64.finite.inj number).2
      exact ⟨representable_mul_pow canonical.1 _,
        (quanta_lt_overflow_iff canonical.1 canonical.2.2).mpr fits⟩

/-- A number of quanta rounded to the nearest double, of any size. -/
def near (q : ℚ) : ℤ :=
  signed (decide (q < 0)) (nearest |q|)

theorem near_of_nonneg {q : ℚ} (nonnegative : 0 ≤ q) : near q = nearest q := by
  unfold near
  rw [decide_eq_false nonnegative.not_gt, abs_of_nonneg nonnegative]
  rfl

theorem near_of_neg {q : ℚ} (negative : q < 0) : near q = -nearest (-q) := by
  unfold near
  rw [decide_eq_true negative, abs_of_neg negative]
  rfl

theorem near_mono {q r : ℚ} (le : q ≤ r) : near q ≤ near r := by
  rcases lt_or_ge q 0 with qNegative | qNonnegative
  · rw [near_of_neg qNegative]
    rcases lt_or_ge r 0 with rNegative | rNonnegative
    · rw [near_of_neg rNegative]
      have := nearest_mono (neg_le_neg le)
      omega
    · rw [near_of_nonneg rNonnegative]
      omega
  · rw [near_of_nonneg qNonnegative, near_of_nonneg (qNonnegative.trans le)]
    exact_mod_cast nearest_mono le

theorem near_intCast {n : ℤ} (representable : Representable n.natAbs) : near n = n := by
  rcases lt_or_ge n 0 with negative | nonnegative
  · have magnitude : -(n : ℚ) = (n.natAbs : ℚ) := by
      rw [← Int.cast_natCast, Int.ofNat_natAbs_of_nonpos negative.le, Int.cast_neg]
    rw [near_of_neg (by exact_mod_cast negative), magnitude, nearest_natCast representable]
    omega
  · have magnitude : (n : ℚ) = (n.natAbs : ℚ) := by
      rw [← Int.cast_natCast, Int.natAbs_of_nonneg nonnegative]
    rw [near_of_nonneg (by exact_mod_cast nonnegative), magnitude,
      nearest_natCast representable]
    omega

/-- A number of quanta that is not too great. -/
def limit? (n : ℤ) : Option ℤ :=
  if n.natAbs < overflow then some n else none

theorem eq_of_limit? {n c : ℤ} (value : limit? n = some c) : c = n := by
  unfold limit? at value
  split at value
  · exact (Option.some.inj value).symm
  · cases value

theorem limit?_of_isDouble {n : ℤ} (double : IsDouble n) : limit? (near n) = some n := by
  rw [near_intCast double.1, limit?, if_pos double.2]

/-- Between two doubles, rounding stays between them. -/
theorem exists_limit?_near
    {q : ℚ}
    {low high : ℤ}
    (lowDouble : IsDouble low)
    (highDouble : IsDouble high)
    (lower : low ≤ q)
    (upper : q ≤ high) :
    ∃ c, limit? (near q) = some c ∧ low ≤ c ∧ c ≤ high := by
  have above := near_mono lower
  have below := near_mono upper
  rw [near_intCast lowDouble.1] at above
  rw [near_intCast highDouble.1] at below
  have small : (near q).natAbs < overflow := by
    have := lowDouble.2
    have := highDouble.2
    omega
  exact ⟨near q, if_pos small, above, below⟩

theorem IsDouble.neg {n : ℤ} (double : IsDouble n) : IsDouble (-n) := by
  unfold IsDouble
  rwa [Int.natAbs_neg]

theorem IsDouble.abs {n : ℤ} (double : IsDouble n) : IsDouble |n| := by
  unfold IsDouble
  rwa [Int.natAbs_abs]

/-- Within the magnitude of a double, rounding stays within it. -/
theorem exists_limit?_near_of_abs_le
    {q : ℚ}
    {bound : ℤ}
    (double : IsDouble bound)
    (within : |q| ≤ bound) :
    ∃ c, limit? (near q) = some c ∧ |c| ≤ bound := by
  obtain ⟨lower, upper⟩ := abs_le.mp within
  obtain ⟨c, value, above, below⟩ :=
    exists_limit?_near double.neg double (by rwa [Int.cast_neg]) upper
  exact ⟨c, value, abs_le.mpr ⟨above, below⟩⟩

theorem le_of_limit?_near
    {q : ℚ}
    {low c : ℤ}
    (lowDouble : IsDouble low)
    (lower : low ≤ q)
    (value : limit? (near q) = some c) :
    low ≤ c := by
  have above := near_mono lower
  rwa [near_intCast lowDouble.1, ← eq_of_limit? value] at above

/-- A magnitude is rounded alike with either sign. -/
theorem near_ite_neg (s : Bool) {q : ℚ} (nonnegative : 0 ≤ q) :
    near (if s then -q else q) = signed s (nearest q) := by
  cases s
  · exact near_of_nonneg nonnegative
  · rcases eq_or_lt_of_le nonnegative with rfl | positive
    · simp [near]
    · simp only [if_true]
      rw [near_of_neg (neg_neg_of_pos positive), neg_neg]
      rfl

theorem signedQuanta_rounded (s : Bool) {q : ℚ} (nonnegative : 0 ≤ q) :
    (rounded s q).signedQuanta = limit? (near (if s then -q else q)) := by
  rw [near_ite_neg s nonnegative, limit?, natAbs_signed, rounded, limited]
  split
  · exact signedQuanta_finite s _
  · rfl

/-- The sign and the magnitude of an integer make it up. -/
theorem ite_neg_natAbs (n : ℤ) :
    (if decide (n < 0) = true then -(n.natAbs : ℚ) else n.natAbs) = n := by
  rcases lt_or_ge n 0 with negative | nonnegative
  · rw [decide_eq_true negative, if_pos rfl, ← Int.cast_natCast,
      Int.ofNat_natAbs_of_nonpos negative.le, Int.cast_neg, neg_neg]
  · rw [decide_eq_false nonnegative.not_gt, if_neg (by simp), ← Int.cast_natCast,
      Int.natAbs_of_nonneg nonnegative]

section Operations

variable {x y : Float} {a b : ℤ}

theorem cast_signed (s : Bool) (m : ℕ) : ((signed s m : ℤ) : ℚ) = if s then -(m : ℚ) else m := by
  cases s
  · exact Int.cast_natCast m
  · show ((-(m : ℤ) : ℤ) : ℚ) = -(m : ℚ)
    rw [Int.cast_neg, Int.cast_natCast]

theorem quanta?_mul (left : quanta? x = some a) (right : quanta? y = some b) :
    quanta? (x * y) = limit? (near (a * b / unit)) := by
  obtain ⟨s, m, xNumber, rfl⟩ := exists_finite_of_quanta? left
  obtain ⟨t, n, yNumber, rfl⟩ := exists_finite_of_quanta? right
  have product : (0 : ℚ) ≤ m * n / unit := by positivity
  unfold quanta?
  rw [ofFloat_mul, xNumber, yNumber]
  show (rounded (s ^^ t) (m * n / unit)).signedQuanta = _
  rw [signedQuanta_rounded _ product, cast_signed, cast_signed]
  congr 2
  cases s <;> cases t <;> simp [neg_div]

theorem quanta?_div
    (left : quanta? x = some a)
    (right : quanta? y = some b)
    (nonzero : b ≠ 0) :
    quanta? (x / y) = limit? (near (a * unit / b)) := by
  obtain ⟨s, m, xNumber, rfl⟩ := exists_finite_of_quanta? left
  obtain ⟨t, n, yNumber, rfl⟩ := exists_finite_of_quanta? right
  have divisor : n ≠ 0 := fun zero => nonzero ((signed_eq_zero_iff t n).mpr zero)
  have quotient : (0 : ℚ) ≤ m * unit / n := by positivity
  unfold quanta?
  rw [ofFloat_div, xNumber, yNumber]
  simp only [dividedBy, if_neg divisor]
  rw [signedQuanta_rounded _ quotient, cast_signed, cast_signed]
  congr 2
  cases s <;> cases t <;> simp [neg_div, div_neg]

theorem quanta?_add (left : quanta? x = some a) (right : quanta? y = some b) :
    quanta? (x + y) = limit? (near (a + b)) := by
  obtain ⟨s, m, xNumber, rfl⟩ := exists_finite_of_quanta? left
  obtain ⟨t, n, yNumber, rfl⟩ := exists_finite_of_quanta? right
  unfold quanta?
  rw [ofFloat_add, xNumber, yNumber, ← Int.cast_add]
  simp only [plus]
  generalize signed s m + signed t n = sum
  by_cases zero : sum = 0
  · rw [if_pos zero, zero, Int.cast_zero, signedQuanta_finite, signed_zero]
    exact (limit?_of_isDouble isDouble_zero).symm
  · rw [if_neg zero, signedQuanta_rounded _ (Nat.cast_nonneg _), ite_neg_natAbs]

/-- A sum of finite doubles that is not finite is too great. -/
theorem exists_infinite_of_add
    (left : quanta? x = some a)
    (right : quanta? y = some b)
    (none : quanta? (x + y) = none) :
    ∃ s, ofFloat (x + y) = .infinite s := by
  obtain ⟨s, m, xNumber, rfl⟩ := exists_finite_of_quanta? left
  obtain ⟨t, n, yNumber, rfl⟩ := exists_finite_of_quanta? right
  unfold quanta? at none
  rw [ofFloat_add, xNumber, yNumber] at none ⊢
  simp only [plus, rounded, limited] at none ⊢
  split_ifs at none ⊢ with zero small
  · rw [signedQuanta_finite] at none
    cases none
  · rw [signedQuanta_finite] at none
    cases none
  · exact ⟨_, rfl⟩

theorem quanta?_neg (value : quanta? x = some a) : quanta? (-x) = some (-a) := by
  obtain ⟨s, m, number, rfl⟩ := exists_finite_of_quanta? value
  unfold quanta?
  rw [ofFloat_neg, number, negated, signedQuanta_finite]
  cases s <;> simp [signed]

theorem quanta?_abs (x : Float) : quanta? x.abs = (quanta? x).map (|·|) := by
  unfold quanta?
  rw [ofFloat_abs]
  cases ofFloat x with
  | finite s m =>
      rw [unsigned, signedQuanta_finite, signedQuanta_finite, Option.map_some, Int.abs_eq_natAbs,
        natAbs_signed]
      rfl
  | _ => rfl

theorem quanta?_sub (left : quanta? x = some a) (right : quanta? y = some b) :
    quanta? (x - y) = limit? (near (a - b)) := by
  rw [sub_eq_plus_neg, quanta?_add left (quanta?_neg right), Int.cast_neg, ← sub_eq_add_neg]

theorem lt_iff_quanta_lt (left : quanta? x = some a) (right : quanta? y = some b) :
    x < y ↔ a < b := by
  obtain ⟨s, m, xNumber, rfl⟩ := exists_finite_of_quanta? left
  obtain ⟨t, n, yNumber, rfl⟩ := exists_finite_of_quanta? right
  rw [lt_iff_order?, xNumber, yNumber]
  exact Option.some_inj.trans compare_lt_iff_lt

theorem le_iff_quanta_le (left : quanta? x = some a) (right : quanta? y = some b) :
    x ≤ y ↔ a ≤ b := by
  obtain ⟨s, m, xNumber, rfl⟩ := exists_finite_of_quanta? left
  obtain ⟨t, n, yNumber, rfl⟩ := exists_finite_of_quanta? right
  rw [le_iff_order?, xNumber, yNumber, le_iff_lt_or_eq]
  exact or_congr (Option.some_inj.trans compare_lt_iff_lt) (Option.some_inj.trans compare_eq_iff_eq)

theorem beq_iff_quanta_eq (left : quanta? x = some a) (right : quanta? y = some b) :
    (x == y) = true ↔ a = b := by
  obtain ⟨s, m, xNumber, rfl⟩ := exists_finite_of_quanta? left
  obtain ⟨t, n, yNumber, rfl⟩ := exists_finite_of_quanta? right
  rw [beq_iff_order?, xNumber, yNumber]
  exact Option.some_inj.trans compare_eq_iff_eq

/-- Only zero has two signs. -/
theorem eq_of_quanta?_eq
    (left : quanta? x = some a)
    (right : quanta? y = some a)
    (nonzero : a ≠ 0) :
    x = y := by
  obtain ⟨s, m, xFinite, rfl⟩ := exists_finite_of_quanta? left
  obtain ⟨t, n, yFinite, same⟩ := exists_finite_of_quanta? right
  have parts : s = t ∧ m = n := by
    cases s <;> cases t <;> simp [signed] at same nonzero ⊢ <;> omega
  apply ofFloat_injective
  rw [xFinite, yFinite, parts.1, parts.2]

end Operations

theorem quanta?_ofNat {n : ℕ} (small : n < 2 ^ 53) :
    quanta? (Float.ofNat n) = some ((n * unit : ℕ) : ℤ) := by
  unfold quanta?
  rw [ofFloat_ofNat, rounded_small small, signedQuanta_finite]
  rfl

theorem quanta?_zero : quanta? 0 = some 0 := by
  have value := quanta?_ofNat (Nat.two_pow_pos 53)
  rwa [Nat.zero_mul] at value

theorem quanta?_one : quanta? 1 = some (unit : ℤ) := by
  have value := quanta?_ofNat (show 1 < 2 ^ 53 by norm_num)
  rwa [Nat.one_mul] at value

theorem quanta?_two : quanta? 2 = some (2 * unit : ℤ) := by
  have value := quanta?_ofNat (show 2 < 2 ^ 53 by norm_num)
  rwa [Nat.cast_mul] at value

theorem quanta?_ofInt (n : ℤ) : quanta? (Float.ofInt n) = limit? (near (n * unit)) := by
  have magnitude : (0 : ℚ) ≤ n.natAbs * unit := by positivity
  unfold quanta?
  rw [ofFloat_ofInt, signedQuanta_rounded _ magnitude, ← neg_mul, ← ite_mul, ite_neg_natAbs]

theorem isFinite_iff (x : Float) : x.isFinite = true ↔ ∃ a, quanta? x = some a := by
  unfold quanta?
  rw [ofFloat_eq_ofUnpacked]
  show x.toModel.unpack.isFinite = true ↔ _
  cases x.toModel.unpack with
  | notANumber => exact ⟨nofun, nofun⟩
  | infinity sign => exact ⟨nofun, nofun⟩
  | zero sign => exact ⟨fun _ => ⟨_, signedQuanta_finite _ _⟩, fun _ => rfl⟩
  | finite sign m e positive => exact ⟨fun _ => ⟨_, signedQuanta_finite _ _⟩, fun _ => rfl⟩

theorem isNaN_iff (x : Float) : x.isNaN = true ↔ ofFloat x = .nan := by
  rw [ofFloat_eq_ofUnpacked]
  show x.toModel.unpack.isNaN = true ↔ _
  cases x.toModel.unpack with
  | notANumber => exact ⟨fun _ => rfl, fun _ => rfl⟩
  | _ => exact ⟨nofun, nofun⟩

/-- What is finite is a number. -/
theorem isNaN_eq_false {x : Float} {a : ℤ} (value : quanta? x = some a) : x.isNaN = false := by
  obtain ⟨s, m, number, -⟩ := exists_finite_of_quanta? value
  rw [Bool.eq_false_iff, Ne, isNaN_iff, number]
  exact nofun

end Binary64
end WindsAloft
