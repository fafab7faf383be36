import WindsAloft.Decimal.Numeral
import WindsAloft.Proofs.Binary64.Order
import WindsAloft.Proofs.Decimal.Value

/-!
# Numerals as they are written

Every notation for a finite double is a numeral: a sign, a whole part without needless
zeros, and a fraction or an exponent.  The numeral has the value of the shortest
decimal of the double, so rounding it once gives the double back, with its sign.
-/

namespace WindsAloft

/-- Some digits, and nothing but digits. -/
structure AreDigits (text : List Char) : Prop where
  nonempty : text ≠ []
  digits : ∀ c ∈ text, c.isDigit = true

/-- Digits without needless zeros in front. -/
structure AreWhole (text : List Char) : Prop extends AreDigits text where
  leading : text = ['0'] ∨ text.head? ≠ some '0'

theorem AreDigits.append
    {text more : List Char}
    (left : AreDigits text)
    (right : ∀ c ∈ more, c.isDigit = true) :
    AreDigits (text ++ more) where
  nonempty := by simp [left.nonempty]
  digits := by
    intro c among
    rcases List.mem_append.mp among with inLeft | inRight
    · exact left.digits c inLeft
    · exact right c inRight

theorem areWhole_zero : AreWhole ['0'] where
  nonempty := List.cons_ne_nil _ _
  digits := by simp
  leading := .inl rfl

theorem areDigits_digitChars (n : ℕ) : AreDigits (digitChars n) where
  nonempty := Nat.toDigits_ne_nil
  digits _ among := Nat.isDigit_of_mem_toDigits (by norm_num) le_rfl among

theorem digitChars_zero : digitChars 0 = ['0'] :=
  Nat.toDigits_zero 10

theorem head?_digitChars {n : ℕ} (positive : 0 < n) : (digitChars n).head? ≠ some '0' := by
  induction n using Nat.strong_induction_on with
  | _ n ih =>
      unfold digitChars at ih ⊢
      rcases Nat.lt_or_ge n 10 with short | long
      · rw [Nat.toDigits_of_lt_base short, List.head?_cons, ne_eq, Option.some_inj,
          Nat.digitChar_eq_zero]
        exact positive.ne'
      · rw [Nat.toDigits_of_base_le (by norm_num) long,
          List.head?_append_of_ne_nil _ Nat.toDigits_ne_nil]
        exact ih (n / 10) (by omega) (by omega)

theorem areWhole_digitChars (n : ℕ) : AreWhole (digitChars n) where
  toAreDigits := areDigits_digitChars n
  leading := by
    rcases Nat.eq_zero_or_pos n with rfl | positive
    · exact .inl digitChars_zero
    · exact .inr (head?_digitChars positive)

theorem digitsValue_digitChars (n : ℕ) : digitsValue (digitChars n) = n :=
  Nat.ofDigitChars_ten_toDigits

theorem digitsValue_append (text more : List Char) :
    digitsValue (text ++ more) = digitsValue text * 10 ^ more.length + digitsValue more := by
  unfold digitsValue
  rw [Nat.ofDigitChars_append, Nat.ofDigitChars_eq_ofDigitChars_zero, mul_comm]

theorem digitsValue_replicate_zero (n : ℕ) : digitsValue (List.replicate n '0') = 0 := by
  unfold digitsValue
  rw [Nat.ofDigitChars_replicate_zero, mul_zero]

namespace Numeral

/-- The characters of a fraction, if there is one. -/
def fractionChars : Option (List Char) → List Char
  | none => []
  | some digits => '.' :: digits

/-- The characters of an exponent, if there is one; its sign is always written. -/
def exponentChars : Option Exponent → List Char
  | none => []
  | some exponent => 'e' :: (if exponent.negative then '-' else '+') :: exponent.digits

/-- The characters of a numeral. -/
def chars (numeral : Numeral) : List Char :=
  signed numeral.negative
    (numeral.whole ++ (fractionChars numeral.fraction ++ exponentChars numeral.exponent))

/-- There is a digit wherever one has to be, and no needless zero in front. -/
structure Proper (numeral : Numeral) : Prop where
  whole : AreWhole numeral.whole
  fraction : ∀ digits ∈ numeral.fraction, AreDigits digits
  exponent : ∀ exponent ∈ numeral.exponent, AreDigits exponent.digits

section Reading

variable {text more : List Char}

theorem splitMinus_signed (negative : Bool) (digits : AreDigits text) :
    splitMinus (signed negative (text ++ more)) = (negative, text ++ more) := by
  cases negative with
  | true => rfl
  | false =>
      cases text with
      | nil => exact absurd rfl digits.nonempty
      | cons c text =>
          have digit := digits.digits c List.mem_cons_self
          unfold signed splitMinus
          simp only [Bool.false_eq_true, if_false, List.cons_append]
          split
          · next heading =>
              obtain rfl := (List.cons.inj heading).1
              exact absurd digit (by decide)
          · rfl

/-- Digits end where something else begins. -/
theorem takeWhile_dropWhile_digits
    (digits : AreDigits text)
    (stops : ∀ c ∈ more.head?, c.isDigit = false) :
    (text ++ more).takeWhile Char.isDigit = text ∧
      (text ++ more).dropWhile Char.isDigit = more := by
  rw [List.takeWhile_append_of_pos digits.digits, List.dropWhile_append_of_pos digits.digits]
  cases more with
  | nil => simp
  | cons c more =>
      have stop : c.isDigit = false := stops c rfl
      simp [stop]

theorem isDigit_head?_exponentChars (exponent : Option Exponent) :
    ∀ c ∈ (exponentChars exponent).head?, c.isDigit = false := by
  cases exponent with
  | none => exact nofun
  | some exponent =>
      rintro c ⟨⟩
      rfl

theorem exponentOfChars?_exponentChars
    {exponent : Option Exponent}
    (digits : ∀ written ∈ exponent, AreDigits written.digits) :
    exponentOfChars? (exponentChars exponent) = some exponent := by
  rcases exponent with _ | ⟨negative, text⟩
  · rfl
  · have all : text.all Char.isDigit = true := List.all_eq_true.mpr (digits _ rfl).digits
    have nonempty : text ≠ [] := (digits _ rfl).nonempty
    cases negative <;> simp [exponentChars, exponentOfChars?, splitSign, nonempty, all]

end Reading

/-- A proper numeral is read back from its characters. -/
theorem ofChars?_chars {numeral : Numeral} (proper : numeral.Proper) :
    ofChars? numeral.chars = some numeral := by
  obtain ⟨negative, whole, fraction, exponent⟩ := numeral
  have digits : AreDigits whole := proper.whole.toAreDigits
  have stops := isDigit_head?_exponentChars exponent
  have read := exponentOfChars?_exponentChars proper.exponent
  unfold chars ofChars?
  simp only [splitMinus_signed negative digits]
  cases fraction with
  | none =>
      obtain ⟨taken, dropped⟩ := takeWhile_dropWhile_digits digits stops
      simp only [fractionChars, List.nil_append, taken, dropped, if_neg digits.nonempty, read,
        Option.map_some]
      cases exponent <;> rfl
  | some fraction =>
      have fractionDigits : AreDigits fraction := proper.fraction fraction rfl
      have stopsAtPoint :
          ∀ c ∈ ('.' :: (fraction ++ exponentChars exponent)).head?, c.isDigit = false := by
        rintro c ⟨⟩
        rfl
      obtain ⟨taken, dropped⟩ := takeWhile_dropWhile_digits digits stopsAtPoint
      obtain ⟨fractionTaken, fractionDropped⟩ := takeWhile_dropWhile_digits fractionDigits stops
      simp only [fractionChars, List.cons_append, taken, dropped, if_neg digits.nonempty,
        fractionTaken, fractionDropped, if_neg fractionDigits.nonempty, read, Option.map_some]

/-- A numeral writes a decimal with a sign, and not as an integer. -/
structure Spells (numeral : Numeral) (negative : Bool) (decimal : Decimal) : Prop where
  proper : numeral.Proper
  sign : numeral.negative = negative
  notWhole : numeral.isWhole = false
  value : numeral.magnitude.value = decimal.value

section Notations

variable {whole fraction : List Char} {n : ℕ} {e : ℤ}

/-- Digits in front of a point and behind it. -/
theorem spells_of_point
    (negative : Bool)
    (wholeDigits : AreWhole whole)
    (fractionDigits : AreDigits fraction)
    (value : (digitsValue (whole ++ fraction) : ℚ) * 10 ^ (-(fraction.length : ℤ)) = n * 10 ^ e) :
    Spells ⟨negative, whole, some fraction, none⟩ negative ⟨n, e⟩ where
  proper := ⟨wholeDigits, by rintro digits ⟨⟩; exact fractionDigits, nofun⟩
  sign := rfl
  notWhole := rfl
  value := by
    unfold magnitude exponentValue Decimal.value
    simp only [Option.getD_some, zero_sub]
    exact value

theorem areWhole_append
    (wholeDigits : AreWhole whole)
    (notZero : whole ≠ ['0'])
    (fractionDigits : ∀ c ∈ fraction, c.isDigit = true) :
    AreWhole (whole ++ fraction) where
  toAreDigits := wholeDigits.toAreDigits.append fractionDigits
  leading := by
    right
    rw [List.head?_append_of_ne_nil _ wholeDigits.nonempty]
    exact wholeDigits.leading.resolve_left notZero

theorem digitChars_ne_zero (positive : 0 < n) : digitChars n ≠ ['0'] := by
  intro zero
  have value := digitsValue_digitChars n
  rw [zero] at value
  exact positive.ne value

theorem isDigit_of_mem_replicate_zero (k : ℕ) : ∀ c ∈ List.replicate k '0', c.isDigit = true := by
  intro c among
  rw [List.eq_of_mem_replicate among]
  rfl

/-- Some digits of a number in front of the point and the rest behind it. -/
theorem spells_split
    (negative : Bool)
    {places : ℕ}
    (positive : 0 < places)
    (enough : places < (digitChars n).length) :
    Spells
      ⟨negative, (digitChars n).take ((digitChars n).length - places),
        some ((digitChars n).drop ((digitChars n).length - places)), none⟩
      negative ⟨n, -places⟩ := by
  have nWhole := areWhole_digitChars n
  have several : digitChars n ≠ ['0'] := by
    intro zero
    rw [zero, List.length_singleton] at enough
    omega
  refine spells_of_point negative ⟨⟨?_, ?_⟩, .inr ?_⟩ ⟨?_, ?_⟩ ?_
  · rw [ne_eq, List.take_eq_nil_iff]
    exact not_or.mpr ⟨by omega, nWhole.nonempty⟩
  · exact fun c among => nWhole.digits c (List.mem_of_mem_take among)
  · rw [List.head?_take, if_neg (by omega)]
    exact nWhole.leading.resolve_left several
  · rw [ne_eq, List.drop_eq_nil_iff]
    omega
  · exact fun c among => nWhole.digits c (List.mem_of_mem_drop among)
  · rw [List.take_append_drop, digitsValue_digitChars, List.length_drop,
      Nat.sub_sub_self enough.le]

/-- Nothing but zeros between the point and the digits of a number. -/
theorem spells_padded (negative : Bool) {places : ℕ} (few : (digitChars n).length ≤ places) :
    Spells
      ⟨negative, ['0'],
        some (List.replicate (places - (digitChars n).length) '0' ++ digitChars n), none⟩
      negative ⟨n, -places⟩ := by
  have nDigits := areDigits_digitChars n
  refine spells_of_point negative areWhole_zero ⟨by simp [nDigits.nonempty], ?_⟩ ?_
  · intro c among
    rcases List.mem_append.mp among with zero | digit
    · exact isDigit_of_mem_replicate_zero _ c zero
    · exact nDigits.digits c digit
  · have zeros :
        digitsValue (['0'] ++ List.replicate (places - (digitChars n).length) '0') = 0 :=
      digitsValue_replicate_zero (places - (digitChars n).length + 1)
    rw [← List.append_assoc, digitsValue_append, zeros, Nat.zero_mul, Nat.zero_add,
      digitsValue_digitChars, List.length_append, List.length_replicate,
      Nat.sub_add_cancel few]

/-- The notation with a point. -/
theorem exists_pointed (negative : Bool) (decimal : Decimal) :
    ∃ whole fraction,
      Spells ⟨negative, whole, some fraction, none⟩ negative decimal ∧
      whole ++ '.' :: fraction = decimal.pointed := by
  obtain ⟨n, e⟩ := decimal
  unfold Decimal.pointed Decimal.plain
  simp only
  by_cases nonnegative : 0 ≤ e
  · rw [if_pos nonnegative, if_pos nonnegative]
    rcases Nat.eq_zero_or_pos n with rfl | positive
    · exact ⟨['0'], ['0'],
        spells_of_point negative areWhole_zero areWhole_zero.toAreDigits
          (by simp [digitsValue, Nat.ofDigitChars]), rfl⟩
    · have wholeDigits := areWhole_append (areWhole_digitChars n) (digitChars_ne_zero positive)
        (isDigit_of_mem_replicate_zero e.toNat)
      refine ⟨digitChars n ++ List.replicate e.toNat '0', ['0'],
        spells_of_point negative wholeDigits areWhole_zero.toAreDigits ?_, ?_⟩
      · have last : digitsValue ['0'] = 0 := rfl
        have power : (10 : ℚ) ^ e = 10 ^ e.toNat := by
          rw [← zpow_natCast, Int.toNat_of_nonneg nonnegative]
        rw [digitsValue_append, digitsValue_append, digitsValue_digitChars,
          digitsValue_replicate_zero, last, List.length_replicate, power, List.length_singleton,
          zpow_neg]
        push_cast
        field_simp
        ring
      · rw [if_neg positive.ne']
  · rw [if_neg nonnegative, if_neg nonnegative]
    obtain ⟨places, rfl⟩ : ∃ places : ℕ, e = -places := ⟨(-e).toNat, by omega⟩
    rw [neg_neg, Int.toNat_natCast]
    split
    · next enough =>
        exact ⟨_, _, spells_split negative (by omega) enough, rfl⟩
    · next few =>
        exact ⟨_, _, spells_padded negative (not_lt.mp few), rfl⟩

/-- The notation that has a point only where there is a fraction. -/
theorem exists_plain (negative : Bool) (decimal : Decimal) :
    ∃ numeral : Numeral, numeral.Proper ∧ numeral.negative = negative ∧
      numeral.magnitude.value = decimal.value ∧
      numeral.chars = signed negative decimal.plain := by
  obtain ⟨n, e⟩ := decimal
  by_cases nonnegative : 0 ≤ e
  · have integer {whole : List Char} (wholeDigits : AreWhole whole)
        (value : (digitsValue whole : ℚ) = n * 10 ^ e)
        (text : (⟨n, e⟩ : Decimal).plain = whole) :
        ∃ numeral : Numeral, numeral.Proper ∧ numeral.negative = negative ∧
          numeral.magnitude.value = (⟨n, e⟩ : Decimal).value ∧
          numeral.chars = signed negative (⟨n, e⟩ : Decimal).plain := by
      refine ⟨⟨negative, whole, none, none⟩, ⟨wholeDigits, nofun, nofun⟩, rfl, ?_, ?_⟩
      · simp [magnitude, exponentValue, Decimal.value, value]
      · simp [chars, fractionChars, exponentChars, text]
    rcases Nat.eq_zero_or_pos n with rfl | positive
    · refine integer areWhole_zero (by simp [digitsValue, Nat.ofDigitChars]) ?_
      simp [Decimal.plain, nonnegative, digitChars_zero]
    · have power : (10 : ℚ) ^ e = 10 ^ e.toNat := by
        rw [← zpow_natCast, Int.toNat_of_nonneg nonnegative]
      refine integer
        (areWhole_append (areWhole_digitChars n) (digitChars_ne_zero positive)
          (isDigit_of_mem_replicate_zero e.toNat)) ?_ ?_
      · rw [digitsValue_append, digitsValue_digitChars, digitsValue_replicate_zero,
          List.length_replicate, power]
        push_cast
        ring
      · simp [Decimal.plain, nonnegative, positive.ne']
  · obtain ⟨whole, fraction, spells, text⟩ := exists_pointed negative ⟨n, e⟩
    refine ⟨_, spells.proper, spells.sign, spells.value, ?_⟩
    rw [Decimal.pointed, if_neg nonnegative] at text
    rw [← text]
    unfold chars fractionChars exponentChars
    rw [List.append_nil]

/-- An integer written as an exponent. -/
def Exponent.ofInt (n : ℤ) : Exponent :=
  ⟨decide (n < 0), digitChars n.natAbs⟩

theorem exponentValue_ofInt
    (negative : Bool)
    (whole : List Char)
    (fraction : Option (List Char))
    (e : ℤ) :
    exponentValue ⟨negative, whole, fraction, some (.ofInt e)⟩ = e := by
  unfold exponentValue Exponent.ofInt
  rcases lt_or_ge e 0 with below | above
  · rw [decide_eq_true below]
    simp only [digitsValue_digitChars]
    omega
  · rw [decide_eq_false (not_lt_of_ge above)]
    simp only [digitsValue_digitChars]
    omega

/-- The notation with an exponent. -/
theorem exists_scientific
    (negative : Bool)
    {decimal : Decimal}
    (positive : 0 < decimal.digits) :
    ∃ numeral : Numeral, numeral.Spells negative decimal ∧
      numeral.chars = signed negative decimal.scientific := by
  obtain ⟨n, e⟩ := decimal
  have nWhole := areWhole_digitChars n
  have heading := head?_digitChars positive
  have value := digitsValue_digitChars n
  cases digits : digitChars n with
  | nil => exact absurd digits nWhole.nonempty
  | cons first rest =>
      rw [digits] at nWhole heading value
      have firstWhole : AreWhole [first] :=
        ⟨⟨List.cons_ne_nil _ _, fun c among => nWhole.digits c (by simp_all)⟩, .inr heading⟩
      have restDigits : ∀ c ∈ rest, c.isDigit = true := fun c among =>
        nWhole.digits c (List.mem_cons_of_mem _ among)
      have exponentDigits := areDigits_digitChars (e + rest.length).natAbs
      refine ⟨⟨negative, [first], if rest = [] then none else some rest,
        some (.ofInt (e + rest.length))⟩,
        ⟨⟨firstWhole, ?_, ?_⟩, rfl, ?_, ?_⟩, ?_⟩
      · intro fraction among
        obtain ⟨nonempty, same⟩ := Option.ite_none_left_eq_some.mp among
        obtain rfl := Option.some.inj same
        exact ⟨nonempty, restDigits⟩
      · rintro exponent ⟨⟩
        exact exponentDigits
      · simp [isWhole]
      · have fraction : (if rest = [] then none else some rest).getD [] = rest := by
          split
          · next none => exact none.symm
          · rfl
        unfold magnitude Decimal.value
        simp only [fraction, exponentValue_ofInt, List.singleton_append, value,
          add_sub_cancel_right]
      · unfold chars Decimal.scientific
        simp only [digits]
        congr 1
        have last : e + ((first :: rest).length : ℤ) - 1 = e + rest.length := by
          rw [List.length_cons]
          omega
        rw [last]
        unfold exponentChars Exponent.ofInt
        cases rest <;> simp [fractionChars]

/-- The notation of JSON. -/
theorem exists_adaptive (negative : Bool) (decimal : Decimal) :
    ∃ numeral : Numeral, numeral.Spells negative decimal ∧
      numeral.chars = signed negative decimal.adaptive := by
  unfold Decimal.adaptive
  split
  · obtain ⟨whole, fraction, spells, text⟩ := exists_pointed negative decimal
    refine ⟨_, spells, ?_⟩
    rw [← text]
    unfold chars fractionChars exponentChars
    rw [List.append_nil]
  · next far =>
      exact exists_scientific negative (Nat.pos_of_ne_zero (not_or.mp far).1)

end Notations

section Doubles

open Binary64

variable {x : Float} {negative : Bool} {quanta : ℕ} {numeral : Numeral}

theorem exists_finite (finite : x.isFinite = true) :
    ∃ negative quanta, ofFloat x = .finite negative quanta ∧
      Representable quanta ∧ quanta < overflow := by
  obtain ⟨a, value⟩ := (isFinite_iff x).mp finite
  obtain ⟨negative, quanta, number, rfl⟩ := exists_finite_of_quanta? value
  have double := isDouble_of_quanta? value
  unfold IsDouble at double
  rw [natAbs_signed] at double
  exact ⟨negative, quanta, number, double⟩

theorem isInf_eq_false (number : ofFloat x = .finite negative quanta) : x.isInf = false := by
  show x.toModel.unpack.isInf = false
  rw [ofFloat_eq_ofUnpacked] at number
  cases unpacked : x.toModel.unpack with
  | infinity s =>
      rw [unpacked] at number
      cases number
  | _ => rfl

/-- Whatever numeral has the value of the shortest decimal reads back as the double. -/
theorem nearest_of_value
    (number : ofFloat x = .finite negative quanta)
    (double : Representable quanta)
    (fits : quanta < overflow)
    (sign : numeral.negative = negative)
    (value : numeral.magnitude.value = (Decimal.shortest quanta).value) :
    nearest numeral = .ok x := by
  have magnitude : ofFloat numeral.magnitude.toFloat = .finite false quanta := by
    rw [Decimal.toFloat_congr value, Decimal.ofFloat_toFloat_shortest double fits]
  have withSign : numeral.withSign numeral.magnitude.toFloat = x := by
    apply ofFloat_injective
    unfold withSign
    rw [number, sign]
    cases negative
    · exact magnitude
    · rw [if_pos rfl, ofFloat_neg, magnitude]
      rfl
  unfold nearest
  simp only [isInf_eq_false magnitude, withSign]
  rfl

/-- So does every numeral that writes it. -/
theorem nearest_of_spells
    (number : ofFloat x = .finite negative quanta)
    (double : Representable quanta)
    (fits : quanta < overflow)
    (spells : numeral.Spells negative (Decimal.shortest quanta)) :
    nearest numeral = .ok x :=
  nearest_of_value number double fits spells.sign spells.value

/-- A text that rounding once reads as a double. -/
def IsReadAs (text : List Char) (x : Float) : Prop :=
  (ofChars? text).map nearest = some (.ok x)

/-- What people read is a text of the double. -/
theorem displayFloat_isReadAs (finite : x.isFinite = true) : IsReadAs (displayFloat x) x := by
  obtain ⟨negative, quanta, number, double, fits⟩ := exists_finite finite
  obtain ⟨numeral, proper, sign, value, text⟩ :=
    exists_plain negative (Decimal.shortest quanta)
  unfold IsReadAs displayFloat
  rw [number]
  simp only
  rw [← text, ofChars?_chars proper, Option.map_some,
    nearest_of_value number double fits sign value]

/-- A finite double in JSON is a proper numeral whose nearest double it is. -/
theorem exists_jsonFloat (finite : x.isFinite = true) :
    ∃ numeral : Numeral, numeral.Proper ∧ numeral.isWhole = false ∧
      numeral.chars = jsonFloat x ∧ nearest numeral = .ok x := by
  obtain ⟨negative, quanta, number, double, fits⟩ := exists_finite finite
  obtain ⟨numeral, spells, text⟩ := exists_adaptive negative (Decimal.shortest quanta)
  refine ⟨numeral, spells.proper, spells.notWhole, ?_, nearest_of_spells number double fits spells⟩
  unfold jsonFloat
  rw [number]
  exact text

/-- What a way to read numerals makes of the text that JSON has for a double. -/
def Reading.ReadsAs (reading : Reading) (x y : Float) : Prop :=
  (ofChars? (jsonFloat x)).map reading = some (.ok y)

/-- It gives the double back. -/
abbrev Reading.Reads (reading : Reading) (x : Float) : Prop :=
  reading.ReadsAs x x

/-- Only finite doubles have such a text. -/
theorem Reading.ReadsAs.isFinite {reading : Reading} {y : Float} (reads : reading.ReadsAs x y) :
    x.isFinite = true := by
  rw [isFinite_iff]
  unfold Reading.ReadsAs jsonFloat at reads
  unfold quanta?
  cases number : ofFloat x with
  | nan =>
      rw [number] at reads
      cases reads
  | infinite s =>
      rw [number] at reads
      cases reads
  | finite s quanta => exact ⟨_, signedQuanta_finite s quanta⟩

theorem Reading.ReadsAs.exists_numeral
    {reading : Reading}
    {y : Float}
    (reads : reading.ReadsAs x y) :
    ∃ numeral : Numeral, numeral.Proper ∧ numeral.isWhole = false ∧
      numeral.chars = jsonFloat x ∧ reading numeral = .ok y := by
  obtain ⟨numeral, proper, notWhole, text, -⟩ := exists_jsonFloat reads.isFinite
  refine ⟨numeral, proper, notWhole, text, ?_⟩
  unfold Reading.ReadsAs at reads
  rw [← text, ofChars?_chars proper] at reads
  exact Option.some.inj reads

/-- Rounding once gives every finite double back. -/
theorem nearest_reads (finite : x.isFinite = true) : Reading.Reads nearest x := by
  obtain ⟨numeral, proper, -, text, value⟩ := exists_jsonFloat finite
  unfold Reading.Reads Reading.ReadsAs
  rw [← text, ofChars?_chars proper, Option.map_some, value]

/-- A finite double in TOML has digits around a point, and it is the nearest double of them. -/
theorem exists_tomlFloat (finite : x.isFinite = true) :
    ∃ negative whole fraction,
      AreWhole whole ∧ AreDigits fraction ∧
      tomlFloat x = signed negative (whole ++ '.' :: fraction) ∧
      nearest ⟨negative, whole, some fraction, none⟩ = .ok x := by
  obtain ⟨negative, quanta, number, double, fits⟩ := exists_finite finite
  obtain ⟨whole, fraction, spells, text⟩ := exists_pointed negative (Decimal.shortest quanta)
  refine ⟨negative, whole, fraction, spells.proper.whole, spells.proper.fraction fraction rfl, ?_,
    nearest_of_spells number double fits spells⟩
  unfold tomlFloat
  rw [number, text]

end Doubles

end Numeral
end WindsAloft
