import WindsAloft.Proofs.Decimal.Written
import WindsAloft.Toml.Scalar

/-!
# Written numbers in TOML

What the notations of this library make of an integer or a finite double is an unquoted
value of TOML of the same kind, and the value is the number itself.
-/

namespace WindsAloft
namespace Toml

open Numeral (splitSign)

variable {negative : Bool} {c : Char} {text whole fraction : List Char}

theorem ne_of_isDigit (digit : c.isDigit = true) (other : Char) (noDigit : other.isDigit = false) :
    c ≠ other := by
  rintro rfl
  rw [digit] at noDigit
  cases noDigit

section Underscores

theorem ne_underscore_of_mem_signed (negative : Bool) (none : ∀ c ∈ text, c ≠ '_') :
    ∀ c ∈ signed negative text, c ≠ '_' := by
  cases negative with
  | false => exact none
  | true =>
      intro c among
      rcases List.mem_cons.mp among with rfl | among
      · decide
      · exact none c among

theorem withoutUnderscores_eq_self (none : ∀ c ∈ text, c ≠ '_') :
    withoutUnderscores text = text :=
  List.filter_eq_self.mpr fun c among => decide_eq_true (none c among)

theorem cutAt_underscore_eq_singleton (none : ∀ c ∈ text, c ≠ '_') : cutAt '_' text = [text] := by
  induction text with
  | nil => rfl
  | cons c text ih =>
      rw [cutAt, if_neg (none c List.mem_cons_self),
        ih fun d among => none d (List.mem_cons_of_mem _ among)]

theorem underscoresFit_of_none (isDigit : Char → Bool) (none : ∀ c ∈ text, c ≠ '_') :
    underscoresFit isDigit text = true := by
  rw [underscoresFit, cutAt_underscore_eq_singleton none]

end Underscores

section Beginnings

theorem splitSign_signed (digit : c.isDigit = true) :
    splitSign (signed negative (c :: text)) = (negative, c :: text) := by
  have different := ne_of_isDigit digit
  cases negative with
  | true => rfl
  | false =>
      unfold signed splitSign
      simp only [Bool.false_eq_true, if_false]
      split
      · next heading => exact absurd (List.cons.inj heading).1 (different '-' rfl)
      · next heading => exact absurd (List.cons.inj heading).1 (different '+' rfl)
      · rfl

theorem special?_of_digit (digit : c.isDigit = true) : special? negative (c :: text) = none := by
  have different := ne_of_isDigit digit
  have noInf : c :: text ≠ "inf".toList := fun same => different 'i' rfl (List.cons.inj same).1
  have noNan : c :: text ≠ "nan".toList := fun same => different 'n' rfl (List.cons.inj same).1
  rw [special?, if_neg noInf, if_neg noNan]

/-- A text that begins with a digit, its sign aside, and names no base is a decimal number. -/
theorem bare?_signed
    (digit : c.isDigit = true)
    (noBase : ∀ d ∈ text.head?, d ≠ 'x' ∧ d ≠ 'o' ∧ d ≠ 'b') :
    bare? (signed negative (c :: text)) =
      number? (signed negative (c :: text)) negative (c :: text) := by
  have different := ne_of_isDigit digit
  -- In front of all words and marks of bases come their first characters: neither a sign nor,
  -- but for the zero of a base, a digit.
  have noWord (first : Char) (word : List Char) (noDigit : first.isDigit = false)
      (noSign : first ≠ '-') : signed negative (c :: text) ≠ first :: word := by
    cases negative with
    | true => exact fun same => noSign (List.cons.inj same).1.symm
    | false => exact fun same => different first noDigit (List.cons.inj same).1
  have noMarker (marker : Char) (rest : List Char)
      (among : marker = 'x' ∨ marker = 'o' ∨ marker = 'b') :
      signed negative (c :: text) ≠ '0' :: marker :: rest := by
    intro same
    cases negative with
    | true => exact absurd (List.cons.inj same).1 (by decide)
    | false =>
        have second := (List.cons.inj same).2
        obtain ⟨noX, noO, noB⟩ := noBase marker (by rw [second]; rfl)
        rcases among with rfl | rfl | rfl <;> contradiction
  have noTrue : signed negative (c :: text) ≠ "true".toList := noWord 't' _ rfl (by decide)
  have noFalse : signed negative (c :: text) ≠ "false".toList := noWord 'f' _ rfl (by decide)
  unfold bare?
  rw [if_neg noTrue, if_neg noFalse]
  split
  · next rest heading => exact absurd heading (noMarker 'x' _ (by simp))
  · next rest heading => exact absurd heading (noMarker 'o' _ (by simp))
  · next rest heading => exact absurd heading (noMarker 'b' _ (by simp))
  · simp only [splitSign_signed digit, special?_of_digit digit]

end Beginnings

section Integers

theorem decimalValue?_signed (negative : Bool) (digits : AreDigits text) :
    decimalValue? (signed negative text) =
      boundedInteger (if negative then -digitsValue text else digitsValue text) := by
  obtain ⟨c, rest, rfl⟩ := List.exists_cons_of_ne_nil digits.nonempty
  have none : ∀ d ∈ c :: rest, d ≠ '_' := fun d among => ne_of_isDigit (digits.digits d among) _ rfl
  have all : (c :: rest).all Char.isDigit = true := List.all_eq_true.mpr digits.digits
  unfold decimalValue?
  simp only [withoutUnderscores_eq_self (ne_underscore_of_mem_signed negative none),
    splitSign_signed (digits.digits c List.mem_cons_self), all, ne_eq, reduceCtorEq,
    not_false_eq_true, and_self, if_true]

/-- Digits without needless zeros, perhaps with a sign, are an integer. -/
theorem bare?_whole (isWhole : AreWhole text) :
    bare? (signed negative text) =
      some (.integer (boundedInteger
        (if negative then -digitsValue text else digitsValue text))) := by
  have value := decimalValue?_signed negative isWhole.toAreDigits
  have none : text.dropWhile Char.isDigit = [] := List.dropWhile_eq_nil_iff.mpr isWhole.digits
  have fits : ¬ (text = [] ∨ (text.head? = some '0' ∧ text ≠ ['0'])) := by
    rintro (empty | ⟨zero, long⟩)
    · exact isWhole.nonempty empty
    · exact isWhole.leading.elim long fun other => other zero
  obtain ⟨c, rest, rfl⟩ := List.exists_cons_of_ne_nil isWhole.nonempty
  have noBase : ∀ d ∈ rest.head?, d ≠ 'x' ∧ d ≠ 'o' ∧ d ≠ 'b' := by
    intro d among
    have digit := isWhole.digits d (List.mem_cons_of_mem _ (List.mem_of_mem_head? among))
    exact ⟨ne_of_isDigit digit _ rfl, ne_of_isDigit digit _ rfl, ne_of_isDigit digit _ rfl⟩
  rw [bare?_signed (isWhole.digits c List.mem_cons_self) noBase, number?, none]
  simp only [if_neg fits, value]

theorem integerChars_eq_signed (n : ℤ) :
    integerChars n = signed (decide (n < 0)) (digitChars n.natAbs) := by
  unfold integerChars signed
  simp only [decide_eq_true_eq]

/-- An integer of at most 128 bits is read back from its digits. -/
theorem bare?_integerChars {n : ℤ} (wide : fitsWide n = true) :
    bare? (integerChars n) = some (.integer (some n)) := by
  have value : (if decide (n < 0) = true then -(n.natAbs : ℤ) else n.natAbs) = n := by
    split
    · next below => have := of_decide_eq_true below; omega
    · next above => have := of_decide_eq_false (Bool.eq_false_of_not_eq_true above); omega
  rw [integerChars_eq_signed, bare?_whole (areWhole_digitChars _), digitsValue_digitChars, value,
    boundedInteger, if_pos wide]

end Integers

section Doubles

theorem splitDigits?_append
    {more : List Char}
    (digits : AreDigits text)
    (stops : ∀ c ∈ more.head?, isDigitOrUnderscore c = false) :
    splitDigits? (text ++ more) = some (text, more) := by
  have none : ∀ c ∈ text, c ≠ '_' := fun c among => ne_of_isDigit (digits.digits c among) _ rfl
  have all : ∀ c ∈ text, isDigitOrUnderscore c = true := by
    intro c among
    rw [isDigitOrUnderscore, digits.digits c among, Bool.true_or]
  have taken : (text ++ more).takeWhile isDigitOrUnderscore = text := by
    rw [List.takeWhile_append_of_pos all]
    cases more with
    | nil => simp
    | cons c more => simp [stops c rfl]
  have dropped : (text ++ more).dropWhile isDigitOrUnderscore = more := by
    rw [List.dropWhile_append_of_pos all]
    cases more with
    | nil => simp
    | cons c more => simp [stops c rfl]
  have some_digit : text.any Char.isDigit = true := by
    obtain ⟨c, rest, rfl⟩ := List.exists_cons_of_ne_nil digits.nonempty
    exact List.any_eq_true.mpr ⟨c, List.mem_cons_self, digits.digits c List.mem_cons_self⟩
  unfold splitDigits?
  simp only [taken, dropped, some_digit, if_true, withoutUnderscores_eq_self none]

theorem hasLeadingZero_eq_false (isWhole : AreWhole whole) :
    hasLeadingZero (whole ++ '.' :: fraction) = false := by
  have head : (whole ++ '.' :: fraction).head? = whole.head? :=
    List.head?_append_of_ne_nil _ isWhole.nonempty
  rw [hasLeadingZero, head]
  rcases isWhole.leading with rfl | other
  · rfl
  · rw [decide_eq_false other, Bool.false_and]

/-- Digits around a point are the numeral that they look like. -/
theorem numeral?_pointed (isWhole : AreWhole whole) (digits : AreDigits fraction) :
    numeral? negative (whole ++ '.' :: fraction) =
      some ⟨negative, whole, some fraction, none⟩ := by
  have wholeSplit : splitDigits? (whole ++ '.' :: fraction) = some (whole, '.' :: fraction) :=
    splitDigits?_append isWhole.toAreDigits (by rintro c ⟨⟩; rfl)
  have fractionSplit : splitFraction? ('.' :: fraction) = some (some fraction, []) := by
    have split : splitDigits? (fraction ++ []) = some (fraction, []) :=
      splitDigits?_append digits nofun
    rw [List.append_nil] at split
    rw [splitFraction?, split]
    rfl
  rw [numeral?, hasLeadingZero_eq_false isWhole, if_neg Bool.false_ne_true, wholeSplit]
  simp only [Option.bind_eq_bind, Option.bind_some, fractionSplit, exponent?]
  rfl

/-- Digits around a point, perhaps with a sign, are the nearest double. -/
theorem bare?_pointed (isWhole : AreWhole whole) (digits : AreDigits fraction) :
    bare? (signed negative (whole ++ '.' :: fraction)) =
      some (.real (boundedReal ⟨negative, whole, some fraction, none⟩)) := by
  have noUnderscore : ∀ c ∈ whole ++ '.' :: fraction, c ≠ '_' := by
    intro c among
    rcases List.mem_append.mp among with inWhole | among
    · exact ne_of_isDigit (isWhole.digits c inWhole) _ rfl
    · rcases List.mem_cons.mp among with rfl | inFraction
      · decide
      · exact ne_of_isDigit (digits.digits c inFraction) _ rfl
  have noBlank : ¬ (' ' ∈ fraction ∨ '.' = ' ') := by
    rintro (among | same)
    · cases digits.digits ' ' among
    · cases same
  have fits := underscoresFit_of_none Char.isDigit
    (ne_underscore_of_mem_signed negative noUnderscore)
  have head : (signed negative (whole ++ '.' :: fraction)).head? ≠ some '_' := fun same =>
    ne_underscore_of_mem_signed negative noUnderscore '_' (List.mem_of_mem_head? same) rfl
  have behind : (whole ++ '.' :: fraction).dropWhile Char.isDigit = '.' :: fraction :=
    (Numeral.takeWhile_dropWhile_digits isWhole.toAreDigits (by rintro c ⟨⟩; rfl)).2
  have isReal : real? (signed negative (whole ++ '.' :: fraction)) negative
      (whole ++ '.' :: fraction) =
        some (.real (boundedReal ⟨negative, whole, some fraction, none⟩)) := by
    rw [real?, if_pos ⟨fits, head⟩, numeral?_pointed isWhole digits, Option.map_some]
  have begins : bare? (signed negative (whole ++ '.' :: fraction)) =
      number? (signed negative (whole ++ '.' :: fraction)) negative
        (whole ++ '.' :: fraction) := by
    obtain ⟨c, rest, rfl⟩ := List.exists_cons_of_ne_nil isWhole.nonempty
    refine bare?_signed (isWhole.digits c List.mem_cons_self) fun d among => ?_
    cases rest with
    | nil =>
        obtain rfl := Option.some.inj among
        decide
    | cons first rest =>
        obtain rfl := Option.some.inj among
        have digit := isWhole.digits first (by simp)
        exact ⟨ne_of_isDigit digit _ rfl, ne_of_isDigit digit _ rfl, ne_of_isDigit digit _ rfl⟩
  have marked : ('.' :: fraction).any marksReal = true := rfl
  rw [begins, number?, behind]
  show (if ' ' ∈ fraction ∨ '.' = ' ' then none
    else if ('.' :: fraction).any marksReal then _ else _) = _
  rw [if_neg noBlank, if_pos marked, isReal]

/-- A finite double is read back from its notation in TOML. -/
theorem bare?_tomlFloat {x : Float} (finite : x.isFinite = true) :
    bare? (tomlFloat x) = some (.real (some x)) := by
  obtain ⟨negative, whole, fraction, isWhole, digits, text, value⟩ :=
    Numeral.exists_tomlFloat finite
  rw [text, bare?_pointed isWhole digits, boundedReal, value]

end Doubles

end Toml
end WindsAloft
