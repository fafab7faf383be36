import WindsAloft.Json.Token
import WindsAloft.Json.Value
import WindsAloft.Proofs.Decimal.Written
import WindsAloft.Proofs.Scanner

/-!
# The tokens of written values

The scanner for JSON cuts a written text, number or word into one token.  A number has
to be followed by a blank or a mark, everything else may be followed by anything; so
the tokens of texts behind one another are those of the one and then of the other.
-/

namespace WindsAloft
namespace Json
namespace Token

variable {reading : Numeral.Reading} {offset : ℕ} {c : Char} {text rest : List Char}

/-- What has to follow a number: the end of the text, a blank or a mark. -/
def Ends (rest : List Char) : Prop :=
  ∀ c ∈ rest.head?, isBlank c = true ∨ isMark c = true

theorem cuts_blank (blank : isBlank c = true) : (scanner reading).Cuts [c] [] := by
  intro offset rest _
  have moves : (scanner reading).step .between offset c rest = .goOn .between := if_pos blank
  exact ⟨[], rfl, Scanner.scanFrom_of_goOn moves⟩

theorem cuts_blanks {blanks : List Char} (blank : ∀ c ∈ blanks, isBlank c = true) :
    (scanner reading).Cuts blanks [] := by
  induction blanks with
  | nil => exact Scanner.cuts_nil
  | cons c blanks ih =>
      rw [List.forall_mem_cons] at blank
      exact (cuts_blank blank.1).append (ih blank.2)

theorem cuts_mark (mark : isMark c = true) : (scanner reading).Cuts [c] [.mark c] := by
  have notBlank : ¬ isBlank c = true := by
    intro blank
    simp only [isMark, isBlank, Bool.or_eq_true, decide_eq_true_eq] at mark blank
    grind
  refine Scanner.cuts_of_emit (fun _ => .nil) fun _ stop _ => ⟨⟨⟨stop, stop + 1⟩, .mark c⟩, rfl, ?_⟩
  exact (if_neg notBlank).trans (if_pos mark)

theorem cuts_null : (scanner reading).Cuts "null".toList [.scalar .null] :=
  fun offset _ _ => ⟨[⟨⟨offset, offset + 4⟩, .scalar .null⟩], rfl, rfl⟩

theorem cuts_boolChars (b : Bool) :
    (scanner reading).Cuts (boolChars b) [.scalar (.bool b)] := by
  cases b with
  | true => exact fun offset _ _ => ⟨[⟨⟨offset, offset + 4⟩, .scalar (.bool true)⟩], rfl, rfl⟩
  | false => exact fun offset _ _ => ⟨[⟨⟨offset, offset + 5⟩, .scalar (.bool false)⟩], rfl, rfl⟩

section Strings

variable {start : ℕ} {written : List Char}

theorem hexValue?_hexChar {n : ℕ} (digit : n < 16) : hexValue? (hexChar n) = some n := by
  unfold hexChar
  interval_cases n <;> rfl

theorem passes_shortEscape {name : Char} (short : escaped? name = some c) (other : name ≠ 'u') :
    (scanner reading).Passes offset (.string start .plain written none) ['\\', name]
      (.string start .plain (c :: written) none) := by
  refine .cons (fun _ => rfl) (.cons (fun _ => ?_) .nil)
  show stepEscape start written none (offset + '\\'.utf8Size) name = _
  rw [stepEscape, if_neg other, short]

theorem step_hex
    {first missing value digit : ℕ}
    (hex : hexValue? c = some digit)
    (some_missing : 1 < missing) :
    (scanner reading).step (.string start (.hex first missing value none) written none) offset c
        rest =
      .goOn (.string start (.hex first (missing - 1) (value * 16 + digit) none) written none) := by
  show stepHex start written none first missing value none offset c rest = _
  unfold stepHex
  rw [hex]
  simp only [if_neg (not_le_of_gt some_missing)]

theorem step_lastHex
    {first value digit : ℕ}
    {meant : Char}
    (hex : hexValue? c = some digit)
    (coded : value * 16 + digit = meant.toNat)
    (small : meant.toNat < 0xD800) :
    (scanner reading).step (.string start (.hex first 1 value none) written none) offset c rest =
      .goOn (.string start .plain (meant :: written) none) := by
  have notTrailing : isTrailing meant.toNat = false := by
    simp only [isTrailing, Bool.and_eq_false_iff, decide_eq_false_iff_not]
    omega
  have notLeading : isLeading meant.toNat = false := by
    simp only [isLeading, Bool.and_eq_false_iff, decide_eq_false_iff_not]
    omega
  show stepHex start written none first 1 value none offset c rest = _
  unfold stepHex finishHex
  rw [hex]
  simp only [le_refl, if_true, coded, notTrailing, notLeading, Bool.false_eq_true, if_false,
    Char.ofNat_toNat]

/-- A control without a short escape is written by its code. -/
theorem passes_hexEscape (control : c.toNat < 32) :
    (scanner reading).Passes offset (.string start .plain written none)
      ['\\', 'u', '0', '0', hexChar (c.toNat / 16), hexChar (c.toNat % 16)]
      (.string start .plain (c :: written) none) := by
  have high : hexValue? (hexChar (c.toNat / 16)) = some (c.toNat / 16) :=
    hexValue?_hexChar (by omega)
  have low : hexValue? (hexChar (c.toNat % 16)) = some (c.toNat % 16) :=
    hexValue?_hexChar (by omega)
  have zero : hexValue? '0' = some 0 := rfl
  have coded : (((0 * 16 + 0) * 16 + 0) * 16 + c.toNat / 16) * 16 + c.toNat % 16 = c.toNat := by
    omega
  refine .cons (fun _ => rfl) (.cons (fun _ => rfl) (.cons (fun _ => step_hex zero (by norm_num))
    (.cons (fun _ => step_hex zero (by norm_num)) (.cons (fun _ => step_hex high (by norm_num))
      (.cons (fun _ => step_lastHex low coded (by omega)) .nil)))))

/-- Inside a string a written character is the character. -/
theorem passes_escapeChar (c : Char) :
    (scanner reading).Passes offset (.string start .plain written none) (escapeChar c)
      (.string start .plain (c :: written) none) := by
  have of_code {n : ℕ} (code : c.toNat = n) : some (Char.ofNat n) = some c := by
    rw [← code, Char.ofNat_toNat]
  unfold escapeChar
  split_ifs with quote backslash backspace tab newline feed return' control
  · rw [quote]
    exact passes_shortEscape rfl (by decide)
  · rw [backslash]
    exact passes_shortEscape rfl (by decide)
  · exact passes_shortEscape (of_code backspace) (by decide)
  · exact passes_shortEscape (of_code tab) (by decide)
  · exact passes_shortEscape (of_code newline) (by decide)
  · exact passes_shortEscape (of_code feed) (by decide)
  · exact passes_shortEscape (of_code return') (by decide)
  · exact passes_hexEscape control
  · refine .cons (fun _ => ?_) .nil
    show stepPlain start written none offset c = _
    rw [stepPlain, if_neg quote, if_neg backslash, if_neg control]

theorem passes_escaped (content : List Char) :
    (scanner reading).Passes offset (.string start .plain written none)
      (content.flatMap escapeChar) (.string start .plain (content.reverse ++ written) none) := by
  induction content generalizing offset written with
  | nil => exact .nil
  | cons c content ih =>
      rw [List.flatMap_cons, List.reverse_cons, List.append_assoc]
      exact (passes_escapeChar c).append ih

theorem cuts_quoted (s : String) : (scanner reading).Cuts (quoted s) [.string (.ok s)] := by
  have opened (offset : ℕ) : (scanner reading).Passes offset .between
      ('"' :: s.toList.flatMap escapeChar)
      (.string offset .plain (s.toList.reverse ++ []) none) :=
    .cons (fun _ => rfl) (passes_escaped s.toList)
  refine Scanner.cuts_of_emit opened fun offset stop rest =>
    ⟨⟨⟨offset, stop + 1⟩, .string (.ok s)⟩, rfl, ?_⟩
  show Scanner.Progress.emit
    ⟨_, Lexeme.string (.ok (String.ofList (s.toList.reverse ++ []).reverse))⟩ Mode.between = _
  rw [List.append_nil, List.reverse_reverse, String.ofList_toList]
  rfl

end Strings

section Numbers

variable {stage final : NumberStage} {start : ℕ} {written : List Char}

/-- The stage that a number comes to with more of its characters. -/
def NumberStage.run (stage : NumberStage) : List Char → Option NumberStage
  | [] => some stage
  | c :: text => (stage.next? c).bind fun next => next.run text

theorem NumberStage.run_append (stage : NumberStage) (text more : List Char) :
    stage.run (text ++ more) = (stage.run text).bind fun next => next.run more := by
  induction text generalizing stage with
  | nil => rfl
  | cons c text ih =>
      rw [List.cons_append, run, run, Option.bind_assoc]
      exact congrArg _ (funext fun next => ih next)

theorem passes_run (runs : stage.run text = some final) :
    (scanner reading).Passes offset (.number start stage written) text
      (.number start final (text.reverse ++ written)) := by
  induction text generalizing stage offset written with
  | nil =>
      obtain rfl := Option.some.inj runs
      exact .nil
  | cons c text ih =>
      obtain ⟨next, moves, further⟩ := Option.bind_eq_some_iff.mp runs
      rw [List.reverse_cons, List.append_assoc]
      refine .cons (fun _ => ?_) (ih further)
      show stepNumber reading start stage written offset c = _
      rw [stepNumber, moves]
      rfl

theorem isDigit_eq_false_of_ends (ends : isBlank c = true ∨ isMark c = true) :
    c.isDigit = false ∧ c ≠ '.' ∧ c ≠ 'e' ∧ c ≠ 'E' := by
  simp only [isBlank, isMark, Bool.or_eq_true, decide_eq_true_eq] at ends
  rcases ends with (((rfl | rfl) | rfl) | rfl) | (((((rfl | rfl) | rfl) | rfl) | rfl) | rfl) <;>
    decide

/-- A complete number ends in front of a blank or a mark. -/
theorem step_ended
    (complete : stage.mayEndText = true)
    (ends : isBlank c = true ∨ isMark c = true) :
    (scanner reading).step (.number start stage written) offset c rest =
      ((scanner reading).step .between offset c rest).after
        (finishNumber reading start offset written) := by
  obtain ⟨noDigit, noPoint, noMarker, noMarker'⟩ := isDigit_eq_false_of_ends ends
  have nowhere : stage.next? c = none := by
    cases stage <;> simp_all [NumberStage.next?, NumberStage.mayEndText]
  have mayEnd : stage.mayEnd c = true := by
    cases stage <;> simp_all [NumberStage.mayEnd, NumberStage.mayEndText]
  show stepNumber reading start stage written offset c = _
  rw [stepNumber, nowhere]
  exact if_pos mayEnd

/-- The stage behind the first digit. -/
def NumberStage.ofDigit (c : Char) : NumberStage :=
  if c = '0' then .afterZero else .whole

theorem begin_digit (digit : c.isDigit = true) :
    begin offset c = .goOn (.number offset (.ofDigit c) [c]) := by
  have different (other : Char) (noDigit : other.isDigit = false) : c ≠ other := by
    rintro rfl
    rw [digit] at noDigit
    cases noDigit
  have notBlank : ¬ isBlank c = true := by
    simp [isBlank, different ' ' rfl, different '\n' rfl, different '\t' rfl, different '\r' rfl]
  have notMark : ¬ isMark c = true := by
    simp [isMark, different '[' rfl, different ']' rfl, different '{' rfl,
      different '}' rfl, different ':' rfl, different ',' rfl]
  unfold begin NumberStage.ofDigit
  rw [if_neg notBlank, if_neg notMark, if_neg (different '"' rfl), if_neg (different '-' rfl),
    if_pos digit]
  split <;> rfl

theorem next?_afterMinus (digit : c.isDigit = true) :
    NumberStage.afterMinus.next? c = some (.ofDigit c) := by
  simp only [NumberStage.next?, NumberStage.ofDigit, if_pos digit]
  split <;> rfl

/-- A stage that digits do not leave. -/
theorem run_digits
    (stays : ∀ c, c.isDigit = true → stage.next? c = some stage)
    (digits : ∀ c ∈ text, c.isDigit = true) :
    stage.run text = some stage := by
  induction text with
  | nil => rfl
  | cons c text ih =>
      rw [NumberStage.run, stays c (digits c List.mem_cons_self)]
      exact ih fun d among => digits d (List.mem_cons_of_mem _ among)

/-- The digits of a whole part lead to a stage at which the number may end or go on. -/
theorem run_whole {first : Char} {more : List Char} (whole : AreWhole (first :: more)) :
    (NumberStage.ofDigit first).run more = some (.ofDigit first) := by
  rcases whole.leading with zero | notZero
  · obtain ⟨rfl, rfl⟩ := List.cons.inj zero
    rfl
  · have other : first ≠ '0' := fun zero => notZero (by rw [zero]; rfl)
    unfold NumberStage.ofDigit
    rw [if_neg other]
    refine run_digits (fun c digit => ?_) fun c among =>
      whole.digits c (List.mem_cons_of_mem _ among)
    simp [NumberStage.next?, digit]

theorem run_fraction (fraction : AreDigits text) (first : Char) :
    (NumberStage.ofDigit first).run ('.' :: text) = some .fraction := by
  have point : (NumberStage.ofDigit first).next? '.' = some .afterPoint := by
    unfold NumberStage.ofDigit
    split <;> rfl
  cases text with
  | nil => exact absurd rfl fraction.nonempty
  | cons c text =>
      have digit := fraction.digits c List.mem_cons_self
      have more : NumberStage.afterPoint.next? c = some .fraction := if_pos digit
      rw [NumberStage.run, point, Option.bind_some, NumberStage.run, more, Option.bind_some]
      exact run_digits (fun d isDigit => if_pos isDigit) fun d among =>
        fraction.digits d (List.mem_cons_of_mem _ among)

theorem run_exponent
    (marker : stage.next? 'e' = some .afterMarker)
    (negative : Bool)
    (exponent : AreDigits text) :
    stage.run ('e' :: (if negative then '-' else '+') :: text) = some .exponent := by
  have sign : NumberStage.afterMarker.next? (if negative then '-' else '+') =
      some .afterExponentSign := by
    cases negative <;> rfl
  cases text with
  | nil => exact absurd rfl exponent.nonempty
  | cons c text =>
      have digit := exponent.digits c List.mem_cons_self
      have more : NumberStage.afterExponentSign.next? c = some .exponent := if_pos digit
      rw [NumberStage.run, marker, Option.bind_some, NumberStage.run, sign, Option.bind_some,
        NumberStage.run, more, Option.bind_some]
      exact run_digits (fun d isDigit => if_pos isDigit) fun d among =>
        exponent.digits d (List.mem_cons_of_mem _ among)

/-- The characters of a proper numeral behind its first digit end in a complete number. -/
theorem exists_run
    {negative : Bool}
    {first : Char}
    {more : List Char}
    {fraction : Option (List Char)}
    {exponent : Option Numeral.Exponent}
    (proper : Numeral.Proper ⟨negative, first :: more, fraction, exponent⟩) :
    ∃ final, final.mayEndText = true ∧
      (NumberStage.ofDigit first).run
        (more ++ (Numeral.fractionChars fraction ++ Numeral.exponentChars exponent)) =
          some final := by
  have behindFraction :
      ∃ middle : NumberStage, middle.mayEndText = true ∧
        middle.next? 'e' = some .afterMarker ∧
        (NumberStage.ofDigit first).run (Numeral.fractionChars fraction) = some middle := by
    cases fraction with
    | none =>
        refine ⟨.ofDigit first, ?_, ?_, rfl⟩ <;>
          · unfold NumberStage.ofDigit
            split <;> rfl
    | some digits => exact ⟨.fraction, rfl, rfl, run_fraction (proper.fraction digits rfl) first⟩
  obtain ⟨middle, complete, marker, toMiddle⟩ := behindFraction
  rw [NumberStage.run_append, run_whole proper.whole, Option.bind_some, NumberStage.run_append,
    toMiddle, Option.bind_some]
  cases exponent with
  | none => exact ⟨middle, complete, rfl⟩
  | some exponent =>
      exact ⟨.exponent, rfl, run_exponent marker exponent.negative (proper.exponent exponent rfl)⟩

/-- A proper numeral leads to a complete number. -/
theorem exists_passes_numeral {numeral : Numeral} (proper : numeral.Proper) :
    ∃ final : NumberStage, final.mayEndText = true ∧
      ∀ offset, (scanner reading).Passes offset .between numeral.chars
        (.number offset final numeral.chars.reverse) := by
  obtain ⟨negative, whole, fraction, exponent⟩ := numeral
  cases whole with
  | nil => exact absurd rfl proper.whole.nonempty
  | cons first more =>
      have digit := proper.whole.digits first List.mem_cons_self
      obtain ⟨final, complete, runs⟩ := exists_run proper
      refine ⟨final, complete, fun offset => ?_⟩
      cases negative with
      | false =>
          have opened (rest : List Char) : (scanner reading).step .between offset first rest =
              .goOn (.number offset (.ofDigit first) [first]) := begin_digit digit
          simp only [Numeral.chars, signed, Bool.false_eq_true, if_false, List.cons_append,
            List.reverse_cons]
          exact .cons opened (passes_run runs)
      | true =>
          have opened (rest : List Char) : (scanner reading).step .between offset '-' rest =
              .goOn (.number offset .afterMinus ['-']) := rfl
          have signed' : NumberStage.afterMinus.run
              (first :: (more ++
                (Numeral.fractionChars fraction ++ Numeral.exponentChars exponent))) =
                some final := by
            rw [NumberStage.run, next?_afterMinus digit]
            exact runs
          simp only [Numeral.chars, signed, if_true, List.cons_append]
          rw [List.reverse_cons]
          exact .cons opened (passes_run signed')

/-- A proper numeral is one token. -/
theorem cutsBefore_numeral
    {numeral : Numeral}
    {lexeme : Lexeme}
    (proper : numeral.Proper)
    (meaning : ∀ span, (ofNumeral reading span numeral).lexeme = lexeme) :
    (scanner reading).CutsBefore Ends numeral.chars [lexeme] := by
  obtain ⟨final, complete, passes⟩ := exists_passes_numeral proper
  have finished (start stop : ℕ) :
      finishNumber reading start stop numeral.chars.reverse =
        ofNumeral reading ⟨start, stop⟩ numeral := by
    rw [finishNumber, List.reverse_reverse, Numeral.ofChars?_chars proper]
  have meant (offset : ℕ) :
      (ofNumeral reading ⟨offset, offset + Utf8.size numeral.chars⟩ numeral).lexeme = lexeme :=
    meaning _
  refine Scanner.cutsBefore_of_after passes meant (fun offset => ?_) fun offset c rest ends => ?_
  · intro stop
    show finish reading (.number offset final numeral.chars.reverse) stop = _
    rw [finish, if_pos complete, finished]
    rfl
  · rw [← finished]
    exact step_ended complete (ends c rfl)

theorem wholeValue?_integer {n : ℤ} (least : Int64.minValue.toInt ≤ n) (wide : n < UInt64.size) :
    wholeValue? ⟨decide (n < 0), digitChars n.natAbs, none, none⟩ = some n := by
  have whole : Numeral.isWhole ⟨decide (n < 0), digitChars n.natAbs, none, none⟩ = true := rfl
  unfold wholeValue?
  simp only [digitsValue_digitChars, whole, not_true_eq_false, if_false]
  rcases lt_or_ge n 0 with negative | nonnegative
  · rw [decide_eq_true negative, if_pos rfl, if_pos ⟨by omega, by omega⟩]
    congr 1
    omega
  · rw [decide_eq_false (not_lt_of_ge nonnegative), if_neg Bool.false_ne_true, if_pos (by omega)]
    congr 1
    omega

/-- An integer of 64 bits, with a sign or without. -/
theorem cutsBefore_integerChars
    {n : ℤ}
    (least : Int64.minValue.toInt ≤ n)
    (wide : n < UInt64.size) :
    (scanner reading).CutsBefore Ends (integerChars n) [.scalar (.integer n)] := by
  have digits := areWhole_digitChars n.natAbs
  have text : Numeral.chars ⟨decide (n < 0), digitChars n.natAbs, none, none⟩ = integerChars n := by
    unfold Numeral.chars Numeral.fractionChars Numeral.exponentChars integerChars signed
    simp only [List.append_nil, decide_eq_true_eq]
  rw [← text]
  refine cutsBefore_numeral ⟨digits, nofun, nofun⟩ fun span => ?_
  rw [ofNumeral, wholeValue?_integer least wide]

/-- A double counts for what the reading makes of its text. -/
theorem cutsBefore_jsonFloat {x y : Float} (reads : reading.ReadsAs x y) :
    (scanner reading).CutsBefore Ends (jsonFloat x) [.scalar (.real y)] := by
  obtain ⟨numeral, proper, notWhole, text, value⟩ := reads.exists_numeral
  have noInteger : wholeValue? numeral = none := by
    unfold wholeValue?
    rw [notWhole, if_pos Bool.false_ne_true]
  rw [← text]
  refine cutsBefore_numeral proper fun span => ?_
  simp only [ofNumeral, noInteger, value]

end Numbers

end Token
end Json
end WindsAloft
