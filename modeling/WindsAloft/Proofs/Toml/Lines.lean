import WindsAloft.Proofs.Document.Content
import WindsAloft.Proofs.Toml.Scanning
import WindsAloft.Toml.Table

/-!
# The statements of lines

A line with a key and a value is one statement of a TOML text, and so is the header of
a section; the statement says what the line says.  The text of several lines is the
sequence of their statements.
-/

namespace WindsAloft
namespace Toml

/-- How a value stands behind an equals sign. -/
def valueChars : Json → List Char
  | .integer n => integerChars n
  | .real x => tomlFloat x
  | .text s => Json.quoted s
  | _ => []

/-- The values that a line can hold. -/
def FitsLine : Json → Prop
  | .integer n => fitsWide n = true
  | .real x => x.isFinite = true
  | .text s => s ≠ "" ∧ ∀ c ∈ s.toList, Token.IsPlain c
  | _ => False

/-- A name that needs no quotes. -/
structure IsBareName (name : String) : Prop where
  nonempty : name ≠ ""
  all : name.toList.all isKeyChar = true

instance (name : String) : Decidable (IsBareName name) :=
  decidable_of_iff (name ≠ "" ∧ name.toList.all isKeyChar = true)
    ⟨fun both => ⟨both.1, both.2⟩, fun bare => ⟨bare.nonempty, bare.all⟩⟩

theorem IsBareName.keyChars {name : String} (bare : IsBareName name) :
    ∀ c ∈ name.toList, isKeyChar c = true :=
  List.all_eq_true.mp bare.all

/-- A header, or a key with a value. -/
inductive Line where
  | header (name : String)
  | entry (name : String) (value : Json)

namespace Line

/-- The characters of a line; a header comes behind an empty line. -/
def chars : Line → List Char
  | header name => Settings.tomlSection name []
  | entry name value => Settings.tomlLine name (valueChars value)

/-- Names without quotes, and values that have a text. -/
def Proper : Line → Prop
  | header name => IsBareName name
  | entry name value => IsBareName name ∧ FitsLine value

end Line

/-- The only token of a value. -/
def valueLexeme : Json → Lexeme
  | .text s => .text s false
  | json => .run (valueChars json)

/-- The contents of the tokens of a line. -/
def Line.lexemes : Line → List Lexeme
  | header name => [.lineEnd, .mark '[', .run name.toList, .mark ']', .lineEnd]
  | entry name value =>
      [.run name.toList, .blank true, .mark '=', .blank true, valueLexeme value, .lineEnd]

namespace Token

theorem IsRun.signed {negative : Bool} {text : List Char} (isRun : IsRun text) :
    IsRun (signed negative text) := by
  cases negative with
  | false => exact isRun
  | true =>
      refine ⟨List.cons_ne_nil _ _, fun c among => ?_⟩
      rcases List.mem_cons.mp among with rfl | among
      · decide
      · exact isRun.runs c among

theorem isRun_integerChars (n : ℤ) : IsRun (integerChars n) := by
  have digits := areDigits_digitChars n.natAbs
  have isRun : IsRun (digitChars n.natAbs) :=
    ⟨digits.nonempty, fun c among => runsOn_of_isDigit (digits.digits c among)⟩
  rw [integerChars_eq_signed]
  exact isRun.signed

theorem isRun_tomlFloat {x : Float} (finite : x.isFinite = true) : IsRun (tomlFloat x) := by
  obtain ⟨negative, whole, fraction, isWhole, digits, text, -⟩ := Numeral.exists_tomlFloat finite
  have isRun : IsRun (whole ++ '.' :: fraction) := by
    refine ⟨List.append_ne_nil_of_left_ne_nil isWhole.nonempty _, fun c among => ?_⟩
    rcases List.mem_append.mp among with inWhole | among
    · exact runsOn_of_isDigit (isWhole.digits c inWhole)
    · rcases List.mem_cons.mp among with rfl | inFraction
      · decide
      · exact runsOn_of_isDigit (digits.digits c inFraction)
  rw [text]
  exact isRun.signed

theorem isRun_name {name : String} (bare : IsBareName name) : IsRun name.toList :=
  ⟨mt String.toList_eq_nil_iff.mp bare.nonempty,
    fun c among => runsOn_of_isKeyChar (bare.keyChars c among)⟩

theorem cutsBefore_valueChars {value : Json} (fits : FitsLine value) :
    scanner.CutsBefore RunMayEnd (valueChars value) [valueLexeme value] := by
  cases value with
  | integer n => exact cutsBefore_run (isRun_integerChars n)
  | real x => exact cutsBefore_run (isRun_tomlFloat fits)
  | text s => exact fun offset rest _ => cuts_quoted fits.1 fits.2 offset rest trivial
  | _ => exact fits.elim

theorem blankMayEnd_valueChars {value : Json} (fits : FitsLine value) (rest : List Char) :
    BlankMayEnd (valueChars value ++ rest) := by
  cases value with
  | integer n => exact (isRun_integerChars n).blankMayEnd
  | real x => exact (isRun_tomlFloat fits).blankMayEnd
  | text s =>
      rintro c ⟨⟩
      decide
  | _ => exact fits.elim

theorem runMayEnd_cons {c : Char} (ends : EndsRun c) (rest : List Char) :
    RunMayEnd (c :: rest) := by
  rintro d ⟨⟩
  exact ends

theorem cuts_header {name : String} (bare : IsBareName name) :
    scanner.Cuts (Line.header name).chars (Line.header name).lexemes := by
  have ending := (cuts_mark (c := ']') rfl).append cuts_lineEnd
  have named := (cutsBefore_run (isRun_name bare)).append ending
    fun rest _ => runMayEnd_cons (by decide) _
  have all := cuts_lineEnd.append ((cuts_mark (c := '[') rfl).append named)
  simpa [Line.chars, Line.lexemes, Settings.tomlSection] using all

theorem cuts_entry {name : String} {value : Json} (bare : IsBareName name) (fits : FitsLine value) :
    scanner.Cuts (Line.entry name value).chars (Line.entry name value).lexemes := by
  have valued := (cutsBefore_valueChars fits).append cuts_lineEnd
    fun rest _ => runMayEnd_cons (by decide) _
  have behind := cutsBefore_blank.append valued fun rest _ => by
    rw [List.append_assoc]
    exact blankMayEnd_valueChars fits _
  have middle := cutsBefore_blank.append ((cuts_mark (c := '=') rfl).append behind)
    fun rest _ => by
      rintro c ⟨⟩
      decide
  have all := (cutsBefore_run (isRun_name bare)).append middle
    fun rest _ => runMayEnd_cons (by decide) _
  simpa [Line.chars, Line.lexemes, Settings.tomlLine] using all

theorem cuts_line {line : Line} (proper : line.Proper) : scanner.Cuts line.chars line.lexemes := by
  cases line with
  | header name => exact cuts_header proper
  | entry name value => exact cuts_entry proper.1 proper.2

end Token

/-- A statement says what a line says. -/
inductive Statement.Says : Statement → Line → Prop
  | header {name : Name} {span : Span} : Says (.table [name] span) (.header name.text)
  | entry {name : Name} {value : Value} {doc : Doc} {item : Json} :
      value.toDoc = .ok doc → doc.content? = some item →
        Says (.entry [name] value) (.entry name.text item)

section Keys

variable {chars : List Char}

theorem piecesOfRun_of_keyChars
    (start : ℕ)
    {written : List Char}
    {offset : ℕ}
    (keyChars : ∀ c ∈ chars, isKeyChar c = true)
    (nonempty : chars ≠ [] ∨ written ≠ []) :
    ∃ span, piecesOfRun start written offset chars =
      [.name ⟨String.ofList (written.reverse ++ chars), span⟩] := by
  induction chars generalizing written offset with
  | nil =>
      have some_written : written.isEmpty = false :=
        List.isEmpty_eq_false_iff.mpr (nonempty.resolve_left fun none => none rfl)
      refine ⟨⟨start, offset⟩, ?_⟩
      rw [piecesOfRun, piecesOfRun.endName, some_written, List.append_nil]
      rfl
  | cons c chars ih =>
      have noPoint : c ≠ '.' := by
        rintro rfl
        cases keyChars '.' List.mem_cons_self
      obtain ⟨span, pieces⟩ := @ih (c :: written) (offset + c.utf8Size)
        (fun d among => keyChars d (List.mem_cons_of_mem _ among)) (.inr (List.cons_ne_nil _ _))
      refine ⟨span, ?_⟩
      rw [piecesOfRun, if_neg noPoint, pieces, List.reverse_cons, List.append_assoc,
        List.singleton_append]

/-- A name without quotes is a key of one part, with or without a blank behind it. -/
theorem keyOf_bareName
    {name : String}
    {token : Token Lexeme}
    (blanks : List (Token Lexeme))
    (bare : IsBareName name)
    (run : token.lexeme = .run name.toList)
    (blank : ∀ other ∈ blanks, other.lexeme = .blank true) :
    ∃ key : Name, key.text = name ∧ keyOf (blanks ++ [token]) = some [key] := by
  have all : name.toList.all (fun c => isKeyChar c || c = '.') = true := by
    refine List.all_eq_true.mpr fun c among => ?_
    rw [bare.keyChars c among, Bool.true_or]
  have behind : ∀ others : List (Token Lexeme), (∀ other ∈ others, other.lexeme = .blank true) →
      keyPieces others = some [] := by
    intro others
    induction others with
    | nil => exact fun _ => rfl
    | cons other others ih =>
        intro blank
        rw [keyPieces, blank other List.mem_cons_self]
        exact ih fun next among => blank next (List.mem_cons_of_mem _ among)
  obtain ⟨span, pieces⟩ := @piecesOfRun_of_keyChars name.toList token.span.start []
    token.span.start bare.keyChars (.inl (mt String.toList_eq_nil_iff.mp bare.nonempty))
  refine ⟨⟨name, span⟩, rfl, ?_⟩
  have read : keyPieces (blanks ++ [token]).reverse = some [.name ⟨name, span⟩] := by
    rw [List.reverse_append, List.reverse_singleton, List.singleton_append, keyPieces, run]
    simp only [all, if_true, pieces]
    rw [behind _ fun other among => blank other (List.mem_reverse.mp among)]
    simp
  rw [keyOf, read]
  rfl

end Keys

section Statements

variable {tokens : List (Token Lexeme)} (before : List Statement)

theorem stepAll_cons
    {reading next : Reading}
    {token : Token Lexeme}
    (moves : step reading token = .ok next) :
    stepAll reading (token :: tokens) = stepAll next tokens := by
  rw [stepAll, moves]

theorem stepAll_append (reading : Reading) (tokens more : List (Token Lexeme)) :
    stepAll reading (tokens ++ more) =
      (stepAll reading tokens).bind fun reading => stepAll reading more := by
  induction tokens generalizing reading with
  | nil => rfl
  | cons token tokens ih =>
      rw [List.cons_append, stepAll, stepAll]
      cases step reading token with
      | error flaw => rfl
      | ok next => exact ih next

/-- The tokens of a header are one statement. -/
theorem stepAll_header
    {name : String}
    (bare : IsBareName name)
    (written : tokens.map Token.lexeme = (Line.header name).lexemes) :
    ∃ statement : Statement, statement.Says (.header name) ∧
      stepAll ⟨before, .lineStart⟩ tokens = .ok ⟨statement :: before, .lineStart⟩ := by
  rw [Line.lexemes] at written
  obtain ⟨first, tokens, rfl, isFirst, written⟩ := List.map_eq_cons_iff.mp written
  obtain ⟨left, tokens, rfl, isLeft, written⟩ := List.map_eq_cons_iff.mp written
  obtain ⟨run, tokens, rfl, isRun, written⟩ := List.map_eq_cons_iff.mp written
  obtain ⟨right, tokens, rfl, isRight, written⟩ := List.map_eq_cons_iff.mp written
  obtain ⟨last, tokens, rfl, isLast, none⟩ := List.map_eq_cons_iff.mp written
  obtain rfl := List.map_eq_nil_iff.mp none
  obtain ⟨key, rfl, named⟩ := keyOf_bareName [] bare isRun nofun
  refine ⟨.table [key] ⟨left.span.start, right.span.stop⟩, .header, ?_⟩
  have passes : step ⟨before, .lineStart⟩ first = .ok ⟨before, .lineStart⟩ := by
    simp only [step, stepLineStart, isFirst]
  have opens : step ⟨before, .lineStart⟩ left = .ok ⟨before, .headerOpened left.span.start⟩ := by
    simp only [step, stepLineStart, isLeft]
  have names : step ⟨before, .headerOpened left.span.start⟩ run =
      .ok ⟨before, .header left.span.start false [run]⟩ := by
    simp [step, stepHeader, isRun]
  have closes : step ⟨before, .header left.span.start false [run]⟩ right =
      .ok ⟨.table [key] ⟨left.span.start, right.span.stop⟩ :: before, .lineEnd⟩ := by
    rw [List.nil_append] at named
    simp only [step, stepHeader, isRight, named]
  rw [stepAll_cons passes, stepAll_cons opens, stepAll_cons names, stepAll_cons closes, stepAll,
    step, stepLineEnd, isLast]
  rfl

/-- A value and the end of its line complete an entry. -/
theorem stepAll_value
    {value : Json}
    {key : Name}
    {token last : Token Lexeme}
    (fits : FitsLine value)
    (isValue : token.lexeme = valueLexeme value)
    (isLast : last.lexeme = .lineEnd) :
    ∃ statement : Statement, statement.Says (.entry key.text value) ∧
      stepAll ⟨before, .value [.entry [key]]⟩ [token, last] =
        .ok ⟨statement :: before, .lineStart⟩ := by
  have placed {chars : List Char} {bare : Bare} {item : Json}
      (isRun : token.lexeme = .run chars)
      (isBare : bare? chars = some bare)
      (said : (bare.toDoc token.span).content? = some item) :
      ∃ statement : Statement, statement.Says (.entry key.text item) ∧
        stepAll ⟨before, .value [.entry [key]]⟩ [token, last] =
          .ok ⟨statement :: before, .lineStart⟩ := by
    refine ⟨.entry [key] (.bare bare token.span), .entry rfl said, ?_⟩
    have waits : step ⟨before, .value [.entry [key]]⟩ token =
        .ok ⟨before, .bare [.entry [key]] chars token.span⟩ := by
      simp only [step, stepValue, isRun]
    have ends : step ⟨before, .bare [.entry [key]] chars token.span⟩ last =
        .ok ⟨.entry [key] (.bare bare token.span) :: before, .lineStart⟩ := by
      simp only [step, isLast, placeBare, isBare, Except.bind, place, stepBehind, stepLineEnd]
    rw [stepAll_cons waits, stepAll_cons ends, stepAll]
  cases value with
  | integer n => exact placed isValue (bare?_integerChars fits) rfl
  | real x => exact placed isValue (bare?_tomlFloat fits) rfl
  | text s =>
      refine ⟨.entry [key] (.text s token.span), .entry rfl rfl, ?_⟩
      have ends : step ⟨before, .value [.entry [key]]⟩ token =
          .ok ⟨.entry [key] (.text s token.span) :: before, .lineEnd⟩ := by
        simp only [step, stepValue, isValue, valueLexeme, place]
      rw [stepAll_cons ends, stepAll, step, stepLineEnd, isLast]
      rfl
  | _ => exact fits.elim

/-- The tokens of a key with a value are one statement. -/
theorem stepAll_entry
    {name : String}
    {value : Json}
    (bare : IsBareName name)
    (fits : FitsLine value)
    (written : tokens.map Token.lexeme = (Line.entry name value).lexemes) :
    ∃ statement : Statement, statement.Says (.entry name value) ∧
      stepAll ⟨before, .lineStart⟩ tokens = .ok ⟨statement :: before, .lineStart⟩ := by
  rw [Line.lexemes] at written
  obtain ⟨run, tokens, rfl, isRun, written⟩ := List.map_eq_cons_iff.mp written
  obtain ⟨blank, tokens, rfl, isBlank, written⟩ := List.map_eq_cons_iff.mp written
  obtain ⟨equals, tokens, rfl, isEquals, written⟩ := List.map_eq_cons_iff.mp written
  obtain ⟨second, tokens, rfl, isSecond, written⟩ := List.map_eq_cons_iff.mp written
  obtain ⟨token, tokens, rfl, isValue, written⟩ := List.map_eq_cons_iff.mp written
  obtain ⟨last, tokens, rfl, isLast, none⟩ := List.map_eq_cons_iff.mp written
  obtain rfl := List.map_eq_nil_iff.mp none
  obtain ⟨key, rfl, named⟩ := keyOf_bareName [blank] bare isRun
    fun other among => by rw [List.mem_singleton.mp among, isBlank]
  obtain ⟨statement, holds, ended⟩ := stepAll_value before fits isValue isLast
  refine ⟨statement, holds, ?_⟩
  have begins : step ⟨before, .lineStart⟩ run = .ok ⟨before, .key [run]⟩ := by
    simp only [step, stepLineStart, isRun]
  have goesOn : step ⟨before, .key [run]⟩ blank = .ok ⟨before, .key [blank, run]⟩ := by
    simp only [step, stepKey, isBlank]
  have names : step ⟨before, .key [blank, run]⟩ equals =
      .ok ⟨before, .value [.entry [key]]⟩ := by
    rw [List.singleton_append] at named
    simp only [step, stepKey, isEquals, named]
  have passes : step ⟨before, .value [.entry [key]]⟩ second =
      .ok ⟨before, .value [.entry [key]]⟩ := by
    simp only [step, stepValue, isSecond]
  rw [stepAll_cons begins, stepAll_cons goesOn, stepAll_cons names, stepAll_cons passes, ended]

theorem stepAll_line
    {line : Line}
    (proper : line.Proper)
    (written : tokens.map Token.lexeme = line.lexemes) :
    ∃ statement : Statement, statement.Says line ∧
      stepAll ⟨before, .lineStart⟩ tokens = .ok ⟨statement :: before, .lineStart⟩ := by
  cases line with
  | header name => exact stepAll_header before proper written
  | entry name value => exact stepAll_entry before proper.1 proper.2 written

end Statements

/-- What the tokens of several lines are as statements. -/
theorem scanFrom_lines
    {lines : List Line}
    (proper : ∀ line ∈ lines, line.Proper)
    (offset : ℕ) :
    ∃ tokens, Token.scanner.scanFrom .between offset (lines.flatMap Line.chars) = ⟨tokens, none⟩ ∧
      ∀ before, ∃ statements, List.Forall₂ Statement.Says statements lines ∧
        stepAll ⟨before, .lineStart⟩ tokens = .ok ⟨statements.reverse ++ before, .lineStart⟩ := by
  induction lines generalizing offset with
  | nil => exact ⟨[], rfl, fun before => ⟨[], .nil, rfl⟩⟩
  | cons line lines ih =>
      have properLine := proper line List.mem_cons_self
      obtain ⟨first, written, cut⟩ :=
        Token.cuts_line properLine offset (lines.flatMap Line.chars) trivial
      obtain ⟨more, scanned, others⟩ :=
        ih (fun other among => proper other (List.mem_cons_of_mem _ among))
          (offset + Utf8.size line.chars)
      refine ⟨first ++ more, ?_, fun before => ?_⟩
      · rw [List.flatMap_cons]
        exact cut.trans (congrArg (Scanner.Scanned.behind first) scanned)
      · obtain ⟨statement, holds, stepped⟩ := stepAll_line before properLine written
        obtain ⟨statements, saysOthers, steppedOthers⟩ := others (statement :: before)
        refine ⟨statement :: statements, .cons holds saysOthers, ?_⟩
        rw [stepAll_append, stepped, List.reverse_cons, List.append_assoc]
        exact steppedOthers

/-- A text of lines does not begin with a byte order mark. -/
theorem scanAll_lines {lines : List Line} (proper : ∀ line ∈ lines, line.Proper) :
    Token.scanAll (lines.flatMap Line.chars) =
      Token.scanner.scanFrom .between 0 (lines.flatMap Line.chars) := by
  have head : ∀ c ∈ (lines.flatMap Line.chars).head?, c ≠ Token.byteOrderMark := by
    cases lines with
    | nil => exact nofun
    | cons line lines =>
        have properLine := proper line List.mem_cons_self
        rw [List.flatMap_cons]
        cases line with
        | header name =>
            rintro c ⟨⟩
            decide
        | entry name value =>
            obtain ⟨c, more, chars⟩ : ∃ c more, name.toList = c :: more :=
              List.exists_cons_of_ne_nil (mt String.toList_eq_nil_iff.mp properLine.1.nonempty)
            have key := properLine.1.keyChars c (by rw [chars]; exact List.mem_cons_self)
            rw [Line.chars, Settings.tomlLine, chars]
            rintro d ⟨⟩ rfl
            exact absurd key (by decide)
  unfold Token.scanAll
  split
  · next none => rw [none]; rfl
  · next c rest heading => rw [if_neg (head c (by rw [heading]; rfl)), heading]

/-- A text of lines is the sequence of their statements. -/
theorem statements_lines {lines : List Line} (proper : ∀ line ∈ lines, line.Proper) :
    ∃ said, statements (lines.flatMap Line.chars) = .ok said ∧
      List.Forall₂ Statement.Says said lines := by
  obtain ⟨tokens, scanned, stepped⟩ := scanFrom_lines proper 0
  obtain ⟨said, holds, ended⟩ := stepped []
  refine ⟨said, ?_, holds⟩
  rw [statements, Token.scan, scanAll_lines proper, scanned]
  show (stepAll ⟨[], .lineStart⟩ tokens).bind _ = _
  rw [ended, List.append_nil]
  show Except.ok said.reverse.reverse = _
  rw [List.reverse_reverse]

end Toml
end WindsAloft
