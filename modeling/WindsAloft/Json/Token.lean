import WindsAloft.Decimal.Numeral
import WindsAloft.Document.Fault
import WindsAloft.Text.Hex

/-!
# The tokens of a JSON text

`Json.Token.scan` cuts a text into punctuation marks, words, numbers and
strings.  A token that breaks the grammar carries the fault that a reader of it would
report, and the one that somebody who skips it would: strings with stray
surrogates and numbers out of range may well be skipped.
-/

namespace WindsAloft
namespace Json

inductive Lexeme where
  /-- One of the marks `[`, `]`, `{`, `}`, `:` and `,`. -/
  | mark (c : Char)
  | scalar (value : Scalar)
  | string (s : Except Fault String)
  /-- A number that no double can hold. -/
  | outOfRange (whenRead : Fault)
  /-- A word or number that breaks off.  Nothing can follow it. -/
  | broken (whenRead whenSkipped : Fault)
  | brokenString (whenRead whenSkipped : Fault)
  /-- A character that begins no token. -/
  | stray

namespace Token

inductive NumberStage where
  | afterMinus
  | afterZero
  | whole
  | afterPoint
  | fraction
  | afterMarker
  | afterExponentSign
  | exponent
  deriving DecidableEq, Repr

inductive StringStage where
  | plain
  | afterBackslash
  /-- Inside four hexadecimal digits: where they begin, how many are missing, their value so far. -/
  | hex (start missing value : Nat) (leading : Option Nat)
  /-- Behind a leading surrogate, which a trailing one has to follow. -/
  | afterLeading (leading : Nat)
  /-- The same, and a backslash has been seen. -/
  | afterLeadingBackslash (leading : Nat)
  deriving DecidableEq, Repr

inductive Mode where
  | between
  | word (start : Nat) (value : Scalar) (missing : List Char)
  /-- The characters of the number so far, the last one first. -/
  | number (start : Nat) (stage : NumberStage) (written : List Char)
  /-- The characters of the string so far, the last one first, and what keeps it from being read. -/
  | string (start : Nat) (stage : StringStage) (written : List Char) (unreadable : Option Fault)

/-- The scan stops with a token that nothing can follow. -/
abbrev Progress : Type :=
  Scanner.Progress Lexeme (Token Lexeme) Mode

/-- A word or number breaks off, however it is looked at. -/
def breakOff (span : Span) (fault : Fault) : Progress :=
  .stop ⟨span, .broken fault fault⟩

def isBlank (c : Char) : Bool :=
  c = ' ' || c = '\n' || c = '\t' || c = '\r'

/-- Whether a character is a token of its own. -/
def isMark (c : Char) : Bool :=
  c = '[' || c = ']' || c = '{' || c = '}' || c = ':' || c = ','

/-- The value of a whole number: an integer of 64 bits, with minus zero not among them. -/
def wholeValue? (numeral : Numeral) : Option Int :=
  let n := digitsValue numeral.whole
  if ¬ numeral.isWhole then none
  else if numeral.negative then
    if 0 < n ∧ Int64.minValue.toInt ≤ -n then some (-n) else none
  else
    if n < UInt64.size then some n else none

def ofNumeral (reading : Numeral.Reading) (span : Span) (numeral : Numeral) :
    Token Lexeme :=
  match wholeValue? numeral with
  | some n => ⟨span, .scalar (.integer n)⟩
  | none =>
      match reading numeral with
      | .ok x => ⟨span, .scalar (.real x)⟩
      | .error unread =>
          ⟨span, .outOfRange (Flaw.numberOutOfRange.faultAt (span.stop - unread))⟩

def finishNumber
    (reading : Numeral.Reading) (start stop : Nat) (written : List Char) :
    Token Lexeme :=
  match Numeral.ofChars? written.reverse with
  | some numeral => ofNumeral reading ⟨start, stop⟩ numeral
  | none =>
      let fault := Flaw.invalidNumber.faultAt stop
      ⟨⟨start, stop⟩, .broken fault fault⟩

/-- The stage behind a character, or `none` if the character does not belong to the number. -/
def NumberStage.next? (stage : NumberStage) (c : Char) : Option NumberStage :=
  match stage with
  | .afterMinus =>
      if c = '0' then some .afterZero else if c.isDigit then some .whole else none
  | .afterZero =>
      if c = '.' then some .afterPoint
      else if c = 'e' ∨ c = 'E' then some .afterMarker
      else none
  | .whole =>
      if c.isDigit then some .whole
      else if c = '.' then some .afterPoint
      else if c = 'e' ∨ c = 'E' then some .afterMarker
      else none
  | .afterPoint => if c.isDigit then some .fraction else none
  | .fraction =>
      if c.isDigit then some .fraction
      else if c = 'e' ∨ c = 'E' then some .afterMarker
      else none
  | .afterMarker =>
      if c = '+' ∨ c = '-' then some .afterExponentSign
      else if c.isDigit then some .exponent
      else none
  | .afterExponentSign => if c.isDigit then some .exponent else none
  | .exponent => if c.isDigit then some .exponent else none

/-- Whether a number may end at a stage before the given character. -/
def NumberStage.mayEnd (stage : NumberStage) (c : Char) : Bool :=
  match stage with
  | .afterZero => ! c.isDigit
  | .whole => true
  | .fraction => true
  | .exponent => true
  | _ => false

def NumberStage.mayEndText : NumberStage → Bool
  | .afterZero => true
  | .whole => true
  | .fraction => true
  | .exponent => true
  | _ => false

def begin (offset : Nat) (c : Char) : Progress :=
  if isBlank c then .goOn .between
  else if isMark c then .emit ⟨⟨offset, offset + 1⟩, .mark c⟩ .between
  else if c = '"' then .goOn (.string offset .plain [] none)
  else if c = '-' then .goOn (.number offset .afterMinus [c])
  else if c = '0' then .goOn (.number offset .afterZero [c])
  else if c.isDigit then .goOn (.number offset .whole [c])
  else if c = 't' then .goOn (.word offset (.bool true) ['r', 'u', 'e'])
  else if c = 'f' then .goOn (.word offset (.bool false) ['a', 'l', 's', 'e'])
  else if c = 'n' then .goOn (.word offset .null ['u', 'l', 'l'])
  else .stop ⟨⟨offset, offset + 1⟩, .stray⟩

def stepWord
    (start : Nat) (value : Scalar) (missing : List Char) (offset : Nat) (c : Char) : Progress :=
  match missing with
  | [] => begin offset c
  | [last] =>
      if c = last then
        .emit ⟨⟨start, offset + 1⟩, .scalar value⟩ .between
      else
        breakOff ⟨start, offset⟩ (Flaw.expectedWord.faultAt (offset + 1))
  | next :: missing =>
      if c = next then
        .goOn (.word start value missing)
      else
        breakOff ⟨start, offset⟩ (Flaw.expectedWord.faultAt (offset + 1))

/-- One more character of a number, or the first one behind it. -/
def stepNumber
    (reading : Numeral.Reading) (start : Nat) (stage : NumberStage) (written : List Char)
    (offset : Nat) (c : Char) :
    Progress :=
  match stage.next? c with
  | some stage => .goOn (.number start stage (c :: written))
  | none =>
      if stage.mayEnd c then
        (begin offset c).after (finishNumber reading start offset written)
      else
        breakOff ⟨start, offset⟩ (Flaw.invalidNumber.faultAt (offset + 1))

def escaped? (c : Char) : Option Char :=
  if c = '"' then some '"'
  else if c = '\\' then some '\\'
  else if c = '/' then some '/'
  else if c = 'b' then some (Char.ofNat 8)
  else if c = 'f' then some (Char.ofNat 12)
  else if c = 'n' then some '\n'
  else if c = 'r' then some '\r'
  else if c = 't' then some '\t'
  else none

def isLeading (unit : Nat) : Bool :=
  0xD800 ≤ unit && unit ≤ 0xDBFF

def isTrailing (unit : Nat) : Bool :=
  0xDC00 ≤ unit && unit ≤ 0xDFFF

def ofPair (leading trailing : Nat) : Char :=
  Char.ofNat (0x10000 + (leading - 0xD800) * 0x400 + (trailing - 0xDC00))

/-- Four hexadecimal digits are complete, the last one at an offset. -/
def finishHex
    (start : Nat) (written : List Char) (unreadable : Option Fault) (offset unit : Nat)
    (leading : Option Nat) :
    Progress :=
  let lone := Flaw.loneSurrogate.faultAt (offset + 1)
  match unreadable, leading with
  | some fault, _ => .goOn (.string start .plain written (some fault))
  | none, some leading =>
      if isTrailing unit then
        .goOn (.string start .plain (ofPair leading unit :: written) none)
      else
        .goOn (.string start .plain written (some lone))
  | none, none =>
      if isTrailing unit then .goOn (.string start .plain written (some lone))
      else if isLeading unit then .goOn (.string start (.afterLeading unit) written none)
      else .goOn (.string start .plain (Char.ofNat unit :: written) none)

def stepPlain
    (start : Nat) (written : List Char) (unreadable : Option Fault) (offset : Nat) (c : Char) :
    Progress :=
  if c = '"' then
    let content :=
      match unreadable with
      | some fault => .error fault
      | none => .ok (String.ofList written.reverse)
    .emit ⟨⟨start, offset + 1⟩, .string content⟩ .between
  else if c = '\\' then
    .goOn (.string start .afterBackslash written unreadable)
  else if c.toNat < 32 then
    .stop ⟨⟨start, offset⟩,
      .brokenString
        (unreadable.getD (Flaw.controlCharacter.faultAt (offset + 1)))
        (Flaw.controlCharacter.faultAt offset)⟩
  else
    .goOn (.string start .plain (c :: written) unreadable)

def stepEscape
    (start : Nat) (written : List Char) (unreadable : Option Fault) (offset : Nat) (c : Char) :
    Progress :=
  if c = 'u' then
    .goOn (.string start (.hex (offset + 1) 4 0 none) written unreadable)
  else
    match escaped? c with
    | some c => .goOn (.string start .plain (c :: written) unreadable)
    | none =>
        let fault := Flaw.invalidEscape.faultAt (offset + 1)
        .stop ⟨⟨start, offset⟩, .brokenString (unreadable.getD fault) fault⟩

/-- One more hexadecimal digit.  Four bytes are looked at, if there are four. -/
def stepHex
    (start : Nat) (written : List Char) (unreadable : Option Fault)
    (hexStart missing value : Nat) (leading : Option Nat) (offset : Nat) (c : Char)
    (rest : List Char) :
    Progress :=
  match hexValue? c with
  | some digit =>
      let value := value * 16 + digit
      if missing ≤ 1 then finishHex start written unreadable offset value leading
      else .goOn (.string start (.hex hexStart (missing - 1) value leading) written unreadable)
  | none =>
      let left := Utf8.size (c :: rest)
      let fault :=
        if missing ≤ left then Flaw.invalidEscape.faultAt (hexStart + 4)
        else Flaw.endOfString.faultAt (offset + left)
      .stop ⟨⟨start, offset⟩, .brokenString (unreadable.getD fault) fault⟩

def stepString
    (start : Nat) (stage : StringStage) (written : List Char) (unreadable : Option Fault)
    (offset : Nat) (c : Char) (rest : List Char) :
    Progress :=
  let half := Flaw.halfSurrogatePair.faultAt (offset + 1)
  match stage with
  | .plain => stepPlain start written unreadable offset c
  | .afterBackslash => stepEscape start written unreadable offset c
  | .hex hexStart missing value leading =>
      stepHex start written unreadable hexStart missing value leading offset c rest
  | .afterLeading leading =>
      if c = '\\' then
        .goOn (.string start (.afterLeadingBackslash leading) written unreadable)
      else
        stepPlain start written (some (unreadable.getD half)) offset c
  | .afterLeadingBackslash leading =>
      if c = 'u' then
        .goOn (.string start (.hex (offset + 1) 4 0 (some leading)) written unreadable)
      else
        stepEscape start written (some (unreadable.getD half)) offset c

def step
    (reading : Numeral.Reading) (mode : Mode) (offset : Nat) (c : Char) (rest : List Char) :
    Progress :=
  match mode with
  | .between => begin offset c
  | .word start value missing => stepWord start value missing offset c
  | .number start stage written => stepNumber reading start stage written offset c
  | .string start stage written unreadable =>
      stepString start stage written unreadable offset c rest

def finish (reading : Numeral.Reading) (mode : Mode) (offset : Nat) :
    Scanner.Scanned Lexeme (Token Lexeme) :=
  match mode with
  | .between => ⟨[], none⟩
  | .word start _ _ =>
      let fault := Flaw.endOfValue.faultAt offset
      ⟨[⟨⟨start, offset⟩, .broken fault fault⟩], none⟩
  | .number start stage written =>
      if stage.mayEndText then
        ⟨[finishNumber reading start offset written], none⟩
      else
        ⟨[⟨⟨start, offset⟩,
          .broken (Flaw.endOfValue.faultAt offset) (Flaw.invalidNumber.faultAt offset)⟩], none⟩
  | .string start _ _ unreadable =>
      let fault := Flaw.endOfString.faultAt offset
      ⟨[⟨⟨start, offset⟩, .brokenString (unreadable.getD fault) fault⟩], none⟩

def scanner (reading : Numeral.Reading) : Scanner Lexeme (Token Lexeme) Mode where
  between := .between
  step := step reading
  finish := finish reading

/-- The tokens of a text, the one that the scan stops with included. -/
def scan (reading : Numeral.Reading) (text : List Char) : List (Token Lexeme) :=
  let scanned := (scanner reading).scanFrom .between 0 text
  scanned.tokens ++ scanned.stop.toList

end Token
end Json
end WindsAloft
