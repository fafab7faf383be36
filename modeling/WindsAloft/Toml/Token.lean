import WindsAloft.Document.Fault
import WindsAloft.Text.Hex

/-!
# The tokens of a TOML text

`Toml.Token.scan` cuts a text into marks, blanks, line ends, quoted texts and
the unquoted runs between them.  Comments are dropped.  The scan stops at the
first character that no TOML text can have there.
-/

namespace WindsAloft
namespace Toml

/-- Why a text is not TOML, and the offset where it shows. -/
structure Flaw where
  offset : Nat
  message : String
  deriving DecidableEq, Repr

inductive Lexeme where
  /-- One of the marks `=`, `,`, `[`, `]`, `{` and `}`. -/
  | mark (c : Char)
  /-- Blanks and tabs; the flag tells that it is a single blank. -/
  | blank (single : Bool)
  | lineEnd
  /-- A quoted text; the flag tells that it may run over several lines. -/
  | text (s : String) (long : Bool)
  | run (chars : List Char)
  deriving DecidableEq, Repr

namespace Token

inductive BasicStage where
  | plain
  | afterBackslash
  /-- Inside the hexadecimal digits of an escape: how many are missing, and their value so far. -/
  | hex (missing value : Nat)
  /-- Behind a backslash and blanks, which a line end has to follow. -/
  | beforeLineEnd
  /-- Behind a backslash and a line end: blanks and line ends are passed over. -/
  | passing
  deriving DecidableEq, Repr

inductive Mode where
  | between
  /-- Behind a carriage return, which a newline has to follow; then the scan goes on in a mode. -/
  | afterReturn (mode : Mode)
  | comment
  | blank (start : Nat) (single : Bool)
  | run (start : Nat) (written : List Char)
  /-- Behind one or two quotes of the given kind that begin a text. -/
  | opening (start : Nat) (quote : Char) (two : Bool)
  /-- Behind the three quotes that begin a long text: a line end right there does not count. -/
  | opened (start : Nat) (quote : Char)
  | literal (start : Nat) (long : Bool) (written : List Char)
  | basic (start : Nat) (long : Bool) (stage : BasicStage) (written : List Char)
  /-- Inside a long text, behind some quotes. -/
  | quotes (start : Nat) (quote : Char) (count : Nat) (written : List Char)
  deriving DecidableEq, Repr

abbrev Progress : Type :=
  Scanner.Progress Lexeme Flaw Mode

def fail (offset : Nat) (message : String) : Progress :=
  .stop ⟨offset, message⟩

/-- Whether a character is a token of its own. -/
def isMark (c : Char) : Bool :=
  c = '=' || c = ',' || c = '[' || c = ']' || c = '{' || c = '}'

/-- Whether a character is a control that no text may hold as it is. -/
def isControl (c : Char) : Bool :=
  (c.toNat < 32 && c ≠ '\t') || c.toNat = 127

def begin (offset : Nat) (c : Char) : Progress :=
  if c = ' ' then .goOn (.blank offset true)
  else if c = '\t' then .goOn (.blank offset false)
  else if c = '\n' then .emit ⟨⟨offset, offset + 1⟩, .lineEnd⟩ .between
  else if c = '\r' then .goOn (.afterReturn .between)
  else if c = '#' then .goOn .comment
  else if c = '"' ∨ c = '\'' then .goOn (.opening offset c false)
  else if isMark c then .emit ⟨⟨offset, offset + 1⟩, .mark c⟩ .between
  else if isControl c then fail offset "invalid character"
  else .goOn (.run offset [c])

def complete (start : Nat) (offset : Nat) (long : Bool) (written : List Char) : Progress :=
  .emit ⟨⟨start, offset + 1⟩, .text (String.ofList written.reverse) long⟩ .between

def stepLiteral
    (start : Nat) (long : Bool) (written : List Char) (offset : Nat) (c : Char) : Progress :=
  if c = '\'' then
    if long then .goOn (.quotes start '\'' 1 written)
    else complete start offset false written
  else if c = '\n' ∧ long then
    .goOn (.literal start long (c :: written))
  else if c = '\r' ∧ long then
    .goOn (.afterReturn (.literal start long (c :: written)))
  else if isControl c then
    fail offset "invalid character in a text"
  else
    .goOn (.literal start long (c :: written))

def stepBasicPlain
    (start : Nat) (long : Bool) (written : List Char) (offset : Nat) (c : Char) : Progress :=
  if c = '"' then
    if long then .goOn (.quotes start '"' 1 written)
    else complete start offset false written
  else if c = '\\' then
    .goOn (.basic start long .afterBackslash written)
  else if c = '\n' ∧ long then
    .goOn (.basic start long .plain (c :: written))
  else if c = '\r' ∧ long then
    .goOn (.afterReturn (.basic start long .plain (c :: written)))
  else if isControl c then
    fail offset "invalid character in a text"
  else
    .goOn (.basic start long .plain (c :: written))

def escaped? (c : Char) : Option Char :=
  if c = '"' then some '"'
  else if c = '\\' then some '\\'
  else if c = 'b' then some (Char.ofNat 8)
  else if c = 'e' then some (Char.ofNat 27)
  else if c = 'f' then some (Char.ofNat 12)
  else if c = 'n' then some '\n'
  else if c = 'r' then some '\r'
  else if c = 't' then some '\t'
  else none

def hexDigits? (c : Char) : Option Nat :=
  if c = 'x' then some 2
  else if c = 'u' then some 4
  else if c = 'U' then some 8
  else none

def stepEscape
    (start : Nat) (long : Bool) (written : List Char) (offset : Nat) (c : Char) : Progress :=
  match escaped? c, hexDigits? c with
  | some c, _ => .goOn (.basic start long .plain (c :: written))
  | none, some missing => .goOn (.basic start long (.hex missing 0) written)
  | none, none =>
      if ¬ long then fail offset "invalid escape sequence"
      else if c = ' ' ∨ c = '\t' then .goOn (.basic start long .beforeLineEnd written)
      else if c = '\n' then .goOn (.basic start long .passing written)
      else if c = '\r' then .goOn (.afterReturn (.basic start long .passing written))
      else fail offset "invalid escape sequence"

def stepHex
    (start : Nat) (long : Bool) (missing value : Nat) (written : List Char) (offset : Nat)
    (c : Char) :
    Progress :=
  match hexValue? c with
  | none => fail offset "invalid escape sequence"
  | some digit =>
      let value := value * 16 + digit
      if 1 < missing then .goOn (.basic start long (.hex (missing - 1) value) written)
      else if value.isValidChar then
        .goOn (.basic start long .plain (Char.ofNat value :: written))
      else fail offset "invalid escape sequence"

def stepBasic
    (start : Nat) (long : Bool) (stage : BasicStage) (written : List Char) (offset : Nat)
    (c : Char) :
    Progress :=
  match stage with
  | .plain => stepBasicPlain start long written offset c
  | .afterBackslash => stepEscape start long written offset c
  | .hex missing value => stepHex start long missing value written offset c
  | .beforeLineEnd =>
      if c = ' ' ∨ c = '\t' then .goOn (.basic start long .beforeLineEnd written)
      else if c = '\n' then .goOn (.basic start long .passing written)
      else if c = '\r' then .goOn (.afterReturn (.basic start long .passing written))
      else fail offset "invalid escape sequence"
  | .passing =>
      if c = ' ' ∨ c = '\t' ∨ c = '\n' then .goOn (.basic start long .passing written)
      else if c = '\r' then .goOn (.afterReturn (.basic start long .passing written))
      else stepBasicPlain start long written offset c

def stepQuoted
    (quote : Char) (start : Nat) (long : Bool) (written : List Char) (offset : Nat) (c : Char) :
    Progress :=
  if quote = '"' then stepBasicPlain start long written offset c
  else stepLiteral start long written offset c

/--
A character behind quotes in a long text.  Three quotes end it, and up to two
more right before them belong to it.
-/
def stepQuotes
    (start : Nat) (quote : Char) (count : Nat) (written : List Char) (offset : Nat) (c : Char) :
    Progress :=
  if c = quote then
    if count = 4 then
      complete start offset true (quote :: quote :: written)
    else
      .goOn (.quotes start quote (count + 1) written)
  else if count < 3 then
    stepQuoted quote start true (List.replicate count quote ++ written) offset c
  else
    (begin offset c).after ⟨⟨start, offset⟩,
      .text (String.ofList (List.replicate (count - 3) quote ++ written).reverse) true⟩

def openLong (start : Nat) (quote : Char) : Mode :=
  if quote = '"' then .basic start true .plain [] else .literal start true []

def step (mode : Mode) (offset : Nat) (c : Char) : Progress :=
  match mode with
  | .between => begin offset c
  | .afterReturn .between =>
      if c = '\n' then .emit ⟨⟨offset - 1, offset + 1⟩, .lineEnd⟩ .between
      else fail offset "expected a newline behind a carriage return"
  | .afterReturn (.literal start long written) =>
      if c = '\n' then .goOn (.literal start long (c :: written))
      else fail offset "expected a newline behind a carriage return"
  | .afterReturn (.basic start long .plain written) =>
      if c = '\n' then .goOn (.basic start long .plain (c :: written))
      else fail offset "expected a newline behind a carriage return"
  | .afterReturn (.opened start quote) =>
      if c = '\n' then .goOn (openLong start quote)
      else fail offset "expected a newline behind a carriage return"
  | .afterReturn mode =>
      if c = '\n' then .goOn mode
      else fail offset "expected a newline behind a carriage return"
  | .comment =>
      if c = '\n' then .emit ⟨⟨offset, offset + 1⟩, .lineEnd⟩ .between
      else if c = '\r' then .goOn (.afterReturn .between)
      else if isControl c then fail offset "invalid character in a comment"
      else .goOn .comment
  | .blank start single =>
      if c = ' ' ∨ c = '\t' then .goOn (.blank start false)
      else (begin offset c).after ⟨⟨start, offset⟩, .blank single⟩
  | .run start written =>
      if c = ' ' ∨ c = '\t' ∨ c = '\n' ∨ c = '\r' ∨ c = '#' ∨ c = '"' ∨ c = '\'' ∨ isMark c then
        (begin offset c).after ⟨⟨start, offset⟩, .run written.reverse⟩
      else if isControl c then fail offset "invalid character"
      else .goOn (.run start (c :: written))
  | .opening start quote false =>
      if c = quote then .goOn (.opening start quote true)
      else stepQuoted quote start false [] offset c
  | .opening start quote true =>
      if c = quote then .goOn (.opened start quote)
      else (begin offset c).after ⟨⟨start, offset⟩, .text "" false⟩
  | .opened start quote =>
      if c = '\n' then .goOn (openLong start quote)
      else if c = '\r' then .goOn (.afterReturn (.opened start quote))
      else stepQuoted quote start true [] offset c
  | .literal start long written => stepLiteral start long written offset c
  | .basic start long stage written => stepBasic start long stage written offset c
  | .quotes start quote count written => stepQuotes start quote count written offset c

/-- Some modes no text may end in. -/
def finish (mode : Mode) (offset : Nat) : Scanner.Scanned Lexeme Flaw :=
  match mode with
  | .between => ⟨[], none⟩
  | .comment => ⟨[], none⟩
  | .blank start single => ⟨[⟨⟨start, offset⟩, .blank single⟩], none⟩
  | .run start written => ⟨[⟨⟨start, offset⟩, .run written.reverse⟩], none⟩
  | .opening start _ true => ⟨[⟨⟨start, offset⟩, .text "" false⟩], none⟩
  | .quotes start quote count written =>
      if 3 ≤ count then
        ⟨[⟨⟨start, offset⟩,
          .text (String.ofList (List.replicate (count - 3) quote ++ written).reverse) true⟩], none⟩
      else
        ⟨[], some ⟨offset, "unfinished text"⟩⟩
  | _ => ⟨[], some ⟨offset, "unfinished text"⟩⟩

def scanner : Scanner Lexeme Flaw Mode where
  between := .between
  step mode offset c _ := step mode offset c
  finish := finish

/-- The mark that a text may begin with, and which says nothing. -/
def byteOrderMark : Char :=
  Char.ofNat 0xFEFF

/-- A byte order mark takes its three bytes and says nothing. -/
def scanAll (text : List Char) : Scanner.Scanned Lexeme Flaw :=
  match text with
  | [] => ⟨[], none⟩
  | c :: rest =>
      if c = byteOrderMark then scanner.scanFrom .between c.utf8Size rest
      else scanner.scanFrom .between 0 text

/-- The tokens of a text, unless the scan stops. -/
def scan (text : List Char) : Except Flaw (List (Token Lexeme)) :=
  let scanned := scanAll text
  match scanned.stop with
  | none => .ok scanned.tokens
  | some flaw => .error flaw

end Token
end Toml
end WindsAloft
