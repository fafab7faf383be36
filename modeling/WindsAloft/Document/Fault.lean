import WindsAloft.Decimal.Notation
import WindsAloft.Text.Quoted
import WindsAloft.Text.Scanner

/-!
# Faults in documents

A document can fail to be read for two kinds of reasons.  A *flaw* is a breach
of the grammar of its text.  A *mismatch* is a well-formed value that does not
fit what is wanted.  A fault is one of the two together with the stretch of
text it points to, where it points to one.
-/

namespace WindsAloft

/-- A value of a document that has no parts. -/
inductive Scalar where
  | null
  | bool (b : Bool)
  | integer (n : Int)
  | real (x : Float)
  | text (s : String)
  deriving DecidableEq, Repr

inductive NumberKind where
  | integer
  | real
  deriving DecidableEq, Repr

/-- What a document offers in some place. -/
inductive Found where
  | scalar (value : Scalar)
  | list
  | object
  deriving DecidableEq, Repr

/-- A well-formed value that does not fit what is wanted. -/
inductive Mismatch where
  | kind (found : Found) (expected : String)
  /-- A value of the right kind out of range. -/
  | value (found : Found) (expected : String)
  | length (items : Nat) (expected : String)
  | variant (name : String) (known : List String)
  | missing (field : String)
  | duplicate (field : String)
  /-- Digits that make up no number of a kind within reach. -/
  | overflow (kind : NumberKind)
  /-- Something that names no variant at all, as the message says. -/
  | noVariant (message : String)
  deriving DecidableEq, Repr

inductive Flaw where
  | endOfList
  | endOfObject
  | endOfString
  | endOfValue
  | expectedColon
  | expectedCommaOrEndOfList
  | expectedCommaOrEndOfObject
  | expectedWord
  | expectedValue
  | invalidEscape
  | invalidNumber
  | numberOutOfRange
  | controlCharacter
  | keyNotString
  | loneSurrogate
  | halfSurrogatePair
  | trailingComma
  | trailingCharacters
  | tooDeep
  deriving DecidableEq, Repr

inductive Cause where
  | flaw (breach : Flaw)
  | mismatch (misfit : Mismatch)
  deriving DecidableEq, Repr

/-- Why a document cannot be read, and which stretch of its text is to blame. -/
structure Fault where
  cause : Cause
  span : Option Span
  deriving DecidableEq, Repr

namespace Flaw

def message : Flaw → String
  | endOfList => "EOF while parsing a list"
  | endOfObject => "EOF while parsing an object"
  | endOfString => "EOF while parsing a string"
  | endOfValue => "EOF while parsing a value"
  | expectedColon => "expected `:`"
  | expectedCommaOrEndOfList => "expected `,` or `]`"
  | expectedCommaOrEndOfObject => "expected `,` or `\x7d`"
  | expectedWord => "expected ident"
  | expectedValue => "expected value"
  | invalidEscape => "invalid escape"
  | invalidNumber => "invalid number"
  | numberOutOfRange => "number out of range"
  | controlCharacter =>
      "control character (\\u0000-\\u001F) found while parsing a string"
  | keyNotString => "key must be a string"
  | loneSurrogate => "lone leading surrogate in hex escape"
  | halfSurrogatePair => "unexpected end of hex escape"
  | trailingComma => "trailing comma"
  | trailingCharacters => "trailing characters"
  | tooDeep => "recursion limit exceeded"

/-- Whether more text might have mended the flaw. -/
def isEnd : Flaw → Bool
  | endOfList => true
  | endOfObject => true
  | endOfString => true
  | endOfValue => true
  | _ => false

def faultAt (flaw : Flaw) (offset : Nat) : Fault :=
  ⟨.flaw flaw, some (Span.point offset)⟩

end Flaw

/-- How a format words what it found. -/
structure Wording where
  real : Float → List Char

/-- An integer, with a note on its width where it needs more than 64 bits. -/
def wideInteger (n : Int) : String :=
  let written := "integer `" ++ String.ofList (integerChars n) ++ "`"
  if n < Int64.minValue.toInt then written ++ " as i128"
  else if n < UInt64.size then written
  else if n < Nat.pow 2 127 then written ++ " as i128"
  else written ++ " as u128"

def Found.describe (wording : Wording) : Found → String
  | .scalar .null => "null"
  | .scalar (.bool b) => "boolean `" ++ (if b then "true" else "false") ++ "`"
  | .scalar (.integer n) => wideInteger n
  | .scalar (.real x) => "floating point `" ++ String.ofList (wording.real x) ++ "`"
  | .scalar (.text s) => "string " ++ messageQuoted s
  | .list => "sequence"
  | .object => "map"

def alternatives : List String → String
  | [] => "there are no variants"
  | [name] => "expected `" ++ name ++ "`"
  | [first, second] => "expected `" ++ first ++ "` or `" ++ second ++ "`"
  | names => "expected one of " ++ ", ".intercalate (names.map fun name => "`" ++ name ++ "`")

def NumberKind.overflowMessage : NumberKind → String
  | .integer => "integer number overflowed"
  | .real => "floating-point number overflowed"

def Mismatch.message (wording : Wording) : Mismatch → String
  | .kind found expected => "invalid type: " ++ found.describe wording ++ ", expected " ++ expected
  | .value found expected =>
      "invalid value: " ++ found.describe wording ++ ", expected " ++ expected
  | .length items expected =>
      "invalid length " ++ toString items ++ ", expected " ++ expected
  | .variant name known => "unknown variant `" ++ name ++ "`, " ++ alternatives known
  | .missing field => "missing field `" ++ field ++ "`"
  | .duplicate field => "duplicate field `" ++ field ++ "`"
  | .overflow numbers => numbers.overflowMessage
  | .noVariant message => message

def Cause.message (wording : Wording) : Cause → String
  | .flaw breach => breach.message
  | .mismatch misfit => misfit.message wording

def Fault.message (wording : Wording) (fault : Fault) : String :=
  fault.cause.message wording

def Fault.withoutSpan (fault : Fault) : Fault :=
  { fault with span := none }

/-- The line and column of a byte offset: lines count from one, columns in bytes from zero. -/
def lineAndColumn (offset : Nat) (line column position : Nat) : List Char → Nat × Nat
  | [] => (line, column + (offset - position))
  | c :: text =>
      if offset ≤ position then (line, column)
      else if c = '\n' then lineAndColumn offset (line + 1) 0 (position + 1) text
      else if position + c.utf8Size ≤ offset then
        lineAndColumn offset line (column + c.utf8Size) (position + c.utf8Size) text
      else (line, column + (offset - position))

def Fault.describe (wording : Wording) (text : List Char) (fault : Fault) : String :=
  match fault.span with
  | none => fault.message wording
  | some span =>
      let place := lineAndColumn span.stop 1 0 0 text
      fault.message wording ++ " at line " ++ toString place.1 ++ " column " ++ toString place.2

end WindsAloft
