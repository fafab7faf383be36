import WindsAloft.Decimal.Numeral
import WindsAloft.Text.Pieces

/-!
# Scalars of TOML

What stands unquoted as a value: truth values, integers in four bases, doubles
and points in time.  A value is told by its beginning, and its form is checked:
underscores stand between digits, decimal integers and the whole parts of
doubles have no leading zeros, points in time exist.  Whether digits make up a
number within reach is part of the value and not of its form: a document may
hold numbers that are too great as long as nobody asks for them.
-/

namespace WindsAloft
namespace Toml

inductive Bare where
  | bool (b : Bool)
  /-- An integer, if its digits make up one within reach. -/
  | integer (n : Option Int)
  /-- A double, if it is not too great. -/
  | real (x : Option Float)
  | moment
  deriving DecidableEq, Repr

def isOctal (c : Char) : Bool :=
  '0' ≤ c && c ≤ '7'

def isBinary (c : Char) : Bool :=
  c = '0' || c = '1'

def isHex (c : Char) : Bool :=
  c.isDigit || ('a' ≤ c && c ≤ 'f') || ('A' ≤ c && c ≤ 'F')

def hexDigitValue (c : Char) : Nat :=
  if c.isDigit then c.toNat - '0'.toNat
  else if 'a' ≤ c && c ≤ 'f' then c.toNat - 'a'.toNat + 10
  else c.toNat - 'A'.toNat + 10

def valueIn (base : Nat) (digits : List Char) : Nat :=
  digits.foldl (fun value c => value * base + hexDigitValue c) 0

/-- The greatest integers that can be told apart from each other: 128 bits. -/
def fitsWide (n : Int) : Bool :=
  -Nat.pow 2 127 ≤ n && n < Nat.pow 2 128

def boundedInteger (n : Int) : Option Int :=
  if fitsWide n then some n else none

def withoutUnderscores (text : List Char) : List Char :=
  text.filter fun c => c ≠ '_'

/--
Whether the pieces between underscores, from the second on, begin with digits
and, but for the last one, end with them.
-/
def piecesFit (isDigit : Char → Bool) : List (List Char) → Bool
  | [] => true
  | piece :: pieces =>
      piece.head?.any isDigit
        && (pieces.isEmpty || piece.getLast?.any isDigit)
        && piecesFit isDigit pieces

/--
Whether underscores stand between digits.  A sign alone may stand in front of
the first one.
-/
def underscoresFit (isDigit : Char → Bool) (text : List Char) : Bool :=
  match cutAt '_' text with
  | [] => true
  | [_] => true
  | [sign] :: pieces => (isDigit sign || sign = '+' || sign = '-') && piecesFit isDigit pieces
  | piece :: pieces => piece.getLast?.any isDigit && piecesFit isDigit pieces

/-- The integer that a text in some base stands for, if its form is right. -/
def inBase? (base : Nat) (isDigit : Char → Bool) (text : List Char) : Option Bare :=
  if text = [] then some (.integer none)
  else if text.all (fun c => isDigit c || c = '_') ∧ underscoresFit isDigit text
      ∧ text.head? ≠ some '_' then
    some (.integer (boundedInteger (valueIn base (withoutUnderscores text))))
  else
    none

def decimalValue? (text : List Char) : Option Int :=
  let (negative, digits) := Numeral.splitSign (withoutUnderscores text)
  if digits ≠ [] ∧ digits.all Char.isDigit then
    boundedInteger (if negative then -digitsValue digits else digitsValue digits)
  else
    none

def isDigitOrUnderscore (c : Char) : Bool :=
  c.isDigit || c = '_'

/-- Splits decimal digits and underscores off, if there is a digit among them. -/
def splitDigits? (text : List Char) : Option (List Char × List Char) :=
  let written := text.takeWhile isDigitOrUnderscore
  if written.any Char.isDigit then
    some (withoutUnderscores written, text.dropWhile isDigitOrUnderscore)
  else
    none

def splitFraction? : List Char → Option (Option (List Char) × List Char)
  | '.' :: text => (splitDigits? text).map fun (digits, rest) => (some digits, rest)
  | text => some (none, text)

/-- The exponent that a text is, if it is one or nothing. -/
def exponent? : List Char → Option (Option Numeral.Exponent)
  | [] => some none
  | marker :: text =>
      let (negative, digits) := Numeral.splitSign text
      match splitDigits? digits with
      | some (digits, []) =>
          if marker = 'e' ∨ marker = 'E' then some (some ⟨negative, digits⟩) else none
      | _ => none

/-- Whether the whole part of a double begins with a zero that does not belong there. -/
def hasLeadingZero (text : List Char) : Bool :=
  text.head? = some '0' && 1 < ((text.takeWhile isDigitOrUnderscore).filter Char.isDigit).length

def numeral? (negative : Bool) (text : List Char) : Option Numeral :=
  if hasLeadingZero text then none
  else do
    let (whole, rest) ← splitDigits? text
    let (fraction, rest) ← splitFraction? rest
    let exponent ← exponent? rest
    return ⟨negative, whole, fraction, exponent⟩

def boundedReal (numeral : Numeral) : Option Float :=
  match Numeral.nearest numeral with
  | .ok x => some x
  | .error _ => none

/-- A text with its sign, behind which comes a double. -/
def real? (text : List Char) (negative : Bool) (unsigned : List Char) : Option Bare :=
  if underscoresFit Char.isDigit text ∧ text.head? ≠ some '_' then
    (numeral? negative unsigned).map fun numeral => .real (boundedReal numeral)
  else
    none

def fixedNumber (count : Nat) (text : List Char) : Option (Nat × List Char) :=
  let digits := text.take count
  if digits.length = count ∧ digits.all Char.isDigit then
    some (digitsValue digits, text.drop count)
  else
    none

def expect (c : Char) : List Char → Option (List Char)
  | [] => none
  | first :: text => if first = c then some text else none

def isLeap (year : Nat) : Bool :=
  (year % 4 = 0 && year % 100 ≠ 0) || year % 400 = 0

def daysIn (year month : Nat) : Nat :=
  if month = 2 then (if isLeap year then 29 else 28)
  else if month = 4 ∨ month = 6 ∨ month = 9 ∨ month = 11 then 30
  else 31

def afterDate (text : List Char) : Option (List Char) := do
  let (year, text) ← fixedNumber 4 text
  let text ← expect '-' text
  let (month, text) ← fixedNumber 2 text
  let text ← expect '-' text
  let (day, text) ← fixedNumber 2 text
  if 1 ≤ month ∧ month ≤ 12 ∧ 1 ≤ day ∧ day ≤ daysIn year month then some text else none

/-- The text behind the fraction of a second, which need not be there. -/
def afterFraction (text : List Char) : Option (List Char) :=
  match text with
  | '.' :: text =>
      if (text.takeWhile Char.isDigit).isEmpty then none else some (text.dropWhile Char.isDigit)
  | text => some text

def afterSeconds (text : List Char) : Option (List Char) :=
  match text with
  | ':' :: text => do
      let (second, text) ← fixedNumber 2 text
      if second ≤ 60 then afterFraction text else none
  | text => some text

def afterTime (text : List Char) : Option (List Char) := do
  let (hour, text) ← fixedNumber 2 text
  let text ← expect ':' text
  let (minute, text) ← fixedNumber 2 text
  if hour ≤ 23 ∧ minute ≤ 59 then afterSeconds text else none

def isOffset (text : List Char) : Bool :=
  match text with
  | [] => true
  | ['Z'] => true
  | ['z'] => true
  | sign :: text =>
      (sign = '+' || sign = '-')
        && (do
          let (hour, text) ← fixedNumber 2 text
          let text ← expect ':' text
          let (minute, text) ← fixedNumber 2 text
          if hour ≤ 23 ∧ minute ≤ 59 ∧ text = [] then some () else none : Option Unit).isSome

/-- Whether a text is a date, a time of day, or a date with a time of day. -/
def isMoment (text : List Char) : Bool :=
  match afterDate text with
  | some [] => true
  | some (separator :: text) =>
      (separator = 'T' || separator = 't' || separator = ' ')
        && (match afterTime text with
          | some rest => isOffset rest
          | none => false)
  | none => afterTime text == some []

/-- Whether a character shows that a number is a double. -/
def marksReal (c : Char) : Bool :=
  c = '.' || c = 'e' || c = 'E'

/-- A decimal number or a point in time, given with what stands behind its sign. -/
def number? (text : List Char) (negative : Bool) (unsigned : List Char) : Option Bare :=
  match unsigned.dropWhile Char.isDigit with
  | [] =>
      if unsigned = [] ∨ (unsigned.head? = some '0' ∧ unsigned ≠ ['0']) then none
      else some (.integer (decimalValue? text))
  | '-' :: _ => if isMoment text then some .moment else none
  | ':' :: _ => if isMoment text then some .moment else none
  | c :: rest =>
      if ' ' ∈ rest ∨ c = ' ' then none
      else if (c :: rest).any marksReal then real? text negative unsigned
      else if c = '_' ∧ unsigned.head? ≠ some '0' ∧ text.head? ≠ some '_'
          ∧ underscoresFit isHex text then
        some (.integer (decimalValue? text))
      else none

def special? (negative : Bool) (unsigned : List Char) : Option Float :=
  if unsigned = "inf".toList then some (if negative then -1 / 0 else 1 / 0)
  else if unsigned = "nan".toList then some (0 / 0)
  else none

def bare? (text : List Char) : Option Bare :=
  if text = "true".toList then some (.bool true)
  else if text = "false".toList then some (.bool false)
  else
    match text with
    | '0' :: 'x' :: digits => inBase? 16 isHex digits
    | '0' :: 'o' :: digits => inBase? 8 isOctal digits
    | '0' :: 'b' :: digits => inBase? 2 isBinary digits
    | text =>
        let (negative, unsigned) := Numeral.splitSign text
        match special? negative unsigned with
        | some x => some (.real (some x))
        | none => number? text negative unsigned

end Toml
end WindsAloft
