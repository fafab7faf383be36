import WindsAloft.Decimal.Basic

/-!
# Numerals

A numeral is a written decimal number: a sign, digits, perhaps a fraction and
perhaps an exponent.  Two readings turn a numeral into a double:

* `nearest` rounds the written value once,
* `stepwise` keeps as many leading digits as fit into 64 bits and then
  multiplies or divides by powers of ten in double arithmetic, so that it may
  miss the nearest double.

Both refuse a value too great for a double.
-/

namespace WindsAloft

structure Numeral.Exponent where
  negative : Bool
  digits : List Char
  deriving DecidableEq, Repr

/-- A decimal number as it is written. -/
structure Numeral where
  negative : Bool
  whole : List Char
  fraction : Option (List Char)
  exponent : Option Numeral.Exponent
  deriving DecidableEq, Repr

def digitValue (c : Char) : Nat :=
  c.toNat - '0'.toNat

def digitsValue (digits : List Char) : Nat :=
  Nat.ofDigitChars 10 digits 0

namespace Numeral

/-- Whether there is neither a fraction nor an exponent. -/
def isWhole (numeral : Numeral) : Bool :=
  numeral.fraction.isNone && numeral.exponent.isNone

def exponentValue (numeral : Numeral) : Int :=
  match numeral.exponent with
  | none => 0
  | some ⟨true, digits⟩ => -digitsValue digits
  | some ⟨false, digits⟩ => digitsValue digits

/-- The exact magnitude. -/
def magnitude (numeral : Numeral) : Decimal :=
  let fraction := numeral.fraction.getD []
  ⟨digitsValue (numeral.whole ++ fraction), numeral.exponentValue - fraction.length⟩

def withSign (numeral : Numeral) (x : Float) : Float :=
  if numeral.negative then -x else x

/-- How a numeral becomes a double.  A refusal tells how many exponent digits were left unread. -/
abbrev Reading : Type :=
  Numeral → Except Nat Float

/-- The nearest double, refused if it is infinite. -/
def nearest : Reading :=
  fun numeral =>
    let x := numeral.magnitude.toFloat
    if x.isInf then .error 0 else .ok (numeral.withSign x)

def greatestWord : Nat := UInt64.size - 1

def appendDigit? (significand : Nat) (digit : Char) : Option Nat :=
  let appended := significand * 10 + digitValue digit
  if appended ≤ greatestWord then some appended else none

/-- Digits of the whole part: those that no longer fit count into the exponent. -/
def significandOfWhole (significand : Nat) : List Char → Nat × Nat
  | [] => (significand, 0)
  | digit :: digits =>
      match appendDigit? significand digit with
      | some appended => significandOfWhole appended digits
      | none => (significand, digits.length + 1)

/-- Digits of the fraction: from the first that no longer fits they are ignored. -/
def significandOfFraction (significand : Nat) : List Char → Nat × Nat
  | [] => (significand, 0)
  | digit :: digits =>
      match appendDigit? significand digit with
      | some appended =>
          let rest := significandOfFraction appended digits
          (rest.1, rest.2 + 1)
      | none => (significand, 0)

/-- The greatest exponent that is still read digit by digit. -/
def greatestExponent : Nat := Int32.maxValue.toInt.toNat

/-- The value of exponent digits, or how many are left behind the one that makes it too great. -/
def boundedExponent (value : Nat) : List Char → Except Nat Nat
  | [] => .ok value
  | digit :: digits =>
      let extended := value * 10 + digitValue digit
      if greatestExponent < extended then .error digits.length
      else boundedExponent extended digits

def powerOfTen (exponent : Nat) : Float :=
  Decimal.toFloat ⟨1, exponent⟩

/--
A double times a power of ten.  Exponents below -308 are worked off in steps of
that size, until the rest is small enough or nothing is left of the value.
-/
def scale (x : Float) (exponent : Int) : Nat → Option Float
  | 0 => some x
  | steps + 1 =>
      if 0 ≤ exponent then
        if exponent ≤ 308 then
          let scaled := x * powerOfTen exponent.toNat
          if scaled.isInf then none else some scaled
        else if x == 0 then some x
        else none
      else if -308 ≤ exponent then
        some (x / powerOfTen (-exponent).toNat)
      else if x == 0 then some x
      else scale (x / powerOfTen 308) (exponent + 308) steps

/-- The double that 64 bits of leading digits and a scaling in double arithmetic give. -/
def stepwise : Reading :=
  fun numeral =>
    let whole := significandOfWhole 0 numeral.whole
    let full := significandOfFraction whole.1 (numeral.fraction.getD [])
    let shift : Int := (whole.2 : Int) - full.2
    let written : Except Nat Nat :=
      match numeral.exponent with
      | none => .ok 0
      | some exponent => boundedExponent 0 exponent.digits
    let negativeExponent := numeral.exponent.any (·.negative)
    match written with
    | .error unread =>
        if full.1 ≠ 0 ∧ ¬ negativeExponent then .error unread
        else .ok (numeral.withSign 0)
    | .ok value =>
        let exponent := if negativeExponent then shift - value else shift + value
        match scale (ofCount full.1) exponent 8 with
        | none => .error 0
        | some x => .ok (numeral.withSign x)

/-- Splits an optional sign off; only a minus counts as one. -/
def splitMinus : List Char → Bool × List Char
  | '-' :: rest => (true, rest)
  | text => (false, text)

def splitSign : List Char → Bool × List Char
  | '-' :: rest => (true, rest)
  | '+' :: rest => (false, rest)
  | text => (false, text)

/-- An exponent with its marker, or nothing at the end of the text. -/
def exponentOfChars? : List Char → Option (Option Exponent)
  | [] => some none
  | marker :: text =>
      let sign := splitSign text
      if (marker = 'e' ∨ marker = 'E') ∧ sign.2 ≠ [] ∧ sign.2.all Char.isDigit then
        some (some ⟨sign.1, sign.2⟩)
      else
        none

def ofChars? (text : List Char) : Option Numeral :=
  let sign := splitMinus text
  let whole := sign.2.takeWhile Char.isDigit
  let rest := sign.2.dropWhile Char.isDigit
  if whole = [] then
    none
  else
    match rest with
    | '.' :: tail =>
        let fraction := tail.takeWhile Char.isDigit
        if fraction = [] then
          none
        else
          (exponentOfChars? (tail.dropWhile Char.isDigit)).map
            fun exponent => ⟨sign.1, whole, some fraction, exponent⟩
    | _ =>
        (exponentOfChars? rest).map fun exponent => ⟨sign.1, whole, none, exponent⟩

end Numeral
end WindsAloft
