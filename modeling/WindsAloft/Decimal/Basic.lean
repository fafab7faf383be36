import WindsAloft.Binary64

/-!
# Decimal numbers

A decimal is a whole number of units of a power of ten.  `toFloat` reads one
with correct rounding.  The other functions find the decimal power below a
finite double and divide with rounding to the even neighbour; every printer of
this library builds on them.
-/

namespace WindsAloft

/-- The number `digits * 10 ^ exponent`. -/
structure Decimal where
  digits : Nat
  exponent : Int
  deriving DecidableEq, Repr

/-- The digits of a number in base ten, without leading zeros. -/
def digitChars (n : Nat) : List Char :=
  Nat.toDigits 10 n

def integerChars (n : Int) : List Char :=
  if n < 0 then '-' :: digitChars n.natAbs else digitChars n.natAbs

/-- The integer nearest to a quotient; of two equally near ones the even one. -/
def roundToEven (numerator denominator : Nat) : Nat :=
  let quotient := numerator / denominator
  let twice := 2 * (numerator % denominator)
  if twice < denominator then quotient
  else if denominator < twice then quotient + 1
  else quotient + quotient % 2

namespace Decimal

/-- The double nearest to a decimal, halfway cases going to the even one. -/
def toFloat (decimal : Decimal) : Float :=
  Float.ofModel (.ofScientific decimal.digits decimal.exponent)

def normalize (decimal : Decimal) : Decimal :=
  if 0 < decimal.digits ∧ decimal.digits % 10 = 0 then
    normalize ⟨decimal.digits / 10, decimal.exponent + 1⟩
  else
    decimal
termination_by decimal.digits
decreasing_by
  show decimal.digits / 10 < decimal.digits
  omega

end Decimal

/--
A magnitude in quanta measured in units of a power of ten, as a numerator and
a denominator.
-/
def inUnitsOf (exponent : Int) (quanta : Nat) : Nat × Nat :=
  if 0 ≤ exponent then
    (quanta, Binary64.unit * Nat.pow 10 exponent.toNat)
  else
    (quanta * Nat.pow 10 (-exponent).toNat, Binary64.unit)

def reachesPower (exponent : Int) (quanta : Nat) : Bool :=
  let ratio := inUnitsOf exponent quanta
  ratio.2 ≤ ratio.1

/--
The exponent of the greatest power of ten that a positive magnitude reaches.
The length in bits gives it up to one.
-/
def decimalExponent (quanta : Nat) : Int :=
  let guess := ((quanta.log2 : Int) - 1074) * 30103 / 100000
  if reachesPower (guess + 1) quanta then guess + 1
  else if reachesPower guess quanta then guess
  else guess - 1

end WindsAloft
