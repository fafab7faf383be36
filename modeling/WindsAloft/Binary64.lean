/-!
# Doubles as exact numbers

A finite double is a whole number of *quanta*, the quantum being the least
positive double `2 ^ (-1074)`.  This module reads a `Float` as such a number
and derives from it the conversions that the rest of the library needs:

* `roundHalfUp` adds one half in double arithmetic and takes the floor,
* `truncate` drops the fraction,
* `lesser` and `greater` pick an extreme and ignore a value that is not a
  number,
* `hypotenuse` is the length of a plane vector, rounded once.

The two conversions to integers end at the bounds of 64-bit integers and send
a value that is not a number to zero.
-/

namespace WindsAloft

/-- What a double stands for. -/
inductive Binary64 where
  | nan
  | infinite (negative : Bool)
  /-- A sign and a magnitude counted in quanta; zero has both signs. -/
  | finite (negative : Bool) (quanta : Nat)
  deriving DecidableEq, Repr

namespace Binary64

/-- One, counted in quanta. -/
def unit : Nat := Nat.pow 2 1074

def isNegative : Float.Model.UnpackedFloat.Sign → Bool
  | .negative => true
  | .positive => false

def ofFloat (x : Float) : Binary64 :=
  match x.toModel.unpack with
  | .notANumber => .nan
  | .infinity sign => .infinite (isNegative sign)
  | .zero sign => .finite (isNegative sign) 0
  | .finite sign mantissa exponent _ =>
      .finite (isNegative sign) (mantissa * Nat.pow 2 (exponent + 1074).toNat)

/-- A finite value in quanta, with its sign; `none` for the other doubles. -/
def signedQuanta : Binary64 → Option Int
  | .finite true quanta => some (-quanta)
  | .finite false quanta => some quanta
  | _ => none

/-- The sign bit, which a zero has as well; a value that is not a number counts as unsigned. -/
def signBit : Binary64 → Bool
  | .finite negative _ => negative
  | .infinite negative => negative
  | .nan => false

/--
The 64-bit integer that a rounding of whole quanta to whole units gives.
Values beyond the 64-bit range end at its bounds.
-/
def toInt64By (rounding : Int → Int) : Binary64 → Int64
  | .nan => 0
  | .infinite true => Int64.ofIntClamp (Int64.minValue).toInt
  | .infinite false => Int64.ofIntClamp (Int64.maxValue).toInt
  | .finite true quanta => Int64.ofIntClamp (rounding (-quanta))
  | .finite false quanta => Int64.ofIntClamp (rounding quanta)

end Binary64

/-- The greatest integer not above a double. -/
def floorToInt64 (x : Float) : Int64 :=
  (Binary64.ofFloat x).toInt64By (fun quanta => quanta.fdiv Binary64.unit)

def truncate (x : Float) : Int64 :=
  (Binary64.ofFloat x).toInt64By (fun quanta => quanta.tdiv Binary64.unit)

/-- A double plus one half, added in double arithmetic, then the floor. -/
def roundHalfUp (x : Float) : Int64 :=
  floorToInt64 (x + 0.5)

def ofInt64 (n : Int64) : Float :=
  Float.ofInt n.toInt

/-- The double nearest to a 32-bit integer, which it equals. -/
def ofInt32 (n : Int32) : Float :=
  Float.ofInt n.toInt

def ofCount (n : Nat) : Float :=
  Float.ofNat n

/--
The lesser of two doubles, where a value that is not a number gives way to
the other one.  Of two equal values the first is kept.
-/
def lesser (x y : Float) : Float :=
  if x.isNaN then y else if y < x then y else x

def greater (x y : Float) : Float :=
  if x.isNaN then y else if x < y then y else x

/--
The length of the vector with the given components.  The sum of the two
squares is formed exactly, so its root is rounded only once.  An infinite
component makes the length infinite, whatever the other one is.
-/
def hypotenuse (x y : Float) : Float :=
  match Binary64.ofFloat x, Binary64.ofFloat y with
  | .infinite _, _ => Float.ofModel (.pack (.infinity .positive))
  | _, .infinite _ => Float.ofModel (.pack (.infinity .positive))
  | .nan, _ => Float.ofModel (.pack .notANumber)
  | _, .nan => Float.ofModel (.pack .notANumber)
  | .finite _ a, .finite _ b =>
      if positive : 0 < a * a + b * b then
        Float.ofModel (.pack
          (.sqrt .binary64 (.finite .positive (a * a + b * b) (-2148) positive)))
      else
        0

end WindsAloft
