import WindsAloft.Decimal.Shortest

/-!
# Notations for doubles

Three ways to write the shortest decimal of a double:

* `displayFloat` never uses an exponent and leaves integers without a point,
* `jsonFloat` always has a point or an exponent, and takes the exponent for
  very small and very large values,
* `tomlFloat` never uses an exponent and always has a point.

They differ also in how they write values that are not finite.
-/

namespace WindsAloft

/-- A decimal without an exponent; a fraction is introduced by a point. -/
def Decimal.plain (decimal : Decimal) : List Char :=
  let digits := digitChars decimal.digits
  if 0 ≤ decimal.exponent then
    if decimal.digits = 0 then digits
    else digits ++ List.replicate decimal.exponent.toNat '0'
  else
    let places := (-decimal.exponent).toNat
    if places < digits.length then
      digits.take (digits.length - places) ++ '.' :: digits.drop (digits.length - places)
    else
      '0' :: '.' :: (List.replicate (places - digits.length) '0' ++ digits)

/-- A decimal without an exponent and with a point in any case. -/
def Decimal.pointed (decimal : Decimal) : List Char :=
  if 0 ≤ decimal.exponent then decimal.plain ++ ['.', '0'] else decimal.plain

/-- One digit, the others behind a point, and a signed exponent. -/
def Decimal.scientific (decimal : Decimal) : List Char :=
  let digits := digitChars decimal.digits
  let exponent := decimal.exponent + digits.length - 1
  let fraction := digits.drop 1
  digits.take 1
    ++ (if fraction.isEmpty then [] else '.' :: fraction)
    ++ 'e' :: (if exponent < 0 then '-' else '+') :: digitChars exponent.natAbs

def Decimal.leadingExponent (decimal : Decimal) : Int :=
  decimal.exponent + (digitChars decimal.digits).length - 1

/-- A decimal with a point, or with an exponent if that of the first digit is outside -5 to 15. -/
def Decimal.adaptive (decimal : Decimal) : List Char :=
  if decimal.digits = 0 ∨ (-5 ≤ decimal.leadingExponent ∧ decimal.leadingExponent ≤ 15) then
    decimal.pointed
  else
    decimal.scientific

def signed (negative : Bool) (text : List Char) : List Char :=
  if negative then '-' :: text else text

def displayFloat (x : Float) : List Char :=
  match Binary64.ofFloat x with
  | .nan => "NaN".toList
  | .infinite negative => signed negative "inf".toList
  | .finite negative quanta => signed negative (Decimal.shortest quanta).plain

/-- A double in a JSON document, where only finite ones can be written. -/
def jsonFloat (x : Float) : List Char :=
  match Binary64.ofFloat x with
  | .nan => "null".toList
  | .infinite _ => "null".toList
  | .finite negative quanta => signed negative (Decimal.shortest quanta).adaptive

def tomlFloat (x : Float) : List Char :=
  match Binary64.ofFloat x with
  | .nan => "nan".toList
  | .infinite negative => signed negative "inf".toList
  | .finite negative quanta => signed negative (Decimal.shortest quanta).pointed

end WindsAloft
