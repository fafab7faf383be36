import WindsAloft.Decimal.Notation

/-!
# Rounded decimals

`fixedFloat` writes a double with a given number of places, `scientificFloat`
with a given number of places behind its first digit.  Both round the exact
value, and of two equally near results they take the one with an even last
digit.
-/

namespace WindsAloft

/-- A number of units of `10 ^ (-places)`, with a point before the last `places` digits. -/
def withPlaces (places : Nat) (n : Nat) : List Char :=
  let digits := digitChars n
  let padded := List.replicate (places + 1 - digits.length) '0' ++ digits
  if places = 0 then padded
  else padded.take (padded.length - places) ++ '.' :: padded.drop (padded.length - places)

def fixedFloat (places : Nat) (x : Float) : List Char :=
  match Binary64.ofFloat x with
  | .nan => "NaN".toList
  | .infinite negative => signed negative "inf".toList
  | .finite negative quanta =>
      signed negative (withPlaces places (roundToEven (quanta * Nat.pow 10 places) Binary64.unit))

/-- A magnitude as one digit, a point, the given number of digits and an exponent. -/
def scientificMagnitude (places : Nat) (quanta : Nat) : List Char :=
  if quanta = 0 then
    withPlaces places 0 ++ ['e', '0']
  else
    let exponent := decimalExponent quanta
    let ratio := inUnitsOf (exponent - places) quanta
    let rounded := roundToEven ratio.1 ratio.2
    if rounded < Nat.pow 10 (places + 1) then
      withPlaces places rounded ++ 'e' :: integerChars exponent
    else
      withPlaces places (Nat.pow 10 places) ++ 'e' :: integerChars (exponent + 1)

def scientificFloat (places : Nat) (x : Float) : List Char :=
  match Binary64.ofFloat x with
  | .nan => "NaN".toList
  | .infinite negative => signed negative "inf".toList
  | .finite negative quanta => signed negative (scientificMagnitude places quanta)

end WindsAloft
