import WindsAloft.Decimal.Basic

/-!
# Shortest decimals

`shortest` writes a finite double with the fewest digits that read back as the
same double.  For one digit, two digits and so on it takes the two decimals of
that length next to the value and keeps those that read back; of two hits it
takes the nearer one.  Should no length up to seventeen do, the exact expansion
of the value is left, which every finite double has.
-/

namespace WindsAloft
namespace Decimal

def readsBack (quanta : Nat) (decimal : Decimal) : Bool :=
  Binary64.ofFloat decimal.toFloat == .finite false quanta

/-- The exact value: a quantum is `5 ^ 1074` units of `10 ^ (-1074)`. -/
def exact (quanta : Nat) : Decimal :=
  ⟨quanta * Nat.pow 5 1074, -1074⟩

/-- The decimal of the given length that reads back, the nearer one if two do. -/
def ofLength? (quanta : Nat) (length : Nat) : Option Decimal :=
  let exponent := decimalExponent quanta + 1 - length
  let ratio := inUnitsOf exponent quanta
  let below : Decimal := ⟨ratio.1 / ratio.2, exponent⟩
  let above : Decimal := ⟨ratio.1 / ratio.2 + 1, exponent⟩
  match readsBack quanta below, readsBack quanta above with
  | true, true => some ⟨roundToEven ratio.1 ratio.2, exponent⟩
  | true, false => some below
  | false, true => some above
  | false, false => none

def searchLength (quanta : Nat) : Nat → Nat → Decimal
  | _, 0 => exact quanta
  | length, remaining + 1 =>
      match ofLength? quanta length with
      | some decimal => decimal
      | none => searchLength quanta (length + 1) remaining

/-- The shortest decimal that reads back as a magnitude in quanta. -/
def shortest (quanta : Nat) : Decimal :=
  if quanta = 0 then ⟨0, 0⟩ else (searchLength quanta 1 17).normalize

end Decimal
end WindsAloft
