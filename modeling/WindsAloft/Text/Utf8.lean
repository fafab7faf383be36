/-!
# Decoding UTF-8

`Utf8.decode` turns bytes into characters and refuses every sequence that is
not the shortest form of a Unicode scalar value.  The fault names the index of
the first byte that belongs to no character and how many bytes make up the bad
sequence; where the bytes merely end too early there is no such number.
-/

namespace WindsAloft
namespace Utf8

def size : List Char → Nat
  | [] => 0
  | c :: text => c.utf8Size + size text

/-- Where decoding stops, and over how many bytes the bad sequence runs. -/
structure Fault where
  index : Nat
  length : Option Nat
  deriving DecidableEq, Repr

def Fault.message (fault : Fault) : String :=
  match fault.length with
  | some length =>
      "invalid utf-8 sequence of " ++ toString length ++ " bytes from index "
        ++ toString fault.index
  | none => "incomplete utf-8 byte sequence from index " ++ toString fault.index

def isContinuation (byte : UInt8) : Bool :=
  0x80 ≤ byte && byte ≤ 0xBF

/-- How many bytes a character takes by its first byte; zero if none starts with it. -/
def width (byte : UInt8) : Nat :=
  if byte < 0x80 then 1
  else if 0xC2 ≤ byte && byte ≤ 0xDF then 2
  else if 0xE0 ≤ byte && byte ≤ 0xEF then 3
  else if 0xF0 ≤ byte && byte ≤ 0xF4 then 4
  else 0

/-- Whether a second byte fits its first one: no overlong form, no surrogate, nothing too great. -/
def fits (first second : UInt8) : Bool :=
  if first = 0xE0 then 0xA0 ≤ second && second ≤ 0xBF
  else if first = 0xED then 0x80 ≤ second && second ≤ 0x9F
  else if first = 0xF0 then 0x90 ≤ second && second ≤ 0xBF
  else if first = 0xF4 then 0x80 ≤ second && second ≤ 0x8F
  else isContinuation second

def payload (byte : UInt8) : Nat :=
  byte.toNat % 64

/-- The characters of some bytes, the first of which has the given index. -/
def decodeFrom (index : Nat) : List UInt8 → Except Fault (List Char)
  | [] => .ok []
  | a :: rest =>
      match width a, rest with
      | 1, rest =>
          (decodeFrom (index + 1) rest).map (Char.ofNat a.toNat :: ·)
      | 2, b :: rest =>
          if fits a b then
            (decodeFrom (index + 2) rest).map
              (Char.ofNat (a.toNat % 32 * 64 + payload b) :: ·)
          else
            .error ⟨index, some 1⟩
      | 3, b :: c :: rest =>
          if ¬ fits a b then .error ⟨index, some 1⟩
          else if ¬ isContinuation c then .error ⟨index, some 2⟩
          else
            (decodeFrom (index + 3) rest).map
              (Char.ofNat ((a.toNat % 16 * 64 + payload b) * 64 + payload c) :: ·)
      | 3, [b] => .error ⟨index, if fits a b then none else some 1⟩
      | 4, b :: c :: d :: rest =>
          if ¬ fits a b then .error ⟨index, some 1⟩
          else if ¬ isContinuation c then .error ⟨index, some 2⟩
          else if ¬ isContinuation d then .error ⟨index, some 3⟩
          else
            (decodeFrom (index + 4) rest).map
              (Char.ofNat
                (((a.toNat % 8 * 64 + payload b) * 64 + payload c) * 64 + payload d) :: ·)
      | 4, [b, c] =>
          .error ⟨index,
            if ¬ fits a b then some 1 else if isContinuation c then none else some 2⟩
      | 4, [b] => .error ⟨index, if fits a b then none else some 1⟩
      | 0, _ => .error ⟨index, some 1⟩
      | _, _ => .error ⟨index, none⟩

def decode (bytes : List UInt8) : Except Fault (List Char) :=
  decodeFrom 0 bytes

end Utf8
end WindsAloft
