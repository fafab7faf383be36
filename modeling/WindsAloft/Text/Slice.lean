import WindsAloft.Text.Utf8

/-!
# Slices of texts

A slice of a text is given by the bytes before it and before its end.  There is
none if one of them falls into the middle of a character.
-/

namespace WindsAloft

def dropBytes? (n : Nat) : List Char → Option (List Char)
  | [] => if n = 0 then some [] else none
  | c :: text =>
      if n = 0 then some (c :: text)
      else if c.utf8Size ≤ n then dropBytes? (n - c.utf8Size) text
      else none

def takeBytes? (n : Nat) : List Char → Option (List Char)
  | [] => if n = 0 then some [] else none
  | c :: text =>
      if n = 0 then some []
      else if c.utf8Size ≤ n then (takeBytes? (n - c.utf8Size) text).map (c :: ·)
      else none

/-- The slice of a text between two positions. -/
def slice? (text : List Char) (first last : Nat) : Option (List Char) :=
  (dropBytes? first text).bind (takeBytes? (last - first))

end WindsAloft
