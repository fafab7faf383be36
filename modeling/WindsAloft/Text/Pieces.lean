/-!
# Pieces of texts

Cutting a text at every occurrence of a mark.  There is always one piece more
than there are marks.
-/

namespace WindsAloft

/-- The pieces of a text between the occurrences of a mark. -/
def cutAt (mark : Char) : List Char → List (List Char)
  | [] => [[]]
  | c :: text =>
      if c = mark then
        [] :: cutAt mark text
      else
        match cutAt mark text with
        | [] => [[c]]
        | piece :: pieces => (c :: piece) :: pieces

end WindsAloft
