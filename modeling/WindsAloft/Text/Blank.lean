/-!
# Blanks and lines

The blanks of Unicode, the trimming of a text at both ends, and the cutting of
lines off bytes.  A line ends at a newline byte; behind the last newline there
is a further line only if some byte follows.
-/

namespace WindsAloft

/-- Whether a character has the Unicode property of white space. -/
def isBlank (c : Char) : Bool :=
  let n := c.toNat
  (9 ≤ n && n ≤ 13) || n = 0x20 || n = 0x85 || n = 0xA0 || n = 0x1680
    || (0x2000 ≤ n && n ≤ 0x200A) || n = 0x2028 || n = 0x2029 || n = 0x202F
    || n = 0x205F || n = 0x3000

def trimEnd : List Char → List Char
  | [] => []
  | c :: text =>
      match trimEnd text with
      | [] => if isBlank c then [] else [c]
      | rest => c :: rest

def trim (text : List Char) : List Char :=
  trimEnd (text.dropWhile isBlank)

def newline : UInt8 := 10

/-- The first line of some bytes and the bytes behind the newline that ends it. -/
def takeLine : List UInt8 → Option (List UInt8 × List UInt8)
  | [] => none
  | byte :: bytes =>
      let isInside (byte : UInt8) : Bool := byte ≠ newline
      some
        ((byte :: bytes).takeWhile isInside, ((byte :: bytes).dropWhile isInside).drop 1)

theorem takeLine_lt
    {bytes line rest : List UInt8}
    (taken : takeLine bytes = some (line, rest)) :
    rest.length < bytes.length := by
  cases bytes with
  | nil => cases taken
  | cons byte bytes =>
      simp only [takeLine, Option.some.injEq, Prod.mk.injEq] at taken
      rw [← taken.2, List.length_drop, List.dropWhile_cons]
      split
      · have shorter := (bytes.dropWhile_sublist fun byte => decide (byte ≠ newline)).length_le
        simp only [List.length_cons]
        omega
      · simp

/-- The lines of some bytes, each with the newline that ends it. -/
def cutLinesWithEnds : List UInt8 → List (List UInt8)
  | [] => []
  | byte :: bytes =>
      if byte = newline then
        [byte] :: cutLinesWithEnds bytes
      else
        match cutLinesWithEnds bytes with
        | [] => [[byte]]
        | line :: lines => (byte :: line) :: lines

end WindsAloft
