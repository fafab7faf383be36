import WindsAloft.Text.Blank
import WindsAloft.Text.Utf8

/-!
# Lines of environment files

A line of an environment file may run over several lines of text, as long as a
quote is open at their ends.  A comment begins at a `#` behind a blank.  What
cannot be decoded ends the file.
-/

namespace WindsAloft
namespace EnvironmentFile

inductive Standing where
  | outside
  | blank
  | escaped
  | quoted (mark : Char)
  | quotedEscaped (mark : Char)
  deriving DecidableEq, Repr

namespace Standing

/-- Where a character leads that opens a quote, escapes the next one or does neither. -/
def opened (c : Char) : Standing :=
  if c = '\\' then escaped
  else if c = '"' ∨ c = '\'' then quoted c
  else outside

/-- Where a character leads; `none` if it begins a comment. -/
def next? (c : Char) : Standing → Option Standing
  | outside => some (if isBlank c ∧ c ≠ '\n' ∧ c ≠ '\r' then blank else opened c)
  | blank => if c = '#' then none else some (opened c)
  | escaped => some outside
  | quoted mark =>
      some (if c = '\\' then quotedEscaped mark else if c = mark then outside else quoted mark)
  | quotedEscaped mark => some (quoted mark)

end Standing

/-- A text up to its comment, and what its end is in the middle of if there is no comment. -/
def cutComment : Standing → List Char → List Char × Option Standing
  | standing, [] => ([], some standing)
  | standing, c :: text =>
      match standing.next? c with
      | none => ([], none)
      | some next =>
          let (kept, last) := cutComment next text
          (c :: kept, last)

def dropLineEnd (line : List Char) : List Char :=
  match line.reverse with
  | '\n' :: '\r' :: reversed => reversed.reverse
  | '\n' :: reversed => reversed.reverse
  | _ => line

def isComment (text : List Char) : Bool :=
  (text.dropWhile isBlank).head? = some '#'

/-- The lines that some lines of text make up, behind a text that is not complete yet. -/
def join
    (held : List Char)
    (standing : Standing) :
    List (List UInt8) → List (List Char)
  | [] => []
  | bytes :: lines =>
      match Utf8.decode bytes with
      | .error _ => []
      | .ok text =>
          if isComment (held ++ text) then
            [] :: join [] .outside lines
          else
            match cutComment standing text with
            | (kept, none) => (held ++ kept) :: join [] .outside lines
            | (_, some .outside) => dropLineEnd (held ++ text) :: join [] .outside lines
            | (_, some other) => join (held ++ text) other lines

/-- The bytes without a byte order mark in front. -/
def dropMark : List UInt8 → List UInt8
  | 0xEF :: 0xBB :: 0xBF :: bytes => bytes
  | bytes => bytes

def lines (bytes : List UInt8) : List (List Char) :=
  join [] .outside (cutLinesWithEnds (dropMark bytes))

end EnvironmentFile
end WindsAloft
