import WindsAloft.Text.Alphanumeric
import WindsAloft.Text.Blank
import WindsAloft.Text.Hex

/-!
# Patterns

A pattern describes texts: characters stand for themselves, `.` for any one,
brackets for a choice, parentheses for a group, and `?`, `*` and `+` for a
repetition.  What scopes tell about are numbers, which no pattern describes.  So
all that counts of a pattern is whether it is one, and that is decided here.

Properties of characters that take tables beyond ASCII are not at hand: sets by
property, edges of words and letters in either case make no pattern, unless it
is told to be about ASCII alone.  A repetition with bounds in braces is none
either, because a brace ends the field that the pattern belongs to.
-/

namespace WindsAloft
namespace Pattern

structure Mode where
  /-- Letters stand for either case. -/
  eitherCase : Bool := false
  /-- Characters are not only those of ASCII. -/
  unicode : Bool := true
  /-- Blanks and comments do not count. -/
  spaced : Bool := false
  deriving DecidableEq, Repr

namespace Mode

/-- The text behind blanks and comments; the flag tells that a comment has begun. -/
def skipSpace (comment : Bool) : List Char → List Char
  | [] => []
  | c :: text =>
      if comment then skipSpace (c ≠ '\n') text
      else if isBlank c then skipSpace false text
      else if c = '#' then skipSpace true text
      else c :: text

def skip (mode : Mode) (text : List Char) : List Char :=
  if mode.spaced then skipSpace false text else text

/-- Whether characters can stand for themselves: either case takes a table beyond ASCII. -/
def letsCharacters (mode : Mode) : Bool :=
  !(mode.eitherCase && mode.unicode)

end Mode

/-- What a backslash and the characters behind it stand for. -/
inductive Element where
  | character (c : Char)
  | set
  | place
  deriving DecidableEq, Repr

/-- A number of so many hexadecimal digits, and what is behind it. -/
def hexNumber? (mode : Mode) : Nat → Nat → List Char → Option (Nat × List Char)
  | 0, value, text => some (value, text)
  | missing + 1, value, text =>
      match mode.skip text with
      | [] => none
      | c :: rest =>
          (hexValue? c).bind fun digit => hexNumber? mode missing (value * 16 + digit) rest

def hexDigits? (c : Char) : Option Nat :=
  if c = 'x' then some 2
  else if c = 'u' then some 4
  else if c = 'U' then some 8
  else none

/-- The character with a number of so many digits.  Short ones are bytes where all is ASCII. -/
def numbered? (mode : Mode) (digits value : Nat) : Option Char :=
  if value.isValidChar ∧ (mode.unicode ∨ digits ≠ 2 ∨ value < 0x80) then some (Char.ofNat value)
  else none

/-- The control character that a letter behind a backslash stands for. -/
def control? (c : Char) : Option Char :=
  if c = 'a' then some (Char.ofNat 7)
  else if c = 'f' then some (Char.ofNat 12)
  else if c = 't' then some '\t'
  else if c = 'n' then some '\n'
  else if c = 'r' then some '\r'
  else if c = 'v' then some (Char.ofNat 11)
  else none

def isEscapable (c : Char) : Bool :=
  c.toNat < 0x80 && !c.isAlphanum && c ≠ '<' && c ≠ '>'

def escaped? (mode : Mode) : List Char → Option (Element × List Char)
  | [] => none
  | c :: text =>
      match hexDigits? c with
      | some digits =>
          (hexNumber? mode digits 0 text).bind fun (value, rest) =>
            (numbered? mode digits value).map fun c => (.character c, rest)
      | none =>
          if isEscapable c then some (.character c, text)
          else if c = 'd' ∨ c = 's' ∨ c = 'w' then
            if mode.unicode then none else some (.set, text)
          else if c = 'A' ∨ c = 'z' then some (.place, text)
          else if c = 'b' ∨ c = 'B' ∨ c = '<' ∨ c = '>' then
            if mode.unicode then none else some (.place, text)
          else (control? c).map fun c => (.character c, text)

def setNames : List String :=
  [ "alnum", "alpha", "ascii", "blank", "cntrl", "digit", "graph", "lower"
  , "print", "punct", "space", "upper", "word", "xdigit" ]

def namedSetBody? (text : List Char) : Option (List Char) :=
  match text.dropWhile fun c => c ≠ ':' with
  | ':' :: ']' :: rest =>
      if String.ofList (text.takeWhile fun c => c ≠ ':') ∈ setNames then some rest else none
  | _ => none

/-- A named set behind its bracket: whether it is turned round, and what is behind it. -/
def namedSet? : List Char → Option (Bool × List Char)
  | ':' :: '^' :: text => (namedSetBody? text).map (true, ·)
  | ':' :: text => (namedSetBody? text).map (false, ·)
  | _ => none

def admits (mode : Mode) (c : Char) : Bool :=
  mode.letsCharacters && (mode.unicode || c.toNat < 0x80)

/-- One member of a set, `none` in it for a set of its own, and what is behind it. -/
def member? (mode : Mode) : List Char → Option (Option Char × List Char)
  | [] => none
  | '\\' :: text =>
      match escaped? mode text with
      | some (.character c, rest) => if admits mode c then some (some c, rest) else none
      | some (.set, rest) => some (none, rest)
      | _ => none
  | c :: text => if admits mode c then some (some c, text) else none

/-- Whether a hyphen begins a range and is no member itself. -/
def beginsRange (mode : Mode) (behind : List Char) : Bool :=
  match mode.skip behind with
  | ']' :: _ => false
  | '-' :: _ => false
  | _ => true

def range? (mode : Mode) (text : List Char) : Option (List Char) :=
  (member? mode text).bind fun (first, rest) =>
    match mode.skip rest with
    | '-' :: behind =>
        if beginsRange mode behind then
          match first, member? mode (mode.skip behind) with
          | some first, some (some last, rest) => if first ≤ last then some rest else none
          | _, _ => none
        else
          some rest
    | _ => some rest

def skipHyphens (mode : Mode) : Nat → List Char → List Char
  | 0, text => text
  | fuel + 1, text =>
      match text with
      | '-' :: rest => skipHyphens mode fuel (mode.skip rest)
      | _ => text

/--
The text behind the beginning of a set: a caret that turns it round, hyphens,
and a closing bracket that is a member because nothing is in front of it.
-/
def openSet? (mode : Mode) (text : List Char) : Option (List Char) :=
  let text := mode.skip text
  let turned := text.head? = some '^'
  let text := if turned then mode.skip (text.drop 1) else text
  let behind := skipHyphens mode text.length text
  let behind :=
    if behind.length = text.length ∧ behind.head? = some ']' then mode.skip (behind.drop 1)
    else behind
  if turned ∧ ¬ mode.unicode then none
  else if behind = [] then none
  else some behind

/-- The text behind a set with so many sets around it. -/
def set? (mode : Mode) : Nat → Nat → List Char → Option (List Char)
  | 0, _, _ => none
  | fuel + 1, depth, text =>
      match mode.skip text with
      | ']' :: rest => if depth = 0 then some rest else set? mode fuel (depth - 1) rest
      | '&' :: '&' :: rest => set? mode fuel depth rest
      | '-' :: '-' :: rest => set? mode fuel depth rest
      | '~' :: '~' :: rest => set? mode fuel depth rest
      | '[' :: rest =>
          match namedSet? rest with
          | some (turned, behind) =>
              if turned ∧ ¬ mode.unicode then none else set? mode fuel depth behind
          | none => (openSet? mode rest).bind (set? mode fuel (depth + 1))
      | text => (range? mode text).bind (set? mode fuel depth)

def isGroupName : List Char → Bool
  | [] => false
  | c :: text =>
      (c = '_' || (isAlphanumeric c && !c.isDigit))
        && text.all fun c => c = '_' || c = '.' || c = '[' || c = ']' || isAlphanumeric c

/-- The letters that change how a pattern is meant, and the sign that takes a change back. -/
def changeMarks : List Char :=
  ['i', 'm', 's', 'u', 'U', 'R', 'x', '-']

/-- Whether a text is a list of changes: each of them once, the sign not at the end. -/
def areChanges (changes : List Char) : Bool :=
  changes.all (changeMarks.contains ·) && changes.eraseDups = changes
    && changes.getLast? ≠ some '-'

def changed (changes : List Char) (mark : Char) (old : Bool) : Bool :=
  if mark ∈ changes then '-' ∉ changes.takeWhile fun c => c ≠ mark else old

def Mode.change (mode : Mode) (changes : List Char) : Mode where
  eitherCase := changed changes 'i' mode.eitherCase
  unicode := changed changes 'u' mode.unicode
  spaced := changed changes 'x' mode.spaced

structure State where
  mode : Mode := {}
  /-- How characters were meant before each open group, the innermost first. -/
  outer : List Mode := []
  /-- Whether there is something in front that can be repeated. -/
  repeatable : Bool := false
  names : List (List Char) := []

namespace State

def behindElement (state : State) : State :=
  { state with repeatable := true }

def enter (state : State) (mode : Mode) : State :=
  { state with mode := mode, outer := state.mode :: state.outer, repeatable := false }

def openNamed? (state : State) (text : List Char) : Option (State × List Char) :=
  let name := text.takeWhile fun c => c ≠ '>'
  match text.dropWhile fun c => c ≠ '>' with
  | [] => none
  | _ :: rest =>
      if isGroupName name ∧ name ∉ state.names then
        some ({ state.enter state.mode with names := name :: state.names }, rest)
      else
        none

/-- Changes of how characters are meant, from here on or within a group. -/
def openChanged? (state : State) (text : List Char) : Option (State × List Char) :=
  let ends := fun c => c = ':' || c = ')'
  let changes := text.takeWhile fun c => !ends c
  let mode := state.mode.change changes
  match text.dropWhile fun c => !ends c with
  | ':' :: rest => if areChanges changes then some (state.enter mode, rest) else none
  | ')' :: rest =>
      if areChanges changes ∧ changes ≠ [] then
        some ({ state with mode := mode, repeatable := false }, rest)
      else
        none
  | _ => none

def open? (state : State) (text : List Char) : Option (State × List Char) :=
  match state.mode.skip text with
  | '?' :: 'P' :: '<' :: rest => state.openNamed? rest
  | '?' :: '<' :: rest => state.openNamed? rest
  | '?' :: rest => state.openChanged? rest
  | rest => some (state.enter state.mode, rest)

def close? (state : State) : Option State :=
  match state.outer with
  | [] => none
  | mode :: outer => some { state with mode := mode, outer := outer, repeatable := true }

/-- A repetition, which a question mark may follow. -/
def repeat? (state : State) (text : List Char) : Option (State × List Char) :=
  if ¬ state.repeatable then none
  else if text.head? = some '?' then some (state, text.drop 1)
  else some (state, text)

def step? (state : State) (c : Char) (text : List Char) : Option (State × List Char) :=
  if c = '(' then state.open? text
  else if c = ')' then state.close?.map (·, text)
  else if c = '|' then some ({ state with repeatable := false }, text)
  else if c = '?' ∨ c = '*' ∨ c = '+' then state.repeat? text
  else if c = '[' then
    (openSet? state.mode text).bind fun inside =>
      (set? state.mode (inside.length + 1) 0 inside).bind fun rest =>
        if state.mode.letsCharacters then some (state.behindElement, rest) else none
  else if c = '\\' then
    match escaped? state.mode text with
    | some (.character _, rest) =>
        if state.mode.letsCharacters then some (state.behindElement, rest) else none
    | some (_, rest) => some (state.behindElement, rest)
    | none => none
  else if c = '{' then none
  else if c = '.' then
    if state.mode.unicode then some (state.behindElement, text) else none
  else if c = '^' ∨ c = '$' then some (state.behindElement, text)
  else if state.mode.letsCharacters then some (state.behindElement, text)
  else none

/-- Whether a text goes on to the end of a pattern, with so many steps at most. -/
def completes : Nat → State → List Char → Bool
  | 0, _, _ => false
  | fuel + 1, state, text =>
      match state.mode.skip text with
      | [] => state.outer.isEmpty
      | c :: rest =>
          match state.step? c rest with
          | none => false
          | some (after, rest) => completes fuel after rest

end State
end Pattern

/-- Whether a text is a pattern.  Each step takes a character at least. -/
def isPattern (text : List Char) : Bool :=
  Pattern.State.completes (text.length + 1) {} text

end WindsAloft
