import WindsAloft.Environment.Basic
import WindsAloft.Environment.Line
import WindsAloft.Text.Alphanumeric

/-!
# Assignments in environment files

Each line of an environment file is empty or assigns a value to a name.  A
value may hold quotes, escapes and references to other variables.  Variables
that exist keep their values, and a line that cannot be read ends the file.  A
new variable cannot have a value with a null character in it; there is no going
on from such an assignment.
-/

namespace WindsAloft
namespace EnvironmentFile

/-- What the characters of a value are in the middle of. -/
inductive Stage where
  | bare (quoted : Bool)
  | single
  | escaped (quoted : Bool)
  /-- Behind a dollar sign and some characters of a name, the last one first. -/
  | name (quoted : Bool) (reversed : List Char)
  /-- The same with a brace behind the dollar sign. -/
  | braced (quoted : Bool) (reversed : List Char)
  /-- Behind the blank that ends the value. -/
  | behind

/-- The value of the variable with a name written backwards; nothing if there is none. -/
def reference
    (environment : Environment)
    (reversed : List Char) :
    List Char :=
  ((environment (String.ofList reversed.reverse)).getD "").toList

def unescape? (c : Char) : Option Char :=
  if c = 'n' then some '\n'
  else if c = '\\' ∨ c = '\'' ∨ c = '"' ∨ c = '$' ∨ c = ' ' then some c
  else none

/-- A value with its quotes, escapes and references resolved. -/
def resolve (environment : Environment) : Stage → List Char → Option (List Char)
  | .bare quoted, [] => if quoted then none else some []
  | .single, [] => none
  | .escaped quoted, [] => if quoted then none else some []
  | .name quoted reversed, [] => if quoted then none else some (reference environment reversed)
  | .braced _ _, [] => none
  | .behind, [] => some []
  | .bare quoted, c :: text =>
      if c = '$' then resolve environment (.name quoted []) text
      else if c = '\\' then resolve environment (.escaped quoted) text
      else if c = '"' then resolve environment (.bare (!quoted)) text
      else if quoted then (resolve environment (.bare quoted) text).map (c :: ·)
      else if c = '\'' then resolve environment .single text
      else if c = ' ' ∨ c = '\t' then resolve environment .behind text
      else (resolve environment (.bare quoted) text).map (c :: ·)
  | .single, c :: text =>
      if c = '\'' then resolve environment (.bare false) text
      else (resolve environment .single text).map (c :: ·)
  | .escaped quoted, c :: text =>
      match unescape? c with
      | none => none
      | some meant => (resolve environment (.bare quoted) text).map (meant :: ·)
  | .name quoted reversed, c :: text =>
      if isAlphanumeric c then resolve environment (.name quoted (c :: reversed)) text
      else if c = '{' ∧ reversed = [] then resolve environment (.braced quoted []) text
      else if c = '$' then
        (resolve environment (.name quoted []) text).map
          (reference environment reversed ++ ·)
      else
        (resolve environment (.bare quoted) text).map
          (reference environment reversed ++ c :: ·)
  | .braced quoted reversed, c :: text =>
      if c = '}' then
        (resolve environment (.bare quoted) text).map (reference environment reversed ++ ·)
      else
        resolve environment (.braced quoted (c :: reversed)) text
  | .behind, c :: text =>
      if c = ' ' ∨ c = '\t' then resolve environment .behind text
      else if c = '#' then some []
      else none

inductive Statement where
  | nothing
  | assignment (name : String) (value : List Char)
  | bad

def startsName (c : Char) : Bool :=
  c.isAlpha || c = '_'

def continuesName (c : Char) : Bool :=
  c.isAlphanum || c = '_' || c = '.'

/-- Splits a name off, together with the blanks behind it. -/
def splitName? (text : List Char) : Option (String × List Char) :=
  match text with
  | [] => none
  | c :: _ =>
      if startsName c then
        some (String.ofList (text.takeWhile continuesName),
          (text.dropWhile continuesName).dropWhile isBlank)
      else
        none

def splitTarget? (text : List Char) : Option (String × List Char) :=
  match splitName? text with
  | some (name, '=' :: value) => some (name, value.dropWhile isBlank)
  | _ => none

/-- Splits a name and an equals sign off; the word `export` may stand in front. -/
def splitExported? (text : List Char) : Option (String × List Char) :=
  match splitTarget? text with
  | some target => some target
  | none =>
      match splitName? text with
      | some ("export", rest) => splitTarget? rest
      | _ => none

/-- Whether nothing but a comment is left. -/
def isOver : List Char → Bool
  | [] => true
  | c :: _ => c = '#'

def readLine
    (environment : Environment)
    (line : List Char) :
    Statement :=
  let content := trim line
  if isOver content then .nothing
  else
    match splitExported? content with
    | none => .bad
    | some (name, value) =>
        if isOver value then .assignment name []
        else
          match resolve environment (.bare false) value with
          | none => .bad
          | some value => .assignment name value

end EnvironmentFile

namespace Environment

/-- The character that no value of a variable can hold. -/
def terminator : Char := Char.ofNat 0

/-- The environment with the variables that some lines of an environment file assign. -/
def withLines?
    (environment : Environment) :
    List (List Char) → Option Environment
  | [] => some environment
  | line :: lines =>
      match EnvironmentFile.readLine environment line with
      | .nothing => environment.withLines? lines
      | .bad => some environment
      | .assignment name value =>
          if (environment name).isNone ∧ terminator ∈ value then none
          else (environment.define name (String.ofList value)).withLines? lines

def withFile?
    (environment : Environment)
    (bytes : List UInt8) :
    Option Environment :=
  environment.withLines? (EnvironmentFile.lines bytes)

end Environment
end WindsAloft
