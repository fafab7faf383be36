import WindsAloft.Decimal.Notation

/-!
# JSON values and their text

A `Json` is a document to be written.  Members of an object keep their order.
`compact` writes one line without blanks, `pretty` one value a line, indented
by two blanks for each level.  Doubles that are not finite become `null`.
-/

namespace WindsAloft

inductive Json where
  | null
  | bool (b : Bool)
  | integer (n : Int)
  | real (x : Float)
  | text (s : String)
  | list (items : List Json)
  | object (members : List (String × Json))

namespace Json

def ofOption {α : Type} (write : α → Json) : Option α → Json
  | none => .null
  | some a => write a

def hexChar (n : Nat) : Char :=
  Nat.digitChar n

/--
A character inside quotes.  The quote, the backslash and control characters
are escaped; the others, also those beyond ASCII, stand for themselves.
-/
def escapeChar (c : Char) : List Char :=
  if c = '"' then ['\\', '"']
  else if c = '\\' then ['\\', '\\']
  else if c.toNat = 8 then ['\\', 'b']
  else if c.toNat = 9 then ['\\', 't']
  else if c.toNat = 10 then ['\\', 'n']
  else if c.toNat = 12 then ['\\', 'f']
  else if c.toNat = 13 then ['\\', 'r']
  else if c.toNat < 32 then
    ['\\', 'u', '0', '0', hexChar (c.toNat / 16), hexChar (c.toNat % 16)]
  else [c]

def quoted (s : String) : List Char :=
  '"' :: (s.toList.flatMap escapeChar ++ ['"'])

def boolChars (b : Bool) : List Char :=
  if b then "true".toList else "false".toList

mutual

/-- A document on one line, without blanks. -/
def compactChars : Json → List Char
  | .null => "null".toList
  | .bool b => boolChars b
  | .integer n => integerChars n
  | .real x => jsonFloat x
  | .text s => quoted s
  | .list items => '[' :: (compactItems items ++ [']'])
  | .object members => '{' :: (compactMembers members ++ ['}'])

def compactItems : List Json → List Char
  | [] => []
  | [item] => compactChars item
  | item :: items => compactChars item ++ ',' :: compactItems items

def compactMembers : List (String × Json) → List Char
  | [] => []
  | [(name, value)] => quoted name ++ ':' :: compactChars value
  | (name, value) :: members =>
      quoted name ++ ':' :: (compactChars value ++ ',' :: compactMembers members)

end

/-- A new line, indented by two blanks for each level. -/
def newLine (level : Nat) : List Char :=
  '\n' :: List.replicate (2 * level) ' '

mutual

/-- A document over several lines.  Only what is not empty is broken. -/
def prettyChars (level : Nat) : Json → List Char
  | .null => "null".toList
  | .bool b => boolChars b
  | .integer n => integerChars n
  | .real x => jsonFloat x
  | .text s => quoted s
  | .list [] => ['[', ']']
  | .list (item :: items) =>
      '[' :: (newLine (level + 1) ++ prettyChars (level + 1) item
        ++ prettyItems (level + 1) items ++ newLine level ++ [']'])
  | .object [] => ['{', '}']
  | .object ((name, value) :: members) =>
      '{' :: (newLine (level + 1) ++ quoted name ++ ':' :: ' ' :: prettyChars (level + 1) value
        ++ prettyMembers (level + 1) members ++ newLine level ++ ['}'])

/-- The items behind the first one. -/
def prettyItems (level : Nat) : List Json → List Char
  | [] => []
  | item :: items =>
      ',' :: (newLine level ++ prettyChars level item ++ prettyItems level items)

def prettyMembers (level : Nat) : List (String × Json) → List Char
  | [] => []
  | (name, value) :: members =>
      ',' :: (newLine level ++ quoted name ++ ':' :: ' ' :: prettyChars level value
        ++ prettyMembers level members)

end

def compact (json : Json) : String :=
  String.ofList json.compactChars

def pretty (json : Json) : String :=
  String.ofList (json.prettyChars 0)

end Json
end WindsAloft
