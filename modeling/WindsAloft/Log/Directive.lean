import WindsAloft.Decimal.Numeral
import WindsAloft.Log.Pattern
import WindsAloft.Signal
import WindsAloft.Text.Pieces
import WindsAloft.Text.Slice

/-!
# Directives for the log

A directive tells how much detail the log keeps of some part of what happens.
Written out it may name how topics begin, in brackets a scope, in braces a field
with a value behind an equals sign, and last a level: `topic[scope{field=3}]=debug`.
A level alone stands for everything, a name alone for all detail of it.

Its parts are cut at positions that are counted without the blanks in front, but
out of the text with them.  So blanks in front shift every part, and a cut that
falls into the middle of a character makes the program break off.
-/

namespace WindsAloft

/-- What the value of a field is expected to be. -/
inductive Expectation where
  | flag (b : Bool)
  | natural (n : Nat)
  | integer (n : Int)
  | real (x : Float)
  /-- A double that is not a number. -/
  | undefined
  /-- A text that a pattern describes. -/
  | pattern (chars : List Char)
  deriving DecidableEq, Repr

namespace Expectation

/-- The natural number that digits stand for, perhaps behind a plus, if it fits into 64 bits. -/
def natural? (text : List Char) : Option Nat :=
  let digits := if text.head? = some '+' then text.drop 1 else text
  let n := digitsValue digits
  if digits ≠ [] ∧ digits.all Char.isDigit ∧ n ≤ Numeral.greatestWord then some n else none

def negative? (text : List Char) : Option Int :=
  let n : Int := -digitsValue (text.drop 1)
  if text.head? = some '-' ∧ text.drop 1 ≠ [] ∧ (text.drop 1).all Char.isDigit
      ∧ Int64.minValue.toInt ≤ n then
    some n
  else
    none

/-- A numeral that may lack digits before the point or behind it, but not both. -/
def numeral? (text : List Char) : Option Numeral :=
  let sign := Numeral.splitSign text
  let whole := sign.2.takeWhile Char.isDigit
  match sign.2.dropWhile Char.isDigit with
  | '.' :: tail =>
      let fraction := tail.takeWhile Char.isDigit
      if whole = [] ∧ fraction = [] then
        none
      else
        (Numeral.exponentOfChars? (tail.dropWhile Char.isDigit)).map
          fun exponent => ⟨sign.1, whole, some fraction, exponent⟩
  | rest =>
      if whole = [] then
        none
      else
        (Numeral.exponentOfChars? rest).map fun exponent => ⟨sign.1, whole, none, exponent⟩

def special? (text : List Char) : Option Expectation :=
  let sign := Numeral.splitSign text
  let word := String.ofList (sign.2.map Char.toLower)
  if word = "nan" then some .undefined
  else if word = "inf" ∨ word = "infinity" then
    some (.real (if sign.1 then -(1 / 0) else 1 / 0))
  else
    none

/-- The expectation of a double, the one nearest to what is written. -/
def real? (text : List Char) : Option Expectation :=
  match numeral? text with
  | some numeral => some (.real (numeral.withSign numeral.magnitude.toFloat))
  | none => special? text

def ofChars? (text : List Char) : Option Expectation :=
  if text = "true".toList then some (.flag true)
  else if text = "false".toList then some (.flag false)
  else
    match natural? text, negative? text, real? text with
    | some n, _, _ => some (.natural n)
    | none, some n, _ => some (.integer n)
    | none, none, some expectation => some expectation
    | none, none, none => if isPattern text then some (.pattern text) else none

/-- Whether two expectations are the same; zeros are, whatever their signs. -/
def alike : Expectation → Expectation → Bool
  | .real x, .real y => x == y
  | first, second => first = second

def tolerance : Float :=
  1 / 4503599627370496

end Expectation

def Quantity.meets : Quantity → Expectation → Bool
  | .integer value, .natural n => value = n
  | .integer value, .integer n => value = n
  | .real value, .real x => (value - x).abs < Expectation.tolerance
  | .real value, .undefined => value.isNaN
  | _, _ => false

/-- What a directive wants of a field: that there is one, and perhaps its value. -/
structure Condition where
  field : List Char
  expected : Option Expectation
  deriving DecidableEq, Repr

namespace Condition

/-- The condition that a text stands for.  From a second equals sign on it is not looked at. -/
def ofChars? (text : List Char) : Option Condition :=
  match cutAt '=' text with
  | field :: value :: _ =>
      (Expectation.ofChars? value).map fun expectation => ⟨field, some expectation⟩
  | _ => some ⟨text, none⟩

def alike (first second : Condition) : Bool :=
  first.field = second.field
    && match first.expected, second.expected with
      | some one, some other => one.alike other
      | none, none => true
      | _, _ => false

end Condition

structure Directive where
  /-- How the names of the topics begin that it is about. -/
  topic : List Char := []
  scope : Option (List Char) := none
  condition : Option Condition := none
  detail : Nat := Level.trace.detail
  deriving DecidableEq, Repr

def detailOfWord? (word : List Char) : Option Nat :=
  match Expectation.natural? word with
  | some n => if n ≤ Level.trace.detail then some n else none
  | none =>
      match String.ofList (word.map Char.toLower) with
      | "off" => some 0
      | "error" => some Level.error.detail
      | "warn" => some Level.warn.detail
      | "info" => some Level.info.detail
      | "debug" => some Level.debug.detail
      | "trace" => some Level.trace.detail
      | _ => none

namespace Directive

/-- Why a text is no directive. -/
inductive Fault where
  | unreadable
  /-- A part of it begins or ends in the middle of a character. -/
  | halved
  deriving DecidableEq, Repr

/-- What of a directive is being read, with the position where it begins. -/
inductive Stage where
  | opening
  /-- The beginning of topic names, or a level alone. -/
  | name (first : Nat)
  | scopeName (first : Nat)
  | field (first : Nat)
  | behindField
  | behindScope
  | level (first : Nat)
  deriving DecidableEq, Repr

/-- Whether a directive can begin with a character, other than a bracket. -/
def starts (c : Char) : Bool :=
  c = '-' || c = ':' || c = '_' || isAlphanumeric c

def part (text : List Char) (first last : Nat) : Except Fault (List Char) :=
  match slice? text first last with
  | some part => .ok part
  | none => .error .halved

def partFrom (text : List Char) (first : Nat) : Except Fault (List Char) :=
  match dropBytes? first text with
  | some part => .ok part
  | none => .error .halved

def withTopic
    (directive : Directive)
    (text : List Char)
    (first last : Nat) :
    Except Fault Directive :=
  (part text first last).map fun name => { directive with topic := name }

/-- The directive with a scope.  In front of a field there need not be one. -/
def withScope
    (directive : Directive)
    (text : List Char)
    (first last : Nat)
    (optional : Bool) :
    Except Fault Directive :=
  (part text first last).map fun name =>
    { directive with scope := if optional ∧ name = [] then none else some name }

def withCondition
    (directive : Directive)
    (text : List Char)
    (first last : Nat) :
    Except Fault Directive :=
  (part text first last).bind fun written =>
    match Condition.ofChars? written with
    | some condition =>
        if written = [] then .error .unreadable
        else .ok { directive with condition := some condition }
    | none => .error .unreadable

def step
    (text : List Char)
    (directive : Directive)
    (stage : Stage)
    (position : Nat)
    (c : Char) :
    Except Fault (Directive × Stage) :=
  match stage with
  | .opening =>
      if c = '[' then .ok (directive, .scopeName (position + 1))
      else if starts c then .ok (directive, .name position)
      else .error .unreadable
  | .name first =>
      if c = '=' then
        (directive.withTopic text first position).map (·, .level (position + 1))
      else if c = '[' then
        (directive.withTopic text first position).map (·, .scopeName (position + 1))
      else
        .ok (directive, stage)
  | .scopeName first =>
      if c = ']' then
        (directive.withScope text first position false).map (·, .behindScope)
      else if c = '{' then
        (directive.withScope text first position true).map (·, .field (position + 1))
      else
        .ok (directive, stage)
  | .field first =>
      if c = '}' then (directive.withCondition text first position).map (·, .behindField)
      else .ok (directive, stage)
  | .behindField => if c = ']' then .ok (directive, .behindScope) else .error .unreadable
  | .behindScope => if c = '=' then .ok (directive, .level (position + 1)) else .error .unreadable
  | .level _ => .ok (directive, stage)

/-- The directive with a level, all detail if none is written. -/
def withLevel (directive : Directive) (word : List Char) : Except Fault Directive :=
  if word = [] then .ok directive
  else
    match detailOfWord? word with
    | some detail => .ok { directive with detail := detail }
    | none => .error .unreadable

/-- The directive of a single word: a level if it can be one, and else a name. -/
def ofWord (word : List Char) : Directive :=
  match detailOfWord? word with
  | some detail => { detail := detail }
  | none => { topic := word }

def finish
    (text : List Char)
    (directive : Directive) :
    Stage → Except Fault Directive
  | .name first => (partFrom text first).map ofWord
  | .level first => (partFrom text first).bind directive.withLevel
  | .behindScope => .ok directive
  | _ => .error .unreadable

def scan
    (text : List Char)
    (directive : Directive)
    (stage : Stage)
    (position : Nat) :
    List Char → Except Fault Directive
  | [] => finish text directive stage
  | c :: rest =>
      match step text directive stage position c with
      | .error fault => .error fault
      | .ok (directive, stage) => scan text directive stage (position + c.utf8Size) rest

def read (text : List Char) : Except Fault Directive :=
  scan text {} .opening 0 (trim text)

/-- Whether two directives are about the same. -/
def alike (first second : Directive) : Bool :=
  first.topic = second.topic && first.scope = second.scope
    && match first.condition, second.condition with
      | some one, some other => one.alike other
      | none, none => true
      | _, _ => false

def expectsValue (directive : Directive) : Bool :=
  directive.condition.any fun condition => condition.expected.isSome

/-- Whether it is about what happens within scopes. -/
def isScoped (directive : Directive) : Bool :=
  directive.scope.isSome || directive.condition.isSome

/-- Whether it is about whole topics, or what tells something about a field. -/
def isGeneral (directive : Directive) : Bool :=
  directive.scope.isNone && !directive.expectsValue

def covers (directive : Directive) (topic : Topic) : Bool :=
  directive.topic.isPrefixOf topic.name.toList

/-- Whether the field that it is about, if there is one, is among some. -/
def asksFor (directive : Directive) (fields : List String) : Bool :=
  directive.condition.all fun condition => fields.contains (String.ofList condition.field)

/-- Whether it is about what happens within a scope. -/
def opens (directive : Directive) (scope : Scope) : Bool :=
  directive.isScoped && directive.covers scope.topic
    && directive.scope.all (fun name => name = scope.name.toList)
    && directive.asksFor (scope.fields.map Prod.fst)

/-- Whether a scope has the value that is expected, if one is. -/
def holdsIn (directive : Directive) (scope : Scope) : Bool :=
  directive.condition.all fun condition =>
    condition.expected.all fun expectation =>
      (scope.fields.lookup (String.ofList condition.field)).any (·.meets expectation)

def fieldName (directive : Directive) : String :=
  String.ofList ((directive.condition.map Condition.field).getD [])

/--
Whether, of two directives about one topic, the first is no closer to it than
the second.  That with the longer name is closer; of two alike in this, that
about a field, and of two about fields that with the name further on in the
alphabet.
-/
def isNoCloser (first second : Directive) : Bool :=
  if first.topic.length ≠ second.topic.length then first.topic.length < second.topic.length
  else if first.condition.isSome ≠ second.condition.isSome then second.condition.isSome
  else !(second.fieldName < first.fieldName)

/-- The closer one of two directives, of two alike the second. -/
def closer (first second : Directive) : Directive :=
  if first.isNoCloser second then second else first

end Directive
end WindsAloft
