import WindsAloft.Command
import WindsAloft.Environment.Basic

/-!
# Command lines

A command line names a command and its parameters; what it leaves open may come
from variables of the environment.  This module holds what a command line can
mean, and the reasons why it may have no meaning.
-/

namespace WindsAloft

inductive LogFormat where
  | json
  | pretty
  | compact
  deriving DecidableEq, Repr

namespace LogFormat

def word : LogFormat → String
  | json => "json"
  | pretty => "pretty"
  | compact => "compact"

def ofWord? (word : String) : Option LogFormat :=
  [json, pretty, compact].find? fun format => format.word = word

theorem ofWord?_word (format : LogFormat) : ofWord? format.word = some format := by
  cases format <;> decide

end LogFormat

/-- What holds for every command. -/
structure Options where
  /-- How much more than usual is logged. -/
  verbose : Nat
  quiet : Bool
  logFormat : LogFormat
  deriving DecidableEq, Repr

structure Invocation where
  options : Options
  command : Command
  deriving DecidableEq, Repr

/-- Why no command is performed. -/
inductive Refusal where
  | help
  | version
  /-- Nothing is said at all. -/
  | nothingSaid
  | missingCommand
  | unknownCommand
  | unknownArgument
  | missingArgument
  /-- Two arguments exclude each other, or one is given twice. -/
  | conflict
  | needlessValue
  /-- A value is missing or none of those allowed. -/
  | improperValue
  /-- A value is no number of the range allowed. -/
  | unreadableValue
  deriving DecidableEq, Repr

/-- Whether a refusal is an answer to a question rather than a complaint. -/
def Refusal.isAnswer : Refusal → Bool
  | .help => true
  | .version => true
  | _ => false

def Refusal.message : Refusal → String
  | .help => "help was asked for"
  | .version => "the version was asked for"
  | .nothingSaid => "nothing to do"
  | .missingCommand => "a command is missing"
  | .unknownCommand => "there is no such command"
  | .unknownArgument => "an argument is not known"
  | .missingArgument => "an argument is missing"
  | .conflict => "arguments exclude each other"
  | .needlessValue => "an argument takes no value"
  | .improperValue => "a value is missing or not allowed"
  | .unreadableValue => "a value is out of range or no number"

end WindsAloft
