import WindsAloft.CommandLine.Basic
import WindsAloft.Decimal.Numeral

/-!
# Parameters

The parameters of a command line, how each is written, which of them belong to
which command, and how their values are read.
-/

namespace WindsAloft

/-- What a command line can say besides the command. -/
inductive Parameter where
  | verbose
  | quiet
  | logFormat
  | trace
  | settings
  | json
  | metricsPort
  | help
  | version
  deriving DecidableEq, Repr

namespace Parameter

def word : Parameter → String
  | verbose => "verbose"
  | quiet => "quiet"
  | logFormat => "log-format"
  | trace => "trace"
  | settings => "config"
  | json => "json"
  | metricsPort => "metrics-port"
  | help => "help"
  | version => "version"

def letter? : Parameter → Option Char
  | verbose => some 'v'
  | quiet => some 'q'
  | trace => some 't'
  | settings => some 'c'
  | help => some 'h'
  | version => some 'V'
  | logFormat => none
  | json => none
  | metricsPort => none

/-- The variable that gives a parameter its value where the command line does not. -/
def environmentName? : Parameter → Option String
  | verbose => some "WIND_VERBOSE"
  | logFormat => some "WIND_LOG_FORMAT"
  | trace => some "WIND_TRACE"
  | settings => some "WIND_CONFIG"
  | metricsPort => some "WIND_METRICS_PORT"
  | quiet => none
  | json => none
  | help => none
  | version => none

def takesValue : Parameter → Bool
  | logFormat => true
  | trace => true
  | settings => true
  | metricsPort => true
  | verbose => false
  | quiet => false
  | json => false
  | help => false
  | version => false

def everywhere : List Parameter :=
  [verbose, quiet, logFormat, help]

end Parameter

/-- The parts of a command line: before the name of the command, and behind each name. -/
inductive Place where
  | start
  | replay
  | validate
  | info
  deriving DecidableEq, Repr

namespace Place

/-- The parameters that may stand in one part only, in the order in which variables count. -/
def own : Place → List Parameter
  | start => [.version]
  | replay => [.trace, .settings, .json, .metricsPort]
  | validate => [.settings, .json]
  | info => [.settings, .json]

def parameters (place : Place) : List Parameter :=
  place.own ++ Parameter.everywhere

def byWord?
    (place : Place)
    (word : String) :
    Option Parameter :=
  place.parameters.find? fun parameter => parameter.word = word

def byLetter?
    (place : Place)
    (letter : Char) :
    Option Parameter :=
  place.parameters.find? fun parameter => parameter.letter? = some letter

def ofCommandName? : String → Option Place
  | "replay" => some replay
  | "validate" => some validate
  | "info" => some info
  | _ => none

end Place

def readPath (value : String) : Except Refusal String :=
  if value = "" then .error .improperValue else .ok value

def readLogFormat (value : String) : Except Refusal LogFormat :=
  match LogFormat.ofWord? value with
  | none => .error .improperValue
  | some format => .ok format

/-- A number that a parameter gives: digits, perhaps behind a sign, up to some limit. -/
def readNumber
    (limit : Nat)
    (value : String) :
    Except Refusal Nat :=
  let (negative, digits) := Numeral.splitSign value.toList
  let n := digitsValue digits
  if digits ≠ [] ∧ digits.all Char.isDigit ∧ n ≤ limit ∧ (negative → n = 0) then .ok n
  else .error .unreadableValue

/-- The greatest count of a parameter that may be repeated. -/
def greatestCount : Nat := 255

def greatestPort : Nat := 65535

end WindsAloft
