/-!
# Signals

What a run lets its surroundings know besides its results: notes for a log and
updates of named metrics.  Signals are plain data.  The functions that change
state do not emit them; a signal is worked out from what such a function
returned.
-/

namespace WindsAloft

/-- How much a note matters, from most to least. -/
inductive Level where
  | error
  | warn
  | info
  | debug
  | trace
  deriving DecidableEq, Repr

/-- The rank of a level: the more detail, the higher. -/
def Level.detail : Level → Nat
  | .error => 1
  | .warn => 2
  | .info => 3
  | .debug => 4
  | .trace => 5

def Level.name : Level → String
  | .error => "ERROR"
  | .warn => "WARN"
  | .info => "INFO"
  | .debug => "DEBUG"
  | .trace => "TRACE"

/--
What a note is about.  Topics have names of several pieces, and the name of a
wider topic is the beginning of the names of those within it.
-/
inductive Topic where
  | program
  | commands
  | showingSettings
  | checkingSettings
  | replaying
  | run
  | kernel
  | history
  | store
  | loading
  deriving DecidableEq, Repr

def Topic.name : Topic → String
  | .program => "wind_estimator"
  | .commands => "wind_estimator::commands"
  | .showingSettings => "wind_estimator::commands::info"
  | .checkingSettings => "wind_estimator::commands::validate"
  | .replaying => "wind_estimator::commands::replay"
  | .run => "wind_estimator::pipeline::runner"
  | .kernel => "wind_engine::estimator"
  | .history => "wind_engine::list"
  | .store => "wind_engine::store"
  | .loading => "config_loader"

inductive Datum where
  | count (n : Nat)
  | integer (n : Int)
  | real (x : Float)
  | flag (b : Bool)
  | text (s : String)
  deriving DecidableEq, Repr

/-- A number that a scope tells about. -/
inductive Quantity where
  | integer (n : Int)
  | real (x : Float)
  deriving DecidableEq, Repr

/-- A named stretch of work that encloses notes, visible from its own level on. -/
structure Scope where
  level : Level
  topic : Topic
  name : String
  fields : List (String × Quantity)
  deriving DecidableEq, Repr

structure Note where
  level : Level
  topic : Topic
  message : String
  fields : List (String × Datum) := []
  scope : Option Scope := none
  deriving DecidableEq, Repr

/-- The name of a metric, with a label where one name covers several series. -/
structure Series where
  name : String
  label : Option (String × String) := none
  deriving DecidableEq, Repr

inductive Update where
  /-- One more. -/
  | increment (series : Series)
  /-- The value from now on. -/
  | set (series : Series) (value : Float)
  /-- One more value of a distribution. -/
  | observe (series : Series) (value : Float)
  deriving DecidableEq, Repr

inductive Signal where
  | note (entry : Note)
  | update (change : Update)
  deriving DecidableEq, Repr

namespace Signal

def notes (signals : List Signal) : List Note :=
  signals.filterMap fun
    | .note entry => some entry
    | .update _ => none

def updates (signals : List Signal) : List Update :=
  signals.filterMap fun
    | .note _ => none
    | .update change => some change

end Signal

namespace Update

/-- How often a counter went up. -/
def total (series : Series) (updates : List Update) : Nat :=
  updates.countP fun
    | .increment other => other == series
    | _ => false

/-- The value a gauge was set to last. -/
def last? (series : Series) (updates : List Update) : Option Float :=
  (updates.filterMap fun
    | .set other value => if other = series then some value else none
    | _ => none).getLast?

/-- The values of a distribution, in order. -/
def observed (series : Series) (updates : List Update) : List Float :=
  updates.filterMap fun
    | .observe other value => if other = series then some value else none
    | _ => none

/-- The counters that went up, each once. -/
def counters (updates : List Update) : List Series :=
  (updates.filterMap fun
    | .increment series => some series
    | _ => none).eraseDups

def gauges (updates : List Update) : List Series :=
  (updates.filterMap fun
    | .set series _ => some series
    | _ => none).eraseDups

def distributions (updates : List Update) : List Series :=
  (updates.filterMap fun
    | .observe series _ => some series
    | _ => none).eraseDups

end Update

/-- A series as it is written in a report: the name, then the label in braces. -/
def Series.display (series : Series) : String :=
  match series.label with
  | none => series.name
  | some (key, value) => series.name ++ "\x7b" ++ key ++ "=" ++ value ++ "\x7d"

end WindsAloft
