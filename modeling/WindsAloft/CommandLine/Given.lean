import WindsAloft.CommandLine.Parameter

/-!
# What one part of a command line gives

The values that one part of a command line gives, each with where it comes
from.  Words on the command line come before variables of the environment, and
both before the usual values.
-/

namespace WindsAloft

inductive Origin where
  | environment
  | typed
  deriving DecidableEq, Repr

structure Sourced (α : Type) where
  origin : Origin
  value : α
  deriving DecidableEq, Repr

/-- The values that one part of a command line gives. -/
structure Given where
  verbose : Option (Sourced Nat) := none
  quiet : Bool := false
  logFormat : Option (Sourced LogFormat) := none
  trace : Option (Sourced String) := none
  settings : Option (Sourced String) := none
  json : Bool := false
  metricsPort : Option (Sourced Nat) := none
  deriving DecidableEq, Repr

namespace Given

/-- Reads a value, which must not be there yet. -/
def once
    {α : Type}
    (present : Option (Sourced α))
    (origin : Origin)
    (read : String → Except Refusal α)
    (value : Option String) :
    Except Refusal (Option (Sourced α)) :=
  match value, present with
  | none, _ => .error .improperValue
  | some _, some _ => .error .conflict
  | some value, none => (read value).map fun a => some ⟨origin, a⟩

def say (said : Bool) : Except Refusal Bool :=
  if said then .error .conflict else .ok true

def count
    (present : Option (Sourced Nat))
    (origin : Origin) :
    Option String → Except Refusal (Option (Sourced Nat))
  | none =>
      let before := (present.map Sourced.value).getD 0
      .ok (some ⟨origin, min (before + 1) greatestCount⟩)
  | some value => (readNumber greatestCount value).map fun n => some ⟨origin, n⟩

def take
    (given : Given)
    (origin : Origin)
    (parameter : Parameter)
    (value : Option String) :
    Except Refusal Given :=
  match parameter with
  | .help => .error .help
  | .version => .error .version
  | .verbose =>
      (count given.verbose origin value).map fun x => { given with verbose := x }
  | .quiet => (say given.quiet).map fun x => { given with quiet := x }
  | .json => (say given.json).map fun x => { given with json := x }
  | .logFormat =>
      (once given.logFormat origin readLogFormat value).map fun x =>
        { given with logFormat := x }
  | .trace =>
      (once given.trace origin readPath value).map fun x => { given with trace := x }
  | .settings =>
      (once given.settings origin readPath value).map fun x => { given with settings := x }
  | .metricsPort =>
      (once given.metricsPort origin (readNumber greatestPort) value).map fun x =>
        { given with metricsPort := x }

def has (given : Given) : Parameter → Bool
  | .verbose => given.verbose.isSome
  | .quiet => given.quiet
  | .logFormat => given.logFormat.isSome
  | .trace => given.trace.isSome
  | .settings => given.settings.isSome
  | .json => given.json
  | .metricsPort => given.metricsPort.isSome
  | .help => false
  | .version => false

/-- Takes in the variable of a parameter, unless the parameter has its value already. -/
def takeVariable
    (environment : Environment)
    (given : Given)
    (parameter : Parameter) :
    Except Refusal Given :=
  if given.has parameter then .ok given
  else
    match parameter.environmentName?.bind environment with
    | none => .ok given
    | some value => given.take .environment parameter (some value)

def takeVariables
    (environment : Environment)
    (parameters : List Parameter)
    (given : Given) :
    Except Refusal Given :=
  parameters.foldlM (takeVariable environment) given

def isSaid (given : Given) : Bool :=
  Parameter.everywhere.any given.has

/-- Whether the wish for silence meets the wish for detail. -/
def conflicts (given : Given) : Bool :=
  given.quiet && given.verbose.isSome

/-- The value that prevails: the one typed, and of two alike the inner one. -/
def prevailing
    {α : Type} :
    Option (Sourced α) → Option (Sourced α) → Option (Sourced α)
  | outer, none => outer
  | none, inner => inner
  | some outer, some inner =>
      if outer.origin = .typed ∧ inner.origin = .environment then some outer else some inner

def options (outer inner : Given) : Options where
  verbose := ((prevailing outer.verbose inner.verbose).map Sourced.value).getD 0
  quiet := outer.quiet || inner.quiet
  logFormat := ((prevailing outer.logFormat inner.logFormat).map Sourced.value).getD .pretty

end Given
end WindsAloft
