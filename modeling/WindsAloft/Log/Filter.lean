import WindsAloft.CommandLine.Basic
import WindsAloft.Log.Directive

/-!
# The filter of the log

Of the notes of a run the log keeps those that a filter lets through.  A filter
is a list of directives in a variable of the environment.  The closest directive
to a topic tells how much is kept of it; besides, within a scope that directives
are about, the most detailed of those that hold in it counts.
-/

namespace WindsAloft

/-- What decides on the notes that the log keeps. -/
structure Filter where
  directives : List Directive
  deriving DecidableEq, Repr

namespace Filter

def upTo (detail : Nat) : Filter where
  directives := [{ detail := detail }]

/-- The filter that a text stands for.  One without directives keeps errors. -/
def read (text : String) : Except Directive.Fault Filter :=
  let pieces := (cutAt ',' text.toList).filter fun piece => piece ≠ []
  (pieces.mapM Directive.read).map fun directives =>
    if directives.isEmpty then upTo Level.error.detail else ⟨directives⟩

/-- Some directives without those that a later one is like. -/
def lastOfAlike : List Directive → List Directive
  | [] => []
  | directive :: directives =>
      if directives.any directive.alike then lastOfAlike directives
      else directive :: lastOfAlike directives

def effective (filter : Filter) : List Directive :=
  lastOfAlike filter.directives

/-- The detail that is kept of a topic by the closest of some directives. -/
def detailBy (directives : List Directive) : Nat :=
  (directives.foldl Directive.closer { detail := 0 }).detail

def about (filter : Filter) (topic : Topic) : List Directive :=
  filter.effective.filter fun directive => directive.isGeneral && directive.covers topic

def messageField : String := "message"

def detailOf (filter : Filter) (note : Note) : Nat :=
  detailBy ((filter.about note.topic).filter fun directive =>
    directive.asksFor (messageField :: note.fields.map Prod.fst))

/-- The most detail that is kept of anything; all of it if a value may decide. -/
def mostDetail (filter : Filter) : Nat :=
  if filter.directives.any Directive.expectsValue then Level.trace.detail
  else (filter.directives.map Directive.detail).foldl max 0

/--
The detail that is kept of what happens within a scope, if a directive is about
it.  A scope with more detail than is kept of anything is not even entered.
-/
def detailWithin? (filter : Filter) (scope : Scope) : Option Nat :=
  let opening := filter.effective.filter fun directive => directive.opens scope
  if scope.level.detail ≤ filter.mostDetail ∧ opening ≠ [] then
    some (((opening.filter fun directive => directive.holdsIn scope).map Directive.detail).foldl
      max 0)
  else
    none

def names (filter : Filter) (scope : Scope) : Bool :=
  scope.level.detail ≤ detailBy (filter.about scope.topic) || (filter.detailWithin? scope).isSome

def keeps (filter : Filter) (note : Note) : Bool :=
  note.level.detail ≤ filter.detailOf note
    || (note.scope.bind filter.detailWithin?).any fun detail => note.level.detail ≤ detail

end Filter

namespace Options

/-- The detail that is kept where no filter says otherwise. -/
def usualDetail (options : Options) : Nat :=
  match options.verbose with
  | 0 => Level.info.detail
  | 1 => Level.debug.detail
  | _ => Level.trace.detail

def filterVariable : String := "RUST_LOG"

/--
The filter of the log.  One that cannot be read is as good as none, but there is
nothing to go on with if reading it breaks off.
-/
def filter?
    (options : Options)
    (environment : Environment) :
    Option Filter :=
  if options.quiet then some (.upTo Level.error.detail)
  else
    match (environment filterVariable).map Filter.read with
    | some (.ok filter) => some filter
    | some (.error .halved) => none
    | _ => some (.upTo options.usualDetail)

end Options
end WindsAloft
