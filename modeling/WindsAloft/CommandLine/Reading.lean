import WindsAloft.CommandLine.Given

/-!
# Reading command lines

A command line is read from left to right.  Parameters may stand before and
behind the name of the command; a parameter that takes a value takes it from
behind an equals sign, from the rest of its word or from the next word.  A
value is checked when the next parameter comes or its part ends, so of two
faults the one that is checked first is told.
-/

namespace WindsAloft

structure Progress where
  given : Given := {}
  /-- The parameter that waits for its value or, once that is there, for its check. -/
  pending : Option (Parameter × Option String) := none

namespace Progress

def awaiting? (progress : Progress) : Option Parameter :=
  match progress.pending with
  | some (parameter, none) => some parameter
  | _ => none

/-- Checks what is pending. -/
def settle (progress : Progress) : Except Refusal Given :=
  match progress.pending with
  | none => .ok progress.given
  | some (parameter, value) => progress.given.take .typed parameter value

def take
    (progress : Progress)
    (parameter : Parameter)
    (value : Option String) :
    Except Refusal Progress := do
  let given ← progress.settle
  return { given := ← given.take .typed parameter value }

def takeValued
    (progress : Progress)
    (parameter : Parameter) :
    Option String → Except Refusal Progress
  | some value => progress.take parameter (some value)
  | none => do
      return { given := ← progress.settle, pending := some (parameter, none) }

def takeWord
    (place : Place)
    (progress : Progress)
    (word : String)
    (value : Option String) :
    Except Refusal Progress :=
  match place.byWord? word with
  | none => .error .unknownArgument
  | some parameter =>
      if parameter.takesValue then progress.takeValued parameter value
      else
        match value with
        | none => progress.take parameter none
        | some _ => .error .needlessValue

/-- The value in the rest of a word, from which an equals sign in front is dropped. -/
def attached? : List Char → Option String
  | [] => none
  | '=' :: value => some (String.ofList value)
  | value => some (String.ofList value)

/-- Takes in what follows one dash: letters up to one that takes a value. -/
def takeLetters
    (place : Place)
    (progress : Progress) :
    List Char → Except Refusal Progress
  | [] => .ok progress
  | letter :: letters =>
      match place.byLetter? letter with
      | none => .error .unknownArgument
      | some parameter =>
          if parameter.takesValue then progress.takeValued parameter (attached? letters)
          else
            match progress.take parameter none with
            | .error refusal => .error refusal
            | .ok progress => takeLetters place progress letters

end Progress

inductive Shape where
  /-- Two dashes alone. -/
  | dashes
  /-- Two dashes and a word, perhaps with a value behind an equals sign. -/
  | word (word : String) (value : Option String)
  | letters (letters : List Char)
  | plain

def cutAtEquals (text : List Char) : String × Option String :=
  (String.ofList (text.takeWhile fun c => c ≠ '='),
    match text.dropWhile fun c => c ≠ '=' with
    | [] => none
    | _ :: value => some (String.ofList value))

/-- What a word looks like.  A dash alone is plain. -/
def Shape.ofWord (word : String) : Shape :=
  match word.toList with
  | ['-', '-'] => .dashes
  | '-' :: '-' :: text => let (word, value) := cutAtEquals text; .word word value
  | ['-'] => .plain
  | '-' :: text => .letters text
  | _ => .plain

/-- Where reading goes on after the end of a part. -/
inductive Branch where
  | none
  | command (place : Place) (words : List String)
  | help (words : List String)

def Place.branch?
    (place : Place)
    (word : String)
    (words : List String) :
    Option Branch :=
  match place with
  | .start =>
      if word = "help" then some (.help words)
      else (ofCommandName? word).map fun place => .command place words
  | _ => Option.none

/-- The refusal of a word that nothing waits for. -/
def Place.refuse : Place → Refusal
  | .start => .unknownCommand
  | _ => .unknownArgument

/-- The refusal of a word behind two dashes: a command does not go there. -/
def Place.refuseBehindDashes
    (place : Place)
    (word : String) :
    Refusal :=
  if (place.branch? word []).isSome then .unknownArgument else place.refuse

/-- Reads one part of a command line, up to the name of a command if one may come. -/
def Progress.read
    (place : Place)
    (progress : Progress) :
    List String → Except Refusal (Progress × Branch)
  | [] => .ok (progress, .none)
  | word :: words =>
      let branch := if progress.awaiting?.isSome then none else place.branch? word words
      match branch with
      | some branch => .ok (progress, branch)
      | none =>
          match Shape.ofWord word with
          | .dashes =>
              match words with
              | [] => .ok (progress, .none)
              | stray :: _ => .error (place.refuseBehindDashes stray)
          | .word name value =>
              match progress.takeWord place name value with
              | .error refusal => .error refusal
              | .ok progress => progress.read place words
          | .letters letters =>
              match progress.takeLetters place letters with
              | .error refusal => .error refusal
              | .ok progress => progress.read place words
          | .plain =>
              match progress.awaiting? with
              | none => .error place.refuse
              | some parameter =>
                  Progress.read place { progress with pending := some (parameter, some word) } words

/-- The values of a part that has been read, with those of the environment. -/
def Progress.finish
    (environment : Environment)
    (place : Place)
    (progress : Progress) :
    Except Refusal Given := do
  let given ← progress.settle
  given.takeVariables environment place.parameters

/-- The settings file that is checked unless another one is named. -/
def usualSettingsPath : String := "wind.toml"

def Place.command
    (place : Place)
    (given : Given) :
    Except Refusal Command :=
  let settings := given.settings.map Sourced.value
  match place with
  | .start => .error .missingCommand
  | .replay =>
      match given.trace with
      | none => .error .missingArgument
      | some trace =>
          .ok (.replay trace.value settings given.json
            ((given.metricsPort.map Sourced.value).getD 0))
  | .validate => .ok (.validate (settings.getD usualSettingsPath) given.json)
  | .info => .ok (.info settings given.json)

def readCommand
    (environment : Environment)
    (place : Place)
    (words : List String) :
    Except Refusal (Given × Command) := do
  let (progress, _) ← Progress.read place {} words
  let given ← progress.finish environment place
  if given.conflicts then throw .conflict
  return (given, ← place.command given)

/-- The refusal that a call for help is: there is help on everything and on each command. -/
def refuseHelp : List String → Refusal
  | [] => .help
  | [topic] =>
      if topic = "help" ∨ (Place.ofCommandName? topic).isSome then .help else .unknownCommand
  | _ => .unknownCommand

namespace Invocation

def ofArguments
    (environment : Environment)
    (arguments : List String) :
    Except Refusal Invocation := do
  let (progress, branch) ← Progress.read .start {} arguments
  match branch with
  | .help words => throw (refuseHelp words)
  | .none =>
      let given ← progress.finish environment .start
      throw (if given.isSaid then .missingCommand else .nothingSaid)
  | .command place words =>
      let (inner, command) ← readCommand environment place words
      let outer ← progress.finish environment .start
      if outer.conflicts then throw .conflict
      return { options := outer.options inner, command := command }

end Invocation
end WindsAloft
