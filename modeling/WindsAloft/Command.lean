import WindsAloft.Report
import WindsAloft.Trace
import WindsAloft.Verdict

/-!
# Commands

A command replays a trace, checks a settings file or shows the settings that
apply.  Performing one reads files and yields plain data: the lines to print,
the signals given on the way, and how it ended.
-/

namespace WindsAloft

inductive Command where
  /-- Replay a trace.  No endpoint for metrics is opened, whatever the port. -/
  | replay (trace : String) (settings : Option String) (json : Bool) (metricsPort : Nat)
  | validate (settings : String) (json : Bool)
  | info (settings : Option String) (json : Bool)
  deriving DecidableEq, Repr

/-- Why a command fails: an account, and what lies below it from the outside in. -/
structure Failure where
  account : String
  below : List String
  deriving DecidableEq, Repr

def Failure.chain (failure : Failure) : List String :=
  failure.account :: failure.below

inductive Ending where
  | done
  | failed (failure : Failure)
  /-- No block of memory can be as large as one that is needed. -/
  | exhausted
  /-- A block of memory was requested that there is not, and the program was ended for it. -/
  | aborted
  deriving DecidableEq, Repr

structure Proceedings where
  lines : List String
  /-- The lines at the end, which tell how long it took. -/
  closing : Duration → List String := fun _ => []
  signals : List Signal
  ending : Ending

namespace Proceedings

def allLines
    (proceedings : Proceedings)
    (elapsed : Duration) :
    List String :=
  proceedings.lines ++ proceedings.closing elapsed

def failing
    (signals : List Signal)
    (failure : Failure) :
    Proceedings where
  lines := []
  signals := signals
  ending := .failed failure

end Proceedings

inductive SettingsFault where
  | missing (path : String)
  | load (fault : LoadFault)

def SettingsFault.failure : SettingsFault → Failure
  | .missing path => ⟨"Configuration file not found: " ++ path, []⟩
  | .load fault => ⟨fault.describe, fault.source?.toList⟩

inductive ReplayFault where
  | trace (fault : Trace.Fault)
  | file (fault : FileFault)

def FileFault.failure (fault : FileFault) : Failure :=
  ⟨"io error: " ++ fault.message, [fault.message]⟩

def ReplayFault.failure : ReplayFault → Failure
  | .trace fault => ⟨fault.describe, []⟩
  | .file fault => fault.failure

/-- A failure, seen from a wider task that it makes impossible. -/
def Failure.within
    (account : String)
    (failure : Failure) :
    Failure :=
  ⟨account, failure.chain⟩

namespace Command

def loadedNote
    (path : String)
    (settings : Settings) :
    Note where
  level := .debug
  topic := .loading
  message := "Wind configuration loaded"
  fields := [("path", .text path), ("capacity", .count settings.capacity.toNat)]

/-- The settings at a path, or the usual ones where no path is given. -/
def settingsAt (files : Files) : Option String → Except SettingsFault Settings
  | none => .ok .classic
  | some path =>
      if files.exist path then (Settings.ofFile files path).mapError .load
      else .error (.missing path)

def settingsSignals
    (path : Option String)
    (found : Except SettingsFault Settings) :
    List Signal :=
  match path, found with
  | none, _ =>
      [ .note
          { level := .info
            topic := .commands
            message := "No configuration given, using defaults" } ]
  | some path, .ok settings => [.note (loadedNote path settings)]
  | some _, .error _ => []

def sourceName (path : Option String) : String :=
  path.getD "defaults"

def performInfo
    (files : Files)
    (path : Option String)
    (json : Bool) :
    Proceedings :=
  let source := sourceName path
  let found := settingsAt files path
  let signals :=
    .note
        { level := .info
          topic := .showingSettings
          message := "Loading configuration info"
          fields := [("config", .text source)] }
      :: settingsSignals path found
  match found with
  | .error fault =>
      .failing signals (fault.failure.within ("Failed to load config from " ++ source))
  | .ok settings =>
      { lines :=
          if json then [(settings.overviewJson source).pretty] else settings.overview source
        signals := signals
        ending := .done }

def performValidate
    (files : Files)
    (path : String)
    (json : Bool) :
    Proceedings :=
  let verdict := Verdict.ofFile files path
  { lines := if json then [(verdict.toJson path).pretty] else verdict.lines path
    signals :=
      .note
          { level := .info
            topic := .checkingSettings
            message := "Validating configuration"
            fields := [("config", .text path)] }
        :: verdict.settings?.toList.map fun settings => .note (loadedNote path settings)
    ending :=
      match verdict with
      | .valid _ => .done
      | .invalid _ => .failed ⟨"Configuration validation failed", []⟩ }

/--
The items of the trace at a path.  A directory can be opened but not read, so
its first item is already a fault.
-/
def traceAt
    (files : Files)
    (path : String) :
    Except FileFault (List (Except ReplayFault Record)) :=
  match files.bytes path with
  | .ok bytes => .ok ((Trace.read bytes).map fun item => item.mapError .trace)
  | .error .isDirectory => .ok [.error (.file .isDirectory)]
  | .error fault => .error fault

def replayNote
    (trace : String)
    (settings : Settings) :
    Note where
  level := .info
  topic := .replaying
  message := "Starting replay"
  fields :=
    [ ("trace", .text trace)
    , ("capacity", .count settings.capacity.toNat)
    , ("altitude_range", .real settings.kernel.altitudeRange)
    , ("time_range", .real settings.kernel.timeRange) ]

/-- What a finished or stopped run over a trace leads to. -/
def proceedingsOfRun
    (trace : String)
    (json : Bool)
    (run : Replay.Run ReplayFault) :
    Proceedings where
  lines := run.outcomes.map (Outcome.line json)
  closing :=
    if json || run.stopped.isSome then fun _ => [] else run.final.summary
  signals := run.signals
  ending :=
    match run.stopped with
    | none => .done
    | some fault => .failed (fault.failure.within ("Replay of " ++ trace ++ " failed"))

def replayTrace
    (files : Files)
    (memory : Memory)
    (trace : String)
    (settings : Settings)
    (json : Bool) :
    Proceedings :=
  match traceAt files trace with
  | .error fault => .failing [] fault.failure
  | .ok items =>
      match Replay.start? settings with
      | none => { lines := [], signals := [], ending := .exhausted }
      | some start =>
          if Store.Obtainable memory settings.capacity.toNat then
            proceedingsOfRun trace json (start.run items)
          else
            { lines := [], signals := [], ending := .aborted }

def performReplay
    (files : Files)
    (memory : Memory)
    (trace : String)
    (path : Option String)
    (json : Bool) :
    Proceedings :=
  let found := settingsAt files path
  let signals := settingsSignals path found
  match found with
  | .error fault => .failing signals fault.failure
  | .ok settings =>
      if files.exist trace then
        let proceedings := replayTrace files memory trace settings json
        { proceedings with
          signals := signals ++ .note (replayNote trace settings) :: proceedings.signals }
      else
        .failing signals ⟨"Trace file not found: " ++ trace, []⟩

def perform
    (files : Files)
    (command : Command)
    (memory : Memory := .addressable) :
    Proceedings :=
  match command with
  | replay trace settings json _ => performReplay files memory trace settings json
  | validate settings json => performValidate files settings json
  | info settings json => performInfo files settings json

end Command
end WindsAloft
