import WindsAloft.CommandLine.Reading
import WindsAloft.Environment.Assignment
import WindsAloft.Log.Entry

/-!
# Sessions

A session is one run of the program: it reads its command line, performs the
command and keeps a log.  The environment comes from outside and from a file in
the directory where the session takes place.
-/

namespace WindsAloft

def programVersion : String := "0.1.0"

structure Session where
  lines : List String := []
  /-- The printed lines that tell how long it took. -/
  closing : Duration → List String := fun _ => []
  logFormat : LogFormat := .pretty
  log : List LogEntry := []
  complaint : List String := []
  /-- The status that the program hands back, if it comes to that. -/
  status : Option Nat

namespace Failure

/-- A cause with a mark in front; further lines of it are indented as far. -/
def indented
    (mark : String)
    (cause : String) :
    List String :=
  let pieces := (cutAt '\n' cause.toList).map String.ofList
  match pieces with
  | [] => []
  | piece :: pieces =>
      (mark ++ piece)
        :: pieces.map fun piece => String.ofList (List.replicate mark.length ' ') ++ piece

def numbered : Nat → List String → List String
  | _, [] => []
  | n, cause :: causes =>
      indented ("    " ++ toString n ++ ": ") cause ++ numbered (n + 1) causes

def complaint (failure : Failure) : List String :=
  (cutAt '\n' ("Error: " ++ failure.account).toList).map String.ofList
    ++ match failure.below with
      | [] => []
      | [cause] => "" :: "Caused by:" :: indented "    " cause
      | causes => "" :: "Caused by:" :: numbered 0 causes

end Failure

def usageLines : List String :=
  [ "Usage: wind-estimator [OPTIONS] <COMMAND>"
  , ""
  , "Commands:"
  , "  replay    Replay a trace of measurements and queries"
  , "  validate  Check a configuration file"
  , "  info      Show the configuration that applies"
  , "  help      Tell about the use of a command" ]

namespace Session

def ofRefusal : Refusal → Session
  | .help => { lines := usageLines, status := some 0 }
  | .version => { lines := ["wind-estimator " ++ programVersion], status := some 0 }
  | .nothingSaid => { complaint := usageLines, status := some 2 }
  | refusal => { complaint := ["error: " ++ refusal.message], status := some 2 }

def startNote : Note where
  level := .info
  topic := .program
  message := "Wind estimator CLI starting"
  fields := [("version", .text programVersion)]

def failureNote (failure : Failure) : Note where
  level := .error
  topic := .program
  message := "Command failed"
  fields := [("error", .text failure.account)]

def endNotes : Ending → List Note
  | .failed failure => [failureNote failure]
  | .done => []
  | .exhausted => []
  | .aborted => []

/-- The status of a program that breaks off. -/
def brokenOff : Nat := 101

def statusOf : Ending → Option Nat
  | .done => some 0
  | .failed _ => some 1
  | .exhausted => some brokenOff
  | .aborted => none

def complaintOf : Ending → List String
  | .failed failure => failure.complaint
  | .done => []
  | .exhausted => []
  | .aborted => []

/-- The session in which a command was performed, with a log of what a filter keeps. -/
def ofProceedings
    (format : LogFormat)
    (filter : Filter)
    (proceedings : Proceedings) :
    Session where
  lines := proceedings.lines
  closing := proceedings.closing
  logFormat := format
  log :=
    (startNote :: Signal.notes proceedings.signals ++ endNotes proceedings.ending).filterMap
      filter.entry?
  complaint := complaintOf proceedings.ending
  status := statusOf proceedings.ending

/-- The file with further variables of the environment. -/
def environmentPath : String := ".env"

/-- The environment of a session: the one from outside, and what the file adds to it. -/
def environmentOf?
    (outside : Environment)
    (files : Files) :
    Option Environment :=
  match files.bytes environmentPath with
  | .error _ => some outside
  | .ok bytes => outside.withFile? bytes

def broken : Session where
  status := some brokenOff

def runIn
    (environment : Environment)
    (files : Files)
    (memory : Memory)
    (arguments : List String) :
    Session :=
  match Invocation.ofArguments environment arguments with
  | .error refusal => ofRefusal refusal
  | .ok invocation =>
      match invocation.options.filter? environment with
      | none => broken
      | some filter =>
          ofProceedings invocation.options.logFormat filter
            (invocation.command.perform files memory)

def run
    (outside : Environment)
    (files : Files)
    (arguments : List String)
    (memory : Memory := .addressable) :
    Session :=
  match environmentOf? outside files with
  | none => broken
  | some environment => runIn environment files memory arguments

end Session
end WindsAloft
