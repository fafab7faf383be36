import WindsAloft.Codec.Settings
import WindsAloft.Files
import WindsAloft.Toml.Table

/-!
# Loading settings

Settings come as JSON or as TOML; for files the extension tells which.  Loading
reads the document and then checks the settings, so that only valid ones are
ever handed out.
-/

namespace WindsAloft

inductive Format where
  | toml
  | json
  deriving DecidableEq, Repr

/-- The format that an extension names, in upper or lower case. -/
def Format.ofExtension? (extension : String) : Option Format :=
  let name := String.ofList (extension.toList.map Char.toLower)
  if name = "toml" then some .toml
  else if name = "json" then some .json
  else none

inductive LoadFault where
  | noExtension
  | unsupported (extension : String)
  | file (fault : FileFault)
  | json (text : List Char) (fault : Fault)
  | toml (text : List Char) (fault : Fault)
  | notToml (text : List Char) (flaw : Toml.Flaw)
  | invalid (complaint : Complaint)

def lineOf (text : List Char) : Nat → List Char
  | 0 => text.takeWhile fun c => c ≠ '\n'
  | n + 1 => lineOf ((text.dropWhile fun c => c ≠ '\n').drop 1) n

/-- The number of characters within the first bytes of a text. -/
def charsWithin (bytes : Nat) : List Char → Nat
  | [] => 0
  | c :: text => if bytes < c.utf8Size then 0 else charsWithin (bytes - c.utf8Size) text + 1

/-- A message about a stretch of a TOML text, under an excerpt with the stretch marked. -/
def excerpt (text : List Char) (span : Span) (message : String) : String :=
  let (line, bytes) := lineAndColumn span.start 1 0 0 text
  let content := lineOf text (line - 1)
  let column := charsWithin bytes content
  let gutter := List.replicate ((digitChars line).length + 1) ' '
  let width := max 1 (min (span.stop - span.start) (Utf8.size content - column))
  "TOML parse error at line " ++ toString line ++ ", column " ++ toString (column + 1) ++ "\n"
    ++ String.ofList gutter ++ "|\n"
    ++ toString line ++ " | " ++ String.ofList content ++ "\n"
    ++ String.ofList gutter ++ "|"
    ++ String.ofList (List.replicate (column + 1) ' ' ++ List.replicate width '^') ++ "\n"
    ++ message ++ "\n"

namespace LoadFault

/-- What the reader of the format says, if it comes to that. -/
def source? : LoadFault → Option String
  | noExtension => none
  | unsupported _ => none
  | file fault => some fault.message
  | json text fault => some (fault.describe Json.wording text)
  | toml text fault =>
      some (match fault.span with
        | some span => excerpt text span (fault.message Toml.wording)
        | none => fault.message Toml.wording ++ "\n")
  | notToml text flaw => some (excerpt text (Span.point flaw.offset) flaw.message)
  | invalid _ => none

def describe (fault : LoadFault) : String :=
  let parse := "config parse error: "
  let source := fault.source?.getD ""
  match fault with
  | noExtension => parse ++ "cannot determine file format from extension"
  | unsupported extension => parse ++ "unsupported config format: ." ++ extension
  | file _ => "io error: " ++ source
  | json _ _ => parse ++ "JSON parse error: " ++ source
  | toml _ _ => parse ++ "TOML parse error: " ++ source
  | notToml _ _ => parse ++ "TOML parse error: " ++ source
  | invalid complaint => complaint.describe

def chain (fault : LoadFault) : List String :=
  fault.describe :: fault.source?.toList

end LoadFault

namespace Settings

/-- Reads settings from a JSON text, its numbers being read in the given way. -/
def ofJson (reading : Numeral.Reading) (text : List Char) : Except Fault Settings :=
  (Json.parse reading text).read (layout Version.readJson).read

def ofTomlSource (source : Source) : Except Fault Settings :=
  source.read (layout Version.readToml).read

def parseWith (reading : Numeral.Reading) (format : Format) (text : List Char) :
    Except LoadFault Settings :=
  match format with
  | .json => (ofJson reading text).mapError (.json text)
  | .toml =>
      match Toml.parse text with
      | .error flaw => .error (.notToml text flaw)
      | .ok source => (ofTomlSource source).mapError (.toml text)

def validate (settings : Settings) : Except LoadFault Settings :=
  match settings.complaint? with
  | none => .ok settings
  | some complaint => .error (.invalid complaint)

/-- Reads settings from a text and checks them; JSON numbers are read in the given way. -/
def ofTextWith (reading : Numeral.Reading) (format : Format) (text : List Char) :
    Except LoadFault Settings :=
  (parseWith reading format text).bind validate

def ofText (format : Format) (text : List Char) : Except LoadFault Settings :=
  ofTextWith Numeral.stepwise format text

def formatOf (path : String) : Except LoadFault Format :=
  match Files.extension? path with
  | none => .error .noExtension
  | some extension =>
      match Format.ofExtension? extension with
      | none => .error (.unsupported extension)
      | some format => .ok format

def ofFile (files : Files) (path : String) : Except LoadFault Settings :=
  match formatOf path with
  | .error fault => .error fault
  | .ok format =>
      match files.text path with
      | .error fault => .error (.file fault)
      | .ok text => ofText format text

end Settings
end WindsAloft
