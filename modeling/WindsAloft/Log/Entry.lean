import WindsAloft.Json.Value
import WindsAloft.Log.Filter

/-!
# Log entries

The entries of the log are the notes that its filter lets through, with the
names of the scopes around them.  They are written as JSON or for people.
-/

namespace WindsAloft

structure LogEntry where
  level : Level
  topic : Topic
  message : String
  fields : List (String × Datum)
  /-- The names of the scopes around it that are kept, the outermost first. -/
  scopes : List String
  deriving DecidableEq, Repr

def Filter.entry? (filter : Filter) (note : Note) : Option LogEntry :=
  if filter.keeps note then
    some
      { level := note.level
        topic := note.topic
        message := note.message
        fields := note.fields
        scopes := (note.scope.filter filter.names).toList.map Scope.name }
  else
    none

def Datum.toJson : Datum → Json
  | .count n => .integer n
  | .integer n => .integer n
  | .real x => .real x
  | .flag b => .bool b
  | .text s => .text s

namespace LogEntry

def fieldsJson (entry : LogEntry) : List (String × Json) :=
  entry.fields.map fun (name, datum) => (name, datum.toJson)

def toJson (entry : LogEntry) : Json :=
  .object
    [ ("level", .text entry.level.name)
    , ("fields", .object (("message", .text entry.message) :: entry.fieldsJson))
    , ("target", .text entry.topic.name)
    , ("spans", .list (entry.scopes.map fun name => .object [("name", .text name)])) ]

def describe (entry : LogEntry) : String :=
  let fields := entry.fieldsJson.map fun (name, value) => " " ++ name ++ "=" ++ value.compact
  let scopes := entry.scopes.map fun name => name ++ ": "
  entry.level.name ++ " " ++ String.join scopes ++ entry.topic.name ++ ": " ++ entry.message
    ++ String.join fields

def line (format : LogFormat) (entry : LogEntry) : String :=
  match format with
  | .json => entry.toJson.compact
  | .pretty => entry.describe
  | .compact => entry.describe

end LogEntry
end WindsAloft
