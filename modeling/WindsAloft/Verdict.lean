import WindsAloft.Loading
import WindsAloft.Overview

/-!
# Verdicts on settings files

A verdict tells whether a file holds valid settings: the settings themselves if
it does, the reason if it does not.  Valid settings may still draw warnings.
-/

namespace WindsAloft

inductive Verdict where
  | valid (settings : Settings)
  | invalid (reason : String)

namespace Verdict

def ofFile
    (files : Files)
    (path : String) :
    Verdict :=
  if files.exist path then
    match Settings.ofFile files path with
    | .ok settings => .valid settings
    | .error fault => .invalid fault.describe
  else
    .invalid ("File not found: " ++ path)

def settings? : Verdict → Option Settings
  | valid settings => some settings
  | invalid _ => none

/-- The section with the warnings, left out if there are none. -/
def warningLines (settings : Settings) : List String :=
  match settings.warnings with
  | [] => []
  | warnings => "" :: "Warnings:" :: warnings.map fun warning => "  - " ++ warning

def lines (path : String) : Verdict → List String
  | valid settings =>
      [ "Configuration is valid: " ++ path
      , ""
      , "  Version: " ++ settings.version.name
      , "  Capacity: " ++ toString settings.capacity.toNat
      , "  Altitude range: " ++ Settings.shown settings.kernel.altitudeRange
      , "  Time range: " ++ Settings.shown settings.kernel.timeRange ]
        ++ warningLines settings
  | invalid reason =>
      [ "Configuration is invalid: " ++ path
      , ""
      , "  Error: " ++ reason ]

def warningMembers (settings : Settings) : List (String × Json) :=
  match settings.warnings with
  | [] => []
  | warnings => [("warnings", .list (warnings.map .text))]

/-- The settings that matter most, as JSON. -/
def summaryJson (settings : Settings) : Json :=
  .object
    [ ("version", .text settings.version.name)
    , ("capacity", .integer settings.capacity.toNat)
    , ("altitude_range", .real settings.kernel.altitudeRange)
    , ("time_range", .real settings.kernel.timeRange) ]

def toJson (path : String) : Verdict → Json
  | valid settings =>
      .object
        ([("valid", .bool true), ("config_path", .text path)]
          ++ warningMembers settings
          ++ [("summary", summaryJson settings)])
  | invalid reason =>
      .object
        [ ("valid", .bool false)
        , ("config_path", .text path)
        , ("error", .text reason) ]

end Verdict
end WindsAloft
