import WindsAloft.Document.Layout
import WindsAloft.Json.Source
import WindsAloft.Json.Value
import WindsAloft.Settings

/-!
# Settings in documents

Settings fall into sections, and every section and every member has a default
of its own.  The two formats differ only in how they write the version, so the
layout takes a reader for it.
-/

namespace WindsAloft

namespace Version

/-- The names that stand for versions. -/
def known : List String :=
  [Version.v1.name]

def ofName (name : String) (span : Span) : Except Fault Version :=
  if name = Version.v1.name then .ok .v1
  else .error ⟨.mismatch (.variant name known), some span⟩

/-- What comes with the version: nothing but null. -/
def checkPayload : Reader Unit
  | .leaf .null _ => .ok ()
  | doc => .error (doc.unexpected "unit")

/-- The end of an object that writes a version, whose text goes on at an offset. -/
def checkEnd (follow : Nat) : Members → Except Fault Unit
  | .closed _ => .ok ()
  | .broken ⟨.flaw .endOfObject, span⟩ _ _ => .error ⟨.flaw .endOfObject, span⟩
  | _ => .error (Flaw.expectedValue.faultAt follow)

/-- A version in JSON: its name, or an object with its name as the only key. -/
def readJson : Reader Version
  | .leaf (.text name) span => ofName name span
  | .object _ (.member key value follow rest) =>
      match key.name with
      | .error fault => .error fault
      | .ok name =>
          match ofName name key.span with
          | .error fault => .error fault
          | .ok version =>
              match checkPayload value with
              | .error fault => .error fault
              | .ok () => (checkEnd follow rest).map fun () => version
  | .object _ (.closed span) => .error (Flaw.expectedValue.faultAt span.stop)
  | .object _ (.broken _ _ instead) => .error (instead.unexpected "variant identifier")
  | .flawed _ false whenRead _ => .error whenRead
  | doc => .error (Flaw.expectedValue.faultAt (doc.start + 1))

/-- The end of a table that writes a version in TOML, which has no other member. -/
def isLast : Members → Bool
  | .closed _ => true
  | _ => false

def kindName : Scalar → String
  | .null => "null"
  | .bool _ => "boolean"
  | .integer _ => "integer"
  | .real _ => "float"
  | .text _ => "string"

/-- The fault of something else where nothing but an empty table may come with the version. -/
def notTable (found : String) (span : Span) : Fault :=
  ⟨.mismatch (.noVariant ("expected table, found " ++ found)), some span⟩

/-- What comes with the version in TOML: an empty table or an empty list. -/
def checkEmpty : Reader Unit
  | .object _ (.closed _) => .ok ()
  | .list _ (.closed _) => .ok ()
  | .object span (.member key _ _ _) =>
      .error
        (if key.span = span then notTable "datetime" span
        else ⟨.mismatch (.noVariant "expected empty table"), some span⟩)
  | .object span (.broken _ _ _) =>
      .error ⟨.mismatch (.noVariant "expected empty table"), some span⟩
  | .list span _ => .error ⟨.mismatch (.noVariant "expected empty array"), some span⟩
  | .flawed _ _ whenRead _ => .error whenRead
  | .overflow .integer span => .error (notTable "integer" span)
  | .overflow .real span => .error (notTable "float" span)
  | .leaf value span => .error (notTable (kindName value) span)

/--
A version in TOML: its name, or a table with its name as the only key.  A point
in time, whose key stands where the value does, is neither.
-/
def readToml : Reader Version
  | .leaf (.text name) span => ofName name span
  | .object span (.member key value _ rest) =>
      if key.span = span then
        .error ⟨.mismatch (.noVariant "wanted string or table"), some span⟩
      else if isLast rest then
        match key.name with
        | .error fault => .error fault
        | .ok name =>
            match ofName name key.span with
            | .error fault => .error fault
            | .ok version => (checkEmpty value).map fun () => version
      else
        .error
          ⟨.mismatch (.noVariant "wanted exactly 1 element, more than 1 element"), some span⟩
  | .object span _ =>
      .error ⟨.mismatch (.noVariant "wanted exactly 1 element, found 0 elements"), some span⟩
  | .flawed _ _ whenRead _ => .error whenRead
  | .overflow _ span => .error ⟨.mismatch (.noVariant "wanted string or table"), some span⟩
  | .leaf _ span => .error ⟨.mismatch (.noVariant "wanted string or table"), some span⟩
  | .list span _ => .error ⟨.mismatch (.noVariant "wanted string or table"), some span⟩

end Version

def Reader.capacity : Reader UInt64 :=
  fun doc => (Reader.count "usize" doc).map UInt64.ofNat

def capacityLayout : Layout UInt64 where
  title := "struct StoreConfig"
  part := .defaulted "capacity" .capacity classicCapacity
  lenient := true

def capacityToJson (capacity : UInt64) : Json :=
  .object [("capacity", .integer capacity.toNat)]

namespace Ageing

def layout : Layout Ageing where
  title := "struct EvictionConfig"
  part :=
    Ageing.mk
      <$> .defaulted "quality_penalty" .int64 classic.qualityPenalty
      <*> .defaulted "quality_ceiling" .int32 classic.qualityCeiling
  lenient := true

def toJson (ageing : Ageing) : Json :=
  .object
    [ ("quality_penalty", .integer ageing.qualityPenalty.toInt)
    , ("quality_ceiling", .integer ageing.qualityCeiling.toInt) ]

end Ageing

namespace Kernel

def layout : Layout Kernel where
  title := "struct EstimatorConfig"
  part :=
    Kernel.mk
      <$> .defaulted "altitude_range" .real classic.altitudeRange
      <*> .defaulted "time_range" .real classic.timeRange
      <*> .defaulted "quality_factor" .real classic.qualityFactor
      <*> .defaulted "altitude_factor" .real classic.altitudeFactor
      <*> .defaulted "time_factor" .real classic.timeFactor
      <*> .defaulted "time_kernel_k" .real classic.timeSharpness
      <*> .defaulted "max_quality" .real classic.maxQuality
  lenient := true

def members (kernel : Kernel) : List (String × Float) :=
  [ ("altitude_range", kernel.altitudeRange)
  , ("time_range", kernel.timeRange)
  , ("quality_factor", kernel.qualityFactor)
  , ("altitude_factor", kernel.altitudeFactor)
  , ("time_factor", kernel.timeFactor)
  , ("time_kernel_k", kernel.timeSharpness)
  , ("max_quality", kernel.maxQuality) ]

def toJson (kernel : Kernel) : Json :=
  .object (kernel.members.map fun (name, x) => (name, .real x))

end Kernel

namespace Settings

def layout (readVersion : Reader Version) : Layout Settings where
  title := "struct WindConfig"
  part :=
    Settings.mk
      <$> .defaulted "version" readVersion classic.version
      <*> .defaulted "store" capacityLayout.read classic.capacity
      <*> .defaulted "eviction" Ageing.layout.read classic.ageing
      <*> .defaulted "estimator" Kernel.layout.read classic.kernel
  lenient := true

def jsonMembers (settings : Settings) : List (String × Json) :=
  [ ("version", .text settings.version.name)
  , ("store", capacityToJson settings.capacity)
  , ("eviction", settings.ageing.toJson)
  , ("estimator", settings.kernel.toJson) ]

def toJson (settings : Settings) : Json :=
  .object settings.jsonMembers

def jsonText (settings : Settings) : String :=
  settings.toJson.pretty

def tomlLine (key : String) (value : List Char) : List Char :=
  key.toList ++ " = ".toList ++ value ++ ['\n']

def tomlSection (name : String) (lines : List (List Char)) : List Char :=
  "\n[".toList ++ name.toList ++ "]\n".toList ++ lines.flatten

def tomlChars (settings : Settings) : List Char :=
  tomlLine "version" (Json.quoted settings.version.name)
    ++ tomlSection "store" [tomlLine "capacity" (digitChars settings.capacity.toNat)]
    ++ tomlSection "eviction"
      [ tomlLine "quality_penalty" (integerChars settings.ageing.qualityPenalty.toInt)
      , tomlLine "quality_ceiling" (integerChars settings.ageing.qualityCeiling.toInt) ]
    ++ tomlSection "estimator"
      (settings.kernel.members.map fun (name, x) => tomlLine name (tomlFloat x))

def tomlText (settings : Settings) : String :=
  String.ofList settings.tomlChars

end Settings
end WindsAloft
