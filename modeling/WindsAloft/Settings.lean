import WindsAloft.Decimal.Notation
import WindsAloft.Estimate
import WindsAloft.Eviction

/-!
# Settings

The settings of a wind history: how many samples it keeps, how it scores them
for eviction, and how its kernel weighs them.  `Settings.complaint?` finds the
first setting that makes no sense; settings without a complaint are valid.
-/

namespace WindsAloft

inductive Version where
  | v1
  deriving DecidableEq, Repr

def Version.name : Version → String
  | .v1 => "V1"

structure Settings where
  version : Version
  /-- How many samples are kept. -/
  capacity : UInt64
  ageing : Ageing
  kernel : Kernel
  deriving DecidableEq, Repr

/-- How many samples are kept unless the settings say otherwise. -/
def classicCapacity : UInt64 := 200

def Settings.classic : Settings where
  version := .v1
  capacity := classicCapacity
  ageing := .classic
  kernel := .classic

instance : Inhabited Settings :=
  ⟨Settings.classic⟩

structure Complaint where
  field : String
  message : String
  deriving DecidableEq, Repr

def Complaint.describe (complaint : Complaint) : String :=
  "config validation error at '" ++ complaint.field ++ "': " ++ complaint.message

namespace Settings

/-- Whether a double is finite and above zero. -/
def IsPositive (x : Float) : Prop :=
  x.isFinite = true ∧ ¬ x ≤ 0

/-- Whether a double is finite and not below zero. -/
def IsNonnegative (x : Float) : Prop :=
  x.isFinite = true ∧ ¬ x < 0

instance (x : Float) : Decidable (IsPositive x) :=
  inferInstanceAs (Decidable (_ ∧ _))

instance (x : Float) : Decidable (IsNonnegative x) :=
  inferInstanceAs (Decidable (_ ∧ _))

def positive (field : String) (x : Float) : Option Complaint :=
  if IsPositive x then none
  else
    some ⟨"estimator." ++ field,
      "must be a finite value > 0, got " ++ String.ofList (displayFloat x)⟩

def nonnegative (field : String) (x : Float) : Option Complaint :=
  if IsNonnegative x then none
  else
    some ⟨"estimator." ++ field,
      "must be a finite value >= 0, got " ++ String.ofList (displayFloat x)⟩

/-- The rule that there has to be room for a sample. -/
def room (capacity : UInt64) : Option Complaint :=
  if capacity = 0 then some ⟨"store.capacity", "capacity must be > 0"⟩ else none

/-- The rule that quality must not count against a sample. -/
def penalty (ageing : Ageing) : Option Complaint :=
  if ageing.qualityPenalty < 0 then
    some ⟨"eviction.quality_penalty",
      "quality_penalty must be >= 0, got "
        ++ String.ofList (integerChars ageing.qualityPenalty.toInt)⟩
  else
    none

/-- The first of all rules that the settings break, in a fixed order. -/
def complaint? (settings : Settings) : Option Complaint :=
  let kernel := settings.kernel
  room settings.capacity
    <|> penalty settings.ageing
    <|> positive "altitude_range" kernel.altitudeRange
    <|> positive "time_range" kernel.timeRange
    <|> positive "time_kernel_k" kernel.timeSharpness
    <|> positive "max_quality" kernel.maxQuality
    <|> nonnegative "quality_factor" kernel.qualityFactor
    <|> nonnegative "altitude_factor" kernel.altitudeFactor
    <|> nonnegative "time_factor" kernel.timeFactor

def Valid (settings : Settings) : Prop :=
  settings.complaint? = none

instance (settings : Settings) : Decidable settings.Valid :=
  inferInstanceAs (Decidable (_ = _))

def deadFactorWarning (field : String) (factor : Float) : List String :=
  if factor == 0 then
    ["estimator." ++ field ++ " is 0 - every weight is zero and no wind will be found"]
  else
    []

/-- What is allowed but hardly meant: settings that make every estimate empty or degenerate. -/
def warnings (settings : Settings) : List String :=
  let kernel := settings.kernel
  deadFactorWarning "quality_factor" kernel.qualityFactor
    ++ deadFactorWarning "altitude_factor" kernel.altitudeFactor
    ++ deadFactorWarning "time_factor" kernel.timeFactor
    ++ (if 1 ≤ kernel.timeSharpness then
        ["estimator.time_kernel_k = " ++ String.ofList (displayFloat kernel.timeSharpness)
          ++ " flattens the recency kernel"]
      else
        [])
    ++ (if settings.ageing.qualityPenalty = 0 then
        ["eviction.quality_penalty is 0 - eviction ignores quality"]
      else
        [])

end Settings
end WindsAloft
