import WindsAloft.Codec.Settings

/-!
# Overviews of settings

An overview shows all settings that apply, together with the source they come
from, as lines for people or as one JSON document.  The document is itself one
that the settings can be read from.
-/

namespace WindsAloft
namespace Settings

/-- A double as people read it. -/
def shown (x : Float) : String :=
  String.ofList (displayFloat x)

def overview
    (source : String)
    (settings : Settings) :
    List String :=
  let ageing := settings.ageing
  let kernel := settings.kernel
  [ "Wind Estimator Configuration (" ++ source ++ ")"
  , "  Version: " ++ settings.version.name
  , ""
  , "Store"
  , "  └─ Capacity: " ++ toString settings.capacity.toNat
  , ""
  , "Eviction"
  , "  ├─ Quality penalty: " ++ String.ofList (integerChars ageing.qualityPenalty.toInt)
  , "  └─ Quality ceiling: " ++ String.ofList (integerChars ageing.qualityCeiling.toInt)
  , ""
  , "Estimator"
  , "  ├─ Altitude range: " ++ shown kernel.altitudeRange
  , "  ├─ Time range: " ++ shown kernel.timeRange
  , "  ├─ Max quality: " ++ shown kernel.maxQuality
  , "  ├─ Factors: quality " ++ shown kernel.qualityFactor
      ++ " / altitude " ++ shown kernel.altitudeFactor
      ++ " / time " ++ shown kernel.timeFactor
  , "  └─ Time kernel k: " ++ shown kernel.timeSharpness
  , "" ]

/-- The settings as a JSON document, with the source as its first member. -/
def overviewJson
    (source : String)
    (settings : Settings) :
    Json :=
  .object (("source", .text source) :: settings.jsonMembers)

end Settings
end WindsAloft
