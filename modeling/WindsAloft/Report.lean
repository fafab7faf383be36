import WindsAloft.Codec.Wind
import WindsAloft.Decimal.Rounded
import WindsAloft.Replay

/-!
# Reports on replays

The lines that a replay prints: one for each answer, for people or as JSON, and
a summary of the whole run at its end.
-/

namespace WindsAloft

structure Duration where
  nanoseconds : Nat
  deriving DecidableEq, Repr

/-- A stretch of time in seconds: whole seconds plus the fraction, each rounded on its own. -/
def Duration.seconds (duration : Duration) : Float :=
  ofCount (duration.nanoseconds / 1000000000)
    + ofCount (duration.nanoseconds % 1000000000) / 1e9

/-- How many records were applied each second, zero if no time has passed. -/
def recordsPerSecond (records : Nat) (duration : Duration) : Float :=
  if 0 < duration.seconds then ofCount records / duration.seconds else 0

namespace Outcome

def toJson (outcome : Outcome) : Json :=
  .object
    [ ("time", .real outcome.point.time)
    , ("altitude", .real outcome.point.altitude)
    , ("estimate", outcome.estimate.toJson) ]

def describe (outcome : Outcome) : String :=
  let estimate := outcome.estimate
  let shown (x : Float) : String := String.ofList (displayFloat x)
  let rounded (places : Nat) (x : Float) : String := String.ofList (fixedFloat places x)
  let place := "t=" ++ shown outcome.point.time ++ " alt=" ++ shown outcome.point.altitude
  if estimate.found then
    place ++ ": wind x=" ++ rounded 3 estimate.wind.x ++ " y=" ++ rounded 3 estimate.wind.y
      ++ " (speed " ++ rounded 3 estimate.wind.speed
      ++ ", bearing " ++ rounded 1 estimate.wind.bearing
      ++ ") from " ++ toString estimate.contributors ++ " samples"
  else
    place ++ ": no estimate (" ++ toString estimate.contributors ++ " samples in window)"

def line (json : Bool) (outcome : Outcome) : String :=
  if json then outcome.toJson.compact else outcome.describe

end Outcome

namespace Replay

def describeSpan (status : Store.Status) : String :=
  match status.oldestTime, status.newestTime with
  | some oldest, some newest =>
      String.ofList (displayFloat oldest) ++ " .. " ++ String.ofList (displayFloat newest)
  | _, _ => "(empty)"

def summary (replay : Replay) (duration : Duration) : List String :=
  let status := replay.history.store.status
  let tally := replay.tally
  [ ""
  , "=== Replay Statistics ==="
  , ""
  , "Overview"
  , "   ├─ Duration: " ++ String.ofList (fixedFloat 3 duration.seconds) ++ "s"
  , "   ├─ Records: " ++ toString replay.records
  , "   └─ Records/s: "
      ++ String.ofList (fixedFloat 0 (recordsPerSecond replay.records duration))
  , ""
  , "Store"
  , "   ├─ Samples held: " ++ toString status.size ++ "/" ++ toString status.capacity
  , "   ├─ Inserted: " ++ toString status.inserted
  , "   ├─ Evicted: " ++ toString status.evicted
  , "   └─ Time span: " ++ describeSpan status
  , ""
  , "Estimates"
  , "   ├─ Queries: " ++ tally.describeQueries
  , "   ├─ Speed: " ++ tally.speed.describe
  , "   ├─ Contributors: " ++ tally.contributors.describe
  , "   └─ Measurement quality: " ++ tally.quality.describe
  , "" ]

end Replay
end WindsAloft
