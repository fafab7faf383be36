import WindsAloft.Estimate
import WindsAloft.Signal
import WindsAloft.Store

/-!
# The wind history

A history is a bounded store together with a kernel.  Measurements go into the
store, queries are answered from it and leave it as it is.  Beside each
operation stand the signals it gives rise to, worked out from its result.
-/

namespace WindsAloft

structure History where
  store : Store
  kernel : Kernel

def Eviction.note (eviction : Eviction) (scope : Option Scope) : Note where
  level := .debug
  topic := .store
  message := "evicted wind sample"
  fields :=
    [ ("index", .count eviction.slot)
    , ("score", .integer eviction.score.toInt)
    , ("evicted_time", .real eviction.sample.time)
    , ("evicted_quality", .integer eviction.sample.quality.toInt) ]
  scope := scope

def Estimate.kernelNote (estimate : Estimate) (scope : Option Scope) : Note where
  level := .trace
  topic := .kernel
  message := "wind kernel evaluated"
  fields :=
    [ ("total_weight", .integer estimate.totalWeight.toInt)
    , ("contributors", .count estimate.contributors) ]
  scope := scope

namespace Metric

def measurements : Series := ⟨"wind_measurements_total", none⟩

def evictions : Series := ⟨"wind_evictions_total", none⟩

def depth : Series := ⟨"wind_store_depth", none⟩

/-- Answered queries, by whether the answer was usable. -/
def estimates (found : Bool) : Series :=
  ⟨"wind_estimates_total", some ("status", if found then "found" else "not_found")⟩

def estimateWeight : Series := ⟨"wind_estimate_weight", none⟩

end Metric

namespace History

/-- An empty history with the default scoring. -/
def empty (capacity : Nat) (ageing : Ageing) (kernel : Kernel) : History where
  store := .empty capacity ageing.score
  kernel := kernel

/-- Takes a measurement in and hands back what had to go for it. -/
def add (history : History) (sample : Sample) : History × Option Eviction :=
  let inserted :=
    history.store.add sample.time sample.wind sample.altitude sample.quality
  ({ history with store := inserted.1 }, inserted.2)

def query (history : History) (point : Point) : Estimate :=
  history.kernel.estimate history.store.toList point

def reset (history : History) : History :=
  { history with store := history.store.reset }

def addScope (sample : Sample) : Scope where
  level := .trace
  topic := .history
  name := "wind_list_add"
  fields :=
    [ ("time", .real sample.time)
    , ("altitude", .real sample.altitude)
    , ("quality", .integer sample.quality.toInt)
    , ("x", .real sample.wind.x)
    , ("y", .real sample.wind.y) ]

def queryScope (point : Point) : Scope where
  level := .debug
  topic := .history
  name := "wind_list_get"
  fields :=
    [ ("time", .real point.time)
    , ("altitude", .real point.altitude) ]

/-- The signals of an added measurement, from the history after it and what had to go. -/
def addSignals
    (after : History)
    (sample : Sample)
    (evicted : Option Eviction) :
    List Signal :=
  (match evicted with
    | none => [.update (.increment Metric.measurements)]
    | some eviction =>
        [ .note (eviction.note (some (addScope sample)))
        , .update (.increment Metric.measurements)
        , .update (.increment Metric.evictions) ])
    ++ [.update (.set Metric.depth (ofCount after.store.size))]

def querySignals
    (point : Point)
    (estimate : Estimate) :
    List Signal :=
  [ .note (estimate.kernelNote (some (queryScope point)))
  , .update (.increment (Metric.estimates estimate.found)) ]
    ++ if estimate.found then
      [.update (.observe Metric.estimateWeight (ofInt64 estimate.totalWeight))]
    else
      []

def resetSignals : List Signal :=
  [ .update (.set Metric.depth 0)
  , .note { level := .debug, topic := .history, message := "wind list reset" } ]

end History
end WindsAloft
