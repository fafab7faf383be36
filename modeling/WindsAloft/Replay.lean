import WindsAloft.History
import WindsAloft.Record
import WindsAloft.Settings
import WindsAloft.Tally

/-!
# Replaying traces

A replay feeds records one after the other to a wind history, keeps a tally and
hands out the answer to every query.  It stops at the first record that cannot
be read; what came before has its effect, what comes after has none.
-/

namespace WindsAloft

structure Replay where
  history : History
  tally : Tally
  /-- How many records have been applied. -/
  records : Nat

structure Outcome where
  point : Point
  estimate : Estimate
  deriving DecidableEq, Repr

namespace Metric

/-- Records, by their kind. -/
def records (kind : Record.Kind) : Series :=
  ⟨"wind_trace_records_total", some ("kind", kind.name)⟩

def queryContributors : Series := ⟨"wind_query_contributors", none⟩

def estimateX : Series := ⟨"wind_estimate_x", none⟩

def estimateY : Series := ⟨"wind_estimate_y", none⟩

def estimateSpeed : Series := ⟨"wind_estimate_speed", none⟩

def storeCapacity : Series := ⟨"wind_store_capacity", none⟩

def fillRatio : Series := ⟨"wind_store_fill_ratio", none⟩

def timeSpan : Series := ⟨"wind_store_time_span", none⟩

end Metric

def Estimate.updates (estimate : Estimate) : List Update :=
  .set Metric.queryContributors (ofCount estimate.contributors)
    :: if estimate.found then
      [ .set Metric.estimateX estimate.wind.x
      , .set Metric.estimateY estimate.wind.y
      , .observe Metric.estimateSpeed estimate.wind.speed ]
    else
      []

namespace Store.Status

/-- The part of the store that is taken. -/
def fillRatio (status : Status) : Float :=
  if 0 < status.capacity then ofCount status.size / ofCount status.capacity else 0

/-- The time between the oldest and the newest sample. -/
def timeSpan? (status : Status) : Option Float :=
  match status.oldestTime, status.newestTime with
  | some oldest, some newest => some (newest - oldest)
  | _, _ => none

def updates (status : Status) : List Update :=
  [ .set Metric.storeCapacity (ofCount status.capacity)
  , .set Metric.fillRatio status.fillRatio ]
    ++ status.timeSpan?.toList.map (.set Metric.timeSpan ·)

end Store.Status

def Record.update (record : Record) : Update :=
  .increment (Metric.records record.kind)

def Outcome.note (outcome : Outcome) : Note where
  level := .debug
  topic := .run
  message := "query answered"
  fields :=
    [ ("time", .real outcome.point.time)
    , ("altitude", .real outcome.point.altitude)
    , ("found", .flag outcome.estimate.found)
    , ("contributors", .count outcome.estimate.contributors) ]

namespace Replay

/-- A replay with an empty history under the given settings. -/
def start (settings : Settings) : Replay where
  history := .empty settings.capacity.toNat settings.ageing settings.kernel
  tally := .empty
  records := 0

/-- A replay, unless the slots of its store are too many to be requested. -/
def start? (settings : Settings) : Option Replay :=
  if Store.Allocatable settings.capacity.toNat then some (start settings) else none

structure Step where
  after : Replay
  outcome : Option Outcome
  signals : List Signal

/-- Takes a measurement in.  Whether a sample had to go is told from the store's own count. -/
def applyMeasurement (replay : Replay) (sample : Sample) : Step :=
  let (history, evicted) := replay.history.add sample
  { after :=
      { history := history
        tally := replay.tally.countMeasurement sample.quality
          (replay.history.store.evicted < history.store.evicted)
        records := replay.records + 1 }
    outcome := none
    signals :=
      .update (Record.measurement sample).update :: history.addSignals sample evicted }

def applyQuery (replay : Replay) (point : Point) : Step :=
  let outcome : Outcome := ⟨point, replay.history.query point⟩
  { after :=
      { history := replay.history
        tally := replay.tally.countQuery outcome.estimate
        records := replay.records + 1 }
    outcome := some outcome
    signals :=
      .update (Record.query point).update
        :: (History.querySignals point outcome.estimate
          ++ outcome.estimate.updates.map .update
          ++ [.note outcome.note]) }

def apply (replay : Replay) : Record → Step
  | .measurement sample => replay.applyMeasurement sample
  | .query point => replay.applyQuery point

/-- The signals of a replay that has come to the end of its trace. -/
def finishSignals (replay : Replay) : List Signal :=
  let status := replay.history.store.status
  status.updates.map .update
    ++ [ .note
          { level := .info
            topic := .run
            message := "replay finished"
            fields :=
              [ ("records", .count replay.records)
              , ("queries", .count replay.tally.queries)
              , ("evictions", .count status.evicted) ] } ]

structure Run (ε : Type) where
  final : Replay
  /-- The answers to the queries, in order. -/
  outcomes : List Outcome
  signals : List Signal
  /-- Why the run stopped before the end of the trace, if it did. -/
  stopped : Option ε

/-- Applies the items of a trace up to the first that is no record. -/
def run {ε : Type} (replay : Replay) : List (Except ε Record) → Run ε
  | [] => ⟨replay, [], replay.finishSignals, none⟩
  | .error e :: _ => ⟨replay, [], [], some e⟩
  | .ok record :: items =>
      let step := replay.apply record
      let rest := step.after.run items
      { rest with
        outcomes := step.outcome.toList ++ rest.outcomes
        signals := step.signals ++ rest.signals }

end Replay
end WindsAloft
