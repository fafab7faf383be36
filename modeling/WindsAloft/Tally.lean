import WindsAloft.Estimate
import WindsAloft.Statistics

/-!
# Tallies of a run

A tally counts measurements, evictions, queries and usable answers, and keeps
statistics of the quality measured, of the samples that took part in each
answer and of the speeds found.
-/

namespace WindsAloft

/-- What a run amounts to so far. -/
structure Tally where
  measurements : Nat
  evictions : Nat
  queries : Nat
  found : Nat
  /-- Speeds of usable answers. -/
  speed : Statistics
  /-- Samples within the window, per query. -/
  contributors : Statistics
  quality : Statistics
  deriving DecidableEq, Repr

namespace Tally

def empty : Tally :=
  ⟨0, 0, 0, 0, .empty, .empty, .empty⟩

instance : Inhabited Tally :=
  ⟨empty⟩

/-- Counts a measurement of the given quality, and whether a sample had to go for it. -/
def countMeasurement (tally : Tally) (quality : Int32) (evicted : Bool) : Tally :=
  { tally with
    measurements := tally.measurements + 1
    evictions := if evicted then tally.evictions + 1 else tally.evictions
    quality := tally.quality.push (ofInt32 quality) }

def countQuery (tally : Tally) (estimate : Estimate) : Tally :=
  { tally with
    queries := tally.queries + 1
    contributors := tally.contributors.push (ofCount estimate.contributors)
    found := if estimate.found then tally.found + 1 else tally.found
    speed := if estimate.found then tally.speed.push estimate.wind.speed else tally.speed }

/-- The percentage of queries with a usable answer, zero if there was none. -/
def foundRate (tally : Tally) : Float :=
  if 0 < tally.queries then ofCount tally.found / ofCount tally.queries * 100 else 0

def describeQueries (tally : Tally) : String :=
  toString tally.queries ++ " (found " ++ toString tally.found ++ ", "
    ++ String.ofList (fixedFloat 2 tally.foundRate) ++ "%)"

def describe (tally : Tally) : String :=
  "=== Wind Metrics Summary ===\n"
    ++ "Measurements: " ++ toString tally.measurements ++ "\n"
    ++ "Evictions: " ++ toString tally.evictions ++ "\n"
    ++ "Queries: " ++ tally.describeQueries ++ "\n"
    ++ "Estimated speed: " ++ tally.speed.describe ++ "\n"
    ++ "Contributors per query: " ++ tally.contributors.describe ++ "\n"
    ++ "Measurement quality: " ++ tally.quality.describe ++ "\n"

end Tally
end WindsAloft
