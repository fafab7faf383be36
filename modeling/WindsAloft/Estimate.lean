import WindsAloft.Kernel

/-!
# Wind estimates

The wind at a point is the weighted mean of the stored vectors.  One pass over
the samples forms the two weighted sums in double arithmetic and the total
weight in 64-bit arithmetic; samples outside the window take no part.  A total
that is not positive gives no usable answer, and then the vector is calm.
-/

namespace WindsAloft

structure Estimate where
  /-- The weighted mean, calm unless `found`. -/
  wind : Wind
  /-- Whether the total weight is positive. -/
  found : Bool
  /-- The sum of the combined weights within the window. -/
  totalWeight : Int64
  /-- How many samples lie within the window. -/
  contributors : Nat
  deriving DecidableEq, Repr

namespace Estimate

def missing (totalWeight : Int64) (contributors : Nat) : Estimate where
  wind := .calm
  found := false
  totalWeight := totalWeight
  contributors := contributors

instance : Inhabited Estimate :=
  ⟨missing 0 0⟩

def wind? (estimate : Estimate) : Option Wind :=
  if estimate.found then some estimate.wind else none

end Estimate

/-- The sums that one pass over the samples builds up. -/
structure WeightedSum where
  x : Float
  y : Float
  totalWeight : Int64
  contributors : Nat
  deriving DecidableEq, Repr

namespace WeightedSum

def empty : WeightedSum :=
  ⟨0, 0, 0, 0⟩

def add (sum : WeightedSum) (wind : Wind) (weight : Int64) : WeightedSum where
  x := sum.x + wind.x * ofInt64 weight
  y := sum.y + wind.y * ofInt64 weight
  totalWeight := Saturating.add sum.totalWeight weight
  contributors := sum.contributors + 1

/-- The mean, where the total weight is positive. -/
def estimate (sum : WeightedSum) : Estimate :=
  if 0 < sum.totalWeight then
    { wind := ⟨sum.x / ofInt64 sum.totalWeight, sum.y / ofInt64 sum.totalWeight⟩
      found := true
      totalWeight := sum.totalWeight
      contributors := sum.contributors }
  else
    .missing sum.totalWeight sum.contributors

theorem found_estimate (sum : WeightedSum) :
    sum.estimate.found = true ↔ 0 < sum.totalWeight := by
  unfold estimate
  split
  · next positive => exact ⟨fun _ => positive, fun _ => rfl⟩
  · next notPositive => exact ⟨nofun, fun positive => (notPositive positive).elim⟩

theorem totalWeight_estimate (sum : WeightedSum) :
    sum.estimate.totalWeight = sum.totalWeight := by
  unfold estimate
  split <;> rfl

end WeightedSum

namespace Kernel

/-- A sample's part in the sums; none outside the window. -/
def accumulate
    (kernel : Kernel) (point : Point) (sum : WeightedSum) (sample : Sample) :
    WeightedSum :=
  match kernel.weigh point sample with
  | none => sum
  | some weight => sum.add sample.wind weight.combined

/-- The weighted mean wind at a point over some samples, taken in order. -/
def estimate (kernel : Kernel) (samples : List Sample) (point : Point) : Estimate :=
  (samples.foldl (kernel.accumulate point) .empty).estimate

/-- Usable answers, and only these, have a positive total weight. -/
theorem found_iff (kernel : Kernel) (samples : List Sample) (point : Point) :
    (kernel.estimate samples point).found = true ↔
      0 < (kernel.estimate samples point).totalWeight.toInt := by
  unfold estimate
  rw [WeightedSum.totalWeight_estimate, WeightedSum.found_estimate]
  exact Int64.lt_iff_toInt_lt

end Kernel
end WindsAloft
