import WindsAloft.Decimal.Rounded

/-!
# Running statistics

Count, extremes, mean and variance of a stream of values, updated value by
value.  The update moves the mean by the new deviation divided by the count
and adds to the sum of squares the product of the deviations from the old and
from the new mean.

The arithmetic is a parameter: the program works in doubles, and the same
update can be read over exact numbers.
-/

namespace WindsAloft

/-- The arithmetic that statistics are worked out in. -/
class Arithmetic (α : Type) extends Add α, Sub α, Mul α, Div α where
  ofCount : Nat → α
  lesser : α → α → α
  greater : α → α → α

/-- Doubles, with extremes that ignore what is not a number. -/
instance : Arithmetic Float where
  ofCount := ofCount
  lesser := lesser
  greater := greater

structure StatisticsOver (α : Type) where
  count : Nat
  runningMean : α
  /-- The sum of the squared deviations from the mean. -/
  squares : α
  least : α
  greatest : α
  deriving DecidableEq, Repr

namespace StatisticsOver

variable {α : Type} [Arithmetic α]

def empty : StatisticsOver α :=
  let zero := Arithmetic.ofCount 0
  ⟨0, zero, zero, zero, zero⟩

instance : Inhabited (StatisticsOver α) :=
  ⟨empty⟩

/-- Takes in one more value.  The first one is taken as it is. -/
def push (statistics : StatisticsOver α) (value : α) : StatisticsOver α :=
  if statistics.count = 0 then
    ⟨1, value, Arithmetic.ofCount 0, value, value⟩
  else
    let count := statistics.count + 1
    let delta := value - statistics.runningMean
    let mean := statistics.runningMean + delta / Arithmetic.ofCount count
    { count := count
      runningMean := mean
      squares := statistics.squares + delta * (value - mean)
      least := Arithmetic.lesser statistics.least value
      greatest := Arithmetic.greater statistics.greatest value }

theorem count_push (statistics : StatisticsOver α) (value : α) :
    (statistics.push value).count = statistics.count + 1 := by
  unfold push
  split
  · next none => rw [none]
  · rfl

def ofList (values : List α) : StatisticsOver α :=
  values.foldl push empty

theorem ofList_concat (values : List α) (value : α) :
    ofList (values ++ [value]) = (ofList values).push value :=
  List.foldl_append

/-- The mean, zero if there is no value. -/
def mean (statistics : StatisticsOver α) : α :=
  if statistics.count = 0 then Arithmetic.ofCount 0 else statistics.runningMean

/-- The variance of a sample, zero below two values. -/
def variance (statistics : StatisticsOver α) : α :=
  if statistics.count < 2 then Arithmetic.ofCount 0
  else statistics.squares / Arithmetic.ofCount (statistics.count - 1)

end StatisticsOver

abbrev Statistics : Type :=
  StatisticsOver Float

namespace Statistics

/-- The standard deviation of a sample. -/
def deviation (statistics : Statistics) : Float :=
  statistics.variance.sqrt

def describe (statistics : Statistics) : String :=
  let figure (x : Float) : String := String.ofList (fixedFloat 3 x)
  if statistics.count = 0 then
    "N/A"
  else
    "min=" ++ figure statistics.least
      ++ ", max=" ++ figure statistics.greatest
      ++ ", mean=" ++ figure statistics.mean
      ++ ", std=" ++ figure statistics.deviation
      ++ " (n=" ++ toString statistics.count ++ ")"

end Statistics
end WindsAloft
