import WindsAloft.Codec.Wind
import WindsAloft.Proofs.Document.Required

/-!
# Winds and estimates are read from their members

A wind is made of the doubles that its two members are read as, and an estimate of a
wind, a truth value and two integers.  It does not matter what else there is and in which
order, but a component that is no double spoils the whole.
-/

namespace WindsAloft

open WindsAloft.Part (yields_required)

variable {entries : List (String × Json)}

namespace Wind

/-- Whether both components of a wind are finite. -/
def IsFinite (wind : Wind) : Prop :=
  wind.x.isFinite = true ∧ wind.y.isFinite = true

instance (wind : Wind) : Decidable wind.IsFinite :=
  inferInstanceAs (Decidable (_ ∧ _))

/-- A wind with other doubles. -/
def map (change : Float → Float) (wind : Wind) : Wind :=
  ⟨change wind.x, change wind.y⟩

/-- The members of a wind make it. -/
theorem yields
    {wind : Wind}
    {x y : Json}
    (distinct : (entries.map Prod.fst).Nodup)
    (thereX : ("x", x) ∈ entries)
    (thereY : ("y", y) ∈ entries)
    (takesX : Reader.real.Takes x wind.x)
    (takesY : Reader.real.Takes y wind.y) :
    layout.part.Yields entries wind :=
  ((yields_required distinct thereX takesX).map Wind.mk).seq
    (yields_required distinct thereY takesY)

/-- A component that is no double makes no wind. -/
theorem refuses
    {name : String}
    {item : Json}
    (component : name = "x" ∨ name = "y")
    (there : (name, item) ∈ entries)
    (refused : Reader.real.Refuses item) :
    layout.read.Refuses (.object entries) := by
  rcases component with rfl | rfl
  · exact Layout.refuses_of_member rfl there refused
  · exact Layout.refuses_of_member rfl there refused

end Wind

namespace Estimate

/-- The members of an estimate make it, as long as the contributors are counted in 64 bits. -/
theorem yields
    {estimate : Estimate}
    {vector : Json}
    (distinct : (entries.map Prod.fst).Nodup)
    (thereVector : ("vector", vector) ∈ entries)
    (thereFound : ("found", .bool estimate.found) ∈ entries)
    (thereWeight : ("total_weight", .integer estimate.totalWeight.toInt) ∈ entries)
    (thereContributors : ("contributors", .integer estimate.contributors) ∈ entries)
    (takesVector : Wind.layout.read.Takes vector estimate.wind)
    (small : estimate.contributors < UInt64.size) :
    layout.part.Yields entries estimate :=
  ((((yields_required distinct thereVector takesVector).map Estimate.mk).seq
    (yields_required distinct thereFound (Reader.bool_takes _))).seq
      (yields_required distinct thereWeight (Reader.int64_takes _))).seq
        (yields_required distinct thereContributors (Reader.count_takes "usize" small))

/-- What is no wind makes no estimate. -/
theorem refuses
    {vector : Json}
    (there : ("vector", vector) ∈ entries)
    (refused : Wind.layout.read.Refuses vector) :
    layout.read.Refuses (.object entries) :=
  Layout.refuses_of_member rfl there refused

end Estimate
end WindsAloft
