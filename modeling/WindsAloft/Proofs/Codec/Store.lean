import WindsAloft.Proofs.Codec.Wind
import WindsAloft.Proofs.Document.Shown

/-!
# Winds, samples, estimates and snapshots of stores in documents

Each of these records is read from every document that shows it, whatever scalars there
are besides, and none from an object without one of the members that it has to have.
-/

namespace WindsAloft

open WindsAloft.Part
  (makes_real_of_shown makes_required_of_shown makes_optional_of_shown demands_nil
    demands_required)

variable {extra : Doc → Prop} {doc : Doc}

namespace Wind

theorem read_shown
    {wind : Wind}
    (passable : ∀ other, extra other → other.IsScalar)
    (shown : wind.toJson.ShownIn extra doc) :
    layout.read doc = .ok wind := by
  refine Layout.read_of_shown rfl passable (fun pairs unrepeated among => ?_) shown
  obtain ⟨x, y, -⟩ := among
  have makesX := makes_real_of_shown unrepeated x (by simp)
  have makesY := makes_real_of_shown unrepeated y (by simp)
  exact (makesX.map Wind.mk).seq makesY

/-- To be an object without a component of a wind. -/
def LackedBy (doc : Doc) : Prop :=
  doc.Lacks ["x", "y"]

theorem refuses_of_lackedBy (lacked : LackedBy doc) : ∃ fault, layout.read doc = .error fault := by
  have demandsX := demands_required "x" Reader.real
  have demandsY := demands_required "y" Reader.real
  exact Layout.refuses_of_lacks ((demandsX.map Wind.mk).seq demandsY) lacked

end Wind

namespace Sample

theorem read_shown
    {sample : Sample}
    (passable : ∀ other, extra other → other.IsScalar)
    (shown : sample.toJson.ShownIn extra doc) :
    layout.read doc = .ok sample := by
  refine Layout.read_of_shown rfl passable (fun pairs unrepeated among => ?_) shown
  obtain ⟨vector, quality, time, altitude, -⟩ := among
  have makesVector := makes_required_of_shown unrepeated vector (by simp) nofun
    fun _ => Wind.read_shown passable
  have makesQuality := makes_required_of_shown unrepeated quality (by simp) nofun
    fun other => Reader.int32_takes sample.quality other
  have makesTime := makes_real_of_shown unrepeated time (by simp)
  have makesAltitude := makes_real_of_shown unrepeated altitude (by simp)
  exact (((makesVector.map Sample.mk).seq makesQuality).seq makesTime).seq makesAltitude

/-- To be an object without a member of a sample, or with one of them without one of its own. -/
def LackedBy (doc : Doc) : Prop :=
  doc.Lacks ["vector", "quality", "time", "altitude"] ∨ doc.HasMember "vector" Wind.LackedBy

theorem refuses_of_lackedBy (lacked : LackedBy doc) : ∃ fault, layout.read doc = .error fault := by
  rcases lacked with lacked | lacked
  · have demandsVector := demands_required "vector" Wind.layout.read
    have demandsQuality := demands_required "quality" Reader.int32
    have demandsTime := demands_required "time" Reader.real
    have demandsAltitude := demands_required "altitude" Reader.real
    have demands :=
      (((demandsVector.map Sample.mk).seq demandsQuality).seq demandsTime).seq demandsAltitude
    exact Layout.refuses_of_lacks demands lacked
  · exact Layout.refuses_of_hasMember rfl (fun _ => Wind.refuses_of_lackedBy) lacked

end Sample

namespace Estimate

theorem read_shown
    {estimate : Estimate}
    (small : estimate.contributors < UInt64.size)
    (passable : ∀ other, extra other → other.IsScalar)
    (shown : estimate.toJson.ShownIn extra doc) :
    layout.read doc = .ok estimate := by
  refine Layout.read_of_shown rfl passable (fun pairs unrepeated among => ?_) shown
  obtain ⟨vector, found, weight, contributors, -⟩ := among
  have makesVector := makes_required_of_shown unrepeated vector (by simp) nofun
    fun _ => Wind.read_shown passable
  have makesFound := makes_required_of_shown unrepeated found (by simp) nofun
    fun other => Reader.bool_takes estimate.found other
  have makesWeight := makes_required_of_shown unrepeated weight (by simp) nofun
    fun other => Reader.int64_takes estimate.totalWeight other
  have makesContributors := makes_required_of_shown unrepeated contributors (by simp) nofun
    fun other => Reader.count_takes "usize" small other
  exact (((makesVector.map Estimate.mk).seq makesFound).seq makesWeight).seq makesContributors

/-- To be an object without a member of an estimate, or with one of them without one of its own. -/
def LackedBy (doc : Doc) : Prop :=
  doc.Lacks ["vector", "found", "total_weight", "contributors"] ∨
    doc.HasMember "vector" Wind.LackedBy

theorem refuses_of_lackedBy (lacked : LackedBy doc) : ∃ fault, layout.read doc = .error fault := by
  rcases lacked with lacked | lacked
  · have demandsVector := demands_required "vector" Wind.layout.read
    have demandsFound := demands_required "found" Reader.bool
    have demandsWeight := demands_required "total_weight" Reader.int64
    have demandsContributors := demands_required "contributors" (Reader.count "usize")
    have demands :=
      (((demandsVector.map Estimate.mk).seq demandsFound).seq demandsWeight).seq
        demandsContributors
    exact Layout.refuses_of_lacks demands lacked
  · exact Layout.refuses_of_hasMember rfl (fun _ => Wind.refuses_of_lackedBy) lacked

end Estimate

namespace Store.Status

/-- Whether the counts have 64 bits. -/
def FitsWords (status : Status) : Prop :=
  status.size < UInt64.size ∧ status.capacity < UInt64.size ∧
    status.inserted < UInt64.size ∧ status.evicted < UInt64.size

theorem read_shown
    {status : Status}
    (small : status.FitsWords)
    (passable : ∀ other, extra other → other.IsScalar)
    (shown : status.toJson.ShownIn extra doc) :
    layout.read doc = .ok status := by
  refine Layout.read_of_shown rfl passable (fun pairs unrepeated among => ?_) shown
  obtain ⟨size, capacity, inserted, evicted, oldest, newest, -⟩ := among
  obtain ⟨smallSize, smallCapacity, smallInserted, smallEvicted⟩ := small
  have makesSize := makes_required_of_shown unrepeated size (by simp) nofun
    fun other => Reader.count_takes "usize" smallSize other
  have makesCapacity := makes_required_of_shown unrepeated capacity (by simp) nofun
    fun other => Reader.count_takes "usize" smallCapacity other
  have makesInserted := makes_required_of_shown unrepeated inserted (by simp) nofun
    fun other => Reader.count_takes "u64" smallInserted other
  have makesEvicted := makes_required_of_shown unrepeated evicted (by simp) nofun
    fun other => Reader.count_takes "u64" smallEvicted other
  have makesOldest := makes_optional_of_shown unrepeated oldest (by simp)
  have makesNewest := makes_optional_of_shown unrepeated newest (by simp)
  exact (((((makesSize.map Status.mk).seq makesCapacity).seq makesInserted).seq makesEvicted).seq
    makesOldest).seq makesNewest

/-- To be an object without a count. -/
def LackedBy (doc : Doc) : Prop :=
  doc.Lacks ["len", "capacity", "inserted", "evicted"]

theorem refuses_of_lackedBy (lacked : LackedBy doc) : ∃ fault, layout.read doc = .error fault := by
  have demandsSize := demands_required "len" (Reader.count "usize")
  have demandsCapacity := demands_required "capacity" (Reader.count "usize")
  have demandsInserted := demands_required "inserted" (Reader.count "u64")
  have demandsEvicted := demands_required "evicted" (Reader.count "u64")
  have demandsCounts :=
    (((demandsSize.map Status.mk).seq demandsCapacity).seq demandsInserted).seq demandsEvicted
  exact Layout.refuses_of_lacks
    ((demandsCounts.seq (demands_nil _)).seq (demands_nil _)) lacked

end Store.Status
end WindsAloft
