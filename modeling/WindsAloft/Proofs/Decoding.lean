import WindsAloft.Proofs.Codec.Record
import WindsAloft.Proofs.Codec.Store
import WindsAloft.Proofs.Course
import WindsAloft.Proofs.Json.Compact

/-!
# Decoding undoes encoding

Winds, samples, estimates, snapshots of stores and trace records are read back from the
text that is written for them.  They are also read from every other text that shows them:
with the members in another order, with integers for doubles, and among other members
that are scalars.  An object without one of the members that it has to have is refused.

Trace records differ in one point.  Their kind may be named anywhere, so all members are
read before any of them is looked at, also those that nobody wants.  A number that no
double can hold is passed over in a wind or a sample, and spoils a record.
-/

namespace WindsAloft

namespace Json

/-- What a reader makes of a text. -/
def decode
    {α : Type} (reading : Numeral.Reading) (read : Reader α) (text : String) : Except Fault α :=
  (parse reading text.toList).read read

/--
A reader undoes a writer on the values that fit, where numbers are read in some way.
Documents can have members of some kind besides, and some documents lack a member.
-/
structure Undoes
    {α : Type} (reading : Numeral.Reading) (read : Reader α) (write : α → Json)
    (fits : α → Prop) (extra lacked : Doc → Prop) :
    Prop where
  /-- The text that is written is read back. -/
  written : ∀ value, fits value → decode reading read (write value).compact = .ok value
  /-- So is a text with the members in another order among others that are scalars. -/
  arranged :
    ∀ value entries others members,
      fits value → write value = .object entries → members.Perm (entries ++ others) →
      (∀ other ∈ others,
        other.1 ∉ entries.map Prod.fst ∧ other.2.IsScalar ∧ other.2.Readable reading id) →
      decode reading read (Json.object members).compact = .ok value
  /-- So is every text whose document shows the value. -/
  shown :
    ∀ text value doc,
      fits value → parse reading text.toList = ⟨doc, none⟩ → (write value).ShownIn extra doc →
      decode reading read text = .ok value
  /-- A text whose document lacks a member is refused. -/
  refused :
    ∀ text doc trailing,
      parse reading text.toList = ⟨doc, trailing⟩ → lacked doc →
      ∃ fault, decode reading read text = .error fault

section Undoes

variable {α : Type} {reading : Numeral.Reading} {read : Reader α} {write : α → Json}
  {fits : α → Prop} {extra lacked : Doc → Prop}

/-- It is enough to know what is made of documents. -/
theorem undoes_of_shown
    (leaves : ∀ leaf : Doc, leaf.IsLeaf → extra leaf)
    (isObject : ∀ value, ∃ entries, write value = .object entries)
    (distinct : ∀ value, (write value).Distinct)
    (readable : ∀ value, fits value → (write value).Readable reading id)
    (reads : ∀ value doc, fits value → (write value).ShownIn extra doc → read doc = .ok value)
    (refuses : ∀ doc, lacked doc → ∃ fault, read doc = .error fault) :
    Undoes reading read write fits extra lacked := by
  have shown (text : String) (value : α) (doc : Doc) (suits : fits value)
      (parsed : parse reading text.toList = ⟨doc, none⟩)
      (shows : (write value).ShownIn extra doc) :
      decode reading read text = .ok value := by
    rw [decode, parsed, Source.read, reads value doc suits shows]
  have arranged (value : α) (entries others members : List (String × Json)) (suits : fits value)
      (isObject : write value = .object entries) (order : members.Perm (entries ++ others))
      (scalars : ∀ other ∈ others,
        other.1 ∉ entries.map Prod.fst ∧ other.2.IsScalar ∧ other.2.Readable reading id) :
      decode reading read (Json.object members).compact = .ok value := by
    have readableEntries := isObject ▸ readable value suits
    have readableMembers : (Json.object members).Readable reading id := by
      rw [Readable, readableMembers_iff] at readableEntries ⊢
      intro member among
      rcases List.mem_append.mp (order.mem_iff.mp among) with inEntries | inOthers
      · exact readableEntries member inEntries
      · exact (scalars member inOthers).2.2
    obtain ⟨doc, parsed, said⟩ := parse_compact readableMembers
    rw [mapReals_id] at said
    refine shown _ value doc suits parsed ?_
    rw [isObject]
    exact shownIn_of_arranged (isObject ▸ distinct value) order
      (fun other among => ⟨(scalars other among).1, (scalars other among).2.1⟩) leaves said
  refine ⟨fun value suits => ?_, arranged, shown, fun text doc trailing parsed lacks => ?_⟩
  · obtain ⟨entries, object⟩ := isObject value
    rw [object]
    exact arranged value entries [] entries suits object
      (by rw [List.append_nil]) nofun
  · obtain ⟨fault, failed⟩ := refuses doc lacks
    exact ⟨fault, by rw [decode, parsed, Source.read, failed]⟩

end Undoes

end Json

/-- Whether the doubles of an estimate are finite and its count has 64 bits. -/
def Estimate.Fits (estimate : Estimate) : Prop :=
  estimate.wind.IsFinite ∧ estimate.contributors < UInt64.size

/-- Whether the times of a snapshot are finite and its counts have 64 bits. -/
def Store.Status.Fits (status : Status) : Prop :=
  status.FitsWords ∧ (∀ time ∈ status.oldestTime, time.isFinite = true) ∧
    ∀ time ∈ status.newestTime, time.isFinite = true

/-- Whether all numbers of a record are finite. -/
def Record.IsFinite : Record → Prop
  | .measurement sample => sample.IsFinite
  | .query point => point.IsFinite

section Readable

variable {reading : Numeral.Reading}

theorem Json.readable_int32 (n : Int32) : (Json.integer n.toInt).Readable reading id := by
  have least := Int64.toInt_minValue
  have size : (UInt64.size : ℤ) = 18446744073709551616 := rfl
  have lower := n.le_toInt
  have upper := n.toInt_lt
  rw [Json.Readable]
  omega

theorem Json.readable_int64 (n : Int64) : (Json.integer n.toInt).Readable reading id := by
  have size : (UInt64.size : ℤ) = 18446744073709551616 := rfl
  have upper := n.toInt_lt
  rw [Json.Readable]
  exact ⟨n.minValue_le_toInt, by omega⟩

theorem Json.readable_count {n : ℕ} (small : n < UInt64.size) :
    (Json.integer n).Readable reading id := by
  have least := Int64.toInt_minValue
  rw [Json.Readable]
  omega

theorem Json.readable_ofOption
    {x? : Option Float}
    (exact : ∀ x : Float, x.isFinite = true → reading.Reads x)
    (finite : ∀ x ∈ x?, x.isFinite = true) :
    (Json.ofOption .real x?).Readable reading id := by
  cases x? with
  | none => exact trivial
  | some x => exact exact x (finite x rfl)

end Readable

section Types

variable {reading : Numeral.Reading}

theorem Wind.readable_toJson
    {wind : Wind}
    (exact : ∀ x : Float, x.isFinite = true → reading.Reads x)
    (finite : wind.IsFinite) :
    wind.toJson.Readable reading id :=
  ⟨exact _ finite.1, exact _ finite.2, trivial⟩

theorem Wind.undoes (exact : ∀ x : Float, x.isFinite = true → reading.Reads x) :
    Json.Undoes reading layout.read toJson IsFinite Doc.IsScalar LackedBy :=
  Json.undoes_of_shown
    (fun _ => Doc.IsLeaf.isScalar)
    (fun _ => ⟨_, rfl⟩)
    (fun _ => ⟨by simp, trivial, trivial, trivial⟩)
    (fun _ => readable_toJson exact)
    (fun _ _ _ => read_shown fun _ => id)
    (fun _ => refuses_of_lackedBy)

theorem Sample.undoes (exact : ∀ x : Float, x.isFinite = true → reading.Reads x) :
    Json.Undoes reading layout.read toJson IsFinite Doc.IsScalar LackedBy :=
  Json.undoes_of_shown
    (fun _ => Doc.IsLeaf.isScalar)
    (fun _ => ⟨_, rfl⟩)
    (fun _ => ⟨by simp, ⟨by simp, trivial, trivial, trivial⟩, trivial, trivial, trivial, trivial⟩)
    (fun sample ⟨x, y, time, altitude⟩ => ⟨Wind.readable_toJson exact ⟨x, y⟩,
      Json.readable_int32 sample.quality, exact _ time, exact _ altitude, trivial⟩)
    (fun _ _ _ => read_shown fun _ => id)
    (fun _ => refuses_of_lackedBy)

theorem Estimate.undoes (exact : ∀ x : Float, x.isFinite = true → reading.Reads x) :
    Json.Undoes reading layout.read toJson Fits Doc.IsScalar LackedBy :=
  Json.undoes_of_shown
    (fun _ => Doc.IsLeaf.isScalar)
    (fun _ => ⟨_, rfl⟩)
    (fun _ => ⟨by simp, ⟨by simp, trivial, trivial, trivial⟩, trivial, trivial, trivial, trivial⟩)
    (fun estimate fits => ⟨Wind.readable_toJson exact fits.1, trivial,
      Json.readable_int64 estimate.totalWeight, Json.readable_count fits.2, trivial⟩)
    (fun _ _ fits => read_shown fits.2 fun _ => id)
    (fun _ => refuses_of_lackedBy)

theorem Store.Status.distinct_toJson (status : Status) : status.toJson.Distinct := by
  have scalar (x? : Option Float) : (Json.ofOption .real x?).Distinct := by
    cases x? <;> exact trivial
  exact ⟨by simp, trivial, trivial, trivial, trivial, scalar _, scalar _, trivial⟩

theorem Store.Status.undoes (exact : ∀ x : Float, x.isFinite = true → reading.Reads x) :
    Json.Undoes reading layout.read toJson Fits Doc.IsScalar LackedBy :=
  Json.undoes_of_shown
    (fun _ => Doc.IsLeaf.isScalar)
    (fun _ => ⟨_, rfl⟩)
    distinct_toJson
    (fun _ fits => ⟨Json.readable_count fits.1.1, Json.readable_count fits.1.2.1,
      Json.readable_count fits.1.2.2.1, Json.readable_count fits.1.2.2.2,
      Json.readable_ofOption exact fits.2.1, Json.readable_ofOption exact fits.2.2, trivial⟩)
    (fun _ _ fits => read_shown fits.1 fun _ => id)
    (fun _ => refuses_of_lackedBy)

theorem Record.distinct_toJson (record : Record) : record.toJson.Distinct := by
  cases record with
  | measurement sample =>
      exact ⟨by simp [tag], trivial, trivial, trivial, trivial, trivial, trivial, trivial⟩
  | query point => exact ⟨by simp [tag], trivial, trivial, trivial, trivial⟩

theorem Record.readable_toJson
    {record : Record}
    (exact : ∀ x : Float, x.isFinite = true → reading.Reads x)
    (finite : record.IsFinite) :
    record.toJson.Readable reading id := by
  cases record with
  | measurement sample =>
      obtain ⟨x, y, time, altitude⟩ := finite
      exact ⟨trivial, exact _ time, exact _ x, exact _ y, exact _ altitude,
        Json.readable_int32 sample.quality, trivial⟩
  | query point => exact ⟨trivial, exact _ finite.1, exact _ finite.2, trivial⟩

theorem Record.undoes (exact : ∀ x : Float, x.isFinite = true → reading.Reads x) :
    Json.Undoes reading read toJson IsFinite Doc.IsLeaf LackedBy :=
  Json.undoes_of_shown
    (fun _ => id)
    (fun record => by cases record <;> exact ⟨_, rfl⟩)
    distinct_toJson
    (fun _ => readable_toJson exact)
    (fun _ _ _ => read_shown)
    (fun _ => refuses_of_lackedBy)

end Types

/--
Where finite doubles are read as they are written, decoding undoes encoding: for winds,
samples, estimates and snapshots of stores among all scalars, and for trace records, whose
kind may be named anywhere, among scalars that can be read.
-/
theorem decoding_undoes_encoding
    {reading : Numeral.Reading}
    (exact : ∀ x : Float, x.isFinite = true → reading.Reads x) :
    Json.Undoes reading Wind.layout.read Wind.toJson Wind.IsFinite Doc.IsScalar Wind.LackedBy ∧
    Json.Undoes reading Sample.layout.read Sample.toJson Sample.IsFinite Doc.IsScalar
      Sample.LackedBy ∧
    Json.Undoes reading Estimate.layout.read Estimate.toJson Estimate.Fits Doc.IsScalar
      Estimate.LackedBy ∧
    Json.Undoes reading Store.Status.layout.read Store.Status.toJson Store.Status.Fits Doc.IsScalar
      Store.Status.LackedBy ∧
    Json.Undoes reading Record.read Record.toJson Record.IsFinite Doc.IsLeaf Record.LackedBy :=
  ⟨Wind.undoes exact, Sample.undoes exact, Estimate.undoes exact, Store.Status.undoes exact,
    Record.undoes exact⟩

/--
A query with its members in another order and with a member that nobody asks for, read
with every number rounded correctly.
-/
theorem decoding_of_query :
    (∀ x : Float, x.isFinite = true → Numeral.Reading.Reads Numeral.nearest x) ∧
      Json.decode Numeral.nearest Record.read
        (Json.object
          [ ("altitude", .real 2), ("note", .null), ("type", .text "query")
          , ("time", .real 1) ]).compact =
        .ok (.query ⟨1, 2⟩) := by
  have exact (x : Float) (finite : x.isFinite = true) : Numeral.Reading.Reads Numeral.nearest x :=
    Numeral.nearest_reads finite
  refine ⟨exact, ?_⟩
  let front : List (String × Json) := [("altitude", .real 2), ("note", .null)]
  let back : List (String × Json) := [("type", .text "query"), ("time", .real 1)]
  have order : (front ++ back).Perm (back ++ front) := List.perm_append_comm
  obtain ⟨-, -, -, -, query⟩ := decoding_undoes_encoding exact
  refine query.arranged (.query ⟨1, 2⟩) _ [("note", .null)] _ ?_ rfl ?_ ?_
  · exact ⟨by decide +kernel, by decide +kernel⟩
  · exact order
  · simp [Json.IsScalar, Json.Readable, Record.tag]

/--
A number out of range under a name that nobody asks for: a wind is read all the same, but
a query is refused that is read without it.
-/
theorem out_of_range_extra_refused :
    let query := "\x7b\"type\":\"query\",\"time\":1.0,\"altitude\":2.0\x7d"
    let longer := "\x7b\"type\":\"query\",\"time\":1.0,\"altitude\":2.0,\"note\":1e999\x7d"
    let wind := "\x7b\"x\":1.0,\"y\":2.0,\"note\":1e999\x7d"
    Json.decode Numeral.nearest Record.read query = .ok (.query ⟨1, 2⟩) ∧
      Json.decode Numeral.nearest Record.read longer =
        .error (Flaw.numberOutOfRange.faultAt 54) ∧
      Json.decode Numeral.nearest Wind.layout.read wind = .ok ⟨1, 2⟩ := by
  decide +kernel

end WindsAloft
