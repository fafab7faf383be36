import WindsAloft.Proofs.Document.Content

/-!
# Fields that need not be there

A record whose fields all have defaults can be written with any choice of its fields.
What is read from such a document has the written value where there is one, and the
default elsewhere, whatever other fields are there.
-/

namespace WindsAloft

/-- The entries for those fields that are there. -/
def given {α : Type} (fields : List (String × Option α)) : List (String × α) :=
  fields.filterMap fun (name, value?) => value?.map fun value => (name, value)

section Given

variable {α β : Type} {fields : List (String × Option α)} {name : String} {value : α}

theorem mem_given : (name, value) ∈ given fields ↔ (name, some value) ∈ fields := by
  unfold given
  rw [List.mem_filterMap]
  constructor
  · rintro ⟨⟨other, value?⟩, among, same⟩
    obtain ⟨_, rfl, pair⟩ := Option.map_eq_some_iff.mp same
    obtain ⟨rfl, rfl⟩ := Prod.mk.inj pair
    exact among
  · exact fun among => ⟨_, among, rfl⟩

theorem given_append (fields others : List (String × Option α)) :
    given (fields ++ others) = given fields ++ given others :=
  List.filterMap_append

/-- Changing the values of the fields changes those of the entries. -/
theorem given_map (change : α → β) (fields : List (String × Option α)) :
    given (fields.map fun (name, value?) => (name, value?.map change)) =
      (given fields).map fun (name, value) => (name, change value) := by
  unfold given
  rw [List.filterMap_map, List.map_filterMap]
  refine List.filterMap_congr fun field _ => ?_
  obtain ⟨name, _ | value⟩ := field <;> rfl

theorem given_names_sublist (fields : List (String × Option α)) :
    ((given fields).map Prod.fst).Sublist (fields.map Prod.fst) := by
  induction fields with
  | nil => exact .slnil
  | cons field fields ih =>
      obtain ⟨name, _ | value⟩ := field
      · exact ih.cons _
      · exact ih.cons_cons _

theorem given_distinct (distinct : (fields.map Prod.fst).Nodup) :
    ((given fields).map Prod.fst).Nodup :=
  distinct.sublist (given_names_sublist fields)

theorem notMem_given
    (distinct : (fields.map Prod.fst).Nodup)
    (among : (name, none) ∈ fields) :
    name ∉ (given fields).map Prod.fst := by
  rintro there
  obtain ⟨⟨other, value⟩, inside, rfl⟩ := List.mem_map.mp there
  have same := List.inj_on_of_nodup_map distinct among (mem_given.mp inside) rfl
  cases same

end Given

/-- A field with a default that may be there. -/
theorem Part.yields_given
    {α β : Type}
    {fields : List (String × Option Json)}
    {name : String}
    {read : Reader α}
    {absent : α}
    {value? : Option β}
    {write : β → Json}
    {means : β → α}
    (distinct : (fields.map Prod.fst).Nodup)
    (among : (name, value?.map write) ∈ fields)
    (takes : ∀ value ∈ value?, read.Takes (write value) (means value)) :
    (defaulted name read absent).Yields (given fields) ((value?.map means).getD absent) := by
  cases value? with
  | none => exact yields_default (notMem_given distinct among)
  | some value =>
      exact yields_defaulted (given_distinct distinct) (mem_given.mpr among) (takes value rfl)

/-- The same where the value is written and read without change. -/
theorem Part.yields_given_self
    {α : Type}
    {fields : List (String × Option Json)}
    {name : String}
    {read : Reader α}
    {absent : α}
    {value? : Option α}
    {write : α → Json}
    (distinct : (fields.map Prod.fst).Nodup)
    (among : (name, value?.map write) ∈ fields)
    (takes : ∀ value, read.Takes (write value) value) :
    (defaulted name read absent).Yields (given fields) (value?.getD absent) := by
  have yields : (defaulted name read absent).Yields (given fields)
      ((value?.map id).getD absent) :=
    yields_given distinct among fun value _ => takes value
  rwa [Option.map_id, id] at yields

namespace Reader

theorem exists_leaf_of_content?
    {doc : Doc}
    (value : Scalar)
    (said : doc.content? = some value.toJson) :
    ∃ span, doc = .leaf value span := by
  obtain ⟨other, span, rfl, same⟩ | ⟨_, _, _, -, -, different⟩ | ⟨_, _, _, -, -, different⟩ :=
    Doc.cases_of_content? said
  · refine ⟨span, ?_⟩
    cases value <;> cases other <;> cases same <;> rfl
  · cases value <;> cases different
  · cases value <;> cases different

/-- A reader takes a scalar if it takes it wherever it stands. -/
theorem takes_of_leaf
    {α : Type}
    {read : Reader α}
    {a : α}
    (value : Scalar)
    (reads : ∀ span, read (.leaf value span) = .ok a) :
    read.Takes value.toJson a := by
  intro doc said
  obtain ⟨span, rfl⟩ := exists_leaf_of_content? value said
  exact reads span

theorem real_takes_real (x : Float) : real.Takes (.real x) x :=
  takes_of_leaf (.real x) fun _ => rfl

theorem real_takes_integer {n : ℤ} (fits : fitsWord n = true) :
    real.Takes (.integer n) (Float.ofInt n) := by
  refine takes_of_leaf (.integer n) fun span => ?_
  rw [real, if_pos fits]

theorem integer_takes
    {least greatest n : ℤ}
    (expected : String)
    (within : least ≤ n ∧ n ≤ greatest) :
    Takes (integer least greatest expected) (.integer n) n := by
  refine takes_of_leaf (.integer n) fun span => ?_
  rw [integer, if_pos within]

theorem int32_takes (n : Int32) : int32.Takes (.integer n.toInt) n := by
  intro doc said
  rw [int32, integer_takes "i32" ⟨n.minValue_le_toInt, n.toInt_le⟩ doc said]
  exact congrArg Except.ok (Int32.ofInt_toInt n)

theorem int64_takes (n : Int64) : int64.Takes (.integer n.toInt) n := by
  intro doc said
  rw [int64, integer_takes "i64" ⟨n.minValue_le_toInt, n.toInt_le⟩ doc said]
  exact congrArg Except.ok (Int64.ofInt_toInt n)

end Reader
end WindsAloft
