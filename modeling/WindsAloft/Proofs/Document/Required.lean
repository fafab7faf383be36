import WindsAloft.Proofs.Document.Given

/-!
# Fields that have to be there

A record whose fields have no defaults is read from an object that has all of them, at
whatever places and among whatever others.  One member that its field cannot take is
enough for the whole object to be refused.
-/

namespace WindsAloft

namespace Part

variable {α : Type} {entries : List (String × Json)}

/-- A field that has to be there, and is there. -/
theorem yields_required
    {name : String}
    {read : Reader α}
    {a : α}
    {item : Json}
    (distinct : (entries.map Prod.fst).Nodup)
    (there : (name, item) ∈ entries)
    (takes : read.Takes item a) :
    (required name read).Yields entries a where
  check field among other otherThere := by
    obtain rfl := List.mem_singleton.mp among
    obtain rfl : item = other :=
      congrArg Prod.snd (List.inj_on_of_nodup_map distinct there otherThere rfl)
    exact checkBy_of_takes takes
  build span values agree := by
    obtain ⟨doc, found, said⟩ := (agree _ (List.mem_singleton_self _)).1 item there
    simp only [required, found]
    exact takes doc said

end Part

namespace Reader

theorem bool_takes (b : Bool) : bool.Takes (.bool b) b :=
  takes_of_leaf (.bool b) fun _ => rfl

theorem count_takes {n : ℕ} (expected : String) (small : n < UInt64.size) :
    (count expected).Takes (.integer n) n := by
  intro doc said
  rw [count, integer_takes expected ⟨Int.natCast_nonneg n, by omega⟩ doc said]
  rfl

/-- A reader takes no document with a given value. -/
def Refuses {α : Type} (read : Reader α) (item : Json) : Prop :=
  ∀ doc : Doc, doc.content? = some item → ∃ fault, read doc = .error fault

theorem real_refuses_null : real.Refuses .null := by
  intro doc said
  obtain ⟨span, rfl⟩ := exists_leaf_of_content? .null said
  exact ⟨_, rfl⟩

end Reader

namespace Layout

/-- An object is refused where one of its members is. -/
theorem refuses_of_member
    {α β : Type}
    {layout : Layout α}
    {name : String}
    {read : Reader β}
    {entries : List (String × Json)}
    {item : Json}
    (known : layout.part.fields.find? (fun field => field.name = name) =
      some ⟨name, Part.checkBy read⟩)
    (there : (name, item) ∈ entries)
    (refuses : read.Refuses item) :
    Reader.Refuses layout.read (.object entries) := by
  intro doc said
  obtain ⟨span, members, rfl, inside⟩ := Doc.exists_object_of_content? said
  obtain ⟨value, among, saidItem⟩ := Members.exists_pair_of_contents? inside there
  exact readMembers_of_failed known among (refuses value saidItem)

end Layout
end WindsAloft
