import WindsAloft.Proofs.Document.Required

/-!
# Documents that show a value

Many documents show one and the same value: the members of an object can stand in any
order and among others, a member that is null can be left out, and a double can be
written as an integer.  A record whose fields are the members of a value is read alike
from all documents that show it.
-/

namespace WindsAloft

namespace Doc

/-- A double, or an integer that will do as well. -/
def IsReal (x : Float) : Doc → Prop
  | leaf (.real y) _ => y = x
  | leaf (.integer n) _ => Reader.fitsWord n = true ∧ Float.ofInt n = x
  | _ => False

/-- Null, a truth value, a number or a string. -/
def IsLeaf : Doc → Prop
  | leaf _ _ => True
  | _ => False

/-- The same, or a number out of range or a string with stray surrogates, which nobody can read. -/
def IsScalar : Doc → Prop
  | leaf _ _ => True
  | flawed _ _ _ none => True
  | _ => False

variable {doc : Doc} {x : Float}

theorem IsReal.read (isReal : doc.IsReal x) : Reader.real doc = .ok x := by
  cases doc with
  | leaf value span =>
      cases value with
      | real y => exact congrArg Except.ok isReal
      | integer n =>
          obtain ⟨fits, rfl⟩ := isReal
          rw [Reader.real, if_pos fits]
      | _ => exact False.elim isReal
  | _ => exact False.elim isReal

theorem IsReal.isLeaf (isReal : doc.IsReal x) : doc.IsLeaf := by
  cases doc with
  | leaf _ _ => exact trivial
  | _ => exact isReal

theorem IsLeaf.isScalar (isLeaf : doc.IsLeaf) : doc.IsScalar := by
  cases doc with
  | leaf _ _ => exact trivial
  | _ => exact False.elim isLeaf

theorem IsScalar.skip (isScalar : doc.IsScalar) : doc.skip = .ok () := by
  cases doc with
  | leaf _ _ => rw [Doc.skip]
  | flawed start isWord whenRead whenSkipped =>
      cases whenSkipped with
      | none => rw [Doc.skip]
      | some _ => exact False.elim isScalar
  | _ => exact False.elim isScalar

theorem IsLeaf.readThrough (isLeaf : doc.IsLeaf) (depth : ℕ) : doc.readThrough depth = .ok () := by
  cases doc with
  | leaf _ _ => rw [Doc.readThrough]
  | _ => exact False.elim isLeaf

end Doc

namespace Json

/-- Whether a value has no parts. -/
def IsScalar : Json → Prop
  | .list _ => False
  | .object _ => False
  | _ => True

/-- Only a scalar says a scalar. -/
theorem IsScalar.isLeaf
    {item : Json}
    {doc : Doc}
    (scalar : item.IsScalar)
    (said : doc.content? = some item) :
    doc.IsLeaf := by
  obtain ⟨_, _, rfl, -⟩ | ⟨_, _, _, -, -, rfl⟩ | ⟨_, _, _, -, -, rfl⟩ :=
    Doc.cases_of_content? said
  · exact trivial
  · exact False.elim scalar
  · exact False.elim scalar

mutual

/--
A document shows a value.  To show an object is to have each member of it once, in
whatever place, besides others under other names, which are extras of some kind; a member
that is null need not be there.
-/
def ShownIn (extra : Doc → Prop) : Json → Doc → Prop
  | .object entries, doc =>
      ∃ span members, doc = .object span members ∧ members.Whole ∧
        Unrepeated (entries.map Prod.fst) members.pairs ∧
        (∀ name other, (name, other) ∈ members.pairs → name ∉ entries.map Prod.fst →
          extra other) ∧
        ShownAmong extra entries members.pairs
  | .real x, doc => doc.IsReal x
  | json, doc => doc.content? = some json

/-- Each of some members is there and shows its value, or it is null and is not there. -/
def ShownAmong (extra : Doc → Prop) : List (String × Json) → List (String × Doc) → Prop
  | [], _ => True
  | (name, item) :: entries, pairs =>
      ((∃ doc, (name, doc) ∈ pairs ∧ ShownIn extra item doc) ∨
        item = .null ∧ name ∉ pairs.map Prod.fst) ∧
        ShownAmong extra entries pairs

/-- No object in a value has two members of one name. -/
def Distinct : Json → Prop
  | .object entries => (entries.map Prod.fst).Nodup ∧ DistinctMembers entries
  | _ => True

/-- The same for the values of members. -/
def DistinctMembers : List (String × Json) → Prop
  | [] => True
  | (_, item) :: entries => Distinct item ∧ DistinctMembers entries

end

mutual

/-- What says a value shows it. -/
theorem shownIn_of_content? (extra : Doc → Prop) :
    (json : Json) → (doc : Doc) → json.Distinct → doc.content? = some json →
      json.ShownIn extra doc
  | .object entries, doc, distinct, said => by
      obtain ⟨span, members, rfl, inside⟩ := Doc.exists_object_of_content? said
      have names := Members.names_of_contents? inside
      rw [Distinct, ← names] at distinct
      rw [ShownIn]
      refine ⟨span, members, rfl, (Members.whole_of_contents? members inside).1,
        unrepeated_of_nodup distinct.1, fun name other there unknown => ?_, ?_⟩
      · rw [← names] at unknown
        exact absurd (List.mem_map_of_mem there) unknown
      · exact shownAmong_of_contents? extra entries members.pairs distinct.2
          fun name item among => Members.exists_pair_of_contents? inside among
  | .real x, doc, _, said => by
      obtain ⟨span, rfl⟩ := Reader.exists_leaf_of_content? (.real x) said
      rw [ShownIn]
      exact rfl
  | .null, _, _, said => by rw [ShownIn]; exacts [said, nofun, nofun]
  | .bool _, _, _, said => by rw [ShownIn]; exacts [said, nofun, nofun]
  | .integer _, _, _, said => by rw [ShownIn]; exacts [said, nofun, nofun]
  | .text _, _, _, said => by rw [ShownIn]; exacts [said, nofun, nofun]
  | .list _, _, _, said => by rw [ShownIn]; exacts [said, nofun, nofun]

theorem shownAmong_of_contents? (extra : Doc → Prop) :
    (entries : List (String × Json)) → (pairs : List (String × Doc)) → DistinctMembers entries →
      (∀ name item, (name, item) ∈ entries →
        ∃ doc, (name, doc) ∈ pairs ∧ doc.content? = some item) →
      ShownAmong extra entries pairs
  | [], _, _, _ => by rw [ShownAmong]; exact trivial
  | (name, item) :: entries, pairs, distinct, there => by
      rw [DistinctMembers] at distinct
      rw [ShownAmong]
      obtain ⟨doc, among, said⟩ := there name item List.mem_cons_self
      exact ⟨.inl ⟨doc, among, shownIn_of_content? extra item doc distinct.1 said⟩,
        shownAmong_of_contents? extra entries pairs distinct.2
          fun other inside later => there other inside (List.mem_cons_of_mem _ later)⟩

end

/-- Only a scalar shows a scalar. -/
theorem IsScalar.isLeaf_of_shownIn
    {extra : Doc → Prop}
    {item : Json}
    {doc : Doc}
    (scalar : item.IsScalar)
    (shown : item.ShownIn extra doc) :
    doc.IsLeaf := by
  cases item with
  | real x => exact Doc.IsReal.isLeaf shown
  | list _ => exact False.elim scalar
  | object _ => exact False.elim scalar
  | _ => exact scalar.isLeaf shown

/-- What says the members of an object in any order among other scalars shows the object. -/
theorem shownIn_of_arranged
    {extra : Doc → Prop}
    {entries others arranged : List (String × Json)}
    {doc : Doc}
    (distinct : (Json.object entries).Distinct)
    (order : arranged.Perm (entries ++ others))
    (unknown : ∀ other ∈ others, other.1 ∉ entries.map Prod.fst ∧ other.2.IsScalar)
    (leaves : ∀ leaf : Doc, leaf.IsLeaf → extra leaf)
    (said : doc.content? = some (.object arranged)) :
    (Json.object entries).ShownIn extra doc := by
  obtain ⟨span, members, rfl, inside⟩ := Doc.exists_object_of_content? said
  rw [Distinct] at distinct
  obtain ⟨different, distinctInside⟩ := distinct
  rw [ShownIn]
  refine ⟨span, members, rfl, (Members.whole_of_contents? members inside).1, ?_,
    fun name doc there isOther => ?_, ?_⟩
  · have names : (members.pairs.map Prod.fst).Perm
        (entries.map Prod.fst ++ others.map Prod.fst) := by
      rw [← List.map_append]
      exact (List.Perm.of_eq (Members.names_of_contents? inside)).trans (order.map Prod.fst)
    refine unrepeated_of_perm names different fun name among => ?_
    obtain ⟨other, inOthers, rfl⟩ := List.mem_map.mp among
    exact (unknown other inOthers).1
  · obtain ⟨item, among, saidItem⟩ := Members.exists_entry_of_contents? inside there
    rcases List.mem_append.mp (order.mem_iff.mp among) with inEntries | inOthers
    · exact absurd (List.mem_map_of_mem inEntries) isOther
    · exact leaves doc ((unknown _ inOthers).2.isLeaf saidItem)
  · refine shownAmong_of_contents? extra entries members.pairs distinctInside
      fun name item among => ?_
    exact Members.exists_pair_of_contents? inside
      (order.mem_iff.mpr (List.mem_append_left _ among))

end Json

namespace Part

variable {α : Type} {extra : Doc → Prop} {known : List String} {pairs : List (String × Doc)}
  {name : String}

/-- A field that has to be there, and whose value is shown. -/
theorem makes_required_of_shown
    {read : Reader α}
    {item : Json}
    {a : α}
    (unrepeated : Unrepeated known pairs)
    (shown : (∃ doc, (name, doc) ∈ pairs ∧ item.ShownIn extra doc) ∨
      item = .null ∧ name ∉ pairs.map Prod.fst)
    (isKnown : name ∈ known)
    (notNull : item ≠ .null)
    (reads : ∀ doc, item.ShownIn extra doc → read doc = .ok a) :
    (required name read).Makes pairs a := by
  obtain ⟨doc, there, shows⟩ := shown.resolve_right fun missing => notNull missing.1
  exact makes_required unrepeated isKnown there (reads doc shows)

/-- A double that has to be there. -/
theorem makes_real_of_shown
    {x : Float}
    (unrepeated : Unrepeated known pairs)
    (shown : (∃ doc, (name, doc) ∈ pairs ∧ (Json.real x).ShownIn extra doc) ∨
      Json.real x = .null ∧ name ∉ pairs.map Prod.fst)
    (isKnown : name ∈ known) :
    (required name Reader.real).Makes pairs x :=
  makes_required_of_shown unrepeated shown isKnown nofun fun _ => Doc.IsReal.read

/-- A double that may be null, or not be there at all. -/
theorem makes_optional_of_shown
    {x? : Option Float}
    (unrepeated : Unrepeated known pairs)
    (shown : (∃ doc, (name, doc) ∈ pairs ∧ (Json.ofOption .real x?).ShownIn extra doc) ∨
      Json.ofOption .real x? = .null ∧ name ∉ pairs.map Prod.fst)
    (isKnown : name ∈ known) :
    (optional name Reader.real).Makes pairs x? := by
  cases x? with
  | none =>
      rcases shown with ⟨doc, there, shows⟩ | ⟨-, missing⟩
      · obtain ⟨span, rfl⟩ := Reader.exists_leaf_of_content? .null shows
        exact makes_defaulted unrepeated isKnown there rfl
      · exact makes_default missing
  | some x =>
      obtain ⟨doc, there, shows⟩ := shown.resolve_right fun missing => nomatch missing.1
      refine makes_defaulted unrepeated isKnown there ?_
      have read : Reader.real doc = .ok x := Doc.IsReal.read shows
      have notNull : ∀ span, doc ≠ .leaf .null span := by
        rintro span rfl
        exact False.elim shows
      rw [Reader.nullable, read]
      · rfl
      · exact notNull

end Part

/-- An object is read from every document that shows it. -/
theorem Layout.read_of_shown
    {α : Type}
    {layout : Layout α}
    {extra : Doc → Prop}
    {entries : List (String × Json)}
    {doc : Doc}
    {a : α}
    (sameNames : layout.part.names = entries.map Prod.fst)
    (passable : ∀ other, extra other → other.IsScalar)
    (makes : ∀ pairs, Unrepeated (entries.map Prod.fst) pairs →
      Json.ShownAmong extra entries pairs → layout.part.Makes pairs a)
    (shown : (Json.object entries).ShownIn extra doc) :
    layout.read doc = .ok a := by
  rw [Json.ShownIn] at shown
  obtain ⟨span, members, rfl, whole, unrepeated, others, among⟩ := shown
  rw [← sameNames] at others
  refine Layout.readMembers_of_makes whole (sameNames ▸ unrepeated) ?_
    (makes members.pairs unrepeated among)
  exact fun name other there unknown => (passable other (others name other there unknown)).skip

namespace Doc

/-- To be an object without one of some members. -/
def Lacks (names : List String) : Doc → Prop
  | object _ members => ∃ name ∈ names, name ∉ members.names
  | _ => False

/-- To be an object with a member of some kind. -/
def HasMember (name : String) (kind : Doc → Prop) : Doc → Prop
  | object _ members => ∃ doc, (name, doc) ∈ members.pairs ∧ kind doc
  | _ => False

end Doc

namespace Layout

variable {α : Type} {layout : Layout α} {doc : Doc}

/-- A record without a member that it has to have is refused. -/
theorem refuses_of_lacks
    {names : List String}
    (demands : layout.part.Demands names)
    (lacks : doc.Lacks names) :
    ∃ fault, layout.read doc = .error fault := by
  cases doc with
  | object span members =>
      obtain ⟨name, among, missing⟩ := lacks
      exact readMembers_of_demands demands among missing
  | _ => exact False.elim lacks

/-- A record with a member that is refused is refused. -/
theorem refuses_of_hasMember
    {β : Type}
    {name : String}
    {read : Reader β}
    {kind : Doc → Prop}
    (known : layout.part.fields.find? (fun field => field.name = name) =
      some ⟨name, Part.checkBy read⟩)
    (refuses : ∀ value, kind value → ∃ fault, read value = .error fault)
    (has : doc.HasMember name kind) :
    ∃ fault, layout.read doc = .error fault := by
  cases doc with
  | object span members =>
      obtain ⟨value, there, isKind⟩ := has
      exact readMembers_of_failed known there (refuses value isKind)
  | _ => exact False.elim has

end Layout
end WindsAloft
