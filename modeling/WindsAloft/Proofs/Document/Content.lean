import WindsAloft.Json.Value
import WindsAloft.Proofs.Document.Members

/-!
# What documents say

A document without flaws stands for a value, which does not depend on the stretches of
text that its parts come from.  A record is read from a document through that value
alone, and from the members of an object by their names: neither their order matters
nor what other members there are.
-/

namespace WindsAloft

/-- The value that a scalar is. -/
def Scalar.toJson : Scalar → Json
  | .null => .null
  | .bool b => .bool b
  | .integer n => .integer n
  | .real x => .real x
  | .text s => .text s

mutual

/-- The value of a document, if nothing in it is flawed. -/
def Doc.content? : Doc → Option Json
  | .leaf value _ => some value.toJson
  | .flawed _ _ _ _ => none
  | .overflow _ _ => none
  | .list _ items => items.contents?.map .list
  | .object _ members => members.contents?.map .object

/-- The values of items. -/
def Items.contents? : Items → Option (List Json)
  | .closed _ => some []
  | .item _ value rest => value.content?.bind fun item => rest.contents?.map (item :: ·)
  | .broken _ _ _ => none

/-- The names and values of members. -/
def Members.contents? : Members → Option (List (String × Json))
  | .closed _ => some []
  | .member key value _ rest =>
      key.name.toOption.bind fun name =>
        value.content?.bind fun item => rest.contents?.map ((name, item) :: ·)
  | .broken _ _ _ => none

end

theorem Members.contents?_member_eq_some
    {key : Key}
    {value : Doc}
    {follow : ℕ}
    {rest : Members}
    {entries : List (String × Json)} :
    (Members.member key value follow rest).contents? = some entries ↔
      ∃ name item others, key.name = .ok name ∧ value.content? = some item ∧
        rest.contents? = some others ∧ entries = (name, item) :: others := by
  simp only [Members.contents?, Option.bind_eq_some_iff, Option.map_eq_some_iff]
  constructor
  · rintro ⟨name, named, item, said, others, more, rfl⟩
    cases read : key.name with
    | error fault =>
        rw [read] at named
        cases named
    | ok _ =>
        rw [read] at named
        obtain rfl := Option.some.inj named
        exact ⟨_, item, others, rfl, said, more, rfl⟩
  · rintro ⟨name, item, others, named, said, more, rfl⟩
    rw [named]
    exact ⟨name, rfl, item, said, others, more, rfl⟩

/-- Members without flaws are whole, and their names and values are those of the entries. -/
theorem Members.whole_of_contents?
    {entries : List (String × Json)}
    (members : Members)
    (said : members.contents? = some entries) :
    members.Whole ∧
      List.Forall₂ (fun pair entry => pair.1 = entry.1 ∧ pair.2.content? = some entry.2)
        members.pairs entries := by
  match members with
  | .closed _ =>
      rw [Members.contents?] at said
      obtain rfl := Option.some.inj said
      exact ⟨trivial, .nil⟩
  | .broken _ _ _ =>
      rw [Members.contents?] at said
      cases said
  | .member key value follow rest =>
      obtain ⟨name, item, others, named, first, more, rfl⟩ :=
        Members.contents?_member_eq_some.mp said
      obtain ⟨whole, same⟩ := Members.whole_of_contents? rest more
      rw [Members.pairs_member named]
      exact ⟨⟨⟨name, named⟩, whole⟩, .cons ⟨rfl, first⟩ same⟩

section Said

variable {members : Members} {entries : List (String × Json)} {name : String}

theorem Members.names_of_contents? (said : members.contents? = some entries) :
    members.names = entries.map Prod.fst := by
  have same := (Members.whole_of_contents? members said).2
  have names : List.Forall₂ (· = ·) (members.pairs.map Prod.fst) (entries.map Prod.fst) :=
    List.forall₂_map_left_iff.mpr
      (List.forall₂_map_right_iff.mpr (same.imp fun _ _ agree => agree.1))
  exact List.forall₂_eq_eq_eq ▸ names

theorem Members.exists_entry_of_contents?
    {doc : Doc}
    (said : members.contents? = some entries)
    (there : (name, doc) ∈ members.pairs) :
    ∃ item, (name, item) ∈ entries ∧ doc.content? = some item := by
  have same := (Members.whole_of_contents? members said).2
  clear said
  generalize members.pairs = pairs at same there
  induction same with
  | nil => cases there
  | @cons pair entry _ _ agree _ ih =>
      rcases List.mem_cons.mp there with rfl | later
      · obtain ⟨rfl, saidItem⟩ := agree
        exact ⟨entry.2, List.mem_cons_self, saidItem⟩
      · obtain ⟨item, inside, saidItem⟩ := ih later
        exact ⟨item, List.mem_cons_of_mem _ inside, saidItem⟩

theorem Members.exists_pair_of_contents?
    {item : Json}
    (said : members.contents? = some entries)
    (there : (name, item) ∈ entries) :
    ∃ doc, (name, doc) ∈ members.pairs ∧ doc.content? = some item := by
  have same := (Members.whole_of_contents? members said).2
  clear said
  generalize members.pairs = pairs at same ⊢
  induction same with
  | nil => cases there
  | @cons pair entry _ _ agree _ ih =>
      rcases List.mem_cons.mp there with rfl | later
      · obtain ⟨rfl, saidItem⟩ := agree
        exact ⟨pair.2, List.mem_cons_self, saidItem⟩
      · obtain ⟨doc, inside, saidItem⟩ := ih later
        exact ⟨doc, List.mem_cons_of_mem _ inside, saidItem⟩

end Said

mutual

/-- Whoever does not want a value without flaws can pass over it. -/
theorem Doc.skip_of_content? {item : Json} (doc : Doc) (said : doc.content? = some item) :
    doc.skip = .ok () := by
  match doc with
  | .leaf _ _ => rw [Doc.skip]
  | .flawed _ _ _ _ => rw [Doc.content?] at said; cases said
  | .overflow _ _ => rw [Doc.content?] at said; cases said
  | .list _ items =>
      rw [Doc.content?] at said
      obtain ⟨_, inside, -⟩ := Option.map_eq_some_iff.mp said
      rw [Doc.skip, Doc.skipItems_of_contents? items inside]
  | .object _ members =>
      rw [Doc.content?] at said
      obtain ⟨_, inside, -⟩ := Option.map_eq_some_iff.mp said
      rw [Doc.skip, Doc.skipMembers_of_contents? members inside]

theorem Doc.skipItems_of_contents?
    {list : List Json}
    (items : Items)
    (said : items.contents? = some list) :
    Doc.skipItems items = .ok () := by
  match items with
  | .closed _ => rw [Doc.skipItems]
  | .item _ value rest =>
      rw [Items.contents?] at said
      obtain ⟨_, first, more⟩ := Option.bind_eq_some_iff.mp said
      obtain ⟨_, others, -⟩ := Option.map_eq_some_iff.mp more
      simp only [Doc.skipItems, Doc.skip_of_content? value first,
        Doc.skipItems_of_contents? rest others]
  | .broken _ _ _ => rw [Items.contents?] at said; cases said

theorem Doc.skipMembers_of_contents?
    {entries : List (String × Json)}
    (members : Members)
    (said : members.contents? = some entries) :
    Doc.skipMembers members = .ok () := by
  match members with
  | .closed _ => rw [Doc.skipMembers]
  | .member key value _ rest =>
      obtain ⟨_, _, _, -, first, others, -⟩ := Members.contents?_member_eq_some.mp said
      simp only [Doc.skipMembers, Doc.skip_of_content? value first,
        Doc.skipMembers_of_contents? rest others]
  | .broken _ _ _ => rw [Members.contents?] at said; cases said

end

/-- What a document without flaws is, and what its value is made of. -/
theorem Doc.cases_of_content? {doc : Doc} {item : Json} (said : doc.content? = some item) :
    (∃ value span, doc = .leaf value span ∧ item = value.toJson) ∨
      (∃ span items list, doc = .list span items ∧ items.contents? = some list ∧
        item = .list list) ∨
      ∃ span members entries, doc = .object span members ∧ members.contents? = some entries ∧
        item = .object entries := by
  cases doc with
  | leaf value span =>
      rw [Doc.content?] at said
      exact .inl ⟨value, span, rfl, (Option.some.inj said).symm⟩
  | flawed _ _ _ _ => rw [Doc.content?] at said; cases said
  | overflow _ _ => rw [Doc.content?] at said; cases said
  | list span items =>
      rw [Doc.content?] at said
      obtain ⟨list, inside, same⟩ := Option.map_eq_some_iff.mp said
      exact .inr (.inl ⟨span, items, list, rfl, inside, same.symm⟩)
  | object span members =>
      rw [Doc.content?] at said
      obtain ⟨entries, inside, same⟩ := Option.map_eq_some_iff.mp said
      exact .inr (.inr ⟨span, members, entries, rfl, inside, same.symm⟩)

/-- What says an object is one. -/
theorem Doc.exists_object_of_content?
    {doc : Doc}
    {entries : List (String × Json)}
    (said : doc.content? = some (.object entries)) :
    ∃ span members, doc = .object span members ∧ members.contents? = some entries := by
  obtain ⟨value, _, -, different⟩ | ⟨_, _, _, -, -, different⟩ |
    ⟨span, members, _, rfl, inside, same⟩ := Doc.cases_of_content? said
  · cases value <;> cases different
  · cases different
  · obtain rfl := Json.object.inj same
    exact ⟨span, members, rfl, inside⟩

/-- A reader makes the same of every document with a given value. -/
def Reader.Takes {α : Type} (read : Reader α) (item : Json) (a : α) : Prop :=
  ∀ doc : Doc, doc.content? = some item → read doc = .ok a

namespace Part

variable {α β : Type} {entries : List (String × Json)}

/-- What a name leads to is what the entries say of it. -/
def Agrees (entries : List (String × Json)) (values : String → Option Doc) (name : String) : Prop :=
  (∀ item, (name, item) ∈ entries → ∃ doc, values name = some doc ∧ doc.content? = some item) ∧
    (name ∉ entries.map Prod.fst → values name = none)

/-- All entries pass the tests of their fields, and from them something certain is built. -/
structure Yields (part : Part α) (entries : List (String × Json)) (a : α) : Prop where
  check : ∀ field ∈ part.fields, ∀ item, (field.name, item) ∈ entries →
    ∀ doc : Doc, doc.content? = some item → field.check doc = .ok ()
  build : ∀ span values, (∀ field ∈ part.fields, Agrees entries values field.name) →
    part.build span values = .ok a

theorem yields_pure (a : α) : Yields (pure a) entries a where
  check _ among := nomatch among
  build _ _ _ := rfl

theorem Yields.seq
    {f : Part (α → β)}
    {part : Part α}
    {g : α → β}
    {a : α}
    (left : f.Yields entries g)
    (right : part.Yields entries a) :
    Yields (f <*> part) entries (g a) where
  check field among := by
    rcases List.mem_append.mp among with inLeft | inRight
    · exact left.check field inLeft
    · exact right.check field inRight
  build span values agree := by
    have builtLeft := left.build span values fun field among =>
      agree field (List.mem_append_left _ among)
    have builtRight := right.build span values fun field among =>
      agree field (List.mem_append_right _ among)
    simp only [Seq.seq, builtLeft, builtRight, Except.map]

theorem Yields.map {part : Part α} {a : α} (f : α → β) (yields : part.Yields entries a) :
    Yields (f <$> part) entries (f a) :=
  (yields_pure f).seq yields

theorem checkBy_of_takes {read : Reader α} {item : Json} {a : α} (takes : read.Takes item a) :
    ∀ doc : Doc, doc.content? = some item → checkBy read doc = .ok () := by
  intro doc said
  rw [checkBy, takes doc said]
  rfl

/-- A field with a default that is there. -/
theorem yields_defaulted
    {name : String}
    {read : Reader α}
    {absent a : α}
    {item : Json}
    (distinct : (entries.map Prod.fst).Nodup)
    (there : (name, item) ∈ entries)
    (takes : read.Takes item a) :
    (defaulted name read absent).Yields entries a where
  check field among other otherThere := by
    obtain rfl := List.mem_singleton.mp among
    obtain rfl : item = other :=
      congrArg Prod.snd (List.inj_on_of_nodup_map distinct there otherThere rfl)
    exact checkBy_of_takes takes
  build span values agree := by
    obtain ⟨doc, found, said⟩ := (agree _ (List.mem_singleton_self _)).1 item there
    simp only [defaulted, found]
    exact takes doc said

/-- A field with a default that is not there. -/
theorem yields_default
    {name : String}
    {read : Reader α}
    {absent : α}
    (missing : name ∉ entries.map Prod.fst) :
    (defaulted name read absent).Yields entries absent where
  check field among item there := by
    obtain rfl := List.mem_singleton.mp among
    exact absurd (List.mem_map_of_mem there) missing
  build span values agree := by
    have none := (agree _ (List.mem_singleton_self _)).2 missing
    simp only [defaulted, none]

/-- The order of the entries does not matter. -/
theorem Yields.of_perm
    {others : List (String × Json)}
    {part : Part α}
    {a : α}
    (yields : part.Yields entries a)
    (same : others.Perm entries) :
    part.Yields others a where
  check field among item there := yields.check field among item (same.mem_iff.mp there)
  build span values agree := by
    refine yields.build span values fun field among => ⟨fun item there => ?_, fun missing => ?_⟩
    · exact (agree field among).1 item (same.mem_iff.mpr there)
    · exact (agree field among).2 (mt (same.map Prod.fst).mem_iff.mp missing)

/-- An entry that no field asks for changes nothing. -/
theorem Yields.cons
    {part : Part α}
    {a : α}
    {name : String}
    {item : Json}
    (yields : part.Yields entries a)
    (unasked : ∀ field ∈ part.fields, field.name ≠ name) :
    part.Yields ((name, item) :: entries) a where
  check field among other there := by
    rcases List.mem_cons.mp there with same | later
    · exact absurd (congrArg Prod.fst same) (unasked field among)
    · exact yields.check field among other later
  build span values agree := by
    refine yields.build span values fun field among => ⟨fun other there => ?_, fun missing => ?_⟩
    · exact (agree field among).1 other (List.mem_cons_of_mem _ there)
    · refine (agree field among).2 fun there => ?_
      rcases List.mem_cons.mp there with same | later
      · exact unasked field among same
      · exact missing later

end Part

/-- What entries of different names yield is made of the members that say them. -/
theorem Part.Yields.makes
    {α : Type}
    {part : Part α}
    {members : Members}
    {entries : List (String × Json)}
    {a : α}
    (yields : part.Yields entries a)
    (distinct : (entries.map Prod.fst).Nodup)
    (said : members.contents? = some entries) :
    part.Makes members.pairs a where
  check field among doc there := by
    obtain ⟨item, inside, saidItem⟩ := Members.exists_entry_of_contents? said there
    exact yields.check field among item inside doc saidItem
  build span values same := by
    have names := Members.names_of_contents? said
    have unrepeated : Unrepeated (entries.map Prod.fst) members.pairs :=
      unrepeated_of_nodup (by rw [← names] at distinct; exact distinct)
    refine yields.build span values fun field among => ⟨fun item inside => ?_, fun missing => ?_⟩
    · obtain ⟨doc, there, saidItem⟩ := Members.exists_pair_of_contents? said inside
      refine ⟨doc, ?_, saidItem⟩
      rw [same field among]
      exact unrepeated.lookup (List.mem_map_of_mem inside) there
    · rw [same field among]
      exact lookup_eq_none (by rw [← names] at missing; exact missing)

namespace Layout

/-- What a layout reads from the members of an object. -/
theorem takes_of_yields
    {α : Type}
    {layout : Layout α}
    {entries : List (String × Json)}
    {a : α}
    (distinct : (entries.map Prod.fst).Nodup)
    (yields : layout.part.Yields entries a) :
    Reader.Takes layout.read (.object entries) a := by
  intro doc said
  obtain ⟨span, members, rfl, inside⟩ := Doc.exists_object_of_content? said
  refine readMembers_of_makes (Members.whole_of_contents? members inside).1 ?_ ?_
    (yields.makes distinct inside)
  · rw [← Members.names_of_contents? inside] at distinct
    exact unrepeated_of_nodup distinct
  · intro name doc there _
    obtain ⟨item, -, saidItem⟩ := Members.exists_entry_of_contents? inside there
    exact Doc.skip_of_content? doc saidItem

end Layout
end WindsAloft
