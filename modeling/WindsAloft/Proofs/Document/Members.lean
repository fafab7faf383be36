import Mathlib
import WindsAloft.Document.Layout

/-!
# Members by their names

A record is read from the members of an object by their names.  Where every name can be
read, no known name comes twice and whatever is unknown can be passed over, all that
counts is what the known names lead to; where the members stand makes no difference.  A
member that its field cannot take, and a field that has to be there and is not, are each
enough for the whole object to be refused.
-/

namespace WindsAloft

namespace Members

/-- The names and values of members, where the name can be read. -/
def pairs : Members → List (String × Doc)
  | .closed _ => []
  | .member key value _ rest =>
      match key.name with
      | .ok name => (name, value) :: rest.pairs
      | .error _ => rest.pairs
  | .broken _ _ _ => []

/-- The names of members, where they can be read. -/
def names (members : Members) : List String :=
  members.pairs.map Prod.fst

/-- All names can be read, and nothing goes wrong before the end of the object. -/
def Whole : Members → Prop
  | .closed _ => True
  | .member key _ _ rest => (∃ name, key.name = .ok name) ∧ rest.Whole
  | .broken _ _ _ => False

theorem pairs_member
    {key : Key}
    {name : String}
    (named : key.name = .ok name)
    (value : Doc)
    (follow : ℕ)
    (rest : Members) :
    (Members.member key value follow rest).pairs = (name, value) :: rest.pairs := by
  rw [pairs, named]

theorem names_member
    {key : Key}
    {name : String}
    (named : key.name = .ok name)
    (value : Doc)
    (follow : ℕ)
    (rest : Members) :
    (Members.member key value follow rest).names = name :: rest.names := by
  rw [names, pairs_member named, List.map_cons, names]

end Members

section Unrepeated

variable {known : List String} {pairs : List (String × Doc)} {name : String} {doc : Doc}

/-- No known name comes twice. -/
def Unrepeated (known : List String) (pairs : List (String × Doc)) : Prop :=
  pairs.Pairwise fun pair other => pair.1 = other.1 → pair.1 ∉ known

theorem unrepeated_of_nodup (distinct : (pairs.map Prod.fst).Nodup) : Unrepeated known pairs :=
  (List.pairwise_map.mp distinct).imp fun different same => absurd same different

/-- Known names, each of them once, and unknown ones in any order. -/
theorem unrepeated_of_perm
    {others : List String}
    (order : (pairs.map Prod.fst).Perm (known ++ others))
    (distinct : known.Nodup)
    (unknown : ∀ other ∈ others, other ∉ known) :
    Unrepeated known pairs := by
  have symmetric {name other : String} (new : name = other → name ∉ known)
      (same : other = name) : other ∉ known :=
    same ▸ new same.symm
  refine List.pairwise_map.mp (?_ : (pairs.map Prod.fst).Pairwise fun name other =>
    name = other → name ∉ known)
  rw [order.pairwise_iff symmetric, List.pairwise_append]
  refine ⟨distinct.imp fun apart same => absurd same apart, ?_, ?_⟩
  · exact List.pairwise_of_forall_mem_list fun name among _ _ _ => unknown name among
  · rintro name among other inOthers rfl
    exact absurd among (unknown name inOthers)

theorem Unrepeated.mono
    {others : List (String × Doc)}
    {fewer : List String}
    (unrepeated : Unrepeated known pairs)
    (sublist : others.Sublist pairs)
    (among : ∀ name ∈ fewer, name ∈ known) :
    Unrepeated fewer others :=
  (unrepeated.sublist sublist).imp fun new same inside => new same (among _ inside)

/-- A known name has one value. -/
theorem Unrepeated.eq
    {other : Doc}
    (unrepeated : Unrepeated known pairs)
    (isKnown : name ∈ known)
    (left : (name, doc) ∈ pairs)
    (right : (name, other) ∈ pairs) :
    doc = other := by
  by_contra different
  have symmetric : Std.Symm fun pair other : String × Doc =>
      pair.1 = other.1 → pair.1 ∉ known := by
    refine ⟨fun pair other new same => ?_⟩
    rw [same]
    exact new same.symm
  have apart := List.Pairwise.forall unrepeated left right
    fun same => different (congrArg Prod.snd same)
  exact apart rfl isKnown

theorem Unrepeated.lookup
    (unrepeated : Unrepeated known pairs)
    (isKnown : name ∈ known)
    (there : (name, doc) ∈ pairs) :
    pairs.lookup name = some doc := by
  cases found : pairs.lookup name with
  | none =>
      have missing := List.lookup_eq_none_iff.mp found _ there
      simp at missing
  | some other =>
      obtain ⟨before, after, rfl, -⟩ := List.lookup_eq_some_iff.mp found
      rw [unrepeated.eq isKnown there (List.mem_append_right _ List.mem_cons_self)]

theorem lookup_eq_none (missing : name ∉ pairs.map Prod.fst) : pairs.lookup name = none := by
  rw [List.lookup_eq_none_iff]
  intro pair there
  simpa using fun same : name = pair.1 => missing (same ▸ List.mem_map_of_mem there)

end Unrepeated

namespace Part

variable {α β : Type} {pairs : List (String × Doc)} {name : String}

/-- The names of the fields. -/
def names (part : Part α) : List String :=
  part.fields.map Field.name

/-- What the names of the fields lead to passes their tests, and something certain is built. -/
structure Makes (part : Part α) (pairs : List (String × Doc)) (a : α) : Prop where
  check : ∀ field ∈ part.fields, ∀ doc, (field.name, doc) ∈ pairs → field.check doc = .ok ()
  build : ∀ span values, (∀ field ∈ part.fields, values field.name = pairs.lookup field.name) →
    part.build span values = .ok a

theorem makes_pure (a : α) : Makes (pure a) pairs a where
  check _ among := nomatch among
  build _ _ _ := rfl

theorem Makes.seq
    {f : Part (α → β)}
    {part : Part α}
    {g : α → β}
    {a : α}
    (left : f.Makes pairs g)
    (right : part.Makes pairs a) :
    Makes (f <*> part) pairs (g a) where
  check field among := by
    rcases List.mem_append.mp among with inLeft | inRight
    · exact left.check field inLeft
    · exact right.check field inRight
  build span values same := by
    have builtLeft := left.build span values fun field among =>
      same field (List.mem_append_left _ among)
    have builtRight := right.build span values fun field among =>
      same field (List.mem_append_right _ among)
    simp only [Seq.seq, builtLeft, builtRight, Except.map]

theorem Makes.map {part : Part α} {a : α} (f : α → β) (makes : part.Makes pairs a) :
    Makes (f <$> part) pairs (f a) :=
  (makes_pure f).seq makes

section Fields

variable {known : List String} {read : Reader α} {doc : Doc} {a absent : α}

theorem checkBy_of_ok (reads : read doc = .ok a) : checkBy read doc = .ok () := by
  rw [checkBy, reads]
  rfl

/-- A field that has to be there, and is there. -/
theorem makes_required
    (unrepeated : Unrepeated known pairs)
    (isKnown : name ∈ known)
    (there : (name, doc) ∈ pairs)
    (reads : read doc = .ok a) :
    (required name read).Makes pairs a where
  check field among other otherThere := by
    obtain rfl := List.mem_singleton.mp among
    obtain rfl := unrepeated.eq isKnown there otherThere
    exact checkBy_of_ok reads
  build span values same := by
    have found := (same _ (List.mem_singleton_self _)).trans (unrepeated.lookup isKnown there)
    simp only [required, found]
    exact reads

/-- A field with a default that is there. -/
theorem makes_defaulted
    (unrepeated : Unrepeated known pairs)
    (isKnown : name ∈ known)
    (there : (name, doc) ∈ pairs)
    (reads : read doc = .ok a) :
    (defaulted name read absent).Makes pairs a where
  check := (makes_required unrepeated isKnown there reads).check
  build span values same := by
    have found := (same _ (List.mem_singleton_self _)).trans (unrepeated.lookup isKnown there)
    simp only [defaulted, found]
    exact reads

/-- A field with a default that is not there. -/
theorem makes_default (missing : name ∉ pairs.map Prod.fst) :
    (defaulted name read absent).Makes pairs absent where
  check field among other there := by
    obtain rfl := List.mem_singleton.mp among
    exact absurd (List.mem_map_of_mem there) missing
  build span values same := by
    have none := (same _ (List.mem_singleton_self _)).trans (lookup_eq_none missing)
    simp only [defaulted, none]

end Fields

/-- Nothing is built unless there is a value under each of some names. -/
def Demands (part : Part α) (names : List String) : Prop :=
  ∀ name ∈ names, ∀ span values, values name = none →
    ∃ fault, part.build span values = .error fault

theorem demands_nil (part : Part α) : part.Demands [] :=
  nofun

theorem demands_required (name : String) (read : Reader α) :
    (required name read).Demands [name] := by
  intro other among span values missing
  obtain rfl := List.mem_singleton.mp among
  simp only [required, missing]
  exact ⟨_, rfl⟩

theorem Demands.seq
    {f : Part (α → β)}
    {part : Part α}
    {names more : List String}
    (left : f.Demands names)
    (right : part.Demands more) :
    Demands (f <*> part) (names ++ more) := by
  intro name among span values missing
  simp only [Seq.seq]
  cases built : f.build span values with
  | error fault => exact ⟨fault, rfl⟩
  | ok g =>
      rcases List.mem_append.mp among with inLeft | inRight
      · obtain ⟨fault, failed⟩ := left name inLeft span values missing
        cases built.symm.trans failed
      · obtain ⟨fault, failed⟩ := right name inRight span values missing
        exact ⟨fault, by simp only [failed, Except.map]⟩

theorem Demands.map
    {part : Part α}
    {names : List String}
    (f : α → β)
    (demands : part.Demands names) :
    Demands (f <$> part) names :=
  (demands_nil (pure f)).seq demands

end Part

namespace Layout

variable {fields : List Field}

/-- Whole members are gone through, and found by their names. -/
theorem checkMembers_of_whole
    (members : Members)
    (seen : List String)
    (whole : members.Whole)
    (unrepeated : Unrepeated (fields.map Field.name) members.pairs)
    (unseen : ∀ name ∈ seen, name ∉ members.names)
    (check : ∀ field ∈ fields, ∀ doc, (field.name, doc) ∈ members.pairs → field.check doc = .ok ())
    (skip : ∀ name doc, (name, doc) ∈ members.pairs → name ∉ fields.map Field.name →
      doc.skip = .ok ()) :
    ∃ found, checkMembers fields seen members = .ok found ∧
      ∀ field ∈ fields, found.values.lookup field.name = members.pairs.lookup field.name := by
  match members with
  | .closed span => exact ⟨⟨[], span⟩, rfl, fun _ _ => rfl⟩
  | .broken _ _ _ => exact absurd whole id
  | .member key value follow rest =>
      obtain ⟨⟨name, named⟩, wholeRest⟩ := whole
      have split := Members.pairs_member named value follow rest
      rw [Members.names_member named] at unseen
      rw [split] at unrepeated check skip ⊢
      obtain ⟨new, unrepeatedRest⟩ := List.pairwise_cons.mp unrepeated
      have checkRest : ∀ field ∈ fields, ∀ doc, (field.name, doc) ∈ rest.pairs →
          field.check doc = .ok () :=
        fun field among doc there => check field among doc (List.mem_cons_of_mem _ there)
      have skipRest : ∀ name doc, (name, doc) ∈ rest.pairs → name ∉ fields.map Field.name →
          doc.skip = .ok () :=
        fun name doc there => skip name doc (List.mem_cons_of_mem _ there)
      have unseenRest : ∀ other ∈ seen, other ∉ rest.names :=
        fun other among there => unseen other among (List.mem_cons_of_mem _ there)
      cases wanted : fields.find? (fun field => field.name = name) with
      | none =>
          have unknown : ∀ field ∈ fields, field.name ≠ name := by
            simpa using List.find?_eq_none.mp wanted
          have passes := skip name value List.mem_cons_self fun among => by
            obtain ⟨field, inside, same⟩ := List.mem_map.mp among
            exact unknown field inside same
          obtain ⟨found, passed, same⟩ :=
            checkMembers_of_whole rest seen wholeRest unrepeatedRest unseenRest checkRest skipRest
          refine ⟨found, ?_, fun field among => ?_⟩
          · simp only [checkMembers, named, wanted, passes]
            exact passed
          · rw [List.lookup_cons, beq_false_of_ne (unknown field among)]
            exact same field among
      | some field =>
          have sameName : field.name = name := by simpa using List.find?_some wanted
          have inside := List.mem_of_find?_eq_some wanted
          have known : name ∈ fields.map Field.name := sameName ▸ List.mem_map_of_mem inside
          have unseenName : name ∉ seen := fun among => unseen name among List.mem_cons_self
          have fits := check field inside value (by rw [sameName]; exact List.mem_cons_self)
          obtain ⟨found, passed, same⟩ :=
            checkMembers_of_whole rest (name :: seen) wholeRest unrepeatedRest
              (by
                intro other among there
                rcases List.mem_cons.mp among with rfl | among
                · obtain ⟨pair, inRest, samePair⟩ := List.mem_map.mp there
                  exact new pair inRest samePair.symm known
                · exact unseenRest other among there)
              checkRest skipRest
          refine ⟨⟨(name, value) :: found.values, found.span⟩, ?_, fun other among => ?_⟩
          · simp only [checkMembers, named, wanted, if_neg unseenName, fits, passed]
            rfl
          · rw [List.lookup_cons, List.lookup_cons]
            cases other.name == name with
            | true => rfl
            | false => exact same other among

/-- What a layout reads from whole members. -/
theorem readMembers_of_makes
    {α : Type}
    {layout : Layout α}
    {members : Members}
    {a : α}
    (whole : members.Whole)
    (unrepeated : Unrepeated layout.part.names members.pairs)
    (skip : ∀ name doc, (name, doc) ∈ members.pairs → name ∉ layout.part.names →
      doc.skip = .ok ())
    (makes : layout.part.Makes members.pairs a) :
    layout.readMembers members = .ok a := by
  obtain ⟨found, passed, same⟩ :=
    checkMembers_of_whole members [] whole unrepeated nofun makes.check skip
  rw [readMembers, passed]
  exact makes.build _ _ same

/-- Only what is there is found. -/
theorem lookup_of_checkMembers
    {name : String}
    (members : Members)
    (seen : List String)
    {found : Members.Found}
    (passed : checkMembers fields seen members = .ok found)
    (missing : name ∉ members.names) :
    found.values.lookup name = none := by
  match members with
  | .closed span =>
      obtain rfl := Except.ok.inj passed
      rfl
  | .broken _ _ _ => cases passed
  | .member key value follow rest =>
      cases named : key.name with
      | error fault =>
          simp only [checkMembers, named] at passed
          cases passed
      | ok given =>
          rw [Members.names_member named, List.mem_cons, not_or] at missing
          obtain ⟨different, missingRest⟩ := missing
          simp only [checkMembers, named] at passed
          split at passed
          · split at passed
            · cases passed
            · exact lookup_of_checkMembers rest seen passed missingRest
          · split at passed
            · cases passed
            · split at passed
              · cases passed
              · cases more : checkMembers fields (given :: seen) rest with
                | error fault =>
                    rw [more] at passed
                    cases passed
                | ok others =>
                    rw [more] at passed
                    obtain rfl := Except.ok.inj passed
                    show ((given, value) :: others.values).lookup name = none
                    rw [List.lookup_cons, beq_false_of_ne different]
                    exact lookup_of_checkMembers rest (given :: seen) more missingRest

/-- An object is refused where a member is missing without which nothing is built. -/
theorem readMembers_of_demands
    {α : Type}
    {layout : Layout α}
    {members : Members}
    {names : List String}
    {name : String}
    (demands : layout.part.Demands names)
    (among : name ∈ names)
    (missing : name ∉ members.names) :
    ∃ fault, layout.readMembers members = .error fault := by
  unfold readMembers
  cases passed : checkMembers layout.part.fields [] members with
  | error fault => exact ⟨fault, rfl⟩
  | ok found => exact demands name among _ _ (lookup_of_checkMembers members [] passed missing)

/-- Members are not gone through where one of them does not pass its test. -/
theorem checkMembers_of_failed
    {wanted : String}
    {check : Doc → Except Fault Unit}
    {doc : Doc}
    (known : fields.find? (fun field => field.name = wanted) = some ⟨wanted, check⟩)
    (failed : ∃ fault, check doc = .error fault)
    (members : Members)
    (seen : List String)
    (there : (wanted, doc) ∈ members.pairs) :
    ∃ fault, checkMembers fields seen members = .error fault := by
  match members with
  | .closed _ => cases there
  | .broken whenRead _ _ => exact ⟨whenRead, rfl⟩
  | .member key value follow rest =>
      cases named : key.name with
      | error fault => exact ⟨fault, by simp only [checkMembers, named]⟩
      | ok name =>
          rw [Members.pairs_member named] at there
          simp only [checkMembers, named]
          rcases List.mem_cons.mp there with same | later
          · obtain ⟨rfl, rfl⟩ := Prod.mk.inj same
            obtain ⟨fault, stopped⟩ := failed
            rw [known]
            by_cases repeated : wanted ∈ seen
            · exact ⟨_, if_pos repeated⟩
            · exact ⟨fault, by simp only [if_neg repeated, stopped]⟩
          · cases fields.find? (fun field => field.name = name) with
            | none =>
                cases value.skip with
                | error fault => exact ⟨fault, rfl⟩
                | ok _ => exact checkMembers_of_failed known failed rest seen later
            | some field =>
                by_cases repeated : name ∈ seen
                · exact ⟨_, if_pos repeated⟩
                · simp only [if_neg repeated]
                  cases field.check value with
                  | error fault => exact ⟨fault, rfl⟩
                  | ok _ =>
                      obtain ⟨fault, stopped⟩ :=
                        checkMembers_of_failed known failed rest (name :: seen) later
                      exact ⟨fault, by simp only [stopped]; rfl⟩

/-- An object is refused where one of its members is. -/
theorem readMembers_of_failed
    {α β : Type}
    {layout : Layout α}
    {name : String}
    {read : Reader β}
    {doc : Doc}
    {members : Members}
    (known : layout.part.fields.find? (fun field => field.name = name) =
      some ⟨name, Part.checkBy read⟩)
    (there : (name, doc) ∈ members.pairs)
    (failed : ∃ fault, read doc = .error fault) :
    ∃ fault, layout.readMembers members = .error fault := by
  obtain ⟨fault, stopped⟩ := failed
  have refused : Part.checkBy read doc = .error fault := by
    rw [Part.checkBy, stopped]
    rfl
  obtain ⟨other, stoppedAll⟩ := checkMembers_of_failed known ⟨fault, refused⟩ members [] there
  exact ⟨other, by rw [readMembers, stoppedAll]⟩

end Layout
end WindsAloft
