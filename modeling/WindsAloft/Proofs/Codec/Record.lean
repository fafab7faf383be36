import WindsAloft.Codec.Record
import WindsAloft.Proofs.Document.Shown

/-!
# Trace records in documents

The member that names the kind may stand anywhere, for it is split off before the others
are looked at.  All of them have to be read for that, so what a record takes among its
members is narrower than elsewhere: scalars that can be read.  Beyond that a record is read
like the other records, and an object without a kind, or without a member of its kind, is
refused.
-/

namespace WindsAloft

section Scalars

variable {extra : Doc → Prop}

theorem Json.isLeaf_of_shownAmong
    {known : List String}
    {entries : List (String × Json)}
    {pairs : List (String × Doc)}
    {name : String}
    {doc : Doc}
    (unrepeated : Unrepeated known pairs)
    (among : ∀ entry ∈ entries, entry.1 ∈ known ∧ entry.2.IsScalar)
    (shown : ShownAmong extra entries pairs)
    (inside : name ∈ entries.map Prod.fst)
    (there : (name, doc) ∈ pairs) :
    doc.IsLeaf := by
  induction entries with
  | nil => cases inside
  | cons entry entries ih =>
      obtain ⟨first, item⟩ := entry
      obtain ⟨⟨isKnown, scalar⟩, amongRest⟩ := List.forall_mem_cons.mp among
      rw [ShownAmong] at shown
      obtain ⟨here, rest⟩ := shown
      rcases List.mem_cons.mp inside with rfl | later
      · rcases here with ⟨value, thereToo, shows⟩ | ⟨-, missing⟩
        · rw [unrepeated.eq isKnown there thereToo]
          exact scalar.isLeaf_of_shownIn shows
        · exact absurd (List.mem_map_of_mem there) missing
      · exact ih amongRest rest later

/-- Members under other names can be left out. -/
theorem Json.shownAmong_filter
    (keep : String → Bool)
    {entries : List (String × Json)}
    {pairs : List (String × Doc)}
    (kept : ∀ name ∈ entries.map Prod.fst, keep name = true)
    (shown : ShownAmong extra entries pairs) :
    ShownAmong extra entries (pairs.filter fun pair => keep pair.1) := by
  induction entries with
  | nil => exact trivial
  | cons entry entries ih =>
      obtain ⟨name, item⟩ := entry
      obtain ⟨here, keptRest⟩ := List.forall_mem_cons.mp kept
      rw [ShownAmong] at shown ⊢
      refine ⟨?_, ih keptRest shown.2⟩
      rcases shown.1 with ⟨doc, there, shows⟩ | ⟨null, missing⟩
      · exact .inl ⟨doc, List.mem_filter.mpr ⟨there, here⟩, shows⟩
      · refine .inr ⟨null, fun among => missing ?_⟩
        exact (List.filter_sublist.map Prod.fst).subset among

end Scalars

namespace Record

open WindsAloft.Part (makes_real_of_shown makes_required_of_shown demands_required)

/-- The kind is read from its name. -/
theorem Kind.read_name (kind : Kind) : Reader.Takes Kind.read (.text kind.name) kind := by
  refine Reader.takes_of_leaf (.text kind.name) fun span => ?_
  cases kind <;> rfl

section Split

/-- Once the kind is known, whatever follows is kept. -/
theorem splitTag_some
    (kind : Kind)
    (members : Members)
    (whole : members.Whole)
    (untagged : tag ∉ members.names)
    (through : ∀ name other, (name, other) ∈ members.pairs →
      other.readThrough depthInside = .ok ()) :
    ∃ rest, splitTag (some kind) members = .ok (kind, rest) ∧ rest.Whole ∧
      rest.pairs = members.pairs := by
  match members with
  | .closed span => exact ⟨.closed span, rfl, trivial, rfl⟩
  | .broken _ _ _ => exact absurd whole id
  | .member key value follow more =>
      obtain ⟨⟨name, named⟩, wholeMore⟩ := whole
      have split := Members.pairs_member named value follow more
      rw [Members.names_member named, List.mem_cons, not_or] at untagged
      rw [split] at through ⊢
      obtain ⟨rest, passed, wholeRest, same⟩ := splitTag_some kind more wholeMore untagged.2
        fun name other later => through name other (List.mem_cons_of_mem _ later)
      refine ⟨.member key value follow rest, ?_, ⟨⟨name, named⟩, wholeRest⟩, ?_⟩
      · simp only [splitTag, named, if_neg (Ne.symm untagged.1),
          through name value List.mem_cons_self, passed]
        rfl
      · rw [Members.pairs_member named, same]

/-- The kind is split off wherever it stands. -/
theorem splitTag_none
    {kind : Kind}
    {doc : Doc}
    (members : Members)
    (whole : members.Whole)
    (unrepeated : Unrepeated [tag] members.pairs)
    (tagged : (tag, doc) ∈ members.pairs)
    (named : Kind.read doc = .ok kind)
    (through : ∀ name other, (name, other) ∈ members.pairs → name ≠ tag →
      other.readThrough depthInside = .ok ()) :
    ∃ rest, splitTag none members = .ok (kind, rest) ∧ rest.Whole ∧
      rest.pairs = members.pairs.filter fun pair => pair.1 ≠ tag := by
  match members with
  | .closed _ => cases tagged
  | .broken _ _ _ => exact absurd whole id
  | .member key value follow more =>
      obtain ⟨⟨name, isName⟩, wholeMore⟩ := whole
      have split := Members.pairs_member isName value follow more
      have here : (name, value) ∈ (Members.member key value follow more).pairs := by
        rw [split]
        exact List.mem_cons_self
      rw [split] at unrepeated tagged through ⊢
      obtain ⟨new, unrepeatedMore⟩ := List.pairwise_cons.mp unrepeated
      by_cases isTag : name = tag
      · subst isTag
        have sole : ∀ other, (tag, other) ∉ more.pairs :=
          fun other later => new _ later rfl List.mem_cons_self
        have untagged : tag ∉ more.names := by
          intro among
          obtain ⟨⟨_, other⟩, later, rfl⟩ := List.mem_map.mp among
          exact sole other later
        have same : doc = value := unrepeated.eq List.mem_cons_self tagged List.mem_cons_self
        obtain ⟨rest, passed, wholeRest, pairs⟩ := splitTag_some kind more wholeMore untagged
          fun name other later => through name other (List.mem_cons_of_mem _ later) (by
            rintro rfl
            exact sole other later)
        refine ⟨rest, ?_, wholeRest, ?_⟩
        · rw [same] at named
          simp only [splitTag, isName, if_true, Option.isSome_none, Bool.false_eq_true, if_false,
            named]
          exact passed
        · rw [pairs, List.filter_cons_of_neg (by simp)]
          refine (List.filter_eq_self.mpr fun pair later => ?_).symm
          simpa using fun same : pair.1 = tag => sole pair.2 (same ▸ later)
      · have later : (tag, doc) ∈ more.pairs := by
          rcases List.mem_cons.mp tagged with same | later
          · exact absurd (congrArg Prod.fst same).symm isTag
          · exact later
        obtain ⟨rest, passed, wholeRest, pairs⟩ := splitTag_none more wholeMore unrepeatedMore
          later named fun name other among => through name other (List.mem_cons_of_mem _ among)
        refine ⟨.member key value follow rest, ?_, ⟨⟨name, isName⟩, wholeRest⟩, ?_⟩
        · simp only [splitTag, isName, if_neg isTag, through name value List.mem_cons_self isTag,
            passed]
          rfl
        · rw [Members.pairs_member isName, pairs, List.filter_cons_of_pos (by simpa using isTag)]

/-- What was split off: the kind was there, and what is left was there as well. -/
structure SplitOff (start : Option Kind) (members : Members) (kind : Kind) (rest : Members) :
    Prop where
  kept : ∀ name ∈ rest.names, name ∈ members.names
  tagged : start = none → tag ∈ members.names
  started : ∀ given, start = some given → kind = given
  read : ∀ other, (tag, other) ∈ members.pairs → Kind.read other = .ok kind

variable {start : Option Kind} {kind : Kind} {key : Key} {value : Doc} {more rest : Members}

theorem SplitOff.tag_member
    {given : Kind}
    (off : SplitOff (some given) more kind rest)
    (named : key.name = .ok tag)
    (read : Kind.read value = .ok given)
    (follow : ℕ) :
    SplitOff none (.member key value follow more) kind rest where
  kept name among := by
    rw [Members.names_member named]
    exact List.mem_cons_of_mem _ (off.kept name among)
  tagged _ := by
    rw [Members.names_member named]
    exact List.mem_cons_self
  started := nofun
  read other there := by
    rw [Members.pairs_member named] at there
    rcases List.mem_cons.mp there with first | later
    · obtain rfl := congrArg Prod.snd first
      obtain rfl := off.started given rfl
      exact read
    · exact off.read other later

theorem SplitOff.other_member
    {name : String}
    (off : SplitOff start more kind rest)
    (named : key.name = .ok name)
    (notTag : name ≠ tag)
    (follow : ℕ) :
    SplitOff start (.member key value follow more) kind (.member key value follow rest) where
  kept other among := by
    rw [Members.names_member named] at among ⊢
    rcases List.mem_cons.mp among with rfl | later
    · exact List.mem_cons_self
    · exact List.mem_cons_of_mem _ (off.kept other later)
  tagged none := by
    rw [Members.names_member named]
    exact List.mem_cons_of_mem _ (off.tagged none)
  started := off.started
  read other there := by
    rw [Members.pairs_member named] at there
    rcases List.mem_cons.mp there with first | later
    · exact absurd (congrArg Prod.fst first).symm notTag
    · exact off.read other later

/-- What is split off was there. -/
theorem splitOff_of_splitTag
    (members : Members)
    {start : Option Kind}
    {rest : Members}
    (passed : splitTag start members = .ok (kind, rest)) :
    SplitOff start members kind rest := by
  match members with
  | .closed span =>
      cases start with
      | none => cases passed
      | some known =>
          obtain ⟨rfl, rfl⟩ := Prod.mk.inj (Except.ok.inj passed)
          exact ⟨fun _ => id, nofun, fun _ same => Option.some.inj same, nofun⟩
  | .broken _ _ _ => cases passed
  | .member key value follow more =>
      cases named : key.name with
      | error fault =>
          simp only [splitTag, named] at passed
          cases passed
      | ok name =>
          simp only [splitTag, named] at passed
          by_cases isTag : name = tag
          · subst isTag
            rw [if_pos rfl] at passed
            cases start with
            | some known => cases passed
            | none =>
                cases read : Kind.read value with
                | error fault =>
                    simp only [read] at passed
                    cases passed
                | ok given =>
                    simp only [read] at passed
                    exact (splitOff_of_splitTag more passed).tag_member named read follow
          · rw [if_neg isTag] at passed
            cases through : value.readThrough depthInside with
            | error fault =>
                simp only [through] at passed
                cases passed
            | ok _ =>
                simp only [through] at passed
                cases next : splitTag start more with
                | error fault =>
                    rw [next] at passed
                    cases passed
                | ok result =>
                    obtain ⟨found, others⟩ := result
                    rw [next] at passed
                    obtain ⟨rfl, rfl⟩ := Prod.mk.inj (Except.ok.inj passed).symm
                    exact (splitOff_of_splitTag more next).other_member named isTag follow

end Split

section Read

variable {doc : Doc}

/-- A record is read from a document that shows its kind and what its layout wants. -/
theorem read_of_shown
    (kind : Kind)
    {entries : List (String × Json)}
    {record : Record}
    (sameNames : (layout kind).part.names = entries.map Prod.fst)
    (untagged : tag ∉ entries.map Prod.fst)
    (scalars : ∀ entry ∈ entries, entry.2.IsScalar)
    (makes : ∀ pairs, Unrepeated (entries.map Prod.fst) pairs →
      Json.ShownAmong Doc.IsLeaf entries pairs → (layout kind).part.Makes pairs record)
    (shown : (Json.object ((tag, .text kind.name) :: entries)).ShownIn Doc.IsLeaf doc) :
    read doc = .ok record := by
  rw [Json.ShownIn, List.map_cons] at shown
  obtain ⟨span, members, rfl, whole, unrepeated, others, all⟩ := shown
  rw [Json.ShownAmong] at all
  obtain ⟨named, among⟩ := all
  obtain ⟨tagDoc, tagged, shows⟩ := named.resolve_right fun missing => nomatch missing.1
  have isLeaf (name : String) (other : Doc) (there : (name, other) ∈ members.pairs)
      (notTag : name ≠ tag) : other.IsLeaf := by
    by_cases known : name ∈ entries.map Prod.fst
    · refine Json.isLeaf_of_shownAmong unrepeated (fun entry inside => ⟨?_, scalars entry inside⟩)
        among known there
      exact List.mem_cons_of_mem _ (List.mem_map_of_mem inside)
    · refine others name other there fun inside => ?_
      rcases List.mem_cons.mp inside with isTag | inEntries
      · exact notTag isTag
      · exact known inEntries
  obtain ⟨rest, split, wholeRest, pairs⟩ := splitTag_none members whole
    (unrepeated.mono (List.Sublist.refl _) fun name inside => by
      rw [List.mem_singleton.mp inside]
      exact List.mem_cons_self)
    tagged (Kind.read_name kind tagDoc shows)
    fun name other there notTag => (isLeaf name other there notTag).readThrough depthInside
  have unrepeatedRest : Unrepeated (entries.map Prod.fst) rest.pairs := by
    rw [pairs]
    exact unrepeated.mono List.filter_sublist fun name inside => List.mem_cons_of_mem _ inside
  have amongRest : Json.ShownAmong Doc.IsLeaf entries rest.pairs := by
    rw [pairs]
    refine Json.shownAmong_filter (fun name => decide (name ≠ tag)) ?_ among
    intro name inside
    exact decide_eq_true fun isTag => untagged (isTag ▸ inside)
  have read : (layout kind).readMembers rest = .ok record := by
    refine Layout.readMembers_of_makes wholeRest (sameNames ▸ unrepeatedRest) ?_
      (makes rest.pairs unrepeatedRest amongRest)
    intro name other there _
    rw [pairs] at there
    obtain ⟨before, notTag⟩ := List.mem_filter.mp there
    exact (isLeaf name other before (of_decide_eq_true notTag)).isScalar.skip
  simp only [Record.read, split, read]
  rfl

/-- A record is read from every document that shows it among scalars that can be read. -/
theorem read_shown {record : Record} (shown : record.toJson.ShownIn Doc.IsLeaf doc) :
    read doc = .ok record := by
  cases record with
  | measurement sample =>
      refine read_of_shown .measurement rfl (by simp [tag])
        (by simp [Json.IsScalar]) (fun pairs unrepeated among => ?_) shown
      obtain ⟨time, x, y, altitude, quality, -⟩ := among
      have makesTime := makes_real_of_shown unrepeated time (by simp)
      have makesX := makes_real_of_shown unrepeated x (by simp)
      have makesY := makes_real_of_shown unrepeated y (by simp)
      have makesAltitude := makes_real_of_shown unrepeated altitude (by simp)
      have makesQuality := makes_required_of_shown unrepeated quality (by simp) nofun
        fun other => Reader.int32_takes sample.quality other
      exact ((((makesTime.map measurementOf).seq makesX).seq makesY).seq makesAltitude).seq
        makesQuality
  | query point =>
      refine read_of_shown .query rfl (by simp [tag])
        (by simp [Json.IsScalar]) (fun pairs unrepeated among => ?_) shown
      obtain ⟨time, altitude, -⟩ := among
      have makesTime := makes_real_of_shown unrepeated time (by simp)
      have makesAltitude := makes_real_of_shown unrepeated altitude (by simp)
      exact (makesTime.map queryOf).seq makesAltitude

/-- The members that a record of some kind has to have besides the one that names the kind. -/
def Kind.memberNames : Kind → List String
  | .measurement => ["time", "x", "y", "altitude", "quality"]
  | .query => ["time", "altitude"]

theorem demands_memberNames (kind : Kind) : (layout kind).part.Demands kind.memberNames := by
  have demandsTime := demands_required "time" Reader.real
  have demandsAltitude := demands_required "altitude" Reader.real
  cases kind with
  | measurement =>
      have demandsX := demands_required "x" Reader.real
      have demandsY := demands_required "y" Reader.real
      have demandsQuality := demands_required "quality" Reader.int32
      exact ((((demandsTime.map measurementOf).seq demandsX).seq demandsY).seq
        demandsAltitude).seq demandsQuality
  | query => exact (demandsTime.map queryOf).seq demandsAltitude

/-- To be an object without a kind, or one that names a kind and is without a member of it. -/
def LackedBy (doc : Doc) : Prop :=
  doc.Lacks [tag] ∨
    ∃ kind : Kind, doc.HasMember tag (fun value => value.content? = some (.text kind.name)) ∧
      doc.Lacks kind.memberNames

theorem refuses_of_lackedBy (lacked : LackedBy doc) : ∃ fault, read doc = .error fault := by
  cases doc with
  | object span members =>
      rw [Record.read]
      cases split : splitTag none members with
      | error fault => exact ⟨fault, rfl⟩
      | ok result =>
          obtain ⟨kind, rest⟩ := result
          have off := splitOff_of_splitTag members split
          rcases lacked with
            ⟨name, among, missing⟩ | ⟨named, ⟨value, there, said⟩, name, among, missing⟩
          · obtain rfl := List.mem_singleton.mp among
            exact absurd (off.tagged rfl) missing
          · obtain rfl : named = kind :=
              Except.ok.inj ((Kind.read_name named value said).symm.trans (off.read value there))
            obtain ⟨fault, failed⟩ :=
              Layout.readMembers_of_demands (demands_memberNames named) among
                fun inside => missing (off.kept name inside)
            exact ⟨fault.withoutSpan, by simp only [failed]; rfl⟩
  | _ =>
      rcases lacked with lacks | ⟨_, has, -⟩
      · exact False.elim lacks
      · exact False.elim has

end Read

end Record
end WindsAloft
