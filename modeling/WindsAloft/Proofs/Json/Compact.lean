import WindsAloft.Proofs.Json.Parsing

/-!
# Documents on one line are read back

A document on one line has the same tokens as one over several lines; there only are no
blanks between them.  So it is read back in the same way.  Doubles that are not finite
have no text of their own and come back as `null`.
-/

namespace WindsAloft
namespace Json

open Json.Token (Ends scanner)

/-- A double as its text has it: a number, or `null` if it is not finite. -/
def ofReal (x : Float) : Json :=
  if x.isFinite then .real x else .null

theorem compactChars_ofReal (x : Float) : (ofReal x).compactChars = (real x).compactChars := by
  unfold ofReal
  split
  · rfl
  · next notFinite =>
      rw [Binary64.isFinite_iff, Binary64.quanta?] at notFinite
      rw [compactChars, compactChars, jsonFloat]
      cases number : Binary64.ofFloat x with
      | finite s m =>
          rw [number] at notFinite
          exact absurd ⟨_, Binary64.signedQuanta_finite s m⟩ notFinite
      | _ => rfl

/-- The items behind the first one, each behind a comma. -/
def compactMore (items : List Json) : List Char :=
  items.flatMap fun item => ',' :: item.compactChars

/-- A name with what leads to its value, and the value. -/
def compactMember (member : String × Json) : List Char :=
  quoted member.1 ++ ([':'] ++ member.2.compactChars)

/-- The members behind the first one, each behind a comma. -/
def compactMoreMembers (members : List (String × Json)) : List Char :=
  members.flatMap fun member => ',' :: compactMember member

theorem compactMore_cons (item : Json) (items : List Json) :
    compactMore (item :: items) = ',' :: (item.compactChars ++ compactMore items) :=
  List.flatMap_cons

theorem compactMoreMembers_cons (member : String × Json) (members : List (String × Json)) :
    compactMoreMembers (member :: members) =
      ',' :: (compactMember member ++ compactMoreMembers members) :=
  List.flatMap_cons

theorem compactItems_cons (item : Json) (items : List Json) :
    compactItems (item :: items) = item.compactChars ++ compactMore items := by
  induction items generalizing item with
  | nil => rw [compactItems, compactMore, List.flatMap_nil, List.append_nil]
  | cons other items ih =>
      rw [compactItems, ih, compactMore_cons]
      exact List.cons_ne_nil _ _

theorem compactMembers_cons (member : String × Json) (members : List (String × Json)) :
    compactMembers (member :: members) = compactMember member ++ compactMoreMembers members := by
  induction members generalizing member with
  | nil =>
      rw [compactMembers, compactMoreMembers, List.flatMap_nil, List.append_nil]
      rfl
  | cons other members ih =>
      rw [compactMembers, ih, compactMoreMembers_cons]
      · simp only [compactMember, List.append_assoc, List.cons_append, List.nil_append]
      · exact List.cons_ne_nil _ _

section Texts

variable {reading : Numeral.Reading} {reread : Float → Float}

/-- A comma or the end follows the first item or member. -/
theorem ends_flatMap_comma
    {α : Type}
    {write : α → List Char}
    {rest : List Char}
    (values : List α)
    (ends : Ends rest) :
    Ends (values.flatMap (fun value => ',' :: write value) ++ rest) := by
  cases values with
  | nil => exact ends
  | cons value values =>
      rintro c ⟨⟩
      exact .inr rfl

theorem ends_mark {c : Char} (mark : Token.isMark c = true) (rest : List Char) :
    Ends ([c] ++ rest) := by
  rintro d ⟨⟩
  exact .inr mark

/-- A name and a colon. -/
theorem cuts_compactName (name : String) :
    (scanner reading).Cuts (quoted name ++ [':']) [.string (.ok name), .mark ':'] :=
  (Token.cuts_quoted name).append (Token.cuts_mark (c := ':') rfl)

mutual

/-- A document on one line is cut into its tokens, the doubles being read again. -/
theorem cutsBefore_compactChars :
    (json : Json) → json.Readable reading reread →
      (scanner reading).CutsBefore Ends json.compactChars (json.mapReals reread).lexemes
  | .null, _ => Token.cuts_null.before
  | .bool b, _ => (Token.cuts_boolChars b).before
  | .integer _, readable => Token.cutsBefore_integerChars readable.1 readable.2
  | .real _, readable => Token.cutsBefore_jsonFloat readable
  | .text s, _ => (Token.cuts_quoted s).before
  | .list [], _ =>
      ((Token.cuts_mark (c := '[') rfl).append (Token.cuts_mark (c := ']') rfl)).before
  | .list (item :: items), readable => by
      have first := cutsBefore_compactChars item readable.1
      have others := cutsBefore_compactMore items readable.2
      have closed := others.append (Token.cuts_mark (c := ']') rfl) fun rest _ => ends_mark rfl rest
      have content := first.append closed fun rest _ => by
        rw [List.append_assoc]
        exact ends_flatMap_comma items (ends_mark rfl rest)
      have all := (Token.cuts_mark (c := '[') rfl).append content
      rw [compactChars, compactItems_cons, mapReals, mapItems, lexemes]
      simpa only [List.append_assoc, List.singleton_append, List.nil_append] using all.before
  | .object [], _ =>
      ((Token.cuts_mark (c := '{') rfl).append (Token.cuts_mark (c := '}') rfl)).before
  | .object ((name, value) :: members), readable => by
      have first := cutsBefore_compactChars value readable.1
      have others := cutsBefore_compactMoreMembers members readable.2
      have closed := others.append (Token.cuts_mark (c := '}') rfl) fun rest _ => ends_mark rfl rest
      have content := first.append closed fun rest _ => by
        rw [List.append_assoc]
        exact ends_flatMap_comma members (ends_mark rfl rest)
      have all := (Token.cuts_mark (c := '{') rfl).append ((cuts_compactName name).append content)
      rw [compactChars, compactMembers_cons, compactMember, mapReals, mapMembers, lexemes]
      simpa only [List.append_assoc, List.singleton_append, List.nil_append, List.cons_append]
        using all.before

theorem cutsBefore_compactMore :
    (items : List Json) → ReadableItems reading reread items →
      (scanner reading).CutsBefore Ends (compactMore items) (itemLexemes (mapItems reread items))
  | [], _ => Scanner.cuts_nil.before
  | item :: items, readable => by
      have first := cutsBefore_compactChars item readable.1
      have others := cutsBefore_compactMore items readable.2
      have all := (Token.cuts_mark (c := ',') rfl).append
        (first.append others fun rest ends => ends_flatMap_comma items ends)
      rw [compactMore_cons, mapItems, itemLexemes]
      exact all

theorem cutsBefore_compactMoreMembers :
    (members : List (String × Json)) → ReadableMembers reading reread members →
      (scanner reading).CutsBefore Ends (compactMoreMembers members)
        (memberLexemes (mapMembers reread members))
  | [], _ => Scanner.cuts_nil.before
  | (name, value) :: members, readable => by
      have first := cutsBefore_compactChars value readable.1
      have others := cutsBefore_compactMoreMembers members readable.2
      have all := (Token.cuts_mark (c := ',') rfl).append ((cuts_compactName name).append
        (first.append others fun rest ends => ends_flatMap_comma members ends))
      rw [compactMoreMembers_cons, compactMember, mapMembers, memberLexemes]
      simpa only [List.append_assoc, List.singleton_append, List.nil_append, List.cons_append]
        using all

end

end Texts

/--
A document that is written on one line and read again says what was written, but for the
doubles, which are what the reading makes of their texts.
-/
theorem parse_compact
    {reading : Numeral.Reading}
    {reread : Float → Float}
    {json : Json}
    (readable : json.Readable reading reread) :
    ∃ doc, parse reading json.compact.toList = ⟨doc, none⟩ ∧
      doc.content? = some (json.mapReals reread) := by
  rw [compact, String.toList_ofList]
  exact exists_parse_of_cutsBefore (cutsBefore_compactChars json readable)

end Json
end WindsAloft
