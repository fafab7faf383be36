import WindsAloft.Json.Source
import WindsAloft.Proofs.Document.Content
import WindsAloft.Proofs.Json.Scanning

/-!
# Written documents are read back

The tokens of a written document are those of its parts with marks between them.  Fed
to the parser where a value is wanted they put one value in place, and what that value
says is what was written.
-/

namespace WindsAloft
namespace Json

open Json.Token (Ends scanner)

mutual

/-- What the tokens of a document are. -/
def lexemes : Json → List Lexeme
  | .null => [.scalar .null]
  | .bool b => [.scalar (.bool b)]
  | .integer n => [.scalar (.integer n)]
  | .real x => [.scalar (.real x)]
  | .text s => [.string (.ok s)]
  | .list [] => [.mark '[', .mark ']']
  | .list (item :: items) => .mark '[' :: (lexemes item ++ (itemLexemes items ++ [.mark ']']))
  | .object [] => [.mark '{', .mark '}']
  | .object ((name, value) :: members) =>
      .mark '{' :: .string (.ok name) :: .mark ':' ::
        (lexemes value ++ (memberLexemes members ++ [.mark '}']))

/-- The same for the items behind the first one. -/
def itemLexemes : List Json → List Lexeme
  | [] => []
  | item :: items => .mark ',' :: (lexemes item ++ itemLexemes items)

/-- The same for the members behind the first one. -/
def memberLexemes : List (String × Json) → List Lexeme
  | [] => []
  | (name, value) :: members =>
      .mark ',' :: .string (.ok name) :: .mark ':' :: (lexemes value ++ memberLexemes members)

end

mutual

/-- A document with other doubles. -/
def mapReals (reread : Float → Float) : Json → Json
  | .real x => .real (reread x)
  | .list items => .list (mapItems reread items)
  | .object members => .object (mapMembers reread members)
  | json => json

/-- The same for items. -/
def mapItems (reread : Float → Float) : List Json → List Json
  | [] => []
  | item :: items => mapReals reread item :: mapItems reread items

/-- The same for members. -/
def mapMembers (reread : Float → Float) : List (String × Json) → List (String × Json)
  | [] => []
  | (name, value) :: members => (name, mapReals reread value) :: mapMembers reread members

end

theorem mapMembers_eq_map (reread : Float → Float) (members : List (String × Json)) :
    mapMembers reread members = members.map fun (name, value) => (name, value.mapReals reread) := by
  induction members with
  | nil => rfl
  | cons member members ih => rw [mapMembers, ih, List.map_cons]

mutual

/-- Doubles that are read as they are change nothing. -/
theorem mapReals_id : (json : Json) → json.mapReals id = json
  | .real _ => rfl
  | .list items => by rw [mapReals, mapItems_id items]
  | .object members => by rw [mapReals, mapMembers_id members]
  | .null => rfl
  | .bool _ => rfl
  | .integer _ => rfl
  | .text _ => rfl

theorem mapItems_id : (items : List Json) → mapItems id items = items
  | [] => rfl
  | item :: items => by rw [mapItems, mapReals_id item, mapItems_id items]

theorem mapMembers_id : (members : List (String × Json)) → mapMembers id members = members
  | [] => rfl
  | (name, value) :: members => by rw [mapMembers, mapReals_id value, mapMembers_id members]

end

mutual

/-- The integers have 64 bits, and it is known how the doubles are read again. -/
def Readable (reading : Numeral.Reading) (reread : Float → Float) : Json → Prop
  | .integer n => Int64.minValue.toInt ≤ n ∧ n < UInt64.size
  | .real x => reading.ReadsAs x (reread x)
  | .list items => ReadableItems reading reread items
  | .object members => ReadableMembers reading reread members
  | _ => True

/-- The same for items. -/
def ReadableItems (reading : Numeral.Reading) (reread : Float → Float) : List Json → Prop
  | [] => True
  | item :: items => Readable reading reread item ∧ ReadableItems reading reread items

/-- The same for members. -/
def ReadableMembers (reading : Numeral.Reading) (reread : Float → Float) :
    List (String × Json) → Prop
  | [] => True
  | (_, value) :: members =>
      Readable reading reread value ∧ ReadableMembers reading reread members

end

theorem readableMembers_iff
    {reading : Numeral.Reading}
    {reread : Float → Float}
    {members : List (String × Json)} :
    ReadableMembers reading reread members ↔
      ∀ member ∈ members, member.2.Readable reading reread := by
  induction members with
  | nil => exact ⟨fun _ => nofun, fun _ => trivial⟩
  | cons member members ih => rw [ReadableMembers, ih, List.forall_mem_cons]

section Texts

variable {reading : Numeral.Reading} {reread : Float → Float}

theorem cuts_newLine (level : ℕ) : (scanner reading).Cuts (newLine level) [] := by
  refine Token.cuts_blanks fun c among => ?_
  rcases List.mem_cons.mp among with rfl | space
  · rfl
  · rw [List.eq_of_mem_replicate space]
    rfl

theorem ends_newLine (level : ℕ) (rest : List Char) : Ends (newLine level ++ rest) := by
  rintro c ⟨⟩
  exact .inl rfl

theorem ends_prettyItems
    {level : ℕ}
    {rest : List Char}
    (items : List Json)
    (ends : Ends rest) :
    Ends (prettyItems level items ++ rest) := by
  cases items with
  | nil => rwa [prettyItems]
  | cons item items =>
      rw [prettyItems]
      rintro c ⟨⟩
      exact .inr rfl

theorem ends_prettyMembers
    {level : ℕ}
    {rest : List Char}
    (members : List (String × Json))
    (ends : Ends rest) :
    Ends (prettyMembers level members ++ rest) := by
  cases members with
  | nil => rwa [prettyMembers]
  | cons member members =>
      rw [prettyMembers]
      rintro c ⟨⟩
      exact .inr rfl

/-- A name with what leads to its value. -/
theorem cuts_name (name : String) :
    (scanner reading).Cuts (quoted name ++ [':', ' ']) [.string (.ok name), .mark ':'] :=
  (Token.cuts_quoted name).append
    ((Token.cuts_mark (c := ':') rfl).append (Token.cuts_blank (c := ' ') rfl))

/-- The end of a list or an object on a line of its own. -/
theorem cuts_closing (level : ℕ) {c : Char} (mark : Token.isMark c = true) :
    (scanner reading).Cuts (newLine level ++ [c]) [.mark c] :=
  (cuts_newLine level).append (Token.cuts_mark mark)

theorem ends_closing (level : ℕ) (c : Char) (rest : List Char) :
    Ends (newLine level ++ [c] ++ rest) := by
  rw [List.append_assoc]
  exact ends_newLine level _

/-- A comma and a new line. -/
theorem cuts_comma (level : ℕ) : (scanner reading).Cuts (',' :: newLine level) [.mark ','] :=
  (Token.cuts_mark (c := ',') rfl).append (cuts_newLine level)

mutual

/-- A document over several lines is cut into its tokens, the doubles being read again. -/
theorem cutsBefore_prettyChars (level : ℕ) :
    (json : Json) → json.Readable reading reread →
      (scanner reading).CutsBefore Ends (json.prettyChars level) (json.mapReals reread).lexemes
  | .null, _ => Token.cuts_null.before
  | .bool b, _ => (Token.cuts_boolChars b).before
  | .integer _, readable => Token.cutsBefore_integerChars readable.1 readable.2
  | .real _, readable => Token.cutsBefore_jsonFloat readable
  | .text s, _ => (Token.cuts_quoted s).before
  | .list [], _ =>
      ((Token.cuts_mark (c := '[') rfl).append (Token.cuts_mark (c := ']') rfl)).before
  | .list (item :: items), readable => by
      have first := cutsBefore_prettyChars (level + 1) item readable.1
      have others := cutsBefore_prettyItems (level + 1) items readable.2
      have closed := others.append (cuts_closing level (c := ']') rfl)
        fun rest _ => ends_closing level ']' rest
      have content := first.append closed fun rest _ => by
        rw [List.append_assoc]
        exact ends_prettyItems items (ends_closing level ']' rest)
      have all := (Token.cuts_mark (c := '[') rfl).append
        ((cuts_newLine (level + 1)).append content)
      rw [prettyChars, mapReals, mapItems, lexemes]
      simpa only [List.append_assoc, List.singleton_append, List.nil_append] using all.before
  | .object [], _ =>
      ((Token.cuts_mark (c := '{') rfl).append (Token.cuts_mark (c := '}') rfl)).before
  | .object ((name, value) :: members), readable => by
      have first := cutsBefore_prettyChars (level + 1) value readable.1
      have others := cutsBefore_prettyMembers (level + 1) members readable.2
      have closed := others.append (cuts_closing level (c := '}') rfl)
        fun rest _ => ends_closing level '}' rest
      have content := first.append closed fun rest _ => by
        rw [List.append_assoc]
        exact ends_prettyMembers members (ends_closing level '}' rest)
      have all := (Token.cuts_mark (c := '{') rfl).append
        ((cuts_newLine (level + 1)).append ((cuts_name name).append content))
      rw [prettyChars, mapReals, mapMembers, lexemes]
      simpa only [List.append_assoc, List.singleton_append, List.nil_append, List.cons_append]
        using all.before

theorem cutsBefore_prettyItems (level : ℕ) :
    (items : List Json) → ReadableItems reading reread items →
      (scanner reading).CutsBefore Ends (prettyItems level items)
        (itemLexemes (mapItems reread items))
  | [], _ => Scanner.cuts_nil.before
  | item :: items, readable => by
      have first := cutsBefore_prettyChars level item readable.1
      have others := cutsBefore_prettyItems level items readable.2
      have all := (cuts_comma level).append
        (first.append others fun rest ends => ends_prettyItems items ends)
      rw [prettyItems, mapItems, itemLexemes]
      simpa only [List.append_assoc, List.singleton_append, List.nil_append, List.cons_append]
        using all

theorem cutsBefore_prettyMembers (level : ℕ) :
    (members : List (String × Json)) → ReadableMembers reading reread members →
      (scanner reading).CutsBefore Ends (prettyMembers level members)
        (memberLexemes (mapMembers reread members))
  | [], _ => Scanner.cuts_nil.before
  | (name, value) :: members, readable => by
      have first := cutsBefore_prettyChars level value readable.1
      have others := cutsBefore_prettyMembers level members readable.2
      have all := (cuts_comma level).append
        ((cuts_name name).append
          (first.append others fun rest ends => ends_prettyMembers members ends))
      rw [prettyMembers, mapMembers, memberLexemes]
      simpa only [List.append_assoc, List.singleton_append, List.nil_append, List.cons_append]
        using all

end

end Texts

section Tokens

/-- The innermost list or object waits for a value. -/
def Awaits : List Frame → Prop
  | [] => True
  | .list _ .opened _ :: _ => True
  | .list _ .afterComma _ :: _ => True
  | .object _ (.afterColon _) _ :: _ => True
  | _ => False

theorem stepToken_of_awaits
    {frames : List Frame}
    {token : Token Lexeme}
    (awaits : Awaits frames)
    (notEnd : token.lexeme ≠ .mark ']') :
    stepToken (.building frames) token = beginValue frames token := by
  match frames with
  | [] => rfl
  | .list start .opened done :: frames =>
      simp only [stepToken, stepList]
  | .list start .afterComma done :: frames =>
      simp only [stepToken, stepList]
  | .object start (.afterColon key) done :: frames => rfl

/-- An entry of an open object has a name and says something. -/
def Entry.Says (entry : Entry) (member : String × Json) : Prop :=
  entry.key.name = .ok member.1 ∧ entry.value.content? = some member.2

theorem content?_closeList
    {docs : List Doc}
    {items : List Json}
    (start : ℕ)
    (span : Span)
    (said : List.Forall₂ (fun doc item => doc.content? = some item) docs items) :
    (closeList start docs.reverse (.closed span)).content? = some (.list items) := by
  have inside : (itemsOf docs.reverse (.closed span)).contents? = some items := by
    unfold itemsOf
    rw [List.foldl_reverse]
    induction said with
    | nil => rfl
    | cons first _ ih =>
        rw [List.foldr_cons, Items.contents?, first, ih]
        rfl
  rw [closeList, Doc.content?, inside, Option.map_some]

theorem content?_closeObject
    {entries : List Entry}
    {members : List (String × Json)}
    (start : ℕ)
    (span : Span)
    (said : List.Forall₂ Entry.Says entries members) :
    (closeObject start entries.reverse (.closed span)).content? = some (.object members) := by
  have inside : (membersOf entries.reverse (.closed span)).contents? = some members := by
    unfold membersOf
    rw [List.foldl_reverse]
    induction said with
    | nil => rfl
    | cons first _ ih =>
        exact Members.contents?_member_eq_some.mpr ⟨_, _, _, first.1, first.2, ih, rfl⟩
  rw [closeObject, Doc.content?, inside, Option.map_some]

/-- Tokens put one value in place, and the value says what it should. -/
def Places (frames : List Frame) (tokens : List (Token Lexeme)) (json : Json) : Prop :=
  ∃ doc, tokens.foldl stepToken (.building frames) = place doc frames ∧ doc.content? = some json

theorem places_scalar
    {frames : List Frame}
    {tokens : List (Token Lexeme)}
    {value : Scalar}
    (awaits : Awaits frames)
    (tokens_eq : tokens.map Token.lexeme = [.scalar value]) :
    Places frames tokens value.toJson := by
  obtain ⟨token, rest, rfl, first, none⟩ := List.map_eq_cons_iff.mp tokens_eq
  obtain rfl := List.map_eq_nil_iff.mp none
  refine ⟨.leaf value token.span, ?_, rfl⟩
  rw [List.foldl_cons, stepToken_of_awaits awaits (by rw [first]; nofun), beginValue, first]
  rfl

/-- A token that opens a list or an object. -/
theorem stepToken_open
    {frames : List Frame}
    {token : Token Lexeme}
    (awaits : Awaits frames) :
    (token.lexeme = .mark '[' → stepToken (.building frames) token =
      .building (.list token.span.start .opened [] :: frames)) ∧
    (token.lexeme = .mark '{' → stepToken (.building frames) token =
      .building (.object token.span.start .opened [] :: frames)) := by
  constructor <;>
    · intro mark
      rw [stepToken_of_awaits awaits (by rw [mark]; simp), beginValue, mark]
      rfl

theorem stepToken_closeList
    {start : ℕ}
    {done : List Doc}
    {frames : List Frame}
    {token : Token Lexeme}
    (mark : token.lexeme = .mark ']') :
    stepToken (.building (.list start .opened done :: frames)) token =
        place (closeList start done (.closed token.span)) frames ∧
      stepToken (.building (.list start .afterItem done :: frames)) token =
        place (closeList start done (.closed token.span)) frames := by
  constructor <;> simp only [stepToken, stepList, mark]

/-- A name and a colon, where a key is wanted. -/
theorem foldl_name
    {start : ℕ}
    {done : List Entry}
    {frames : List Frame}
    {name : String}
    {key colon : Token Lexeme}
    (isName : key.lexeme = .string (.ok name))
    (isColon : colon.lexeme = .mark ':')
    (stage : ObjectStage)
    (wanted : stage = .opened ∨ stage = .afterComma) :
    stepToken (stepToken (.building (.object start stage done :: frames)) key) colon =
      .building (.object start
        (.afterColon ⟨.ok name, key.span, Span.point colon.span.start⟩) done :: frames) := by
  rcases wanted with rfl | rfl <;> simp only [stepToken, beginKey, isName, stepColon, isColon]

mutual

/-- The tokens of a document put it in place. -/
theorem places_lexemes :
    (json : Json) → (frames : List Frame) → (tokens : List (Token Lexeme)) → Awaits frames →
      tokens.map Token.lexeme = json.lexemes → Places frames tokens json
  | .null, _, _, awaits, written => places_scalar awaits written
  | .bool _, _, _, awaits, written => places_scalar awaits written
  | .integer _, _, _, awaits, written => places_scalar awaits written
  | .real _, _, _, awaits, written => places_scalar awaits written
  | .text s, frames, tokens, awaits, written => by
      obtain ⟨token, rest, rfl, first, none⟩ := List.map_eq_cons_iff.mp written
      obtain rfl := List.map_eq_nil_iff.mp none
      refine ⟨.leaf (.text s) token.span, ?_, rfl⟩
      rw [List.foldl_cons, stepToken_of_awaits awaits (by rw [first]; nofun), beginValue, first]
      rfl
  | .list [], frames, tokens, awaits, written => by
      rw [lexemes] at written
      obtain ⟨left, rest, rfl, isLeft, written⟩ := List.map_eq_cons_iff.mp written
      obtain ⟨right, rest, rfl, isRight, none⟩ := List.map_eq_cons_iff.mp written
      obtain rfl := List.map_eq_nil_iff.mp none
      refine ⟨_, ?_, content?_closeList left.span.start right.span .nil⟩
      rw [List.foldl_cons, (stepToken_open awaits).1 isLeft, List.foldl_cons,
        (stepToken_closeList isRight).1]
      rfl
  | .list (item :: items), frames, tokens, awaits, written => by
      rw [lexemes] at written
      obtain ⟨left, tokens, rfl, isLeft, written⟩ := List.map_eq_cons_iff.mp written
      obtain ⟨front, tokens, rfl, first, written⟩ := List.map_eq_append_iff.mp written
      obtain ⟨middle, rest, rfl, others, written⟩ := List.map_eq_append_iff.mp written
      obtain ⟨right, rest, rfl, isRight, none⟩ := List.map_eq_cons_iff.mp written
      obtain rfl := List.map_eq_nil_iff.mp none
      obtain ⟨doc, placed, said⟩ :=
        places_lexemes item (.list left.span.start .opened [] :: frames) front trivial first
      obtain ⟨docs, folded, saidOthers⟩ :=
        foldl_itemLexemes left.span.start frames items [doc] middle others
      refine ⟨_, ?_, content?_closeList left.span.start right.span (.cons said saidOthers)⟩
      rw [List.foldl_cons, (stepToken_open awaits).1 isLeft, List.foldl_append, placed, place,
        List.foldl_append, folded, List.foldl_cons, (stepToken_closeList isRight).2,
        List.reverse_cons]
      rfl
  | .object [], frames, tokens, awaits, written => by
      rw [lexemes] at written
      obtain ⟨left, rest, rfl, isLeft, written⟩ := List.map_eq_cons_iff.mp written
      obtain ⟨right, rest, rfl, isRight, none⟩ := List.map_eq_cons_iff.mp written
      obtain rfl := List.map_eq_nil_iff.mp none
      refine ⟨_, ?_, content?_closeObject left.span.start right.span .nil⟩
      rw [List.foldl_cons, (stepToken_open awaits).2 isLeft, List.foldl_cons, stepToken, beginKey,
        isRight]
      rfl
  | .object ((name, value) :: members), frames, tokens, awaits, written => by
      rw [lexemes] at written
      obtain ⟨left, tokens, rfl, isLeft, written⟩ := List.map_eq_cons_iff.mp written
      obtain ⟨key, tokens, rfl, isName, written⟩ := List.map_eq_cons_iff.mp written
      obtain ⟨colon, tokens, rfl, isColon, written⟩ := List.map_eq_cons_iff.mp written
      obtain ⟨front, tokens, rfl, first, written⟩ := List.map_eq_append_iff.mp written
      obtain ⟨middle, rest, rfl, others, written⟩ := List.map_eq_append_iff.mp written
      obtain ⟨right, rest, rfl, isRight, none⟩ := List.map_eq_cons_iff.mp written
      obtain rfl := List.map_eq_nil_iff.mp none
      obtain ⟨doc, placed, said⟩ := places_lexemes value
        (.object left.span.start
          (.afterColon ⟨.ok name, key.span, Span.point colon.span.start⟩) [] :: frames)
        front trivial first
      obtain ⟨last, lastDoc, entries, folded, saidOthers⟩ :=
        foldl_memberLexemes left.span.start frames members
          ⟨.ok name, key.span, Span.point colon.span.start⟩ doc [] middle others
      refine ⟨_, ?_, content?_closeObject left.span.start right.span
        (saidOthers (name, value) right.span.start ⟨rfl, said⟩)⟩
      rw [List.foldl_cons, (stepToken_open awaits).2 isLeft, List.foldl_cons, List.foldl_cons,
        foldl_name isName isColon .opened (.inl rfl), List.foldl_append, placed, place,
        List.foldl_append, folded, List.foldl_cons, stepToken, stepMember, isRight,
        List.append_nil, List.reverse_append]
      rfl

/-- The tokens of the items behind the first one, in an open list. -/
theorem foldl_itemLexemes (start : ℕ) (frames : List Frame) :
    (items : List Json) → (done : List Doc) → (tokens : List (Token Lexeme)) →
      tokens.map Token.lexeme = itemLexemes items →
        ∃ docs, tokens.foldl stepToken (.building (.list start .afterItem done :: frames)) =
            .building (.list start .afterItem (docs.reverse ++ done) :: frames) ∧
          List.Forall₂ (fun doc item => doc.content? = some item) docs items
  | [], done, tokens, written => by
      obtain rfl := List.map_eq_nil_iff.mp written
      exact ⟨[], rfl, .nil⟩
  | item :: items, done, tokens, written => by
      rw [itemLexemes] at written
      obtain ⟨comma, tokens, rfl, isComma, written⟩ := List.map_eq_cons_iff.mp written
      obtain ⟨front, back, rfl, first, others⟩ := List.map_eq_append_iff.mp written
      obtain ⟨doc, placed, said⟩ :=
        places_lexemes item (.list start .afterComma done :: frames) front trivial first
      obtain ⟨docs, folded, saidOthers⟩ :=
        foldl_itemLexemes start frames items (doc :: done) back others
      have stepped : stepToken (.building (.list start .afterItem done :: frames)) comma =
          .building (.list start .afterComma done :: frames) := by
        simp only [stepToken, stepList, isComma]
      refine ⟨doc :: docs, ?_, .cons said saidOthers⟩
      rw [List.foldl_cons, stepped, List.foldl_append, placed, place, folded, List.reverse_cons,
        List.append_assoc]
      rfl

/--
The tokens of the members behind the first one, in an open object.  The last
member waits for what follows it.
-/
theorem foldl_memberLexemes (start : ℕ) (frames : List Frame) :
    (members : List (String × Json)) → (key : Key) → (value : Doc) → (done : List Entry) →
      (tokens : List (Token Lexeme)) → tokens.map Token.lexeme = memberLexemes members →
        ∃ last lastDoc entries,
          tokens.foldl stepToken
              (.building (.object start (.afterValue key value) done :: frames)) =
            .building
              (.object start (.afterValue last lastDoc) (entries.reverse ++ done) :: frames) ∧
          ∀ pair here, Entry.Says ⟨key, value, 0⟩ pair →
            List.Forall₂ Entry.Says (entries ++ [⟨last, lastDoc, here⟩]) (pair :: members)
  | [], key, value, done, tokens, written => by
      obtain rfl := List.map_eq_nil_iff.mp written
      exact ⟨key, value, [], rfl, fun pair here said => .cons said .nil⟩
  | (name, item) :: members, key, value, done, tokens, written => by
      rw [memberLexemes] at written
      obtain ⟨comma, tokens, rfl, isComma, written⟩ := List.map_eq_cons_iff.mp written
      obtain ⟨next, tokens, rfl, isName, written⟩ := List.map_eq_cons_iff.mp written
      obtain ⟨colon, tokens, rfl, isColon, written⟩ := List.map_eq_cons_iff.mp written
      obtain ⟨front, back, rfl, first, others⟩ := List.map_eq_append_iff.mp written
      obtain ⟨doc, placed, said⟩ := places_lexemes item
        (.object start (.afterColon ⟨.ok name, next.span, Span.point colon.span.start⟩)
          (⟨key, value, comma.span.start⟩ :: done) :: frames)
        front trivial first
      obtain ⟨last, lastDoc, entries, folded, saidOthers⟩ :=
        foldl_memberLexemes start frames members
          ⟨.ok name, next.span, Span.point colon.span.start⟩ doc
          (⟨key, value, comma.span.start⟩ :: done) back others
      have stepped :
          stepToken (.building (.object start (.afterValue key value) done :: frames)) comma =
            .building (.object start .afterComma (⟨key, value, comma.span.start⟩ :: done)
              :: frames) := by
        simp only [stepToken, stepMember, isComma]
      refine ⟨last, lastDoc, ⟨key, value, comma.span.start⟩ :: entries, ?_, ?_⟩
      · rw [List.foldl_cons, stepped, List.foldl_cons, List.foldl_cons,
          foldl_name isName isColon .afterComma (.inr rfl), List.foldl_append, placed, place,
          folded, List.reverse_cons, List.append_assoc]
        rfl
      · exact fun pair here first => .cons first (saidOthers (name, item) here ⟨rfl, said⟩)

end

end Tokens

/-- A text with the tokens of a document is read as that document. -/
theorem exists_parse_of_cutsBefore
    {reading : Numeral.Reading}
    {text : List Char}
    {json : Json}
    (cuts : (scanner reading).CutsBefore Ends text json.lexemes) :
    ∃ doc, parse reading text = ⟨doc, none⟩ ∧ doc.content? = some json := by
  obtain ⟨tokens, written, cut⟩ := cuts 0 [] nofun
  obtain ⟨doc, placed, said⟩ := places_lexemes json [] tokens trivial written
  refine ⟨doc, ?_, said⟩
  have ended : (scanner reading).scanFrom .between 0 text = ⟨tokens ++ [], none⟩ := by
    rw [← List.append_nil text]
    exact cut
  have scanned : Token.scan reading text = tokens := by
    rw [Token.scan, ended]
    exact (List.append_nil _).trans (List.append_nil tokens)
  rw [parse, scanned, ofTokens, placed]
  rfl

/--
A document that is written over several lines and read again says what was written, but
for the doubles, which are what the reading makes of their texts.  Blanks may follow it.
-/
theorem parse_pretty_append
    {reading : Numeral.Reading}
    {reread : Float → Float}
    {json : Json}
    {blanks : List Char}
    (readable : json.Readable reading reread)
    (blank : ∀ c ∈ blanks, Token.isBlank c = true) :
    ∃ doc, parse reading (json.pretty.toList ++ blanks) = ⟨doc, none⟩ ∧
      doc.content? = some (json.mapReals reread) := by
  have cuts : (scanner reading).CutsBefore Ends (prettyChars 0 json ++ blanks)
      (json.mapReals reread).lexemes := by
    rw [← List.append_nil (lexemes _)]
    refine (cutsBefore_prettyChars 0 json readable).append
      (Token.cuts_blanks blank).before fun rest ends => ?_
    cases blanks with
    | nil => exact ends
    | cons c blanks =>
        rintro _ ⟨⟩
        exact .inl (blank c List.mem_cons_self)
  rw [pretty, String.toList_ofList]
  exact exists_parse_of_cutsBefore cuts

theorem parse_pretty
    {reading : Numeral.Reading}
    {reread : Float → Float}
    {json : Json}
    (readable : json.Readable reading reread) :
    ∃ doc, parse reading json.pretty.toList = ⟨doc, none⟩ ∧
      doc.content? = some (json.mapReals reread) := by
  rw [← List.append_nil json.pretty.toList]
  exact parse_pretty_append readable nofun

end Json
end WindsAloft
