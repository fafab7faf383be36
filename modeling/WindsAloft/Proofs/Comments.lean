import WindsAloft.Proofs.Tracing

/-!
# Lines that say nothing

Blank lines and comments may stand between any two lines of a trace: the others give
what they gave before, only that faults behind them are a line further down.  This
holds as long as the line is UTF-8 as a whole.  A comment has no more freedom there
than a record, since lines are decoded before anything looks for the `#`, and one
that is not UTF-8 gives a fault of its own.
-/

namespace WindsAloft

/-- A text at the beginning is decoded whatever comes behind it. -/
theorem Utf8.decodeFrom_append (index : ℕ) (text : List Char) (bytes : List UInt8) :
    decodeFrom index (encode text ++ bytes) =
      (decodeFrom (index + size text) bytes).map (text ++ ·) := by
  induction text generalizing index with
  | nil =>
      show decodeFrom index bytes = (decodeFrom index bytes).map id
      cases decodeFrom index bytes <;> rfl
  | cons c text ih =>
      have shift : index + size (c :: text) =
          index + (String.utf8EncodeChar c).length + size text := by
        rw [String.length_utf8EncodeChar, Nat.add_assoc]
        rfl
      rw [encode, List.flatMap_cons, List.append_assoc, decodeFrom_encodeChar, ← encode, ih, shift]
      cases decodeFrom (index + (String.utf8EncodeChar c).length + size text) bytes <;> rfl

namespace Trace

variable {reading : Numeral.Reading} {front back line : List UInt8}

/-- A line of blanks only, or one with `#` behind its blanks and then whatever bytes. -/
inductive Remark : List UInt8 → Prop
  | blank {text : List Char} (blank : ∀ c ∈ text, isBlank c = true) : Remark (Utf8.encode text)
  | comment
      {blanks : List Char}
      (blank : ∀ c ∈ blanks, isBlank c = true)
      (bytes : List UInt8) :
      Remark (Utf8.encode (blanks ++ ['#']) ++ bytes)

theorem isSilent_blank {text : List Char} (blank : ∀ c ∈ text, isBlank c = true) :
    isSilent (trim text) = true := by
  rw [trim, List.dropWhile_eq_nil_iff.mpr blank]
  rfl

theorem isSilent_comment
    {blanks : List Char}
    (blank : ∀ c ∈ blanks, isBlank c = true)
    (rest : List Char) :
    isSilent (trim (blanks ++ ['#'] ++ rest)) = true := by
  rw [trim, List.append_assoc, List.dropWhile_append_of_pos blank]
  show isSilent (trimEnd ('#' :: rest)) = true
  rw [trimEnd]
  split <;> rfl

/-- A remark gives nothing, unless it is not UTF-8. -/
theorem Remark.readLine_eq (remark : Remark line) (reading : Numeral.Reading) :
    readLine reading line =
      match Utf8.decode line with
      | .error fault => some (.error (.encoding fault))
      | .ok _ => none := by
  unfold readLine
  cases remark with
  | @blank text blank =>
      simp only [Utf8.decode_eq_ok_iff.mpr rfl, isSilent_blank blank, if_true]
  | @comment blanks blank bytes =>
      rw [Utf8.decode, Utf8.decodeFrom_append]
      cases Utf8.decodeFrom (0 + Utf8.size (blanks ++ ['#'])) bytes with
      | error fault => rfl
      | ok rest => simp only [Except.map, isSilent_comment blank, if_true]

/-- Whether bytes are whole lines, each with its newline. -/
def WholeLines (bytes : List UInt8) : Prop :=
  bytes = [] ∨ ∃ lines, bytes = lines ++ [newline]

theorem readWith_nil : readWith reading [] = [] :=
  Cursor.items_nil 0

/-- Behind whole lines, a trace gives what it gives alone, under later numbers. -/
theorem readWith_append (whole : WholeLines front) (back : List UInt8) :
    readWith reading (front ++ back) =
      readWith reading front ++
        (readWith reading back).map (Item.behind (front.count newline)) := by
  rcases whole with rfl | ⟨lines, rfl⟩
  · have same : Item.behind 0 = id := by
      funext item
      cases item <;> rfl
    rw [readWith_nil, List.count_nil, same, List.map_id]
    rfl
  · have counted : (lines ++ [newline]).count newline = lines.count newline + 1 := by
      rw [List.count_append, List.count_singleton_self]
    rw [List.append_assoc, List.singleton_append, readWith_append_newline,
      readWith_append_newline lines [], readWith_nil, List.map_nil, List.append_nil, counted]

/-- What a single line gives. -/
theorem readWith_line (oneLine : newline ∉ line) :
    readWith reading line = (given? reading line 1).toList := by
  by_cases empty : line = []
  · rw [empty]
    exact readWith_nil
  · rw [readWith, Cursor.items_eq, pieces_of_notMem oneLine empty, List.zipIdx_cons,
      List.filterMap_cons, Nat.zero_add]
    cases given? reading line 1 <;> rfl

theorem Item.behind_behind (lines more : ℕ) (item : Item) :
    Item.behind lines (Item.behind more item) = Item.behind (lines + more) item := by
  cases item with
  | ok record => rfl
  | error fault =>
      show Except.error (Fault.mk (fault.line + more + lines) fault.cause) = _
      rw [Nat.add_assoc, Nat.add_comm more]
      rfl

/-- A line between whole lines and a trace gives its item there. -/
theorem readWith_insert
    (whole : WholeLines front)
    (oneLine : newline ∉ line)
    (back : List UInt8) :
    readWith reading (front ++ line ++ newline :: back) =
      readWith reading front ++
        ((given? reading line (front.count newline + 1)).toList ++
          (readWith reading back).map (Item.behind (front.count newline + 1))) := by
  have moved : Item.behind (front.count newline) ∘ Item.behind 1 =
      Item.behind (front.count newline + 1) :=
    funext fun item => Item.behind_behind _ 1 item
  rw [List.append_assoc, readWith_append whole, readWith_append_newline, readWith_line oneLine,
    List.count_eq_zero.mpr oneLine, List.map_append, List.map_map, Nat.zero_add, moved,
    Nat.add_comm _ 1, given?_add]
  cases given? reading line 1 <;> rfl

section Numbers

theorem line_of_given?
    {number : ℕ}
    {fault : Fault}
    (given : given? reading line number = some (.error fault)) :
    fault.line = number := by
  unfold given? at given
  obtain ⟨result, -, same⟩ := Option.map_eq_some_iff.mp given
  cases result with
  | ok record => cases same
  | error cause => rw [← Except.error.inj same]

/-- The numbers of faults are those of lines, counted from one. -/
theorem line_of_mem_readWith
    {bytes : List UInt8}
    {fault : Fault}
    (given : .error fault ∈ readWith reading bytes) :
    0 < fault.line ∧ fault.line ≤ (pieces bytes).length := by
  rw [readWith, Cursor.items_eq] at given
  obtain ⟨⟨piece, number⟩, inside, said⟩ := List.mem_filterMap.mp given
  have bounds := List.mem_zipIdx inside
  rw [line_of_given? said]
  omega

theorem length_pieces (whole : WholeLines front) : (pieces front).length = front.count newline := by
  rcases whole with rfl | ⟨lines, rfl⟩
  · rfl
  · rw [pieces_append_newline, List.length_append, length_splitOn, List.count_append]
    rfl

end Numbers

/-- An item once a line is inserted behind so many lines: faults further down have moved. -/
def Item.pushed (lines : ℕ) (item : Item) : Item :=
  item.mapError fun fault =>
    if lines < fault.line then ⟨fault.line + 1, fault.cause⟩ else fault

theorem map_pushed_readWith (whole : WholeLines front) :
    (readWith reading front).map (Item.pushed (front.count newline)) = readWith reading front := by
  refine (List.map_congr_left fun item inside => ?_).trans (List.map_id _)
  cases item with
  | ok record => rfl
  | error fault =>
      have last := (line_of_mem_readWith inside).2
      rw [length_pieces whole] at last
      exact congrArg Except.error (if_neg last.not_gt)

theorem map_pushed_behind (lines : ℕ) :
    ((readWith reading back).map (Item.behind lines)).map (Item.pushed lines) =
      (readWith reading back).map (Item.behind (lines + 1)) := by
  rw [List.map_map]
  refine List.map_congr_left fun item inside => ?_
  cases item with
  | ok record => rfl
  | error fault =>
      have first := (line_of_mem_readWith inside).1
      have later : lines < fault.line + lines := by omega
      exact congrArg Except.error (if_pos later)

/-- The items of both parts, as they are once a line is inserted between them. -/
theorem map_pushed_append (whole : WholeLines front) (back : List UInt8) :
    (readWith reading (front ++ back)).map (Item.pushed (front.count newline)) =
      readWith reading front ++
        (readWith reading back).map (Item.behind (front.count newline + 1)) := by
  rw [readWith_append whole, List.map_append, map_pushed_readWith whole, map_pushed_behind]

/--
A blank line or a comment may be inserted at the beginning of every line of a trace, and
at its end also without a newline: as long as the line is UTF-8, the items are the
same, and faults behind it are a line further down.  If it is not, it gives one fault
more, under its own number, and has no effect on the others either.
-/
theorem readWith_insert_remark
    (reading : Numeral.Reading)
    {front line : List UInt8}
    (back : List UInt8)
    (whole : WholeLines front)
    (remark : Remark line)
    (oneLine : newline ∉ line) :
    let items := readWith reading (front ++ back)
    let inserted := readWith reading (front ++ line ++ newline :: back)
    ((∃ text, line = Utf8.encode text) →
      inserted = items.map (Item.pushed (front.count newline)) ∧
        readWith reading (front ++ line) = readWith reading front) ∧
    ∀ fault, Utf8.decode line = .error fault →
      ∃ behind,
        items = readWith reading front ++ behind ∧
        inserted =
          readWith reading front ++ .error ⟨front.count newline + 1, .encoding fault⟩ ::
            behind.map (Item.pushed (front.count newline)) := by
  intro items inserted
  have said := remark.readLine_eq reading
  have there : inserted = _ := readWith_insert whole oneLine back
  constructor
  · rintro ⟨text, encoded⟩
    rw [Utf8.decode_eq_ok_iff.mpr encoded] at said
    have silent (number : ℕ) : given? reading line number = none := by rw [given?, said]; rfl
    rw [silent] at there
    refine ⟨there.trans (map_pushed_append whole back).symm, ?_⟩
    rw [readWith_append whole, readWith_line oneLine, silent]
    exact List.append_nil _
  · intro fault refused
    rw [refused] at said
    rw [given?, said] at there
    refine ⟨_, readWith_append whole back, ?_⟩
    rw [map_pushed_behind]
    exact there

/-- A comment with an umlaut, and one that breaks off in it, before a line that is not UTF-8. -/
theorem readWith_insert_remark_umlaut :
    let reading := Numeral.stepwise
    let comment : List UInt8 := [0x20, 0x23, 0xC3, 0xB6]
    let broken : List UInt8 := [0x20, 0x23, 0xC3]
    read [0xFF] = [.error ⟨1, .encoding ⟨0, some 1⟩⟩] ∧
      readWith reading (comment ++ newline :: [0xFF]) =
        [.error ⟨2, .encoding ⟨0, some 1⟩⟩] ∧
      readWith reading (broken ++ newline :: [0xFF]) =
        [.error ⟨1, .encoding ⟨2, none⟩⟩, .error ⟨2, .encoding ⟨0, some 1⟩⟩] := by
  intro reading comment broken
  have alone : read [0xFF] = [.error ⟨1, .encoding ⟨0, some 1⟩⟩] := by
    rw [read, readWith_line (by decide)]
    rfl
  have blank : ∀ c ∈ [' '], isBlank c = true := List.forall_mem_singleton.mpr (by decide)
  have isComment : Remark comment := .comment blank [0xC3, 0xB6]
  have isBroken : Remark broken := .comment blank [0xC3]
  obtain ⟨passed, -⟩ := readWith_insert_remark reading [0xFF] (.inl rfl) isComment (by decide)
  obtain ⟨-, refused⟩ := readWith_insert_remark reading [0xFF] (.inl rfl) isBroken (by decide)
  have moved := (passed ⟨[' ', '#', 'ö'], by decide +kernel⟩).1
  obtain ⟨behind, items, faults⟩ := refused ⟨2, none⟩ (by decide +kernel)
  have same : behind = [.error ⟨1, .encoding ⟨0, some 1⟩⟩] := by
    rw [readWith_nil] at items
    exact items.symm.trans alone
  rw [same, readWith_nil] at faults
  refine ⟨alone, moved.trans ?_, faults⟩
  rw [List.nil_append]
  exact congrArg (List.map (Item.pushed 0)) alone

/-- A comment that is not UTF-8 is not passed over, even in an empty trace. -/
theorem ill_formed_comment_not_passed_over :
    let comment : List UInt8 := [0x23, 0xFF]
    read ([] ++ []) = [] ∧
      read ([] ++ comment ++ newline :: []) = [.error ⟨1, .encoding ⟨1, some 1⟩⟩] ∧
      ¬ ∀ front back line, WholeLines front → Remark line → newline ∉ line →
        read (front ++ line ++ newline :: back) =
          (read (front ++ back)).map (Item.pushed (front.count newline)) := by
  intro comment
  have noBlanks : ∀ c ∈ [], isBlank c = true := nofun
  have isComment : Remark comment := .comment noBlanks [0xFF]
  have empty : read ([] ++ []) = [] := readWith_nil
  have fault : read ([] ++ comment ++ newline :: []) = [.error ⟨1, .encoding ⟨1, some 1⟩⟩] := by
    rw [read, readWith_insert (.inl rfl) (by decide), readWith_nil]
    rfl
  refine ⟨empty, fault, fun always => ?_⟩
  have silent := always [] [] comment (.inl rfl) isComment (by decide)
  rw [fault, empty] at silent
  cases silent

end Trace
end WindsAloft
