import Mathlib
import WindsAloft.Proofs.Encoding
import WindsAloft.Trace

/-!
# What a trace gives

A trace is read by a cursor that takes off one line after the other and passes
over those that say nothing.  Seen from outside there is no cursor: the bytes are
cut at every newline, the pieces are numbered from one, and every piece gives
nothing, a record or a fault under its number.  So faults have no effect on what
is behind them, and traces may be put one behind the other with a newline between.
-/

namespace WindsAloft

/-- What a text is without the blanks around it. -/
def Trimmed (text content : List Char) : Prop :=
  ∃ front back,
    text = front ++ content ++ back ∧
    (∀ c ∈ front ++ back, isBlank c = true) ∧
    (∀ c, content.head? = some c → isBlank c = false) ∧
    (∀ c, content.getLast? = some c → isBlank c = false)

theorem trimEnd_append (text : List Char) :
    ∃ back, text = trimEnd text ++ back ∧ ∀ c ∈ back, isBlank c = true := by
  induction text with
  | nil => exact ⟨[], rfl, nofun⟩
  | cons c text ih =>
      obtain ⟨back, parts, blank⟩ := ih
      unfold trimEnd
      split
      · next nothing =>
          rw [nothing, List.nil_append] at parts
          split
          · next here =>
              refine ⟨c :: text, rfl, ?_⟩
              rw [parts]
              simpa [here] using blank
          · exact ⟨back, by rw [parts]; rfl, blank⟩
      · next rest =>
          exact ⟨back, congrArg (c :: ·) parts, blank⟩

theorem getLast?_trimEnd {text : List Char} {c : Char} (last : (trimEnd text).getLast? = some c) :
    isBlank c = false := by
  induction text with
  | nil => cases last
  | cons first text ih =>
      unfold trimEnd at last
      split at last
      · split at last
        · cases last
        · next shown =>
            obtain rfl : first = c := Option.some.inj last
            exact Bool.eq_false_iff.mpr shown
      · next nonempty =>
          apply ih
          rw [← last]
          cases rest : trimEnd text with
          | nil => exact absurd rest nonempty
          | cons second rest => simp

theorem head?_trimEnd {text : List Char} {c : Char} (first : (trimEnd text).head? = some c) :
    text.head? = some c := by
  obtain ⟨back, parts, -⟩ := trimEnd_append text
  rw [parts, List.head?_append, first]
  rfl

theorem trimmed_trim (text : List Char) : Trimmed text (trim text) := by
  obtain ⟨back, parts, blank⟩ := trimEnd_append (text.dropWhile isBlank)
  refine ⟨text.takeWhile isBlank, back, ?_, ?_, ?_, fun c => getLast?_trimEnd⟩
  · rw [trim, List.append_assoc, ← parts, List.takeWhile_append_dropWhile]
  · intro c inside
    rcases List.mem_append.mp inside with before | behind
    · exact List.mem_takeWhile_imp before
    · exact blank c behind
  · intro c first
    have shown := List.head?_dropWhile_not isBlank text
    rw [head?_trimEnd first] at shown
    simpa using shown

theorem trimEnd_append_of_blank
    (text : List Char)
    {back : List Char}
    (blank : ∀ c ∈ back, isBlank c = true) :
    trimEnd (text ++ back) = trimEnd text := by
  induction text with
  | nil =>
      induction back with
      | nil => rfl
      | cons c back ih =>
          rw [List.forall_mem_cons] at blank
          have rest : trimEnd back = [] := ih blank.2
          change trimEnd (c :: back) = []
          rw [trimEnd, rest]
          exact if_pos blank.1
  | cons c text ih => rw [List.cons_append, trimEnd, trimEnd, ih]

theorem trimEnd_of_getLast?
    {text : List Char}
    (shown : ∀ c, text.getLast? = some c → isBlank c = false) :
    trimEnd text = text := by
  induction text with
  | nil => rfl
  | cons c text ih =>
      cases text with
      | nil =>
          have last : isBlank c = false := shown c rfl
          rw [trimEnd, trimEnd, if_neg (by rw [last]; exact Bool.false_ne_true)]
      | cons second text =>
          have rest := ih fun last isLast => shown last (by rw [List.getLast?_cons_cons, isLast])
          rw [trimEnd, rest]

/-- There is only one thing that a text is without the blanks around it. -/
theorem Trimmed.eq_trim {text content : List Char} (trimmed : Trimmed text content) :
    trim text = content := by
  obtain ⟨front, back, rfl, blank, first, last⟩ := trimmed
  rw [List.forall_mem_append] at blank
  rw [trim, List.append_assoc, List.dropWhile_append_of_pos blank.1]
  cases content with
  | nil => rw [List.nil_append, List.dropWhile_eq_nil_iff.mpr blank.2, trimEnd]
  | cons c content =>
      have shown : isBlank c = false := first c rfl
      rw [List.cons_append, List.dropWhile_cons_of_neg (by rw [shown]; exact Bool.false_ne_true),
        ← List.cons_append, trimEnd_append_of_blank _ blank.2, trimEnd_of_getLast? last]

/-- A line taken off ends at the first newline or with the bytes. -/
theorem eq_of_takeLine
    {bytes line rest : List UInt8}
    (taken : takeLine bytes = some (line, rest)) :
    newline ∉ line ∧
      (bytes = line ++ newline :: rest ∨ bytes = line ∧ rest = [] ∧ line ≠ []) := by
  cases bytes with
  | nil => cases taken
  | cons byte bytes =>
      simp only [takeLine, Option.some.injEq, Prod.mk.injEq] at taken
      obtain ⟨front, behind⟩ := taken
      have parts :=
        (byte :: bytes).takeWhile_append_dropWhile (p := fun byte => decide (byte ≠ newline))
      rw [front] at parts
      refine ⟨?_, ?_⟩
      · rw [← front]
        intro inside
        simpa using List.mem_takeWhile_imp inside
      · cases left : (byte :: bytes).dropWhile fun byte => decide (byte ≠ newline) with
        | nil =>
            rw [left, List.append_nil] at parts
            rw [left] at behind
            exact .inr ⟨parts.symm, behind.symm, parts ▸ List.cons_ne_nil _ _⟩
        | cons first others =>
            have ends :=
              List.head?_dropWhile_not (fun byte => decide (byte ≠ newline)) (byte :: bytes)
            rw [left] at ends parts behind
            obtain rfl : first = newline := by simpa using ends
            left
            rw [← parts, ← behind]
            rfl

namespace Trace

variable {reading : Numeral.Reading}

/-- The pieces of some bytes between newlines; there is none behind a final newline. -/
def pieces (bytes : List UInt8) : List (List UInt8) :=
  let cut := bytes.splitOn newline
  if cut.getLast? = some [] then cut.dropLast else cut

theorem pieces_of_notMem {bytes : List UInt8} (whole : newline ∉ bytes) (some : bytes ≠ []) :
    pieces bytes = [bytes] := by
  simp [pieces, List.splitOn_eq_singleton whole, some]

theorem pieces_append_newline (front back : List UInt8) :
    pieces (front ++ newline :: back) = front.splitOn newline ++ pieces back := by
  have nonempty := List.splitOn_ne_nil newline back
  unfold pieces
  simp only [List.splitOn_append_cons_self, List.getLast?_append_of_ne_nil _ nonempty,
    List.dropLast_append_of_ne_nil nonempty]
  split <;> rfl

/-- The line that is taken off is the first of the pieces. -/
theorem pieces_of_takeLine
    {bytes line rest : List UInt8}
    (taken : takeLine bytes = some (line, rest)) :
    pieces bytes = line :: pieces rest := by
  obtain ⟨whole, rfl | ⟨rfl, rfl, nonempty⟩⟩ := eq_of_takeLine taken
  · rw [pieces_append_newline, List.splitOn_eq_singleton whole]
    rfl
  · rw [pieces_of_notMem whole nonempty]
    rfl

/-- What a piece gives under its number. -/
def given? (reading : Numeral.Reading) (piece : List UInt8) (number : ℕ) : Option Item :=
  (readLine reading piece).map fun result => result.mapError fun cause => ⟨number, cause⟩

namespace Cursor

theorem items_nil (number : ℕ) : items reading ⟨[], number⟩ = [] := by
  rw [items, next?]
  rfl

theorem items_eq_of_next?_eq
    {cursor other : Cursor}
    (same : cursor.next? reading = other.next? reading) :
    cursor.items reading = other.items reading := by
  rw [items, items]
  split <;> split <;> simp_all

/-- A line taken off gives its item, if it gives one, in front of those of the others. -/
theorem items_of_takeLine
    {bytes line rest : List UInt8}
    (taken : takeLine bytes = some (line, rest))
    (number : ℕ) :
    items reading ⟨bytes, number⟩ =
      (given? reading line (number + 1)).toList ++ items reading ⟨rest, number + 1⟩ := by
  cases said : readLine reading line with
  | none =>
      have passed : next? reading ⟨bytes, number⟩ = next? reading ⟨rest, number + 1⟩ := by
        rw [next?]
        split <;> simp_all
      rw [items_eq_of_next?_eq passed, given?, said]
      rfl
  | some result =>
      have found :
          next? reading ⟨bytes, number⟩ =
            some
              (result.mapError (fun cause => ⟨number + 1, cause⟩), ⟨rest, number + 1⟩) := by
        rw [next?]
        split <;> simp_all
      rw [items, given?, said]
      split <;> simp_all

/-- Every piece gives what it gives under its number, whatever the others are. -/
theorem items_eq (bytes : List UInt8) (number : ℕ) :
    items reading ⟨bytes, number⟩ =
      ((pieces bytes).zipIdx (number + 1)).filterMap fun entry =>
        given? reading entry.1 entry.2 := by
  induction size : bytes.length using Nat.strong_induction_on generalizing bytes number with
  | _ length ih =>
    cases taken : takeLine bytes with
    | none =>
        cases bytes with
        | nil => exact items_nil number
        | cons byte bytes => cases taken
    | some parts =>
        obtain ⟨line, rest⟩ := parts
        have shorter := takeLine_lt taken
        rw [items_of_takeLine taken, pieces_of_takeLine taken, List.zipIdx_cons,
          ih rest.length (by omega) rest (number + 1) rfl, List.filterMap_cons]
        cases given? reading line (number + 1) <;> rfl

end Cursor

/-- What the empty piece behind a final newline would give: nothing. -/
theorem given?_nil (number : ℕ) : given? reading [] number = none :=
  rfl

/-- The empty piece behind a final newline may as well be there. -/
theorem filterMap_splitOn (bytes : List UInt8) (number : ℕ) :
    ((bytes.splitOn newline).zipIdx number).filterMap
        (fun entry => given? reading entry.1 entry.2) =
      ((pieces bytes).zipIdx number).filterMap fun entry => given? reading entry.1 entry.2 := by
  simp only [pieces]
  split
  · next final =>
      have parts := List.dropLast_append_getLast? [] final
      conv_lhs => rw [← parts]
      rw [List.zipIdx_append, List.filterMap_append]
      simp [given?_nil]
  · rfl

/-- There is one piece more than there are newlines. -/
theorem length_splitOn (bytes : List UInt8) :
    (bytes.splitOn newline).length = bytes.count newline + 1 := by
  induction bytes with
  | nil => rfl
  | cons byte bytes ih =>
      rw [List.splitOn_cons_eq_if_modifyHead, List.count_cons]
      split
      · rw [List.length_cons, ih]
      · rw [List.length_modifyHead, ih]

/-- An item with the number of lines in front of its trace added to its own. -/
def Item.behind (lines : ℕ) (item : Item) : Item :=
  item.mapError fun fault => ⟨fault.line + lines, fault.cause⟩

theorem given?_add (piece : List UInt8) (number lines : ℕ) :
    given? reading piece (number + lines) =
      (given? reading piece number).map (Item.behind lines) := by
  unfold given?
  rw [Option.map_map]
  congr 1
  funext result
  cases result <;> rfl

theorem filterMap_given?_add (pieces : List (List UInt8)) (number lines : ℕ) :
    (pieces.zipIdx (number + lines)).filterMap (fun entry => given? reading entry.1 entry.2) =
      ((pieces.zipIdx number).filterMap fun entry =>
        given? reading entry.1 entry.2).map (Item.behind lines) := by
  induction pieces generalizing number with
  | nil => rfl
  | cons piece pieces ih =>
      have rest := ih (number + 1)
      rw [Nat.add_right_comm] at rest
      rw [List.zipIdx_cons, List.zipIdx_cons, List.filterMap_cons, List.filterMap_cons,
        given?_add, rest]
      cases given? reading piece number <;> rfl

theorem readWith_append_newline (front back : List UInt8) :
    readWith reading (front ++ newline :: back) =
      readWith reading front ++
        (readWith reading back).map (Item.behind (front.count newline + 1)) := by
  unfold readWith
  rw [Cursor.items_eq, Cursor.items_eq, Cursor.items_eq, pieces_append_newline,
    List.zipIdx_append, List.filterMap_append, filterMap_splitOn, length_splitOn,
    filterMap_given?_add (pieces back) (0 + 1)]

/-- What a piece gives under its number, said of the text that it encodes. -/
inductive Gives (reading : Numeral.Reading) (piece : List UInt8) (number : ℕ) :
    Option Item → Prop
  | encoding
      {fault : Utf8.Fault}
      (noText : ∀ text, piece ≠ Utf8.encode text)
      (found : Utf8.decode piece = .error fault) :
      Gives reading piece number (some (.error ⟨number, .encoding fault⟩))
  | silent
      {text content : List Char}
      (encoded : piece = Utf8.encode text)
      (trimmed : Trimmed text content)
      (silent : content = [] ∨ content.head? = some '#') :
      Gives reading piece number none
  | record
      {text content : List Char}
      {record : Record}
      (encoded : piece = Utf8.encode text)
      (trimmed : Trimmed text content)
      (nonempty : content ≠ [])
      (noComment : content.head? ≠ some '#')
      (read : (Json.parse reading content).read Record.read = .ok record) :
      Gives reading piece number (some (.ok record))
  | fault
      {text content : List Char}
      {fault : WindsAloft.Fault}
      (encoded : piece = Utf8.encode text)
      (trimmed : Trimmed text content)
      (nonempty : content ≠ [])
      (noComment : content.head? ≠ some '#')
      (read : (Json.parse reading content).read Record.read = .error fault) :
      Gives reading piece number (some (.error ⟨number, .record content fault⟩))

theorem isSilent_iff (content : List Char) :
    isSilent content = true ↔ content = [] ∨ content.head? = some '#' := by
  cases content with
  | nil => simp [isSilent]
  | cons c content => simp [isSilent]

/-- A line that says something is read as a record. -/
theorem readLine_of_content
    {piece : List UInt8}
    {text content : List Char}
    (encoded : piece = Utf8.encode text)
    (trimmed : Trimmed text content)
    (nonempty : content ≠ [])
    (noComment : content.head? ≠ some '#') :
    readLine reading piece = some (readContent reading content) := by
  have speaks := mt (isSilent_iff content).mp (not_or.mpr ⟨nonempty, noComment⟩)
  simp only [readLine, Utf8.decode_eq_ok_iff.mpr encoded, trimmed.eq_trim, if_neg speaks]

theorem gives_given? (piece : List UInt8) (number : ℕ) :
    Gives reading piece number (given? reading piece number) := by
  unfold given? readLine
  cases decoded : Utf8.decode piece with
  | error fault =>
      refine .encoding (fun text encoded => ?_) decoded
      rw [Utf8.decode_eq_ok_iff.mpr encoded] at decoded
      cases decoded
  | ok text =>
      have encoded := Utf8.decode_eq_ok_iff.mp decoded
      have trimmed := trimmed_trim text
      by_cases silent : isSilent (trim text) = true
      · simp only [if_pos silent]
        exact .silent encoded trimmed ((isSilent_iff _).mp silent)
      · have speaks := mt (isSilent_iff _).mpr silent
        rw [not_or] at speaks
        simp only [if_neg silent, readContent]
        cases read : (Json.parse reading (trim text)).read Record.read with
        | error fault => exact .fault encoded trimmed speaks.1 speaks.2 read
        | ok record => exact .record encoded trimmed speaks.1 speaks.2 read

/-- What a piece gives is told by the text that it encodes. -/
theorem gives_iff {piece : List UInt8} {number : ℕ} {item? : Option Item} :
    Gives reading piece number item? ↔ given? reading piece number = item? := by
  constructor
  · intro gives
    cases gives with
    | encoding noText found => rw [given?, readLine, found]; rfl
    | silent encoded trimmed silent =>
        simp only [given?, readLine, Utf8.decode_eq_ok_iff.mpr encoded, trimmed.eq_trim,
          if_pos ((isSilent_iff _).mpr silent), Option.map_none]
    | record encoded trimmed nonempty noComment read =>
        rw [given?, readLine_of_content encoded trimmed nonempty noComment, readContent, read]
        rfl
    | fault encoded trimmed nonempty noComment read =>
        rw [given?, readLine_of_content encoded trimmed nonempty noComment, readContent, read]
        rfl
  · rintro rfl
    exact gives_given? piece number

/--
The items of a trace are what its pieces between newlines give, in order and
numbered from one.  So a trace with another one behind it, a newline between them,
gives the items of both, those of the second under numbers behind the lines of the
first; and a final newline makes no difference.
-/
theorem readWith_gives (reading : Numeral.Reading) (bytes : List UInt8) :
    (readWith reading bytes =
        ((pieces bytes).zipIdx 1).filterMap fun entry => given? reading entry.1 entry.2) ∧
      (∀ piece number, Gives reading piece number (given? reading piece number)) ∧
      (∀ back,
        readWith reading (bytes ++ newline :: back) =
          readWith reading bytes ++
            (readWith reading back).map (Item.behind (1 + bytes.count newline))) ∧
      readWith reading (bytes ++ [newline]) = readWith reading bytes := by
  refine ⟨Cursor.items_eq bytes 0, gives_given?, fun back => ?_, ?_⟩
  · rw [readWith_append_newline, Nat.add_comm 1]
  · rw [readWith_append_newline]
    have nothing : readWith reading [] = [] := Cursor.items_nil 0
    rw [nothing, List.map_nil, List.append_nil]

end Trace
end WindsAloft
