import WindsAloft.Proofs.Tracing

/-!
# Fine lines

A line is fine if it is a text that says nothing or that is a record.  Fine lines give the
records among them.  Of other lines the first is a fault under its number, whose account
says what is wrong with it, and it does not matter what is behind it.
-/

namespace WindsAloft
namespace Trace

variable {reading : Numeral.Reading}

/-- Whether a line is a text that says nothing or that is a record. -/
def IsFine (reading : Numeral.Reading) (line : List UInt8) : Prop :=
  ∃ text content,
    line = Utf8.encode text ∧ Trimmed text content ∧
      (content = [] ∨ content.head? = some '#' ∨
        ∃ record, (Json.parse reading content).read Record.read = .ok record)

/-- Lines that are all fine, beside the records among them in order. -/
inductive AreFine (reading : Numeral.Reading) : List (List UInt8) → List Record → Prop
  | nil : AreFine reading [] []
  | silent
      {line : List UInt8}
      {lines : List (List UInt8)}
      {records : List Record}
      {text content : List Char}
      (encoded : line = Utf8.encode text)
      (trimmed : Trimmed text content)
      (silent : content = [] ∨ content.head? = some '#')
      (rest : AreFine reading lines records) :
      AreFine reading (line :: lines) records
  | record
      {line : List UInt8}
      {lines : List (List UInt8)}
      {records : List Record}
      {text content : List Char}
      {record : Record}
      (encoded : line = Utf8.encode text)
      (trimmed : Trimmed text content)
      (nonempty : content ≠ [])
      (noComment : content.head? ≠ some '#')
      (read : (Json.parse reading content).read Record.read = .ok record)
      (rest : AreFine reading lines records) :
      AreFine reading (line :: lines) (record :: records)

theorem isFine_iff {line : List UInt8} (number : ℕ) :
    IsFine reading line ↔
      given? reading line number = none ∨
        ∃ record, given? reading line number = some (.ok record) := by
  simp only [← gives_iff]
  constructor
  · rintro ⟨text, content, encoded, trimmed, meaning⟩
    by_cases silent : content = [] ∨ content.head? = some '#'
    · exact .inl (.silent encoded trimmed silent)
    · rw [← or_assoc] at meaning
      obtain ⟨record, read⟩ := meaning.resolve_left silent
      rw [not_or] at silent
      exact .inr ⟨record, .record encoded trimmed silent.1 silent.2 read⟩
  · rintro (nothing | ⟨record, something⟩)
    · cases nothing with
      | silent encoded trimmed silent =>
          exact ⟨_, _, encoded, trimmed, silent.elim .inl fun comment => .inr (.inl comment)⟩
    · cases something with
      | record encoded trimmed _ _ read =>
          exact ⟨_, _, encoded, trimmed, .inr (.inr ⟨record, read⟩)⟩

/-- Every other line gives a fault under its number. -/
theorem exists_fault {line : List UInt8} (notFine : ¬ IsFine reading line) (number : ℕ) :
    ∃ cause, given? reading line number = some (.error ⟨number, cause⟩) := by
  rw [isFine_iff number, not_or, not_exists] at notFine
  obtain ⟨something, noRecord⟩ := notFine
  cases given : given? reading line number with
  | none => exact absurd given something
  | some item =>
      cases item with
      | error fault =>
          cases gives_iff.mpr given with
          | encoding _ _ => exact ⟨_, rfl⟩
          | fault _ _ _ _ _ => exact ⟨_, rfl⟩
      | ok record => exact absurd given (noRecord record)

theorem exists_areFine
    {lines : List (List UInt8)}
    (fine : ∀ line ∈ lines, IsFine reading line) :
    ∃ records, AreFine reading lines records := by
  induction lines with
  | nil => exact ⟨[], .nil⟩
  | cons line lines ih =>
      rw [List.forall_mem_cons] at fine
      obtain ⟨records, rest⟩ := ih fine.2
      obtain ⟨text, content, encoded, trimmed, meaning⟩ := fine.1
      by_cases silent : content = [] ∨ content.head? = some '#'
      · exact ⟨records, .silent encoded trimmed silent rest⟩
      · rw [← or_assoc] at meaning
        obtain ⟨record, read⟩ := meaning.resolve_left silent
        rw [not_or] at silent
        exact ⟨record :: records, .record encoded trimmed silent.1 silent.2 read rest⟩

variable {lines : List (List UInt8)} {records others : List Record}

theorem AreFine.isFine (fine : AreFine reading lines records) :
    ∀ line ∈ lines, IsFine reading line := by
  induction fine with
  | nil => exact nofun
  | silent encoded trimmed silent _ ih =>
      exact List.forall_mem_cons.mpr
        ⟨⟨_, _, encoded, trimmed, silent.elim .inl fun comment => .inr (.inl comment)⟩, ih⟩
  | record encoded trimmed _ _ read _ ih =>
      exact List.forall_mem_cons.mpr ⟨⟨_, _, encoded, trimmed, .inr (.inr ⟨_, read⟩)⟩, ih⟩

/-- Fine lines give the records among them, whatever their numbers. -/
theorem AreFine.filterMap_given? (fine : AreFine reading lines records) (number : ℕ) :
    (lines.zipIdx number).filterMap (fun entry => given? reading entry.1 entry.2) =
      records.map .ok := by
  induction fine generalizing number with
  | nil => rfl
  | silent encoded trimmed silent _ ih =>
      rw [List.zipIdx_cons, List.filterMap_cons,
        gives_iff.mp (.silent encoded trimmed silent), ih]
  | record encoded trimmed nonempty noComment read _ ih =>
      rw [List.zipIdx_cons, List.filterMap_cons,
        gives_iff.mp (.record encoded trimmed nonempty noComment read), ih]
      rfl

/-- There are no other records among fine lines. -/
theorem AreFine.unique
    (fine : AreFine reading lines records)
    (alsoFine : AreFine reading lines others) :
    records = others := by
  have same := (fine.filterMap_given? 0).symm.trans (alsoFine.filterMap_given? 0)
  exact List.map_injective_iff.mpr (fun _ _ => Except.ok.inj) same

/-- A line with a fault is not fine. -/
theorem Gives.not_isFine
    {bad : List UInt8}
    {number : ℕ}
    {fault : Fault}
    (gives : Gives reading bad number (some (.error fault))) :
    ¬ IsFine reading bad := by
  rw [isFine_iff number, gives_iff.mp gives]
  simp

/-- The first line that is not fine is the same however the lines are split. -/
theorem first_unique
    {good later others rest : List (List UInt8)}
    {bad other : List UInt8}
    (same : good ++ bad :: later = others ++ other :: rest)
    (fine : ∀ line ∈ good, IsFine reading line)
    (notFine : ¬ IsFine reading bad)
    (othersFine : ∀ line ∈ others, IsFine reading line)
    (otherNotFine : ¬ IsFine reading other) :
    good = others ∧ bad = other := by
  rcases List.append_eq_append_iff.mp same with ⟨between, rfl, behind⟩ | ⟨between, rfl, behind⟩
  · cases between with
    | nil => exact ⟨(List.append_nil good).symm, (List.cons.inj behind).1⟩
    | cons line between =>
        obtain ⟨rfl, -⟩ := List.cons.inj behind
        exact absurd (othersFine bad (List.mem_append_right good List.mem_cons_self)) notFine
  · cases between with
    | nil => exact ⟨List.append_nil others, (List.cons.inj behind).1.symm⟩
    | cons line between =>
        obtain ⟨rfl, -⟩ := List.cons.inj behind
        exact absurd (fine other (List.mem_append_right others List.mem_cons_self)) otherNotFine

/-- What lines give: the records among them if all are fine, else those up to the first fault. -/
inductive UpToFault (reading : Numeral.Reading) (lines : List (List UInt8)) : List Item → Prop
  | whole
      {records : List Record}
      (fine : AreFine reading lines records) :
      UpToFault reading lines (records.map .ok)
  | broken
      {good later : List (List UInt8)}
      {bad : List UInt8}
      {records : List Record}
      {cause : Cause}
      {others : List Item}
      (split : lines = good ++ bad :: later)
      (fine : AreFine reading good records)
      (gives : Gives reading bad (good.length + 1) (some (.error ⟨good.length + 1, cause⟩))) :
      UpToFault reading lines (records.map .ok ++ .error ⟨good.length + 1, cause⟩ :: others)

theorem upToFault_given? (lines : List (List UInt8)) :
    UpToFault reading lines
      ((lines.zipIdx 1).filterMap fun entry => given? reading entry.1 entry.2) := by
  classical
  cases first : lines.find? fun line => ¬ IsFine reading line with
  | none =>
      have allFine : ∀ line ∈ lines, IsFine reading line := by
        simpa using List.find?_eq_none.mp first
      obtain ⟨records, fine⟩ := exists_areFine allFine
      rw [fine.filterMap_given?]
      exact .whole fine
  | some bad =>
      obtain ⟨isBad, good, later, rfl, isGood⟩ := List.find?_eq_some_iff_append.mp first
      have notFine : ¬ IsFine reading bad := by simpa using isBad
      have goodFine : ∀ line ∈ good, IsFine reading line := by simpa using isGood
      obtain ⟨records, fine⟩ := exists_areFine goodFine
      obtain ⟨cause, given⟩ := exists_fault notFine (good.length + 1)
      rw [List.zipIdx_append, List.filterMap_append, fine.filterMap_given?,
        List.zipIdx_cons, List.filterMap_cons, Nat.add_comm 1, given]
      exact .broken rfl fine (gives_iff.mpr given)

theorem upToFault_readWith (bytes : List UInt8) :
    UpToFault reading (pieces bytes) (readWith reading bytes) := by
  rw [readWith, Cursor.items_eq]
  exact upToFault_given? (pieces bytes)

/-- How the account of a cause reads. -/
inductive Cause.Reads : Cause → String → Prop
  | invalid
      {index length : ℕ} :
      Reads (.encoding ⟨index, some length⟩)
        ("invalid utf-8 sequence of " ++ toString length ++ " bytes from index " ++ toString index)
  | incomplete
      {index : ℕ} :
      Reads (.encoding ⟨index, none⟩)
        ("incomplete utf-8 byte sequence from index " ++ toString index)
  | record
      {content : List Char}
      {fault : WindsAloft.Fault} :
      Reads (.record content fault) (fault.describe Json.wording content)

theorem Cause.reads_message (cause : Cause) : cause.Reads cause.message := by
  cases cause with
  | encoding fault =>
      obtain ⟨index, _ | length⟩ := fault
      · exact .incomplete
      · exact .invalid
  | record content fault => exact .record

end Trace
end WindsAloft
