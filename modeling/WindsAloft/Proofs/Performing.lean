import WindsAloft.Command
import WindsAloft.Proofs.FineLines
import WindsAloft.Proofs.Rules
import WindsAloft.Proofs.Summaries
import WindsAloft.Proofs.Usable

/-!
# What comes of replaying a trace

A replay needs settings.  Where there are none it fails before it looks at its trace, and
prints nothing.  Otherwise it goes through the lines of the trace up to the first that is
neither a record nor a text that says nothing.  It prints one line for every query on the
way, and succeeds if and only if it comes to the end.  Only then, and only for people, there
is a summary; otherwise the first bad line is reported under its number.
-/

namespace WindsAloft

namespace Settings

/--
Whether settings apply: where no path is given they are the usual ones, otherwise the file
at the path has to be a text of a known format that holds them, and they have to be valid.
-/
inductive ApplyAt (files : Files) : Option String → Settings → Prop
  | usual : ApplyAt files none .classic
  | loaded
      {path : String}
      {format : Format}
      {text : List Char}
      {settings : Settings}
      (known : formatOf path = .ok format)
      (found : files.text path = .ok text)
      (parsed : parseWith Numeral.stepwise format text = .ok settings)
      (valid : settings.Valid) :
      ApplyAt files (some path) settings

theorem ofText_eq_ok_iff {format : Format} {text : List Char} {settings : Settings} :
    ofText format text = .ok settings ↔
      parseWith Numeral.stepwise format text = .ok settings ∧ settings.Valid :=
  ofTextWith_eq_ok_iff

theorem ofFile_eq_ok_iff {files : Files} {path : String} {settings : Settings} :
    ofFile files path = .ok settings ↔ settings.ApplyAt files (some path) := by
  unfold ofFile
  constructor
  · intro loaded
    split at loaded
    · cases loaded
    · next format known =>
        split at loaded
        · cases loaded
        · next text found =>
            obtain ⟨parsed, valid⟩ := ofText_eq_ok_iff.mp loaded
            exact .loaded known found parsed valid
  · intro applies
    cases applies with
    | loaded known found parsed valid =>
        simp only [known, found]
        exact ofText_eq_ok_iff.mpr ⟨parsed, valid⟩

end Settings

/-- Where there is a text there is something. -/
theorem Files.exist_of_text
    {files : Files}
    {path : String}
    {text : List Char}
    (found : files.text path = .ok text) :
    files.exist path = true := by
  unfold exist
  cases entry : files path with
  | ok _ => rfl
  | error fault =>
      rw [Files.text, Files.bytes, entry] at found
      cases found

namespace Command

theorem settingsAt_eq_ok_iff {files : Files} {path : Option String} {settings : Settings} :
    settingsAt files path = .ok settings ↔ settings.ApplyAt files path := by
  cases path with
  | none =>
      constructor
      · rintro ⟨⟩
        exact .usual
      · rintro ⟨⟩
        rfl
  | some path =>
      rw [← Settings.ofFile_eq_ok_iff, settingsAt]
      constructor
      · intro found
        split at found
        · cases loaded : Settings.ofFile files path with
          | error fault =>
              rw [loaded] at found
              cases found
          | ok other =>
              rw [loaded] at found
              exact congrArg Except.ok (Except.ok.inj found)
        · cases found
      · intro loaded
        cases Settings.ofFile_eq_ok_iff.mp loaded with
        | loaded known found parsed valid =>
            rw [if_pos (Files.exist_of_text found), loaded]
            rfl

end Command

namespace Replay

/-- The answers to the queries among some records, each from the measurements in front of it. -/
structure Answers (settings : Settings) (records : List Record) (outcomes : List Outcome) :
    Prop where
  length : outcomes.length = (Record.points records).length
  answer :
    ∀ before point after,
      records = before ++ .query point :: after →
        outcomes[(Record.points before).length]? =
          some
            { point := point
              estimate :=
                settings.kernel.estimate
                  (stored settings (Record.samples before)).toList point }

/-- Printed lines are those of some answers, one for each and in order. -/
def Prints (json : Bool) (outcomes : List Outcome) (printed : List String) : Prop :=
  List.Forall₂ (fun outcome line => OnOneLine line.toList ∧ outcome.Written json line)
    outcomes printed

theorem answers_run
    {ε : Type}
    (settings : Settings)
    (items : List (Except ε Record)) :
    Answers settings (readable items) ((start settings).run items).outcomes where
  length := (run_told settings items).length_outcomes
  answer := (run_told settings items).outcome

theorem prints_run
    {ε : Type}
    (settings : Settings)
    (json : Bool)
    (items : List (Except ε Record)) :
    Prints json ((start settings).run items).outcomes
      (((start settings).run items).outcomes.map (Outcome.line json)) := by
  rw [Prints, List.forall₂_map_right_iff, List.forall₂_same]
  intro outcome given
  exact ⟨outcome.onOneLine_line json, Outcome.written_line json (contributors_lt given)⟩

/-- Among the lines of answers there is no title of a summary. -/
theorem Prints.title_notMem
    {json : Bool}
    {outcomes : List Outcome}
    {printed : List String}
    (prints : Prints json outcomes printed) :
    "=== Replay Statistics ===" ∉ printed := by
  induction prints with
  | nil => exact List.not_mem_nil
  | cons line _ ih => exact List.not_mem_cons_of_ne_of_not_mem line.2.ne_title.symm ih

/-- The answer to a single query is printed as a single line. -/
theorem Prints.exists_single
    {settings : Settings}
    {records : List Record}
    {json : Bool}
    {outcomes : List Outcome}
    {printed : List String}
    {point : Point}
    (prints : Prints json outcomes printed)
    (answers : Answers settings records outcomes)
    (single : Record.points records = [point]) :
    ∃ outcome line, outcomes = [outcome] ∧ printed = [line] ∧
      OnOneLine line.toList ∧ outcome.Written json line := by
  have count := answers.length
  rw [single] at count
  obtain ⟨outcome, rfl⟩ := List.length_eq_one_iff.mp count
  obtain ⟨line, printed, ⟨onOneLine, written⟩, nothing, rfl⟩ := List.forall₂_cons_left_iff.mp prints
  obtain rfl := List.forall₂_nil_left_iff.mp nothing
  exact ⟨outcome, line, rfl, rfl, onOneLine, written⟩

/-- What comes of the replay of some lines under settings. -/
inductive Performed
    (settings : Settings) (trace : String) (json : Bool) (lines : List (List UInt8))
    (proceedings : Proceedings) :
    Prop
  /-- All lines are fine, and the answers are followed by a summary, unless they are JSON. -/
  | whole
      {records : List Record}
      {outcomes : List Outcome}
      {printed : List String}
      (fine : Trace.AreFine Numeral.stepwise lines records)
      (answers : Answers settings records outcomes)
      (prints : Prints json outcomes printed)
      (asJson : json = true → ∀ elapsed, proceedings.allLines elapsed = printed)
      (forPeople :
        json = false → ∀ elapsed, ∃ summary,
          Summarizes settings records outcomes summary ∧
          proceedings.allLines elapsed = printed ++ summary)
      (ending : proceedings.ending = .done)
  /-- There is a first line with a fault, which is reported as the cause of the failure. -/
  | broken
      {good later : List (List UInt8)}
      {bad : List UInt8}
      {cause : Trace.Cause}
      {account : String}
      {records : List Record}
      {outcomes : List Outcome}
      {printed : List String}
      (split : lines = good ++ bad :: later)
      (fine : Trace.AreFine Numeral.stepwise good records)
      (gives :
        Trace.Gives Numeral.stepwise bad (good.length + 1)
          (some (.error ⟨good.length + 1, cause⟩)))
      (reads : cause.Reads account)
      (answers : Answers settings records outcomes)
      (prints : Prints json outcomes printed)
      (output : ∀ elapsed, proceedings.allLines elapsed = printed)
      (ending :
        proceedings.ending =
          .failed
            ⟨"Replay of " ++ trace ++ " failed",
              ["trace parse error at line " ++ toString (good.length + 1) ++ ": " ++ account]⟩)

section Outcomes

variable
  {settings : Settings}
  {trace : String}
  {json : Bool}
  {lines : List (List UInt8)}
  {records : List Record}
  {proceedings : Proceedings}

/-- A replay succeeds just where all lines are fine. -/
theorem Performed.done_iff (performed : Performed settings trace json lines proceedings) :
    proceedings.ending = .done ↔ ∀ line ∈ lines, Trace.IsFine Numeral.stepwise line := by
  cases performed with
  | whole fine _ _ _ _ ending => exact iff_of_true ending fine.isFine
  | @broken good later bad _ _ _ _ _ split _ gives _ _ _ _ ending =>
      refine iff_of_false (by simp [ending]) fun fine => gives.not_isFine (fine bad ?_)
      rw [split]
      exact List.mem_append_right good List.mem_cons_self

/-- Where all lines are fine, their answers are printed, and the summary for people. -/
theorem Performed.of_fine
    (performed : Performed settings trace json lines proceedings)
    (fine : Trace.AreFine Numeral.stepwise lines records) :
    ∃ outcomes printed,
      Answers settings records outcomes ∧
      Prints json outcomes printed ∧
      (json = true → ∀ elapsed, proceedings.allLines elapsed = printed) ∧
      (json = false → ∀ elapsed, ∃ summary,
        Summarizes settings records outcomes summary ∧
        proceedings.allLines elapsed = printed ++ summary) := by
  have ending := performed.done_iff.mpr fine.isFine
  cases performed with
  | whole alsoFine answers prints asJson forPeople =>
      obtain rfl := alsoFine.unique fine
      exact ⟨_, _, answers, prints, asJson, forPeople⟩
  | broken _ _ _ _ _ _ _ failed => cases ending.symm.trans failed

/-- Where the first fault is known, the answers in front of it are printed, and it is reported. -/
theorem Performed.of_fault
    {good later : List (List UInt8)}
    {bad : List UInt8}
    {cause : Trace.Cause}
    (performed : Performed settings trace json (good ++ bad :: later) proceedings)
    (fine : Trace.AreFine Numeral.stepwise good records)
    (gives :
      Trace.Gives Numeral.stepwise bad (good.length + 1)
        (some (.error ⟨good.length + 1, cause⟩))) :
    ∃ outcomes printed account,
      Answers settings records outcomes ∧
      Prints json outcomes printed ∧
      (∀ elapsed, proceedings.allLines elapsed = printed) ∧
      cause.Reads account ∧
      proceedings.ending =
        .failed
          ⟨"Replay of " ++ trace ++ " failed",
            ["trace parse error at line " ++ toString (good.length + 1) ++ ": " ++ account]⟩ := by
  cases performed with
  | whole allFine =>
      exact absurd (allFine.isFine bad (List.mem_append_right good List.mem_cons_self))
        gives.not_isFine
  | broken split otherFine otherGives reads answers prints output ending =>
      obtain ⟨rfl, rfl⟩ :=
        Trace.first_unique split fine.isFine gives.not_isFine otherFine.isFine
          otherGives.not_isFine
      obtain rfl := otherFine.unique fine
      have same := (Trace.gives_iff.mp otherGives).symm.trans (Trace.gives_iff.mp gives)
      simp only [Option.some.injEq, Except.error.injEq, Trace.Fault.mk.injEq, true_and] at same
      subst same
      exact ⟨_, _, _, answers, prints, output, reads, ending⟩

/-- The title of a summary is printed just where a replay for people succeeds. -/
theorem Performed.title_mem_iff
    (performed : Performed settings trace json lines proceedings)
    (elapsed : Duration) :
    "=== Replay Statistics ===" ∈ proceedings.allLines elapsed ↔
      json = false ∧ proceedings.ending = .done := by
  cases performed with
  | whole _ _ prints asJson forPeople ending =>
      cases json with
      | true => simp [asJson rfl elapsed, prints.title_notMem]
      | false =>
          obtain ⟨summary, summarizes, shown⟩ := forPeople rfl elapsed
          simp [shown, summarizes.title_mem, ending]
  | broken _ _ _ _ _ prints output ending =>
      simp [output elapsed, prints.title_notMem, ending]

end Outcomes

end Replay

namespace Command

open Replay (Performed)

/-- The run over what lines give, up to the first fault. -/
theorem performed_run
    {lines : List (List UInt8)}
    {items : List Trace.Item}
    (given : Trace.UpToFault Numeral.stepwise lines items)
    (settings : Settings)
    (trace : String)
    (json : Bool)
    (signals : List Signal) :
    Performed settings trace json lines
      { proceedingsOfRun trace json
          ((Replay.start settings).run (items.map (Except.mapError ReplayFault.trace)))
        with signals := signals } := by
  have answers := Replay.answers_run settings (items.map (Except.mapError ReplayFault.trace))
  have prints := Replay.prints_run settings json (items.map (Except.mapError ReplayFault.trace))
  obtain ⟨sameRecords, sameFault⟩ := Replay.readable_mapError ReplayFault.trace items
  rw [Replay.run_eq, sameRecords, sameFault] at answers prints ⊢
  cases given with
  | @whole records fine =>
      obtain ⟨theirRecords, noFault⟩ := Replay.readable_map_ok (ε := Trace.Fault) records
      rw [theirRecords, noFault] at answers prints ⊢
      refine .whole fine answers prints ?_ ?_ rfl
      · rintro rfl elapsed
        exact List.append_nil _
      · rintro rfl elapsed
        exact ⟨_, Replay.summarizes_summary settings _ elapsed, rfl⟩
  | @broken good later bad records cause others split fine gives =>
      obtain ⟨theirRecords, itsFault⟩ :=
        Replay.readable_map_ok_append_error records ⟨good.length + 1, cause⟩ others
      rw [theirRecords, itsFault] at answers prints ⊢
      refine .broken split fine gives cause.reads_message answers prints (fun elapsed => ?_) rfl
      cases json <;> exact List.append_nil _

variable {files : Files} {memory : Memory} {trace : String} {path : Option String}
  {bytes : List UInt8} {settings : Settings}

theorem replayTrace_eq
    (there : files trace = .ok (.file bytes))
    (room : Store.Obtainable memory settings.capacity.toNat)
    (json : Bool) :
    replayTrace files memory trace settings json =
      proceedingsOfRun trace json
        ((Replay.start settings).run
          ((Trace.read bytes).map (Except.mapError ReplayFault.trace))) := by
  have items :
      traceAt files trace =
        .ok ((Trace.read bytes).map (Except.mapError ReplayFault.trace)) := by
    rw [traceAt, Files.bytes, there]
  have start : Replay.start? settings = some (Replay.start settings) :=
    if_pos room.1
  rw [replayTrace, items, start]
  exact if_pos room

theorem performed_of_applyAt
    (there : files trace = .ok (.file bytes))
    (applies : settings.ApplyAt files path)
    (room : Store.Obtainable memory settings.capacity.toNat)
    (json : Bool) :
    Performed settings trace json (Trace.pieces bytes)
      ((replay trace path json 0).perform files memory) := by
  have exist : files.exist trace = true := by rw [Files.exist, there]
  rw [perform, performReplay, settingsAt_eq_ok_iff.mpr applies]
  simp only [if_pos exist, replayTrace_eq there room]
  exact performed_run (Trace.upToFault_readWith bytes) settings trace json _

/-- What comes of a replay without settings: nothing is printed, and nothing else is read. -/
structure Refused
    (files : Files) (memory : Memory) (trace : String) (path : Option String) (json : Bool)
    (proceedings : Proceedings) :
    Prop where
  output : ∀ elapsed, proceedings.allLines elapsed = []
  ending :
    ∃ fault, settingsAt files path = .error fault ∧ proceedings.ending = .failed fault.failure
  unread :
    ∀ other : Files, (∀ place ∈ path, other place = files place) →
      (replay trace path json 0).perform other memory = proceedings

/-- Of all files only the one at the path matters for the settings. -/
theorem settingsAt_congr {other : Files} (same : ∀ place ∈ path, other place = files place) :
    settingsAt other path = settingsAt files path := by
  cases path with
  | none => rfl
  | some place =>
      have entry : other place = files place := same place rfl
      have exist : other.exist place = files.exist place := by
        rw [Files.exist, Files.exist, entry]
      have bytes : other.bytes place = files.bytes place := by
        rw [Files.bytes, Files.bytes, entry]
      have text : other.text place = files.text place := by
        rw [Files.text, Files.text, bytes]
      rw [settingsAt, settingsAt, Settings.ofFile, Settings.ofFile, exist, text]

theorem refused_of_error
    {fault : SettingsFault}
    (unsettled : settingsAt files path = .error fault)
    (memory : Memory)
    (trace : String)
    (json : Bool) :
    Refused files memory trace path json ((replay trace path json 0).perform files memory) where
  output elapsed := by
    rw [perform, performReplay, unsettled]
    rfl
  ending := by
    refine ⟨fault, unsettled, ?_⟩
    rw [perform, performReplay, unsettled]
    rfl
  unread other same := by
    rw [perform, perform, performReplay, performReplay, settingsAt_congr same, unsettled]

/--
A replay of a trace that is there, on a machine with room for the samples.  It succeeds if
and only if some settings apply and all lines are fine, and just then the title of a summary
is printed for people.  Under settings it prints its answers up to the first line with a
fault, which it reports, and a summary only if there is no such line.  Without settings it
is refused.
-/
theorem perform_replay
    (path : Option String)
    (json : Bool)
    (there : files trace = .ok (.file bytes))
    (room :
      ∀ settings : Settings,
        settings.ApplyAt files path → Store.Obtainable memory settings.capacity.toNat) :
    let proceedings := (replay trace path json 0).perform files memory
    (proceedings.ending = .done ↔
        (∃ settings : Settings, settings.ApplyAt files path) ∧
          ∀ line ∈ Trace.pieces bytes, Trace.IsFine Numeral.stepwise line) ∧
      (∀ elapsed,
        "=== Replay Statistics ===" ∈ proceedings.allLines elapsed ↔
          json = false ∧ proceedings.ending = .done) ∧
      (∀ settings : Settings,
        settings.ApplyAt files path →
          Performed settings trace json (Trace.pieces bytes) proceedings) ∧
      ((¬ ∃ settings : Settings, settings.ApplyAt files path) →
        Refused files memory trace path json proceedings) := by
  intro proceedings
  have performed (settings : Settings) (applies : settings.ApplyAt files path) :
      Performed settings trace json (Trace.pieces bytes) proceedings :=
    performed_of_applyAt there applies (room settings applies) json
  have refused (nothing : ¬ ∃ settings : Settings, settings.ApplyAt files path) :
      Refused files memory trace path json proceedings := by
    cases found : settingsAt files path with
    | error fault => exact refused_of_error found memory trace json
    | ok settings => exact absurd ⟨settings, settingsAt_eq_ok_iff.mp found⟩ nothing
  refine ⟨⟨fun done => ?_, ?_⟩, fun elapsed => ?_, performed, refused⟩
  · by_cases settled : ∃ settings : Settings, settings.ApplyAt files path
    · obtain ⟨settings, applies⟩ := settled
      exact ⟨⟨settings, applies⟩, (performed settings applies).done_iff.mp done⟩
    · obtain ⟨fault, -, ending⟩ := (refused settled).ending
      cases done.symm.trans ending
  · rintro ⟨⟨settings, applies⟩, fine⟩
    exact (performed settings applies).done_iff.mpr fine
  · by_cases settled : ∃ settings : Settings, settings.ApplyAt files path
    · obtain ⟨settings, applies⟩ := settled
      exact (performed settings applies).title_mem_iff elapsed
    · have nothing := refused settled
      obtain ⟨fault, -, ending⟩ := nothing.ending
      simp [nothing.output elapsed, ending]

/-- A query as a line. -/
def queryLine : String :=
  "\x7b\"type\":\"query\",\"time\":1,\"altitude\":2\x7d"

/-- A trace that consists of a text, at whatever path. -/
def traceOf (text : String) : Files :=
  fun _ => .ok (.file (Utf8.encode text.toList))

theorem queryLine_areFine :
    Trace.AreFine Numeral.stepwise [Utf8.encode queryLine.toList] [.query ⟨1, 2⟩] := by
  have read :
      (Json.parse Numeral.stepwise (trim queryLine.toList)).read Record.read =
        .ok (.query ⟨1, 2⟩) := by
    decide +kernel
  exact .record rfl (trimmed_trim _) (by decide) (by decide) read .nil

theorem commented_areFine :
    Trace.AreFine Numeral.stepwise
      (Trace.pieces (Utf8.encode ("#\n" ++ queryLine).toList)) [.query ⟨1, 2⟩] := by
  have two :
      Trace.pieces (Utf8.encode ("#\n" ++ queryLine).toList) =
        [Utf8.encode ['#'], Utf8.encode queryLine.toList] := by
    decide +kernel
  rw [two]
  exact .silent rfl (trimmed_trim _) (.inr rfl) queryLine_areFine

/-- A word that begins no value is a fault behind its first character. -/
theorem word_gives (number : ℕ) :
    Trace.Gives Numeral.stepwise (Utf8.encode "word".toList) number
      (some (.error ⟨number, .record "word".toList ⟨.flaw .expectedValue, some ⟨1, 1⟩⟩⟩)) :=
  .fault rfl (trimmed_trim _) (by decide) (by decide) (by decide +kernel)

/--
A comment and a query are replayed under the usual settings, as JSON and for people.  A word
behind the query, in the second line, breaks the replay off.
-/
theorem perform_replay_of_query :
    let asJson :=
      (replay "trace" none true 0).perform (traceOf ("#\n" ++ queryLine)) .addressable
    let forPeople :=
      (replay "trace" none false 0).perform (traceOf ("#\n" ++ queryLine)) .addressable
    let broken :=
      (replay "trace" none false 0).perform (traceOf (queryLine ++ "\nword")) .addressable
    (asJson.ending = .done ∧
      ∃ line, OnOneLine line.toList ∧ ∀ elapsed, asJson.allLines elapsed = [line]) ∧
    (forPeople.ending = .done ∧
      ∃ outcome line, outcome.Written false line ∧
        ∀ elapsed, ∃ summary,
          Replay.Summarizes .classic [.query ⟨1, 2⟩] [outcome] summary ∧
          "=== Replay Statistics ===" ∈ summary ∧
          forPeople.allLines elapsed = line :: summary) ∧
    (∃ line, ∀ elapsed, broken.allLines elapsed = [line]) ∧
    broken.ending =
      .failed
        ⟨"Replay of trace failed",
          ["trace parse error at line 2: expected value at line 1 column 1"]⟩ := by
  intro asJson forPeople broken
  have room {files : Files} (settings : Settings) (applies : settings.ApplyAt files none) :
      Store.Obtainable .addressable settings.capacity.toNat := by
    cases applies
    decide
  refine ⟨?_, ?_, ?_⟩
  · obtain ⟨succeeds, -, performed, -⟩ :=
      @perform_replay (traceOf ("#\n" ++ queryLine)) .addressable "trace" _ none true rfl room
    obtain ⟨_, _, answers, prints, output, -⟩ :=
      (performed .classic .usual).of_fine commented_areFine
    obtain ⟨_, line, rfl, rfl, onOneLine, -⟩ := prints.exists_single answers rfl
    exact ⟨succeeds.mpr ⟨⟨_, .usual⟩, commented_areFine.isFine⟩, line, onOneLine, output rfl⟩
  · obtain ⟨succeeds, -, performed, -⟩ :=
      @perform_replay (traceOf ("#\n" ++ queryLine)) .addressable "trace" _ none false rfl room
    obtain ⟨_, _, answers, prints, -, output⟩ :=
      (performed .classic .usual).of_fine commented_areFine
    obtain ⟨outcome, line, rfl, rfl, -, written⟩ := prints.exists_single answers rfl
    refine ⟨succeeds.mpr ⟨⟨_, .usual⟩, commented_areFine.isFine⟩, outcome, line, written,
      fun elapsed => ?_⟩
    obtain ⟨summary, summarizes, shown⟩ := output rfl elapsed
    exact ⟨summary, summarizes, summarizes.title_mem, shown⟩
  · obtain ⟨-, -, performed, -⟩ :=
      @perform_replay (traceOf (queryLine ++ "\nword")) .addressable "trace" _ none false rfl room
    have two :
        Trace.pieces (Utf8.encode (queryLine ++ "\nword").toList) =
          [Utf8.encode queryLine.toList] ++ Utf8.encode "word".toList :: [] := by
      decide +kernel
    rw [two] at performed
    obtain ⟨_, _, _, answers, prints, output, reads, ending⟩ :=
      (performed .classic .usual).of_fault queryLine_areFine (word_gives 2)
    obtain ⟨_, line, rfl, rfl, -⟩ := prints.exists_single answers rfl
    refine ⟨⟨line, output⟩, ?_⟩
    cases reads
    rw [ending]
    decide +kernel

end Command
end WindsAloft
