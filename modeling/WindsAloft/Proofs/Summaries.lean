import WindsAloft.Proofs.Counting
import WindsAloft.Proofs.Reporting

/-!
# Summaries

A replay for people ends in a summary under a title of its own.  Its figures are those of
the records that were applied and of the answers that were given: all counts of a replay
agree with these.  No line of an answer can be mistaken for the title.
-/

namespace WindsAloft

/-- The line of an answer is not the title of a summary. -/
theorem Outcome.Written.ne_title
    {outcome : Outcome}
    {json : Bool}
    {line : String}
    (written : outcome.Written json line) :
    line ≠ "=== Replay Statistics ===" := by
  rintro same
  cases written with
  | json parsed said =>
      -- No document begins with the title.
      have flawed :
          (Json.parse Numeral.nearest "=== Replay Statistics ===".toList).root.content? = none := by
        decide +kernel
      rw [← same, parsed, said] at flawed
      cases flawed
  | found itsTime itsAltitude found =>
      have first := congrArg (fun text => text.toList.head?) same
      simp [String.toList_append] at first
  | missing itsTime itsAltitude missing =>
      have first := congrArg (fun text => text.toList.head?) same
      simp [String.toList_append] at first

namespace Replay

/--
What a summary says: beside the time that it took and the statistics of figures, how many
records there were, how many samples are held, came in and had to go, and how many queries
were answered and found a wind.
-/
inductive Summarizes
    (settings : Settings) (records : List Record) (outcomes : List Outcome) :
    List String → Prop
  | lines
      {duration rate span share speeds contributors qualities : String}
      {capacity measured found : ℕ}
      (itsCapacity : capacity = max settings.capacity.toNat 1)
      (itsMeasured : measured = (Record.samples records).length)
      (itsFound : found = outcomes.countP fun outcome => outcome.estimate.found) :
      Summarizes settings records outcomes
        [ ""
        , "=== Replay Statistics ==="
        , ""
        , "Overview"
        , "   ├─ Duration: " ++ duration ++ "s"
        , "   ├─ Records: " ++ toString records.length
        , "   └─ Records/s: " ++ rate
        , ""
        , "Store"
        , "   ├─ Samples held: " ++ toString (min measured capacity) ++ "/" ++ toString capacity
        , "   ├─ Inserted: " ++ toString measured
        , "   ├─ Evicted: " ++ toString (measured - capacity)
        , "   └─ Time span: " ++ span
        , ""
        , "Estimates"
        , "   ├─ Queries: " ++ (toString outcomes.length ++ " (found " ++ toString found ++ ", "
            ++ share ++ "%)")
        , "   ├─ Speed: " ++ speeds
        , "   ├─ Contributors: " ++ contributors
        , "   └─ Measurement quality: " ++ qualities
        , "" ]

/-- A summary has its title. -/
theorem Summarizes.title_mem
    {settings : Settings}
    {records : List Record}
    {outcomes : List Outcome}
    {lines : List String}
    (summarizes : Summarizes settings records outcomes lines) :
    "=== Replay Statistics ===" ∈ lines := by
  cases summarizes
  exact List.mem_cons_of_mem _ List.mem_cons_self

/-- The summary of a replay from the start says what the records and the answers amount to. -/
theorem summarizes_summary
    (settings : Settings)
    (records : List Record)
    (elapsed : Duration) :
    let course := (start settings).course records
    Summarizes settings records course.outcomes (course.after.summary elapsed) := by
  intro course
  have agrees : course.after.Agrees records course.outcomes (Signal.updates course.signals) :=
    (agrees_start settings).course records
  have capacity : course.after.history.store.capacity = max settings.capacity.toNat 1 := by
    rw [course_history, History.addAll_capacity]
    rfl
  have held := agrees.size_eq
  have evicted := agrees.evicted_store
  rw [capacity] at held evicted
  simp only [summary, Store.status, Tally.describeQueries, held, evicted, agrees.records_eq,
    agrees.measured_store, agrees.queried_tally, agrees.found_tally, capacity]
  exact .lines rfl rfl rfl

end Replay
end WindsAloft
