import WindsAloft.Proofs.Course

/-!
# What a replay depends on

A replay of a trace under given settings is told by the records in front of the
first fault alone.  Its store is the one that the measurements among them leave,
inserted in order.  Each query is answered once, in order, from the measurements
in front of it.  So queries may be left out without any effect but that their own
answers are missing, and a trace may be replayed in parts.
-/

namespace WindsAloft
namespace Replay

variable {ε : Type}

/-- The items without those queries, counted from a number on, that are not to be kept. -/
def keepQueries (keep : Nat → Bool) : Nat → List (Except ε Record) → List (Except ε Record)
  | _, [] => []
  | number, .ok (.query point) :: items =>
      if keep number then .ok (.query point) :: keepQueries keep (number + 1) items
      else keepQueries keep (number + 1) items
  | number, .ok (.measurement sample) :: items =>
      .ok (.measurement sample) :: keepQueries keep number items
  | number, .error e :: items => .error e :: keepQueries keep number items

/-- The outcomes, counted from a number on, that are to be kept. -/
def keepOutcomes (keep : Nat → Bool) (number : Nat) (outcomes : List Outcome) : List Outcome :=
  ((outcomes.zipIdx number).filter fun entry => keep entry.2).map Prod.fst

theorem keepOutcomes_cons
    (keep : Nat → Bool)
    (number : Nat)
    (outcome : Outcome)
    (outcomes : List Outcome) :
    keepOutcomes keep number (outcome :: outcomes) =
      if keep number then outcome :: keepOutcomes keep (number + 1) outcomes
      else keepOutcomes keep (number + 1) outcomes := by
  unfold keepOutcomes
  rw [List.zipIdx_cons, List.filter_cons]
  split <;> rfl

/-- Leaving queries out keeps the measurements and the fault behind them. -/
theorem readable_keepQueries
    (keep : Nat → Bool)
    (number : Nat)
    (items : List (Except ε Record)) :
    Record.samples (readable (keepQueries keep number items)) =
        Record.samples (readable items) ∧
      fault? (keepQueries keep number items) = fault? items := by
  induction items generalizing number with
  | nil => exact ⟨rfl, rfl⟩
  | cons item items ih =>
      rcases item with e | sample | point
      · exact ⟨rfl, rfl⟩
      · obtain ⟨samples, fault⟩ := ih number
        exact ⟨congrArg (sample :: ·) samples, fault⟩
      · obtain ⟨samples, fault⟩ := ih (number + 1)
        rw [keepQueries]
        split
        · exact ⟨samples, fault⟩
        · exact ⟨samples, fault⟩

/-- Leaving queries out keeps the answers to all others. -/
theorem answers_keepQueries
    (keep : Nat → Bool)
    (number : Nat)
    (history : History)
    (items : List (Except ε Record)) :
    history.answers (readable (keepQueries keep number items)) =
      keepOutcomes keep number (history.answers (readable items)) := by
  induction items generalizing number history with
  | nil => rfl
  | cons item items ih =>
      rcases item with e | sample | point
      · rfl
      · exact ih number (history.add sample).1
      · have rest := ih (number + 1) history
        rw [keepQueries, readable, History.answers, keepOutcomes_cons]
        by_cases kept : keep number = true
        · rw [if_pos kept, if_pos kept]
          exact congrArg (_ :: ·) rest
        · rw [if_neg kept, if_neg kept]
          exact rest

/-- The answers of a run are those of the history it starts from. -/
theorem run_outcomes (replay : Replay) (items : List (Except ε Record)) :
    (replay.run items).outcomes = replay.history.answers (readable items) := by
  rw [run_eq]
  exact course_outcomes replay (readable items)

theorem run_history (replay : Replay) (items : List (Except ε Record)) :
    (replay.run items).final.history =
      replay.history.addAll (Record.samples (readable items)) := by
  rw [run_eq]
  exact course_history replay (readable items)

theorem run_stopped (replay : Replay) (items : List (Except ε Record)) :
    (replay.run items).stopped = fault? items := by
  rw [run_eq]

/-- What is behind the first fault has no effect. -/
theorem run_of_fault
    (replay : Replay)
    (records : List Record)
    (e : ε)
    (later other : List (Except ε Record)) :
    replay.run (records.map .ok ++ .error e :: later) =
      replay.run (records.map .ok ++ .error e :: other) := by
  obtain ⟨readable_later, fault_later⟩ := readable_map_ok_append_error records e later
  obtain ⟨readable_other, fault_other⟩ := readable_map_ok_append_error records e other
  rw [run_eq, run_eq, readable_later, fault_later, readable_other, fault_other]

/-- A run that came to its end can be continued. -/
theorem run_append
    (replay : Replay)
    {items : List (Except ε Record)}
    (finished : (replay.run items).stopped = none)
    (more : List (Except ε Record)) :
    (replay.run (items ++ more)).outcomes =
        (replay.run items).outcomes ++ ((replay.run items).final.run more).outcomes ∧
      (replay.run (items ++ more)).final = ((replay.run items).final.run more).final ∧
      (replay.run (items ++ more)).stopped =
        ((replay.run items).final.run more).stopped := by
  rw [run_stopped] at finished
  obtain ⟨records, fault⟩ := readable_append finished more
  obtain ⟨after, outcomes⟩ := course_append replay (readable items) (readable more)
  rw [run_eq replay (items ++ more), run_eq replay items, run_eq _ more, records, fault]
  exact ⟨outcomes, after, rfl⟩

/-- The store that settings ask for, after some samples were inserted in order. -/
def stored (settings : Settings) (samples : List Sample) : Store :=
  (Store.empty settings.capacity.toNat settings.ageing.score).run
    (samples.map Store.Operation.insert)

/-- The history of a new replay after some measurements. -/
theorem addAll_start (settings : Settings) (samples : List Sample) :
    (start settings).history.addAll samples =
      { store := stored settings samples, kernel := settings.kernel } := by
  have store := History.addAll_store (start settings).history samples
  have kernel := History.addAll_kernel (start settings).history samples
  cases whole : (start settings).history.addAll samples
  rw [whole] at store kernel
  subst store kernel
  rfl

/--
A run told by the readable records alone: why it stopped, the store it leaves,
and the answer to each query from the measurements in front of it.
-/
structure Told (settings : Settings) (items : List (Except ε Record)) (run : Run ε) : Prop where
  stopped :
    (run.stopped = none ∧ items = (readable items).map .ok) ∨
      ∃ e later,
        run.stopped = some e ∧
        items = (readable items).map .ok ++ .error e :: later ∧
        ∀ other, (start settings).run ((readable items).map .ok ++ .error e :: other) = run
  store :
    run.final.history.store = stored settings (Record.samples (readable items))
  length_outcomes :
    run.outcomes.length = (Record.points (readable items)).length
  outcome :
    ∀ before point after,
      readable items = before ++ .query point :: after →
        run.outcomes[(Record.points before).length]? =
          some
            { point := point
              estimate :=
                settings.kernel.estimate
                  (stored settings (Record.samples before)).toList point }

theorem run_told (settings : Settings) (items : List (Except ε Record)) :
    Told settings items ((start settings).run items) where
  stopped := by
    cases fault : fault? items with
    | none =>
        left
        exact ⟨(run_stopped _ _).trans fault, eq_map_readable fault⟩
    | some e =>
        right
        obtain ⟨later, split⟩ := eq_append_of_fault? fault
        refine ⟨e, later, (run_stopped _ _).trans fault, split, ?_⟩
        intro other
        have same := run_of_fault (start settings) (readable items) e other later
        rw [← split] at same
        exact same
  store := by
    rw [run_history, addAll_start]
  length_outcomes := by
    rw [run_outcomes]
    exact History.length_answers _ _
  outcome := by
    intro before point after split
    rw [run_outcomes, split, History.getElem?_answers, addAll_start]
    rfl

/--
A replay from the start is told by the readable records alone; leaving queries
out changes neither its store nor its other answers; and if it came to its end,
continuing it is replaying both traces as one.
-/
theorem told_and_thinned_and_continued
    (settings : Settings)
    (items : List (Except ε Record)) :
    Told settings items ((start settings).run items) ∧
      (∀ keep,
        ((start settings).run (keepQueries keep 0 items)).final.history =
            ((start settings).run items).final.history ∧
          ((start settings).run (keepQueries keep 0 items)).stopped =
            ((start settings).run items).stopped ∧
          ((start settings).run (keepQueries keep 0 items)).outcomes =
            keepOutcomes keep 0 ((start settings).run items).outcomes) ∧
      (((start settings).run items).stopped = none →
        ∀ more : List (Except ε Record),
          ((start settings).run (items ++ more)).outcomes =
              ((start settings).run items).outcomes ++
                (((start settings).run items).final.run more).outcomes ∧
            ((start settings).run (items ++ more)).final =
              (((start settings).run items).final.run more).final ∧
            ((start settings).run (items ++ more)).stopped =
              (((start settings).run items).final.run more).stopped) := by
  refine ⟨run_told settings items, ?_, ?_⟩
  · intro keep
    obtain ⟨samples, fault⟩ := readable_keepQueries keep 0 items
    refine ⟨?_, ?_, ?_⟩
    · rw [run_history, run_history, samples]
    · rw [run_stopped, run_stopped, fault]
    · rw [run_outcomes, run_outcomes, answers_keepQueries]
  · intro finished more
    exact run_append (start settings) finished more

/-- The law at a measurement, a query, another measurement and the same query again. -/
theorem told_second_query :
    let first : Record := .measurement ⟨⟨4, 0⟩, 5, 0, 1000⟩
    let second : Record := .measurement ⟨⟨8, 0⟩, 5, 10, 1000⟩
    let point : Point := ⟨10, 1000⟩
    let items : List (Except Unit Record) :=
      [.ok first, .ok (.query point), .ok second, .ok (.query point)]
    readable items = [first, .query point, second] ++ .query point :: [] ∧
      ((start .classic).run items).outcomes[1]? =
        some
          ⟨point,
            Kernel.classic.estimate
              (stored .classic (Record.samples [first, .query point, second])).toList point⟩ ∧
      ((start .classic).run items).stopped = none ∧
      ∀ more,
        ((start .classic).run (items ++ more)).outcomes =
          ((start .classic).run items).outcomes ++
            (((start .classic).run items).final.run more).outcomes := by
  intro first second point items
  obtain ⟨told, -, continued⟩ := told_and_thinned_and_continued .classic items
  have finished : ((start .classic).run items).stopped = none :=
    run_stopped (start .classic) items
  refine ⟨rfl, ?_, finished, ?_⟩
  · exact told.outcome [first, .query point, second] point [] rfl
  · intro more
    exact (continued finished more).1

end Replay
end WindsAloft
