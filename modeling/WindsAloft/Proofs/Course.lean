import WindsAloft.Proofs.Ledger
import WindsAloft.Replay

/-!
# The course of a replay

Records that are applied one after the other form a course: the replay at its
end, the answers given on the way and the signals that arose.  Of the history at
the end only the measurements among the records matter, and every answer is the
one of the history that the measurements before its query have left.  A run over
a trace is the course of the records in front of the first item that is none,
closed by the signals of the end where there is no such item.
-/

namespace WindsAloft

namespace Record

/-- The samples of the measurements among some records. -/
def samples (records : List Record) : List Sample :=
  records.filterMap sample?

/-- The points of the queries among some records. -/
def points (records : List Record) : List Point :=
  records.filterMap point?

@[simp] theorem samples_measurement (sample : Sample) (records : List Record) :
    samples (.measurement sample :: records) = sample :: samples records :=
  rfl

@[simp] theorem samples_query (point : Point) (records : List Record) :
    samples (.query point :: records) = samples records :=
  rfl

@[simp] theorem points_measurement (sample : Sample) (records : List Record) :
    points (.measurement sample :: records) = points records :=
  rfl

@[simp] theorem points_query (point : Point) (records : List Record) :
    points (.query point :: records) = point :: points records :=
  rfl

end Record

/-- Whether all numbers of a sample are finite. -/
def Sample.IsFinite (sample : Sample) : Prop :=
  sample.wind.x.isFinite = true ∧ sample.wind.y.isFinite = true ∧
    sample.time.isFinite = true ∧ sample.altitude.isFinite = true

instance (sample : Sample) : Decidable sample.IsFinite :=
  inferInstanceAs (Decidable (_ ∧ _))

/-- Whether both numbers of a point are finite. -/
def Point.IsFinite (point : Point) : Prop :=
  point.time.isFinite = true ∧ point.altitude.isFinite = true

instance (point : Point) : Decidable point.IsFinite :=
  inferInstanceAs (Decidable (_ ∧ _))

namespace History

/-- The history after some measurements in order. -/
def addAll (history : History) (samples : List Sample) : History :=
  samples.foldl (fun history sample => (history.add sample).1) history

@[simp] theorem addAll_nil (history : History) : history.addAll [] = history :=
  rfl

@[simp] theorem addAll_cons (history : History) (sample : Sample) (samples : List Sample) :
    history.addAll (sample :: samples) = (history.add sample).1.addAll samples :=
  rfl

theorem addAll_kernel (history : History) (samples : List Sample) :
    (history.addAll samples).kernel = history.kernel := by
  induction samples generalizing history with
  | nil => rfl
  | cons sample samples ih => exact ih (history.add sample).1

theorem addAll_capacity (history : History) (samples : List Sample) :
    (history.addAll samples).store.capacity = history.store.capacity := by
  induction samples generalizing history with
  | nil => rfl
  | cons sample samples ih =>
      exact (ih (history.add sample).1).trans (Store.insert_capacity sample)

/-- The measurements of a history are insertions into its store. -/
theorem addAll_store (history : History) (samples : List Sample) :
    (history.addAll samples).store =
      history.store.run (samples.map Store.Operation.insert) := by
  induction samples generalizing history with
  | nil => rfl
  | cons sample samples ih => exact ih (history.add sample).1

/-- What is held after some measurements was held before them or is one of them. -/
theorem mem_of_mem_addAll
    {history : History}
    {samples : List Sample}
    {held : Sample}
    (inside : held ∈ (history.addAll samples).store.toList) :
    held ∈ history.store.toList ∨ held ∈ samples := by
  induction samples generalizing history with
  | nil => exact .inl inside
  | cons sample samples ih =>
      rcases ih inside with earlier | later
      · rcases Store.mem_of_mem_insert earlier with before | rfl
        · exact .inl before
        · exact .inr (List.mem_cons_self ..)
      · exact .inr (List.mem_cons_of_mem sample later)

/-- The answers to the queries among some records, the measurements being added on the way. -/
def answers (history : History) : List Record → List Outcome
  | [] => []
  | .measurement sample :: records => (history.add sample).1.answers records
  | .query point :: records => ⟨point, history.query point⟩ :: history.answers records

/-- There is one answer to each query. -/
theorem length_answers (history : History) (records : List Record) :
    (history.answers records).length = (Record.points records).length := by
  induction records generalizing history with
  | nil => rfl
  | cons record records ih =>
      cases record with
      | measurement sample => exact ih (history.add sample).1
      | query point => exact congrArg (· + 1) (ih history)

theorem answers_append (history : History) (front back : List Record) :
    history.answers (front ++ back) =
      history.answers front ++ (history.addAll (Record.samples front)).answers back := by
  induction front generalizing history with
  | nil => rfl
  | cons record front ih =>
      cases record with
      | measurement sample => exact ih (history.add sample).1
      | query point => exact congrArg (_ :: ·) (ih history)

/-- A query is answered from the measurements in front of it. -/
theorem getElem?_answers
    (history : History)
    (before : List Record)
    (point : Point)
    (after : List Record) :
    (history.answers (before ++ .query point :: after))[(Record.points before).length]? =
      some ⟨point, (history.addAll (Record.samples before)).query point⟩ := by
  rw [answers_append, ← length_answers history before,
    List.getElem?_append_right (Nat.le_refl _), Nat.sub_self]
  rfl

end History

namespace Replay

/-- What some records in a row lead to. -/
structure Course where
  after : Replay
  /-- The answers to the queries, in order. -/
  outcomes : List Outcome
  signals : List Signal

/-- Applies records one after the other. -/
def course (replay : Replay) : List Record → Course
  | [] => ⟨replay, [], []⟩
  | record :: records =>
      let step := replay.apply record
      let rest := step.after.course records
      { after := rest.after
        outcomes := step.outcome.toList ++ rest.outcomes
        signals := step.signals ++ rest.signals }

/-- Only the measurements change the history. -/
theorem course_history (replay : Replay) (records : List Record) :
    (replay.course records).after.history =
      replay.history.addAll (Record.samples records) := by
  induction records generalizing replay with
  | nil => rfl
  | cons record records ih =>
      cases record with
      | measurement sample => exact ih (replay.applyMeasurement sample).after
      | query point => exact ih (replay.applyQuery point).after

/-- The answers given on the way are those of the history. -/
theorem course_outcomes (replay : Replay) (records : List Record) :
    (replay.course records).outcomes = replay.history.answers records := by
  induction records generalizing replay with
  | nil => rfl
  | cons record records ih =>
      cases record with
      | measurement sample => exact ih (replay.applyMeasurement sample).after
      | query point => exact congrArg (_ :: ·) (ih (replay.applyQuery point).after)

theorem course_append (replay : Replay) (front back : List Record) :
    (replay.course (front ++ back)).after =
        ((replay.course front).after.course back).after ∧
      (replay.course (front ++ back)).outcomes =
        (replay.course front).outcomes ++
          ((replay.course front).after.course back).outcomes := by
  induction front generalizing replay with
  | nil => exact ⟨rfl, rfl⟩
  | cons record front ih =>
      obtain ⟨after, outcomes⟩ := ih (replay.apply record).after
      refine ⟨after, ?_⟩
      calc
        (replay.course (record :: (front ++ back))).outcomes
          = (replay.apply record).outcome.toList ++
              ((replay.apply record).after.course (front ++ back)).outcomes := rfl
        _ = (replay.apply record).outcome.toList ++
              (((replay.apply record).after.course front).outcomes ++
                (((replay.apply record).after.course front).after.course back).outcomes) := by
          rw [outcomes]
        _ = (replay.course (record :: front)).outcomes ++
              ((replay.course (record :: front)).after.course back).outcomes :=
          (List.append_assoc _ _ _).symm

section Items

variable {ε : Type}

/-- The records in front of the first item that is none. -/
def readable : List (Except ε Record) → List Record
  | [] => []
  | .error _ :: _ => []
  | .ok record :: items => record :: readable items

/-- The fault of the first item that is no record. -/
def fault? : List (Except ε Record) → Option ε
  | [] => none
  | .error e :: _ => some e
  | .ok _ :: items => fault? items

/-- Without a fault all items are records. -/
theorem eq_map_readable
    {items : List (Except ε Record)}
    (faultless : fault? items = none) :
    items = (readable items).map .ok := by
  induction items with
  | nil => rfl
  | cons item items ih =>
      cases item with
      | error e => exact absurd faultless (by simp [fault?])
      | ok record => exact congrArg (_ :: ·) (ih faultless)

/-- The first fault stands behind the readable records. -/
theorem eq_append_of_fault?
    {items : List (Except ε Record)}
    {e : ε}
    (faulty : fault? items = some e) :
    ∃ later, items = (readable items).map .ok ++ .error e :: later := by
  induction items with
  | nil => exact absurd faulty (by simp [fault?])
  | cons item items ih =>
      cases item with
      | error other =>
          obtain rfl : other = e := Option.some.inj faulty
          exact ⟨items, rfl⟩
      | ok record =>
          obtain ⟨later, split⟩ := ih faulty
          exact ⟨later, congrArg (_ :: ·) split⟩

theorem readable_append
    {front : List (Except ε Record)}
    (faultless : fault? front = none)
    (back : List (Except ε Record)) :
    readable (front ++ back) = readable front ++ readable back ∧
      fault? (front ++ back) = fault? back := by
  induction front with
  | nil => exact ⟨rfl, rfl⟩
  | cons item front ih =>
      cases item with
      | error e => exact absurd faultless (by simp [fault?])
      | ok record =>
          obtain ⟨records, fault⟩ := ih faultless
          exact ⟨congrArg (record :: ·) records, fault⟩

theorem readable_map_ok (records : List Record) :
    readable (records.map (.ok : Record → Except ε Record)) = records ∧
      fault? (records.map (.ok : Record → Except ε Record)) = none := by
  induction records with
  | nil => exact ⟨rfl, rfl⟩
  | cons record records ih => exact ⟨congrArg (record :: ·) ih.1, ih.2⟩

theorem readable_map_ok_append_error
    (records : List Record)
    (e : ε)
    (later : List (Except ε Record)) :
    readable (records.map .ok ++ .error e :: later) = records ∧
      fault? (records.map .ok ++ .error e :: later) = some e := by
  induction records with
  | nil => exact ⟨rfl, rfl⟩
  | cons record records ih => exact ⟨congrArg (record :: ·) ih.1, ih.2⟩

/-- Faults may be seen as others; the records in front of the first stay the same. -/
theorem readable_mapError
    {δ : Type}
    (wrap : ε → δ)
    (items : List (Except ε Record)) :
    readable (items.map (Except.mapError wrap)) = readable items ∧
      fault? (items.map (Except.mapError wrap)) = (fault? items).map wrap := by
  induction items with
  | nil => exact ⟨rfl, rfl⟩
  | cons item items ih =>
      cases item with
      | error e => exact ⟨rfl, rfl⟩
      | ok record => exact ⟨congrArg (record :: ·) ih.1, ih.2⟩

/-- A run is the course of the readable records, and what stops it is the first fault. -/
theorem run_eq (replay : Replay) (items : List (Except ε Record)) :
    replay.run items =
      { final := (replay.course (readable items)).after
        outcomes := (replay.course (readable items)).outcomes
        signals :=
          (replay.course (readable items)).signals ++
            match fault? items with
            | none => (replay.course (readable items)).after.finishSignals
            | some _ => []
        stopped := fault? items } := by
  induction items generalizing replay with
  | nil => rfl
  | cons item items ih =>
      cases item with
      | error e => rfl
      | ok record =>
          rw [run, ih]
          simp only [readable, course, fault?, List.append_assoc]

end Items

end Replay
end WindsAloft
