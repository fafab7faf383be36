import WindsAloft.Proofs.Binary64.Signs
import WindsAloft.Proofs.Course

/-!
# The counts of a replay agree

A replay is counted in many places: by the replay itself, by its tally, by the
store, by the statistics, and by whoever listens to its metrics.  Whatever records
are applied, in whatever order, all these counts agree with one another and with
the records.  Evictions are the hard part, for the tally infers them from the
count of the store while the metrics go by what an insertion handed back; both
come down to the measurements that exceed the capacity.
-/

namespace WindsAloft

namespace Update

theorem total_append (series : Series) (front back : List Update) :
    total series (front ++ back) = total series front + total series back :=
  List.countP_append

theorem observed_append (series : Series) (front back : List Update) :
    observed series (front ++ back) = observed series front ++ observed series back :=
  List.filterMap_append

theorem last?_append (series : Series) (front back : List Update) :
    last? series (front ++ back) = (last? series back).or (last? series front) := by
  unfold last?
  rw [List.filterMap_append, List.getLast?_append]

end Update

theorem Signal.updates_append (front back : List Signal) :
    updates (front ++ back) = updates front ++ updates back :=
  List.filterMap_append

theorem Record.samples_append (front back : List Record) :
    samples (front ++ back) = samples front ++ samples back :=
  List.filterMap_append

/-- The metric updates of an answered query. -/
theorem Replay.updates_applyQuery (replay : Replay) (point : Point) :
    Signal.updates (replay.applyQuery point).signals =
      .increment (Metric.records .query)
        :: .increment (Metric.estimates (replay.history.query point).found)
        :: (if (replay.history.query point).found then
              [.observe Metric.estimateWeight (ofInt64 (replay.history.query point).totalWeight)]
            else [])
        ++ (replay.history.query point).updates := by
  unfold applyQuery History.querySignals
  generalize replay.history.query point = estimate
  cases found : estimate.found <;>
    simp [Signal.updates, Record.update, Record.kind, found, List.filterMap_map]

/-- The metric updates of an added measurement. -/
theorem Replay.updates_applyMeasurement (replay : Replay) (sample : Sample) :
    Signal.updates (replay.applyMeasurement sample).signals =
      .increment (Metric.records .measurement)
        :: .increment Metric.measurements
        :: (if (replay.history.store.insert sample).2.isSome then
              [.increment Metric.evictions]
            else [])
        ++ [.set Metric.depth (ofCount (replay.history.store.insert sample).1.size)] := by
  unfold applyMeasurement History.add Store.add History.addSignals
  cases handed : (replay.history.store.insert sample).2 <;>
    simp [Signal.updates, Record.update, Record.kind, handed]

/-- What the metric updates of an added measurement come to. -/
structure Update.OfMeasurement (evicts : Bool) (size : ℕ) (updates : List Update) : Prop where
  records_measurement : total (Metric.records .measurement) updates = 1
  records_query : total (Metric.records .query) updates = 0
  measurements : total Metric.measurements updates = 1
  evictions : total Metric.evictions updates = evicts.toNat
  depth : last? Metric.depth updates = some (ofCount size)
  estimates : ∀ found, total (Metric.estimates found) updates = 0
  weights : observed Metric.estimateWeight updates = []

theorem Replay.ofMeasurement (replay : Replay) (sample : Sample) :
    Update.OfMeasurement
      (replay.history.store.insert sample).2.isSome
      (replay.history.store.insert sample).1.size
      (Signal.updates (replay.applyMeasurement sample).signals) := by
  rw [updates_applyMeasurement]
  cases (replay.history.store.insert sample).2.isSome <;>
    exact ⟨rfl, rfl, rfl, rfl, rfl, fun found => by cases found <;> rfl, rfl⟩

/-- What the metric updates of an answered query come to. -/
structure Update.OfQuery (estimate : Estimate) (updates : List Update) : Prop where
  records_measurement : total (Metric.records .measurement) updates = 0
  records_query : total (Metric.records .query) updates = 1
  measurements : total Metric.measurements updates = 0
  evictions : total Metric.evictions updates = 0
  depth : last? Metric.depth updates = none
  found : total (Metric.estimates true) updates = estimate.found.toNat
  missed : total (Metric.estimates false) updates = (!estimate.found).toNat
  weights :
    observed Metric.estimateWeight updates =
      if estimate.found then [ofInt64 estimate.totalWeight] else []

theorem Replay.ofQuery (replay : Replay) (point : Point) :
    Update.OfQuery
      (replay.history.query point)
      (Signal.updates (replay.applyQuery point).signals) := by
  rw [updates_applyQuery]
  obtain ⟨wind, found, totalWeight, contributors⟩ := replay.history.query point
  cases found <;> exact ⟨rfl, rfl, rfl, rfl, rfl, rfl, rfl, rfl⟩

namespace Replay

section Families

/-- The counts of all records, beside a number. -/
structure AppliedCounts (replay : Replay) (updates : List Update) (count : ℕ) : Prop where
  records_eq : replay.records = count
  kinds :
    Update.total (Metric.records .measurement) updates
      + Update.total (Metric.records .query) updates = replay.records

/-- The counts of measurements, beside a number. -/
structure MeasuredCounts (replay : Replay) (updates : List Update) (count : ℕ) : Prop where
  measured_tally : replay.tally.measurements = count
  measured_store : replay.history.store.inserted = count
  measured_metric : Update.total Metric.measurements updates = count
  measured_quality : replay.tally.quality.count = count

/-- The counts of what is held and of what had to go, beside the measurements. -/
structure HeldCounts (replay : Replay) (updates : List Update) (samples : List Sample) : Prop where
  evicted_store :
    replay.history.store.evicted = samples.length - replay.history.store.capacity
  evicted_tally : replay.tally.evictions = replay.history.store.evicted
  evicted_metric : Update.total Metric.evictions updates = replay.history.store.evicted
  size_eq :
    replay.history.store.size = min samples.length replay.history.store.capacity
  depth :
    Update.last? Metric.depth updates =
      if samples = [] then none else some (ofCount replay.history.store.size)

/-- The counts of queries, beside a number. -/
structure QueriedCounts (replay : Replay) (updates : List Update) (count : ℕ) : Prop where
  queried_tally : replay.tally.queries = count
  queried_contributors : replay.tally.contributors.count = count
  queried_metric :
    Update.total (Metric.estimates true) updates
      + Update.total (Metric.estimates false) updates = count

/-- The counts of usable answers, beside a number. -/
structure FoundCounts (replay : Replay) (updates : List Update) (count : ℕ) : Prop where
  found_tally : replay.tally.found = count
  found_speed : replay.tally.speed.count = replay.tally.found
  found_metric : Update.total (Metric.estimates true) updates = replay.tally.found
  found_weights : (Update.observed Metric.estimateWeight updates).length = replay.tally.found
  weights_pos : ∀ weight ∈ Update.observed Metric.estimateWeight updates, 0 < weight

variable
  {replay : Replay}
  {updates : List Update}
  {samples : List Sample}
  {count : ℕ}

theorem AppliedCounts.applyMeasurement
    (counts : replay.AppliedCounts updates count)
    (sample : Sample) :
    (replay.applyMeasurement sample).after.AppliedCounts
      (updates ++ Signal.updates (replay.applyMeasurement sample).signals)
      (count + 1) where
  records_eq := congrArg (· + 1) counts.records_eq
  kinds := by
    have new := replay.ofMeasurement sample
    have kinds := counts.kinds
    rw [Update.total_append, Update.total_append, new.records_measurement, new.records_query]
    show _ = replay.records + 1
    omega

theorem AppliedCounts.applyQuery
    (counts : replay.AppliedCounts updates count)
    (point : Point) :
    (replay.applyQuery point).after.AppliedCounts
      (updates ++ Signal.updates (replay.applyQuery point).signals)
      (count + 1) where
  records_eq := congrArg (· + 1) counts.records_eq
  kinds := by
    have new := replay.ofQuery point
    have kinds := counts.kinds
    rw [Update.total_append, Update.total_append, new.records_measurement, new.records_query]
    show _ = replay.records + 1
    omega

theorem MeasuredCounts.applyMeasurement
    (counts : replay.MeasuredCounts updates count)
    (sample : Sample) :
    (replay.applyMeasurement sample).after.MeasuredCounts
      (updates ++ Signal.updates (replay.applyMeasurement sample).signals)
      (count + 1) where
  measured_tally := congrArg (· + 1) counts.measured_tally
  measured_store := (Store.insert_inserted sample).trans (congrArg (· + 1) counts.measured_store)
  measured_metric := by
    rw [Update.total_append, counts.measured_metric, (replay.ofMeasurement sample).measurements]
  measured_quality :=
    (StatisticsOver.count_push _ _).trans (congrArg (· + 1) counts.measured_quality)

theorem MeasuredCounts.applyQuery
    (counts : replay.MeasuredCounts updates count)
    (point : Point) :
    (replay.applyQuery point).after.MeasuredCounts
      (updates ++ Signal.updates (replay.applyQuery point).signals)
      count where
  measured_tally := counts.measured_tally
  measured_store := counts.measured_store
  measured_metric := by
    rw [Update.total_append, counts.measured_metric, (replay.ofQuery point).measurements,
      Nat.add_zero]
  measured_quality := counts.measured_quality

/-- The store says whether a sample has to go, and the other counts follow it. -/
theorem HeldCounts.applyMeasurement
    (counts : replay.HeldCounts updates samples)
    (sample : Sample) :
    (replay.applyMeasurement sample).after.HeldCounts
      (updates ++ Signal.updates (replay.applyMeasurement sample).signals)
      (samples ++ [sample]) := by
  obtain ⟨gone, handed, size, evicted, room⟩ := replay.history.store.insert_counts sample
  have new := replay.ofMeasurement sample
  have capacity : (replay.applyMeasurement sample).after.history.store.capacity =
      replay.history.store.capacity := Store.insert_capacity sample
  have more : (samples ++ [sample]).length = samples.length + 1 := List.length_append
  have held := counts.size_eq
  have before := counts.evicted_store
  refine ⟨?_, ?_, ?_, ?_, ?_⟩
  · rw [more, capacity]
    show (replay.history.store.insert sample).1.evicted = _
    omega
  · show (if decide (_ < (replay.history.store.insert sample).1.evicted) = true
      then replay.tally.evictions + 1 else replay.tally.evictions) =
        (replay.history.store.insert sample).1.evicted
    rw [evicted, counts.evicted_tally]
    rcases room with ⟨rfl, -⟩ | ⟨rfl, -⟩ <;> simp
  · rw [Update.total_append, counts.evicted_metric, new.evictions, ← handed]
    exact evicted.symm
  · rw [more, capacity]
    show (replay.history.store.insert sample).1.size = _
    omega
  · rw [Update.last?_append, new.depth, if_neg (List.append_ne_nil_of_right_ne_nil _ (by simp))]
    rfl

theorem HeldCounts.applyQuery
    (counts : replay.HeldCounts updates samples)
    (point : Point) :
    (replay.applyQuery point).after.HeldCounts
      (updates ++ Signal.updates (replay.applyQuery point).signals)
      samples where
  evicted_store := counts.evicted_store
  evicted_tally := counts.evicted_tally
  evicted_metric := by
    rw [Update.total_append, counts.evicted_metric, (replay.ofQuery point).evictions]
    rfl
  size_eq := counts.size_eq
  depth := by
    rw [Update.last?_append, (replay.ofQuery point).depth, counts.depth]
    rfl

theorem QueriedCounts.applyMeasurement
    (counts : replay.QueriedCounts updates count)
    (sample : Sample) :
    (replay.applyMeasurement sample).after.QueriedCounts
      (updates ++ Signal.updates (replay.applyMeasurement sample).signals)
      count where
  queried_tally := counts.queried_tally
  queried_contributors := counts.queried_contributors
  queried_metric := by
    have new := replay.ofMeasurement sample
    rw [Update.total_append, Update.total_append, new.estimates, new.estimates,
      ← counts.queried_metric]
    rfl

theorem QueriedCounts.applyQuery
    (counts : replay.QueriedCounts updates count)
    (point : Point) :
    (replay.applyQuery point).after.QueriedCounts
      (updates ++ Signal.updates (replay.applyQuery point).signals)
      (count + 1) where
  queried_tally := congrArg (· + 1) counts.queried_tally
  queried_contributors :=
    (StatisticsOver.count_push _ _).trans (congrArg (· + 1) counts.queried_contributors)
  queried_metric := by
    have new := replay.ofQuery point
    have one : (replay.history.query point).found.toNat +
        (!(replay.history.query point).found).toNat = 1 := by
      cases (replay.history.query point).found <;> rfl
    have metric := counts.queried_metric
    rw [Update.total_append, Update.total_append, new.found, new.missed]
    omega

theorem FoundCounts.applyMeasurement
    (counts : replay.FoundCounts updates count)
    (sample : Sample) :
    (replay.applyMeasurement sample).after.FoundCounts
      (updates ++ Signal.updates (replay.applyMeasurement sample).signals)
      count := by
  have new := replay.ofMeasurement sample
  refine ⟨counts.found_tally, counts.found_speed, ?_, ?_, ?_⟩
  · rw [Update.total_append, new.estimates]
    exact counts.found_metric
  · rw [Update.observed_append, new.weights, List.append_nil]
    exact counts.found_weights
  · rw [Update.observed_append, new.weights, List.append_nil]
    exact counts.weights_pos

/-- A usable answer counts once everywhere, and its weight is positive. -/
theorem FoundCounts.applyQuery
    (counts : replay.FoundCounts updates count)
    (point : Point) :
    (replay.applyQuery point).after.FoundCounts
      (updates ++ Signal.updates (replay.applyQuery point).signals)
      (count + (replay.history.query point).found.toNat) := by
  have new := replay.ofQuery point
  have tallied : (replay.applyQuery point).after.tally =
      replay.tally.countQuery (replay.history.query point) := rfl
  have more : (replay.applyQuery point).after.tally.found =
      replay.tally.found + (replay.history.query point).found.toNat := by
    rw [tallied]
    unfold Tally.countQuery
    cases (replay.history.query point).found <;> rfl
  have positive : (replay.history.query point).found = true →
      0 < (replay.history.query point).totalWeight.toInt :=
    (Kernel.found_iff _ _ _).mp
  refine ⟨?_, ?_, ?_, ?_, ?_⟩
  · rw [more, counts.found_tally]
  · rw [more, tallied, ← counts.found_speed]
    unfold Tally.countQuery
    cases (replay.history.query point).found with
    | false => rfl
    | true => exact StatisticsOver.count_push _ _
  · rw [more, Update.total_append, counts.found_metric, new.found]
  · rw [more, Update.observed_append, List.length_append, counts.found_weights, new.weights]
    cases (replay.history.query point).found <;> rfl
  · rw [Update.observed_append, new.weights]
    intro weight member
    rcases List.mem_append.mp member with earlier | added
    · exact counts.weights_pos weight earlier
    · split at added
      · next found =>
          obtain rfl := List.mem_singleton.mp added
          exact Binary64.ofInt64_pos (positive found)
      · cases added

end Families

/--
All counts of a replay, beside the records that were applied, the answers that were given and the
metric updates that arose.
-/
structure Agrees
    (replay : Replay)
    (records : List Record)
    (outcomes : List Outcome)
    (updates : List Update) : Prop extends
    AppliedCounts replay updates records.length,
    MeasuredCounts replay updates (Record.samples records).length,
    HeldCounts replay updates (Record.samples records),
    QueriedCounts replay updates outcomes.length,
    FoundCounts replay updates (outcomes.countP fun outcome => outcome.estimate.found)

/-- Before any record, everything is zero. -/
theorem agrees_start (settings : Settings) : (start settings).Agrees [] [] [] where
  records_eq := rfl
  kinds := rfl
  measured_tally := rfl
  measured_store := rfl
  measured_metric := rfl
  measured_quality := rfl
  evicted_store := (Nat.zero_sub _).symm
  evicted_tally := rfl
  evicted_metric := rfl
  size_eq := (Nat.zero_min _).symm
  depth := rfl
  queried_tally := rfl
  queried_contributors := rfl
  queried_metric := rfl
  found_tally := rfl
  found_speed := rfl
  found_metric := rfl
  found_weights := rfl
  weights_pos := nofun

variable
  {replay : Replay}
  {records : List Record}
  {outcomes : List Outcome}
  {updates : List Update}

/-- A measurement keeps all counts in agreement. -/
theorem Agrees.applyMeasurement
    (agrees : replay.Agrees records outcomes updates)
    (sample : Sample) :
    (replay.applyMeasurement sample).after.Agrees
      (records ++ [.measurement sample])
      outcomes
      (updates ++ Signal.updates (replay.applyMeasurement sample).signals) := by
  have samples : Record.samples (records ++ [.measurement sample]) =
      Record.samples records ++ [sample] := Record.samples_append records _
  have applied := agrees.toAppliedCounts.applyMeasurement sample
  have measured := agrees.toMeasuredCounts.applyMeasurement sample
  have held := agrees.toHeldCounts.applyMeasurement sample
  rw [← samples] at held
  refine ⟨?_, ?_, held, agrees.toQueriedCounts.applyMeasurement sample,
    agrees.toFoundCounts.applyMeasurement sample⟩
  · rw [List.length_append]
    exact applied
  · rw [samples, List.length_append]
    exact measured

/-- A query keeps all counts in agreement. -/
theorem Agrees.applyQuery
    (agrees : replay.Agrees records outcomes updates)
    (point : Point) :
    (replay.applyQuery point).after.Agrees
      (records ++ [.query point])
      (outcomes ++ [⟨point, replay.history.query point⟩])
      (updates ++ Signal.updates (replay.applyQuery point).signals) := by
  have same : Record.samples (records ++ [.query point]) = Record.samples records :=
    (Record.samples_append records _).trans (List.append_nil _)
  have applied := agrees.toAppliedCounts.applyQuery point
  have measured := agrees.toMeasuredCounts.applyQuery point
  have held := agrees.toHeldCounts.applyQuery point
  have queried := agrees.toQueriedCounts.applyQuery point
  have found := agrees.toFoundCounts.applyQuery point
  rw [← same] at measured held
  refine ⟨?_, measured, held, ?_, ?_⟩
  · rw [List.length_append]
    exact applied
  · rw [List.length_append]
    exact queried
  · rw [List.countP_append, List.countP_singleton]
    cases known : (replay.history.query point).found <;>
      · rw [known] at found
        exact found

/-- Any further records keep all counts in agreement. -/
theorem Agrees.course
    (agrees : replay.Agrees records outcomes updates)
    (later : List Record) :
    (replay.course later).after.Agrees
      (records ++ later)
      (outcomes ++ (replay.course later).outcomes)
      (updates ++ Signal.updates (replay.course later).signals) := by
  -- Each step adds to the records, the answers and the updates that the counts are compared with.
  induction later generalizing replay records outcomes updates with
  | nil =>
      simp only [Replay.course, Signal.updates, List.filterMap_nil, List.append_nil]
      exact agrees
  | cons record later ih =>
      cases record with
      | measurement sample =>
          have next := ih (agrees.applyMeasurement sample)
          rw [List.append_assoc, List.append_assoc, ← Signal.updates_append] at next
          exact next
      | query point =>
          have next := ih (agrees.applyQuery point)
          rw [List.append_assoc, List.append_assoc, List.append_assoc,
            ← Signal.updates_append] at next
          exact next

/--
In every state that a replay reaches, all counts agree.  None exceeds the number of records, so
that counters of 64 bits hold them as long as there are fewer than `2 ^ 64` records.
-/
theorem counts_agree (settings : Settings) (records : List Record) :
    let course := (start settings).course records
    course.after.Agrees records course.outcomes (Signal.updates course.signals) ∧
      course.after.history.store.capacity = max settings.capacity.toNat 1 ∧
      course.outcomes.length = (Record.points records).length ∧
      ∀ count ∈
          [ course.after.tally.measurements, course.after.tally.evictions
          , course.after.tally.queries, course.after.tally.found ],
        count ≤ records.length := by
  intro course
  have agrees : course.after.Agrees records course.outcomes (Signal.updates course.signals) :=
    (agrees_start settings).course records
  have answered : course.outcomes.length = (Record.points records).length := by
    rw [course_outcomes, History.length_answers]
  refine ⟨agrees, ?_, answered, ?_⟩
  · rw [course_history, History.addAll_capacity]
    rfl
  · have measurements : (Record.samples records).length ≤ records.length :=
      List.length_filterMap_le _ _
    have queries : (Record.points records).length ≤ records.length :=
      List.length_filterMap_le _ _
    have found : course.outcomes.countP (fun outcome => outcome.estimate.found) ≤
        course.outcomes.length := List.countP_le_length
    rw [agrees.measured_tally, agrees.evicted_tally, agrees.evicted_store, agrees.queried_tally,
      agrees.found_tally, answered]
    simp only [List.forall_mem_cons]
    refine ⟨measurements, by omega, queries, by omega, nofun⟩

/-- Three measurements in two slots, then a query: one sample had to go. -/
example :
    let course := (start { Settings.classic with capacity := 2 }).course
      (List.replicate 3 (.measurement ⟨⟨1, 2⟩, 5, 0, 0⟩) ++ [.query ⟨0, 0⟩])
    course.after.tally.evictions = 1 ∧
      Update.total Metric.evictions (Signal.updates course.signals) = 1 ∧
      Update.last? Metric.depth (Signal.updates course.signals) = some 2 := by
  decide +kernel

end Replay
end WindsAloft
