import WindsAloft.Proofs.Counting

/-!
# Replays in 64-bit integers

Counts are natural numbers here, and a slot never names more than there is.  A
machine has 64 bits for a count and breaks off where a result does not fit, where a
slot is not there, or where no block of memory is as large as one that is requested.
This module goes through a replay once more with all these checks in it, each number
being the one that was checked.  Fewer than `2 ^ 64` records pass every check, under
all settings.  What is left is the one request at the start: settings may be valid and
still ask for more slots than a block can have.
-/

namespace WindsAloft

/-- Why a program breaks off. -/
inductive Panic where
  /-- No block of memory can be as large as one that is requested. -/
  | capacityOverflow
  /-- The result of an operation on integers is outside their range. -/
  | arithmeticOverflow
  /-- A slot is read or written that there is not. -/
  | indexOutOfBounds
  deriving DecidableEq, Repr

namespace Checked

/-- The next count, if 64 bits hold it. -/
def increment (count : ℕ) : Except Panic ℕ :=
  if count + 1 < 2 ^ 64 then .ok (count + 1) else .error .arithmeticOverflow

/-- The difference, if it is a 64-bit integer. -/
def subtract (a b : Int64) : Except Panic Int64 :=
  if Int64.minValue.toInt ≤ a.toInt - b.toInt ∧ a.toInt - b.toInt ≤ Int64.maxValue.toInt then
    .ok (a - b)
  else
    .error .arithmeticOverflow

/-- The score of a sample; its products and sums stop at the bounds and need no check. -/
def score (ageing : Ageing) (sample : Sample) (now : Float) : Except Panic Int64 := do
  let shortfall ← subtract ageing.qualityCeiling.toInt64 sample.quality.toInt64
  return Saturating.add (Saturating.mul ageing.qualityPenalty shortfall)
    (truncate (now - sample.time))

/-- The best of the slots from `slot` on, each of them being scored. -/
def bestSlot
    (ageing : Ageing)
    (now : Float)
    (last : ℕ) :
    ℕ → List Sample → Except Panic (ℕ × Int64)
  | _, [] => return (last, 0)
  | slot, sample :: samples => do
      let best ← bestSlot ageing now last (slot + 1) samples
      let here ← score ageing sample now
      return if best.2 < here then (slot, here) else best

/-- The slot of the least important sample. -/
def leastImportant (ageing : Ageing) (now : Float) : List Sample → Except Panic (Option ℕ)
  | [] => return none
  | sample :: samples => do
      let best ← bestSlot ageing now ((sample :: samples).length - 1) 0 (sample :: samples)
      return some best.1

/-- Puts a sample into a slot that has to be there, and hands the old one back. -/
def replace (store : Store) (slot : ℕ) (sample : Sample) : Except Panic (Store × Sample) :=
  if bound : slot < store.samples.size then
    .ok ({ store with
        samples := store.samples.set slot sample
        size_le := Nat.le_trans (Nat.le_of_eq (Array.size_set bound)) store.size_le },
      store.samples[slot])
  else
    .error .indexOutOfBounds

/-- Takes a sample in.  The slots have been requested, so that appending requests nothing. -/
def insert
    (ageing : Ageing)
    (store : Store)
    (sample : Sample) :
    Except Panic (Store × Option Eviction) := do
  let inserted ← increment store.inserted
  if store.samples.size < store.capacity then
    return ({ (store.insert sample).1 with inserted := inserted }, none)
  else
    match ← leastImportant ageing sample.time store.toList with
    | none => return ({ store with inserted := inserted }, none)
    | some slot =>
        let (replaced, old) ← replace store slot sample
        let evicted ← increment store.evicted
        let score ← score ageing old sample.time
        return ({ replaced with inserted := inserted, evicted := evicted },
          some ⟨slot, old, score⟩)

/-- A sample's part in the sums, which stop at their bounds; only the contributors are counted. -/
def accumulate
    (kernel : Kernel)
    (point : Point)
    (sum : WeightedSum)
    (sample : Sample) :
    Except Panic WeightedSum :=
  match kernel.weigh point sample with
  | none => return sum
  | some weight => do
      let contributors ← increment sum.contributors
      return { sum.add sample.wind weight.combined with contributors := contributors }

/-- The weighted mean wind at a point. -/
def estimate
    (kernel : Kernel)
    (samples : List Sample)
    (point : Point) :
    Except Panic Estimate := do
  let sum ← samples.foldlM (accumulate kernel point) .empty
  return sum.estimate

/-- Takes one more value into statistics. -/
def push (statistics : Statistics) (value : Float) : Except Panic Statistics := do
  let count ← increment statistics.count
  return { statistics.push value with count := count }

/-- Counts a measurement. -/
def countMeasurement
    (tally : Tally)
    (quality : Int32)
    (evicted : Bool) :
    Except Panic Tally := do
  let measurements ← increment tally.measurements
  let evictions ← if evicted then increment tally.evictions else pure tally.evictions
  let quality ← push tally.quality (ofInt32 quality)
  return { tally with measurements := measurements, evictions := evictions, quality := quality }

/-- Counts the answer to a query. -/
def countQuery (tally : Tally) (estimate : Estimate) : Except Panic Tally := do
  let queries ← increment tally.queries
  let contributors ← push tally.contributors (ofCount estimate.contributors)
  let found ← if estimate.found then increment tally.found else pure tally.found
  let speed ←
    if estimate.found then push tally.speed estimate.wind.speed else pure tally.speed
  return { tally with
    queries := queries, contributors := contributors, found := found, speed := speed }

/-- Takes a measurement in. -/
def applyMeasurement
    (ageing : Ageing)
    (replay : Replay)
    (sample : Sample) :
    Except Panic (Replay × Option Outcome) := do
  let records ← increment replay.records
  let (store, _) ← insert ageing replay.history.store sample
  let tally ← countMeasurement replay.tally sample.quality
    (replay.history.store.evicted < store.evicted)
  return (⟨⟨store, replay.history.kernel⟩, tally, records⟩, none)

/-- Answers a query. -/
def applyQuery (replay : Replay) (point : Point) : Except Panic (Replay × Option Outcome) := do
  let records ← increment replay.records
  let estimate ← estimate replay.history.kernel replay.history.store.toList point
  let tally ← countQuery replay.tally estimate
  return (⟨replay.history, tally, records⟩, some ⟨point, estimate⟩)

/-- Applies a record. -/
def apply
    (ageing : Ageing)
    (replay : Replay) :
    Record → Except Panic (Replay × Option Outcome)
  | .measurement sample => applyMeasurement ageing replay sample
  | .query point => applyQuery replay point

/-- Applies records one after the other, and gathers the answers. -/
def course
    (ageing : Ageing)
    (replay : Replay) :
    List Record → Except Panic (Replay × List Outcome)
  | [] => return (replay, [])
  | record :: records => do
      let (next, outcome) ← apply ageing replay record
      let (last, outcomes) ← course ageing next records
      return (last, outcome.toList ++ outcomes)

/-- Requests the slots of the store. -/
def start (settings : Settings) : Except Panic Replay :=
  if Store.Allocatable settings.capacity.toNat then
    .ok (Replay.start settings)
  else
    .error .capacityOverflow

/-- A whole replay of some records. -/
def replay (settings : Settings) (records : List Record) :
    Except Panic (Replay × List Outcome) := do
  let first ← start settings
  course settings.ageing first records

section Passing

theorem increment_eq {count : ℕ} (small : count + 1 < 2 ^ 64) :
    increment count = .ok (count + 1) :=
  if_pos small

/-- The difference of two 32-bit integers is a 64-bit one. -/
theorem subtract_eq (a b : Int32) :
    subtract a.toInt64 b.toInt64 = .ok (a.toInt64 - b.toInt64) := by
  have := a.le_toInt
  have := a.toInt_lt
  have := b.le_toInt
  have := b.toInt_lt
  have least := Int64.toInt_minValue
  have greatest := Int64.toInt_maxValue
  unfold subtract
  rw [Int32.toInt_toInt64, Int32.toInt_toInt64]
  exact if_pos (by omega)

theorem score_eq (ageing : Ageing) (sample : Sample) (now : Float) :
    score ageing sample now = .ok (ageing.score sample now) := by
  unfold score
  rw [subtract_eq]
  rfl

theorem bestSlot_eq
    (ageing : Ageing)
    (now : Float)
    (last slot : ℕ)
    (samples : List Sample) :
    bestSlot ageing now last slot samples =
      .ok (WindsAloft.bestSlot (fun sample => ageing.score sample now) last slot samples) := by
  induction samples generalizing slot with
  | nil => rfl
  | cons sample samples ih =>
      unfold bestSlot
      rw [ih, score_eq]
      rfl

theorem leastImportant_eq (ageing : Ageing) (now : Float) (samples : List Sample) :
    leastImportant ageing now samples =
      .ok (WindsAloft.leastImportant ageing.score now samples) := by
  cases samples with
  | nil => rfl
  | cons sample samples =>
      simp only [leastImportant]
      rw [bestSlot_eq]
      rfl

/-- The slot that is chosen is there, and the counts have room. -/
theorem insert_eq
    {ageing : Ageing}
    {store : Store}
    (scoring : store.scoring = ageing.score)
    (inserted : store.inserted + 1 < 2 ^ 64)
    (evicted : store.evicted + 1 < 2 ^ 64)
    (sample : Sample) :
    insert ageing store sample = .ok (store.insert sample) := by
  by_cases room : store.samples.size < store.capacity
  · have appended : (store.insert sample).2 = none := (Store.insert_of_room room sample).1
    have counted : (store.insert sample).1.inserted = store.inserted + 1 :=
      Store.insert_inserted sample
    unfold insert
    simp only [increment_eq inserted, bind, Except.bind, if_pos room]
    rw [← counted, ← appended]
    rfl
  · unfold insert Store.insert
    simp only [increment_eq inserted, bind, Except.bind, if_neg room, dif_neg room,
      leastImportant_eq, ← scoring]
    split
    · next missing =>
        split
        · rfl
        · next here => rw [missing] at here; cases here
    · next slot chosen =>
        have bound : slot < store.samples.size := leastImportant_lt chosen
        simp only [replace, dif_pos bound, increment_eq evicted, score_eq, ← scoring]
        split
        · next missing => rw [chosen] at missing; cases missing
        · next other here =>
            obtain rfl : slot = other := Option.some.inj (chosen.symm.trans here)
            rfl

theorem accumulate_eq
    (kernel : Kernel)
    (point : Point)
    {sum : WeightedSum}
    (small : sum.contributors + 1 < 2 ^ 64)
    (sample : Sample) :
    accumulate kernel point sum sample = .ok (kernel.accumulate point sum sample) := by
  unfold accumulate Kernel.accumulate
  cases kernel.weigh point sample with
  | none => rfl
  | some weight =>
      rw [increment_eq small]
      rfl

theorem contributors_accumulate_le
    (kernel : Kernel)
    (point : Point)
    (sum : WeightedSum)
    (sample : Sample) :
    (kernel.accumulate point sum sample).contributors ≤ sum.contributors + 1 := by
  unfold Kernel.accumulate
  cases kernel.weigh point sample with
  | none => exact Nat.le_succ _
  | some weight => exact le_rfl

/-- There are no more contributors than samples. -/
theorem foldlM_accumulate_eq
    (kernel : Kernel)
    (point : Point)
    {samples : List Sample}
    {sum : WeightedSum}
    (small : sum.contributors + samples.length < 2 ^ 64) :
    samples.foldlM (accumulate kernel point) sum =
      .ok (samples.foldl (kernel.accumulate point) sum) := by
  induction samples generalizing sum with
  | nil => rfl
  | cons sample samples ih =>
      rw [List.length_cons] at small
      have next := contributors_accumulate_le kernel point sum sample
      rw [List.foldlM_cons, accumulate_eq kernel point (by omega)]
      exact ih (by omega)

theorem estimate_eq
    (kernel : Kernel)
    {samples : List Sample}
    (small : samples.length < 2 ^ 64)
    (point : Point) :
    estimate kernel samples point = .ok (kernel.estimate samples point) := by
  have start : WeightedSum.empty.contributors + samples.length < 2 ^ 64 := by
    rwa [show WeightedSum.empty.contributors = 0 from rfl, Nat.zero_add]
  unfold estimate
  rw [foldlM_accumulate_eq kernel point start]
  rfl

theorem push_eq {statistics : Statistics} (small : statistics.count + 1 < 2 ^ 64) (value : Float) :
    push statistics value = .ok (statistics.push value) := by
  unfold push
  rw [increment_eq small, ← StatisticsOver.count_push statistics value]
  rfl

end Passing

/-- No count of a replay exceeds a bound, and its store scores as the settings say. -/
structure Within (ageing : Ageing) (replay : Replay) (n : ℕ) : Prop where
  scoring : replay.history.store.scoring = ageing.score
  records : replay.records ≤ n
  inserted : replay.history.store.inserted ≤ n
  evicted : replay.history.store.evicted ≤ n
  held : replay.history.store.size ≤ n
  measurements : replay.tally.measurements ≤ n
  evictions : replay.tally.evictions ≤ n
  queries : replay.tally.queries ≤ n
  found : replay.tally.found ≤ n
  quality : replay.tally.quality.count ≤ n
  contributors : replay.tally.contributors.count ≤ n
  speed : replay.tally.speed.count ≤ n

section Steps

variable {ageing : Ageing} {replay : Replay} {n : ℕ}

theorem within_start (settings : Settings) : Within settings.ageing (Replay.start settings) 0 := by
  constructor <;> rfl

/-- With every record each count goes up by at most one. -/
theorem Within.apply (within : Within ageing replay n) (record : Record) :
    Within ageing (replay.apply record).after (n + 1) := by
  cases record with
  | measurement sample =>
      obtain ⟨gone, -, size, evicted, room⟩ := replay.history.store.insert_counts sample
      have inserted : (replay.history.store.insert sample).1.inserted = _ :=
        Store.insert_inserted sample
      have qualities := StatisticsOver.count_push replay.tally.quality (ofInt32 sample.quality)
      exact
        { scoring := (Store.insert_scoring sample).trans within.scoring
          records := Nat.succ_le_succ within.records
          inserted := inserted.trans_le (Nat.succ_le_succ within.inserted)
          evicted := by
            have := within.evicted
            show (replay.history.store.insert sample).1.evicted ≤ n + 1
            omega
          held := by
            have := within.held
            show (replay.history.store.insert sample).1.size ≤ n + 1
            omega
          measurements := Nat.succ_le_succ within.measurements
          evictions := by
            show (if _ then replay.tally.evictions + 1 else replay.tally.evictions) ≤ n + 1
            split
            · exact Nat.succ_le_succ within.evictions
            · exact within.evictions.step
          queries := within.queries.step
          found := within.found.step
          quality := qualities.trans_le (Nat.succ_le_succ within.quality)
          contributors := within.contributors.step
          speed := within.speed.step }
  | query point =>
      have contributors := StatisticsOver.count_push replay.tally.contributors
        (ofCount (replay.history.query point).contributors)
      have speed := StatisticsOver.count_push replay.tally.speed
        (replay.history.query point).wind.speed
      exact
        { scoring := within.scoring
          records := Nat.succ_le_succ within.records
          inserted := within.inserted.step
          evicted := within.evicted.step
          held := within.held.step
          measurements := within.measurements.step
          evictions := within.evictions.step
          queries := Nat.succ_le_succ within.queries
          found := by
            show (if _ then replay.tally.found + 1 else replay.tally.found) ≤ n + 1
            split
            · exact Nat.succ_le_succ within.found
            · exact within.found.step
          quality := within.quality.step
          contributors := contributors.trans_le (Nat.succ_le_succ within.contributors)
          speed := by
            show (if _ then replay.tally.speed.push _ else replay.tally.speed).count ≤ n + 1
            split
            · exact speed.trans_le (Nat.succ_le_succ within.speed)
            · exact within.speed.step }

theorem countMeasurement_eq
    (within : Within ageing replay n)
    (small : n + 1 < 2 ^ 64)
    (quality : Int32)
    (evicted : Bool) :
    countMeasurement replay.tally quality evicted =
      .ok (replay.tally.countMeasurement quality evicted) := by
  have measurements := within.measurements
  have evictions := within.evictions
  have qualities := within.quality
  unfold countMeasurement
  rw [increment_eq (by omega), increment_eq (by omega), push_eq (by omega)]
  cases evicted <;> rfl

theorem countQuery_eq
    (within : Within ageing replay n)
    (small : n + 1 < 2 ^ 64)
    (estimate : Estimate) :
    countQuery replay.tally estimate = .ok (replay.tally.countQuery estimate) := by
  have queries := within.queries
  have found := within.found
  have contributors := within.contributors
  have speed := within.speed
  unfold countQuery
  rw [increment_eq (by omega), push_eq (by omega), increment_eq (by omega), push_eq (by omega)]
  unfold Tally.countQuery
  cases estimate.found <;> rfl

/-- A record that is not one too many passes every check. -/
theorem apply_eq
    (within : Within ageing replay n)
    (small : n + 1 < 2 ^ 64)
    (record : Record) :
    apply ageing replay record =
      .ok ((replay.apply record).after, (replay.apply record).outcome) := by
  have records := within.records
  have inserted := within.inserted
  have evicted := within.evicted
  have held := within.held
  cases record with
  | measurement sample =>
      show applyMeasurement ageing replay sample = _
      unfold applyMeasurement
      rw [increment_eq (by omega), insert_eq within.scoring (by omega) (by omega)]
      simp only [bind, Except.bind, countMeasurement_eq within small]
      rfl
  | query point =>
      have length : replay.history.store.toList.length < 2 ^ 64 := by
        rw [Store.length_toList]
        omega
      show applyQuery replay point = _
      unfold applyQuery
      rw [increment_eq (by omega), estimate_eq _ length]
      simp only [bind, Except.bind, countQuery_eq within small]
      rfl

/-- Records that are not too many pass every check. -/
theorem course_eq
    (within : Within ageing replay n)
    {records : List Record}
    (short : n + records.length < 2 ^ 64) :
    course ageing replay records =
      .ok ((replay.course records).after, (replay.course records).outcomes) := by
  induction records generalizing replay n with
  | nil => rfl
  | cons record records ih =>
      rw [List.length_cons] at short
      unfold course
      rw [apply_eq within (by omega)]
      simp only [bind, Except.bind, ih (within.apply record) (by omega)]
      rfl

end Steps

/-- As many slots as a block of memory can have at most. -/
theorem allocatable_iff (capacity : ℕ) :
    Store.Allocatable capacity ↔ capacity ≤ 230584300921369395 := by
  unfold Store.Allocatable Store.slotBytes Store.greatestBlock
  omega

/--
A replay of fewer than `2 ^ 64` records breaks off at most when it starts: no slot is used that
there is not and no integer leaves its range, under whatever settings.  It does start unless the
slots are more than a block of memory can have, which no rule for settings looks at.
-/
theorem replay_eq_course
    (settings : Settings)
    {records : List Record}
    (short : records.length < 2 ^ 64) :
    Checked.replay settings records =
        (match Replay.start? settings with
        | some first => .ok ((first.course records).after, (first.course records).outcomes)
        | none => .error .capacityOverflow) ∧
      (Replay.start? settings = none ↔ 230584300921369395 < settings.capacity.toNat) := by
  have passed := course_eq (within_start settings) (show 0 + records.length < 2 ^ 64 by omega)
  unfold replay start Replay.start?
  by_cases room : Store.Allocatable settings.capacity.toNat
  · rw [if_pos room, if_pos room]
    refine ⟨passed, nofun, ?_⟩
    rw [allocatable_iff] at room
    omega
  · rw [if_neg room, if_neg room]
    refine ⟨rfl, fun _ => ?_, fun _ => rfl⟩
    rw [allocatable_iff] at room
    omega

/-- Valid settings whose store takes two measurements in one slot, and such that never start. -/
theorem greatest_capacity_breaks_off :
    let single := { Settings.classic with capacity := 1 }
    let greatest := { Settings.classic with capacity := 18446744073709551615 }
    let records : List Record :=
      [.measurement ⟨⟨4, 0⟩, 5, 0, 0⟩, .measurement ⟨⟨8, 0⟩, 5, 10, 0⟩, .query ⟨10, 0⟩]
    single.Valid ∧ (Checked.replay single records).isOk = true ∧
      greatest.Valid ∧ Checked.replay greatest records = .error .capacityOverflow := by
  intro single greatest records
  have short : records.length < 2 ^ 64 := by decide
  obtain ⟨passed, -⟩ := replay_eq_course single short
  obtain ⟨broken, stuck⟩ := replay_eq_course greatest short
  refine ⟨by decide +kernel, ?_, by decide +kernel, ?_⟩
  · rw [passed]
    rfl
  · rw [broken, stuck.mpr (by decide)]

end Checked
end WindsAloft
