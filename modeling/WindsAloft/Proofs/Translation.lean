import WindsAloft.Proofs.Replaying
import WindsAloft.Proofs.WeightedMean

/-!
# Traces moved in time and altitude

A translation adds one whole number to every time of a trace and another one to every
altitude.  As long as all times and altitudes are whole numbers up to `2 ^ 52`, before
and after, their differences stay what they were, and a replay looks at nothing else:
the same slots are given up at the same records, every query gets the same estimate,
and what is held at the end is what would have been held, moved.

The two replays are followed side by side.  One record keeps them a translation apart
(`apply_moved`), so a whole course does (`course_moved`).
-/

namespace WindsAloft

open Binary64 (quanta? unit)

attribute [local irreducible] Binary64.unit Binary64.overflow

/-- A move of all times and of all altitudes by whole numbers. -/
structure Translation where
  time : ℤ
  altitude : ℤ
  deriving DecidableEq, Repr

namespace Translation

/-- A double with a whole number added to it. -/
def moved (offset : ℤ) (x : Float) : Float :=
  x + Float.ofInt offset

/-- A whole number up to `2 ^ 52` that stays one when it is moved. -/
def Fits (offset : ℤ) (x : Float) : Prop :=
  ∃ n : ℤ, quanta? x = some (n * unit) ∧ |n| ≤ 2 ^ 52 ∧ |n + offset| ≤ 2 ^ 52

/-- One whole number is the other one with the offset added, or neither is there. -/
def Advances (offset : ℤ) : Option Float → Option Float → Prop
  | none, none => True
  | some x, some y => ∃ n : ℤ, quanta? x = some (n * unit) ∧ quanta? y = some ((n + offset) * unit)
  | _, _ => False

section Numbers

variable {offset : ℤ} {x y : Float}

/-- The offset is added exactly. -/
theorem Fits.quanta?_moved (fits : Fits offset x) :
    ∃ n : ℤ,
      quanta? x = some (n * unit) ∧
      quanta? (moved offset x) = some ((n + offset) * unit) ∧
      |n| ≤ 2 ^ 52 ∧ |n + offset| ≤ 2 ^ 52 := by
  obtain ⟨n, value, small, movedSmall⟩ := fits
  have offsetSmall : |offset| ≤ 2 ^ 53 := by
    rw [abs_le] at small movedSmall ⊢
    omega
  have sumSmall : |n + offset| ≤ 2 ^ 53 := movedSmall.trans (by norm_num)
  exact ⟨n, value,
    Binary64.quanta?_add_whole value (Binary64.quanta?_ofInt_whole offsetSmall) sumSmall,
    small, movedSmall⟩

/-- The difference of two doubles that are moved alike is the same number of quanta. -/
theorem exists_quanta?_sub_moved (left : Fits offset x) (right : Fits offset y) :
    ∃ a, quanta? (x - y) = some a ∧ quanta? (moved offset x - moved offset y) = some a := by
  obtain ⟨m, xValue, xMoved, xSmall, -⟩ := left.quanta?_moved
  obtain ⟨n, yValue, yMoved, ySmall, -⟩ := right.quanta?_moved
  have small : |m - n| ≤ 2 ^ 53 := by
    rw [abs_le] at xSmall ySmall ⊢
    omega
  have same : m + offset - (n + offset) = m - n := by ring
  refine ⟨(m - n) * unit, Binary64.quanta?_sub_whole xValue yValue small, ?_⟩
  rw [← same]
  exact Binary64.quanta?_sub_whole xMoved yMoved (same ▸ small)

theorem abs_sub_moved (left : Fits offset x) (right : Fits offset y) :
    (moved offset x - moved offset y).abs = (x - y).abs := by
  obtain ⟨a, value, movedValue⟩ := exists_quanta?_sub_moved left right
  exact Binary64.abs_eq_of_quanta? movedValue value

theorem truncate_sub_moved (left : Fits offset x) (right : Fits offset y) :
    truncate (moved offset x - moved offset y) = truncate (x - y) := by
  obtain ⟨a, value, movedValue⟩ := exists_quanta?_sub_moved left right
  rw [Binary64.truncate_of_quanta? movedValue, Binary64.truncate_of_quanta? value]

theorem moved_lt_moved (left : Fits offset x) (right : Fits offset y) :
    moved offset x < moved offset y ↔ x < y := by
  obtain ⟨m, xValue, xMoved, -, -⟩ := left.quanta?_moved
  obtain ⟨n, yValue, yMoved, -, -⟩ := right.quanta?_moved
  have positive : (0 : ℤ) < unit := Binary64.unit_pos_int
  rw [Binary64.lt_iff_quanta_lt xMoved yMoved, Binary64.lt_iff_quanta_lt xValue yValue,
    mul_lt_mul_iff_left₀ positive, mul_lt_mul_iff_left₀ positive]
  exact add_lt_add_iff_right offset

/-- Choosing by the order of two doubles comes out alike for the moved ones. -/
theorem chosen_moved
    {before movedBefore : Prop}
    [Decidable before]
    [Decidable movedBefore]
    (order : movedBefore ↔ before)
    (left : Fits offset x)
    (y : Float) :
    (if (moved offset x).isNaN then moved offset y
      else if movedBefore then moved offset y else moved offset x) =
      moved offset (if x.isNaN then y else if before then y else x) := by
  obtain ⟨n, value, movedValue, -, -⟩ := left.quanta?_moved
  simp only [Binary64.isNaN_eq_false value, Binary64.isNaN_eq_false movedValue, order,
    Bool.false_eq_true, if_false]
  split <;> rfl

end Numbers

section Parts

variable (shift : Translation)

/-- A sample moved. -/
def sample (sample : Sample) : Sample :=
  { sample with
    time := moved shift.time sample.time
    altitude := moved shift.altitude sample.altitude }

/-- A point moved. -/
def point (point : Point) : Point where
  time := moved shift.time point.time
  altitude := moved shift.altitude point.altitude

/-- A record moved. -/
def record : Record → Record
  | .measurement sample => .measurement (shift.sample sample)
  | .query point => .query (shift.point point)

/-- An item of a trace with its record moved, if it is one. -/
def item {ε : Type} (item : Except ε Record) : Except ε Record :=
  item.map shift.record

/-- An answer to a moved query: the estimate is the same one. -/
def outcome (outcome : Outcome) : Outcome :=
  { outcome with point := shift.point outcome.point }

/-- What had to go, moved: slot and score are the same ones. -/
def eviction (eviction : Eviction) : Eviction :=
  { eviction with sample := shift.sample eviction.sample }

/-- A store with its samples moved. -/
def store (store : Store) : Store :=
  { store with
    samples := store.samples.map shift.sample
    size_le := by simpa using store.size_le }

/-- A history with its samples moved. -/
def history (history : History) : History :=
  { history with store := shift.store history.store }

/-- A replay with the samples of its history moved. -/
def replay (replay : Replay) : Replay :=
  { replay with history := shift.history replay.history }

/-- A sample whose time and altitude fit. -/
structure FitsSample (sample : Sample) : Prop where
  time : Fits shift.time sample.time
  altitude : Fits shift.altitude sample.altitude

/-- A point whose time and altitude fit. -/
structure FitsPoint (point : Point) : Prop where
  time : Fits shift.time point.time
  altitude : Fits shift.altitude point.altitude

/-- A record whose time and altitude fit. -/
def FitsRecord : Record → Prop
  | .measurement sample => shift.FitsSample sample
  | .query point => shift.FitsPoint point

end Parts

section Engine

variable {shift : Translation} {sample : Sample} {point : Point}

/-- Seen from a moved point, a moved sample weighs the same. -/
theorem weigh_moved
    (kernel : Kernel)
    (pointFits : shift.FitsPoint point)
    (sampleFits : shift.FitsSample sample) :
    kernel.weigh (shift.point point) (shift.sample sample) = kernel.weigh point sample :=
  kernel.weigh_of_abs_eq (abs_sub_moved pointFits.altitude sampleFits.altitude)
    (abs_sub_moved pointFits.time sampleFits.time) rfl

/-- From moved samples a moved point gets the same estimate. -/
theorem estimate_moved
    (kernel : Kernel)
    {samples : List Sample}
    (pointFits : shift.FitsPoint point)
    (samplesFit : ∀ sample ∈ samples, shift.FitsSample sample) :
    kernel.estimate (samples.map shift.sample) (shift.point point) =
      kernel.estimate samples point := by
  have shares :
      kernel.shares (shift.point point) (samples.map shift.sample) =
        kernel.shares point samples := by
    unfold Kernel.shares
    rw [List.filterMap_map]
    apply List.filterMap_congr
    intro sample inside
    show (kernel.weigh (shift.point point) (shift.sample sample)).map _ = _
    rw [weigh_moved kernel pointFits (samplesFit sample inside)]
    rfl
  rw [Kernel.estimate_eq, Kernel.estimate_eq, shares]

/-- The score of a moved sample at a moved time is the same. -/
theorem score_moved
    (ageing : Ageing)
    {now : Float}
    (nowFits : Fits shift.time now)
    (sampleFits : shift.FitsSample sample) :
    ageing.score (shift.sample sample) (moved shift.time now) = ageing.score sample now := by
  have age := truncate_sub_moved nowFits sampleFits.time
  unfold Ageing.score
  exact congrArg _ age

theorem bestSlot_map
    {score scoreMoved : Sample → Int64}
    (last slot : ℕ)
    {samples : List Sample}
    (same : ∀ sample ∈ samples, scoreMoved (shift.sample sample) = score sample) :
    bestSlot scoreMoved last slot (samples.map shift.sample) =
      bestSlot score last slot samples := by
  induction samples generalizing slot with
  | nil => rfl
  | cons first rest ih =>
      obtain ⟨head, tail⟩ := List.forall_mem_cons.mp same
      simp only [List.map_cons, bestSlot, head, ih (slot + 1) tail]

/-- Among moved samples the same slot is given up. -/
theorem leastImportant_moved
    (ageing : Ageing)
    {now : Float}
    {samples : List Sample}
    (nowFits : Fits shift.time now)
    (samplesFit : ∀ sample ∈ samples, shift.FitsSample sample) :
    leastImportant ageing.score (moved shift.time now) (samples.map shift.sample) =
      leastImportant ageing.score now samples := by
  cases samples with
  | nil => rfl
  | cons first rest =>
      have best :
          bestSlot (fun sample => ageing.score sample (moved shift.time now)) rest.length 0
              ((first :: rest).map shift.sample) =
            bestSlot (fun sample => ageing.score sample now) rest.length 0 (first :: rest) :=
        bestSlot_map rest.length 0 fun sample inside =>
          score_moved ageing nowFits (samplesFit sample inside)
      simp only [leastImportant, List.map_cons, List.length_cons, List.length_map,
        Nat.add_sub_cancel]
      exact congrArg (fun best => some best.1) best

end Engine

section Held

variable {shift : Translation} {store : Store} {sample : Sample}

theorem toList_store (shift : Translation) (store : Store) :
    (shift.store store).toList = store.toList.map shift.sample := by
  simp [Translation.store, Store.toList]

theorem size_store (shift : Translation) (store : Store) :
    (shift.store store).size = store.size := by
  simp [Translation.store, Store.size]

/-- A store with the default scoring whose samples all fit. -/
structure FitsStore (shift : Translation) (ageing : Ageing) (store : Store) : Prop where
  scoring_eq : store.scoring = ageing.score
  held : ∀ sample ∈ store.toList, shift.FitsSample sample

theorem evictionCandidate_moved
    {ageing : Ageing}
    (storeFits : FitsStore shift ageing store)
    {now : Float}
    (nowFits : Fits shift.time now) :
    (shift.store store).evictionCandidate (moved shift.time now) =
      store.evictionCandidate now := by
  have chosen := leastImportant_moved ageing nowFits storeFits.held
  have full : (shift.store store).isFull = store.isFull := by
    rw [Bool.eq_iff_iff, Store.isFull_iff, Store.isFull_iff, size_store]
    rfl
  have scoring : (shift.store store).scoring = ageing.score := storeFits.scoring_eq
  unfold Store.evictionCandidate
  rw [full, scoring, storeFits.scoring_eq, toList_store, chosen]

/-- A moved sample does to a moved store what the sample does to the store. -/
theorem insert_moved
    {ageing : Ageing}
    (storeFits : FitsStore shift ageing store)
    (sampleFits : shift.FitsSample sample) :
    (shift.store store).insert (shift.sample sample) =
      (shift.store (store.insert sample).1, (store.insert sample).2.map shift.eviction) := by
  rcases store.room_or_full with room | full
  · obtain ⟨nothing, appended, evicted⟩ := Store.insert_of_room room sample
    have movedRoom : (shift.store store).size < (shift.store store).capacity := by
      rw [size_store]
      exact room
    obtain ⟨movedNothing, movedAppended, movedEvicted⟩ :=
      Store.insert_of_room movedRoom (shift.sample sample)
    apply Prod.ext
    · apply Store.ext_of_toList
      · simp [Translation.store]
      · simp [Translation.store]
      · rw [movedAppended, toList_store, toList_store, appended, List.map_append]
        rfl
      · simp [Translation.store]
      · exact movedEvicted.trans evicted.symm
    · rw [movedNothing, nothing]
      rfl
  · obtain ⟨slot, old, named, content, handed, exchanged, evicted⟩ :=
      Store.insert_of_full full sample
    have movedFull : (shift.store store).size = (shift.store store).capacity := by
      rw [size_store]
      exact full
    obtain ⟨movedSlot, movedOld, movedNamed, movedContent, movedHanded, movedExchanged,
      movedEvicted⟩ := Store.insert_of_full movedFull (shift.sample sample)
    have candidate := evictionCandidate_moved storeFits sampleFits.time
    obtain rfl : movedSlot = slot := by
      have together := movedNamed.symm.trans (candidate.trans named)
      exact Option.some.inj together
    obtain rfl : movedOld = shift.sample old := by
      rw [toList_store, List.getElem?_map, content] at movedContent
      exact (Option.some.inj movedContent).symm
    apply Prod.ext
    · apply Store.ext_of_toList
      · simp [Translation.store]
      · simp [Translation.store]
      · rw [movedExchanged, toList_store, toList_store, exchanged, List.map_set]
      · simp [Translation.store]
      · exact movedEvicted.trans evicted.symm
    · have score :
          store.scoring (shift.sample old) (shift.sample sample).time =
            store.scoring old sample.time := by
        rw [storeFits.scoring_eq]
        exact score_moved ageing sampleFits.time (storeFits.held old (List.mem_of_getElem? content))
      rw [movedHanded, handed]
      exact congrArg (fun score => some (Eviction.mk movedSlot (shift.sample old) score)) score

/-- An insertion keeps what is held fitting. -/
theorem FitsStore.insert
    {ageing : Ageing}
    (storeFits : FitsStore shift ageing store)
    (sampleFits : shift.FitsSample sample) :
    FitsStore shift ageing (store.insert sample).1 where
  scoring_eq := by
    rw [Store.insert_scoring, storeFits.scoring_eq]
  held := by
    intro held inside
    rcases Store.mem_of_mem_insert inside with before | rfl
    · exact storeFits.held held before
    · exact sampleFits

end Held

end Translation

/-- What had to go for each of some records, in order; nothing goes for a query. -/
def History.losses (history : History) : List Record → List (Option Eviction)
  | [] => []
  | .measurement sample :: records =>
      (history.add sample).2 :: (history.add sample).1.losses records
  | .query _ :: records => none :: history.losses records

namespace Translation

section Runs

open Replay (readable fault?)

variable {shift : Translation} {ageing : Ageing}

theorem add_moved
    {history : History}
    {sample : Sample}
    (storeFits : FitsStore shift ageing history.store)
    (sampleFits : shift.FitsSample sample) :
    (shift.history history).add (shift.sample sample) =
      (shift.history (history.add sample).1, (history.add sample).2.map shift.eviction) := by
  have inserted := insert_moved storeFits sampleFits
  apply Prod.ext
  · exact congrArg (fun result => History.mk result.1 history.kernel) inserted
  · show ((shift.store history.store).insert (shift.sample sample)).2 = _
    rw [inserted]
    rfl

theorem losses_moved
    {history : History}
    {records : List Record}
    (storeFits : FitsStore shift ageing history.store)
    (recordsFit : ∀ record ∈ records, shift.FitsRecord record) :
    (shift.history history).losses (records.map shift.record) =
      (history.losses records).map (Option.map shift.eviction) := by
  induction records generalizing history with
  | nil => rfl
  | cons record records ih =>
      obtain ⟨head, tail⟩ := List.forall_mem_cons.mp recordsFit
      cases record with
      | measurement sample =>
          have stillFits : FitsStore shift ageing (history.add sample).1.store :=
            storeFits.insert head
          have rest := ih stillFits tail
          simp only [List.map_cons, record, History.losses, add_moved storeFits head]
          exact congrArg (_ :: ·) rest
      | query point =>
          have rest := ih storeFits tail
          exact congrArg (none :: ·) rest

/-- One record keeps two replays a translation apart. -/
theorem apply_moved
    {replay : Replay}
    {record : Record}
    (storeFits : FitsStore shift ageing replay.history.store)
    (recordFits : shift.FitsRecord record) :
    ((shift.replay replay).apply (shift.record record)).after =
        shift.replay (replay.apply record).after ∧
      ((shift.replay replay).apply (shift.record record)).outcome =
        (replay.apply record).outcome.map shift.outcome ∧
      FitsStore shift ageing (replay.apply record).after.history.store := by
  cases record with
  | measurement sample =>
      have added := add_moved storeFits recordFits
      refine ⟨?_, rfl, storeFits.insert recordFits⟩
      exact congrArg
        (fun result : History × Option Eviction =>
          Replay.mk result.1
            (replay.tally.countMeasurement sample.quality
              (decide (replay.history.store.evicted < result.1.store.evicted)))
            (replay.records + 1))
        added
  | query point =>
      have estimate := estimate_moved replay.history.kernel recordFits storeFits.held
      have answered :
          (shift.history replay.history).query (shift.point point) =
            replay.history.query point := by
        unfold History.query
        rw [← estimate, ← toList_store]
        rfl
      refine ⟨?_, ?_, storeFits⟩
      · exact congrArg
          (fun estimate =>
            Replay.mk (shift.history replay.history) (replay.tally.countQuery estimate)
              (replay.records + 1))
          answered
      · exact congrArg (fun estimate => some (Outcome.mk (shift.point point) estimate)) answered

/-- So does a whole course. -/
theorem course_moved
    {replay : Replay}
    {records : List Record}
    (storeFits : FitsStore shift ageing replay.history.store)
    (recordsFit : ∀ record ∈ records, shift.FitsRecord record) :
    ((shift.replay replay).course (records.map shift.record)).after =
        shift.replay (replay.course records).after ∧
      ((shift.replay replay).course (records.map shift.record)).outcomes =
        (replay.course records).outcomes.map shift.outcome ∧
      FitsStore shift ageing (replay.course records).after.history.store := by
  induction records generalizing replay with
  | nil => exact ⟨rfl, rfl, storeFits⟩
  | cons record records ih =>
      obtain ⟨head, tail⟩ := List.forall_mem_cons.mp recordsFit
      obtain ⟨after, outcome, stillFits⟩ := apply_moved storeFits head
      obtain ⟨last, outcomes, held⟩ := ih stillFits tail
      simp only [List.map_cons, Replay.course, after, outcome]
      refine ⟨last, ?_, held⟩
      rw [outcomes, List.map_append]
      cases (replay.apply record).outcome <;> rfl

/-- The time chosen among moved samples is the chosen time, moved. -/
theorem selectTime_moved
    {choose : Float → Float → Float}
    (commutes :
      ∀ {x y}, Fits shift.time x → Fits shift.time y →
        choose (moved shift.time x) (moved shift.time y) = moved shift.time (choose x y))
    (among : ∀ x y, choose x y = x ∨ choose x y = y)
    {samples : List Sample}
    (samplesFit : ∀ sample ∈ samples, shift.FitsSample sample) :
    Advances shift.time (Store.selectTime choose samples)
      (Store.selectTime choose (samples.map shift.sample)) := by
  cases samples with
  | nil => trivial
  | cons first rest =>
      obtain ⟨head, tail⟩ := List.forall_mem_cons.mp samplesFit
      -- The time chosen so far fits, so the next comparison comes out alike.
      have chosen :
          ∀ time, Fits shift.time time →
            Fits shift.time (rest.foldl (fun time sample => choose time sample.time) time) ∧
            (rest.map shift.sample).foldl (fun time sample => choose time sample.time)
                (moved shift.time time) =
              moved shift.time
                (rest.foldl (fun time sample => choose time sample.time) time) := by
        clear samplesFit
        induction rest with
        | nil => exact fun time timeFits => ⟨timeFits, rfl⟩
        | cons sample rest ih =>
            obtain ⟨sampleFits, restFits⟩ := List.forall_mem_cons.mp tail
            intro time timeFits
            have nextFits : Fits shift.time (choose time sample.time) := by
              rcases among time sample.time with same | same
              · rw [same]
                exact timeFits
              · rw [same]
                exact sampleFits.time
            have step :
                choose (moved shift.time time) (shift.sample sample).time =
                  moved shift.time (choose time sample.time) :=
              commutes timeFits sampleFits.time
            rw [List.map_cons, List.foldl_cons, List.foldl_cons, step]
            exact ih restFits _ nextFits
      obtain ⟨fits, same⟩ := chosen first.time head.time
      obtain ⟨n, value, movedValue, -, -⟩ := fits.quanta?_moved
      rw [← same] at movedValue
      exact ⟨n, value, movedValue⟩

/-- There is nothing to be moved in a new replay. -/
theorem replay_start (shift : Translation) (settings : Settings) :
    shift.replay (Replay.start settings) = Replay.start settings := by
  have nothing :
      shift.store (Replay.start settings).history.store =
        (Replay.start settings).history.store :=
    Store.ext_of_toList rfl rfl (toList_store shift _) rfl rfl
  exact congrArg (fun store => Replay.mk ⟨store, settings.kernel⟩ .empty 0) nothing

theorem readable_map_item {ε : Type} (shift : Translation) (items : List (Except ε Record)) :
    readable (items.map shift.item) = (readable items).map shift.record ∧
      fault? (items.map shift.item) = fault? items := by
  induction items with
  | nil => exact ⟨rfl, rfl⟩
  | cons item items ih =>
      cases item with
      | error e => exact ⟨rfl, rfl⟩
      | ok record => exact ⟨congrArg (shift.record record :: ·) ih.1, ih.2⟩

/--
Moving a trace of whole times and altitudes moves its replay: the queries get the same
estimates, the same slots are given up at the same records, the replay ends with the
same tally and the same store, moved, and its oldest and newest time have advanced by
the offset.
-/
theorem run_moved
    {ε : Type}
    (settings : Settings)
    (shift : Translation)
    {items : List (Except ε Record)}
    (recordsFit : ∀ record ∈ readable items, shift.FitsRecord record) :
    let start := Replay.start settings
    let run := start.run items
    let other := start.run (items.map shift.item)
    other.outcomes = run.outcomes.map shift.outcome ∧
      start.history.losses (readable (items.map shift.item)) =
        (start.history.losses (readable items)).map (Option.map shift.eviction) ∧
      other.stopped = run.stopped ∧
      other.final = shift.replay run.final ∧
      Advances shift.time run.final.history.store.status.oldestTime
        other.final.history.store.status.oldestTime ∧
      Advances shift.time run.final.history.store.status.newestTime
        other.final.history.store.status.newestTime := by
  intro start run other
  have startFits : FitsStore shift settings.ageing start.history.store :=
    ⟨rfl, fun sample inside => absurd inside List.not_mem_nil⟩
  have unmoved : shift.replay start = start := replay_start shift settings
  obtain ⟨records, fault⟩ := readable_map_item shift items
  obtain ⟨after, outcomes, held⟩ := course_moved startFits recordsFit
  have losses := losses_moved startFits recordsFit
  rw [unmoved, ← records] at after outcomes
  have final : other.final = shift.replay run.final := by
    simp only [run, other, Replay.run_eq]
    exact after
  have stored : run.final.history.store = (start.course (readable items)).after.history.store := by
    simp only [run, Replay.run_eq]
  have heldFit : ∀ sample ∈ run.final.history.store.toList, shift.FitsSample sample := by
    rw [stored]
    exact held.held
  refine ⟨?_, ?_, ?_, final, ?_, ?_⟩
  · simp only [run, other, Replay.run_eq]
    exact outcomes
  · have unmovedHistory : shift.history start.history = start.history :=
      congrArg Replay.history unmoved
    rw [unmovedHistory, ← records] at losses
    exact losses
  · simp only [run, other, Replay.run_stopped]
    exact fault
  · rw [final]
    have oldest := selectTime_moved
      (fun left right => chosen_moved (moved_lt_moved right left) left _)
      Binary64.lesser_eq_or heldFit
    rw [← toList_store] at oldest
    exact oldest
  · rw [final]
    have newest := selectTime_moved
      (fun left right => chosen_moved (moved_lt_moved left right) left _)
      Binary64.greater_eq_or heldFit
    rw [← toList_store] at newest
    exact newest

/-- The law where the second measurement replaces the first one, and both are asked for. -/
theorem run_moved_single_slot :
    let settings := { Settings.classic with capacity := 1 }
    let shift : Translation := ⟨-7, 250⟩
    let items : List (Except Unit Record) :=
      [ .ok (.measurement ⟨⟨4, 0⟩, 5, 0, 1000⟩), .ok (.query ⟨10, 1000⟩)
      , .ok (.measurement ⟨⟨8, 0⟩, 5, 10, 1000⟩), .ok (.query ⟨10, 1000⟩) ]
    (∀ record ∈ readable items, shift.FitsRecord record) ∧
      ((Replay.start settings).run (items.map shift.item)).outcomes.map Outcome.estimate =
        ((Replay.start settings).run items).outcomes.map Outcome.estimate ∧
      ((Replay.start settings).history.losses (readable (items.map shift.item))).map
          (Option.map Eviction.slot) =
        [none, none, some 0, none] := by
  intro settings shift items
  have whole (offset : ℤ) (n : ℕ) (small : n ≤ 1000) (offsetSmall : |offset| ≤ 1000) :
      Fits offset (Float.ofNat n) := by
    refine ⟨n, ?_, ?_, ?_⟩
    · exact_mod_cast Binary64.quanta?_ofNat (by omega)
    · rw [abs_le]
      omega
    · rw [abs_le] at offsetSmall ⊢
      omega
  have time (n : ℕ) (small : n ≤ 1000) : Fits shift.time (Float.ofNat n) :=
    whole (-7) n small (by norm_num)
  have altitude : Fits shift.altitude (Float.ofNat 1000) :=
    whole 250 1000 le_rfl (by norm_num)
  have recordsFit : ∀ record ∈ readable items, shift.FitsRecord record := by
    intro record inside
    simp only [items, readable, List.mem_cons, List.not_mem_nil, or_false] at inside
    rcases inside with rfl | rfl | rfl | rfl
    · exact ⟨time 0 (by norm_num), altitude⟩
    · exact ⟨time 10 (by norm_num), altitude⟩
    · exact ⟨time 10 (by norm_num), altitude⟩
    · exact ⟨time 10 (by norm_num), altitude⟩
  obtain ⟨outcomes, losses, -⟩ := run_moved settings shift recordsFit
  refine ⟨recordsFit, ?_, ?_⟩
  · rw [outcomes, List.map_map]
    rfl
  · rw [losses, List.map_map]
    decide +kernel

end Runs

end Translation
end WindsAloft
