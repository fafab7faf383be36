import WindsAloft.Proofs.Counting
import WindsAloft.Proofs.Extremes
import WindsAloft.Proofs.Ledger

/-!
# Proportions that stay in range

The rate of usable answers and the part of a store that is taken are quotients of two counts, of
which the first never exceeds the second.  Turning counts into doubles keeps their order and so
does dividing by one of them, so that a quotient lies between zero and one however both counts are
rounded.

That the counts of a tally are in order holds after any measurements, answers and resets: each of
them keeps the tally consistent (`Consistent.apply`), so a whole run does (`consistent_after`).  The
time between the oldest and the newest sample of a store is not below zero for the same reason,
because the two are extremes of the same times.
-/

namespace WindsAloft

open Binary64

attribute [local irreducible] unit overflow

namespace Binary64

variable {x : Float} {a : ℤ} {m n : ℕ}

theorem zero_le_ofCount (n : ℕ) : 0 ≤ ofCount n :=
  le_of_le_of_le (by decide +kernel : (0 : Float) ≤ ofCount 0) (ofCount_mono n.zero_le)

/-- A count divided by one that is not less is a proportion. -/
theorem exists_quanta?_proportion
    (le : m ≤ n)
    (counted : n ≠ 0)
    (countable : n < 2 ^ 64) :
    ∃ r, quanta? (ofCount m / ofCount n) = some r ∧ 0 ≤ r ∧ r ≤ unit := by
  have within : Within 64 (ofCount n) := within_ofCount countable.le (by norm_num)
  obtain ⟨c, divisor, positive⟩ := exists_quanta?_ofCount counted within
  have lower := zero_le_div (zero_le_ofCount m) divisor positive
  have upper := div_le_div_finite (ofCount_mono le) divisor positive
  exact exists_quanta?_of_le (notNegative_of_zero_le lower) upper
    (quanta?_div_same divisor divisor positive.ne')

/-- A hundred times a proportion is a percentage. -/
theorem percentage_mem (value : quanta? x = some a) (lower : 0 ≤ a) (upper : a ≤ unit) :
    0 ≤ x * 100 ∧ x * 100 ≤ 100 := by
  have hundred : quanta? 100 = some (100 * unit) := by decide +kernel
  have whole : quanta? (1 * 100) = some (100 * unit) := quanta?_one_mul quanta?_one hundred
  have most := mul_le_mul_finite value quanta?_one upper hundred (by positivity)
  exact ⟨zero_le_mul_finite value lower hundred (by positivity),
    le_of_le_of_le most ((le_iff_quanta_le whole hundred).mpr le_rfl)⟩

theorem quanta?_sub_self (value : quanta? x = some a) : quanta? (x - x) = some 0 := by
  rw [quanta?_sub value value, sub_self]
  exact limit?_of_isDouble isDouble_zero

theorem zero_le_sub {y : Float} (value : quanta? x = some a) (le : x ≤ y) : 0 ≤ y - x :=
  le_of_le_of_le ((le_iff_quanta_le quanta?_zero (quanta?_sub_self value)).mpr le_rfl)
    (sub_le_sub_right_finite le value)

end Binary64

namespace Tally

/-- What a tally is told. -/
inductive Event where
  | measurement (quality : Int32) (evicted : Bool)
  | query (estimate : Estimate)
  | reset

/-- The tally after an event. -/
def Event.apply (tally : Tally) : Event → Tally
  | .measurement quality evicted => tally.countMeasurement quality evicted
  | .query estimate => tally.countQuery estimate
  | .reset => .empty

/-- The tally after some events in order. -/
def after (events : List Event) : Tally :=
  events.foldl Event.apply .empty

/-- The counts of a tally and those of its statistics fit together. -/
structure Consistent (tally : Tally) : Prop where
  evictions_le : tally.evictions ≤ tally.measurements
  quality_count : tally.quality.count = tally.measurements
  found_le : tally.found ≤ tally.queries
  speed_count : tally.speed.count = tally.found
  contributors_count : tally.contributors.count = tally.queries

variable {tally : Tally}

theorem consistent_empty : Consistent .empty :=
  ⟨le_rfl, rfl, le_rfl, rfl, rfl⟩

theorem Consistent.countMeasurement
    (consistent : tally.Consistent)
    (quality : Int32)
    (evicted : Bool) :
    (tally.countMeasurement quality evicted).Consistent := by
  have counted := StatisticsOver.count_push tally.quality (ofInt32 quality)
  obtain ⟨evictions_le, quality_count, found_le, speed_count, contributors_count⟩ := consistent
  refine ⟨?_, counted.trans (congrArg (· + 1) quality_count), found_le, speed_count,
    contributors_count⟩
  show (if evicted then tally.evictions + 1 else tally.evictions) ≤ tally.measurements + 1
  split <;> omega

theorem Consistent.countQuery (consistent : tally.Consistent) (estimate : Estimate) :
    (tally.countQuery estimate).Consistent := by
  have counted := StatisticsOver.count_push tally.contributors (ofCount estimate.contributors)
  have found := StatisticsOver.count_push tally.speed estimate.wind.speed
  obtain ⟨evictions_le, quality_count, found_le, speed_count, contributors_count⟩ := consistent
  refine ⟨evictions_le, quality_count, ?_, ?_,
    counted.trans (congrArg (· + 1) contributors_count)⟩
  · show (if estimate.found then tally.found + 1 else tally.found) ≤ tally.queries + 1
    split <;> omega
  · show (if estimate.found then tally.speed.push estimate.wind.speed else tally.speed).count =
      if estimate.found then tally.found + 1 else tally.found
    split
    · exact found.trans (congrArg (· + 1) speed_count)
    · exact speed_count

/-- Every event keeps a tally consistent. -/
theorem Consistent.apply (consistent : tally.Consistent) (event : Event) :
    (event.apply tally).Consistent := by
  cases event with
  | measurement quality evicted => exact consistent.countMeasurement quality evicted
  | query estimate => exact consistent.countQuery estimate
  | reset => exact consistent_empty

/-- A run leaves a consistent tally. -/
theorem consistent_after (events : List Event) : (after events).Consistent := by
  induction events using List.reverseRecOn with
  | nil => exact consistent_empty
  | append_singleton events event ih =>
      rw [after, List.foldl_concat]
      exact ih.apply event

/-- There is no more to count than there have been events. -/
theorem counts_after_le (events : List Event) :
    (after events).measurements + (after events).queries ≤ events.length := by
  induction events using List.reverseRecOn with
  | nil => exact le_rfl
  | append_singleton events event ih =>
      rw [after, List.foldl_concat, List.length_append, List.length_singleton]
      change (event.apply (after events)).measurements + (event.apply (after events)).queries ≤ _
      cases event with
      | measurement quality evicted =>
          show (after events).measurements + 1 + (after events).queries ≤ _
          omega
      | query estimate =>
          show (after events).measurements + ((after events).queries + 1) ≤ _
          omega
      | reset => exact Nat.zero_le _

/-- The rate of usable answers is a percentage. -/
theorem Consistent.foundRate_mem
    (consistent : tally.Consistent)
    (countable : tally.queries < 2 ^ 64) :
    0 ≤ tally.foundRate ∧ tally.foundRate ≤ 100 := by
  unfold foundRate
  split
  · next asked =>
      obtain ⟨r, ratio, lower, upper⟩ :=
        exists_quanta?_proportion consistent.found_le asked.ne' countable
      exact percentage_mem ratio lower upper
  · decide +kernel

end Tally

namespace Store

variable {store : Store}

theorem Status.last?_fillRatio (status : Status) :
    Update.last? Metric.fillRatio status.updates = some status.fillRatio := by
  unfold Update.last? Status.updates
  cases status.timeSpan? <;> simp [Metric.storeCapacity, Metric.fillRatio, Metric.timeSpan]

theorem Status.last?_timeSpan (status : Status) :
    Update.last? Metric.timeSpan status.updates = status.timeSpan? := by
  unfold Update.last? Status.updates
  cases status.timeSpan? <;> simp [Metric.storeCapacity, Metric.fillRatio, Metric.timeSpan]

/-- The part of a store that is taken is a proportion. -/
theorem fillRatio_mem (countable : store.capacity < 2 ^ 64) :
    0 ≤ store.status.fillRatio ∧ store.status.fillRatio ≤ 1 := by
  obtain ⟨r, ratio, lower, upper⟩ :=
    exists_quanta?_proportion store.size_le store.capacity_pos.ne' countable
  have taken : store.status.fillRatio = ofCount store.samples.size / ofCount store.capacity :=
    if_pos store.capacity_pos
  rw [taken]
  exact ⟨(le_iff_quanta_le quanta?_zero ratio).mpr lower,
    (le_iff_quanta_le ratio quanta?_one).mpr upper⟩

theorem timeSpan?_of_isEmpty (empty : store.isEmpty = true) : store.status.timeSpan? = none := by
  have oldest := (store.selectTime_toList_eq_none_iff lesser).mpr empty
  unfold Status.timeSpan? status
  rw [oldest]

/-- The newest of finite times is not before the oldest. -/
theorem exists_timeSpan?
    (finite : ∀ time ∈ store.times, time.isFinite = true)
    (inhabited : store.isEmpty = false) :
    ∃ span, store.status.timeSpan? = some span ∧ 0 ≤ span := by
  have found (choose : Float → Float → Float) :
      ∃ time, selectTime choose store.toList = some time := by
    rw [← Option.isSome_iff_exists, Option.isSome_iff_ne_none, Ne, selectTime_toList_eq_none_iff,
      inhabited]
    exact Bool.false_ne_true
  obtain ⟨oldest, oldestFound⟩ := found lesser
  obtain ⟨newest, newestFound⟩ := found greater
  have first := isExtreme_selectTime prefers_lesser oldestFound
  have last := isExtreme_selectTime prefers_greater newestFound
  have nonempty : store.toList.map (·.time) ≠ [] := by
    intro none
    rw [List.map_eq_nil_iff.mp none] at oldestFound
    cases oldestFound
  have numbers : ∀ time ∈ store.toList.map (·.time), time.isNaN = false := by
    intro time member
    obtain ⟨a, value⟩ := (isFinite_iff time).mp (finite time member)
    exact isNaN_eq_false value
  obtain ⟨time, member⟩ := List.exists_mem_of_ne_nil _ nonempty
  have oldestHeld := (first.first time member (numbers time member)).1
  have newestHeld := (last.first time member (numbers time member)).1
  obtain ⟨-, -, order⟩ := first.first newest newestHeld (numbers newest newestHeld)
  obtain ⟨a, value⟩ := (isFinite_iff oldest).mp (finite oldest oldestHeld)
  refine ⟨newest - oldest, ?_, zero_le_sub value order⟩
  unfold Status.timeSpan? status
  rw [oldestFound, newestFound]

/-- The capacity of a store stays what it was made with, one at least. -/
theorem capacity_run (capacity : ℕ) (scoring : Scoring) (operations : List Operation) :
    ((empty capacity scoring).run operations).capacity = max capacity 1 := by
  have balanced := (Ledger.opened_balanced capacity scoring).foldl_enter operations
  have same := Ledger.foldl_enter_store (.opened (empty capacity scoring)) operations
  rw [← balanced.capacity_eq, same]
  rfl

end Store

/--
Whatever is told to a tally, its counts fit together, there is nothing to count that has not been
told, and the rate of usable answers is a percentage as long as counters of 64 bits hold the
queries; without queries it is zero.  Whatever is done to a store of a 64-bit capacity, its metrics
set a fill ratio between zero and one, and no time span just if it is empty; otherwise, as long as
all times are finite, one that is not below zero.
-/
theorem proportions_in_range :
    (∀ events : List Tally.Event,
      let tally := Tally.after events
      tally.Consistent ∧
      tally.measurements + tally.queries ≤ events.length ∧
      (tally.queries = 0 → tally.foundRate = 0) ∧
      (tally.queries < 2 ^ 64 →
        0 ≤ tally.foundRate ∧ tally.foundRate ≤ 100 ∧ tally.foundRate.isNaN = false)) ∧
    ∀ (capacity : ℕ) (scoring : Scoring) (operations : List Store.Operation), capacity < 2 ^ 64 →
      let store := (Store.empty capacity scoring).run operations
      let updates := store.status.updates
      (∃ ratio, Update.last? Metric.fillRatio updates = some ratio ∧ 0 ≤ ratio ∧ ratio ≤ 1) ∧
      (store.isEmpty = true → Update.last? Metric.timeSpan updates = none) ∧
      ((∀ time ∈ store.times, time.isFinite = true) → store.isEmpty = false →
        ∃ span, Update.last? Metric.timeSpan updates = some span ∧ 0 ≤ span) := by
  constructor
  · intro events tally
    have consistent : tally.Consistent := Tally.consistent_after events
    refine ⟨consistent, Tally.counts_after_le events, fun none => ?_, fun held => ?_⟩
    · exact if_neg (Nat.not_lt.mpr none.le)
    · obtain ⟨lower, upper⟩ := consistent.foundRate_mem held
      refine ⟨lower, upper, ?_⟩
      rw [Bool.eq_false_iff, Ne, isNaN_iff]
      exact (ne_nan_of_le upper).1
  · intro capacity scoring operations countable store updates
    have bounded : store.capacity < 2 ^ 64 := by
      rw [Store.capacity_run]
      omega
    rw [Store.Status.last?_fillRatio, Store.Status.last?_timeSpan]
    exact ⟨⟨_, rfl, Store.fillRatio_mem bounded⟩, Store.timeSpan?_of_isEmpty,
      Store.exists_timeSpan?⟩

/-- One usable answer out of three, and times so far apart that the span is infinite. -/
theorem proportions_of_distant_times :
    let answer (found : Bool) : Tally.Event := .query ⟨.calm, found, 1, 1⟩
    let events : List Tally.Event :=
      [answer true, .reset, .measurement 5 true, answer false, answer true, answer false]
    let operations : List Store.Operation :=
      [.add 7 .calm 0 5, .reset, .add 1e308 .calm 0 5, .add (-1e308) .calm 0 5]
    let tally := Tally.after events
    let store := (Store.empty 3 fun _ _ => 0).run operations
    let updates := store.status.updates
    (tally.queries < 2 ^ 64 ∧ (∀ time ∈ store.times, time.isFinite = true) ∧
      store.isEmpty = false) ∧
    (tally.evictions = 1 ∧ tally.found = 1 ∧ tally.queries = 3) ∧
    0 ≤ tally.foundRate ∧ tally.foundRate ≤ 100 ∧
    (∃ ratio, Update.last? Metric.fillRatio updates = some ratio ∧ 0 ≤ ratio ∧ ratio ≤ 1) ∧
    ∃ span, Update.last? Metric.timeSpan updates = some span ∧ 0 ≤ span ∧
      ofFloat span = .infinite false := by
  intro answer events operations tally store updates
  have few : tally.queries < 2 ^ 64 := by decide +kernel
  have finite : ∀ time ∈ store.times, time.isFinite = true := by decide +kernel
  have inhabited : store.isEmpty = false := by decide +kernel
  have apart : Update.last? Metric.timeSpan updates = some (1e308 - -1e308) := by decide +kernel
  obtain ⟨lower, upper, -⟩ := (proportions_in_range.1 events).2.2.2 few
  obtain ⟨ratio, -, spans⟩ := proportions_in_range.2 3 (fun _ _ => 0) operations (by norm_num)
  obtain ⟨span, found, order⟩ := spans finite inhabited
  obtain rfl := Option.some.inj (apart.symm.trans found)
  exact ⟨⟨few, finite, inhabited⟩, by decide +kernel, lower, upper, ratio, _, found, order,
    by decide +kernel⟩

end WindsAloft
