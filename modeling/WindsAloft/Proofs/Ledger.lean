import Mathlib.Algebra.Ring.Nat
import WindsAloft.Proofs.Insertion

/-!
# The books of a store

Whatever is done to a store from the start, its books balance.  A ledger keeps
beside the store which samples came in and which were handed back since the
store was made or last emptied.  Every sample that came in is then either still
held or was handed back, as often as it came in, and the two counters of the
store tell exactly how many there are of either kind.  The scoring is arbitrary:
nothing here depends on which sample it gives up.
-/

namespace WindsAloft

namespace Store

/-- What can be done to a store. -/
inductive Operation where
  | insert (sample : Sample)
  | add (time : Float) (wind : Wind) (altitude : Float) (quality : Int32)
  | reset

/-- The sample that an operation brings in; a reset brings none. -/
def Operation.sample? : Operation → Option Sample
  | .insert sample => some sample
  | .add time wind altitude quality =>
      some { wind := wind, quality := quality, time := time, altitude := altitude }
  | .reset => none

/-- The store after an operation and what the operation handed back. -/
def Operation.apply (store : Store) : Operation → Store × Option Eviction
  | .insert sample => store.insert sample
  | .add time wind altitude quality => store.add time wind altitude quality
  | .reset => (store.reset, none)

/-- The store after some operations in order. -/
def run (store : Store) (operations : List Operation) : Store :=
  operations.foldl (fun store operation => (operation.apply store).1) store

/-- An operation that brings a sample inserts it. -/
theorem Operation.apply_of_sample?
    {operation : Operation}
    {sample : Sample}
    (brings : operation.sample? = some sample)
    (store : Store) :
    operation.apply store = store.insert sample := by
  cases operation with
  | insert other =>
      obtain rfl : other = sample := Option.some.inj brings
      rfl
  | add time wind altitude quality =>
      obtain rfl := Option.some.inj brings
      rfl
  | reset =>
      exact absurd brings (by simp [Operation.sample?])

/-- An operation without a sample empties the store. -/
theorem Operation.apply_of_sample?_eq_none
    {operation : Operation}
    (brings : operation.sample? = none)
    (store : Store) :
    operation.apply store = (store.reset, none) := by
  cases operation with
  | insert sample => exact absurd brings (by simp [Operation.sample?])
  | add time wind altitude quality => exact absurd brings (by simp [Operation.sample?])
  | reset => rfl

/-- A store after a reset is a fresh one of the same capacity and scoring. -/
theorem reset_eq_empty
    {store : Store}
    {capacity : Nat}
    (sized : store.capacity = max capacity 1) :
    store.reset = .empty capacity store.scoring :=
  ext_of_data rfl sized rfl rfl rfl

/--
Everything an insertion promises.  The slot that is replaced on a full store is
the one that was named before, its old content is what is handed back, and every
other slot stays as it was.
-/
structure Takes (store : Store) (sample : Sample) : Prop where
  handsBack_iff : (store.insert sample).2 = none ↔ store.isFull = false
  held : sample ∈ (store.insert sample).1.toList
  appended :
    store.isFull = false → (store.insert sample).1.toList = store.toList ++ [sample]
  replaced :
    store.isFull = true →
      ∃ slot old,
        store.evictionCandidate sample.time = some slot ∧
        store.get? slot = some old ∧
        (store.insert sample).2.map Eviction.sample = some old ∧
        ∀ other,
          (store.insert sample).1.get? other =
            if other = slot then some sample else store.get? other

/-- Every store takes every sample in as promised. -/
theorem takes (store : Store) (sample : Sample) : store.Takes sample := by
  rcases store.room_or_full with room | full
  · obtain ⟨nothing, appended, -⟩ := insert_of_room room sample
    have notFull : store.isFull = false := by
      rw [Bool.eq_false_iff, Ne, isFull_iff]
      exact Nat.ne_of_lt room
    refine ⟨⟨fun _ => notFull, fun _ => nothing⟩, ?_, fun _ => appended, ?_⟩
    · rw [appended]
      exact List.mem_append_right _ (List.mem_singleton_self sample)
    · intro isFull
      rw [notFull] at isFull
      exact absurd isFull Bool.false_ne_true
  · obtain ⟨slot, old, named, content, handed, exchanged, -⟩ :=
      insert_of_full full sample
    have isFull : store.isFull = true := isFull_iff.mpr full
    have bound : slot < store.toList.length :=
      (List.getElem?_eq_some_iff.mp content).1
    refine ⟨?_, ?_, ?_, ?_⟩
    · rw [handed, isFull]
      simp
    · rw [exchanged]
      exact List.mem_set bound sample
    · intro notFull
      rw [isFull] at notFull
      exact absurd notFull.symm Bool.false_ne_true
    · intro _
      refine ⟨slot, old, named, ?_, ?_, ?_⟩
      · rw [get?_eq]
        exact content
      · rw [handed]
        rfl
      · intro other
        rw [get?_eq, get?_eq, exchanged, List.getElem?_set]
        by_cases same : other = slot
        · subst same
          rw [if_pos rfl, if_pos rfl, if_pos bound]
        · rw [if_neg same, if_neg (Ne.symm same)]

end Store

/-- A store with the samples that came in and went out since it was made or last emptied. -/
structure Ledger where
  store : Store
  /-- The samples that came in, in order. -/
  arrivals : List Sample
  /-- The samples that were handed back, in order. -/
  departures : List Sample

namespace Ledger

open Store (Operation)

/-- The ledger of an empty store. -/
def opened (store : Store) : Ledger :=
  ⟨store, [], []⟩

/-- Carries an operation out and writes down what came in and what was handed back. -/
def enter (ledger : Ledger) (operation : Operation) : Ledger :=
  let result := operation.apply ledger.store
  match operation.sample? with
  | none => opened result.1
  | some sample =>
      { store := result.1
        arrivals := ledger.arrivals ++ [sample]
        departures := ledger.departures ++ (result.2.map Eviction.sample).toList }

/-- The ledger after some operations on a fresh store. -/
def after (capacity : Nat) (scoring : Scoring) (operations : List Operation) : Ledger :=
  operations.foldl enter (opened (.empty capacity scoring))

/-- The books agree with the store. -/
structure Balanced (ledger : Ledger) (capacity : Nat) (scoring : Scoring) : Prop where
  scoring_eq : ledger.store.scoring = scoring
  /-- A capacity of zero was raised to one, and it never changed. -/
  capacity_eq : ledger.store.capacity = max capacity 1
  inserted_eq : ledger.store.inserted = ledger.arrivals.length
  size_eq : ledger.store.size = min ledger.store.inserted ledger.store.capacity
  evicted_eq : ledger.store.evicted = ledger.store.inserted - ledger.store.size
  /-- Nothing is lost, doubled or altered. -/
  conserved : ledger.arrivals.Perm (ledger.store.toList ++ ledger.departures)

theorem enter_of_sample?
    {operation : Operation}
    {sample : Sample}
    (brings : operation.sample? = some sample)
    (ledger : Ledger) :
    ledger.enter operation =
      { store := (ledger.store.insert sample).1
        arrivals := ledger.arrivals ++ [sample]
        departures :=
          ledger.departures ++
            ((ledger.store.insert sample).2.map Eviction.sample).toList } := by
  simp only [enter, brings, Operation.apply_of_sample? brings]

theorem enter_of_sample?_eq_none
    {operation : Operation}
    (brings : operation.sample? = none)
    (ledger : Ledger) :
    ledger.enter operation = opened ledger.store.reset := by
  simp only [enter, brings, Operation.apply_of_sample?_eq_none brings]

/-- The bookkeeping does not touch the store. -/
theorem enter_store (ledger : Ledger) (operation : Operation) :
    (ledger.enter operation).store = (operation.apply ledger.store).1 := by
  cases brings : operation.sample? with
  | none =>
      rw [enter_of_sample?_eq_none brings, Operation.apply_of_sample?_eq_none brings]
      rfl
  | some sample =>
      rw [enter_of_sample? brings, Operation.apply_of_sample? brings]

theorem foldl_enter_store (ledger : Ledger) (operations : List Operation) :
    (operations.foldl enter ledger).store = ledger.store.run operations := by
  induction operations generalizing ledger with
  | nil => rfl
  | cons operation operations ih =>
      rw [List.foldl_cons, ih, enter_store]
      rfl

theorem opened_balanced (capacity : Nat) (scoring : Scoring) :
    (opened (.empty capacity scoring)).Balanced capacity scoring where
  scoring_eq := rfl
  capacity_eq := rfl
  inserted_eq := rfl
  size_eq := (Nat.zero_min _).symm
  evicted_eq := rfl
  conserved := List.Perm.refl _

/-- Putting a new sample in the place of an old one, up to order. -/
theorem perm_exchange
    {held : List Sample}
    {slot : Nat}
    {old : Sample}
    (content : held[slot]? = some old)
    (sample : Sample) :
    (held ++ [sample]).Perm (held.set slot sample ++ [old]) := by
  obtain ⟨bound, rfl⟩ := List.getElem?_eq_some_iff.mp content
  calc
    (held ++ [sample]).Perm (sample :: held) := List.perm_append_singleton sample held
    List.Perm _ (sample :: held[slot] :: held.eraseIdx slot) :=
      (List.getElem_cons_eraseIdx_perm bound).symm.cons sample
    List.Perm _ (held[slot] :: sample :: held.eraseIdx slot) := List.Perm.swap _ _ _
    List.Perm _ (held[slot] :: held.set slot sample) :=
      (List.set_perm_cons_eraseIdx bound sample).symm.cons _
    List.Perm _ (held.set slot sample ++ [held[slot]]) :=
      (List.perm_append_singleton _ _).symm

/-- An insertion holds or hands back what was held and what has come in. -/
theorem insert_conserves (store : Store) (sample : Sample) :
    (store.toList ++ [sample]).Perm
      ((store.insert sample).1.toList ++
        ((store.insert sample).2.map Eviction.sample).toList) := by
  rcases store.room_or_full with room | full
  · obtain ⟨nothing, appended, -⟩ := Store.insert_of_room room sample
    rw [nothing, appended, Option.map_none, Option.toList_none, List.append_nil]
  · obtain ⟨slot, old, -, content, handed, exchanged, -⟩ := Store.insert_of_full full sample
    rw [handed, exchanged]
    exact perm_exchange content sample

/-- An insertion keeps the books balanced. -/
theorem Balanced.insert
    {ledger : Ledger}
    {capacity : Nat}
    {scoring : Scoring}
    (balanced : ledger.Balanced capacity scoring)
    {operation : Operation}
    {sample : Sample}
    (brings : operation.sample? = some sample) :
    (ledger.enter operation).Balanced capacity scoring := by
  obtain ⟨gone, -, size, evicted, room⟩ := ledger.store.insert_counts sample
  have sized := balanced.size_eq
  rw [enter_of_sample? brings]
  exact
    { scoring_eq := (Store.insert_scoring sample).trans balanced.scoring_eq
      capacity_eq := (Store.insert_capacity sample).trans balanced.capacity_eq
      inserted_eq := by
        rw [List.length_append, ← balanced.inserted_eq]
        exact Store.insert_inserted sample
      size_eq := by
        simp only [Store.insert_inserted, Store.insert_capacity]
        omega
      evicted_eq := by
        have balance := balanced.evicted_eq
        simp only [Store.insert_inserted]
        omega
      conserved := by
        -- What came in last is moved past what was handed back before, and then taken in.
        have arrived := balanced.conserved.append_right [sample]
        rw [List.append_assoc] at arrived
        have taken := (insert_conserves ledger.store sample).append_right ledger.departures
        rw [List.append_assoc, List.append_assoc] at taken
        exact (arrived.trans (List.perm_append_comm.append_left _)).trans
          (taken.trans (List.perm_append_comm.append_left _)) }

/-- Every operation keeps the books balanced. -/
theorem Balanced.enter
    {ledger : Ledger}
    {capacity : Nat}
    {scoring : Scoring}
    (balanced : ledger.Balanced capacity scoring)
    (operation : Operation) :
    (ledger.enter operation).Balanced capacity scoring := by
  cases brings : operation.sample? with
  | none =>
      rw [enter_of_sample?_eq_none brings, Store.reset_eq_empty balanced.capacity_eq,
        balanced.scoring_eq]
      exact opened_balanced capacity scoring
  | some sample =>
      exact balanced.insert brings

/-- A run keeps the books balanced. -/
theorem Balanced.foldl_enter
    {ledger : Ledger}
    {capacity : Nat}
    {scoring : Scoring}
    (balanced : ledger.Balanced capacity scoring)
    (operations : List Operation) :
    (operations.foldl Ledger.enter ledger).Balanced capacity scoring := by
  induction operations generalizing ledger with
  | nil => exact balanced
  | cons operation operations ih => exact ih (balanced.enter operation)

/-- No more samples are on the books than operations brought. -/
theorem length_arrivals_le (ledger : Ledger) (operations : List Operation) :
    (operations.foldl enter ledger).arrivals.length ≤
      ledger.arrivals.length + (operations.filterMap Operation.sample?).length := by
  induction operations generalizing ledger with
  | nil => exact Nat.le_refl _
  | cons operation operations ih =>
      have rest := ih (ledger.enter operation)
      rw [List.foldl_cons]
      cases brings : operation.sample? with
      | none =>
          have anew : (ledger.enter operation).arrivals.length = 0 := by
            rw [enter_of_sample?_eq_none brings]
            rfl
          rw [List.filterMap_cons_none brings]
          omega
      | some sample =>
          have oneMore :
              (ledger.enter operation).arrivals.length = ledger.arrivals.length + 1 := by
            rw [enter_of_sample? brings]
            exact List.length_append
          rw [List.filterMap_cons_some brings, List.length_cons]
          omega

/--
Whatever is done to a fresh store, its books balance, it takes the next sample
in as promised, a reset makes it fresh again, and below `2 ^ 64` insertions both
counters stay within 64 bits.
-/
theorem balanced_after
    (capacity : Nat)
    (scoring : Scoring)
    (operations : List Operation) :
    (after capacity scoring operations).store =
        (Store.empty capacity scoring).run operations ∧
      (after capacity scoring operations).Balanced capacity scoring ∧
      (∀ sample, (after capacity scoring operations).store.Takes sample) ∧
      (after capacity scoring operations).store.reset = .empty capacity scoring ∧
      ((operations.filterMap Operation.sample?).length < 2 ^ 64 →
        (after capacity scoring operations).store.inserted < 2 ^ 64 ∧
          (after capacity scoring operations).store.evicted < 2 ^ 64) := by
  have balanced : (after capacity scoring operations).Balanced capacity scoring :=
    (opened_balanced capacity scoring).foldl_enter operations
  refine ⟨?_, balanced, fun sample => Store.takes _ sample, ?_, ?_⟩
  · exact foldl_enter_store _ operations
  · rw [Store.reset_eq_empty balanced.capacity_eq, balanced.scoring_eq]
  · intro few
    have onBooks := length_arrivals_le (opened (.empty capacity scoring)) operations
    have inserted : (after capacity scoring operations).store.inserted < 2 ^ 64 := by
      rw [balanced.inserted_eq]
      simp only [opened, List.length_nil, Nat.zero_add] at onBooks
      exact Nat.lt_of_le_of_lt onBooks few
    refine ⟨inserted, ?_⟩
    rw [balanced.evicted_eq]
    omega

/-- The law at a store of capacity zero that is full, emptied and filled twice over. -/
theorem balanced_after_single_slot :
    let sample : Sample := ⟨.calm, 3, 0, 0⟩
    let operations : List Operation :=
      [.insert sample, .reset, .add 1 .calm 0 5, .insert sample]
    (operations.filterMap Operation.sample?).length < 2 ^ 64 ∧
      (after 0 (fun _ _ => -1) operations).store.inserted < 2 ^ 64 ∧
      (after 0 (fun _ _ => -1) operations).store.evicted < 2 ^ 64 := by
  intro sample operations
  have few : (operations.filterMap Operation.sample?).length < 2 ^ 64 := by decide
  exact ⟨few, (balanced_after 0 (fun _ _ => -1) operations).2.2.2.2 few⟩

end Ledger
end WindsAloft
