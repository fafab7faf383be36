import Mathlib.Data.List.Perm.Basic
import WindsAloft.Store

/-!
# What one insertion does

A store is either short of its capacity or full to it.  In the first case an
insertion takes the next slot and hands nothing back.  In the second it replaces
the content of exactly one slot, the one that `Store.evictionCandidate` named
just before, and hands the old content back.  There is always such a slot, since
a full store holds at least one sample; so the counter of inserted samples never
goes up without the sample being stored.
-/

namespace WindsAloft

/-- Only of no samples at all is none the least important. -/
theorem leastImportant_isSome
    (scoring : Scoring)
    (now : Float)
    {samples : List Sample}
    (inhabited : samples ≠ []) :
    ∃ slot, leastImportant scoring now samples = some slot := by
  cases samples with
  | nil =>
      exact absurd rfl inhabited
  | cons sample samples =>
      exact ⟨_, rfl⟩

namespace Store

variable {store : Store}

theorem isFull_iff : store.isFull = true ↔ store.size = store.capacity := by
  simp [isFull, size]

theorem length_toList : store.toList.length = store.size := by
  simp [toList, size]

theorem get?_eq (slot : Nat) : store.get? slot = store.toList[slot]? := by
  simp [get?, toList]

/-- Two stores with equal data are equal. -/
theorem ext_of_data
    {left right : Store}
    (scoring : left.scoring = right.scoring)
    (capacity : left.capacity = right.capacity)
    (samples : left.samples = right.samples)
    (inserted : left.inserted = right.inserted)
    (evicted : left.evicted = right.evicted) :
    left = right := by
  cases left
  cases right
  simp_all

theorem ext_of_toList
    {left right : Store}
    (scoring : left.scoring = right.scoring)
    (capacity : left.capacity = right.capacity)
    (held : left.toList = right.toList)
    (inserted : left.inserted = right.inserted)
    (evicted : left.evicted = right.evicted) :
    left = right :=
  ext_of_data scoring capacity (Array.ext' held) inserted evicted

/-- Short of its capacity a store appends. -/
theorem insert_of_room
    (room : store.size < store.capacity)
    (sample : Sample) :
    (store.insert sample).2 = none ∧
      (store.insert sample).1.toList = store.toList ++ [sample] ∧
      (store.insert sample).1.evicted = store.evicted := by
  have room' : store.samples.size < store.capacity := room
  simp [insert, room', toList]

/--
At its capacity a store replaces the slot that was chosen for the time of the
new sample.
-/
theorem insert_of_full
    (full : store.size = store.capacity)
    (sample : Sample) :
    ∃ slot old,
      store.evictionCandidate sample.time = some slot ∧
      store.toList[slot]? = some old ∧
      (store.insert sample).2 =
        some ⟨slot, old, store.scoring old sample.time⟩ ∧
      (store.insert sample).1.toList = store.toList.set slot sample ∧
      (store.insert sample).1.evicted = store.evicted + 1 := by
  have inhabited : store.toList ≠ [] := by
    intro nothing
    have positive := store.capacity_pos
    rw [← full, ← length_toList, nothing] at positive
    exact Nat.lt_irrefl 0 positive
  obtain ⟨slot, chosen⟩ := leastImportant_isSome store.scoring sample.time inhabited
  have bound : slot < store.samples.size := by
    simpa [toList] using leastImportant_lt chosen
  have noRoom : ¬ store.samples.size < store.capacity := by
    have full' : store.samples.size = store.capacity := full
    omega
  refine ⟨slot, store.samples[slot], ?_, ?_, ?_⟩
  · rw [evictionCandidate, if_pos (isFull_iff.mpr full)]
    exact chosen
  · rw [← get?_eq]
    exact Array.getElem?_eq_getElem bound
  · unfold insert
    rw [dif_neg noRoom]
    split
    · next missing =>
        rw [chosen] at missing
        exact absurd missing (by simp)
    · next found here =>
        have same : found = slot := by
          rw [chosen] at here
          exact (Option.some.inj here).symm
        subst same
        simp [toList]

@[simp] theorem insert_scoring (sample : Sample) :
    (store.insert sample).1.scoring = store.scoring := by
  unfold insert
  split
  · rfl
  · split <;> rfl

@[simp] theorem insert_capacity (sample : Sample) :
    (store.insert sample).1.capacity = store.capacity := by
  unfold insert
  split
  · rfl
  · split <;> rfl

@[simp] theorem insert_inserted (sample : Sample) :
    (store.insert sample).1.inserted = store.inserted + 1 := by
  unfold insert
  split
  · rfl
  · split <;> rfl

/-- A store is short of its capacity or full to it. -/
theorem room_or_full (store : Store) :
    store.size < store.capacity ∨ store.size = store.capacity :=
  Nat.lt_or_eq_of_le store.size_le

/-- In numbers, an insertion adds a sample or replaces one. -/
theorem insert_counts (store : Store) (sample : Sample) :
    ∃ gone : Nat,
      gone = (store.insert sample).2.isSome.toNat ∧
      (store.insert sample).1.size + gone = store.size + 1 ∧
      (store.insert sample).1.evicted = store.evicted + gone ∧
      (gone = 0 ∧ store.size < store.capacity ∨ gone = 1 ∧ store.size = store.capacity) := by
  rcases store.room_or_full with room | full
  · obtain ⟨nothing, appended, same⟩ := insert_of_room room sample
    refine ⟨0, by rw [nothing]; rfl, ?_, same, .inl ⟨rfl, room⟩⟩
    rw [← length_toList, appended, List.length_append, length_toList]
    rfl
  · obtain ⟨slot, old, -, -, handed, exchanged, more⟩ := insert_of_full full sample
    refine ⟨1, by rw [handed]; rfl, ?_, more, .inr ⟨rfl, full⟩⟩
    rw [← length_toList, exchanged, List.length_set, length_toList]

/-- What is held after an insertion was held before it or has just come in. -/
theorem mem_of_mem_insert
    {sample held : Sample}
    (inside : held ∈ (store.insert sample).1.toList) :
    held ∈ store.toList ∨ held = sample := by
  rcases store.room_or_full with room | full
  · rw [(insert_of_room room sample).2.1] at inside
    simpa using inside
  · obtain ⟨slot, old, -, -, -, exchanged, -⟩ := insert_of_full full sample
    rw [exchanged] at inside
    exact List.mem_or_eq_of_mem_set inside

end Store
end WindsAloft
