import Mathlib
import WindsAloft.Proofs.Ageing
import WindsAloft.Proofs.Binary64.Signs
import WindsAloft.Proofs.Ledger
import WindsAloft.Proofs.Selection

/-!
# The store as a ring

With the classic scoring a store that is fed samples of one quality at rising
whole times turns round like a ring: the sample with a given number, counted from
zero, goes to the slot that is its remainder by the capacity.  So the store holds
exactly the latest samples, and what it gives up is always the oldest.

Nothing in the choice of a slot speaks of remainders.  It follows from the ages:
all scores are above zero and fall with the number of a sample, so the single
greatest one is that of the oldest sample, which stands where the next one goes.
-/

namespace WindsAloft

open Binary64 (quanta? unit)

/-- A time that is a whole number below `2 ^ 53`. -/
def HasWholeTime (sample : Sample) (time : ℕ) : Prop :=
  time < 2 ^ 53 ∧ quanta? sample.time = some ((time * unit : ℕ) : ℤ)

theorem HasWholeTime.lt_iff
    {earlier later : Sample}
    {t u : ℕ}
    (left : HasWholeTime earlier t)
    (right : HasWholeTime later u) :
    earlier.time < later.time ↔ t < u := by
  rw [Binary64.lt_iff_quanta_lt left.2 right.2, Int.ofNat_lt]
  have positive : 0 < unit := by exact_mod_cast Binary64.unit_pos
  exact Nat.mul_lt_mul_right positive

section Ageing

attribute [local irreducible] Binary64.unit Binary64.overflow

/-- The difference of whole times is computed exactly. -/
theorem truncate_sub
    {earlier later : Sample}
    {t u : ℕ}
    (left : HasWholeTime earlier t)
    (right : HasWholeTime later u)
    (le : t ≤ u) :
    truncate (later.time - earlier.time) = Int64.ofIntClamp (u - t : ℕ) := by
  have small : u - t < 2 ^ 53 := lt_of_le_of_lt (Nat.sub_le u t) right.1
  have double : Binary64.IsDouble (((u - t) * unit : ℕ) : ℤ) :=
    Binary64.small_mul_unit small
  have exact : quanta? (later.time - earlier.time) = some (((u - t) * unit : ℕ) : ℤ) := by
    rw [Binary64.quanta?_sub right.2 left.2, ← Binary64.limit?_of_isDouble double]
    congr 2
    push_cast [Nat.cast_sub le]
    ring
  obtain ⟨s, m, number, value⟩ := Binary64.exists_finite_of_quanta? exact
  unfold truncate
  rw [number, Binary64.toInt64By_finite, ← value]
  have nonzero : (unit : ℤ) ≠ 0 := Binary64.unit_pos_int.ne'
  rw [Nat.cast_mul, Int.mul_tdiv_cancel _ nonzero]

/-- The classic score of a sample of at most quality 6, seen from a whole time behind it. -/
theorem toInt_classic_score
    {earlier later : Sample}
    {t u : ℕ}
    (left : HasWholeTime earlier t)
    (right : HasWholeTime later u)
    (le : t ≤ u)
    (noBetter : earlier.quality.toInt ≤ 6) :
    (Ageing.classic.score earlier later.time).toInt =
      600 * (6 - earlier.quality.toInt) + (u - t : ℕ) := by
  have least : -2 ^ 31 ≤ earlier.quality.toInt := earlier.quality.le_toInt
  have small : u < 2 ^ 53 := right.1
  have penalty : Ageing.classic.qualityPenalty.toInt = 600 := rfl
  have ceiling : Ageing.classic.qualityCeiling.toInt = 6 := rfl
  have lowest := Int64.toInt_minValue
  have highest := Int64.toInt_maxValue
  rw [Ageing.score, Saturating.toInt_add, Saturating.toInt_mul, truncate_sub left right le,
    Saturating.toInt_ofIntClamp, Ageing.toInt_shortfall, ceiling, penalty]
  simp only [Saturating.clamp]
  omega

end Ageing

/-- Samples of one quality at rising whole times. -/
structure Steady (quality : Int32) (samples : List Sample) : Prop where
  quality_eq : ∀ sample ∈ samples, sample.quality = quality
  whole : ∀ sample ∈ samples, ∃ time, HasWholeTime sample time
  rising : samples.Pairwise fun earlier later => earlier.time < later.time

namespace Steady

variable {quality : Int32} {samples : List Sample}

theorem init {sample : Sample} (steady : Steady quality (samples ++ [sample])) :
    Steady quality samples where
  quality_eq held inside := steady.quality_eq held (List.mem_append_left _ inside)
  whole held inside := steady.whole held (List.mem_append_left _ inside)
  rising := (List.pairwise_append.mp steady.rising).1

/-- Of two samples the one with the greater number is later. -/
theorem time_lt
    (steady : Steady quality samples)
    {i j : ℕ}
    {earlier later : Sample}
    (left : samples[i]? = some earlier)
    (right : samples[j]? = some later)
    (below : i < j) :
    earlier.time < later.time := by
  obtain ⟨iBound, rfl⟩ := List.getElem?_eq_some_iff.mp left
  obtain ⟨jBound, rfl⟩ := List.getElem?_eq_some_iff.mp right
  exact List.pairwise_iff_getElem.mp steady.rising i j iBound jBound below

/-- Seen from a later sample every sample scores above zero. -/
theorem score_pos
    (steady : Steady quality samples)
    (noBetter : quality.toInt ≤ 6)
    {i j : ℕ}
    {earlier later : Sample}
    (left : samples[i]? = some earlier)
    (right : samples[j]? = some later)
    (below : i < j) :
    0 < Ageing.classic.score earlier later.time := by
  obtain ⟨t, tWhole⟩ := steady.whole earlier (List.mem_of_getElem? left)
  obtain ⟨u, uWhole⟩ := steady.whole later (List.mem_of_getElem? right)
  have order : t < u := (tWhole.lt_iff uWhole).mp (steady.time_lt left right below)
  have same := steady.quality_eq earlier (List.mem_of_getElem? left)
  have zero : (0 : Int64).toInt = 0 := rfl
  rw [Int64.lt_iff_toInt_lt, toInt_classic_score tWhole uWhole order.le (same ▸ noBetter), same]
  omega

/-- Seen from a later sample, of two samples the earlier one scores more. -/
theorem score_lt
    (steady : Steady quality samples)
    (noBetter : quality.toInt ≤ 6)
    {i j k : ℕ}
    {first second last : Sample}
    (left : samples[i]? = some first)
    (middle : samples[j]? = some second)
    (right : samples[k]? = some last)
    (below : i < j)
    (above : j < k) :
    Ageing.classic.score second last.time < Ageing.classic.score first last.time := by
  obtain ⟨s, sWhole⟩ := steady.whole first (List.mem_of_getElem? left)
  obtain ⟨t, tWhole⟩ := steady.whole second (List.mem_of_getElem? middle)
  obtain ⟨u, uWhole⟩ := steady.whole last (List.mem_of_getElem? right)
  have early : s < t := (sWhole.lt_iff tWhole).mp (steady.time_lt left middle below)
  have late : t < u := (tWhole.lt_iff uWhole).mp (steady.time_lt middle right above)
  have sQuality := steady.quality_eq first (List.mem_of_getElem? left)
  have tQuality := steady.quality_eq second (List.mem_of_getElem? middle)
  rw [Int64.lt_iff_toInt_lt, toInt_classic_score sWhole uWhole (by omega) (sQuality ▸ noBetter),
    toInt_classic_score tWhole uWhole late.le (tQuality ▸ noBetter), sQuality, tQuality]
  omega

end Steady

/-- The latest of some samples whose number leaves a given remainder is one of the last. -/
theorem exists_latest
    {capacity slot count : ℕ}
    (bound : slot < min count capacity) :
    ∃ index, index < count ∧ index % capacity = slot ∧ count ≤ index + capacity := by
  have below : slot < capacity := lt_of_lt_of_le bound (min_le_right _ _)
  have parts := Nat.div_add_mod count capacity
  have remainder : count % capacity < capacity := Nat.mod_lt count (by omega)
  have same (turns : ℕ) : (capacity * turns + slot) % capacity = slot := by
    rw [Nat.mul_add_mod, Nat.mod_eq_of_lt below]
  by_cases again : slot < count % capacity
  · exact ⟨capacity * (count / capacity) + slot, by omega, same _, by omega⟩
  · rcases Nat.eq_zero_or_pos (count / capacity) with zero | turned
    · rw [zero] at parts
      omega
    · obtain ⟨turns, turnsEq⟩ : ∃ turns, count / capacity = turns + 1 :=
        ⟨count / capacity - 1, by omega⟩
      rw [turnsEq, Nat.mul_succ] at parts
      exact ⟨capacity * turns + slot, by omega, same turns, by omega⟩

/-- Numbers that lie closer together than the capacity leave different remainders. -/
theorem mod_ne_of_near
    {capacity i j : ℕ}
    (below : i < j)
    (near : j < i + capacity) :
    i % capacity ≠ j % capacity := by
  intro same
  have divides := (Nat.modEq_iff_dvd' below.le).mp same
  exact absurd (Nat.le_of_dvd (by omega) divides) (by omega)

/-- What stands in a longer row stood in the row before, or it is the new sample. -/
theorem eq_last_of_getElem?_append
    {samples : List Sample}
    {next sample : Sample}
    {index : ℕ}
    (content : (samples ++ [next])[index]? = some sample) :
    samples[index]? = some sample ∨ index = samples.length ∧ sample = next := by
  rw [List.getElem?_append] at content
  split at content
  · exact .inl content
  · obtain ⟨last, rfl⟩ := List.getElem?_eq_some_iff.mp content
    rw [List.length_singleton] at last
    exact .inr ⟨by omega, List.getElem_singleton _⟩

namespace Store

/-- Every one of the latest samples stands in the slot that is its number's remainder. -/
structure Rotates (store : Store) (samples : List Sample) : Prop where
  scoring_eq : store.scoring = Ageing.classic.score
  size_eq : store.size = min samples.length store.capacity
  slot_eq :
    ∀ index sample, samples[index]? = some sample →
      samples.length ≤ index + store.capacity →
        store.toList[index % store.capacity]? = some sample

theorem rotates_empty {capacity : ℕ} :
    (empty capacity Ageing.classic.score).Rotates [] where
  scoring_eq := rfl
  size_eq := rfl
  slot_eq _ _ content _ := nomatch content

namespace Rotates

variable {store : Store} {samples : List Sample}

/-- What stands in a slot is the latest of the samples that go there. -/
theorem exists_of_getElem?
    (rotates : store.Rotates samples)
    {slot : ℕ}
    {held : Sample}
    (content : store.toList[slot]? = some held) :
    ∃ index, samples[index]? = some held ∧ index % store.capacity = slot ∧
      samples.length ≤ index + store.capacity := by
  have bound : slot < store.size := by
    rw [← length_toList]
    exact (List.getElem?_eq_some_iff.mp content).1
  rw [rotates.size_eq] at bound
  obtain ⟨index, inside, remainder, late⟩ := exists_latest bound
  have same := rotates.slot_eq index _ (List.getElem?_eq_getElem inside) late
  rw [remainder, content] at same
  exact ⟨index, by rw [List.getElem?_eq_getElem inside, Option.some.inj same], remainder, late⟩

/-- The slot of the next sample holds the oldest one as soon as the ring is full. -/
theorem getElem?_oldest
    (rotates : store.Rotates samples)
    (enough : store.capacity ≤ samples.length) :
    store.toList[samples.length % store.capacity]? =
      samples[samples.length - store.capacity]? := by
  have positive := store.capacity_pos
  have number : samples.length - store.capacity < samples.length := by omega
  rw [Nat.mod_eq_sub_mod enough, List.getElem?_eq_getElem number]
  exact rotates.slot_eq _ _ (List.getElem?_eq_getElem number) (by omega)

variable {quality : Int32} {next : Sample}

/-- A full store gives up the oldest sample, which stands where the next one goes. -/
theorem evictionCandidate_eq
    (rotates : store.Rotates samples)
    (full : store.size = store.capacity)
    (noBetter : quality.toInt ≤ 6)
    (steady : Steady quality (samples ++ [next])) :
    store.evictionCandidate next.time = some (samples.length % store.capacity) := by
  have enough : store.capacity ≤ samples.length := by
    have := rotates.size_eq
    omega
  have positive := store.capacity_pos
  obtain ⟨oldest, oldestContent⟩ :
      ∃ oldest, samples[samples.length - store.capacity]? = some oldest :=
    ⟨_, List.getElem?_eq_getElem (by omega)⟩
  have inSlot := (rotates.getElem?_oldest enough).trans oldestContent
  have nextContent : (samples ++ [next])[samples.length]? = some next := by simp
  have inFront {index : ℕ} {sample : Sample} (content : samples[index]? = some sample) :
      (samples ++ [next])[index]? = some sample := by
    rw [List.getElem?_append_left (List.getElem?_eq_some_iff.mp content).1, content]
  rw [evictionCandidate, if_pos (isFull_iff.mpr full), rotates.scoring_eq]
  apply leastImportant_of_greatest inSlot
  · exact steady.score_pos noBetter (inFront oldestContent) nextContent (by omega)
  · intro other rival content different
    obtain ⟨index, rivalContent, remainder, late⟩ := rotates.exists_of_getElem? content
    have inside : index < samples.length := (List.getElem?_eq_some_iff.mp rivalContent).1
    have younger : samples.length - store.capacity ≠ index := by
      rintro rfl
      exact different (by rw [Nat.mod_eq_sub_mod enough, remainder])
    exact steady.score_lt noBetter (inFront oldestContent) (inFront rivalContent) nextContent
      (by omega) inside

/-- While there is room the ring has not turned round: every sample stands at its number. -/
theorem getElem?_insert_of_room
    (rotates : store.Rotates samples)
    (room : store.size < store.capacity)
    {index : ℕ}
    {sample : Sample}
    (content : (samples ++ [next])[index]? = some sample) :
    (store.insert next).1.toList[index % store.capacity]? = some sample := by
  have sized := rotates.size_eq
  have held : store.toList.length = samples.length := by
    rw [length_toList]
    omega
  rw [(insert_of_room room next).2.1]
  rcases eq_last_of_getElem?_append content with before | ⟨rfl, rfl⟩
  · have inside : index < samples.length := (List.getElem?_eq_some_iff.mp before).1
    rw [List.getElem?_append_left (by rw [held, Nat.mod_eq_of_lt (by omega)]; exact inside)]
    exact rotates.slot_eq index sample before (by omega)
  · rw [Nat.mod_eq_of_lt (by omega), ← held, List.getElem?_concat_length]

/-- A full ring has the new sample in the slot of the oldest one, and the others stay. -/
theorem getElem?_insert_of_full
    (rotates : store.Rotates samples)
    (full : store.size = store.capacity)
    (noBetter : quality.toInt ≤ 6)
    (steady : Steady quality (samples ++ [next]))
    {index : ℕ}
    {sample : Sample}
    (content : (samples ++ [next])[index]? = some sample)
    (late : samples.length < index + store.capacity) :
    (store.insert next).1.toList[index % store.capacity]? = some sample := by
  obtain ⟨slot, old, named, inSlot, -, exchanged, -⟩ := insert_of_full full next
  rw [rotates.evictionCandidate_eq full noBetter steady, Option.some.injEq] at named
  have bound : slot < store.toList.length := (List.getElem?_eq_some_iff.mp inSlot).1
  rw [exchanged, ← named]
  rcases eq_last_of_getElem?_append content with before | ⟨rfl, rfl⟩
  · have inside : index < samples.length := (List.getElem?_eq_some_iff.mp before).1
    rw [List.getElem?_set_ne (mod_ne_of_near inside late).symm]
    exact rotates.slot_eq index sample before late.le
  · rw [named, List.getElem?_set_self bound]

/-- One more sample turns the ring by one slot. -/
theorem insert
    (rotates : store.Rotates samples)
    (noBetter : quality.toInt ≤ 6)
    (steady : Steady quality (samples ++ [next])) :
    (store.insert next).1.Rotates (samples ++ [next]) := by
  have sized := rotates.size_eq
  refine ⟨by rw [insert_scoring, rotates.scoring_eq], ?_, fun index sample content late => ?_⟩
  · rw [insert_capacity, List.length_append, List.length_singleton, ← length_toList]
    rcases store.room_or_full with room | full
    · rw [(insert_of_room room next).2.1, List.length_append, List.length_singleton,
        length_toList]
      omega
    · obtain ⟨slot, old, -, -, -, exchanged, -⟩ := insert_of_full full next
      rw [exchanged, List.length_set, length_toList]
      omega
  · rw [insert_capacity] at late ⊢
    rw [List.length_append, List.length_singleton] at late
    rcases store.room_or_full with room | full
    · exact rotates.getElem?_insert_of_room room content
    · exact rotates.getElem?_insert_of_full full noBetter steady content late

/-- A run over samples of one quality at rising whole times keeps the ring. -/
theorem run
    (capacity : ℕ)
    (noBetter : quality.toInt ≤ 6)
    (steady : Steady quality samples) :
    ((empty capacity Ageing.classic.score).run (samples.map .insert)).Rotates samples ∧
      ((empty capacity Ageing.classic.score).run (samples.map .insert)).capacity =
        max capacity 1 := by
  induction samples using List.reverseRecOn with
  | nil => exact ⟨rotates_empty, rfl⟩
  | append_singleton samples next ih =>
      obtain ⟨rotates, sized⟩ := ih steady.init
      rw [List.map_append, Store.run, List.foldl_append]
      exact ⟨rotates.insert noBetter steady, (insert_capacity next).trans sized⟩

/-- What is held are the latest samples, up to order. -/
theorem perm (rotates : store.Rotates samples) :
    store.toList.Perm (samples.drop (samples.length - store.capacity)) := by
  have positive := store.capacity_pos
  have held : store.toList.length = min samples.length store.capacity := by
    rw [length_toList, rotates.size_eq]
  have turned :
      store.toList.rotate ((samples.length - store.capacity) % store.capacity) =
        samples.drop (samples.length - store.capacity) := by
    apply List.ext_getElem
    · rw [List.length_rotate, List.length_drop, held]
      omega
    · intro place left right
      rw [List.length_rotate, held] at left
      have number : samples.length - store.capacity + place < samples.length := by omega
      have same :
          (place + (samples.length - store.capacity) % store.capacity) % store.toList.length =
            (samples.length - store.capacity + place) % store.capacity := by
        rw [held]
        rcases Nat.lt_or_ge samples.length store.capacity with few | many
        · rw [Nat.sub_eq_zero_of_le few.le, Nat.zero_mod, Nat.add_zero, Nat.zero_add,
            Nat.mod_eq_of_lt left, Nat.mod_eq_of_lt (by omega)]
        · rw [Nat.min_eq_right many, Nat.add_mod_mod, Nat.add_comm]
      have content :=
        rotates.slot_eq _ _ (List.getElem?_eq_getElem number) (by omega)
      rw [List.getElem_rotate, List.getElem_drop]
      rw [← same] at content
      exact (List.getElem?_eq_some_iff.mp content).2
  rw [← turned]
  exact (List.rotate_perm _ _).symm

/-- A slot in use holds the latest of the samples whose number leaves it as a remainder. -/
theorem get?_eq_latest
    (rotates : store.Rotates samples)
    {slot : ℕ}
    (bound : slot < min samples.length store.capacity) :
    ∃ index,
      IsGreatest {index | index < samples.length ∧ index % store.capacity = slot} index ∧
      store.get? slot = samples[index]? := by
  obtain ⟨index, inside, remainder, late⟩ := exists_latest bound
  refine ⟨index, ⟨⟨inside, remainder⟩, ?_⟩, ?_⟩
  · rintro other ⟨otherInside, otherRemainder⟩
    by_contra later
    exact mod_ne_of_near (not_le.mp later) (by omega) (remainder.trans otherRemainder.symm)
  · rw [get?_eq, List.getElem?_eq_getElem inside, ← remainder]
    exact rotates.slot_eq index _ (List.getElem?_eq_getElem inside) late

/-- What a full ring hands out for the next sample is the oldest one that it holds. -/
theorem insert_hands_oldest
    (rotates : store.Rotates samples)
    (full : store.size = store.capacity)
    (noBetter : quality.toInt ≤ 6)
    (steady : Steady quality (samples ++ [next])) :
    ∃ eviction,
      (store.insert next).2 = some eviction ∧
      eviction.slot = samples.length % store.capacity ∧
      samples[samples.length - store.capacity]? = some eviction.sample ∧
      eviction.sample ∈ store.toList ∧
      ∀ held ∈ store.toList, held = eviction.sample ∨ eviction.sample.time < held.time := by
  have enough : store.capacity ≤ samples.length := by
    have := rotates.size_eq
    omega
  obtain ⟨slot, old, named, content, handed, -, -⟩ := insert_of_full full next
  rw [rotates.evictionCandidate_eq full noBetter steady, Option.some.injEq] at named
  have oldest : samples[samples.length - store.capacity]? = some old := by
    rw [← rotates.getElem?_oldest enough, named, content]
  refine ⟨_, handed, named.symm, oldest, List.mem_of_getElem? content, fun held inside => ?_⟩
  obtain ⟨place, placed⟩ := List.getElem?_of_mem inside
  obtain ⟨index, numbered, -, late⟩ := rotates.exists_of_getElem? placed
  rcases Nat.lt_or_ge (samples.length - store.capacity) index with younger | same
  · exact .inr (steady.init.time_lt oldest numbered younger)
  · left
    rw [show index = samples.length - store.capacity by omega, oldest] at numbered
    exact (Option.some.inj numbered).symm

end Rotates

/--
A store of any capacity that is fed samples of one quality, at most 6, at rising
whole times is a ring: each slot holds the latest of the samples whose number
leaves the slot as its remainder by the capacity.  So the store holds exactly the
latest samples, and a full one gives up the oldest sample it holds for the next.
-/
theorem run_is_ring
    {capacity : ℕ}
    (positive : 0 < capacity)
    {quality : Int32}
    (noBetter : quality.toInt ≤ 6)
    {samples : List Sample}
    (steady : Steady quality samples)
    {store : Store}
    (reached : store = (empty capacity Ageing.classic.score).run (samples.map .insert)) :
    (∀ slot < min samples.length capacity,
        ∃ index,
          IsGreatest {index | index < samples.length ∧ index % capacity = slot} index ∧
          store.get? slot = samples[index]?) ∧
      store.toList.Perm (samples.drop (samples.length - capacity)) ∧
      ∀ next, Steady quality (samples ++ [next]) →
        if samples.length < capacity then
          (store.insert next).2 = none
        else
          ∃ eviction,
            (store.insert next).2 = some eviction ∧
            eviction.slot = samples.length % capacity ∧
            samples[samples.length - capacity]? = some eviction.sample ∧
            eviction.sample ∈ store.toList ∧
            ∀ held ∈ store.toList,
              held = eviction.sample ∨ eviction.sample.time < held.time := by
  obtain ⟨rotates, sized⟩ := Rotates.run capacity noBetter steady
  rw [← reached] at rotates sized
  obtain rfl : store.capacity = capacity := by omega
  refine ⟨fun slot bound => rotates.get?_eq_latest bound, rotates.perm, fun next steadyNext => ?_⟩
  have held := rotates.size_eq
  split
  · next few => exact (insert_of_room (by omega) next).1
  · next many => exact rotates.insert_hands_oldest (by omega) noBetter steadyNext

/-- Four samples of quality 4 pass through a store with two slots; the third one is the oldest. -/
theorem run_is_ring_of_four :
    let sample (time : Float) : Sample := ⟨.calm, 4, time, 0⟩
    let samples := [sample 0, sample 1, sample 2]
    let store := (empty 2 Ageing.classic.score).run (samples.map .insert)
    0 < 2 ∧ (4 : Int32).toInt ≤ 6 ∧ Steady 4 samples ∧ Steady 4 (samples ++ [sample 3]) ∧
      store.toList.Perm [sample 1, sample 2] ∧
      ∃ eviction, (store.insert (sample 3)).2 = some eviction ∧ eviction.slot = 1 := by
  intro sample samples store
  have steadyNext : Steady 4 (samples ++ [sample 3]) := by
    refine ⟨by simp [samples, sample], ?_, by decide +kernel⟩
    have whole (time : ℕ) (small : time < 2 ^ 53) : HasWholeTime (sample (.ofNat time)) time :=
      ⟨small, Binary64.quanta?_ofNat small⟩
    intro held inside
    simp only [samples, List.cons_append, List.nil_append, List.mem_cons, List.not_mem_nil,
      or_false] at inside
    rcases inside with rfl | rfl | rfl | rfl
    · exact ⟨0, whole 0 (by norm_num)⟩
    · exact ⟨1, whole 1 (by norm_num)⟩
    · exact ⟨2, whole 2 (by norm_num)⟩
    · exact ⟨3, whole 3 (by norm_num)⟩
  have noBetter : (4 : Int32).toInt ≤ 6 := by decide
  have reached : store = (empty 2 Ageing.classic.score).run (samples.map .insert) := rfl
  obtain ⟨-, latest, oldest⟩ := run_is_ring Nat.two_pos noBetter steadyNext.init reached
  obtain ⟨eviction, handed, slot, -⟩ := oldest (sample 3) steadyNext
  exact ⟨Nat.two_pos, noBetter, steadyNext.init, steadyNext, latest, eviction, handed,
    slot.trans (by simp [samples])⟩

end Store
end WindsAloft
