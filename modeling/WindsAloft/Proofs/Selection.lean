import Mathlib
import WindsAloft.Eviction

/-!
# Which slot is given up

The choice of a slot is a scan from the last slot to the first, which starts with the
last slot and the score zero and moves on only for a greater score.  Seen from outside
there is no scan.  Where some sample scores above zero, the chosen slot is the highest of
those with the greatest score.  Where none does, it is the last slot, even if a slot in
front of it attains zero and it does not.
-/

namespace WindsAloft

/-- The greatest of zero and the scores of some samples. -/
def topScore (score : Sample → Int64) (samples : List Sample) : ℤ :=
  (samples.map fun sample => (score sample).toInt).foldr max 0

/-- A sample that scores as much as the greatest of zero and all scores. -/
def AttainsTop (score : Sample → Int64) (samples : List Sample) (sample : Sample) : Prop :=
  (score sample).toInt = topScore score samples

/-- The highest slot that holds a sample of some kind, or the last slot if none does. -/
def IsHighestOrLast (kind : Sample → Prop) (samples : List Sample) (slot : ℕ) : Prop :=
  IsGreatest {index | ∃ sample, samples[index]? = some sample ∧ kind sample} slot ∨
    (∀ sample ∈ samples, ¬ kind sample) ∧ slot + 1 = samples.length

section Scan

variable {score : Sample → Int64} {last slot : ℕ} {samples : List Sample} {best : ℕ × Int64}

/--
What the scan knows behind it, the samples of which stand from a slot on: no score is
above the best one, and the best one is still zero in the last slot, or it is the score
of a sample behind which all score less.
-/
structure Leads
    (score : Sample → Int64) (last slot : ℕ) (samples : List Sample) (best : ℕ × Int64) :
    Prop where
  above : ∀ sample ∈ samples, score sample ≤ best.2
  attained :
    best = (last, 0) ∨
      0 < best.2 ∧
        ∃ index sample,
          samples[index]? = some sample ∧
          best = (slot + index, score sample) ∧
          ∀ other rival, index < other → samples[other]? = some rival →
            score rival < score sample

theorem leads_nil : Leads score last slot [] (last, 0) where
  above _ inside := nomatch inside
  attained := .inl rfl

theorem Leads.nonneg (leads : Leads score last slot samples best) : 0 ≤ best.2 := by
  rcases leads.attained with nothing | ⟨positive, -⟩
  · rw [nothing]
    exact Int64.le_refl 0
  · exact Int64.le_of_lt positive

/-- One slot further to the front. -/
theorem Leads.step
    (leads : Leads score last (slot + 1) samples best)
    (sample : Sample) :
    Leads score last slot (sample :: samples)
      (if best.2 < score sample then (slot, score sample) else best) := by
  split
  · next greater =>
      refine ⟨fun other inside => ?_, .inr ⟨?_, 0, sample, rfl, rfl, ?_⟩⟩
      · rcases List.mem_cons.mp inside with rfl | behind
        · exact Int64.le_refl _
        · exact Int64.le_trans (leads.above other behind) (Int64.le_of_lt greater)
      · exact Int64.lt_of_le_of_lt leads.nonneg greater
      · intro other rival behind content
        obtain ⟨index, rfl⟩ := Nat.exists_eq_add_of_lt behind
        rw [Nat.zero_add, List.getElem?_cons_succ] at content
        exact Int64.lt_of_le_of_lt (leads.above rival (List.mem_of_getElem? content)) greater
  · next notGreater =>
      refine ⟨fun other inside => ?_, ?_⟩
      · rcases List.mem_cons.mp inside with rfl | behind
        · exact Int64.not_lt.mp notGreater
        · exact leads.above other behind
      · rcases leads.attained with nothing | ⟨positive, index, chosen, content, found, behind⟩
        · exact .inl nothing
        · refine .inr ⟨positive, index + 1, chosen, content, ?_, fun other rival further held => ?_⟩
          · rw [found, Nat.add_right_comm, Nat.add_assoc]
          · obtain ⟨place, rfl⟩ : ∃ place, other = place + 1 := ⟨other - 1, by omega⟩
            exact behind place rival (by omega) held

/-- The scan keeps what it knows up to the first slot. -/
theorem leads_bestSlot (score : Sample → Int64) (last slot : ℕ) (samples : List Sample) :
    Leads score last slot samples (bestSlot score last slot samples) := by
  induction samples generalizing slot with
  | nil => exact leads_nil
  | cons sample samples ih => exact (ih (slot + 1)).step sample

end Scan

section Choice

variable {scoring : Scoring} {now : Float} {samples : List Sample} {slot : ℕ}

/-- Only of no samples at all is none the least important. -/
theorem leastImportant_eq_none_iff : leastImportant scoring now samples = none ↔ samples = [] := by
  cases samples with
  | nil => exact ⟨fun _ => rfl, fun _ => rfl⟩
  | cons sample samples => exact ⟨nofun, nofun⟩

/-- The chosen slot is what the scan over all samples has found. -/
theorem leads_of_leastImportant (chosen : leastImportant scoring now samples = some slot) :
    ∃ top,
      Leads (fun sample => scoring sample now) (samples.length - 1) 0 samples (slot, top) := by
  cases samples with
  | nil => cases chosen
  | cons first rest =>
      obtain rfl := Option.some.inj chosen
      exact ⟨_, leads_bestSlot _ _ 0 (first :: rest)⟩

/-- If no sample scores above zero, the last slot is chosen. -/
theorem eq_last_of_nonpos
    (chosen : leastImportant scoring now samples = some slot)
    (nonpositive : ∀ sample ∈ samples, scoring sample now ≤ 0) :
    slot + 1 = samples.length := by
  have inside := leastImportant_lt chosen
  obtain ⟨top, leads⟩ := leads_of_leastImportant chosen
  rcases leads.attained with nothing | ⟨positive, index, sample, content, found, -⟩
  · have last : slot = samples.length - 1 := congrArg Prod.fst nothing
    omega
  · have score : top = scoring sample now := congrArg Prod.snd found
    have least := nonpositive sample (List.mem_of_getElem? content)
    rw [← score] at least
    exact absurd (Int64.lt_of_lt_of_le positive least) Int64.lt_irrefl

/-- If some sample scores above zero, the highest slot with the greatest score is chosen. -/
theorem greatest_of_exists_pos
    (chosen : leastImportant scoring now samples = some slot)
    (some_pos : ∃ sample ∈ samples, 0 < scoring sample now) :
    ∃ victim,
      samples[slot]? = some victim ∧
      0 < scoring victim now ∧
      (∀ sample ∈ samples, scoring sample now ≤ scoring victim now) ∧
      ∀ other rival, slot < other → samples[other]? = some rival →
        scoring rival now < scoring victim now := by
  obtain ⟨top, leads⟩ := leads_of_leastImportant chosen
  rcases leads.attained with nothing | ⟨positive, index, victim, content, found, behind⟩
  · obtain ⟨sample, inside, above⟩ := some_pos
    have zero : top = 0 := congrArg Prod.snd nothing
    have most := leads.above sample inside
    rw [zero] at most
    exact absurd (Int64.lt_of_lt_of_le above most) Int64.lt_irrefl
  · obtain ⟨rfl, rfl⟩ := Prod.mk.inj found
    rw [Nat.zero_add]
    exact ⟨victim, content, positive, leads.above, behind⟩

/-- A sample whose score is above zero and above all others is the least important. -/
theorem leastImportant_of_greatest
    {sample : Sample}
    (content : samples[slot]? = some sample)
    (positive : 0 < scoring sample now)
    (greatest :
      ∀ other rival, samples[other]? = some rival → other ≠ slot →
        scoring rival now < scoring sample now) :
    leastImportant scoring now samples = some slot := by
  have held : sample ∈ samples := List.mem_of_getElem? content
  cases chosen : leastImportant scoring now samples with
  | none =>
      rw [leastImportant_eq_none_iff.mp chosen] at held
      cases held
  | some found =>
      obtain ⟨victim, victimContent, -, above, -⟩ :=
        greatest_of_exists_pos chosen ⟨sample, held, positive⟩
      by_contra other
      have less := greatest found victim victimContent (fun same => other (congrArg some same))
      exact Int64.lt_irrefl (Int64.lt_of_lt_of_le less (above sample held))

end Choice

section Rule

variable {score : Sample → Int64} {samples : List Sample}

theorem le_topScore {sample : Sample} (inside : sample ∈ samples) :
    (score sample).toInt ≤ topScore score samples := by
  induction samples with
  | nil => cases inside
  | cons first samples ih =>
      rcases List.mem_cons.mp inside with rfl | behind
      · exact le_max_left _ _
      · exact (ih behind).trans (le_max_right _ _)

theorem topScore_le {bound : ℤ}
    (nonnegative : 0 ≤ bound)
    (below : ∀ sample ∈ samples, (score sample).toInt ≤ bound) :
    topScore score samples ≤ bound := by
  induction samples with
  | nil => exact nonnegative
  | cons first samples ih =>
      obtain ⟨here, behind⟩ := List.forall_mem_cons.mp below
      exact max_le here (ih behind)

/-- There is at most one such slot. -/
theorem IsHighestOrLast.unique
    {kind : Sample → Prop}
    {slot other : ℕ}
    (left : IsHighestOrLast kind samples slot)
    (right : IsHighestOrLast kind samples other) :
    slot = other := by
  rcases left with highest | ⟨none, last⟩ <;> rcases right with highest' | ⟨none', last'⟩
  · exact highest.unique highest'
  · obtain ⟨sample, content, isKind⟩ := highest.1
    exact absurd isKind (none' sample (List.mem_of_getElem? content))
  · obtain ⟨sample, content, isKind⟩ := highest'.1
    exact absurd isKind (none sample (List.mem_of_getElem? content))
  · omega

theorem isHighestOrLast_of_leastImportant
    {scoring : Scoring}
    {now : Float}
    {slot : ℕ}
    (chosen : leastImportant scoring now samples = some slot) :
    IsHighestOrLast
      (fun sample =>
        0 < scoring sample now ∧ AttainsTop (fun sample => scoring sample now) samples sample)
      samples slot := by
  by_cases some_pos : ∃ sample ∈ samples, 0 < scoring sample now
  · obtain ⟨victim, content, positive, above, behind⟩ := greatest_of_exists_pos chosen some_pos
    have top : AttainsTop (fun sample => scoring sample now) samples victim := by
      refine le_antisymm (le_topScore (List.mem_of_getElem? content)) ?_
      exact topScore_le (Int64.le_iff_toInt_le.mp (Int64.le_of_lt positive))
        fun sample inside => Int64.le_iff_toInt_le.mp (above sample inside)
    refine .inl ⟨⟨victim, content, positive, top⟩, ?_⟩
    rintro other ⟨rival, rivalContent, -, rivalTop⟩
    by_contra further
    have less := Int64.lt_iff_toInt_lt.mp (behind other rival (not_le.mp further) rivalContent)
    rw [AttainsTop] at top rivalTop
    omega
  · push Not at some_pos
    refine .inr ⟨fun sample inside attains => some_pos sample inside attains.1, ?_⟩
    exact eq_last_of_nonpos chosen fun sample inside => Int64.not_lt.mp (some_pos sample inside)

end Rule

/--
Of no samples none is the least important.  Otherwise the chosen slot holds a sample.  If
some sample scores above zero, its score is the greatest of all and all behind it score
less; if none does, it is the last slot.  So the choice is the rule: the highest slot
among those that attain the greatest score if that is above zero, else the last slot.
-/
theorem leastImportant_rule (scoring : Scoring) (now : Float) (samples : List Sample) :
    (leastImportant scoring now samples = none ↔ samples = []) ∧
    (∀ slot, leastImportant scoring now samples = some slot →
      slot < samples.length ∧
      ((∃ sample ∈ samples, 0 < scoring sample now) →
        ∃ victim,
          samples[slot]? = some victim ∧
          (∀ sample ∈ samples, scoring sample now ≤ scoring victim now) ∧
          ∀ other rival, slot < other → samples[other]? = some rival →
            scoring rival now < scoring victim now) ∧
      ((∀ sample ∈ samples, scoring sample now ≤ 0) → slot + 1 = samples.length)) ∧
    ∀ slot, leastImportant scoring now samples = some slot ↔
      IsHighestOrLast
        (fun sample =>
          0 < scoring sample now ∧ AttainsTop (fun sample => scoring sample now) samples sample)
        samples slot := by
  refine ⟨leastImportant_eq_none_iff, fun slot chosen => ⟨leastImportant_lt chosen, ?_, ?_⟩, ?_⟩
  · intro some_pos
    obtain ⟨victim, content, -, above, behind⟩ := greatest_of_exists_pos chosen some_pos
    exact ⟨victim, content, above, behind⟩
  · exact eq_last_of_nonpos chosen
  · refine fun slot => ⟨isHighestOrLast_of_leastImportant, fun ruled => ?_⟩
    cases chosen : leastImportant scoring now samples with
    | none =>
        obtain rfl := leastImportant_eq_none_iff.mp chosen
        rcases ruled with ⟨⟨sample, content, -⟩, -⟩ | ⟨-, last⟩
        · cases content
        · cases last
    | some found =>
        rw [(isHighestOrLast_of_leastImportant chosen).unique ruled]

/--
A sample of quality 6 and one of quality 7, both just measured.  The first one attains
zero, which no score exceeds, and is the only one to do so; yet the last slot is chosen.
-/
theorem zero_attained_last_chosen :
    let samples : List Sample := [⟨.calm, 6, 0, 0⟩, ⟨.calm, 7, 0, 0⟩]
    let score (sample : Sample) : Int64 := Ageing.classic.score sample 0
    samples.map score = [0, -600] ∧
      IsHighestOrLast (AttainsTop score samples) samples 0 ∧
      leastImportant Ageing.classic.score 0 samples = some 1 ∧
      ¬ IsHighestOrLast (AttainsTop score samples) samples 1 := by
  intro samples score
  have scores : samples.map score = [0, -600] := by decide +kernel
  have first : AttainsTop score samples ⟨.calm, 6, 0, 0⟩ := by
    unfold AttainsTop
    decide +kernel
  have second : ¬ AttainsTop score samples ⟨.calm, 7, 0, 0⟩ := by
    unfold AttainsTop
    decide +kernel
  have ruled : IsHighestOrLast (AttainsTop score samples) samples 0 := by
    refine .inl ⟨⟨_, rfl, first⟩, ?_⟩
    rintro (_ | _ | other) ⟨sample, content, attains⟩
    · exact le_rfl
    · obtain rfl := Option.some.inj content
      exact absurd attains second
    · cases content
  refine ⟨scores, ruled, by decide +kernel, fun wrong => ?_⟩
  exact absurd (ruled.unique wrong) zero_ne_one

end WindsAloft
