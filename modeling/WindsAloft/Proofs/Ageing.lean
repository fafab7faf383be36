import WindsAloft.Proofs.Binary64.Levels
import WindsAloft.Proofs.Insertion
import WindsAloft.Proofs.Selection

/-!
# The trade of quality against age

The default scoring sets a price, so many units of time for one point of quality.
Each step of a score keeps an order, also where it runs against a bound: the difference
of two times, the dropped fraction, the product and the sum.  So a sample that is no
better and no later never scores less.

Where no bound is met, scores are exact integers, and comparing two of them is comparing
the price of the difference in quality with the difference in age.  A sample is therefore
given up before a worse one only if it is older, and by at least that price.
-/

namespace WindsAloft

open Binary64 (quanta? unit)

/-- The whole units of time in a difference of times, `none` if it is not finite. -/
def wholeUnits? (difference : Float) : Option ℤ :=
  (quanta? difference).map fun quanta => quanta.tdiv unit

namespace Ageing

variable {ageing : Ageing} {sample better worse : Sample} {now : Float}

/-- How far a quality falls short of the ceiling, an exact integer. -/
theorem toInt_shortfall (ageing : Ageing) (quality : Int32) :
    (ageing.shortfall quality).toInt = ageing.qualityCeiling.toInt - quality.toInt := by
  have least := quality.le_toInt
  have greatest := quality.toInt_lt
  have ceilingLeast := ageing.qualityCeiling.le_toInt
  have ceilingGreatest := ageing.qualityCeiling.toInt_lt
  rw [shortfall, Int64.toInt_sub, Int32.toInt_toInt64, Int32.toInt_toInt64,
    Int.bmod_eq_of_le (by omega) (by omega)]

/-- What the quality of a sample costs it, before anything runs against a bound. -/
def price (ageing : Ageing) (quality : Int32) : ℤ :=
  ageing.qualityPenalty.toInt * (ageing.qualityCeiling.toInt - quality.toInt)

theorem toInt_score (ageing : Ageing) (sample : Sample) (now : Float) :
    (ageing.score sample now).toInt =
      Saturating.clamp
        (Saturating.clamp (ageing.price sample.quality) +
          (truncate (now - sample.time)).toInt) := by
  rw [score, Saturating.toInt_add, Saturating.toInt_mul, toInt_shortfall, price]

/-- Better quality costs no more. -/
theorem price_le
    (penalty : 0 ≤ ageing.qualityPenalty)
    {low high : Int32}
    (le : low ≤ high) :
    ageing.price high ≤ ageing.price low := by
  have nonnegative : 0 ≤ ageing.qualityPenalty.toInt := Int64.le_iff_toInt_le.mp penalty
  have order : low.toInt ≤ high.toInt := Int32.le_iff_toInt_le.mp le
  exact mul_le_mul_of_nonneg_left (by omega) nonnegative

/-- What was measured earlier is at least as old. -/
theorem age_le
    (betterTime : better.time.isFinite = true)
    (worseTime : worse.time.isFinite = true)
    (time : now.isFinite = true)
    (earlier : worse.time ≤ better.time) :
    (truncate (now - better.time)).toInt ≤ (truncate (now - worse.time)).toInt := by
  obtain ⟨a, left⟩ := (Binary64.isFinite_iff _).mp worseTime
  obtain ⟨b, right⟩ := (Binary64.isFinite_iff _).mp betterTime
  obtain ⟨c, value⟩ := (Binary64.isFinite_iff _).mp time
  have order : a ≤ b := (Binary64.le_iff_quanta_le left right).mp earlier
  exact Binary64.truncate_mono (Binary64.sub_le_sub_finite left right order value)

/-- A sample that is no better and no later does not score less, bounds or not. -/
theorem score_le
    (penalty : 0 ≤ ageing.qualityPenalty)
    (betterTime : better.time.isFinite = true)
    (worseTime : worse.time.isFinite = true)
    (time : now.isFinite = true)
    (quality : worse.quality ≤ better.quality)
    (earlier : worse.time ≤ better.time) :
    ageing.score better now ≤ ageing.score worse now := by
  rw [Int64.le_iff_toInt_le, toInt_score, toInt_score]
  apply Saturating.clamp_mono
  exact add_le_add
    (Saturating.clamp_mono (price_le penalty quality))
    (age_le betterTime worseTime time earlier)

/-- No step of a score runs against a bound, the age being so many whole units of time. -/
structure Exact (ageing : Ageing) (sample : Sample) (now : Float) (age : ℤ) : Prop where
  units : wholeUnits? (now - sample.time) = some age
  age_eq : (truncate (now - sample.time)).toInt = age
  price_eq :
    (Saturating.mul ageing.qualityPenalty (ageing.shortfall sample.quality)).toInt =
      ageing.price sample.quality
  score_eq : (ageing.score sample now).toInt = ageing.price sample.quality + age

/-- Of two samples with exact scores, the one that scores more is older by the price. -/
theorem price_sub_le
    {age otherAge : ℤ}
    (exact : ageing.Exact better now age)
    (otherExact : ageing.Exact worse now otherAge)
    (order : ageing.score worse now ≤ ageing.score better now) :
    ageing.qualityPenalty.toInt * (better.quality.toInt - worse.quality.toInt) ≤
      age - otherAge := by
  rw [Int64.le_iff_toInt_le, exact.score_eq, otherExact.score_eq] at order
  have difference :
      ageing.qualityPenalty.toInt * (better.quality.toInt - worse.quality.toInt) =
        ageing.price worse.quality - ageing.price better.quality := by
    unfold price
    ring
  omega

/-- With a price above zero, what is given up before a worse sample was measured earlier. -/
theorem time_lt
    (penalty : 0 < ageing.qualityPenalty)
    {age otherAge : ℤ}
    (exact : ageing.Exact better now age)
    (otherExact : ageing.Exact worse now otherAge)
    (betterTime : better.time.isFinite = true)
    (worseTime : worse.time.isFinite = true)
    (time : now.isFinite = true)
    (quality : worse.quality < better.quality)
    (order : ageing.score worse now ≤ ageing.score better now) :
    better.time < worse.time := by
  have positive : 0 < ageing.qualityPenalty.toInt := Int64.lt_iff_toInt_lt.mp penalty
  have points : 0 < better.quality.toInt - worse.quality.toInt :=
    sub_pos.mpr (Int32.lt_iff_toInt_lt.mp quality)
  have older : 0 < age - otherAge :=
    (mul_pos positive points).trans_le (price_sub_le exact otherExact order)
  by_contra notEarlier
  obtain ⟨b, right⟩ := (Binary64.isFinite_iff _).mp worseTime
  obtain ⟨a, left⟩ := (Binary64.isFinite_iff _).mp betterTime
  have later : worse.time ≤ better.time :=
    Binary64.le_of_not_lt (Binary64.ne_nan_of_quanta? left) right notEarlier
  have ages := age_le betterTime worseTime time later
  rw [exact.age_eq, otherExact.age_eq] at ages
  omega

end Ageing

namespace Store

variable {store : Store}

/-- What a full store gives up for a sample of a given time. -/
theorem exists_victim (full : store.isFull = true) (now : Float) :
    ∃ slot victim,
      store.evictionCandidate now = some slot ∧
      store.get? slot = some victim ∧
      ∀ sample : Sample, sample.time = now →
        (store.insert sample).2 = some ⟨slot, victim, store.scoring victim now⟩ := by
  obtain ⟨slot, victim, chosen, content, -⟩ :=
    insert_of_full (isFull_iff.mp full) ⟨.calm, 0, now, 0⟩
  refine ⟨slot, victim, chosen, (get?_eq slot).trans content, fun sample time => ?_⟩
  obtain ⟨slot', victim', chosen', content', handed, -⟩ :=
    insert_of_full (isFull_iff.mp full) sample
  rw [time] at chosen' handed
  obtain rfl := Option.some.inj (chosen.symm.trans chosen')
  obtain rfl := Option.some.inj (content.symm.trans content')
  exact handed

/-- If what is given up scores above zero, nothing that is held scores more. -/
theorem score_le_victim
    {now : Float}
    {slot : ℕ}
    {victim : Sample}
    (chosen : store.evictionCandidate now = some slot)
    (content : store.get? slot = some victim)
    (positive : 0 < store.scoring victim now) :
    ∀ other ∈ store.toList, store.scoring other now ≤ store.scoring victim now := by
  unfold evictionCandidate at chosen
  split at chosen
  · rw [get?_eq] at content
    obtain ⟨found, foundContent, -, above, -⟩ :=
      greatest_of_exists_pos chosen ⟨victim, List.mem_of_getElem? content, positive⟩
    obtain rfl := Option.some.inj (content.symm.trans foundContent)
    exact above
  · cases chosen

/--
With a price of quality that is not negative, a full store of samples at finite times
trades fairly, as seen from a finite time.  A sample that is no better and no later than
another never scores less, bounds or not.  And if what is given up scores above zero, it
is older than every worse sample by at least the price of the difference in quality,
counted in whole units of time, wherever the two scores meet no bound; with a price
above zero it was measured before that sample.
-/
theorem trades_fairly
    {ageing : Ageing}
    {now : Float}
    (scoring : store.scoring = ageing.score)
    (penalty : 0 ≤ ageing.qualityPenalty)
    (full : store.isFull = true)
    (times : ∀ sample ∈ store.toList, sample.time.isFinite = true)
    (time : now.isFinite = true) :
    (∀ better worse : Sample,
      better.time.isFinite = true → worse.time.isFinite = true →
      worse.quality ≤ better.quality → worse.time ≤ better.time →
      ageing.score better now ≤ ageing.score worse now) ∧
    ∃ slot victim,
      store.evictionCandidate now = some slot ∧
      store.get? slot = some victim ∧
      (∀ sample : Sample, sample.time = now →
        (store.insert sample).2 = some ⟨slot, victim, ageing.score victim now⟩) ∧
      (0 < ageing.score victim now →
        ∀ age, ageing.Exact victim now age →
        ∀ other ∈ store.toList, other.quality < victim.quality →
        ∀ otherAge, ageing.Exact other now otherAge →
          ageing.qualityPenalty.toInt * (victim.quality.toInt - other.quality.toInt) ≤
            age - otherAge ∧
          (0 < ageing.qualityPenalty → victim.time < other.time)) := by
  refine ⟨fun better worse left right => Ageing.score_le penalty left right time, ?_⟩
  obtain ⟨slot, victim, chosen, content, handed⟩ := exists_victim full now
  rw [scoring] at handed
  refine ⟨slot, victim, chosen, content, handed, ?_⟩
  intro positive age exact other held worse otherAge otherExact
  have order : ageing.score other now ≤ ageing.score victim now := by
    rw [← scoring] at positive ⊢
    exact score_le_victim chosen content positive other held
  rw [get?_eq] at content
  have victimHeld : victim ∈ store.toList := List.mem_of_getElem? content
  refine ⟨Ageing.price_sub_le exact otherExact order, fun positivePenalty => ?_⟩
  exact Ageing.time_lt positivePenalty exact otherExact (times victim victimHeld)
    (times other held) time worse order

/--
A sample of quality 5 and age 1000 and one of quality 4 and age 100: the better one is
given up, being 900 units older where 600 are asked for.
-/
theorem trades_fairly_of_two :
    let older : Sample := ⟨.calm, 5, 0, 0⟩
    let newer : Sample := ⟨.calm, 4, 900, 0⟩
    let store := (((empty 2 Ageing.classic.score).insert older).1.insert newer).1
    0 ≤ Ageing.classic.qualityPenalty ∧ store.isFull = true ∧
      (∀ sample ∈ store.toList, sample.time.isFinite = true) ∧
      (1000 : Float).isFinite = true ∧
      0 < Ageing.classic.score older 1000 ∧
      Ageing.classic.Exact older 1000 1000 ∧ Ageing.classic.Exact newer 1000 100 ∧
      store.evictionCandidate 1000 = some 0 ∧
      Ageing.classic.qualityPenalty.toInt * (older.quality.toInt - newer.quality.toInt) ≤
        1000 - 100 ∧
      older.time < newer.time := by
  intro older newer store
  have penalty : 0 ≤ Ageing.classic.qualityPenalty := by decide
  have full : store.isFull = true := by decide +kernel
  have times : ∀ sample ∈ store.toList, sample.time.isFinite = true := by decide +kernel
  have time : (1000 : Float).isFinite = true := by decide +kernel
  have positive : 0 < Ageing.classic.score older 1000 := by decide +kernel
  have olderExact : Ageing.classic.Exact older 1000 1000 := by
    constructor <;> decide +kernel
  have newerExact : Ageing.classic.Exact newer 1000 100 := by
    constructor <;> decide +kernel
  have candidate : store.evictionCandidate 1000 = some 0 := by decide +kernel
  have first : store.get? 0 = some older := by decide +kernel
  have second : newer ∈ store.toList := by decide +kernel
  obtain ⟨-, slot, victim, chosen, content, -, older_of⟩ :=
    trades_fairly rfl penalty full times time
  obtain rfl := Option.some.inj (candidate.symm.trans chosen)
  obtain rfl := Option.some.inj (first.symm.trans content)
  obtain ⟨enough, earlier⟩ :=
    older_of positive 1000 olderExact newer second (by decide) 100 newerExact
  exact ⟨penalty, full, times, time, positive, olderExact, newerExact, candidate, enough,
    earlier (by decide)⟩

end Store
end WindsAloft
