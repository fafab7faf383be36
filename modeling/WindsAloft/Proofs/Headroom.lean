import WindsAloft.History
import WindsAloft.Proofs.Insertion
import WindsAloft.Proofs.Totals

/-!
# Room below the bounds

A quality is any 32-bit integer, good or bad, and the weights of nearness never exceed their
rounded factors.  So a kernel has a greatest product in magnitude, and the 64-bit range has room
for a certain number of it.  Up to that number of samples no product and no sum meets a bound,
whatever the signs are: all weights are added up as plain integers are, in whatever order they
come.  The classic kernel has room for more than ten thousand samples.
-/

namespace WindsAloft

open Binary64

/-- The product of the three weights, which no bound cuts off. -/
def Weight.product (weight : Weight) : ℤ :=
  weight.quality.toInt * (weight.altitude.toInt * weight.time.toInt)

/-- What is within the range in magnitude is not cut off. -/
theorem Saturating.clamp_of_abs_le {n : ℤ} (small : |n| ≤ Int64.maxValue.toInt) :
    clamp n = n := by
  have greatest := Int64.toInt_maxValue
  obtain ⟨lower, upper⟩ := abs_le.mp small
  exact clamp_of_mem (by omega) (by omega)

namespace WeightedSum

/-- As long as there is room for so many terms of that magnitude, their sum is the exact one. -/
theorem foldl_addShare_totalWeight_of_room
    {shares : List Share}
    {bound : ℤ}
    (bounded : ∀ share ∈ shares, |share.weight.toInt| ≤ bound)
    (sum : WeightedSum)
    (room : |sum.totalWeight.toInt| + shares.length * bound ≤ Int64.maxValue.toInt) :
    (shares.foldl addShare sum).totalWeight.toInt =
      sum.totalWeight.toInt + Share.exactTotal shares := by
  -- Each term uses up the room that was set aside for it, and no more.
  induction shares generalizing sum with
  | nil => simp [Share.exactTotal]
  | cons share shares ih =>
      obtain ⟨head, tail⟩ := List.forall_mem_cons.mp bounded
      have grown : |sum.totalWeight.toInt + share.weight.toInt| ≤
          |sum.totalWeight.toInt| + bound :=
        (abs_add_le _ _).trans (by omega)
      have rest : 0 ≤ shares.length * bound :=
        mul_nonneg (Int.natCast_nonneg _) ((abs_nonneg _).trans head)
      rw [List.length_cons, Nat.cast_succ, add_mul, one_mul] at room
      have added : (sum.addShare share).totalWeight.toInt =
          sum.totalWeight.toInt + share.weight.toInt := by
        show (Saturating.add sum.totalWeight share.weight).toInt = _
        rw [Saturating.toInt_add, Saturating.clamp_of_abs_le (by omega)]
      rw [List.foldl_cons, ih tail _ (by rw [added]; omega), added, Share.exactTotal_cons,
        add_assoc]

end WeightedSum

namespace Kernel

/-- The greatest magnitude that a quality is weighed at. -/
def greatestGrade (kernel : Kernel) : ℤ :=
  max |(kernel.qualityWeight Int32.minValue).toInt| |(kernel.qualityWeight Int32.maxValue).toInt|

/-- The greatest product of the two weights of nearness. -/
def greatestNearness (kernel : Kernel) : ℤ :=
  (roundHalfUp kernel.altitudeFactor).toInt * (roundHalfUp kernel.timeFactor).toInt

/-- The greatest magnitude of a product of three weights. -/
def greatestProduct (kernel : Kernel) : ℤ :=
  kernel.greatestGrade * kernel.greatestNearness

/-- Whether the 64-bit range has room for so many samples, however good or bad they are. -/
structure RoomFor (kernel : Kernel) (count : ℕ) : Prop where
  nearness : kernel.greatestNearness ≤ Int64.maxValue.toInt
  total : count * kernel.greatestProduct ≤ Int64.maxValue.toInt

instance (kernel : Kernel) (count : ℕ) : Decidable (kernel.RoomFor count) :=
  decidable_of_iff
    (kernel.greatestNearness ≤ Int64.maxValue.toInt ∧
      count * kernel.greatestProduct ≤ Int64.maxValue.toInt)
    ⟨fun room => ⟨room.1, room.2⟩, fun room => ⟨room.nearness, room.total⟩⟩

/-- The sum of the products within the window, which no bound cuts off. -/
def plainTotal (kernel : Kernel) (point : Point) (samples : List Sample) : ℤ :=
  ((kernel.weights point samples).map Weight.product).sum

variable {kernel : Kernel} {point : Point} {sample : Sample} {weight : Weight}
variable {samples : List Sample} {count : ℕ}

theorem greatestProduct_nonneg (sound : kernel.Sound) : 0 ≤ kernel.greatestProduct := by
  obtain ⟨a, altitude, altitudeLower⟩ := sound.altitudeFactor.exists_quanta?
  obtain ⟨t, time, timeLower⟩ := sound.timeFactor.exists_quanta?
  exact mul_nonneg (le_max_of_le_left (abs_nonneg _))
    (mul_nonneg (roundHalfUp_nonneg (notNegative_of_quanta? altitude altitudeLower))
      (roundHalfUp_nonneg (notNegative_of_quanta? time timeLower)))

theorem mem_weights_iff :
    weight ∈ kernel.weights point samples ↔
      ∃ sample ∈ samples, kernel.weigh point sample = some weight :=
  List.mem_filterMap

/-- Every quality is weighed between the least and the greatest one. -/
theorem abs_quality_le
    (sound : kernel.Sound)
    (weighed : kernel.weigh point sample = some weight) :
    |weight.quality.toInt| ≤ kernel.greatestGrade := by
  have lower := sample.quality.le_toInt
  have upper := sample.quality.toInt_lt
  have least := Int32.toInt_minValue
  have greatest := Int32.toInt_maxValue
  rw [quality_of_weigh weighed]
  exact abs_le_max_abs_abs (qualityWeight_mono sound (by omega))
    (qualityWeight_mono sound (by omega))

theorem nearness_le
    (sound : kernel.Sound)
    (weighed : kernel.weigh point sample = some weight) :
    |weight.altitude.toInt * weight.time.toInt| ≤ kernel.greatestNearness := by
  obtain ⟨⟨altitude, altitudeUpper⟩, time, timeUpper⟩ := nearness_bounds sound weighed
  rw [abs_of_nonneg (mul_nonneg altitude time)]
  exact mul_le_mul altitudeUpper timeUpper time (altitude.trans altitudeUpper)

/-- No sample has a greater product, good or bad. -/
theorem abs_product_le
    (sound : kernel.Sound)
    (weighed : kernel.weigh point sample = some weight) :
    |weight.product| ≤ kernel.greatestProduct := by
  have quality := abs_quality_le sound weighed
  rw [Weight.product, abs_mul]
  exact mul_le_mul quality (nearness_le sound weighed) (abs_nonneg _)
    ((abs_nonneg _).trans quality)

/-- Where there is room for one sample, neither of its two multiplications meets a bound. -/
theorem combined_of_room
    (sound : kernel.Sound)
    (room : kernel.RoomFor count)
    (inhabited : 0 < count)
    (weighed : kernel.weigh point sample = some weight) :
    (Saturating.mul weight.altitude weight.time).toInt =
        weight.altitude.toInt * weight.time.toInt ∧
      weight.combined.toInt = weight.product := by
  have nearness :
      Saturating.clamp (weight.altitude.toInt * weight.time.toInt) =
        weight.altitude.toInt * weight.time.toInt :=
    Saturating.clamp_of_abs_le ((nearness_le sound weighed).trans room.nearness)
  have bounded := abs_product_le sound weighed
  have one : kernel.greatestProduct ≤ count * kernel.greatestProduct :=
    le_mul_of_one_le_left (greatestProduct_nonneg sound) (by exact_mod_cast inhabited)
  refine ⟨by rw [Saturating.toInt_mul, nearness], ?_⟩
  rw [toInt_combined, nearness]
  exact Saturating.clamp_of_abs_le ((bounded.trans one).trans room.total)

/-- The parts within the window are no greater than the greatest product. -/
theorem abs_share_le
    (sound : kernel.Sound)
    (room : kernel.RoomFor count)
    (few : samples.length ≤ count)
    {share : Share}
    (member : share ∈ kernel.shares point samples) :
    |share.weight.toInt| ≤ kernel.greatestProduct := by
  obtain ⟨sample, among, weight, weighed, rfl⟩ := mem_shares_iff.mp member
  have inhabited : 0 < count := (List.length_pos_of_mem among).trans_le few
  rw [(combined_of_room sound room inhabited weighed).2]
  exact abs_product_le sound weighed

theorem exactTotal_shares_of_room
    (sound : kernel.Sound)
    (room : kernel.RoomFor count)
    (few : samples.length ≤ count)
    (point : Point) :
    Share.exactTotal (kernel.shares point samples) = kernel.plainTotal point samples := by
  rw [exactTotal_shares, plainTotal]
  congr 1
  refine List.map_congr_left fun weight member => ?_
  obtain ⟨sample, among, weighed⟩ := mem_weights_iff.mp member
  have inhabited : 0 < count := (List.length_pos_of_mem among).trans_le few
  exact (combined_of_room sound room inhabited weighed).2

/-- Samples that there is room for are added up as plain integers are. -/
theorem foldl_totalWeight_of_room
    (sound : kernel.Sound)
    (room : kernel.RoomFor count)
    (few : samples.length ≤ count)
    (point : Point) :
    (samples.foldl (kernel.accumulate point) .empty).totalWeight.toInt =
      kernel.plainTotal point samples := by
  have bounded : ∀ share ∈ kernel.shares point samples,
      |share.weight.toInt| ≤ kernel.greatestProduct :=
    fun share member => abs_share_le sound room few member
  have nothing : WeightedSum.empty.totalWeight.toInt = 0 := rfl
  have fewer : (kernel.shares point samples).length ≤ count :=
    (List.length_filterMap_le _ _).trans few
  have fits : (kernel.shares point samples).length * kernel.greatestProduct ≤
      Int64.maxValue.toInt :=
    (mul_le_mul_of_nonneg_right (by exact_mod_cast fewer) (greatestProduct_nonneg sound)).trans
      room.total
  rw [foldl_accumulate,
    WeightedSum.foldl_addShare_totalWeight_of_room bounded _ (by rw [nothing]; simpa using fits),
    nothing, zero_add, exactTotal_shares_of_room sound room few]

theorem plainTotal_perm {others : List Sample} (perm : others.Perm samples) :
    kernel.plainTotal point others = kernel.plainTotal point samples :=
  ((perm.filterMap _).map _).sum_eq

/-- One more sample adds its product to the plain total. -/
theorem plainTotal_concat
    (before : List Sample)
    (weighed : kernel.weigh point sample = some weight) :
    kernel.plainTotal point (before ++ [sample]) =
      kernel.plainTotal point before + weight.product := by
  simp [plainTotal, weights, weighed]

/-- Where there is room, the running total takes the next product in without meeting a bound. -/
theorem add_of_room
    (sound : kernel.Sound)
    (room : kernel.RoomFor count)
    {before after : List Sample}
    (few : (before ++ sample :: after).length ≤ count)
    (weighed : kernel.weigh point sample = some weight) :
    (Saturating.add (before.foldl (kernel.accumulate point) .empty).totalWeight
        weight.combined).toInt =
      (before.foldl (kernel.accumulate point) .empty).totalWeight.toInt +
        weight.combined.toInt := by
  rw [List.length_append, List.length_cons] at few
  have next :
      ((before ++ [sample]).foldl (kernel.accumulate point) .empty).totalWeight =
        Saturating.add (before.foldl (kernel.accumulate point) .empty).totalWeight
          weight.combined := by
    rw [List.foldl_append, List.foldl_cons, List.foldl_nil]
    show (kernel.accumulate point _ sample).totalWeight = _
    rw [accumulate, weighed]
    rfl
  have one : (before ++ [sample]).length ≤ count := by
    rw [List.length_append, List.length_singleton]
    omega
  rw [← next, foldl_totalWeight_of_room sound room one, plainTotal_concat before weighed,
    foldl_totalWeight_of_room sound room (by omega),
    (combined_of_room sound room (by omega) weighed).2]

theorem totalWeight_of_room
    (sound : kernel.Sound)
    (room : kernel.RoomFor count)
    (few : samples.length ≤ count)
    (point : Point) :
    (kernel.estimate samples point).totalWeight.toInt = kernel.plainTotal point samples := by
  unfold estimate
  rw [WeightedSum.totalWeight_estimate, foldl_totalWeight_of_room sound room few]

/-- Where there is room, the order of the samples does not matter to the total weight. -/
theorem totalWeight_perm_of_room
    (sound : kernel.Sound)
    (room : kernel.RoomFor count)
    (few : samples.length ≤ count)
    (point : Point)
    {others : List Sample}
    (perm : others.Perm samples) :
    (kernel.estimate others point).totalWeight = (kernel.estimate samples point).totalWeight := by
  have fewOthers : others.length ≤ count := perm.length_eq.trans_le few
  rw [← Int64.toInt_inj, totalWeight_of_room sound room few,
    totalWeight_of_room sound room fewOthers, plainTotal_perm perm]

theorem sound_classic : Kernel.classic.Sound := by
  have valid : Settings.classic.Valid := by decide +kernel
  exact valid.sound

theorem roomFor_classic : Kernel.classic.RoomFor 10000 := by
  decide +kernel

/--
The classic kernel weighs up to ten thousand samples in plain integers, whatever qualities of
32 bits they have and wherever they are: neither a multiplication nor an addition meets a bound
of the 64-bit range.  So the total weight is the exact sum of the exact products, and neither it
nor the usability nor the number of contributors depends on the order of the samples.
-/
theorem classic_meets_no_bound
    {samples : List Sample}
    (few : samples.length ≤ 10000)
    (point : Point) :
    let kernel := Kernel.classic
    let running (before : List Sample) : Int64 :=
      (before.foldl (kernel.accumulate point) .empty).totalWeight
    let answer := kernel.estimate samples point
    (∀ weight ∈ kernel.weights point samples,
      (Saturating.mul weight.altitude weight.time).toInt =
          weight.altitude.toInt * weight.time.toInt ∧
        weight.combined.toInt = weight.product) ∧
    (∀ before sample after weight,
      samples = before ++ sample :: after → kernel.weigh point sample = some weight →
        (Saturating.add (running before) weight.combined).toInt =
          (running before).toInt + weight.combined.toInt) ∧
    answer.totalWeight.toInt = kernel.plainTotal point samples ∧
    ∀ others : List Sample, others.Perm samples →
      (kernel.estimate others point).totalWeight = answer.totalWeight ∧
      (kernel.estimate others point).found = answer.found ∧
      (kernel.estimate others point).contributors = answer.contributors := by
  intro kernel running answer
  refine ⟨?_, ?_, totalWeight_of_room sound_classic roomFor_classic few point, ?_⟩
  · intro weight member
    obtain ⟨sample, -, weighed⟩ := mem_weights_iff.mp member
    exact combined_of_room sound_classic roomFor_classic (by decide) weighed
  · rintro before sample after weight rfl weighed
    exact add_of_room sound_classic roomFor_classic few weighed
  · intro others perm
    have total := totalWeight_perm_of_room sound_classic roomFor_classic few point perm
    refine ⟨total, ?_, contributors_perm perm⟩
    rw [Bool.eq_iff_iff, found_iff, found_iff, total]

/-- The best and the worst of all qualities, a sample half the range away and one outside. -/
theorem classic_meets_no_bound_extremes :
    let best : Sample := ⟨⟨4, 0⟩, Int32.maxValue, 0, 0⟩
    let worst : Sample := ⟨⟨0, 4⟩, Int32.minValue, 0, 0⟩
    let samples := [best, worst, ⟨⟨1, 1⟩, 5, 180, 500⟩, best, ⟨⟨1, 1⟩, 5, 0, 1000⟩]
    let answer := Kernel.classic.estimate samples ⟨0, 0⟩
    samples.length ≤ 10000 ∧
      answer.totalWeight.toInt = 858993458970000 ∧ answer.found = true ∧
      (Kernel.classic.estimate samples.reverse ⟨0, 0⟩).totalWeight = answer.totalWeight := by
  intro best worst samples answer
  have few : samples.length ≤ 10000 := by decide
  obtain ⟨-, -, exact, orders⟩ := classic_meets_no_bound few ⟨0, 0⟩
  have weights : Kernel.classic.weights ⟨0, 0⟩ samples =
      [⟨42949672940, 100, 200⟩, ⟨-42949672960, 100, 200⟩, ⟨100, 60, 95⟩,
        ⟨42949672940, 100, 200⟩] := by
    decide +kernel
  have total : answer.totalWeight.toInt = 858993458970000 := by
    rw [exact, plainTotal, weights]
    decide
  have found : answer.found = true := (found_iff _ _ _).mpr (by rw [total]; decide)
  exact ⟨few, total, found, (orders samples.reverse (List.reverse_perm samples)).1⟩

/-- Even the greatest products leave room for some more samples, but not for many. -/
example : Kernel.classic.RoomFor 10737 ∧ ¬ Kernel.classic.RoomFor 10738 := by
  decide +kernel

end Kernel

/-- From a store that there is room for, a history answers with plain sums. -/
theorem History.query_totalWeight_of_room
    {history : History}
    (sound : history.kernel.Sound)
    (room : history.kernel.RoomFor history.store.capacity)
    (point : Point) :
    (history.query point).totalWeight.toInt =
      history.kernel.plainTotal point history.store.toList := by
  refine Kernel.totalWeight_of_room sound room ?_ point
  rw [Store.length_toList]
  exact history.store.size_le

end WindsAloft
