import WindsAloft.Proofs.WeightedMean

/-!
# The total weight

A sum that is cut off at its bounds depends on the order of its terms: once it has reached a
bound, it no longer knows how far beyond it would be.  But where no term is negative, nothing
leads away from the upper bound again, so that the total is the exact one or the bound, in
whatever order the samples come.  Valid settings leave negative weights to negative qualities.

Such a total is positive just if one of the products is, and a product is just if all of its
three factors are.
-/

namespace WindsAloft

namespace Share

/-- Weights that are not negative add up to something just if one of them is something. -/
theorem exactTotal_pos_iff
    {shares : List Share}
    (nonnegative : ∀ share ∈ shares, 0 ≤ share.weight.toInt) :
    0 < exactTotal shares ↔ ∃ share ∈ shares, 0 < share.weight.toInt := by
  have nothing : (shares.map fun _ => (0 : ℤ)).sum = 0 := by simp
  unfold exactTotal
  constructor
  · intro positive
    rw [← nothing] at positive
    exact List.exists_lt_of_sum_lt _ _ positive
  · intro something
    rw [← nothing]
    exact List.sum_lt_sum _ _ nonnegative something

theorem exactTotal_perm {shares others : List Share} (perm : others.Perm shares) :
    exactTotal others = exactTotal shares := by
  unfold exactTotal
  exact (perm.map _).sum_eq

end Share

/-- A clamped product of what is not negative is positive just if both factors are. -/
theorem Saturating.clamp_mul_pos_iff {m n : ℤ} (left : 0 ≤ m) (right : 0 ≤ n) :
    0 < clamp (m * n) ↔ 0 < m ∧ 0 < n := by
  constructor
  · intro positive
    have product : 0 < m * n := by
      by_contra notPositive
      exact positive.not_ge (clamp_nonpos (not_lt.mp notPositive))
    obtain ⟨leftNonzero, rightNonzero⟩ := mul_ne_zero_iff.mp product.ne'
    exact ⟨lt_of_le_of_ne left leftNonzero.symm, lt_of_le_of_ne right rightNonzero.symm⟩
  · rintro ⟨leftPositive, rightPositive⟩
    exact clamp_pos (mul_pos leftPositive rightPositive)

namespace Kernel

/-- The weights of all samples within the window. -/
def weights (kernel : Kernel) (point : Point) (samples : List Sample) : List Weight :=
  samples.filterMap (kernel.weigh point)

/-- The shares are weighted by the products of the weights. -/
theorem map_weight_shares (kernel : Kernel) (point : Point) (samples : List Sample) :
    (kernel.shares point samples).map Share.weight =
      (kernel.weights point samples).map Weight.combined := by
  unfold shares weights share?
  simp only [List.map_filterMap, Option.map_map]
  rfl

theorem exactTotal_shares (kernel : Kernel) (point : Point) (samples : List Sample) :
    Share.exactTotal (kernel.shares point samples) =
      ((kernel.weights point samples).map fun weight => weight.combined.toInt).sum := by
  have same := congrArg (List.map Int64.toInt) (map_weight_shares kernel point samples)
  simp only [List.map_map] at same
  exact congrArg List.sum same

variable {kernel : Kernel} {samples : List Sample} {point : Point}

/-- Without a negative quality, the product is positive just if all three factors are. -/
theorem combined_pos_iff
    (sound : kernel.Sound)
    {sample : Sample}
    (quality : 0 ≤ sample.quality.toInt)
    {weight : Weight}
    (weighed : kernel.weigh point sample = some weight) :
    0 < weight.combined.toInt ↔
      0 < weight.quality.toInt ∧ 0 < weight.altitude.toInt ∧ 0 < weight.time.toInt := by
  obtain ⟨⟨altitude, -⟩, time, -⟩ := nearness_bounds sound weighed
  rw [toInt_combined,
    Saturating.clamp_mul_pos_iff (quality_nonneg sound quality weighed)
      (nearness_nonneg sound weighed),
    Saturating.clamp_mul_pos_iff altitude time]

/-- Without negative qualities, a usable answer has a sample that all three factors speak for. -/
theorem found_iff_exists
    (sound : kernel.Sound)
    (quality : ∀ sample ∈ samples, 0 ≤ sample.quality.toInt)
    (point : Point) :
    (kernel.estimate samples point).found = true ↔
      ∃ sample ∈ samples, ∃ weight, kernel.weigh point sample = some weight ∧
        0 < weight.quality.toInt ∧ 0 < weight.altitude.toInt ∧ 0 < weight.time.toInt := by
  have greatest : 0 < Int64.maxValue.toInt := by decide
  rw [found_iff, totalWeight_estimate sound quality, lt_min_iff, and_iff_left greatest,
    Share.exactTotal_pos_iff (shares_nonneg sound quality point)]
  constructor
  · rintro ⟨share, member, positive⟩
    obtain ⟨sample, among, weight, weighed, rfl⟩ := mem_shares_iff.mp member
    exact ⟨sample, among, weight, weighed,
      (combined_pos_iff sound (quality sample among) weighed).mp positive⟩
  · rintro ⟨sample, among, weight, weighed, positive⟩
    exact ⟨⟨sample.wind, weight.combined⟩, mem_shares_iff.mpr ⟨sample, among, weight, weighed, rfl⟩,
      (combined_pos_iff sound (quality sample among) weighed).mpr positive⟩

theorem shares_perm {others : List Sample} (perm : others.Perm samples) :
    (kernel.shares point others).Perm (kernel.shares point samples) :=
  perm.filterMap _

/-- The order of the samples does not matter to how many contribute. -/
theorem contributors_perm {others : List Sample} (perm : others.Perm samples) :
    (kernel.estimate others point).contributors = (kernel.estimate samples point).contributors := by
  rw [contributors_estimate, contributors_estimate, (shares_perm perm).length_eq]

/-- Without negative qualities, the order of the samples does not matter to the total weight. -/
theorem totalWeight_perm
    (sound : kernel.Sound)
    (quality : ∀ sample ∈ samples, 0 ≤ sample.quality.toInt)
    (point : Point)
    {others : List Sample}
    (perm : others.Perm samples) :
    (kernel.estimate others point).totalWeight = (kernel.estimate samples point).totalWeight := by
  have otherQuality : ∀ sample ∈ others, 0 ≤ sample.quality.toInt :=
    fun sample member => quality sample (perm.mem_iff.mp member)
  rw [← Int64.toInt_inj, totalWeight_estimate sound quality,
    totalWeight_estimate sound otherQuality, Share.exactTotal_perm (shares_perm perm)]

/--
With valid settings and no negative qualities, the total weight is the exact sum of the products
within the window up to the greatest 64-bit integer.  There is a usable answer just if a sample
within the window has three weights above zero.  In any other order of the samples the total
weight, the usability and the number of contributors are the same.
-/
theorem total_in_any_order
    {settings : Settings}
    (valid : settings.Valid)
    {samples : List Sample}
    (quality : ∀ sample ∈ samples, 0 ≤ sample.quality)
    (point : Point) :
    let kernel := settings.kernel
    let answer := kernel.estimate samples point
    answer.totalWeight.toInt =
      min ((kernel.weights point samples).map fun weight => weight.combined.toInt).sum
        Int64.maxValue.toInt ∧
    (answer.found = true ↔
      ∃ sample ∈ samples, ∃ weight, kernel.weigh point sample = some weight ∧
        0 < weight.quality ∧ 0 < weight.altitude ∧ 0 < weight.time) ∧
    ∀ others : List Sample, others.Perm samples →
      (kernel.estimate others point).totalWeight = answer.totalWeight ∧
      (kernel.estimate others point).found = answer.found ∧
      (kernel.estimate others point).contributors = answer.contributors := by
  intro kernel answer
  have sound : kernel.Sound := valid.sound
  simp only [Int32.le_iff_toInt_le] at quality
  simp only [Int64.lt_iff_toInt_lt]
  refine ⟨?_, found_iff_exists sound quality point, ?_⟩
  · rw [← exactTotal_shares]
    exact totalWeight_estimate sound quality point
  · intro others perm
    have total := totalWeight_perm sound quality point perm
    refine ⟨total, ?_, contributors_perm perm⟩
    rw [Bool.eq_iff_iff, found_iff, found_iff, total]

/-- Three good samples, one of no quality and one outside the window, from either end. -/
theorem total_in_any_order_vast :
    let kernel := Settings.vast.kernel
    let good : Sample := ⟨⟨4, 0⟩, 5, 0, 0⟩
    let samples := [good, ⟨⟨0, 4⟩, 0, 0, 0⟩, good, ⟨⟨0, 4⟩, 5, 0, 1000⟩, good]
    let answer := kernel.estimate samples ⟨0, 0⟩
    let reversed := kernel.estimate samples.reverse ⟨0, 0⟩
    Settings.vast.Valid ∧ (∀ sample ∈ samples, 0 ≤ sample.quality) ∧
      answer.totalWeight = Int64.maxValue ∧ answer.found = true ∧
      reversed.totalWeight = answer.totalWeight ∧ reversed.found = answer.found ∧
      reversed.contributors = answer.contributors := by
  intro kernel good samples answer reversed
  have valid : Settings.vast.Valid := by decide +kernel
  have quality : ∀ sample ∈ samples, 0 ≤ sample.quality := by decide
  obtain ⟨total, found_iff, orders⟩ := total_in_any_order valid quality ⟨0, 0⟩
  have weights : kernel.weights ⟨0, 0⟩ samples =
      [⟨10000000, 10000000, 40000⟩, ⟨0, 10000000, 40000⟩, ⟨10000000, 10000000, 40000⟩,
        ⟨10000000, 10000000, 40000⟩] := by
    decide +kernel
  have bounded : answer.totalWeight = Int64.maxValue := by
    rw [← Int64.toInt_inj, total, weights]
    decide
  have weighed : kernel.weigh ⟨0, 0⟩ good = some ⟨10000000, 10000000, 40000⟩ := by
    decide +kernel
  have found : answer.found = true :=
    found_iff.mpr ⟨good, List.mem_cons_self, _, weighed, by decide, by decide, by decide⟩
  exact ⟨valid, quality, bounded, found, orders samples.reverse (List.reverse_perm samples)⟩

/-- A negative weight leads away from the bound, and then the order does matter. -/
example :
    let kernel := Settings.vast.kernel
    let good : Sample := ⟨⟨4, 0⟩, 5, 0, 0⟩
    let bad : Sample := ⟨⟨4, 0⟩, -5, 0, 0⟩
    (kernel.estimate [good, good, good, bad] ⟨0, 0⟩).totalWeight = 5223372036854775807 ∧
      (kernel.estimate [bad, good, good, good] ⟨0, 0⟩).totalWeight = 8000000000000000000 := by
  decide +kernel

end Kernel
end WindsAloft
