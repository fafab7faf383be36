import Mathlib.Data.List.Forall2
import WindsAloft.Proofs.WeightedMean

/-!
# Better qualities

What a better quality changes is the first of three weights, and the other two are not
negative.  So the product does not fall, wherever its bounds cut it off, and neither does the
total: two sums that stand in an order are still in it when each of them is given the next
term, if those terms are in it too.  That holds below, at and beyond the bounds, and for terms
of either sign, so that it holds from one end of the samples to the other.
-/

namespace WindsAloft

/-- The second sample is the first one, with a quality that is no worse. -/
structure Sample.Improvement (worse better : Sample) : Prop where
  same : better = { worse with quality := better.quality }
  quality : worse.quality.toInt ≤ better.quality.toInt

namespace Sample.Improvement

theorem refl (sample : Sample) : sample.Improvement sample :=
  ⟨rfl, le_rfl⟩

/-- One sample of a list is improved. -/
theorem set
    (samples : List Sample)
    (j : Fin samples.length)
    {better : Sample}
    (improvement : samples[j].Improvement better) :
    List.Forall₂ Improvement samples (samples.set j better) := by
  refine List.forall₂_iff_get.mpr ⟨List.length_set.symm, ?_⟩
  intro i before after
  simp only [List.get_eq_getElem, List.getElem_set]
  split
  · next here =>
      subst here
      exact improvement
  · exact refl _

end Sample.Improvement

/-- With weights of nearness that are not negative, the product grows with the quality. -/
theorem Weight.combined_le_of_quality
    {less more : Weight}
    (quality : less.quality.toInt ≤ more.quality.toInt)
    (altitude : more.altitude = less.altitude)
    (time : more.time = less.time)
    (nearness : 0 ≤ Saturating.clamp (less.altitude.toInt * less.time.toInt)) :
    less.combined.toInt ≤ more.combined.toInt := by
  rw [Kernel.toInt_combined, Kernel.toInt_combined, altitude, time]
  exact Saturating.clamp_mono (mul_le_mul_of_nonneg_right quality nearness)

/-- The second sum counts as many samples and weighs no less. -/
structure WeightedSum.UpTo (less more : WeightedSum) : Prop where
  contributors : more.contributors = less.contributors
  totalWeight : less.totalWeight.toInt ≤ more.totalWeight.toInt

namespace WeightedSum.UpTo

variable {less more : WeightedSum}

/-- A term that weighs no less keeps the order, also where the sums are cut off. -/
theorem add
    (upTo : less.UpTo more)
    (wind other : Wind)
    {lighter heavier : Int64}
    (order : lighter.toInt ≤ heavier.toInt) :
    (less.add wind lighter).UpTo (more.add other heavier) where
  contributors := congrArg (· + 1) upTo.contributors
  totalWeight := by
    show (Saturating.add less.totalWeight lighter).toInt ≤
      (Saturating.add more.totalWeight heavier).toInt
    rw [Saturating.toInt_add, Saturating.toInt_add]
    exact Saturating.clamp_mono (add_le_add upTo.totalWeight order)

end WeightedSum.UpTo

namespace Kernel

variable {kernel : Kernel} {point : Point} {worse better : Sample}

/-- The quality has a weight of its own and does not move a sample. -/
theorem weigh_with_quality (kernel : Kernel) (point : Point) (sample : Sample) (quality : Int32) :
    kernel.weigh point { sample with quality := quality } =
      (kernel.weigh point sample).map fun weight =>
        { weight with quality := kernel.qualityWeight quality } := by
  unfold weigh altitudeOffset timeOffset
  simp only
  split <;> rfl

theorem weigh_improved_none
    (improvement : worse.Improvement better)
    (outside : kernel.weigh point worse = none) :
    kernel.weigh point better = none := by
  rw [improvement.same, weigh_with_quality, outside, Option.map_none]

/-- An improved sample is as near as before, and neither its quality nor it weighs less. -/
theorem weigh_improved
    (sound : kernel.Sound)
    (improvement : worse.Improvement better)
    {less : Weight}
    (weighed : kernel.weigh point worse = some less) :
    ∃ more, kernel.weigh point better = some more ∧
      less.quality.toInt ≤ more.quality.toInt ∧
      more.altitude = less.altitude ∧ more.time = less.time ∧
      less.combined.toInt ≤ more.combined.toInt := by
  let more : Weight := { less with quality := kernel.qualityWeight better.quality }
  have graded : less.quality.toInt ≤ more.quality.toInt := by
    rw [quality_of_weigh weighed]
    exact qualityWeight_mono sound improvement.quality
  refine ⟨more, ?_, graded, rfl, rfl,
    Weight.combined_le_of_quality graded rfl rfl (nearness_nonneg sound weighed)⟩
  rw [improvement.same, weigh_with_quality, weighed, Option.map_some]

/-- An improved sample keeps the order of two sums. -/
theorem accumulate_upTo
    (sound : kernel.Sound)
    (point : Point)
    {less more : WeightedSum}
    (upTo : less.UpTo more)
    (improvement : worse.Improvement better) :
    (kernel.accumulate point less worse).UpTo (kernel.accumulate point more better) := by
  unfold accumulate
  cases weighed : kernel.weigh point worse with
  | none =>
      rw [weigh_improved_none improvement weighed]
      exact upTo
  | some weight =>
      obtain ⟨raised, raisedWeighed, -, -, -, order⟩ := weigh_improved sound improvement weighed
      rw [raisedWeighed]
      exact upTo.add worse.wind better.wind order

/-- Improved samples, however many, keep the order from one end to the other. -/
theorem foldl_accumulate_upTo
    (sound : kernel.Sound)
    (point : Point)
    {samples improved : List Sample}
    (improvement : List.Forall₂ Sample.Improvement samples improved)
    {less more : WeightedSum}
    (upTo : less.UpTo more) :
    (samples.foldl (kernel.accumulate point) less).UpTo
      (improved.foldl (kernel.accumulate point) more) := by
  induction improvement generalizing less more with
  | nil => exact upTo
  | cons head tail ih => exact ih (accumulate_upTo sound point upTo head)

/-- Improved samples leave the contributors and take nothing from the total weight. -/
theorem estimate_improved
    (sound : kernel.Sound)
    (point : Point)
    {samples improved : List Sample}
    (improvement : List.Forall₂ Sample.Improvement samples improved) :
    (kernel.estimate improved point).contributors =
        (kernel.estimate samples point).contributors ∧
      (kernel.estimate samples point).totalWeight.toInt ≤
        (kernel.estimate improved point).totalWeight.toInt := by
  have start : WeightedSum.empty.UpTo .empty := ⟨rfl, le_rfl⟩
  have upTo := foldl_accumulate_upTo sound point improvement start
  unfold estimate
  simp only [WeightedSum.contributors_estimate, WeightedSum.totalWeight_estimate]
  exact ⟨upTo.contributors, upTo.totalWeight⟩

/--
With valid settings, a better quality of one sample leaves the number of contributors.  The
sample is within the window if it was before, with weights and a product that are no less, and
the total weight is no less either.  So a usable answer stays usable.
-/
theorem better_quality_weighs_no_less
    {settings : Settings}
    (valid : settings.Valid)
    (samples : List Sample)
    (j : Fin samples.length)
    {quality : Int32}
    (raised : samples[j].quality ≤ quality)
    (point : Point) :
    let kernel := settings.kernel
    let better : Sample := { samples[j] with quality := quality }
    let before := kernel.estimate samples point
    let after := kernel.estimate (samples.set j better) point
    after.contributors = before.contributors ∧
    (∀ less, kernel.weigh point samples[j] = some less →
      ∃ more, kernel.weigh point better = some more ∧
        less.quality ≤ more.quality ∧
        more.altitude = less.altitude ∧ more.time = less.time ∧
        less.combined ≤ more.combined) ∧
    before.totalWeight ≤ after.totalWeight ∧
    (before.found = true → after.found = true) := by
  intro kernel better before after
  have sound : kernel.Sound := valid.sound
  have improvement : samples[j].Improvement better :=
    ⟨rfl, Int32.le_iff_toInt_le.mp raised⟩
  obtain ⟨contributors, total⟩ :=
    estimate_improved sound point (Sample.Improvement.set samples j improvement)
  simp only [Int64.le_iff_toInt_le]
  refine ⟨contributors, fun less => weigh_improved sound improvement, total, ?_⟩
  intro found
  exact (found_iff _ _ _).mpr (((found_iff _ _ _).mp found).trans_le total)

/-- Behind three samples that reach the bound, a bad sample becomes a poor one. -/
theorem better_quality_weighs_no_less_vast :
    let good : Sample := ⟨⟨4, 0⟩, 5, 0, 0⟩
    let bad : Sample := ⟨⟨0, 4⟩, -5, 0, 0⟩
    let poor : Sample := { bad with quality := -1 }
    let before := Settings.vast.kernel.estimate [good, good, good, bad] ⟨0, 0⟩
    let after := Settings.vast.kernel.estimate [good, good, good, poor] ⟨0, 0⟩
    Settings.vast.Valid ∧ bad.quality ≤ poor.quality ∧
      before.totalWeight = 5223372036854775807 ∧ before.totalWeight ≤ after.totalWeight ∧
      after.contributors = before.contributors ∧ after.found = true := by
  intro good bad poor before after
  have valid : Settings.vast.Valid := by decide +kernel
  have total : before.totalWeight = 5223372036854775807 := by decide +kernel
  have found : before.found = true := by decide +kernel
  have raised : bad.quality ≤ poor.quality := by decide
  obtain ⟨contributors, -, order, stays⟩ :=
    better_quality_weighs_no_less valid [good, good, good, bad] ⟨3, by decide⟩ raised ⟨0, 0⟩
  exact ⟨valid, raised, total, order, contributors, stays found⟩

end Kernel
end WindsAloft
