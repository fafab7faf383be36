import WindsAloft.Estimate
import WindsAloft.Proofs.Binary64.Restored
import WindsAloft.Proofs.Codec.Wind

/-!
# The estimate from a single sample

A single sample within the window is its own weighted mean, so that the estimate
should be its vector.  As it is computed, each component is multiplied by the
weight and divided by it again.  Whatever the kernel and the weight, what comes out
is the component or one of the doubles next to it, and the component itself exactly
when the product did not have to be rounded by much.
-/

namespace WindsAloft

open Binary64

namespace Kernel

variable {kernel : Kernel} {point : Point} {sample : Sample} {weight : Weight}

/-- One sample with a positive weight is always enough. -/
theorem estimate_singleton
    (weighed : kernel.weigh point sample = some weight)
    (positive : 0 < weight.combined) :
    kernel.estimate [sample] point =
      { wind :=
          { x := (0 + sample.wind.x * ofInt64 weight.combined) / ofInt64 weight.combined
            y := (0 + sample.wind.y * ofInt64 weight.combined) / ofInt64 weight.combined }
        found := true
        totalWeight := weight.combined
        contributors := 1 } := by
  have sums : [sample].foldl (kernel.accumulate point) .empty =
      WeightedSum.empty.add sample.wind weight.combined := by
    rw [List.foldl_cons, List.foldl_nil, accumulate, weighed]
  have total : (WeightedSum.empty.add sample.wind weight.combined).totalWeight =
      weight.combined :=
    Saturating.zero_add weight.combined
  rw [estimate, sums, WeightedSum.estimate, total, if_pos positive]
  rfl

/--
From a single sample with a positive weight there is an answer, and each of its
components is that of the sample or next to it.
-/
theorem single_sample_restored
    (weighed : kernel.weigh point sample = some weight)
    (positive : 0 < weight.combined)
    (finite : sample.wind.IsFinite)
    (xProduct : (sample.wind.x * ofInt64 weight.combined).isFinite = true)
    (yProduct : (sample.wind.y * ofInt64 weight.combined).isFinite = true) :
    let answer := kernel.estimate [sample] point
    (answer.found = true ∧ answer.totalWeight = weight.combined ∧ answer.contributors = 1) ∧
      Restored (ofInt64 weight.combined) sample.wind.x answer.wind.x ∧
      Restored (ofInt64 weight.combined) sample.wind.y answer.wind.y := by
  intro answer
  have above : 0 < weight.combined.toInt := Int64.lt_iff_toInt_lt.mp positive
  have known := estimate_singleton weighed positive
  refine ⟨?_, ?_, ?_⟩
  · simp only [answer, known, and_self]
  · simp only [answer, known]
    exact restored_of_ofInt64 above finite.1 xProduct
  · simp only [answer, known]
    exact restored_of_ofInt64 above finite.2 yProduct

/-- With the classic kernel, a good sample at the very point need not come back. -/
theorem single_sample_restored_next_below :
    let sample : Sample := ⟨⟨1.0485762, 0⟩, 5, 0, 0⟩
    let answer := Kernel.classic.estimate [sample] ⟨0, 0⟩
    Kernel.classic.weigh ⟨0, 0⟩ sample = some ⟨100, 100, 200⟩ ∧
      answer = ⟨⟨1.0485761999999998, 0⟩, true, 2000000, 1⟩ ∧
      (answer.wind.x == sample.wind.x) = false ∧
      exactValue sample.wind.x - exactValue answer.wind.x = ulp sample.wind.x ∧
      Restored (ofInt64 2000000) sample.wind.x answer.wind.x := by
  intro sample answer
  have weighed : Kernel.classic.weigh ⟨0, 0⟩ sample = some ⟨100, 100, 200⟩ := by
    decide +kernel
  have known : answer = ⟨⟨1.0485761999999998, 0⟩, true, 2000000, 1⟩ := by decide +kernel
  have other : (answer.wind.x == sample.wind.x) = false := by
    rw [known]
    decide +kernel
  have distance : exactValue sample.wind.x - exactValue answer.wind.x = ulp sample.wind.x := by
    rw [known]
    decide +kernel
  obtain ⟨-, restored, -⟩ := single_sample_restored weighed (by decide) (by decide +kernel)
    (by decide +kernel) (by decide +kernel)
  exact ⟨weighed, known, other, distance, restored⟩

end Kernel
end WindsAloft
