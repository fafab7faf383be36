import Mathlib.Analysis.Convex.Combination
import WindsAloft.Estimate
import WindsAloft.Proofs.Weights

/-!
# The weighted mean

The vector of an estimate is a quotient.  Its numerator adds up every vector
times its weight; its denominator, the total weight, adds up the same weights but
ends at the greatest 64-bit integer.  Up to there the total is exact, and the
quotient, in exact arithmetic, is a weighted mean of the vectors within the
window.  Beyond, the quotient is the weighted mean stretched by the ratio of the
exact total to the greatest integer, and it may leave the vectors behind.
-/

namespace WindsAloft

open Binary64

attribute [local irreducible] unit overflow

/-- The classic settings with factors so great that three good samples reach the bound. -/
def Settings.vast : Settings :=
  { Settings.classic with
    kernel := { Kernel.classic with
      qualityFactor := 10000000, altitudeFactor := 10000000, timeFactor := 40000 } }

/-- A sample within the window, as it enters the sums. -/
structure Share where
  wind : Wind
  weight : Int64
  deriving DecidableEq, Repr

namespace Share

/-- The vector as exact numbers, where both components are finite. -/
def position? (share : Share) : Option (ℚ × ℚ) :=
  match quanta? share.wind.x, quanta? share.wind.y with
  | some x, some y => some (x / unit, y / unit)
  | _, _ => none

/-- The vector times its weight. -/
def moment (share : Share) : ℚ × ℚ :=
  (share.weight.toInt : ℚ) • share.position?.getD 0

/-- The sum of the weights, which no bound ends. -/
def exactTotal (shares : List Share) : ℤ :=
  (shares.map fun share => share.weight.toInt).sum

theorem exactTotal_cons (share : Share) (shares : List Share) :
    exactTotal (share :: shares) = share.weight.toInt + exactTotal shares := by
  simp only [exactTotal, List.map_cons, List.sum_cons]

/-- The quotient in exact arithmetic, over the given total. -/
def exactMean (total : ℤ) (shares : List Share) : ℚ × ℚ :=
  (total : ℚ)⁻¹ • (shares.map moment).sum

/-- The quotient as it is computed, over the given total. -/
def mean (total : Int64) (shares : List Share) : Wind where
  x := shares.foldl (fun sum share => sum + share.wind.x * ofInt64 share.weight) 0
    / ofInt64 total
  y := shares.foldl (fun sum share => sum + share.wind.y * ofInt64 share.weight) 0
    / ofInt64 total

/-- The places of all vectors. -/
def positions (shares : List Share) : Set (ℚ × ℚ) :=
  { position | ∃ share ∈ shares, share.position? = some position }

theorem cast_exactTotal (shares : List Share) :
    (exactTotal shares : ℚ) = ∑ i : Fin shares.length, (shares[i].weight.toInt : ℚ) := by
  unfold exactTotal
  rw [Int.cast_list_sum, List.map_map]
  exact (Fin.sum_univ_fun_getElem shares (fun share => (share.weight.toInt : ℚ))).symm

/-- Over their own total, the mean of finite vectors lies among them. -/
theorem exactMean_mem_convexHull
    {shares : List Share}
    (nonnegative : ∀ share ∈ shares, 0 ≤ share.weight.toInt)
    (finite : ∀ share ∈ shares, ∃ position, share.position? = some position)
    (positive : 0 < exactTotal shares) :
    exactMean (exactTotal shares) shares ∈ convexHull ℚ (positions shares) := by
  have centred :
      exactMean (exactTotal shares) shares =
        Finset.univ.centerMass (fun i : Fin shares.length => (shares[i].weight.toInt : ℚ))
          (fun i => shares[i].position?.getD 0) := by
    unfold exactMean Finset.centerMass
    rw [cast_exactTotal, ← Fin.sum_univ_fun_getElem]
    rfl
  rw [centred]
  refine Finset.univ.centerMass_mem_convexHull ?_ ?_ ?_
  · intro i _
    exact_mod_cast nonnegative shares[i] (List.getElem_mem i.isLt)
  · rw [← cast_exactTotal]
    exact_mod_cast positive
  · intro i _
    have member : shares[i] ∈ shares := List.getElem_mem i.isLt
    obtain ⟨position, value⟩ := finite shares[i] member
    exact ⟨shares[i], member, by rw [value, Option.getD_some]⟩

/-- Another total only stretches the quotient. -/
theorem exactMean_eq_smul
    {shares : List Share}
    (total : ℤ)
    (positive : 0 < exactTotal shares) :
    exactMean total shares =
      ((exactTotal shares : ℚ) / total) • exactMean (exactTotal shares) shares := by
  have nonzero : (exactTotal shares : ℚ) ≠ 0 := by exact_mod_cast positive.ne'
  unfold exactMean
  rw [smul_smul, div_mul_eq_mul_div, mul_inv_cancel₀ nonzero, one_div]

end Share

namespace WeightedSum

/-- One more sample within the window. -/
def addShare (sum : WeightedSum) (share : Share) : WeightedSum :=
  sum.add share.wind share.weight

theorem foldl_addShare_x (shares : List Share) (sum : WeightedSum) :
    (shares.foldl addShare sum).x =
      shares.foldl (fun x share => x + share.wind.x * ofInt64 share.weight) sum.x :=
  (List.foldl_hom WeightedSum.x fun _ _ => rfl).symm

theorem foldl_addShare_y (shares : List Share) (sum : WeightedSum) :
    (shares.foldl addShare sum).y =
      shares.foldl (fun y share => y + share.wind.y * ofInt64 share.weight) sum.y :=
  (List.foldl_hom WeightedSum.y fun _ _ => rfl).symm

/-- With weights that are not negative, the total is the exact one up to the bound. -/
theorem foldl_addShare_totalWeight
    {shares : List Share}
    (nonnegative : ∀ share ∈ shares, 0 ≤ share.weight.toInt)
    (sum : WeightedSum)
    (start : 0 ≤ sum.totalWeight.toInt) :
    (shares.foldl addShare sum).totalWeight.toInt =
      min (sum.totalWeight.toInt + Share.exactTotal shares) Int64.maxValue.toInt := by
  have greatest := Int64.toInt_maxValue
  have least := Int64.toInt_minValue
  -- What is added is not negative, so a total at the bound stays there.
  induction shares generalizing sum with
  | nil =>
      have bound := sum.totalWeight.toInt_le
      simp only [List.foldl_nil, Share.exactTotal, List.map_nil, List.sum_nil, add_zero]
      omega
  | cons share shares ih =>
      obtain ⟨head, tail⟩ := List.forall_mem_cons.mp nonnegative
      have rest : 0 ≤ Share.exactTotal shares := by
        refine List.sum_nonneg ?_
        intro weight member
        obtain ⟨other, otherMember, rfl⟩ := List.mem_map.mp member
        exact tail other otherMember
      have added : (sum.addShare share).totalWeight.toInt =
          min (sum.totalWeight.toInt + share.weight.toInt) Int64.maxValue.toInt := by
        show (Saturating.add sum.totalWeight share.weight).toInt = _
        rw [Saturating.toInt_add, Saturating.clamp]
        omega
      rw [List.foldl_cons, ih tail _ (by omega), added, Share.exactTotal_cons]
      omega

theorem foldl_addShare_contributors (shares : List Share) (sum : WeightedSum) :
    (shares.foldl addShare sum).contributors = sum.contributors + shares.length := by
  induction shares generalizing sum with
  | nil => rfl
  | cons share shares ih =>
      rw [List.foldl_cons, ih, List.length_cons]
      show sum.contributors + 1 + shares.length = _
      omega

theorem contributors_estimate (sum : WeightedSum) :
    sum.estimate.contributors = sum.contributors := by
  unfold estimate
  split <;> rfl

end WeightedSum

namespace Kernel

/-- The part of one sample, `none` outside the window. -/
def share? (kernel : Kernel) (point : Point) (sample : Sample) : Option Share :=
  (kernel.weigh point sample).map fun weight => ⟨sample.wind, weight.combined⟩

/-- The parts of all samples within the window. -/
def shares (kernel : Kernel) (point : Point) (samples : List Sample) : List Share :=
  samples.filterMap (kernel.share? point)

/-- The pass over the samples is one over the parts. -/
theorem foldl_accumulate
    (kernel : Kernel)
    (point : Point)
    (samples : List Sample)
    (sum : WeightedSum) :
    samples.foldl (kernel.accumulate point) sum =
      (kernel.shares point samples).foldl WeightedSum.addShare sum := by
  unfold shares
  rw [List.foldl_filterMap]
  congr 1
  funext sum sample
  unfold accumulate share?
  cases kernel.weigh point sample <;> rfl

theorem estimate_eq (kernel : Kernel) (samples : List Sample) (point : Point) :
    kernel.estimate samples point =
      ((kernel.shares point samples).foldl WeightedSum.addShare .empty).estimate := by
  unfold estimate
  rw [foldl_accumulate]

theorem mem_shares_iff
    {kernel : Kernel}
    {point : Point}
    {samples : List Sample}
    {share : Share} :
    share ∈ kernel.shares point samples ↔
      ∃ sample ∈ samples, ∃ weight, kernel.weigh point sample = some weight ∧
        ⟨sample.wind, weight.combined⟩ = share := by
  simp only [shares, share?, List.mem_filterMap, Option.map_eq_some_iff]

theorem shares_nonneg
    {kernel : Kernel}
    (sound : kernel.Sound)
    {samples : List Sample}
    (quality : ∀ sample ∈ samples, 0 ≤ sample.quality.toInt)
    (point : Point) :
    ∀ share ∈ kernel.shares point samples, 0 ≤ share.weight.toInt := by
  intro share member
  obtain ⟨sample, sampleMember, weight, weighed, rfl⟩ := mem_shares_iff.mp member
  exact combined_nonneg sound (quality sample sampleMember) weighed

theorem shares_finite
    {kernel : Kernel}
    {samples : List Sample}
    (finite : ∀ sample ∈ samples,
      sample.wind.x.isFinite = true ∧ sample.wind.y.isFinite = true)
    (point : Point) :
    ∀ share ∈ kernel.shares point samples, ∃ position, share.position? = some position := by
  intro share member
  obtain ⟨sample, sampleMember, weight, weighed, rfl⟩ := mem_shares_iff.mp member
  obtain ⟨xFinite, yFinite⟩ := finite sample sampleMember
  obtain ⟨x, xValue⟩ := (isFinite_iff _).mp xFinite
  obtain ⟨y, yValue⟩ := (isFinite_iff _).mp yFinite
  exact ⟨(x / unit, y / unit), by simp only [Share.position?, xValue, yValue]⟩

/-- The total of the shares' weights, brought into the 64-bit range. -/
theorem totalWeight_estimate
    {kernel : Kernel}
    (sound : kernel.Sound)
    {samples : List Sample}
    (quality : ∀ sample ∈ samples, 0 ≤ sample.quality.toInt)
    (point : Point) :
    (kernel.estimate samples point).totalWeight.toInt =
      min (Share.exactTotal (kernel.shares point samples)) Int64.maxValue.toInt := by
  have total := WeightedSum.foldl_addShare_totalWeight
    (shares_nonneg sound quality point) .empty le_rfl
  rw [estimate_eq, WeightedSum.totalWeight_estimate, total]
  show min (0 + _) _ = _
  rw [zero_add]

/-- There are as many contributors as samples within the window. -/
theorem contributors_estimate (kernel : Kernel) (samples : List Sample) (point : Point) :
    (kernel.estimate samples point).contributors = (kernel.shares point samples).length := by
  rw [estimate_eq, WeightedSum.contributors_estimate, WeightedSum.foldl_addShare_contributors]
  exact Nat.zero_add _

theorem wind_estimate
    {kernel : Kernel}
    {samples : List Sample}
    {point : Point}
    (found : (kernel.estimate samples point).found = true) :
    (kernel.estimate samples point).wind =
      Share.mean (kernel.estimate samples point).totalWeight (kernel.shares point samples) := by
  rw [estimate_eq] at found ⊢
  rw [WeightedSum.totalWeight_estimate]
  unfold WeightedSum.estimate
  rw [if_pos ((WeightedSum.found_estimate _).mp found)]
  simp only [Share.mean, WeightedSum.foldl_addShare_x, WeightedSum.foldl_addShare_y]
  rfl

/--
A usable answer of a valid kernel: the total weight is exact as long as it does not exceed the
greatest 64-bit integer, and just then the quotient in exact arithmetic is a weighted mean of the
vectors within the window.  Beyond, it is that mean stretched.
-/
theorem exactMean_estimate
    {settings : Settings}
    (valid : settings.Valid)
    {samples : List Sample}
    (quality : ∀ sample ∈ samples, 0 ≤ sample.quality.toInt)
    (finite : ∀ sample ∈ samples,
      sample.wind.x.isFinite = true ∧ sample.wind.y.isFinite = true)
    {point : Point}
    (found : (settings.kernel.estimate samples point).found = true) :
    let estimate := settings.kernel.estimate samples point
    let shares := settings.kernel.shares point samples
    let exact := Share.exactTotal shares
    let total := estimate.totalWeight.toInt
    estimate.wind = Share.mean estimate.totalWeight shares ∧
    (total = exact ↔ exact ≤ Int64.maxValue.toInt) ∧
    (Int64.maxValue.toInt < exact → total = Int64.maxValue.toInt) ∧
    Share.exactMean total shares = ((exact : ℚ) / total) • Share.exactMean exact shares ∧
    Share.exactMean exact shares ∈ convexHull ℚ (Share.positions shares) ∧
    (exact ≤ Int64.maxValue.toInt →
      Share.exactMean total shares ∈ convexHull ℚ (Share.positions shares) ∧
      ∀ low high, Share.positions shares ⊆ Set.Icc low high →
        Share.exactMean total shares ∈ Set.Icc low high) := by
  intro estimate shares exact total
  have bounded : total = min exact Int64.maxValue.toInt :=
    totalWeight_estimate valid.sound quality point
  have positive : 0 < total := (found_iff _ _ _).mp found
  have exactPositive : 0 < exact := by omega
  have amongst : Share.exactMean exact shares ∈ convexHull ℚ (Share.positions shares) :=
    Share.exactMean_mem_convexHull (shares_nonneg valid.sound quality point)
      (shares_finite finite point) exactPositive
  refine ⟨wind_estimate found, by omega, by omega, Share.exactMean_eq_smul total exactPositive,
    amongst, ?_⟩
  intro fits
  have same : total = exact := by omega
  rw [same]
  refine ⟨amongst, ?_⟩
  intro low high box
  exact convexHull_min box (convex_Icc low high) amongst

/-- Two samples at one place, the first with the better quality. -/
def pair : List Sample :=
  [⟨⟨4, 0⟩, 5, 0, 0⟩, ⟨⟨0, 4⟩, 1, 0, 0⟩]

/-- Their weights stay far below the bound. -/
theorem exactMean_estimate_pair :
    let estimate := Settings.classic.kernel.estimate pair ⟨0, 0⟩
    let shares := Settings.classic.kernel.shares ⟨0, 0⟩ pair
    estimate.totalWeight.toInt = Share.exactTotal shares ∧
      Share.exactMean estimate.totalWeight.toInt shares ∈
        convexHull ℚ (Share.positions shares) := by
  have valid : Settings.classic.Valid := by decide +kernel
  have quality : ∀ sample ∈ pair, 0 ≤ sample.quality.toInt := by decide
  have finite : ∀ sample ∈ pair,
      sample.wind.x.isFinite = true ∧ sample.wind.y.isFinite = true := by decide +kernel
  have found : (Settings.classic.kernel.estimate pair ⟨0, 0⟩).found = true := by
    decide +kernel
  have fits : Share.exactTotal (Settings.classic.kernel.shares ⟨0, 0⟩ pair) ≤
      Int64.maxValue.toInt := by decide +kernel
  obtain ⟨-, exact_iff, -, -, -, amongst⟩ := exactMean_estimate valid quality finite found
  exact ⟨exact_iff.mpr fits, (amongst fits).1⟩

/-- Three equal samples whose weights reach the bound: the answer is none of theirs. -/
example :
    let kernel := Settings.vast.kernel
    let estimate := kernel.estimate (List.replicate 3 ⟨⟨1, 2⟩, 5, 0, 0⟩) ⟨0, 0⟩
    estimate.totalWeight = Int64.maxValue ∧ 1.3 < estimate.wind.x ∧ 2.6 < estimate.wind.y := by
  decide +kernel

end Kernel
end WindsAloft
