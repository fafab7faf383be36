import WindsAloft.Proofs.Headroom

/-!
# Products cut off twice

The three weights are multiplied in two steps, and each step is cut off at the bounds of the
64-bit range.  What the first step loses beyond a bound is hardly ever missed: another factor
leads to a bound from there as well, or makes nothing of it.  So the outcome is the exact product
cut off once, in whatever order the weights are multiplied.

The only factor that tells the numbers beyond a bound apart is minus one.  The range reaches one
further down than up, so that the greatest integer turned around is not the least one but the one
above it.  A product beyond the upper bound that is multiplied by minus one last therefore
misses the lower bound by one.
-/

namespace WindsAloft

namespace Saturating

/-- No factor but minus one tells numbers from the upper bound on apart. -/
theorem clamp_mul_eq_of_greatest_le
    {factor m n : ℤ}
    (other : factor ≠ -1)
    (left : Int64.maxValue.toInt ≤ m)
    (right : Int64.maxValue.toInt ≤ n) :
    clamp (factor * m) = clamp (factor * n) := by
  have least := Int64.toInt_minValue
  have greatest := Int64.toInt_maxValue
  rcases lt_trichotomy factor 0 with negative | rfl | positive
  · -- Turned around, the greatest integer stays within the range, but twice of it does not.
    have reaches : ∀ k, Int64.maxValue.toInt ≤ k → factor * k ≤ Int64.minValue.toInt := by
      intro k above
      have doubled : factor * k ≤ -2 * k :=
        mul_le_mul_of_nonneg_right (by omega) (by omega)
      omega
    rw [clamp_of_le_least (reaches m left), clamp_of_le_least (reaches n right)]
  · rw [zero_mul, zero_mul]
  · have reaches : ∀ k, Int64.maxValue.toInt ≤ k → Int64.maxValue.toInt ≤ factor * k := by
      intro k above
      exact above.trans (le_mul_of_one_le_left (by omega) positive)
    rw [clamp_of_greatest_le (reaches m left), clamp_of_greatest_le (reaches n right)]

/-- No factor tells numbers down from the lower bound apart. -/
theorem clamp_mul_eq_of_le_least
    (factor : ℤ)
    {m n : ℤ}
    (left : m ≤ Int64.minValue.toInt)
    (right : n ≤ Int64.minValue.toInt) :
    clamp (factor * m) = clamp (factor * n) := by
  have least := Int64.toInt_minValue
  have greatest := Int64.toInt_maxValue
  rcases lt_trichotomy factor 0 with negative | rfl | positive
  · have reaches : ∀ k, k ≤ Int64.minValue.toInt → Int64.maxValue.toInt ≤ factor * k := by
      intro k below
      have turned : -1 * k ≤ factor * k :=
        mul_le_mul_of_nonpos_right (by omega) (by omega)
      omega
    rw [clamp_of_greatest_le (reaches m left), clamp_of_greatest_le (reaches n right)]
  · rw [zero_mul, zero_mul]
  · have reaches : ∀ k, k ≤ Int64.minValue.toInt → factor * k ≤ Int64.minValue.toInt := by
      intro k below
      have grown : factor * k ≤ 1 * k :=
        mul_le_mul_of_nonpos_right positive (by omega)
      omega
    rw [clamp_of_le_least (reaches m left), clamp_of_le_least (reaches n right)]

/-- In front of a factor other than minus one, a number may be cut off or not. -/
theorem clamp_mul_clamp_of_ne {factor : ℤ} (other : factor ≠ -1) (n : ℤ) :
    clamp (factor * clamp n) = clamp (factor * n) := by
  have least := Int64.toInt_minValue
  have greatest := Int64.toInt_maxValue
  rcases le_or_gt Int64.maxValue.toInt n with above | notAbove
  · exact clamp_mul_eq_of_greatest_le other (clamp_of_greatest_le above).ge above
  · rcases le_or_gt n Int64.minValue.toInt with below | notBelow
    · exact clamp_mul_eq_of_le_least factor (clamp_of_le_least below).le below
    · have within : clamp n = n := clamp_of_mem (by omega) (by omega)
      rw [within]

/-- Up to the upper bound, a number may be cut off before it is turned around. -/
theorem clamp_neg_clamp_of_le {n : ℤ} (within : n ≤ Int64.maxValue.toInt) :
    clamp (-clamp n) = clamp (-n) := by
  have least := Int64.toInt_minValue
  have greatest := Int64.toInt_maxValue
  unfold clamp
  omega

/-- What is cut off at the upper bound and turned around misses the lower bound by one. -/
theorem clamp_neg_clamp_of_lt {n : ℤ} (beyond : Int64.maxValue.toInt < n) :
    clamp (-clamp n) = Int64.minValue.toInt + 1 := by
  rw [clamp_of_greatest_le beyond.le]
  decide

end Saturating

/-- Settings that weigh a quality as it is, and nearness at most at two factors of great size. -/
def Settings.steep : Settings :=
  { Settings.classic with
    kernel := { Kernel.classic with
      qualityFactor := 1, maxQuality := 1, altitudeFactor := 4294967296,
      timeFactor := 2147483648 } }

namespace Weight

/-- The last two weights make up a product beyond the upper bound, and minus one turns it around. -/
def TurnsBound (weight : Weight) : Prop :=
  weight.quality.toInt = -1 ∧ Int64.maxValue.toInt < weight.altitude.toInt * weight.time.toInt

instance (weight : Weight) : Decidable weight.TurnsBound :=
  inferInstanceAs (Decidable (_ ∧ _))

/-- The three weights in the order in which they stand in the product. -/
def factors (weight : Weight) : List Int64 :=
  [weight.quality, weight.altitude, weight.time]

variable {weight reordered : Weight}

/-- The order of the weights does not matter to the exact product. -/
theorem product_perm (perm : reordered.factors.Perm weight.factors) :
    reordered.product = weight.product := by
  have same := (perm.map Int64.toInt).prod_eq
  simpa [factors, product] using same

theorem product_of_minus_one (turned : weight.quality.toInt = -1) :
    weight.product = -(weight.altitude.toInt * weight.time.toInt) := by
  rw [product, turned, neg_one_mul]

/-- Where no bound is turned around, the product is the exact one, cut off once. -/
theorem toInt_combined_of_not_turnsBound (straight : ¬ weight.TurnsBound) :
    weight.combined.toInt = Saturating.clamp weight.product := by
  rw [Kernel.toInt_combined]
  by_cases turned : weight.quality.toInt = -1
  · have within : weight.altitude.toInt * weight.time.toInt ≤ Int64.maxValue.toInt :=
      not_lt.mp fun beyond => straight ⟨turned, beyond⟩
    rw [product_of_minus_one turned, turned, neg_one_mul,
      Saturating.clamp_neg_clamp_of_le within]
  · exact Saturating.clamp_mul_clamp_of_ne turned _

theorem toInt_combined_of_turnsBound (turns : weight.TurnsBound) :
    weight.combined.toInt = Int64.minValue.toInt + 1 := by
  obtain ⟨turned, beyond⟩ := turns
  rw [Kernel.toInt_combined, turned, neg_one_mul, Saturating.clamp_neg_clamp_of_lt beyond]

/-- A bound is turned around only where the exact product reaches the lower bound. -/
theorem product_le_of_turnsBound (turns : weight.TurnsBound) :
    weight.product ≤ Int64.minValue.toInt := by
  obtain ⟨turned, beyond⟩ := turns
  have least := Int64.toInt_minValue
  have greatest := Int64.toInt_maxValue
  rw [product_of_minus_one turned]
  omega

theorem clamp_product_of_turnsBound (turns : weight.TurnsBound) :
    Saturating.clamp weight.product = Int64.minValue.toInt :=
  Saturating.clamp_of_le_least (product_le_of_turnsBound turns)

theorem toInt_combined_eq_clamp_iff (weight : Weight) :
    weight.combined.toInt = Saturating.clamp weight.product ↔ ¬ weight.TurnsBound := by
  refine ⟨fun same turns => ?_, toInt_combined_of_not_turnsBound⟩
  rw [toInt_combined_of_turnsBound turns, clamp_product_of_turnsBound turns] at same
  omega

/-- Of the products within the range, only the least integer may be missed. -/
theorem turnsBound_iff_of_le
    (lower : Int64.minValue.toInt ≤ weight.product) :
    weight.TurnsBound ↔
      weight.quality.toInt = -1 ∧ weight.altitude.toInt * weight.time.toInt = 2 ^ 63 := by
  have least := Int64.toInt_minValue
  have greatest := Int64.toInt_maxValue
  constructor
  · rintro ⟨turned, beyond⟩
    rw [product_of_minus_one turned] at lower
    exact ⟨turned, by omega⟩
  · rintro ⟨turned, next⟩
    exact ⟨turned, by omega⟩

/-- Above the least integer, the product does not depend on the order of the weights. -/
theorem toInt_combined_of_perm
    (perm : reordered.factors.Perm weight.factors)
    (above : Int64.minValue.toInt < weight.product) :
    reordered.combined.toInt = Saturating.clamp weight.product := by
  rw [← product_perm perm] at above ⊢
  exact toInt_combined_of_not_turnsBound fun turns => (product_le_of_turnsBound turns).not_gt above

/-- Two orders of the weights differ just if only one of them turns a bound around. -/
theorem combined_eq_iff_of_perm (perm : reordered.factors.Perm weight.factors) :
    reordered.combined = weight.combined ↔ (reordered.TurnsBound ↔ weight.TurnsBound) := by
  rw [← Int64.toInt_inj]
  by_cases turns : weight.TurnsBound
  · rw [toInt_combined_of_turnsBound turns, iff_true_right turns]
    refine ⟨fun same => ?_, toInt_combined_of_turnsBound⟩
    by_contra straight
    rw [toInt_combined_of_not_turnsBound straight, product_perm perm,
      clamp_product_of_turnsBound turns] at same
    omega
  · rw [toInt_combined_of_not_turnsBound turns, iff_false_right turns, ← product_perm perm]
    exact toInt_combined_eq_clamp_iff reordered

/--
Multiplied in two steps that are each cut off at the bounds, the three weights give the exact
product cut off once, unless a bound is turned around: then they give one more than the least
integer, which is what the exact product would be cut off to.  An exact product within the range
comes out, unless minus one turns around what is one beyond the greatest integer.

Two orders to multiply in, whichever two weights come first, give different products just if a
bound is turned around in one of them alone.  Above the least integer they all give the same.
-/
theorem product_cut_off_twice (weight : Weight) :
    (weight.combined.toInt = Saturating.clamp weight.product ↔ ¬ weight.TurnsBound) ∧
    (weight.TurnsBound →
      Saturating.clamp weight.product = Int64.minValue.toInt ∧
        weight.combined.toInt = Int64.minValue.toInt + 1) ∧
    (Int64.minValue.toInt ≤ weight.product → weight.product ≤ Int64.maxValue.toInt →
      (weight.combined.toInt = weight.product ↔
        ¬ (weight.quality.toInt = -1 ∧ weight.altitude.toInt * weight.time.toInt = 2 ^ 63))) ∧
    ∀ reordered : Weight, reordered.factors.Perm weight.factors →
      Saturating.mul (Saturating.mul reordered.altitude reordered.time) reordered.quality =
        reordered.combined ∧
      (reordered.combined = weight.combined ↔
        (reordered.TurnsBound ↔ weight.TurnsBound)) ∧
      (Int64.minValue.toInt < weight.product →
        reordered.combined.toInt = Saturating.clamp weight.product) := by
  refine ⟨toInt_combined_eq_clamp_iff weight, ?_, ?_, ?_⟩
  · intro turns
    exact ⟨clamp_product_of_turnsBound turns, toInt_combined_of_turnsBound turns⟩
  · intro lower upper
    have within : Saturating.clamp weight.product = weight.product := by
      have least := Int64.toInt_minValue
      have greatest := Int64.toInt_maxValue
      exact Saturating.clamp_of_mem (by omega) (by omega)
    rw [← turnsBound_iff_of_le lower, ← toInt_combined_eq_clamp_iff, within]
  · intro reordered perm
    exact ⟨Saturating.mul_comm _ _, combined_eq_iff_of_perm perm, toInt_combined_of_perm perm⟩

/-- A poor sample right at the point, whose weights multiply to the least integer. -/
theorem product_cut_off_twice_of_poor_sample :
    let weight : Weight := ⟨-1, 4294967296, 2147483648⟩
    let reordered : Weight := ⟨4294967296, 2147483648, -1⟩
    Settings.steep.Valid ∧
      Settings.steep.kernel.weigh ⟨0, 0⟩ ⟨⟨1, 2⟩, -1, 0, 0⟩ = some weight ∧
      weight.product = Int64.minValue.toInt ∧
      weight.combined.toInt = Int64.minValue.toInt + 1 ∧
      reordered.factors.Perm weight.factors ∧
      reordered.combined.toInt = Int64.minValue.toInt ∧
      reordered.combined ≠ weight.combined := by
  intro weight reordered
  have turns : weight.TurnsBound := by decide
  have straight : ¬ reordered.TurnsBound := by decide
  have perm : reordered.factors.Perm weight.factors := by decide
  obtain ⟨-, turned, -, orders⟩ := product_cut_off_twice weight
  obtain ⟨cutOff, -, -, -⟩ := product_cut_off_twice reordered
  obtain ⟨-, same_iff, -⟩ := orders reordered perm
  have least : reordered.combined.toInt = Int64.minValue.toInt := by
    rw [cutOff.mpr straight, product_perm perm]
    exact (turned turns).1
  exact ⟨by decide +kernel, by decide +kernel, by decide, (turned turns).2, perm, least,
    fun same => straight ((same_iff.mp same).mpr turns)⟩

end Weight

/-- Without a negative quality, the weights of a sample may be multiplied in any order. -/
theorem Kernel.combined_in_any_order
    {kernel : Kernel}
    (sound : kernel.Sound)
    {point : Point}
    {sample : Sample}
    (quality : 0 ≤ sample.quality.toInt)
    {weight reordered : Weight}
    (weighed : kernel.weigh point sample = some weight)
    (perm : reordered.factors.Perm weight.factors) :
    reordered.combined.toInt = Saturating.clamp weight.product := by
  obtain ⟨⟨altitude, -⟩, time, -⟩ := nearness_bounds sound weighed
  have nonnegative : 0 ≤ weight.product :=
    mul_nonneg (quality_nonneg sound quality weighed) (mul_nonneg altitude time)
  have least : Int64.minValue.toInt < 0 := by decide
  exact Weight.toInt_combined_of_perm perm (least.trans_le nonnegative)

end WindsAloft
