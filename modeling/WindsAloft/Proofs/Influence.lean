import Mathlib.Data.List.Forall2
import WindsAloft.Proofs.Totals
import WindsAloft.Proofs.Usable

/-!
# What may influence an estimate

One pass over the samples builds up four sums side by side, and each of them reads only its own
part of the samples: the total weight and the number of contributors read the weights, the sum
of each component reads that component as well.  So the vectors have no influence on the weights,
nor has one component any on the other.

Samples outside the window have no part in any sum.  A weight of zero within the window makes a
finite vector a zero of either sign, and a sum that starts from the positive zero never becomes
the negative one, so that such a term leaves it as it was, bit for bit.  Only the contributors
are counted down when such samples are left out.
-/

namespace WindsAloft

open Binary64

namespace Binary64

attribute [local irreducible] unit overflow

section Zeros

variable {x z : Float}

theorem nearest_pos {n : ℕ} (positive : 0 < n) : 0 < nearest n := by
  have least : nearest ((1 : ℕ) : ℚ) = 1 := nearest_natCast (representable_pow 0)
  have order : nearest ((1 : ℕ) : ℚ) ≤ nearest n := nearest_mono (by exact_mod_cast positive)
  omega

/-- Only two negative zeros add up to the negative zero. -/
theorem add_ne_negative_zero (left : ofFloat x ≠ .finite true 0) (y : Float) :
    ofFloat (x + y) ≠ .finite true 0 := by
  intro negative
  rw [ofFloat_add] at negative
  cases known : ofFloat x with
  | nan =>
      rw [known] at negative
      cases negative
  | infinite s =>
      rw [known] at negative
      cases right : ofFloat y with
      | infinite t =>
          rw [right] at negative
          simp only [plus] at negative
          split at negative <;> cases negative
      | _ =>
          rw [right] at negative
          cases negative
  | finite s m =>
      rw [known] at negative
      cases right : ofFloat y with
      | finite t n =>
          rw [right] at negative
          simp only [plus] at negative
          split at negative
          · next cancel =>
              obtain ⟨signs, -⟩ := Binary64.finite.inj negative
              obtain ⟨rfl, rfl⟩ : s = true ∧ t = true := by simpa using signs
              have nothing : m = 0 := by
                simp only [signed, if_true] at cancel
                omega
              exact left (known.trans (by rw [nothing]))
          · next nonzero =>
              have positive := nearest_pos (Int.natAbs_pos.mpr nonzero)
              unfold rounded limited at negative
              split at negative
              · exact positive.ne' (Binary64.finite.inj negative).2
              · cases negative
      | _ =>
          rw [right] at negative
          cases negative

/-- A zero of either sign leaves a sum that is not the negative zero. -/
theorem add_zero_of_ne
    (left : ofFloat x ≠ .finite true 0)
    {t : Bool}
    (zero : ofFloat z = .finite t 0) :
    x + z = x := by
  apply ofFloat_injective
  rw [ofFloat_add, zero]
  cases known : ofFloat x with
  | nan => rfl
  | infinite s => rfl
  | finite s m =>
      simp only [plus, signed_zero, add_zero, signed_eq_zero_iff]
      split
      · next nothing =>
          subst nothing
          cases s with
          | false => rfl
          | true => exact absurd known left
      · next nonzero =>
          have double := isDouble_of_quanta? (quanta?_of_finite known)
          unfold IsDouble at double
          rw [natAbs_signed] at double
          rw [decide_signed_lt_zero s nonzero, natAbs_signed]
          exact rounded_natCast s double.1 double.2

/-- A finite double times zero is a zero of its own sign. -/
theorem exists_zero_of_mul (finite : x.isFinite = true) :
    ∃ t, ofFloat (x * ofInt64 0) = .finite t 0 := by
  obtain ⟨a, value⟩ := (isFinite_iff x).mp finite
  obtain ⟨s, m, known, -⟩ := exists_finite_of_quanta? value
  have zero : ofFloat (ofInt64 0) = .finite false 0 := by decide +kernel
  refine ⟨s ^^ false, ?_⟩
  rw [ofFloat_mul, known, zero]
  simp only [times]
  rw [Nat.cast_zero, mul_zero, zero_div, rounded_zero]

end Zeros

end Binary64

/-- The second sample is the first one, with whatever vector. -/
def Sample.UpToWind (sample other : Sample) : Prop :=
  other = { sample with wind := other.wind }

namespace WeightedSum

/-- The pass over the parts is four passes side by side. -/
theorem foldl_addShare_eq (shares : List Share) (sum : WeightedSum) :
    shares.foldl addShare sum =
      { x := (Share.terms Wind.x shares).foldl (· + ·) sum.x
        y := (Share.terms Wind.y shares).foldl (· + ·) sum.y
        totalWeight := (shares.map Share.weight).foldl Saturating.add sum.totalWeight
        contributors := sum.contributors + shares.length } := by
  have x := foldl_addShare_x shares sum
  have y := foldl_addShare_y shares sum
  have totalWeight :
      (shares.foldl addShare sum).totalWeight =
        shares.foldl (fun total share => Saturating.add total share.weight) sum.totalWeight :=
    (List.foldl_hom WeightedSum.totalWeight fun _ _ => rfl).symm
  have contributors := foldl_addShare_contributors shares sum
  simp only [Share.terms, List.foldl_map, ← x, ← y, ← totalWeight, ← contributors]

/-- The number of contributors is passed on and has no other use. -/
theorem estimate_with_contributors (sum : WeightedSum) (count : ℕ) :
    { sum with contributors := count }.estimate =
      { sum.estimate with contributors := count } := by
  unfold estimate
  split <;> rfl

end WeightedSum

namespace Kernel

variable {kernel : Kernel} {point : Point} {samples others fewer : List Sample}

/-- An estimate is made of two lists of terms and the list of weights. -/
theorem estimate_eq_of_terms (kernel : Kernel) (samples : List Sample) (point : Point) :
    kernel.estimate samples point =
      WeightedSum.estimate
        { x := (Share.terms Wind.x (kernel.shares point samples)).foldl (· + ·) 0
          y := (Share.terms Wind.y (kernel.shares point samples)).foldl (· + ·) 0
          totalWeight :=
            ((kernel.weights point samples).map Weight.combined).foldl Saturating.add 0
          contributors := (kernel.weights point samples).length } := by
  have lengths := congrArg List.length (map_weight_shares kernel point samples)
  rw [List.length_map, List.length_map] at lengths
  rw [estimate_eq, WeightedSum.foldl_addShare_eq, map_weight_shares, lengths]
  simp only [WeightedSum.empty, zero_add]

/-- The terms of a component, sample by sample. -/
theorem terms_shares
    (component : Wind → Float)
    (kernel : Kernel)
    (point : Point)
    (samples : List Sample) :
    Share.terms component (kernel.shares point samples) =
      samples.filterMap fun sample =>
        (kernel.weigh point sample).map fun weight =>
          component sample.wind * ofInt64 weight.combined := by
  unfold Share.terms shares share?
  simp only [List.map_filterMap, Option.map_map]
  rfl

section Window

/-- The samples within the window. -/
def within (kernel : Kernel) (point : Point) (samples : List Sample) : List Sample :=
  samples.filter fun sample => (kernel.weigh point sample).isSome

theorem shares_within (kernel : Kernel) (point : Point) (samples : List Sample) :
    kernel.shares point (kernel.within point samples) = kernel.shares point samples := by
  unfold shares within
  rw [List.filterMap_filter]
  congr 1
  funext sample
  unfold share?
  cases kernel.weigh point sample <;> rfl

/-- Samples outside the window have no influence. -/
theorem estimate_within (kernel : Kernel) (samples : List Sample) (point : Point) :
    kernel.estimate (kernel.within point samples) point = kernel.estimate samples point := by
  rw [estimate_eq, shares_within, ← estimate_eq]

theorem length_within (kernel : Kernel) (point : Point) (samples : List Sample) :
    (kernel.within point samples).length = (kernel.shares point samples).length := by
  unfold within shares share?
  rw [List.length_filterMap_eq_countP, List.countP_eq_length_filter]
  simp only [Option.isSome_map]

end Window

section Vectors

theorem weigh_of_upToWind {sample other : Sample} (same : sample.UpToWind other) :
    kernel.weigh point other = kernel.weigh point sample := by
  rw [same]
  rfl

/-- The vectors have no influence on the weights. -/
theorem weights_of_upToWind (same : List.Forall₂ Sample.UpToWind samples others) :
    kernel.weights point others = kernel.weights point samples := by
  induction same with
  | nil => rfl
  | cons head tail ih =>
      unfold weights at ih ⊢
      rw [List.filterMap_cons, List.filterMap_cons, weigh_of_upToWind head, ih]

/-- What is not asked of a vector has no influence on the terms. -/
theorem terms_of_upToWind
    (component : Wind → Float)
    (same : List.Forall₂ Sample.UpToWind samples others)
    (components :
      others.map (fun sample => component sample.wind) =
        samples.map fun sample => component sample.wind) :
    Share.terms component (kernel.shares point others) =
      Share.terms component (kernel.shares point samples) := by
  rw [terms_shares, terms_shares]
  induction same with
  | nil => rfl
  | cons head tail ih =>
      rw [List.map_cons, List.map_cons, List.cons.injEq] at components
      rw [List.filterMap_cons, List.filterMap_cons, weigh_of_upToWind head, components.1,
        ih components.2]

theorem weight_estimate_of_upToWind (same : List.Forall₂ Sample.UpToWind samples others) :
    (kernel.estimate others point).totalWeight = (kernel.estimate samples point).totalWeight ∧
      (kernel.estimate others point).found = (kernel.estimate samples point).found ∧
      (kernel.estimate others point).contributors =
        (kernel.estimate samples point).contributors := by
  rw [estimate_eq_of_terms, estimate_eq_of_terms kernel samples, weights_of_upToWind same]
  unfold WeightedSum.estimate
  split <;> exact ⟨rfl, rfl, rfl⟩

/-- Of the vectors, only one component has an influence on that component of the answer. -/
theorem wind_estimate_of_upToWind
    {component : Wind → Float}
    (one : component = Wind.x ∨ component = Wind.y)
    (same : List.Forall₂ Sample.UpToWind samples others)
    (components :
      others.map (fun sample => component sample.wind) =
        samples.map fun sample => component sample.wind) :
    component (kernel.estimate others point).wind =
      component (kernel.estimate samples point).wind := by
  have terms :
      Share.terms component (kernel.shares point others) =
        Share.terms component (kernel.shares point samples) :=
    terms_of_upToWind component same components
  rw [estimate_eq_of_terms, estimate_eq_of_terms kernel samples, weights_of_upToWind same]
  unfold WeightedSum.estimate
  rcases one with rfl | rfl <;>
    · rw [terms]
      split <;> rfl

end Vectors

section Thinning

/--
The second list is the first one without some samples that are outside the window, or whose
weight is zero and whose vector is finite.
-/
inductive Thinned (kernel : Kernel) (point : Point) : List Sample → List Sample → Prop
  | nil : Thinned kernel point [] []
  | keep
      {samples fewer : List Sample}
      (sample : Sample)
      (rest : Thinned kernel point samples fewer) :
      Thinned kernel point (sample :: samples) (sample :: fewer)
  | outside
      {samples fewer : List Sample}
      {sample : Sample}
      (weighed : kernel.weigh point sample = none)
      (rest : Thinned kernel point samples fewer) :
      Thinned kernel point (sample :: samples) fewer
  | weightless
      {samples fewer : List Sample}
      {sample : Sample}
      {weight : Weight}
      (weighed : kernel.weigh point sample = some weight)
      (nothing : weight.combined = 0)
      (finite : sample.wind.IsFinite)
      (rest : Thinned kernel point samples fewer) :
      Thinned kernel point (sample :: samples) fewer

theorem foldl_weights_of_thinned (thinned : kernel.Thinned point samples fewer) (start : Int64) :
    ((kernel.weights point fewer).map Weight.combined).foldl Saturating.add start =
      ((kernel.weights point samples).map Weight.combined).foldl Saturating.add start := by
  unfold weights
  induction thinned generalizing start with
  | nil => rfl
  | keep sample rest ih =>
      rw [List.filterMap_cons, List.filterMap_cons]
      cases kernel.weigh point sample with
      | none => exact ih start
      | some weight => exact ih _
  | outside weighed rest ih =>
      rw [List.filterMap_cons, weighed]
      exact ih start
  | weightless weighed nothing finite rest ih =>
      rw [List.filterMap_cons, weighed, List.map_cons, List.foldl_cons, nothing,
        Saturating.add_zero]
      exact ih start

/-- Terms that are zero have no influence on a sum that is not the negative zero. -/
theorem foldl_terms_of_thinned
    (component : Wind → Float)
    (finite : ∀ wind : Wind, wind.IsFinite → (component wind).isFinite = true)
    (thinned : kernel.Thinned point samples fewer)
    {start : Float}
    (notNegative : ofFloat start ≠ .finite true 0) :
    (Share.terms component (kernel.shares point fewer)).foldl (· + ·) start =
      (Share.terms component (kernel.shares point samples)).foldl (· + ·) start := by
  rw [terms_shares, terms_shares]
  induction thinned generalizing start with
  | nil => rfl
  | keep sample rest ih =>
      rw [List.filterMap_cons, List.filterMap_cons]
      cases kernel.weigh point sample with
      | none => exact ih notNegative
      | some weight => exact ih (add_ne_negative_zero notNegative _)
  | outside weighed rest ih =>
      rw [List.filterMap_cons, weighed]
      exact ih notNegative
  | @weightless _ _ sample weight weighed nothing whole rest ih =>
      obtain ⟨t, zero⟩ := exists_zero_of_mul (finite sample.wind whole)
      rw [List.filterMap_cons, weighed, Option.map_some, nothing, List.foldl_cons,
        add_zero_of_ne notNegative zero]
      exact ih notNegative

/-- Only the contributors tell whether samples without weight were there. -/
theorem estimate_of_thinned (thinned : kernel.Thinned point samples fewer) :
    kernel.estimate fewer point =
      { kernel.estimate samples point with
        contributors := (kernel.estimate fewer point).contributors } := by
  have zero : ofFloat 0 ≠ .finite true 0 := by decide +kernel
  rw [estimate_eq_of_terms, estimate_eq_of_terms, ← WeightedSum.estimate_with_contributors,
    foldl_weights_of_thinned thinned,
    foldl_terms_of_thinned Wind.x (fun _ => And.left) thinned zero,
    foldl_terms_of_thinned Wind.y (fun _ => And.right) thinned zero,
    WeightedSum.contributors_estimate]

end Thinning

/--
What may influence an estimate, whatever the kernel, the samples and the point are.  Only samples
within the window do, and there are as many contributors as these.  Other vectors leave the total
weight, the usability and the contributors; each component of the answer stays as long as that
component of all vectors does.  And leaving out samples outside the window, or finite ones of no
weight within it, changes nothing but the number of contributors.
-/
theorem influence_on_estimate (kernel : Kernel) (samples : List Sample) (point : Point) :
    let answer := kernel.estimate samples point
    let inside := kernel.within point samples
    kernel.estimate inside point = answer ∧
    answer.contributors = inside.length ∧
    (∀ others, List.Forall₂ Sample.UpToWind samples others →
      let other := kernel.estimate others point
      (other.totalWeight = answer.totalWeight ∧ other.found = answer.found ∧
        other.contributors = answer.contributors) ∧
      (others.map (·.wind.x) = samples.map (·.wind.x) → other.wind.x = answer.wind.x) ∧
      (others.map (·.wind.y) = samples.map (·.wind.y) → other.wind.y = answer.wind.y)) ∧
    ∀ fewer, kernel.Thinned point samples fewer →
      kernel.estimate fewer point =
        { answer with contributors := (kernel.estimate fewer point).contributors } := by
  intro answer inside
  have contributors : answer.contributors = inside.length := by
    rw [contributors_estimate, length_within]
  refine ⟨estimate_within kernel samples point, contributors, fun others same => ?_,
    fun fewer thinned => estimate_of_thinned thinned⟩
  exact ⟨weight_estimate_of_upToWind same, wind_estimate_of_upToWind (.inl rfl) same,
    wind_estimate_of_upToWind (.inr rfl) same⟩

/-- A good sample beside one whose time is not a number and one of no quality. -/
theorem influence_on_estimate_of_three :
    let good : Sample := ⟨⟨4, -2⟩, 5, 0, 0⟩
    let timeless : Sample := ⟨⟨9, 9⟩, 5, 0 / 0, 0⟩
    let worthless : Sample := ⟨⟨-3, 1⟩, 0, 0, 0⟩
    let samples := [good, timeless, worthless]
    let others : List Sample := [⟨⟨4, 7⟩, 5, 0, 0⟩, ⟨⟨9, 0⟩, 5, 0 / 0, 0⟩, ⟨⟨-3, 8⟩, 0, 0, 0⟩]
    let answer := Kernel.classic.estimate samples ⟨0, 0⟩
    List.Forall₂ Sample.UpToWind samples others ∧
      Kernel.classic.Thinned ⟨0, 0⟩ samples [good] ∧
      answer = ⟨⟨4, -2⟩, true, 2000000, 2⟩ ∧
      (Kernel.classic.estimate others ⟨0, 0⟩).totalWeight = answer.totalWeight ∧
      (Kernel.classic.estimate others ⟨0, 0⟩).wind.x = answer.wind.x ∧
      (Kernel.classic.estimate [good] ⟨0, 0⟩).wind = answer.wind := by
  intro good timeless worthless samples others answer
  have same : List.Forall₂ Sample.UpToWind samples others :=
    .cons rfl (.cons rfl (.cons rfl .nil))
  have outside : Kernel.classic.weigh ⟨0, 0⟩ timeless = none := by decide +kernel
  have inside : Kernel.classic.weigh ⟨0, 0⟩ worthless = some ⟨0, 100, 200⟩ := by decide +kernel
  have finite : worthless.wind.IsFinite := by decide +kernel
  have thinned : Kernel.classic.Thinned ⟨0, 0⟩ samples [good] :=
    .keep good (.outside outside (.weightless inside (by decide) finite .nil))
  have known : answer = ⟨⟨4, -2⟩, true, 2000000, 2⟩ := by decide +kernel
  obtain ⟨-, -, vectors, left⟩ := influence_on_estimate Kernel.classic samples ⟨0, 0⟩
  obtain ⟨⟨total, -⟩, x, -⟩ := vectors others same
  have components : others.map (·.wind.x) = samples.map (·.wind.x) := by
    decide +kernel
  have alone := left [good] thinned
  exact ⟨same, thinned, known, total, x components, by rw [alone]⟩

/-- A vector that is not finite has an influence even where it has no weight. -/
example :
    let good : Sample := ⟨⟨4, -2⟩, 5, 0, 0⟩
    let worthless : Sample := ⟨⟨1 / 0, 1⟩, 0, 0, 0⟩
    let answer := Kernel.classic.estimate [good, worthless] ⟨0, 0⟩
    answer.totalWeight = 2000000 ∧ answer.wind.x.isNaN = true ∧ answer.wind.y = -2 := by
  decide +kernel

end Kernel
end WindsAloft
