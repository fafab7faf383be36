import WindsAloft.Proofs.Binary64.Bounded
import WindsAloft.Proofs.Replaying
import WindsAloft.Proofs.Reporting
import WindsAloft.Proofs.WeightedMean

/-!
# Usable answers

The kernel multiplies every vector by its weight before it divides by the total, so that
finite vectors may have a mean that is not finite: a component of the mean is finite just
if all its products are and all the sums on the way.  Great components spoil it, while
components up to `1e273` cannot, whatever the weights and however many samples there are.
From the lines that are printed for them just the finite answers are read, with the doubles
that the reading of numbers makes of their texts.  So an answer comes back where its reading
changes none of them, which rounding once never does and the reading in steps sometimes.
-/

namespace WindsAloft

open Binary64

namespace Share

/-- What is added up for one component of the mean. -/
def terms (component : Wind → Float) (shares : List Share) : List Float :=
  shares.map fun share => component share.wind * ofInt64 share.weight

/-- All products and all sums on the way to the mean are finite. -/
def StayFinite (shares : List Share) : Prop :=
  StaysFinite 0 (terms Wind.x shares) ∧ StaysFinite 0 (terms Wind.y shares)

theorem isFinite_mean_iff {total : Int64} (positive : 0 < total.toInt) (shares : List Share) :
    (mean total shares).IsFinite ↔ StayFinite shares := by
  have zero : (0 : Float).isFinite = true := (isFinite_iff 0).mpr ⟨0, quanta?_zero⟩
  rw [StayFinite, ← isFinite_foldl_add_iff zero, ← isFinite_foldl_add_iff zero, terms, terms,
    List.foldl_map, List.foldl_map]
  exact and_congr (isFinite_div_ofInt64 positive) (isFinite_div_ofInt64 positive)

/-- Components up to `1e273` never add up to more than a double can hold. -/
theorem staysFinite_terms
    {component : Wind → Float}
    {shares : List Share}
    (small : ∀ share ∈ shares, (component share.wind).abs ≤ 1e273) :
    StaysFinite 0 (terms component shares) := by
  have zero : (0 : Float).isFinite = true := (isFinite_iff 0).mpr ⟨0, quanta?_zero⟩
  refine (isFinite_foldl_add_iff zero).mp (isFinite_foldl_products fun term member => ?_)
  obtain ⟨share, among, rfl⟩ := List.mem_map.mp member
  exact ⟨component share.wind, share.weight, small share among, rfl⟩

end Share

/-- Whether no component of a wind exceeds `1e273`. -/
def Wind.IsModerate (wind : Wind) : Prop :=
  wind.x.abs ≤ 1e273 ∧ wind.y.abs ≤ 1e273

namespace Kernel

variable {kernel : Kernel} {samples : List Sample} {point : Point}

theorem contributors_le (kernel : Kernel) (samples : List Sample) (point : Point) :
    (kernel.estimate samples point).contributors ≤ samples.length := by
  rw [contributors_estimate]
  exact List.length_filterMap_le _ _

/-- An answer that is not usable has a calm wind. -/
theorem wind_estimate_of_not_found (missing : (kernel.estimate samples point).found = false) :
    (kernel.estimate samples point).wind = .calm := by
  unfold estimate WeightedSum.estimate at missing ⊢
  split at missing
  · cases missing
  · next notPositive => rw [if_neg notPositive, Estimate.missing]

/-- A usable answer is finite just if all products and sums on the way to it are. -/
theorem isFinite_estimate_iff (found : (kernel.estimate samples point).found = true) :
    (kernel.estimate samples point).wind.IsFinite ↔
      Share.StayFinite (kernel.shares point samples) := by
  rw [wind_estimate found]
  exact Share.isFinite_mean_iff ((found_iff _ _ _).mp found) _

/-- Among moderate winds every answer is finite. -/
theorem isFinite_estimate
    (moderate : ∀ sample ∈ samples, sample.wind.IsModerate) :
    (kernel.estimate samples point).wind.IsFinite := by
  cases found : (kernel.estimate samples point).found with
  | false =>
      rw [wind_estimate_of_not_found found]
      decide +kernel
  | true =>
      have small : ∀ share ∈ kernel.shares point samples, share.wind.IsModerate := by
        intro share member
        obtain ⟨sample, among, -, -, rfl⟩ := mem_shares_iff.mp member
        exact moderate sample among
      exact (isFinite_estimate_iff found).mpr
        ⟨Share.staysFinite_terms fun share among => (small share among).1,
          Share.staysFinite_terms fun share among => (small share among).2⟩

end Kernel

namespace History

/-- An answer is given to a query, from the measurements in front of it. -/
theorem exists_of_mem_answers
    {history : History}
    {records : List Record}
    {outcome : Outcome}
    (given : outcome ∈ history.answers records) :
    ∃ before after, records = before ++ .query outcome.point :: after ∧
      outcome.estimate = (history.addAll (Record.samples before)).query outcome.point := by
  induction records generalizing history with
  | nil => cases given
  | cons record records ih =>
      cases record with
      | measurement sample =>
          have later : outcome ∈ (history.add sample).1.answers records := given
          obtain ⟨before, after, rfl, answer⟩ := ih later
          exact ⟨.measurement sample :: before, after, rfl, answer⟩
      | query point =>
          rcases List.mem_cons.mp given with rfl | later
          · exact ⟨[], records, rfl, rfl⟩
          · obtain ⟨before, after, rfl, answer⟩ := ih later
            exact ⟨.query point :: before, after, rfl, answer⟩

end History

namespace Replay

/-- The samples that are held after some measurements from the start. -/
def heldAfter (settings : Settings) (samples : List Sample) : List Sample :=
  ((start settings).history.addAll samples).store.toList

theorem heldAfter_subset (settings : Settings) (samples : List Sample) :
    heldAfter settings samples ⊆ samples := by
  intro sample inside
  rcases History.mem_of_mem_addAll inside with before | among
  · cases before
  · exact among

theorem length_heldAfter_lt (settings : Settings) (samples : List Sample) :
    (heldAfter settings samples).length < UInt64.size := by
  have capacity := History.addAll_capacity (start settings).history samples
  have sized : (start settings).history.store.capacity = max settings.capacity.toNat 1 := rfl
  have bound := ((start settings).history.addAll samples).store.size_le
  have word := settings.capacity.toNat_lt
  have size : UInt64.size = 2 ^ 64 := rfl
  rw [heldAfter, Store.length_toList]
  unfold Store.size
  omega

/-- Every answer comes from the samples that are held when its query is reached. -/
theorem exists_of_mem_outcomes
    {ε : Type}
    {settings : Settings}
    {items : List (Except ε Record)}
    {outcome : Outcome}
    (given : outcome ∈ ((start settings).run items).outcomes) :
    ∃ before after,
      readable items = before ++ .query outcome.point :: after ∧
      outcome.estimate =
        settings.kernel.estimate (heldAfter settings (Record.samples before)) outcome.point := by
  rw [run_outcomes] at given
  obtain ⟨before, after, records, answered⟩ := History.exists_of_mem_answers given
  refine ⟨before, after, records, ?_⟩
  rw [answered, History.query, History.addAll_kernel]
  rfl

/-- No answer has more contributors than 64 bits can count. -/
theorem contributors_lt
    {ε : Type}
    {settings : Settings}
    {items : List (Except ε Record)}
    {outcome : Outcome}
    (given : outcome ∈ ((start settings).run items).outcomes) :
    outcome.estimate.contributors < UInt64.size := by
  obtain ⟨before, -, -, answer⟩ := exists_of_mem_outcomes given
  rw [answer]
  exact (Kernel.contributors_le _ _ _).trans_lt (length_heldAfter_lt settings _)

/--
Every answer of a replay comes from the samples that are held when its query is reached.
It is calm if it is not usable.  If it is, then it is finite just if all its products and
the sums on the way are, which moderate winds ensure.  Finite answers, and no others, are
read from their lines, with the doubles that the reading makes of their texts; so they are
read back just if it changes neither component.
-/
theorem outcome_readable_iff
    {ε : Type}
    (settings : Settings)
    (items : List (Except ε Record))
    {outcome : Outcome}
    (given : outcome ∈ ((start settings).run items).outcomes) :
    ∃ before after,
      readable items = before ++ .query outcome.point :: after ∧
      let held := heldAfter settings (Record.samples before)
      let shares := settings.kernel.shares outcome.point held
      let answer := outcome.estimate
      held ⊆ Record.samples before ∧
      answer = settings.kernel.estimate held outcome.point ∧
      (answer.found = false → answer.wind = .calm) ∧
      (answer.found = true → (answer.wind.IsFinite ↔ Share.StayFinite shares)) ∧
      ((∀ sample ∈ held, sample.wind.IsModerate) → answer.wind.IsFinite) ∧
      ∀ (reading : Numeral.Reading) (reread : Float → Float),
        (∀ x ∈ outcome.doubles, x.isFinite = true → reading.ReadsAs x (reread x)) →
          (answer.wind.IsFinite →
            Outcome.readEstimate reading (outcome.line true) = .ok (answer.map reread) ∧
            (Outcome.readEstimate reading (outcome.line true) = .ok answer ↔
              reread answer.wind.x = answer.wind.x ∧ reread answer.wind.y = answer.wind.y)) ∧
          (¬ answer.wind.IsFinite →
            ∃ fault, Outcome.readEstimate reading (outcome.line true) = .error fault) := by
  have small := contributors_lt given
  obtain ⟨before, after, records, answer⟩ := exists_of_mem_outcomes given
  refine ⟨before, after, records, heldAfter_subset settings _, answer, ?_, ?_, ?_, ?_⟩
  · rw [answer]
    exact Kernel.wind_estimate_of_not_found
  · rw [answer]
    exact Kernel.isFinite_estimate_iff
  · rw [answer]
    exact Kernel.isFinite_estimate
  · intro reading reread reads
    refine ⟨fun finite => ?_, Outcome.readEstimate_line_of_not_finite small reads⟩
    have read := Outcome.readEstimate_line small reads finite
    refine ⟨read, ?_⟩
    rw [read, Except.ok.injEq]
    exact Estimate.map_eq_self_iff

/-- One measurement of a great wind, and a query at its place. -/
def storm : List (Except Unit Record) :=
  [.ok (.measurement ⟨⟨1e308, 0⟩, 5, 0, 0⟩), .ok (.query ⟨0, 0⟩)]

/-- Multiplied by its weight, the great wind is no longer finite. -/
theorem storm_not_readable :
    Settings.classic.Valid ∧
    ∃ outcome ∈ ((start Settings.classic).run storm).outcomes,
      outcome.estimate.found = true ∧
      outcome.estimate.totalWeight = 2000000 ∧
      ¬ outcome.estimate.wind.IsFinite ∧
      ∃ fault, Outcome.readEstimate Numeral.nearest (outcome.line true) = .error fault := by
  have valid : Settings.classic.Valid := by decide +kernel
  let outcome : Outcome :=
    ⟨⟨0, 0⟩, Settings.classic.kernel.estimate [⟨⟨1e308, 0⟩, 5, 0, 0⟩] ⟨0, 0⟩⟩
  have given : outcome ∈ ((start Settings.classic).run storm).outcomes := by decide +kernel
  have infinite : ¬ outcome.estimate.wind.IsFinite := by decide +kernel
  obtain ⟨-, -, -, -, -, -, -, -, reads⟩ := outcome_readable_iff Settings.classic storm given
  obtain ⟨-, refused⟩ := reads Numeral.nearest id fun x _ finite => Numeral.nearest_reads finite
  exact ⟨valid, outcome, given, by decide +kernel, by decide +kernel, infinite, refused infinite⟩

end Replay
end WindsAloft
