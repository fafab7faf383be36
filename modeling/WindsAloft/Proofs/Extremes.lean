import WindsAloft.Proofs.Statistics.Doubles
import WindsAloft.Store

/-!
# Extremes that ignore what is not a number

Doubles are not all comparable, so that what a scan finds might depend on where something that is
not a number stands.  It does not.  After each value the scan holds the extreme of what it has
seen: the first of the numbers among it, or, as long as there has been none, what is not a number.
One more value keeps this (`IsExtreme.concat`), so a whole scan finds the extreme of all
(`isExtreme_foldl`).

Values have only one extreme up to the sign of zero, and it is the same in any order.  The
statistics of a run and the times of a store are two such scans.
-/

namespace WindsAloft

open Binary64

/-- The same double, up to the sign of zero. -/
def Alike (x y : Float) : Prop :=
  x.isNaN = true ∧ y.isNaN = true ∨ (x == y) = true

/--
The extreme of some doubles in the given order: as long as there are numbers among them it is the
first of these, and it is not a number exactly when none of them is.
-/
structure IsExtreme
    (Before : Float → Float → Prop)
    (values : List Float)
    (extreme : Float) : Prop where
  first :
    ∀ value ∈ values, value.isNaN = false →
      extreme ∈ values ∧ extreme.isNaN = false ∧ Before extreme value
  isNaN_iff : extreme.isNaN = true ↔ values ≠ [] ∧ ∀ value ∈ values, value.isNaN = true

/-- A choice between two doubles in which what is not a number gives way to the other one. -/
structure Prefers (choose : Float → Float → Float) (Before : Float → Float → Prop) : Prop where
  gives_way : ∀ {x y}, x.isNaN = true → choose x y = y
  keeps : ∀ {x y}, y.isNaN = true → choose x y = x
  among : ∀ x y, choose x y = x ∨ choose x y = y
  before :
    ∀ {x y}, x.isNaN = false → y.isNaN = false →
      Before (choose x y) x ∧ Before (choose x y) y
  trans : ∀ {x y z}, Before x y → Before y z → Before x z
  antisymm : ∀ {x y}, Before x y → Before y x → (x == y) = true

section Choices

variable {x y : Float}

theorem ne_nan_of_isNaN_eq_false (number : x.isNaN = false) : ofFloat x ≠ .nan := by
  rw [Ne, ← isNaN_iff, number]
  exact Bool.false_ne_true

/-- There is only one double that is not a number. -/
theorem eq_of_isNaN (xNaN : x.isNaN = true) (yNaN : y.isNaN = true) : x = y :=
  ofFloat_injective (((isNaN_iff x).mp xNaN).trans ((isNaN_iff y).mp yNaN).symm)

theorem beq_of_le_of_le (le : x ≤ y) (ge : y ≤ x) : (x == y) = true := by
  obtain ⟨xNumber, yNumber⟩ := ne_nan_of_le le
  have same := le_antisymm ((le_iff_level_le xNumber yNumber).mp le)
    ((le_iff_level_le yNumber xNumber).mp ge)
  rw [beq_iff_order?, order?_eq xNumber yNumber, compare_eq_iff_eq.mpr same]

theorem not_lt_of_isNaN_left (notNumber : x.isNaN = true) : ¬ x < y := by
  intro less
  exact (ne_nan_of_le (Binary64.le_of_lt less)).1 ((isNaN_iff x).mp notNumber)

theorem not_lt_of_isNaN_right (notNumber : y.isNaN = true) : ¬ x < y := by
  intro less
  exact (ne_nan_of_le (Binary64.le_of_lt less)).2 ((isNaN_iff y).mp notNumber)

theorem prefers_lesser : Prefers lesser (· ≤ ·) where
  gives_way notNumber := if_pos notNumber
  keeps {x y} notNumber := by
    unfold lesser
    rw [if_neg (not_lt_of_isNaN_left notNumber)]
    split
    · next neither => exact eq_of_isNaN notNumber neither
    · rfl
  among := lesser_eq_or
  before xNumber yNumber :=
    lesser_le (ne_nan_of_isNaN_eq_false xNumber) (ne_nan_of_isNaN_eq_false yNumber)
  trans := le_of_le_of_le
  antisymm := beq_of_le_of_le

theorem prefers_greater : Prefers greater (· ≥ ·) where
  gives_way notNumber := if_pos notNumber
  keeps {x y} notNumber := by
    unfold greater
    rw [if_neg (not_lt_of_isNaN_right notNumber)]
    split
    · next neither => exact eq_of_isNaN notNumber neither
    · rfl
  among := greater_eq_or
  before xNumber yNumber :=
    le_greater (ne_nan_of_isNaN_eq_false xNumber) (ne_nan_of_isNaN_eq_false yNumber)
  trans low high := le_of_le_of_le high low
  antisymm ge le := beq_of_le_of_le le ge

end Choices

section Scans

variable
  {choose : Float → Float → Float}
  {Before : Float → Float → Prop}
  {values : List Float}
  {extreme : Float}

theorem Prefers.refl (prefers : Prefers choose Before) {x : Float} (number : x.isNaN = false) :
    Before x x := by
  have itself := (prefers.before number number).1
  rwa [(prefers.among x x).elim id id] at itself

/-- The number that stands before all numbers is the extreme. -/
theorem IsExtreme.of_number
    (among : extreme ∈ values)
    (number : extreme.isNaN = false)
    (before : ∀ value ∈ values, value.isNaN = false → Before extreme value) :
    IsExtreme Before values extreme where
  first value member isNumber := ⟨among, number, before value member isNumber⟩
  isNaN_iff := by
    rw [number]
    refine ⟨nofun, fun all => ?_⟩
    rw [all.2 extreme among] at number
    cases number

theorem exists_number (notAll : ¬ ∀ value ∈ values, value.isNaN = true) :
    ∃ value ∈ values, value.isNaN = false := by
  simpa only [not_forall, exists_prop, Bool.not_eq_true] using notAll

theorem isExtreme_singleton (prefers : Prefers choose Before) (value : Float) :
    IsExtreme Before [value] value where
  first := by
    intro other member number
    obtain rfl : other = value := List.mem_singleton.mp member
    exact ⟨member, number, prefers.refl number⟩
  isNaN_iff := by simp

/-- What is not a number adds nothing to the numbers, and is like the others if there are none. -/
theorem IsExtreme.concat_of_isNaN
    (known : IsExtreme Before values extreme)
    (nonempty : values ≠ [])
    {value : Float}
    (notNumber : value.isNaN = true) :
    IsExtreme Before (values ++ [value]) extreme where
  first := by
    intro other member number
    rcases List.mem_append.mp member with earlier | last
    · obtain ⟨among, rest⟩ := known.first other earlier number
      exact ⟨List.mem_append_left _ among, rest⟩
    · rw [List.mem_singleton.mp last, notNumber] at number
      cases number
  isNaN_iff := by
    rw [known.isNaN_iff, List.forall_mem_append, List.forall_mem_singleton,
      and_iff_left notNumber]
    exact and_congr_left fun _ => ⟨fun _ => by simp, fun _ => nonempty⟩

/-- One more value to choose from leaves the extreme of all. -/
theorem IsExtreme.concat
    (known : IsExtreme Before values extreme)
    (prefers : Prefers choose Before)
    (nonempty : values ≠ [])
    (value : Float) :
    IsExtreme Before (values ++ [value]) (choose extreme value) := by
  cases valueNaN : value.isNaN with
  | true =>
      rw [prefers.keeps valueNaN]
      exact known.concat_of_isNaN nonempty valueNaN
  | false =>
      cases extremeNaN : extreme.isNaN with
      | true =>
          -- This is the first number.
          rw [prefers.gives_way extremeNaN]
          refine .of_number (by simp) valueNaN fun other member number => ?_
          rcases List.mem_append.mp member with earlier | last
          · rw [(known.isNaN_iff.mp extremeNaN).2 other earlier] at number
            cases number
          · rw [List.mem_singleton.mp last]
            exact prefers.refl valueNaN
      | false =>
          obtain ⟨beforeExtreme, beforeValue⟩ := prefers.before extremeNaN valueNaN
          have among : extreme ∈ values := by
            obtain ⟨earlier, member, number⟩ := exists_number fun all =>
              absurd (known.isNaN_iff.mpr ⟨nonempty, all⟩) (Bool.eq_false_iff.mp extremeNaN)
            exact (known.first earlier member number).1
          refine .of_number ?_ ?_ fun other member number => ?_
          · rcases prefers.among extreme value with same | same <;> simp [same, among]
          · rcases prefers.among extreme value with same | same <;> rwa [same]
          · rcases List.mem_append.mp member with earlier | last
            · exact prefers.trans beforeExtreme (known.first other earlier number).2.2
            · rw [List.mem_singleton.mp last]
              exact beforeValue

/-- Choosing on and on finds the extreme. -/
theorem isExtreme_foldl (prefers : Prefers choose Before) (first : Float) (rest : List Float) :
    IsExtreme Before (first :: rest) (rest.foldl choose first) := by
  induction rest using List.reverseRecOn with
  | nil => exact isExtreme_singleton prefers first
  | append_singleton rest last ih =>
      rw [List.foldl_concat]
      exact ih.concat prefers (List.cons_ne_nil _ _) last

/-- The order of the values has no part in it. -/
theorem IsExtreme.of_perm
    {permuted : List Float}
    (known : IsExtreme Before values extreme)
    (same : values.Perm permuted) :
    IsExtreme Before permuted extreme where
  first := by
    intro value member number
    obtain ⟨among, rest⟩ := known.first value (same.mem_iff.mpr member) number
    exact ⟨same.mem_iff.mp among, rest⟩
  isNaN_iff := by
    have empty : values = [] ↔ permuted = [] := by
      rw [← List.length_eq_zero_iff, same.length_eq, List.length_eq_zero_iff]
    rw [known.isNaN_iff]
    simp only [Ne, empty, same.mem_iff]

/-- Values have only one extreme, up to the sign of zero. -/
theorem IsExtreme.alike
    {other : Float}
    (known : IsExtreme Before values extreme)
    (otherKnown : IsExtreme Before values other)
    (prefers : Prefers choose Before)
    (nonempty : values ≠ []) :
    Alike extreme other := by
  by_cases all : ∀ value ∈ values, value.isNaN = true
  · exact .inl ⟨known.isNaN_iff.mpr ⟨nonempty, all⟩, otherKnown.isNaN_iff.mpr ⟨nonempty, all⟩⟩
  · obtain ⟨value, member, number⟩ := exists_number all
    obtain ⟨among, isNumber, -⟩ := known.first value member number
    obtain ⟨otherAmong, otherNumber, -⟩ := otherKnown.first value member number
    exact .inr (prefers.antisymm (known.first other otherAmong otherNumber).2.2
      (otherKnown.first extreme among isNumber).2.2)

end Scans

namespace StatisticsOver

variable {values permuted : List Float}

/-- The extremes of statistics are two scans of the values. -/
theorem ofList_cons_extremes (first : Float) (rest : List Float) :
    (ofList (first :: rest)).least = rest.foldl lesser first ∧
      (ofList (first :: rest)).greatest = rest.foldl greater first := by
  induction rest using List.reverseRecOn with
  | nil => exact ⟨rfl, rfl⟩
  | append_singleton rest last ih =>
      have counted : (ofList (first :: rest)).count ≠ 0 := by
        rw [count_ofList]
        exact Nat.succ_ne_zero _
      rw [← List.cons_append, ofList_concat, List.foldl_concat, List.foldl_concat, ← ih.1, ← ih.2,
        push, if_neg counted]
      exact ⟨rfl, rfl⟩

theorem isExtreme_least (values : List Float) :
    IsExtreme (· ≤ ·) values (ofList values).least := by
  cases values with
  | nil => exact ⟨nofun, by decide +kernel⟩
  | cons first rest =>
      rw [(ofList_cons_extremes first rest).1]
      exact isExtreme_foldl prefers_lesser first rest

theorem isExtreme_greatest (values : List Float) :
    IsExtreme (· ≥ ·) values (ofList values).greatest := by
  cases values with
  | nil => exact ⟨nofun, by decide +kernel⟩
  | cons first rest =>
      rw [(ofList_cons_extremes first rest).2]
      exact isExtreme_foldl prefers_greater first rest

/-- The same values in another order have the same extremes. -/
theorem extremes_alike (same : values.Perm permuted) :
    Alike (ofList values).least (ofList permuted).least ∧
      Alike (ofList values).greatest (ofList permuted).greatest := by
  rcases eq_or_ne permuted [] with rfl | nonempty
  · rw [same.eq_nil]
    exact ⟨.inr (by decide +kernel), .inr (by decide +kernel)⟩
  · have least := (isExtreme_least values).of_perm same
    have greatest := (isExtreme_greatest values).of_perm same
    exact ⟨least.alike (isExtreme_least permuted) prefers_lesser nonempty,
      greatest.alike (isExtreme_greatest permuted) prefers_greater nonempty⟩

end StatisticsOver

namespace Store

variable
  {choose : Float → Float → Float}
  {Before : Float → Float → Prop}
  {samples others : List Sample}

/-- The times of the samples, in the order of the slots. -/
def times (store : Store) : List Float :=
  store.toList.map (·.time)

theorem selectTime_eq_none_iff (choose : Float → Float → Float) (samples : List Sample) :
    selectTime choose samples = none ↔ samples = [] := by
  cases samples with
  | nil => exact ⟨fun _ => rfl, fun _ => rfl⟩
  | cons first rest => exact ⟨nofun, nofun⟩

theorem selectTime_toList_eq_none_iff (choose : Float → Float → Float) (store : Store) :
    selectTime choose store.toList = none ↔ store.isEmpty = true := by
  rw [selectTime_eq_none_iff, toList, Array.toList_eq_nil_iff, isEmpty, Array.isEmpty_iff]

/-- What is chosen among the times of samples is their extreme. -/
theorem isExtreme_selectTime
    (prefers : Prefers choose Before)
    {time : Float}
    (chosen : selectTime choose samples = some time) :
    IsExtreme Before (samples.map (·.time)) time := by
  cases samples with
  | nil => cases chosen
  | cons first rest =>
      obtain rfl := Option.some.inj chosen
      rw [List.map_cons, ← List.foldl_map]
      exact isExtreme_foldl prefers first.time (rest.map (·.time))

/-- Samples with the same times, in whatever order, have the same extreme of them. -/
theorem selectTime_alike
    (prefers : Prefers choose Before)
    (same : (samples.map (·.time)).Perm (others.map (·.time))) :
    Option.Rel Alike (selectTime choose samples) (selectTime choose others) := by
  cases otherFound : selectTime choose others with
  | none =>
      obtain rfl := (selectTime_eq_none_iff choose others).mp otherFound
      obtain rfl : samples = [] := List.map_eq_nil_iff.mp same.eq_nil
      exact .none
  | some otherTime =>
      have otherKnown := isExtreme_selectTime prefers otherFound
      have nonempty : others ≠ [] := by
        rintro rfl
        cases otherFound
      cases found : selectTime choose samples with
      | none =>
          obtain rfl := (selectTime_eq_none_iff choose samples).mp found
          exact absurd (List.map_eq_nil_iff.mp same.symm.eq_nil) nonempty
      | some time =>
          have known := (isExtreme_selectTime prefers found).of_perm same
          exact .some (known.alike otherKnown prefers (by simpa using nonempty))

end Store

/--
Whatever doubles have been pushed, the least and the greatest of statistics are the extremes of
them, and up to the sign of zero they are the same in any order.  The same holds of the oldest and
the newest time of a store, which are there unless the store is empty.
-/
theorem extremes_in_any_order :
    (∀ values : List Float,
      IsExtreme (· ≤ ·) values (StatisticsOver.ofList values).least ∧
      IsExtreme (· ≥ ·) values (StatisticsOver.ofList values).greatest ∧
      ∀ permuted, values.Perm permuted →
        Alike (StatisticsOver.ofList values).least (StatisticsOver.ofList permuted).least ∧
        Alike (StatisticsOver.ofList values).greatest (StatisticsOver.ofList permuted).greatest) ∧
    ∀ store : Store,
      (store.status.oldestTime = none ↔ store.isEmpty = true) ∧
      (store.status.newestTime = none ↔ store.isEmpty = true) ∧
      (∀ oldest ∈ store.status.oldestTime, IsExtreme (· ≤ ·) store.times oldest) ∧
      (∀ newest ∈ store.status.newestTime, IsExtreme (· ≥ ·) store.times newest) ∧
      ∀ other : Store, store.times.Perm other.times →
        Option.Rel Alike store.status.oldestTime other.status.oldestTime ∧
        Option.Rel Alike store.status.newestTime other.status.newestTime := by
  refine ⟨fun values => ?_, fun store => ?_⟩
  · exact ⟨StatisticsOver.isExtreme_least values, StatisticsOver.isExtreme_greatest values,
      fun permuted same => StatisticsOver.extremes_alike same⟩
  · refine ⟨store.selectTime_toList_eq_none_iff lesser, store.selectTime_toList_eq_none_iff greater,
      fun oldest found => ?_, fun newest found => ?_, fun other same => ?_⟩
    · exact Store.isExtreme_selectTime prefers_lesser found
    · exact Store.isExtreme_selectTime prefers_greater found
    · exact ⟨Store.selectTime_alike prefers_lesser same,
        Store.selectTime_alike prefers_greater same⟩

/-- Both zeros and what is not a number, first of all and last: the least one is some zero. -/
theorem extremes_of_both_zeros :
    let values : List Float := [0 / 0, 0, 1, -0.0]
    let permuted : List Float := [-0.0, 1, 0, 0 / 0]
    let held (times : List Float) : Store :=
      times.foldl (fun store time => (store.add time .calm 0 5).1) (.empty 4 fun _ _ => 0)
    (values.Perm permuted ∧ (held values).times = values ∧ (held permuted).times = permuted) ∧
    (StatisticsOver.ofList values).least = 0 ∧
    (StatisticsOver.ofList permuted).least = -0.0 ∧
    Alike (StatisticsOver.ofList values).least (StatisticsOver.ofList permuted).least ∧
    (held values).status.oldestTime = some 0 ∧
    (held permuted).status.oldestTime = some (-0.0) ∧
    Option.Rel Alike (held values).status.oldestTime (held permuted).status.oldestTime ∧
    IsExtreme (· ≥ ·) (held values).times 1 := by
  intro values permuted held
  have same : values.Perm permuted := by decide +kernel
  have times : (held values).times = values ∧ (held permuted).times = permuted := by
    decide +kernel
  have newest : (held values).status.newestTime = some 1 := by decide +kernel
  obtain ⟨-, -, -, greatest, anyOrder⟩ := extremes_in_any_order.2 (held values)
  refine ⟨⟨same, times⟩, by decide +kernel, by decide +kernel,
    ((extremes_in_any_order.1 values).2.2 permuted same).1, by decide +kernel, by decide +kernel,
    ?_, greatest 1 newest⟩
  exact (anyOrder (held permuted) (by rwa [times.1, times.2])).1

end WindsAloft
