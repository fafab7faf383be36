import WindsAloft.Proofs.Binary64.Steps
import WindsAloft.Statistics

/-!
# Statistics in double arithmetic

Every figure of running statistics is rounded, some of them several times, and still the
statistics of values within `2 ^ 1022` do not go astray.  A new mean lies between the old
one and the new value, so that the extremes enclose it, and the two deviations that are
multiplied have one sign, so that the sum of squares only grows.  Its quotient by a count
is not negative then, and the root of that is a number.

Within `2 ^ 1022` a difference of two values is still finite.  The sum of squares need not
be; it may become infinite, which is neither below zero nor what is not a number.
-/

namespace WindsAloft
namespace StatisticsOver

open Binary64

attribute [local irreducible] unit overflow

/-- Statistics with the mean between the extremes and a sum of squares that is not below zero. -/
structure Orderly (j : ℕ) (statistics : Statistics) : Prop where
  counted : statistics.count ≠ 0
  within : Within j statistics.runningMean
  least : statistics.least ≤ statistics.runningMean
  greatest : statistics.runningMean ≤ statistics.greatest
  squares : 0 ≤ statistics.squares

section Runs

variable {j : ℕ} {statistics : Statistics} {value : Float} {before : List Float}

theorem orderly_singleton (within : Within j value) : Orderly j (empty.push value) := by
  obtain ⟨a, given, -⟩ := id within
  have itself : value ≤ value := le_self (ne_nan_of_quanta? given)
  exact ⟨Nat.one_ne_zero, within, itself, itself, le_self (ne_nan_of_quanta? quanta?_zero)⟩

/-- One more value keeps the statistics orderly and takes nothing from the sum of squares. -/
theorem Orderly.push
    (orderly : Orderly j statistics)
    (within : Within j value)
    (small : j + 1 < 1024) :
    Orderly j (statistics.push value) ∧ statistics.squares ≤ (statistics.push value).squares := by
  obtain ⟨a, given, -⟩ := id within
  obtain ⟨b, mean, -⟩ := id orderly.within
  obtain ⟨d, difference, -⟩ := within.sub orderly.within small
  have several : 2 ≤ statistics.count + 1 := by
    have := orderly.counted
    omega
  obtain ⟨c, moved, between⟩ := exists_quanta?_step given mean difference several
  have growth := zero_le_mul_sub_step given mean moved between difference
  have grown := le_add_of_nonneg orderly.squares growth
  rw [StatisticsOver.push, if_neg orderly.counted]
  refine ⟨?_, grown⟩
  exact
    { counted := Nat.succ_ne_zero _
      within := within_of_mem orderly.within within mean given moved between
      least := lesser_le_of_mem orderly.least given mean moved between
      greatest := le_greater_of_mem orderly.greatest given mean moved between
      squares := le_of_le_of_le orderly.squares grown }

/-- A run over any values but none leaves orderly statistics. -/
theorem orderly_ofList
    (nonempty : before ≠ [])
    (within : ∀ value ∈ before, Within j value)
    (small : j + 1 < 1024) :
    Orderly j (ofList before) := by
  induction before using List.reverseRecOn with
  | nil => exact absurd rfl nonempty
  | append_singleton before value ih =>
      have last : Within j value := within value (by simp)
      rw [ofList_concat]
      rcases eq_or_ne before [] with rfl | earlier
      · exact orderly_singleton last
      · exact ((ih earlier fun value member => within value (by simp [member])).push last small).1

/-- The last value of a run takes nothing from the sum of squares. -/
theorem squares_le_squares_concat
    {last : Float}
    (within : ∀ value ∈ before ++ [last], Within j value)
    (small : j + 1 < 1024) :
    (ofList before).squares ≤ (ofList (before ++ [last])).squares := by
  have lastWithin : Within j last := within last (by simp)
  rw [ofList_concat]
  rcases eq_or_ne before [] with rfl | earlier
  · exact (orderly_singleton lastWithin).squares
  · exact ((orderly_ofList earlier (fun value member => within value (by simp [member]))
      small).push lastWithin small).2

end Runs

/-- The variance is not below zero as long as what it is divided by is finite. -/
theorem zero_le_variance
    {j : ℕ}
    {statistics : Statistics}
    (squares : 0 ≤ statistics.squares)
    (divisor : Within j (ofCount (statistics.count - 1))) :
    0 ≤ statistics.variance := by
  unfold variance
  split
  · exact le_self (ne_nan_of_quanta? quanta?_zero)
  · next several =>
      obtain ⟨c, value, positive⟩ := exists_quanta?_ofCount (by omega) divisor
      exact zero_le_div squares value positive

theorem count_ofList {α : Type} [Arithmetic α] (values : List α) :
    (ofList values).count = values.length := by
  induction values using List.reverseRecOn with
  | nil => rfl
  | append_singleton values value ih =>
      rw [ofList_concat, count_push, ih, List.length_append, List.length_singleton]

/--
Each 32-bit integer and each count is a double within `2 ^ 1022`.  Whatever doubles within
`2 ^ 1022` have been pushed, of which one is the last, the mean lies between the extremes,
the last value has taken nothing from the sum of squares, and that is not below zero.  As
long as the values can be counted in doubles, which goes far beyond the 64 bits of a
counter, the variance is not below zero and the deviation is a number.
-/
theorem ofList_orderly :
    (∀ n : Int32, Within 1022 (ofInt32 n)) ∧
    (∀ n ≤ Nat.pow 2 1022, Within 1022 (ofCount n)) ∧
    ∀ (before : List Float) (last : Float), (∀ value ∈ before ++ [last], Within 1022 value) →
      let statistics : Statistics := ofList (before ++ [last])
      statistics.least ≤ statistics.mean ∧
      statistics.mean ≤ statistics.greatest ∧
      (ofList before).squares ≤ statistics.squares ∧
      0 ≤ statistics.squares ∧
      (before.length ≤ Nat.pow 2 1022 →
        0 ≤ statistics.variance ∧ statistics.deviation.isNaN = false) := by
  have counts : ∀ n ≤ Nat.pow 2 1022, Within 1022 (ofCount n) := by
    -- The exponent becomes a variable, or the power would be computed.
    have small : 1022 < 1024 := by norm_num
    generalize 1022 = j at small ⊢
    exact fun n le => within_ofCount le small
  refine ⟨fun n => (within_ofInt32 n).mono (by norm_num), counts, ?_⟩
  intro before last within statistics
  have orderly : Orderly 1022 statistics := orderly_ofList (by simp) within (by norm_num)
  have mean : statistics.mean = statistics.runningMean := if_neg orderly.counted
  rw [mean]
  refine ⟨orderly.least, orderly.greatest, squares_le_squares_concat within (by norm_num),
    orderly.squares, fun countable => ?_⟩
  have count : statistics.count - 1 = before.length := by
    show (ofList (before ++ [last])).count - 1 = before.length
    rw [count_ofList, List.length_append, List.length_singleton, Nat.add_sub_cancel]
  have divisor : Within 1022 (ofCount (statistics.count - 1)) := by
    rw [count]
    exact counts before.length countable
  have variance : 0 ≤ statistics.variance := zero_le_variance orderly.squares divisor
  exact ⟨variance, isNaN_sqrt_eq_false variance⟩

/-- Even where the sum of squares is infinite. -/
theorem orderly_of_opposite_ends :
    let before : List Float := [4.49423283715578e307, -4.49423283715578e307, 5e-324]
    let statistics : Statistics := ofList (before ++ [-0.0])
    ofFloat statistics.squares = .infinite false ∧
    statistics.least ≤ statistics.mean ∧
    statistics.mean ≤ statistics.greatest ∧
    (ofList before).squares ≤ statistics.squares ∧
    0 ≤ statistics.variance ∧
    statistics.deviation.isNaN = false := by
  intro before statistics
  have within : ∀ value ∈ before ++ [-0.0], Within 1022 value := by decide +kernel
  obtain ⟨lower, upper, grown, -, figures⟩ := ofList_orderly.2.2 before (-0.0) within
  exact ⟨by decide +kernel, lower, upper, grown, figures (by decide +kernel)⟩

end StatisticsOver
end WindsAloft
