import Mathlib
import WindsAloft.Statistics

/-!
# Statistics without rounding

Read over rational numbers, running statistics are those of the textbook: the mean is the
sum divided by the count, the variance comes from the squared distances to the mean, and
the extremes are the least and the greatest value.  Each of these depends on the values
alone and not on their order, so neither do the statistics.

The update never sees the earlier values again.  It works because the squared distances
to the mean determine those to any other point, and the new mean is such a point.
-/

namespace WindsAloft

/-- Rational numbers, with which nothing is rounded. -/
instance : Arithmetic ℚ where
  ofCount n := n
  lesser := min
  greater := max

namespace StatisticsOver

section Distances

/-- The sum of the squared distances between values and a point. -/
def squaredDistances (values : List ℚ) (point : ℚ) : ℚ :=
  (values.map fun value => (value - point) ^ 2).sum

variable {values : List ℚ} {mean : ℚ}

theorem squaredDistances_concat (values : List ℚ) (value point : ℚ) :
    squaredDistances (values ++ [value]) point =
      squaredDistances values point + (value - point) ^ 2 := by
  simp [squaredDistances]

theorem squaredDistances_eq (values : List ℚ) (point : ℚ) :
    squaredDistances values point =
      (values.map fun value => value ^ 2).sum - 2 * point * values.sum
        + values.length * point ^ 2 := by
  induction values with
  | nil => simp [squaredDistances]
  | cons value values ih =>
      unfold squaredDistances at ih ⊢
      simp only [List.map_cons, List.sum_cons, List.length_cons, ih]
      push_cast
      ring

/-- Away from the mean, the squared distances grow by that of the mean for each value. -/
theorem squaredDistances_of_mean (isMean : values.length * mean = values.sum) (point : ℚ) :
    squaredDistances values point =
      squaredDistances values mean + values.length * (mean - point) ^ 2 := by
  rw [squaredDistances_eq, squaredDistances_eq]
  linear_combination (-2 * (mean - point)) * isMean

theorem squaredDistances_perm {others : List ℚ} (same : others.Perm values) (point : ℚ) :
    squaredDistances others point = squaredDistances values point :=
  (same.map _).sum_eq

end Distances

/-- The statistics that a textbook gives for some values. -/
structure Summarizes (values : List ℚ) (statistics : StatisticsOver ℚ) : Prop where
  count : statistics.count = values.length
  mean : values.length * statistics.runningMean = values.sum
  squares : statistics.squares = squaredDistances values statistics.runningMean
  least : IsLeast {value | value ∈ values} statistics.least
  greatest : IsGreatest {value | value ∈ values} statistics.greatest

section Summaries

variable {values others : List ℚ} {statistics : StatisticsOver ℚ}

theorem summarizes_singleton (value : ℚ) : Summarizes [value] (empty.push value) where
  count := rfl
  mean := by simp [push, empty]
  squares := by simp [push, empty, squaredDistances, Arithmetic.ofCount]
  least := by simp [push, empty]
  greatest := by simp [push, empty]

theorem push_of_count_ne_zero (counted : statistics.count ≠ 0) (value : ℚ) :
    statistics.push value =
      let mean :=
        statistics.runningMean
          + (value - statistics.runningMean) / ((statistics.count + 1 : ℕ) : ℚ)
      { count := statistics.count + 1
        runningMean := mean
        squares := statistics.squares + (value - statistics.runningMean) * (value - mean)
        least := min statistics.least value
        greatest := max statistics.greatest value } := by
  rw [push, if_neg counted]
  rfl

theorem setOf_mem_concat (values : List ℚ) (value : ℚ) :
    {other | other ∈ values ++ [value]} = {other | other ∈ values} ∪ {value} := by
  ext other
  simp [or_comm]

/-- One more value. -/
theorem Summarizes.push
    (summarizes : Summarizes values statistics)
    (nonempty : values ≠ [])
    (value : ℚ) :
    Summarizes (values ++ [value]) (statistics.push value) := by
  have length : values.length ≠ 0 := mt List.length_eq_zero_iff.mp nonempty
  have divisor : (values.length : ℚ) + 1 ≠ 0 := by positivity
  rw [push_of_count_ne_zero (by rwa [summarizes.count])]
  refine ⟨?_, ?_, ?_, ?_, ?_⟩
  · simp [summarizes.count]
  · have mean := summarizes.mean
    simp only [summarizes.count, List.length_append, List.length_singleton, List.sum_append,
      List.sum_singleton]
    push_cast
    field_simp
    linear_combination mean
  · rw [squaredDistances_concat, squaredDistances_of_mean summarizes.mean, summarizes.squares,
      summarizes.count]
    push_cast
    field_simp
    ring
  · rw [setOf_mem_concat]
    exact summarizes.least.union isLeast_singleton
  · rw [setOf_mem_concat]
    exact summarizes.greatest.union isGreatest_singleton

theorem summarizes_ofList (nonempty : values ≠ []) : Summarizes values (ofList values) := by
  induction values using List.reverseRecOn with
  | nil => exact absurd rfl nonempty
  | append_singleton values value ih =>
      rw [ofList_concat]
      rcases eq_or_ne values [] with rfl | earlier
      · exact summarizes_singleton value
      · exact (ih earlier).push earlier value

theorem Summarizes.of_perm
    (summarizes : Summarizes values statistics)
    (same : others.Perm values) :
    Summarizes others statistics where
  count := by rw [summarizes.count, same.length_eq]
  mean := by rw [same.length_eq, same.sum_eq, summarizes.mean]
  squares := by rw [summarizes.squares, squaredDistances_perm same]
  least := by simpa only [same.mem_iff] using summarizes.least
  greatest := by simpa only [same.mem_iff] using summarizes.greatest

/-- Textbook statistics are determined by the values. -/
theorem Summarizes.unique
    {other : StatisticsOver ℚ}
    (nonempty : values ≠ [])
    (summarizes : Summarizes values statistics)
    (otherwise : Summarizes values other) :
    statistics = other := by
  have length : (values.length : ℚ) ≠ 0 :=
    Nat.cast_ne_zero.mpr (mt List.length_eq_zero_iff.mp nonempty)
  have mean : statistics.runningMean = other.runningMean :=
    mul_left_cancel₀ length (summarizes.mean.trans otherwise.mean.symm)
  have count := summarizes.count.trans otherwise.count.symm
  have squares : statistics.squares = other.squares := by
    rw [summarizes.squares, otherwise.squares, mean]
  have least := summarizes.least.unique otherwise.least
  have greatest := summarizes.greatest.unique otherwise.greatest
  cases statistics
  cases other
  simp_all

/-- The order in which values are pushed does not matter. -/
theorem ofList_perm (same : others.Perm values) : ofList others = ofList values := by
  rcases eq_or_ne values [] with rfl | nonempty
  · rw [same.eq_nil]
  · have nonempty' : others ≠ [] := mt (fun nil => by rwa [nil, List.nil_perm] at same) nonempty
    exact ((summarizes_ofList nonempty').of_perm same.symm).unique nonempty
      (summarizes_ofList nonempty)

end Summaries

/--
Whatever is pushed, the count is the number of values, the mean times the count is their
sum, the variance is the sum of the squared distances to the mean divided by one less than
the count, and the extremes are the least and the greatest value.  Another order leads to
the same statistics.
-/
theorem ofList_textbook (values : List ℚ) :
    (ofList values).count = values.length ∧
    values.length * (ofList values).mean = values.sum ∧
    (ofList values).variance =
      (if values.length < 2 then 0
      else squaredDistances values (ofList values).mean / ((values.length : ℚ) - 1)) ∧
    (values ≠ [] →
      IsLeast {value | value ∈ values} (ofList values).least ∧
        IsGreatest {value | value ∈ values} (ofList values).greatest) ∧
    ∀ others : List ℚ, others.Perm values → ofList others = ofList values := by
  rcases eq_or_ne values [] with rfl | nonempty
  · exact ⟨rfl, by simp, rfl, fun nonempty => absurd rfl nonempty, fun _ => ofList_perm⟩
  have summarizes := summarizes_ofList nonempty
  have length : values.length ≠ 0 := mt List.length_eq_zero_iff.mp nonempty
  have mean : (ofList values).mean = (ofList values).runningMean :=
    if_neg (by rwa [summarizes.count])
  refine ⟨summarizes.count, ?_, ?_, fun _ => ⟨summarizes.least, summarizes.greatest⟩,
    fun _ => ofList_perm⟩
  · rw [mean, summarizes.mean]
  · rw [variance, summarizes.count, mean]
    split
    · rfl
    · next several =>
        have divisor : (Arithmetic.ofCount (values.length - 1) : ℚ) = values.length - 1 :=
          Nat.cast_pred (by omega)
        rw [summarizes.squares, divisor]

/-- Eight values, also the other way round. -/
theorem textbook_of_eight :
    let values : List ℚ := [2, 4, 4, 4, 5, 5, 7, 9]
    let statistics := ofList values
    statistics.count = 8 ∧ statistics.mean = 5 ∧ statistics.variance = 32 / 7 ∧
      statistics.least = 2 ∧ statistics.greatest = 9 ∧ ofList values.reverse = statistics := by
  intro values statistics
  obtain ⟨count, sum, variance, extremes, order⟩ := ofList_textbook values
  obtain ⟨least, greatest⟩ := extremes (by simp [values])
  have mean : statistics.mean = 5 := by
    have total : values.sum = 40 := by norm_num [values]
    have eight : (values.length : ℚ) = 8 := by norm_num [values]
    rw [total, eight] at sum
    linarith
  have isLeast : IsLeast {value | value ∈ values} 2 := by
    norm_num [values, IsLeast, lowerBounds]
  have isGreatest : IsGreatest {value | value ∈ values} 9 := by
    norm_num [values, IsGreatest, upperBounds]
  refine ⟨count, mean, ?_, least.unique isLeast, greatest.unique isGreatest,
    order _ values.reverse_perm⟩
  rw [variance, mean]
  norm_num [values, squaredDistances]

end StatisticsOver
end WindsAloft
