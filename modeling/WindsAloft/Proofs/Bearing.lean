import WindsAloft.Proofs.Binary64.Distances
import WindsAloft.Wind

/-!
# The range of a bearing

A bearing is an arc tangent in degrees, turned by a full circle where it is below zero.  It is
never below zero, but the turn is an addition in double arithmetic: an angle that is only slightly
below zero is lost in it, and what is left is the full circle itself.  The angles for which this
happens are those from `-2 ^ (-45)` degrees on, half the distance of the doubles below 360.

Of the arc tangent no more is used than that it is within half a circle either way, has the sign
of its first argument, and is about the quotient of its arguments near north.
-/

namespace WindsAloft
namespace Wind

open Binary64

attribute [local irreducible] unit overflow

/-- The double nearest to half a circle in radians. -/
def halfTurn : Float := 3.14159265358979323846264338327950288

/-- What is taken for granted of an arc tangent of two arguments, for finite ones. -/
structure IsArcTangent (arcTangent : Float → Float → Float) : Prop where
  within :
    ∀ {x y}, x.isFinite = true → y.isFinite = true →
      -halfTurn ≤ arcTangent x y ∧ arcTangent x y ≤ halfTurn
  sign :
    ∀ {x y}, x.isFinite = true → y.isFinite = true →
      (ofFloat (arcTangent x y)).signBit = (ofFloat x).signBit
  /-- Near north an angle is about its tangent. -/
  slope :
    ∀ {x y}, x.isFinite = true → y.isFinite = true →
      0 < y → 1e-300 ≤ (x / y).abs → (x / y).abs ≤ 1e-8 →
        0.5 * (x / y).abs ≤ (arcTangent x y).abs ∧ (arcTangent x y).abs ≤ 2 * (x / y).abs

/-- What becomes of single doubles: the ends of the ranges that angles are followed through. -/
structure Landmarks : Prop where
  finite :
    halfTurn.isFinite = true ∧ (1e-300 : Float).isFinite = true ∧
      (2.220446049250313e-16 : Float).isFinite = true ∧ (5e-301 : Float).isFinite = true ∧
      (4.440892098500626e-16 : Float).isFinite = true
  degree :
    (180 / 3.14159265358979323846264338327950288 : Float).isFinite = true ∧
      0 ≤ (180 / 3.14159265358979323846264338327950288 : Float)
  half : quanta? 180 = some (180 * unit) ∧ 0 ≤ (180 : Float)
  circle : quanta? 360 = some (360 * unit) ∧ (180 : Float) ≤ 360 ∧ ¬ (360 : Float) ≤ 180
  inDegrees : toDegrees (-halfTurn) = -180 ∧ toDegrees halfTurn = 180
  turned : (-180 : Float) + 360 = 180 ∧ (0 : Float) + 360 = 360
  /-- The last angle that is lost in a full circle, `-2 ^ (-45)`, and the first that is not. -/
  lost :
    (-2.842170943040401e-14 : Float) + 360 = 360 ∧
      ¬ 360 ≤ (-2.8421709430404014e-14 : Float) + 360
  factors : (0.5 : Float) ≤ 1 ∧ (1 : Float) ≤ 2
  /-- Slopes near north, and the bounds of the angles that they leave. -/
  slopes :
    (0 : Float) < 1e-300 ∧ (2.220446049250313e-16 : Float) ≤ 1e-8 ∧
      (5e-301 : Float) ≤ 0.5 * 1e-300 ∧
      2 * 2.220446049250313e-16 ≤ (4.440892098500626e-16 : Float)
  slight :
    ¬ (0 : Float) ≤ -1e-300 ∧ ¬ 0 ≤ toDegrees (-5e-301) ∧
      -2.842170943040401e-14 ≤ toDegrees (-4.440892098500626e-16)

theorem landmarks : Landmarks := by
  constructor <;> decide +kernel

section Angles

variable {x y : Float} {a b : ℤ}

theorem exists_quanta?_degree :
    ∃ c, quanta? (180 / 3.14159265358979323846264338327950288) = some c ∧ 0 ≤ c := by
  have marks := landmarks
  obtain ⟨finite, positive⟩ := marks.degree
  obtain ⟨c, value⟩ := (isFinite_iff _).mp finite
  exact ⟨c, value, (le_iff_quanta_le quanta?_zero value).mp positive⟩

theorem toDegrees_mono
    (left : quanta? x = some a)
    (right : quanta? y = some b)
    (le : x ≤ y) :
    toDegrees x ≤ toDegrees y := by
  obtain ⟨c, value, nonnegative⟩ := exists_quanta?_degree
  exact mul_le_mul_finite left right ((le_iff_quanta_le left right).mp le) value nonnegative

end Angles

section Turns

variable {degrees : Float} {a : ℤ}

/-- Both sides of the edge as powers of two. -/
theorem exists_quanta?_edge :
    ∃ k, quanta? 2.842170943040401e-14 = some ((2 ^ (52 + k) : ℕ) : ℤ) ∧
      quanta? 2.8421709430404014e-14 = some ((2 ^ (52 + k) + 2 ^ k : ℕ) : ℤ) := by
  obtain ⟨k, rest⟩ : ∃ k, k = 977 := ⟨_, rfl⟩
  have edge :
      quanta? 2.842170943040401e-14 = some (Nat.pow 2 (52 + k) : ℕ) ∧
        quanta? 2.8421709430404014e-14 = some ((Nat.pow 2 (52 + k) + Nat.pow 2 k : ℕ) : ℤ) := by
    subst rest
    decide +kernel
  exact ⟨k, edge⟩

/-- There is no double between the two. -/
theorem le_of_lt_edge
    (value : quanta? degrees = some a)
    (below : degrees < -2.842170943040401e-14) :
    degrees ≤ -2.8421709430404014e-14 := by
  obtain ⟨k, edge, next⟩ := exists_quanta?_edge
  rw [lt_iff_quanta_lt value (quanta?_neg edge)] at below
  rw [le_iff_quanta_le value (quanta?_neg next)]
  have positive : 0 < ((2 ^ (52 + k) : ℕ) : ℤ) := by positivity
  have above : 2 ^ (52 + k) < a.natAbs := by omega
  have apart : 2 ^ (52 + k) + 2 ^ k ≤ a.natAbs :=
    (isDouble_of_quanta? value).1.add_pow_le_of_lt (pow_dvd_pow 2 (by omega)) le_rfl above
  omega

/-- A full circle takes an angle below zero up to at most itself, and to itself from the edge on. -/
theorem add_circle_mem
    (value : quanta? degrees = some a)
    (low : -180 ≤ degrees)
    (negative : degrees < 0) :
    180 ≤ degrees + 360 ∧ degrees + 360 ≤ 360 ∧
      (degrees + 360 < 360 ↔ ¬ -2.842170943040401e-14 ≤ degrees) := by
  have marks := landmarks
  have turned {x y : Float} (le : x ≤ y) : x + 360 ≤ y + 360 :=
    add_le_add_finite le marks.circle.1
  obtain ⟨least, greatest⟩ := marks.turned
  obtain ⟨lost, kept⟩ := marks.lost
  have lower := turned low
  have upper := turned (le_of_lt negative)
  rw [least] at lower
  rw [greatest] at upper
  refine ⟨lower, upper, ?_⟩
  obtain ⟨k, edge, -⟩ := exists_quanta?_edge
  rw [lt_iff_not_le (ne_nan_of_le upper).1 (ne_nan_of_le upper).2, not_iff_not]
  constructor
  · intro full
    refine le_of_not_lt (ne_nan_of_quanta? value) (quanta?_neg edge) fun below => ?_
    exact kept (le_of_le_of_le full (turned (le_of_lt_edge value below)))
  · intro slight
    have := turned slight
    rwa [lost] at this

theorem ofNorth_of_neg (negative : degrees < 0) : ofNorth degrees = degrees + 360 :=
  if_pos negative

theorem ofNorth_of_nonneg (nonnegative : 0 ≤ degrees) : ofNorth degrees = degrees := by
  obtain ⟨zeroNumber, number⟩ := ne_nan_of_le nonnegative
  exact if_neg ((le_iff_not_lt zeroNumber number).mp nonnegative)

/-- What turning away angles below zero leaves of those within half a circle. -/
theorem ofNorth_mem (low : -180 ≤ degrees) (high : degrees ≤ 180) :
    0 ≤ ofNorth degrees ∧ ofNorth degrees ≤ 360 ∧
      (ofNorth degrees < 360 ↔ ¬ (-2.842170943040401e-14 ≤ degrees ∧ degrees < 0)) ∧
      (degrees < 0 → 180 ≤ ofNorth degrees) := by
  have marks := landmarks
  obtain ⟨half, positive⟩ := marks.half
  obtain ⟨-, order, beyond⟩ := marks.circle
  obtain ⟨a, value, -⟩ := exists_quanta?_of_mem low high (quanta?_neg half) half
  by_cases negative : degrees < 0
  · obtain ⟨lower, upper, below⟩ := add_circle_mem value low negative
    rw [ofNorth_of_neg negative, and_iff_left negative]
    exact ⟨le_of_le_of_le positive lower, upper, below, fun _ => lower⟩
  · have nonnegative : 0 ≤ degrees := le_of_not_lt (ne_nan_of_quanta? value) quanta?_zero negative
    have upper : degrees ≤ 360 := le_of_le_of_le high order
    rw [ofNorth_of_nonneg nonnegative]
    refine ⟨nonnegative, upper, ?_, fun below => absurd below negative⟩
    rw [lt_iff_not_le (ne_nan_of_le upper).1 (ne_nan_of_le upper).2]
    exact ⟨fun _ edge => negative edge.2, fun _ full => beyond (le_of_le_of_le full high)⟩

/-- What is neither above a full circle nor below one is a full circle. -/
theorem eq_circle (upper : degrees ≤ 360) (notBelow : ¬ degrees < 360) : degrees = 360 := by
  have marks := landmarks
  have circle := marks.circle.1
  have one : 0 < (unit : ℤ) := unit_pos_int
  obtain ⟨number, circleNumber⟩ := ne_nan_of_le upper
  have lower := (le_iff_not_lt circleNumber number).mpr notBelow
  obtain ⟨a, value, least, greatest⟩ := exists_quanta?_of_mem lower upper circle circle
  obtain rfl := le_antisymm greatest least
  exact eq_of_quanta?_eq value circle (by omega)

end Turns

section Signs

variable {x y low high : Float} {a b c : ℤ}

/-- Bounds of the magnitude of what is not above zero. -/
theorem abs_mem_iff
    (value : quanta? x = some a)
    (nonpositive : a ≤ 0)
    (lowValue : quanta? low = some b)
    (highValue : quanta? high = some c) :
    (low ≤ x.abs ∧ x.abs ≤ high) ↔ (-high ≤ x ∧ x ≤ -low) := by
  have magnitude : quanta? x.abs = some |a| := by
    rw [quanta?_abs, value, Option.map_some]
  rw [le_iff_quanta_le lowValue magnitude, le_iff_quanta_le magnitude highValue,
    le_iff_quanta_le (quanta?_neg highValue) value, le_iff_quanta_le value (quanta?_neg lowValue),
    abs_of_nonpos nonpositive]
  omega

/-- Only what has a minus sign has a quotient below zero by what is above it. -/
theorem signBit_of_div_neg
    (left : quanta? x = some a)
    (right : quanta? y = some b)
    (above : 0 < y)
    (negative : ¬ 0 ≤ x / y) :
    (ofFloat x).signBit = true := by
  by_contra plus
  have nonnegative := nonneg_of_signBit left (Bool.eq_false_iff.mpr plus)
  exact negative (zero_le_div ((le_iff_quanta_le quanta?_zero left).mpr nonnegative) right
    ((lt_iff_quanta_lt quanta?_zero right).mp above))

theorem half_abs_le_double_abs (value : quanta? x = some a) :
    0.5 * x.abs ≤ x.abs ∧ x.abs ≤ 2 * x.abs := by
  have marks := landmarks
  have magnitude : quanta? x.abs = some |a| := by
    rw [quanta?_abs, value, Option.map_some]
  have once : quanta? (1 * x.abs) = some |a| := quanta?_one_mul quanta?_one magnitude
  obtain ⟨halves, doubles⟩ := marks.factors
  have less := mul_le_mul_finite quanta?_half quanta?_one
    ((le_iff_quanta_le quanta?_half quanta?_one).mp halves) magnitude (abs_nonneg a)
  have more := mul_le_mul_finite quanta?_one quanta?_two
    ((le_iff_quanta_le quanta?_one quanta?_two).mp doubles) magnitude (abs_nonneg a)
  exact ⟨le_of_le_of_le less ((le_iff_quanta_le once magnitude).mpr le_rfl),
    le_of_le_of_le ((le_iff_quanta_le magnitude once).mpr le_rfl) more⟩

end Signs

namespace IsArcTangent

variable {arcTangent : Float → Float → Float} {x y : Float}

theorem exists_quanta?
    (known : IsArcTangent arcTangent)
    (xFinite : x.isFinite = true)
    (yFinite : y.isFinite = true) :
    ∃ a, quanta? (arcTangent x y) = some a := by
  have marks := landmarks
  obtain ⟨p, half⟩ := (isFinite_iff halfTurn).mp marks.finite.1
  obtain ⟨lower, upper⟩ := known.within xFinite yFinite
  obtain ⟨a, value, -⟩ := exists_quanta?_of_mem lower upper (quanta?_neg half) half
  exact ⟨a, value⟩

theorem degrees_mem
    (known : IsArcTangent arcTangent)
    (xFinite : x.isFinite = true)
    (yFinite : y.isFinite = true) :
    -180 ≤ toDegrees (arcTangent x y) ∧ toDegrees (arcTangent x y) ≤ 180 := by
  have marks := landmarks
  obtain ⟨p, half⟩ := (isFinite_iff halfTurn).mp marks.finite.1
  obtain ⟨a, value⟩ := known.exists_quanta? xFinite yFinite
  obtain ⟨lower, upper⟩ := known.within xFinite yFinite
  obtain ⟨least, greatest⟩ := marks.inDegrees
  exact ⟨least ▸ toDegrees_mono (quanta?_neg half) value lower,
    greatest ▸ toDegrees_mono value half upper⟩

/-- East of the meridian no angle is below zero. -/
theorem zero_le_degrees
    (known : IsArcTangent arcTangent)
    (xFinite : x.isFinite = true)
    (yFinite : y.isFinite = true)
    (east : (ofFloat x).signBit = false) :
    0 ≤ toDegrees (arcTangent x y) := by
  obtain ⟨a, value⟩ := known.exists_quanta? xFinite yFinite
  obtain ⟨c, degree, nonnegative⟩ := exists_quanta?_degree
  have angle := nonneg_of_signBit value ((known.sign xFinite yFinite).trans east)
  exact zero_le_mul_finite value angle degree nonnegative

/-- Slightly west of north the angle is slightly below zero. -/
theorem angle_mem
    (known : IsArcTangent arcTangent)
    (xFinite : x.isFinite = true)
    (yFinite : y.isFinite = true)
    (north : 0 < y)
    (least : -2.220446049250313e-16 ≤ x / y)
    (most : x / y ≤ -1e-300) :
    -4.440892098500626e-16 ≤ arcTangent x y ∧ arcTangent x y ≤ -5e-301 := by
  have marks := landmarks
  obtain ⟨b, xValue⟩ := (isFinite_iff x).mp xFinite
  obtain ⟨c, yValue⟩ := (isFinite_iff y).mp yFinite
  obtain ⟨-, smallFinite, largeFinite, halfFinite, doubleFinite⟩ := marks.finite
  obtain ⟨m, small⟩ := (isFinite_iff 1e-300).mp smallFinite
  obtain ⟨n, large⟩ := (isFinite_iff 2.220446049250313e-16).mp largeFinite
  obtain ⟨m', half⟩ := (isFinite_iff 5e-301).mp halfFinite
  obtain ⟨n', double⟩ := (isFinite_iff 4.440892098500626e-16).mp doubleFinite
  obtain ⟨apart, flat, halves, doubles⟩ := marks.slopes
  -- First the quotient: its magnitude has the bounds from which that of the angle follows.
  obtain ⟨q, quotient, -, upper⟩ :=
    exists_quanta?_of_mem least most (quanta?_neg large) (quanta?_neg small)
  have magnitude : quanta? (x / y).abs = some |q| := by
    rw [quanta?_abs, quotient, Option.map_some]
  have positive : 0 < m := (lt_iff_quanta_lt quanta?_zero small).mp apart
  obtain ⟨far, close⟩ := (abs_mem_iff quotient (by omega) small large).mpr ⟨least, most⟩
  obtain ⟨above, below⟩ :=
    known.slope xFinite yFinite north far (le_of_le_of_le close flat)
  have halved := mul_le_mul_left_finite small magnitude
    ((le_iff_quanta_le small magnitude).mp far) quanta?_half (Int.natCast_nonneg _)
  have doubled := mul_le_mul_left_finite magnitude large
    ((le_iff_quanta_le magnitude large).mp close) quanta?_two (by positivity)
  -- Then the angle, which has the sign of the quotient.
  obtain ⟨a, value⟩ := known.exists_quanta? xFinite yFinite
  have west := signBit_of_div_neg xValue yValue north fun nonnegative =>
    marks.slight.1 (le_of_le_of_le nonnegative most)
  have angle := nonpos_of_signBit value ((known.sign xFinite yFinite).trans west)
  exact (abs_mem_iff value angle half double).mp
    ⟨le_of_le_of_le halves (le_of_le_of_le halved above),
      le_of_le_of_le below (le_of_le_of_le doubled doubles)⟩

/-- So it is lost in a full circle. -/
theorem degrees_lost
    (known : IsArcTangent arcTangent)
    (xFinite : x.isFinite = true)
    (yFinite : y.isFinite = true)
    (north : 0 < y)
    (least : -2.220446049250313e-16 ≤ x / y)
    (most : x / y ≤ -1e-300) :
    -2.842170943040401e-14 ≤ toDegrees (arcTangent x y) ∧ toDegrees (arcTangent x y) < 0 := by
  have marks := landmarks
  obtain ⟨-, -, -, smallFinite, largeFinite⟩ := marks.finite
  obtain ⟨m, small⟩ := (isFinite_iff 5e-301).mp smallFinite
  obtain ⟨n, large⟩ := (isFinite_iff 4.440892098500626e-16).mp largeFinite
  obtain ⟨-, below, above⟩ := marks.slight
  obtain ⟨a, value⟩ := known.exists_quanta? xFinite yFinite
  obtain ⟨lower, upper⟩ := known.angle_mem xFinite yFinite north least most
  have first := toDegrees_mono (quanta?_neg large) value lower
  have last := toDegrees_mono value (quanta?_neg small) upper
  refine ⟨le_of_le_of_le above first, ?_⟩
  rw [lt_iff_not_le (ne_nan_of_le last).1 (ne_nan_of_quanta? quanta?_zero)]
  exact fun notBelow => below (le_of_le_of_le notBelow last)

end IsArcTangent

/--
The bearing of a finite wind is never below zero nor above 360.  It is below 360 unless the angle
is below zero by at most `2 ^ (-45)` degrees.  East of the meridian, where a positive zero belongs,
it is at most 180, and for angles below zero it is at least 180.  Slightly west of north it is 360.
-/
theorem bearingBy_range
    {arcTangent : Float → Float → Float}
    (known : IsArcTangent arcTangent)
    (wind : Wind)
    (xFinite : wind.x.isFinite = true)
    (yFinite : wind.y.isFinite = true) :
    let degrees := toDegrees (arcTangent wind.x wind.y)
    let bearing := wind.bearingBy arcTangent
    0 ≤ bearing ∧
    bearing ≤ 360 ∧
    (bearing < 360 ↔ ¬ (-2.842170943040401e-14 ≤ degrees ∧ degrees < 0)) ∧
    ((ofFloat wind.x).signBit = false → bearing ≤ 180) ∧
    (degrees < 0 → 180 ≤ bearing) ∧
    (0 < wind.y → -2.220446049250313e-16 ≤ wind.x / wind.y → wind.x / wind.y ≤ -1e-300 →
      bearing = 360) := by
  intro degrees bearing
  obtain ⟨low, high⟩ := known.degrees_mem xFinite yFinite
  obtain ⟨lower, upper, below, turned⟩ := ofNorth_mem low high
  refine ⟨lower, upper, below, fun east => ?_, turned, fun north least most => ?_⟩
  · exact (ofNorth_of_nonneg (known.zero_le_degrees xFinite yFinite east)).trans_le high
  · have lost := known.degrees_lost xFinite yFinite north least most
    exact eq_circle upper fun less => below.mp less lost

/-- A coarse arc tangent: the quotient near north, and a right angle elsewhere. -/
def coarseArcTangent (x y : Float) : Float :=
  if 0 < y ∧ (x / y).abs ≤ 1e-8 then x / y
  else if (ofFloat x).signBit then -1.5707963267948966
  else 1.5707963267948966

theorem isArcTangent_coarse : IsArcTangent coarseArcTangent := by
  obtain ⟨m, small⟩ := (isFinite_iff 1e-8).mp (by decide +kernel)
  refine ⟨fun {x y} xFinite yFinite => ?_, fun {x y} xFinite yFinite => ?_,
    fun {x y} xFinite yFinite north least most => ?_⟩
  · unfold coarseArcTangent
    split
    · next near =>
        obtain ⟨q, value, bound⟩ := exists_quanta?_of_abs_le near.2 small
        obtain ⟨lower, upper⟩ := abs_le.mp bound
        exact ⟨le_of_le_of_le (by decide +kernel)
            ((le_iff_quanta_le (quanta?_neg small) value).mpr lower),
          le_of_le_of_le ((le_iff_quanta_le value small).mpr upper) (by decide +kernel)⟩
    · split <;> decide +kernel
  · unfold coarseArcTangent
    split
    · next near =>
        obtain ⟨a, left⟩ := (isFinite_iff x).mp xFinite
        obtain ⟨b, right⟩ := (isFinite_iff y).mp yFinite
        exact signBit_div_of_pos left right ((lt_iff_quanta_lt quanta?_zero right).mp near.1)
    · split
      · next west => rw [west]; decide +kernel
      · next east => rw [Bool.eq_false_iff.mpr east]; decide +kernel
  · have same : coarseArcTangent x y = x / y := if_pos ⟨north, most⟩
    obtain ⟨q, value, -⟩ := exists_quanta?_of_abs_le most small
    rw [same]
    exact half_abs_le_double_abs value

/-- A wind that blows north and the slightest bit west has a bearing of a full circle. -/
theorem bearingBy_slightly_west :
    let wind : Wind := ⟨-1e-20, 1⟩
    (IsArcTangent coarseArcTangent ∧ wind.x.isFinite = true ∧ wind.y.isFinite = true) ∧
    coarseArcTangent wind.x wind.y = -1e-20 ∧
    toDegrees (coarseArcTangent wind.x wind.y) < 0 ∧
    wind.bearingBy coarseArcTangent = 360 ∧
    ¬ wind.bearingBy coarseArcTangent < 360 := by
  intro wind
  have finite : wind.x.isFinite = true ∧ wind.y.isFinite = true := by decide +kernel
  have lost : -2.842170943040401e-14 ≤ toDegrees (coarseArcTangent wind.x wind.y) ∧
      toDegrees (coarseArcTangent wind.x wind.y) < 0 := by
    decide +kernel
  obtain ⟨-, -, below, -, -, north⟩ :=
    bearingBy_range isArcTangent_coarse wind finite.1 finite.2
  exact ⟨⟨isArcTangent_coarse, finite⟩, by decide +kernel, lost.2,
    north (by decide +kernel) (by decide +kernel) (by decide +kernel),
    fun less => below.mp less lost⟩

end Wind
end WindsAloft
