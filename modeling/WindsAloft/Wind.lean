import WindsAloft.Binary64

/-!
# Wind vectors

A wind is a vector in the plane, in the caller's unit of speed, with `y`
pointing north and `x` pointing east.  Its speed is its length and its bearing
the compass direction it points to.

The bearing is written over a given arc tangent.  What is proved of it takes
no more than the range and the sign of that function, and `bearing` supplies
the one of the machine.
-/

namespace WindsAloft

structure Wind where
  x : Float
  y : Float
  deriving DecidableEq, Repr, Inhabited

namespace Wind

def calm : Wind :=
  ⟨0, 0⟩

def speed (wind : Wind) : Float :=
  hypotenuse wind.x wind.y

def toDegrees (angle : Float) : Float :=
  angle * (180 / 3.14159265358979323846264338327950288)

/-- Degrees turned by a full circle where they are negative. -/
def ofNorth (degrees : Float) : Float :=
  if degrees < 0 then degrees + 360 else degrees

/-- The direction of the vector clockwise from north, by the given arc tangent. -/
def bearingBy (arcTangent : Float → Float → Float) (wind : Wind) : Float :=
  ofNorth (toDegrees (arcTangent wind.x wind.y))

def bearing (wind : Wind) : Float :=
  wind.bearingBy Float.atan2

end Wind
end WindsAloft
