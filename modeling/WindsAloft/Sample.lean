import WindsAloft.Wind

/-!
# Wind samples

A sample is one wind measurement: the vector, the confidence of whoever
measured it, and the time and altitude at which it was taken.
-/

namespace WindsAloft

structure Sample where
  wind : Wind
  /-- Confidence, nominally from 1 (poor) to 5 (excellent) but not checked. -/
  quality : Int32
  time : Float
  altitude : Float
  deriving DecidableEq, Repr, Inhabited

end WindsAloft
