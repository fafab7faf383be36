import WindsAloft.Sample
import WindsAloft.Saturating

/-!
# The weighting kernel

Around a reference point in time and altitude, every sample within the window
gets three integer weights: one for its quality, one for its nearness in
altitude and one for its nearness in time.  Each is rounded on its own before
the product is formed.  Differences that are not numbers fail both window
comparisons, so such samples stay outside.
-/

namespace WindsAloft

structure Kernel where
  /-- Altitude difference at which a sample leaves the window. -/
  altitudeRange : Float
  /-- Time difference at which a sample leaves the window. -/
  timeRange : Float
  qualityFactor : Float
  altitudeFactor : Float
  timeFactor : Float
  /-- Sharpness of the peak at zero age; smaller is sharper. -/
  timeSharpness : Float
  /-- The quality that earns the full quality factor. -/
  maxQuality : Float
  deriving DecidableEq, Repr

/-- The classic kernel: one kilometre, one hour, and recency counting twice. -/
def Kernel.classic : Kernel where
  altitudeRange := 1000
  timeRange := 3600
  qualityFactor := 100
  altitudeFactor := 100
  timeFactor := 200
  timeSharpness := 0.0025
  maxQuality := 5

instance : Inhabited Kernel :=
  ⟨Kernel.classic⟩

structure Weight where
  quality : Int64
  altitude : Int64
  time : Int64
  deriving DecidableEq, Repr

/-- The product of the three weights, the last two being multiplied first. -/
def Weight.combined (weight : Weight) : Int64 :=
  Saturating.mul weight.quality (Saturating.mul weight.altitude weight.time)

structure Point where
  time : Float
  altitude : Float
  deriving DecidableEq, Repr, Inhabited

namespace Kernel

/-- The altitude difference in units of the range, with its sign. -/
def altitudeOffset (kernel : Kernel) (point : Point) (sample : Sample) : Float :=
  (point.altitude - sample.altitude) / kernel.altitudeRange

/-- The time difference in units of the range, without its sign. -/
def timeOffset (kernel : Kernel) (point : Point) (sample : Sample) : Float :=
  (point.time - sample.time).abs / kernel.timeRange

def qualityWeight (kernel : Kernel) (quality : Int32) : Int64 :=
  roundHalfUp (ofInt32 quality * kernel.qualityFactor / kernel.maxQuality)

/-- The weight of an altitude offset: full at zero, nothing at the edge. -/
def altitudeWeight (kernel : Kernel) (offset : Float) : Int64 :=
  roundHalfUp ((2 / (offset * offset + 1) - 1) * kernel.altitudeFactor)

/-- The weight of a time offset: a peak at zero, nothing at the edge. -/
def timeWeight (kernel : Kernel) (offset : Float) : Int64 :=
  roundHalfUp
    (kernel.timeSharpness * (1 - offset) / (offset * offset + kernel.timeSharpness)
      * kernel.timeFactor)

/-- The weights of a sample as seen from a point, `none` outside the window. -/
def weigh (kernel : Kernel) (point : Point) (sample : Sample) : Option Weight :=
  let altitudeOffset := kernel.altitudeOffset point sample
  let timeOffset := kernel.timeOffset point sample
  if altitudeOffset.abs < 1 ∧ timeOffset < 1 then
    some
      { quality := kernel.qualityWeight sample.quality
        altitude := kernel.altitudeWeight altitudeOffset
        time := kernel.timeWeight timeOffset }
  else
    none

end Kernel
end WindsAloft
