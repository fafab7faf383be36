import WindsAloft.Sample
import WindsAloft.Saturating

/-!
# Choosing the sample to give up

A scoring assigns every stored sample an integer as seen from the time of an
incoming one; the higher, the less important.  `leastImportant` names the slot
to give up: the highest slot among those that attain the maximum of zero and
all scores, or the last slot where no score is above zero.
-/

namespace WindsAloft

/-- How dispensable a sample is at a given time. -/
abbrev Scoring : Type :=
  Sample → Float → Int64

structure Ageing where
  /-- What one point of quality is worth, in units of time. -/
  qualityPenalty : Int64
  /-- The quality that carries no penalty. -/
  qualityCeiling : Int32
  deriving DecidableEq, Repr

/-- One quality point weighs as much as 600 units of time, and quality 6 is beyond reproach. -/
def Ageing.classic : Ageing where
  qualityPenalty := 600
  qualityCeiling := 6

instance : Inhabited Ageing :=
  ⟨Ageing.classic⟩

/-- How far a quality falls short of the ceiling. -/
def Ageing.shortfall (ageing : Ageing) (quality : Int32) : Int64 :=
  ageing.qualityCeiling.toInt64 - quality.toInt64

/-- Poor quality and old age both raise the score. -/
def Ageing.score (ageing : Ageing) : Scoring :=
  fun sample now =>
    Saturating.add
      (Saturating.mul ageing.qualityPenalty (ageing.shortfall sample.quality))
      (truncate (now - sample.time))

/--
The best of the slots from `slot` on: its index and score.  The search starts
behind the last slot with score zero and that slot's index, and moves towards
the front only for a strictly greater score.
-/
def bestSlot (score : Sample → Int64) (last : Nat) : Nat → List Sample → Nat × Int64
  | _, [] => (last, 0)
  | slot, sample :: samples =>
      let best := bestSlot score last (slot + 1) samples
      if best.2 < score sample then (slot, score sample) else best

/-- The slot of the least important sample, `none` if there is no sample. -/
def leastImportant (scoring : Scoring) (now : Float) (samples : List Sample) : Option Nat :=
  match samples with
  | [] => none
  | _ :: _ =>
      some (bestSlot (fun sample => scoring sample now) (samples.length - 1) 0 samples).1

theorem bestSlot_le
    (score : Sample → Int64)
    (last slot : Nat)
    (samples : List Sample)
    (room : slot + samples.length ≤ last + 1) :
    (bestSlot score last slot samples).1 ≤ last := by
  induction samples generalizing slot with
  | nil => exact Nat.le_refl last
  | cons sample samples ih =>
      have rest := ih (slot + 1) (by simp at room; omega)
      simp only [bestSlot]
      split
      · simp at room
        show slot ≤ last
        omega
      · exact rest

theorem leastImportant_lt
    {scoring : Scoring} {now : Float} {samples : List Sample} {slot : Nat}
    (chosen : leastImportant scoring now samples = some slot) :
    slot < samples.length := by
  cases samples with
  | nil => simp [leastImportant] at chosen
  | cons sample samples =>
      simp only [leastImportant, Option.some.injEq] at chosen
      have bound :=
        bestSlot_le (fun sample => scoring sample now)
          ((sample :: samples).length - 1) 0 (sample :: samples) (by simp)
      rw [chosen] at bound
      simp at bound ⊢
      omega

end WindsAloft
