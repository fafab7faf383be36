import WindsAloft.Kernel

/-!
# Trace records

A trace is a sequence of records: measurements to be taken in and queries to
be answered.
-/

namespace WindsAloft

/-- One step of a recorded run. -/
inductive Record where
  | measurement (sample : Sample)
  | query (point : Point)
  deriving DecidableEq, Repr

namespace Record

inductive Kind where
  | measurement
  | query
  deriving DecidableEq, Repr

def Kind.name : Kind → String
  | .measurement => "measurement"
  | .query => "query"

def kind : Record → Kind
  | .measurement _ => .measurement
  | .query _ => .query

def sample? : Record → Option Sample
  | .measurement sample => some sample
  | .query _ => none

def point? : Record → Option Point
  | .measurement _ => none
  | .query point => some point

end Record
end WindsAloft
