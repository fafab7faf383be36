/-!
# Ranges of characters

Properties of characters are given by tables of ranges.  A table is ordered,
so that a character is found in it by halving.
-/

namespace WindsAloft

/-- Whether a number lies in one of the ranges between two indices of an ordered table. -/
def inRanges (ranges : Array (Nat × Nat)) (n : Nat) (low high : Nat) : Bool :=
  if low < high then
    let middle := (low + high) / 2
    match ranges[middle]? with
    | none => false
    | some (first, last) =>
        if n < first then inRanges ranges n low middle
        else if last < n then inRanges ranges n (middle + 1) high
        else true
  else
    false
termination_by high - low

end WindsAloft
