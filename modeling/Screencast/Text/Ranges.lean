/-!
Sets of characters given as ranges of code points, in order. `Ranges.holds` finds the range of a
character by halving the table.
-/

namespace Screencast.Text

abbrev Ranges := Array (Nat × Nat)

namespace Ranges

/-- Whether one of the ranges from `lo` up to `hi` holds the code point. -/
def holdsBetween (ranges : Ranges) (code lo hi : Nat) : Bool :=
  if lo < hi then
    let mid := (lo + hi) / 2
    match ranges[mid]? with
    | none => false
    | some (first, last) =>
      if code < first then holdsBetween ranges code lo mid
      else if last < code then holdsBetween ranges code (mid + 1) hi
      else true
  else false
termination_by hi - lo

def holds (ranges : Ranges) (c : Char) : Bool :=
  holdsBetween ranges c.toNat 0 ranges.size

end Ranges

end Screencast.Text
