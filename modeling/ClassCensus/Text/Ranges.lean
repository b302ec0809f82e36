import ClassCensus.Text.Basic

/-!
# ClassCensus.Text.Ranges

Sets of code points given by ascending closed intervals.
-/

namespace ClassCensus

abbrev Ranges := List (Nat × Nat)

/-- Whether a code point lies in one of the intervals, which come in ascending order. -/
def Ranges.has : Ranges → Nat → Bool
  | [], _ => false
  | (lo, hi) :: rest, n => if n < lo then false else n ≤ hi || Ranges.has rest n

end ClassCensus
