/-!
# Sets of code points

`Ranges` is a set of code points written as closed ranges in increasing order.
-/

namespace MoveDesk.Text

/-- Closed ranges of code points, in increasing order. -/
abbrev Ranges := List (Nat × Nat)

/-- Membership of a code point; the ranges behind the first one that starts later are not read. -/
def Ranges.holds : Ranges → Nat → Bool
  | [], _ => false
  | (lo, hi) :: rest, n => if n < lo then false else n ≤ hi || Ranges.holds rest n

end MoveDesk.Text
