/-!
# Range tables

A set of code points written as the increasing list of its boundaries: the first boundary starts
a range, the second ends it (exclusively), and so on. A code point is in the set exactly when an
odd number of boundaries lies at or below it.
-/

namespace ViewMarkup.Text

/-- A set of code points, given by its boundaries in increasing order. -/
structure RangeTable where
  boundaries : Array Nat

/-- Membership: the number of boundaries at or below the code point is odd. -/
def RangeTable.contains (t : RangeTable) (c : Char) : Bool :=
  t.boundaries.countP (· ≤ c.toNat) % 2 == 1

end ViewMarkup.Text
