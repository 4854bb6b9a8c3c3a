/-!
# Sets of code points

A property of characters is stored as the list of the ranges of code points that have it.
-/

namespace SourceEditor.Unicode

/-- A set of code points, as ranges with both ends included. -/
abbrev Ranges := List (Nat × Nat)

/-- Whether a code point lies in one of the ranges. -/
def Ranges.contains (ranges : Ranges) (n : Nat) : Bool :=
  ranges.any fun r => r.1 ≤ n && n ≤ r.2

end SourceEditor.Unicode
