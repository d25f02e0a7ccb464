/-!
# Sets of code points

A set of characters is written as rows of ranges of code points. Each row begins with the range
that it lies in, so that a look-up opens one row only.
-/

namespace Storyboard

/-- Ranges of code points that all lie between `first` and `last`. -/
structure CodeRow where
  first : Nat
  last : Nat
  ranges : List (Nat × Nat)

/-- Whether a code point lies in one of the ranges of a row. -/
def CodeRow.covers (row : CodeRow) (code : Nat) : Bool :=
  decide (row.first ≤ code) && decide (code ≤ row.last) &&
    row.ranges.any fun range => decide (range.1 ≤ code) && decide (code ≤ range.2)

/-- Whether a character belongs to the set that the rows describe. -/
def inRows (rows : List CodeRow) (c : Char) : Bool :=
  rows.any fun row => row.covers c.toNat

end Storyboard
