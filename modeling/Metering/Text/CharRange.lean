/-!
# Ranges of characters

A property of characters that has no formula is given as a list of closed ranges of code points.
`CharRange.covers` decides membership; the tables themselves live in the modules named for their
property (`Text.Blank`, `Text.DecimalDigit`, `Text.Printable`).
-/

namespace Metering.Text

/-- A closed range of code points. -/
structure CharRange where
  first : Nat
  last : Nat
deriving DecidableEq, Repr

namespace CharRange

/-- The code point lies between the two ends, both included. -/
def contains (r : CharRange) (code : Nat) : Bool :=
  decide (r.first ≤ code) && decide (code ≤ r.last)

/-- Some range of the table contains the character. -/
def covers (table : List CharRange) (c : Char) : Bool :=
  table.any (·.contains c.toNat)

end CharRange

end Metering.Text
