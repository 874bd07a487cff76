import Metering.Binary64.Basic

/-!
# The shortest decimal that reads back

Of the decimals that round to a given positive double, the shortest one has the fewest digits, and
among those of that length it is the nearest to the double, an exact tie going to the even digit.

The decimals with last digit at `10 ^ g` form a grid.  A coarser grid means fewer digits, so the
search walks from coarse to fine and stops at the first grid that has a point among the numbers
that round to the double; only the two grid points around the double can be such points.  The
interval of those numbers is measured in quarters of a unit, so that its ends are whole.
-/

namespace Metering.Decimal

open Binary64

/-- The numbers that round to one double, in quarters of a unit; the two ends belong to them when
the significand is even. -/
structure Interval where
  lower : Nat
  upper : Nat
  closed : Bool
deriving DecidableEq, Repr

/-- The numbers that round to a positive magnitude.  Below a power of two the grid of doubles is
twice as fine, so there the interval reaches half as far down. -/
def Interval.around (units : Nat) : Interval :=
  let k := excess units
  let step := Nat.pow 2 k
  let below := if k ≠ 0 && units = Nat.pow 2 (k + precision - 1) then step else 2 * step
  ⟨4 * units - below, 4 * units + 2 * step, units / step % 2 = 0⟩

/-- A quantity of `num / den` quarters of a unit lies in the interval. -/
def Interval.contains (i : Interval) (num den : Nat) : Bool :=
  if i.closed then decide (i.lower * den ≤ num) && decide (num ≤ i.upper * den)
  else decide (i.lower * den < num) && decide (num < i.upper * den)

/-- A decimal `significand * 10 ^ exponent`. -/
structure Digits where
  significand : Nat
  exponent : Int
deriving DecidableEq, Repr

/-- A grid point of `10 ^ exponent` rounds to the double. -/
def roundsTo (units : Nat) (exponent : Int) (point : Nat) : Bool :=
  (Interval.around units).contains (4 * point * (unitsPerOne * Nat.pow 10 exponent.toNat))
    (Nat.pow 10 (-exponent).toNat)

/-- The point nearest to the double on the grid of `10 ^ exponent`, if some point of that grid
rounds to the double. -/
def onGrid? (units : Nat) (exponent : Int) : Option Nat :=
  let num := units * Nat.pow 10 (-exponent).toNat
  let den := unitsPerOne * Nat.pow 10 exponent.toNat
  let preferred := nearest num den
  let other := if preferred = num / den then num / den + 1 else num / den
  [preferred, other].find? (roundsTo units exponent)

/-- No double needs a digit below `10 ^ finest`. -/
def finest : Int := -350

/-- The number of grids between the finest and the coarsest. -/
def gridCount : Nat := 660

/-- The first grid with a point that rounds to the double, among the given number of grids counted
from the finest. -/
def search (units : Nat) : Nat → Digits
  | 0 => ⟨(onGrid? units finest).getD 0, finest⟩
  | n + 1 =>
    let exponent := finest + (n + 1 : Nat)
    match onGrid? units exponent with
    | some d => ⟨d, exponent⟩
    | none => search units n

/-- The shortest decimal that rounds to a positive magnitude. -/
def shortest (units : Nat) : Digits :=
  search units gridCount

example : shortest 1 = ⟨5, -324⟩ := by decide +kernel
example : shortest unitsPerOne = ⟨1, 0⟩ := by decide +kernel

end Metering.Decimal
