import Metering.Decimal.Layout

/-!
# Integers and doubles together

A `Number` is an integer of any size or a double, and the two kinds stay apart: `5` is not `5.0`.
They are compared by their exact values, on the line of places that the doubles already use, so an
integer beyond `2 ^ 53` is never rounded to be compared.
-/

namespace Metering

/-- An integer or a double. -/
inductive Number where
  | integer (n : Int)
  | double (x : Binary64)
deriving DecidableEq, Repr

namespace Number

/-- Where a number stands by its exact value; NaN stands nowhere. -/
def place? : Number → Option Place
  | .integer n => some (.at (n * Binary64.unitsPerOne))
  | .double x => x.place?

/-- Strictly less by exact value; false whenever a NaN is involved. -/
def lt (a b : Number) : Bool :=
  match a.place?, b.place? with
  | some p, some q => p.lt q
  | _, _ => false

/-- Equal by exact value; NaN is equal to nothing. -/
def numericEq (a b : Number) : Bool :=
  match a.place?, b.place? with
  | some p, some q => decide (p = q)
  | _, _ => false

/-- At most, by exact value. -/
def le (a b : Number) : Bool :=
  a.lt b || a.numericEq b

/-- Less than zero; negative zero and NaN are not. -/
def isNegative (a : Number) : Bool :=
  a.lt (.integer 0)

/-- The nearest double, unless the number is an integer too large for one. -/
def toBinary64? : Number → Option Binary64
  | .integer n =>
    match Binary64.ofInt n with
    | .infinity _ => none
    | x => some x
  | .double x => some x

/-- The text of a number. -/
def text : Number → String
  | .integer n => toString n
  | .double x => x.text

theorem lt_double (a b : Binary64) : (double a).lt (double b) = a.lt b := rfl

theorem lt_integer (m n : Int) : (integer m).lt (integer n) = decide (m < n) := by
  have hu : (0 : Int) < Binary64.unitsPerOne := Int.natCast_pos.2 Binary64.unitsPerOne_pos
  simp only [lt, place?, Place.lt]
  exact decide_eq_decide.2 ⟨fun h => Int.lt_of_mul_lt_mul_right h (Int.le_of_lt hu),
    fun h => Int.mul_lt_mul_of_pos_right h hu⟩

end Number

end Metering
