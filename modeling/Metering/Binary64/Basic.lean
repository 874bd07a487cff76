import Metering.Binary64.Rounding

/-!
# Double-precision numbers

A finite double is a whole number of units of `2 ^ -1074`, the smallest positive one.  So a finite
double is held as a sign and a number of units, sums and comparisons are exact integer arithmetic,
and rounding happens in one place, `ofRatio`.  A comparison looks at the *place* of a number on the
line of the integers with two ends; NaN has no place, so every comparison with it fails, and the
two zeros share theirs.
-/

namespace Metering

/-- A double-precision number; a finite one counts units of `2 ^ -1074`. -/
inductive Binary64 where
  | nan
  | infinity (negative : Bool)
  | finite (negative : Bool) (units : Nat)
deriving DecidableEq, Repr

/-- A place on the line of the integers with an end on either side. -/
inductive Place where
  | bottom
  | at (position : Int)
  | top
deriving DecidableEq, Repr

namespace Place

/-- Strictly to the left of. -/
def lt : Place → Place → Bool
  | .bottom, .bottom => false
  | .bottom, _ => true
  | .at _, .bottom => false
  | .at a, .at b => decide (a < b)
  | .at _, .top => true
  | .top, _ => false

theorem lt_irrefl (a : Place) : a.lt a = false := by
  cases a <;> simp [lt]

theorem lt_trans {a b c : Place} (hab : a.lt b = true) (hbc : b.lt c = true) :
    a.lt c = true := by
  cases a <;> cases b <;> cases c <;> simp_all [lt]
  omega

theorem lt_trichotomy (a b : Place) : a.lt b = true ∨ a = b ∨ b.lt a = true := by
  cases a <;> cases b <;> simp [lt]
  omega

end Place

namespace Binary64

/-! ### Making doubles -/

/-- How many binary places after the point a unit takes. -/
def unitPlaces : Nat := 1074

/-- How many units make one. -/
def unitsPerOne : Nat := Nat.pow 2 unitPlaces

theorem unitsPerOne_pos : 0 < unitsPerOne := by decide +kernel

/-- The least power of two that is too large for a finite double. -/
def limitPlaces : Nat := 1024

/-- The least magnitude, in units, that is too large for a finite double. -/
def limit : Nat := Nat.pow 2 (unitPlaces + limitPlaces)

/-- The double nearest to `num / den` units with the given sign; a tie goes to the even
significand, and a magnitude that rounds to `limit` or more is infinite. -/
def ofRatio (negative : Bool) (num den : Nat) : Binary64 :=
  let units := significand num den
  if units < limit then .finite negative units else .infinity negative

/-- The double nearest to a whole number of units. -/
def ofUnits (units : Int) : Binary64 :=
  ofRatio (decide (units < 0)) units.natAbs 1

/-- The double nearest to an integer; infinite when the integer is too large. -/
def ofInt (n : Int) : Binary64 :=
  ofUnits (n * unitsPerOne)

/-- Positive zero. -/
def zero : Binary64 := .finite false 0

/-! ### Order -/

/-- The exact value of a finite double in units. -/
def signedUnits (negative : Bool) (units : Nat) : Int :=
  if negative then -(units : Int) else units

/-- Where a double stands among the numbers; NaN stands nowhere. -/
def place? : Binary64 → Option Place
  | .nan => none
  | .infinity true => some .bottom
  | .infinity false => some .top
  | .finite negative units => some (.at (signedUnits negative units))

/-- The number is neither infinite nor NaN. -/
def isFinite : Binary64 → Bool
  | .finite _ _ => true
  | _ => false

/-- The number is NaN. -/
def isNaN : Binary64 → Bool
  | .nan => true
  | _ => false

/-- Strictly less; false whenever a NaN is involved. -/
def lt (a b : Binary64) : Bool :=
  match a.place?, b.place? with
  | some p, some q => p.lt q
  | _, _ => false

/-- Equal as numbers: the zeros are equal, and NaN is equal to nothing. -/
def numericEq (a b : Binary64) : Bool :=
  match a.place?, b.place? with
  | some p, some q => decide (p = q)
  | _, _ => false

/-- At least; false whenever a NaN is involved. -/
def ge (a b : Binary64) : Bool :=
  b.lt a || a.numericEq b

theorem place?_eq_none_iff (a : Binary64) : a.place? = none ↔ a = .nan := by
  rcases a with _ | (_ | _) | _ <;> simp [place?]

theorem lt_irrefl (a : Binary64) : a.lt a = false := by
  unfold lt
  cases a.place? <;> simp [Place.lt_irrefl]

theorem lt_trans {a b c : Binary64} (hab : a.lt b = true) (hbc : b.lt c = true) :
    a.lt c = true := by
  unfold lt at *
  cases ha : a.place? <;> cases hb : b.place? <;> cases hc : c.place? <;> simp_all
  exact Place.lt_trans hab hbc

/-! ### Arithmetic -/

/-- The sum, rounded once.  Opposite infinities have no sum; an exact sum of zero is negative only
when both terms are. -/
def add : Binary64 → Binary64 → Binary64
  | .nan, _ => .nan
  | _, .nan => .nan
  | .infinity s, .infinity t => if s = t then .infinity s else .nan
  | .infinity s, .finite _ _ => .infinity s
  | .finite _ _, .infinity t => .infinity t
  | .finite s m, .finite t n =>
    let total := signedUnits s m + signedUnits t n
    if total = 0 then .finite (s && t) 0 else ofUnits total

/-- The quotient by a positive natural number, rounded once. -/
def divNat : Binary64 → Nat → Binary64
  | .nan, _ => .nan
  | .infinity s, _ => .infinity s
  | .finite s m, n => ofRatio s m n

example : ofInt 1 = .finite false unitsPerOne := by decide +kernel
example : add (ofInt 2) (ofInt 3) = ofInt 5 := by decide +kernel
example : add (.finite true 0) (.finite true 0) = .finite true 0 := by decide
example : ofInt (2 ^ 1024) = .infinity false := by decide +kernel
example : ofInt (2 ^ 53 + 1) = ofInt (2 ^ 53) := by decide +kernel

end Binary64

end Metering
