import Metering.Number
import Mathlib.Algebra.Order.Field.Basic
import Mathlib.Algebra.Order.Field.Rat
import Mathlib.Order.WithBot

/-!
# Exact values

The exact value of a number is a rational number or one of the two infinities: an integer is itself,
and a finite double is its units of `2 ^ -1074`.  NaN has none.

Numbers are compared by their places, which are whole numbers of units.  `Number.lt_iff` says that
this is the comparison of the exact values, whatever their magnitude and their kind.
-/

namespace Metering

/-- A rational number, or one of the two infinities. -/
abbrev Exact := WithBot (WithTop ℚ)

namespace Exact

/-- A rational number as an exact value. -/
def ofRat (q : ℚ) : Exact := WithBot.some (WithTop.some q)

theorem ofRat_lt_ofRat {p q : ℚ} : ofRat p < ofRat q ↔ p < q :=
  WithBot.coe_lt_coe.trans WithTop.coe_lt_coe

theorem bot_lt_ofRat (q : ℚ) : ⊥ < ofRat q := WithBot.bot_lt_coe _

theorem ofRat_lt_top (q : ℚ) : ofRat q < ⊤ := WithBot.coe_lt_coe.mpr (WithTop.coe_lt_top q)

end Exact

namespace Binary64

/-- The rational number that a finite double is. -/
def rational : Binary64 → ℚ
  | .finite negative units => signedUnits negative units / unitsPerOne
  | _ => 0

/-- The exact value of a double that is not NaN. -/
def toExact? : Binary64 → Option Exact
  | .nan => none
  | .infinity true => some ⊥
  | .infinity false => some ⊤
  | .finite negative units => some (.ofRat (finite negative units).rational)

theorem toExact?_of_isFinite {x : Binary64} (h : x.isFinite = true) :
    x.toExact? = some (.ofRat x.rational) := by
  cases x with
  | finite => rfl
  | nan | infinity => cases h

theorem toExact?_eq_none_iff {x : Binary64} : x.toExact? = none ↔ x = .nan := by
  rcases x with _ | (_ | _) | _ <;> simp [toExact?]

theorem unitsPerOne_pos_rat : (0 : ℚ) < unitsPerOne := Nat.cast_pos.mpr unitsPerOne_pos

end Binary64

/-- The exact value at a place. -/
def Place.exact : Place → Exact
  | .bottom => ⊥
  | .at units => .ofRat (units / Binary64.unitsPerOne)
  | .top => ⊤

theorem Place.exact_lt_iff {p q : Place} : p.exact < q.exact ↔ p.lt q = true := by
  cases p with
  | bottom =>
    cases q with
    | bottom => exact iff_of_false not_lt_bot Bool.false_ne_true
    | «at» => exact iff_of_true (Exact.bot_lt_ofRat _) rfl
    | top => exact iff_of_true bot_lt_top rfl
  | «at» a =>
    cases q with
    | bottom => exact iff_of_false not_lt_bot Bool.false_ne_true
    | «at» b =>
      refine Exact.ofRat_lt_ofRat.trans (Iff.trans ?_ decide_eq_true_iff.symm)
      exact (div_lt_div_iff_of_pos_right Binary64.unitsPerOne_pos_rat).trans Int.cast_lt
    | top => exact iff_of_true (Exact.ofRat_lt_top _) rfl
  | top => cases q <;> exact iff_of_false not_top_lt Bool.false_ne_true

namespace Number

/-- The exact value of a number that is not NaN. -/
def toExact? : Number → Option Exact
  | .integer n => some (.ofRat n)
  | .double x => x.toExact?

theorem toExact?_eq_none_iff {n : Number} : n.toExact? = none ↔ n = .double .nan := by
  cases n with
  | integer n => simp [toExact?]
  | double x =>
    rw [double.injEq]
    exact Binary64.toExact?_eq_none_iff

theorem toExact?_eq (n : Number) : n.toExact? = n.place?.map Place.exact := by
  cases n with
  | integer n =>
    have hunits : ((n * Binary64.unitsPerOne : ℤ) : ℚ) / Binary64.unitsPerOne = n := by
      rw [Int.cast_mul, Int.cast_natCast]
      exact mul_div_cancel_right₀ _ Binary64.unitsPerOne_pos_rat.ne'
    show some (Exact.ofRat n) = some (Place.exact (.at (n * Binary64.unitsPerOne)))
    rw [Place.exact, hunits]
  | double x => rcases x with _ | (_ | _) | _ <;> rfl

/-- **Numbers are compared** by their exact values. -/
theorem lt_iff {a b : Number} :
    a.lt b = true ↔ ∃ x y, a.toExact? = some x ∧ b.toExact? = some y ∧ x < y := by
  rw [toExact?_eq, toExact?_eq]
  unfold lt
  cases a.place? <;> cases b.place? <;> simp [Place.exact_lt_iff]

end Number

end Metering
