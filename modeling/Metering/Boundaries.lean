import Metering.Scalar

/-!
# Bucket boundaries

The boundaries of a histogram are finite doubles in strictly increasing order.  `Boundaries.fault?`
says what is wrong with a list of doubles, looking first for a NaN anywhere, then for the leftmost
neighbours that do not increase, and last at the two ends, since only they can still be infinite.
A `Boundaries` carries the proof that nothing is wrong.

`bucket` places a number: the bucket counts the boundaries below it, so a number equal to a
boundary falls into the bucket that ends there.
-/

namespace Metering

/-- Why a list of doubles is refused as boundaries. -/
inductive BoundaryError where
  | nan
  | notIncreasing (previous current : Binary64)
  | negativeInfinity
  | positiveInfinity
deriving DecidableEq, Repr

namespace BoundaryError

/-- The text of refused boundaries. -/
def message (e : BoundaryError) : String :=
  "invalid bucket boundary: " ++
    match e with
    | .nan => "NaN"
    | .notIncreasing previous current => previous.text ++ " >= " ++ current.text
    | .negativeInfinity => "-Inf"
    | .positiveInfinity => "+Inf"

end BoundaryError

namespace Boundaries

/-- The leftmost neighbours of which the first is not less than the second. -/
def notIncreasing? : List Binary64 → Option (Binary64 × Binary64)
  | a :: b :: rest => if a.ge b then some (a, b) else notIncreasing? (b :: rest)
  | _ => none

/-- What is wrong at the ends of a list that increases. -/
def endFault? (values : List Binary64) : Option BoundaryError :=
  if values.head? = some (.infinity true) then some .negativeInfinity
  else if values.getLast?.any fun x => !x.isFinite then some .positiveInfinity
  else none

/-- What is wrong with a list of doubles as boundaries, if anything. -/
def fault? (values : List Binary64) : Option BoundaryError :=
  if values.any Binary64.isNaN then some .nan
  else
    match notIncreasing? values with
    | some (previous, current) => some (.notIncreasing previous current)
    | none => endFault? values

end Boundaries

/-- Finite boundaries in strictly increasing order. -/
structure Boundaries where
  values : List Binary64
  faultless : Boundaries.fault? values = none
deriving DecidableEq, Repr

namespace Boundaries

/-- The boundaries of a list of doubles, which are kept unchanged. -/
def ofList (values : List Binary64) : Except BoundaryError Boundaries :=
  match h : fault? values with
  | some e => .error e
  | none => .ok ⟨values, h⟩

theorem ofList_eq_ok_iff {values : List Binary64} {b : Boundaries} :
    ofList values = .ok b ↔ fault? values = none ∧ b.values = values := by
  unfold ofList
  split
  · next h => simp [h]
  · next h =>
    simp only [Except.ok.injEq, h, true_and]
    constructor
    · rintro rfl
      rfl
    · intro hb
      cases b
      simp_all

/-- The boundaries used where none are given. -/
def standard : Boundaries :=
  ⟨[0, 5, 10, 25, 50, 75, 100, 250, 500, 750, 1000, 2500, 5000, 7500, 10000].map Binary64.ofInt,
    by decide +kernel⟩

instance : Inhabited Boundaries := ⟨standard⟩

/-- The number of boundaries. -/
def size (b : Boundaries) : Nat := b.values.length

/-- Equal boundary by boundary, as numbers. -/
def same (a b : Boundaries) : Bool :=
  decide (a.size = b.size) && (a.values.zip b.values).all fun p => p.1.numericEq p.2

/-- The bucket of a number: how many boundaries are below it. -/
def bucket (b : Boundaries) (n : Number) : Nat :=
  (b.values.takeWhile fun x => (Number.double x).lt n).length

theorem bucket_le (b : Boundaries) (n : Number) : b.bucket n ≤ b.size :=
  (List.takeWhile_sublist _).length_le

/-- The boundaries as messages show them. -/
def shown (b : Boundaries) : String :=
  Scalar.shownTogether (b.values.map Binary64.text)

end Boundaries

end Metering
