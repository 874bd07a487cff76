import Metering.Point
import Metering.Instrument.Measurement

/-!
# Tallies

A tally is the state of an aggregator: what it remembers of the values recorded into it.  There are
six shapes, one for each way of aggregating, and a tally never changes its shape.

Recording adds one value.  Moving a tally into another of the same kind takes two steps: the target
absorbs what the source holds, and the source is emptied.  A source that holds nothing changes
nothing in the target.
-/

namespace Metering

/-- The arithmetic that tallies need of the values they record. -/
class Quantity (α : Type) where
  zero : α
  add : α → α → α
  toNumber : α → Number

instance : Quantity Int := ⟨0, (· + ·), Number.integer⟩
instance : Quantity Binary64 := ⟨Binary64.zero, Binary64.add, Number.double⟩

/-- The kinds of aggregators. -/
inductive AggregatorKind where
  | discard
  | sum
  | count
  | lastValue
  | minMaxSumCount
  | histogram
deriving DecidableEq, Repr

/-- The name of an aggregator of a kind. -/
def AggregatorKind.title : AggregatorKind → String
  | .discard => "NoopAggregator"
  | .sum => "SumAggregator"
  | .count => "CountAggregator"
  | .lastValue => "LastValueAggregator"
  | .minMaxSumCount => "MinMaxSumCountAggregator"
  | .histogram => "HistogramAggregator"

/-- How an aggregator aggregates, before anything is recorded. -/
inductive Shape where
  | discard
  | sum (monotonic : Bool)
  | count
  | lastValue
  | minMaxSumCount
  | histogram (boundaries : Boundaries)
deriving DecidableEq, Repr

/-- The kind of a shape. -/
def Shape.kind : Shape → AggregatorKind
  | .discard => .discard
  | .sum _ => .sum
  | .count => .count
  | .lastValue => .lastValue
  | .minMaxSumCount => .minMaxSumCount
  | .histogram _ => .histogram

/-- What an aggregator remembers of the values recorded into it. -/
inductive Tally (α : Type) where
  | discard
  | sum (monotonic : Bool) (total : Option α)
  | count (recorded : Nat)
  | lastValue (value : Option α)
  | minMaxSumCount (recorded : Nat) (total : α) (least greatest : Number)
  | histogram (boundaries : Boundaries) (total : α) (counts : List Nat)
deriving DecidableEq, Repr

/-- The lesser of two numbers; the first one unless the second is strictly less. -/
def keepLeast (a b : Number) : Number := if b.lt a then b else a

/-- The greater of two numbers; the first one unless the second is strictly greater. -/
def keepGreatest (a b : Number) : Number := if a.lt b then b else a

/-- Above every number: the least of no values. -/
def positiveInfinity : Number := .double (.infinity false)

/-- Below every number: the greatest of no values. -/
def negativeInfinity : Number := .double (.infinity true)

namespace Tally

variable {α : Type} [Quantity α]

/-- The tally of a shape before anything is recorded. -/
def fresh : Shape → Tally α
  | .discard => .discard
  | .sum monotonic => .sum monotonic none
  | .count => .count 0
  | .lastValue => .lastValue none
  | .minMaxSumCount => .minMaxSumCount 0 Quantity.zero positiveInfinity negativeInfinity
  | .histogram b => .histogram b Quantity.zero (List.replicate (b.size + 1) 0)

omit [Quantity α] in
/-- The shape of a tally. -/
def shape : Tally α → Shape
  | .discard => .discard
  | .sum monotonic _ => .sum monotonic
  | .count _ => .count
  | .lastValue _ => .lastValue
  | .minMaxSumCount .. => .minMaxSumCount
  | .histogram b _ _ => .histogram b

/-- The value is refused: a monotonic sum takes no negative values. -/
def refuses (t : Tally α) (v : α) : Bool :=
  match t with
  | .sum true _ => (Quantity.toNumber v).isNegative
  | _ => false

/-- The tally after one more value. -/
def push (t : Tally α) (v : α) : Tally α :=
  match t with
  | .discard => .discard
  | .sum monotonic total => .sum monotonic (some (Quantity.add (total.getD Quantity.zero) v))
  | .count n => .count (n + 1)
  | .lastValue _ => .lastValue (some v)
  | .minMaxSumCount n total least greatest =>
    .minMaxSumCount (n + 1) (Quantity.add total v) (keepLeast least (Quantity.toNumber v))
      (keepGreatest greatest (Quantity.toNumber v))
  | .histogram b total counts =>
    .histogram b (Quantity.add total v) (counts.modify (b.bucket (Quantity.toNumber v)) (· + 1))

omit [Quantity α] in
/-- Nothing has been recorded since the tally was fresh or emptied. -/
def isEmpty : Tally α → Bool
  | .discard => true
  | .sum _ total => total.isNone
  | .count n => n == 0
  | .lastValue v => v.isNone
  | .minMaxSumCount n .. => n == 0
  | .histogram _ _ counts => counts.all (· == 0)

/-- The tally with nothing recorded. -/
def emptied (t : Tally α) : Tally α := fresh t.shape

/-- The target of a move after it has taken up what the source holds.  Tallies of different kinds
have nothing to give each other. -/
def absorb (target source : Tally α) : Tally α :=
  if source.isEmpty then target
  else
    match target, source with
    | .sum monotonic total, .sum _ (some v) =>
      .sum monotonic (some (Quantity.add (total.getD Quantity.zero) v))
    | .count m, .count n => .count (m + n)
    | .lastValue _, .lastValue v => .lastValue v
    | .minMaxSumCount m total least greatest, .minMaxSumCount n total' least' greatest' =>
      .minMaxSumCount (m + n) (Quantity.add total total') (keepLeast least least')
        (keepGreatest greatest greatest')
    | .histogram b total counts, .histogram _ total' counts' =>
      .histogram b (Quantity.add total total') (List.zipWith (· + ·) counts counts')
    | t, _ => t

/-- What the tally says about its values; nothing if there are none. -/
def value? (t : Tally α) : Option PointValue :=
  if t.isEmpty then none
  else
    match t with
    | .discard => none
    | .sum _ total => total.map fun v => .number (Quantity.toNumber v)
    | .count n => some (.number (.integer n))
    | .lastValue v => v.map fun v => .number (Quantity.toNumber v)
    | .minMaxSumCount n total least greatest =>
      some (.summary n (Quantity.toNumber total) least greatest)
    | .histogram b total counts => some (.histogram (Quantity.toNumber total) b counts)

/-! ### Shapes are kept -/

omit [Quantity α] in
theorem shape_fresh [Quantity α] (s : Shape) : (fresh s : Tally α).shape = s := by
  cases s <;> rfl

theorem shape_push (t : Tally α) (v : α) : (t.push v).shape = t.shape := by
  cases t <;> rfl

theorem shape_absorb (target source : Tally α) : (target.absorb source).shape = target.shape := by
  unfold absorb
  split
  · rfl
  · split <;> rfl

theorem isEmpty_fresh (s : Shape) : (fresh s : Tally α).isEmpty = true := by
  cases s <;> simp [fresh, isEmpty]

end Tally

end Metering
