import Metering.Boundaries
import Metering.Labels.Basic

/-!
# Points

A point is what one label set of an instrument contributes to a metric: a single number, a summary,
or a histogram, with the start and the end of the window it covers.
-/

namespace Metering

/-- What a point says about the recorded values. -/
inductive PointValue where
  | number (value : Number)
  | summary (count : Nat) (sum least greatest : Number)
  | histogram (sum : Number) (boundaries : Boundaries) (counts : List Nat)
deriving DecidableEq, Repr

/-- The number of values a histogram's counts stand for. -/
def totalCount (counts : List Nat) : Nat := counts.foldr (· + ·) 0

/-- A value for one label set and one window. -/
structure Point where
  start : Int
  stop : Int
  labels : LabelSet
  value : PointValue
deriving DecidableEq, Repr

namespace Point

/-- The point as messages show it. -/
def shown (p : Point) : String :=
  let window := "(start_epoch_nanos=" ++ toString p.start ++ ", epoch_nanos=" ++ toString p.stop
    ++ ", labels=" ++ p.labels.shown
  match p.value with
  | .number (.integer n) => "LongPoint" ++ window ++ ", value=" ++ toString n ++ ")"
  | .number (.double x) => "DoublePoint" ++ window ++ ", value=" ++ x.text ++ ")"
  | .summary count sum least greatest =>
    "SummaryPoint" ++ window ++ ", count=" ++ toString count ++ ", sum=" ++ sum.text
      ++ ", min=" ++ least.text ++ ", max=" ++ greatest.text ++ ")"
  | .histogram sum boundaries counts =>
    "HistogramPoint" ++ window ++ ", sum=" ++ sum.text
      ++ ", count=" ++ toString (totalCount counts)
      ++ ", boundaries=" ++ boundaries.shown
      ++ ", counts=" ++ Scalar.shownTogether (counts.map toString) ++ ")"

end Point

end Metering
