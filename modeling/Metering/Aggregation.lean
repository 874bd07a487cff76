import Metering.Aggregator.Basic
import Metering.Metric

/-!
# Aggregations

An aggregation decides, for the descriptor of an instrument, which shape its aggregators have and
how the metric that comes out is described.
-/

namespace Metering

/-- The ways to aggregate the measurements of an instrument. -/
inductive Aggregation where
  | sum
  | count
  | lastValue
  | minMaxSumCount
  | histogram (boundaries : Boundaries)
deriving DecidableEq, Repr

namespace Aggregation

/-- The name of the aggregation. -/
def title : Aggregation → String
  | .sum => "SumAggregation"
  | .count => "CountAggregation"
  | .lastValue => "LastValueAggregation"
  | .minMaxSumCount => "MinMaxSumCountAggregation"
  | .histogram _ => "ExplicitBucketHistogramAggregation"

/-- The shape of the aggregators of an instrument. -/
def shape (a : Aggregation) (d : Descriptor) : Shape :=
  match a with
  | .sum => .sum d.kind.isMonotonic
  | .count => .count
  | .lastValue => .lastValue
  | .minMaxSumCount => .minMaxSumCount
  | .histogram b => .histogram b

/-- A new aggregator for an instrument. -/
def fresh (a : Aggregation) (d : Descriptor) : Aggregator :=
  Aggregator.fresh (a.shape d) d.valueType

/-- The type of the metric of an instrument.  Sum observers report totals, so their last value is a
sum; any other last value is a gauge. -/
def metricType (a : Aggregation) (d : Descriptor) : MetricType :=
  match a with
  | .sum => .sum d.kind.isMonotonic d.valueType
  | .count => .sum true .long
  | .lastValue =>
    match d.kind with
    | .sumObserver => .sum true d.valueType
    | .upDownSumObserver => .sum false d.valueType
    | _ => .gauge d.valueType
  | .minMaxSumCount => .summary
  | .histogram _ => .histogram

/-- The unit of the metric of an instrument; a count has no unit of its own. -/
def unit (a : Aggregation) (d : Descriptor) : Option String :=
  match a with
  | .count => some "1"
  | _ => d.unit

end Aggregation

/-- Why boundaries given as scalars are refused. -/
inductive BoundaryArgumentError where
  | conversion (e : ConversionError)
  | boundary (e : BoundaryError)
deriving DecidableEq, Repr

/-- The boundaries of a list of scalars, which are all converted before any is judged. -/
def Boundaries.ofScalars (values : List Scalar) : Except BoundaryArgumentError Boundaries := do
  let doubles ← (values.mapM Scalar.toDouble).mapError BoundaryArgumentError.conversion
  (Boundaries.ofList doubles).mapError BoundaryArgumentError.boundary

/-- A description of an aggregation; a histogram may go without boundaries. -/
inductive AggregationSpec where
  | sum
  | count
  | lastValue
  | minMaxSumCount
  | histogram (boundaries : Option (List Scalar))
deriving DecidableEq, Repr

/-- A description of the shape of an aggregator. -/
inductive ShapeSpec where
  | discard
  | sum (monotonic : Bool)
  | count
  | lastValue
  | minMaxSumCount
  | histogram (boundaries : Option (List Scalar))
deriving DecidableEq, Repr

/-- The boundaries of a description, which are the standard ones if it has none. -/
def Boundaries.ofScalars? : Option (List Scalar) → Except BoundaryArgumentError Boundaries
  | none => .ok standard
  | some values => ofScalars values

/-- The shape of a description. -/
def ShapeSpec.build : ShapeSpec → Except BoundaryArgumentError Shape
  | .discard => .ok .discard
  | .sum monotonic => .ok (.sum monotonic)
  | .count => .ok .count
  | .lastValue => .ok .lastValue
  | .minMaxSumCount => .ok .minMaxSumCount
  | .histogram values => (Boundaries.ofScalars? values).map Shape.histogram

/-- The aggregation of a description. -/
def AggregationSpec.build : AggregationSpec → Except BoundaryArgumentError Aggregation
  | .sum => .ok .sum
  | .count => .ok .count
  | .lastValue => .ok .lastValue
  | .minMaxSumCount => .ok .minMaxSumCount
  | .histogram values => (Boundaries.ofScalars? values).map Aggregation.histogram

end Metering
