import Metering.Instrument.Descriptor
import Metering.Point

/-!
# Metrics

A metric is the snapshot of one instrument that a collection produces: where it comes from, what it
is called, how its values are to be read, and one point for each label set.
-/

namespace Metering

/-- Whether a window starts over after each collection or never ends. -/
inductive Temporality where
  | delta
  | cumulative
deriving DecidableEq, Repr

namespace Temporality

/-- The name of the temporality as a constant. -/
def constant : Temporality → String
  | .delta => "DELTA"
  | .cumulative => "CUMULATIVE"

/-- The temporality as messages show it. -/
def shown : Temporality → String
  | .delta => "<AggregationTemporality.DELTA: 1>"
  | .cumulative => "<AggregationTemporality.CUMULATIVE: 2>"

end Temporality

/-- How the values of a metric are to be read. -/
inductive MetricType where
  | sum (monotonic : Bool) (valueType : ValueType)
  | gauge (valueType : ValueType)
  | summary
  | histogram
deriving DecidableEq, Repr

namespace MetricType

/-- The name of the type in lower case. -/
def label : MetricType → String
  | .sum monotonic v => (if monotonic then "monotonic_" else "non_monotonic_") ++ v.label
  | .gauge v => "gauge_" ++ v.label
  | .summary => "summary"
  | .histogram => "histogram"

/-- The name of the type as a constant. -/
def constant : MetricType → String
  | .sum monotonic v => (if monotonic then "MONOTONIC_" else "NON_MONOTONIC_") ++ v.constant
  | .gauge v => "GAUGE_" ++ v.constant
  | .summary => "SUMMARY"
  | .histogram => "HISTOGRAM"

/-- The type as messages show it. -/
def shown (t : MetricType) : String :=
  "<MetricDataType." ++ t.constant ++ ": '" ++ t.label ++ "'>"

end MetricType

/-- A snapshot of one instrument. -/
structure Metric where
  resource : Resource
  library : Library
  name : String
  description : Option String
  unit : Option String
  type : MetricType
  temporality : Temporality
  points : List Point
deriving DecidableEq, Repr

/-- The metric as messages show it. -/
def Metric.shown (m : Metric) : String :=
  "MetricData(resource=" ++ m.resource.shown
    ++ ", instrumentation_library_info=" ++ m.library.shown
    ++ ", name=" ++ Text.quote m.name
    ++ ", description=" ++ shownText? m.description
    ++ ", unit=" ++ shownText? m.unit
    ++ ", type=" ++ m.type.shown
    ++ ", temporality=" ++ m.temporality.shown
    ++ ", points=" ++ Scalar.shownTogether (m.points.map Point.shown) ++ ")"

end Metering
