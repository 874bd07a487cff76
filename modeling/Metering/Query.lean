import Metering.Failure

/-!
# Queries

Questions about labels, resources, measurements, descriptors, aggregations and views that need no
running system.  Each builds what it is about from descriptions, in a fixed order, and the first
refusal is the answer.
-/

namespace Metering.Query

/-- The version of this library. -/
def version : String := "0.1.0"

/-! ### Labels -/

/-- The label set of a description, built anew. -/
def newLabels (spec : LabelSpec) : Except Failure LabelSet :=
  (do LabelSet.construct (← spec.argument)).mapError Failure.labels

/-- The label set of given labels, and whether it is the shared empty one. -/
def createFrom (labels : LabelArgument) : Except LabelError (LabelSet × Bool) :=
  (LabelSet.create labels).map fun s => (s, LabelSet.sharesEmpty labels)

/-- The label set of a description, and whether it is the shared empty one. -/
def createLabels (spec : LabelSpec) : Except Failure (LabelSet × Bool) :=
  (do createFrom (← spec.argument)).mapError Failure.labels

/-- The label set of alternating keys and values, and whether it is the shared empty one. -/
def labelsOf (args : List Scalar) : Except Failure (LabelSet × Bool) :=
  (do createFrom (← LabelSet.alternating args)).mapError Failure.labels

/-- How a label set compares with what a caller holds. -/
inductive Comparison where
  | different
  | equalMapping
  | equalSet
deriving DecidableEq, Repr

/-- Compares a new label set with labels as a caller gives them. -/
def compareLabels (a b : LabelSpec) : Except Failure Comparison := do
  let s ← newLabels a
  let other ← b.argument.mapError Failure.labels
  if s.equals other then
    match other with
    | .set _ => return .equalSet
    | _ => return .equalMapping
  else return .different

/-- The value under a key of a new label set. -/
def labelValue (spec : LabelSpec) (key : Scalar) : Except Failure String := do
  let s ← newLabels spec
  match key with
  | .text k =>
    match s.get? k with
    | some value => return value
    | none => throw (.missingKey key)
  | _ => throw (.missingKey key)

/-! ### Resources, measurements and descriptors -/

/-- The resource of a description. -/
def resource (spec : LabelSpec) : Except Failure Resource :=
  (do Resource.create (← spec.argument)).mapError Failure.labels

/-- The resources of two descriptions. -/
def resources (a b : LabelSpec) : Except Failure (Resource × Resource) := do
  return (← resource a, ← resource b)

/-- Checks a measurement.  What is no value type takes the values that doubles take. -/
def checkValue (valueType : ValueTypeArgument) (value : Scalar) : Except Failure Number :=
  (valueType.measured.check value).mapError fun e => .record (.measurement e)

/-- The descriptor of a description. -/
def descriptor (spec : DescriptorSpec) : Except Failure Descriptor :=
  spec.build.mapError Failure.descriptor

/-! ### Aggregations -/

/-- The aggregation of a description. -/
def aggregation (spec : AggregationSpec) : Except Failure Aggregation :=
  spec.build.mapError Failure.boundaries

/-- The boundaries of a list of scalars. -/
def boundaries (values : List Scalar) : Except Failure Boundaries :=
  (Boundaries.ofScalars values).mapError Failure.boundaries

/-- What an aggregation makes of an instrument, and of values recorded one after the other. -/
structure Outline where
  type : MetricType
  unit : Option String
  aggregator : Aggregator
  records : List (Except Failure (Option PointValue))

/-- What an aggregator says after each of the values, or why it refused the value. -/
def recordEach (a : Aggregator) : List Scalar → List (Except Failure (Option PointValue))
  | [] => []
  | value :: rest =>
    match a.record value with
    | .ok a => .ok a.value? :: recordEach a rest
    | .error e => .error (.record e) :: recordEach a rest

/-- The outline of an aggregation for an instrument. -/
def outline (a : AggregationSpec) (d : DescriptorSpec) (values : List Scalar) :
    Except Failure Outline := do
  let a ← aggregation a
  let d ← descriptor d
  return ⟨a.metricType d, a.unit d, a.fresh d, recordEach (a.fresh d) values⟩

/-! ### Views -/

/-- The view of a description, of which the aggregation is built first. -/
def view (spec : ViewSpec) : Except Failure View := do
  let a ← aggregation spec.aggregation
  let s ← spec.selector.mapError Failure.selector
  return spec.assemble s a

/-- What was chosen for an instrument: the place of the view, if one selects it, and its
configuration. -/
structure Choice where
  place : Option Nat
  configuration : Configuration
deriving DecidableEq, Repr

/-- The last place at which a view was registered. -/
def lastPlace (views : List (Except Failure View)) (v : View) : Option Nat :=
  ((views.zipIdx.filter fun p => p.1.toOption == some v).getLast?).map Prod.snd

/-- Registers views one after the other, leaving out those that cannot be built, and chooses for
instruments. -/
def choose (views : List ViewSpec) (descriptors : List DescriptorSpec) :
    Except Failure (List (Option Failure) × List Choice) := do
  let built := views.map view
  let chooser := (built.filterMap Except.toOption).foldl Chooser.add Chooser.empty
  let choices ← descriptors.mapM fun spec => do
    let d ← descriptor spec
    return ⟨(chooser.view? d).bind (lastPlace built), chooser.choose d⟩
  let failures := built.map fun
    | .ok _ => none
    | .error e => some e
  return (failures, choices)

end Metering.Query
