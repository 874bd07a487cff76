import Metering.Aggregator.Tally

/-!
# Aggregators

An aggregator is a tally of long values or of doubles.  It takes any scalar to record, refuses what
is no measurement of its value type, converts the rest, and leaves its state alone when it refuses.
Aggregators move into each other only within one kind and one value type, and histograms only with
the same boundaries.

A discarding aggregator may also have been declared with something that is no value type.  It holds
nothing, and no value is of its type.
-/

namespace Metering

/-- Why a value is not recorded. -/
inductive RecordError where
  | measurement (e : MeasurementError)
  | otherValueType (aggregator : AggregatorKind) (asked : ValueType)
  | tooLarge
  | negative (n : Number)
deriving DecidableEq, Repr

namespace RecordError

/-- The text of a value that is not recorded. -/
def message : RecordError → String
  | .measurement e => e.message
  | .otherValueType aggregator asked =>
    aggregator.title ++ " aggregates " ++ asked.other.label ++ " values"
  | .tooLarge => ConversionError.tooLarge.message
  | .negative n => "Monotonic sums can only increase, got " ++ n.text

end RecordError

/-- Why an aggregator does not move into another. -/
inductive MergeError where
  | kinds (source target : AggregatorKind × ValueType)
  | boundaries (source target : Boundaries)
  | unnamedValueType (declared : ValueTypeArgument)
deriving DecidableEq, Repr

namespace MergeError

/-- The text of a move that is refused. -/
def message : MergeError → String
  | .kinds source target =>
    "Can't merge " ++ source.1.title ++ " (" ++ source.2.constant ++ ") into "
      ++ target.1.title ++ " (" ++ target.2.constant ++ ")"
  | .boundaries source target =>
    "Can't merge histograms with different boundaries: " ++ source.shown ++ " and "
      ++ target.shown
  | .unnamedValueType declared => declared.owner ++ " has no attribute 'name'"

end MergeError

/-- A tally of long values or of doubles, or one that discards and takes neither. -/
inductive Aggregator where
  | long (tally : Tally Int)
  | double (tally : Tally Binary64)
  | untyped (declared : ValueTypeArgument)
deriving DecidableEq, Repr

namespace Aggregator

/-- The aggregator of a shape and a value type before anything is recorded. -/
def fresh (s : Shape) : ValueType → Aggregator
  | .long => .long (Tally.fresh s)
  | .double => .double (Tally.fresh s)

instance : Inhabited Aggregator := ⟨fresh .discard .long⟩

/-- The aggregator that discards and is declared with a value type, or with what is none. -/
def discarding : ValueTypeArgument → Aggregator
  | .valueType v => fresh .discard v
  | declared => .untyped declared

/-- The type of the values that are recorded, or what is declared instead of it. -/
def valueType : Aggregator → ValueTypeArgument
  | .long _ => .valueType .long
  | .double _ => .valueType .double
  | .untyped declared => declared

/-- How the aggregator aggregates. -/
def shape : Aggregator → Shape
  | .long t => t.shape
  | .double t => t.shape
  | .untyped _ => .discard

/-- The kind of the aggregator. -/
def kind (a : Aggregator) : AggregatorKind := a.shape.kind

/-- Nothing is recorded. -/
def isEmpty : Aggregator → Bool
  | .long t => t.isEmpty
  | .double t => t.isEmpty
  | .untyped _ => true

/-- What the aggregator says about its values. -/
def value? : Aggregator → Option PointValue
  | .long t => t.value?
  | .double t => t.value?
  | .untyped _ => none

/-- The point of the aggregator for a label set and a window. -/
def point? (a : Aggregator) (start stop : Int) (labels : LabelSet) : Option Point :=
  a.value?.map (Point.mk start stop labels)

/-! ### Recording -/

/-- A tally after one more value, unless it refuses the value. -/
def pushChecked {α : Type} [Quantity α] (t : Tally α) (v : α) : Except RecordError (Tally α) :=
  if t.refuses v then .error (.negative (Quantity.toNumber v)) else .ok (t.push v)

/-- The integer to be recorded for a scalar among long values. -/
def longValue (s : Scalar) : Except RecordError Int :=
  (checkLong s).mapError RecordError.measurement

/-- The double to be recorded for a scalar. -/
def doubleValue (s : Scalar) : Except RecordError Binary64 :=
  match checkDouble s with
  | .error e => .error (.measurement e)
  | .ok n =>
    match n.toBinary64? with
    | some x => .ok x
    | none => .error .tooLarge

/-- The aggregator after a scalar was recorded as a value of its own type.  What is not declared for
long values takes the value for a double. -/
def record (a : Aggregator) (s : Scalar) : Except RecordError Aggregator :=
  match a with
  | .long t => do return .long (← pushChecked t (← longValue s))
  | .double t => do return .double (← pushChecked t (← doubleValue s))
  | .untyped _ => .error (.otherValueType .discard .double)

/-- The aggregator after a scalar was recorded as a value of the given type, which must be the
aggregator's own. -/
def recordAs (a : Aggregator) (valueType : ValueType) (s : Scalar) :
    Except RecordError Aggregator :=
  if a.valueType = .valueType valueType then a.record s
  else .error (.otherValueType a.kind valueType)

/-! ### Moving -/

/-- Why the source does not move into the target, if so. -/
def mergeError? (source target : Aggregator) : Option MergeError :=
  if source.kind ≠ target.kind || source.valueType ≠ target.valueType then
    match source.valueType, target.valueType with
    | .valueType v, .valueType w => some (.kinds (source.kind, v) (target.kind, w))
    | .valueType _, declared => some (.unnamedValueType declared)
    | declared, _ => some (.unnamedValueType declared)
  else
    match source.shape, target.shape with
    | .histogram b, .histogram b' => if b'.same b then none else some (.boundaries b b')
    | _, _ => none

/-- The aggregator with nothing recorded. -/
def emptied : Aggregator → Aggregator
  | .long t => .long t.emptied
  | .double t => .double t.emptied
  | .untyped declared => .untyped declared

/-- The target of a move after it has taken up what the source holds. -/
def absorb (target source : Aggregator) : Aggregator :=
  match target, source with
  | .long t, .long s => .long (t.absorb s)
  | .double t, .double s => .double (t.absorb s)
  | t, _ => t

end Aggregator

end Metering
