import Metering.Scalar

/-!
# Kinds of instruments and of values

An instrument is one of six kinds.  Three are synchronous: the program records into them.  The
other three are observers, which report from a callback.  Counters and sum observers are monotonic.
Each instrument measures in one of two value types.

Callers may name a kind or a value type by something that is neither; `KindArgument` and
`ValueTypeArgument` hold what they said.
-/

namespace Metering

/-- The kinds of instruments. -/
inductive InstrumentKind where
  | counter
  | upDownCounter
  | valueRecorder
  | sumObserver
  | upDownSumObserver
  | valueObserver
deriving DecidableEq, Repr

namespace InstrumentKind

/-- The program records into the instrument itself. -/
def isSynchronous : InstrumentKind → Bool
  | .counter | .upDownCounter | .valueRecorder => true
  | .sumObserver | .upDownSumObserver | .valueObserver => false

/-- The instrument's sum never decreases. -/
def isMonotonic : InstrumentKind → Bool
  | .counter | .sumObserver => true
  | .upDownCounter | .valueRecorder | .upDownSumObserver | .valueObserver => false

/-- The name of the kind as a constant. -/
def constant : InstrumentKind → String
  | .counter => "COUNTER"
  | .upDownCounter => "UP_DOWN_COUNTER"
  | .valueRecorder => "VALUE_RECORDER"
  | .sumObserver => "SUM_OBSERVER"
  | .upDownSumObserver => "UP_DOWN_SUM_OBSERVER"
  | .valueObserver => "VALUE_OBSERVER"

/-- The name of the kind in lower case. -/
def label : InstrumentKind → String
  | .counter => "counter"
  | .upDownCounter => "up_down_counter"
  | .valueRecorder => "value_recorder"
  | .sumObserver => "sum_observer"
  | .upDownSumObserver => "up_down_sum_observer"
  | .valueObserver => "value_observer"

/-- The name of an instrument of the kind. -/
def title : InstrumentKind → String
  | .counter => "Counter"
  | .upDownCounter => "UpDownCounter"
  | .valueRecorder => "ValueRecorder"
  | .sumObserver => "SumObserver"
  | .upDownSumObserver => "UpDownSumObserver"
  | .valueObserver => "ValueObserver"

/-- The kind as messages show it. -/
def shown (k : InstrumentKind) : String :=
  "<InstrumentType." ++ k.constant ++ ": '" ++ k.label ++ "'>"

end InstrumentKind

/-- The types of measured values. -/
inductive ValueType where
  | long
  | double
deriving DecidableEq, Repr

namespace ValueType

/-- The name of the value type as a constant. -/
def constant : ValueType → String
  | .long => "LONG"
  | .double => "DOUBLE"

/-- The name of the value type in lower case. -/
def label : ValueType → String
  | .long => "long"
  | .double => "double"

/-- The other of the two value types. -/
def other : ValueType → ValueType
  | .long => .double
  | .double => .long

/-- The value type as messages show it. -/
def shown (v : ValueType) : String :=
  "<InstrumentValueType." ++ v.constant ++ ": '" ++ v.label ++ "'>"

end ValueType

/-- What a caller gives for a kind. -/
inductive KindArgument where
  | kind (k : InstrumentKind)
  | other (s : Scalar)
deriving DecidableEq, Repr

/-- What a caller gives for a value type: a value type, the class of numbers it measures in, or
something else. -/
inductive ValueTypeArgument where
  | valueType (v : ValueType)
  | numberClass (v : ValueType)
  | other (s : Scalar)
deriving DecidableEq, Repr

namespace ValueTypeArgument

/-- The argument as messages show it. -/
def shown : ValueTypeArgument → String
  | .valueType v => v.shown
  | .numberClass .long => "<class 'int'>"
  | .numberClass .double => "<class 'float'>"
  | .other s => s.shown

/-- The value type meant where number classes are accepted too. -/
def resolve? : ValueTypeArgument → Option ValueType
  | .valueType v => some v
  | .numberClass v => some v
  | .other _ => none

/-- The argument as messages call it that miss a part of it. -/
def owner : ValueTypeArgument → String
  | .valueType v => v.shown
  | .numberClass .long => "type object 'int'"
  | .numberClass .double => "type object 'float'"
  | .other s => Text.quote s.typeName ++ " object"

/-- The value type whose measurements are accepted: what is not the long value type counts as
doubles. -/
def measured : ValueTypeArgument → ValueType
  | .valueType .long => .long
  | _ => .double

end ValueTypeArgument

end Metering
