import Metering.Instrument.Kind

/-!
# Measurements

A scalar can be measured in a value type when it is a number of a suitable kind: integers only for
long values, any number for doubles, and never a truth value.  Checking comes before converting: an
integer that no double can hold passes the check for doubles and is refused only when it is
recorded.
-/

namespace Metering

/-- Why a measurement is refused. -/
inductive MeasurementError where
  | truthValue (b : Bool)
  | notLong (s : Scalar)
  | notDouble (s : Scalar)
deriving DecidableEq, Repr

namespace MeasurementError

/-- The text of a refused measurement. -/
def message : MeasurementError → String
  | .truthValue b => "Invalid measurement " ++ (Scalar.boolean b).shown
  | .notLong s => "Long instruments only accept int values, got " ++ s.shown
  | .notDouble s => "Double instruments only accept float values, got " ++ s.shown

end MeasurementError

/-- The integer that a scalar measures in long values. -/
def checkLong : Scalar → Except MeasurementError Int
  | .boolean b => .error (.truthValue b)
  | .number (.integer n) => .ok n
  | s => .error (.notLong s)

/-- The number that a scalar measures in doubles, not yet converted to one. -/
def checkDouble : Scalar → Except MeasurementError Number
  | .boolean b => .error (.truthValue b)
  | .number n => .ok n
  | s => .error (.notDouble s)

/-- The number that a scalar measures in a value type. -/
def ValueType.check : ValueType → Scalar → Except MeasurementError Number
  | .long, s => (checkLong s).map Number.integer
  | .double, s => checkDouble s

end Metering
