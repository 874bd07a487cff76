import Metering.Failure
import Metering.OrderedMap

/-!
# Observations

A callback reports its values to a sink, which keeps one value for each label set: the last one, at
the place where the label set was first seen.  What a callback does is told as a script, a list of
actions for each of its calls, the last list serving all later calls.
-/

namespace Metering

/-- Where a callback reports its values. -/
structure Sink where
  valueType : ValueType
  observed : OrderedMap LabelSet Number

namespace Sink

/-- The sink of a value type before anything is observed. -/
def empty (valueType : ValueType) : Sink := ⟨valueType, OrderedMap.empty⟩

/-- The sink after a value was observed; the value is checked before the labels. -/
def observe (s : Sink) (value : Scalar) (labels : LabelArgument) : Except Failure Sink :=
  match s.valueType.check value with
  | .error e => .error (.record (.measurement e))
  | .ok n =>
    match LabelSet.create labels with
    | .error e => .error (.labels e)
    | .ok l => .ok { s with observed := s.observed.insert l n }

end Sink

/-- One action of a callback: observing a value, reporting one for later, raising a failure, or
performing a step of the surrounding program. -/
inductive Action (σ : Type) where
  | observe (value : Scalar) (labels : LabelSpec)
  | report (value : Scalar) (labels : LabelSpec)
  | raise (f : Failure)
  | perform (step : σ)

/-- The script of a callback.  Reports of a callback that generates them are observed as they come,
those of any other after all its actions. -/
structure Callback (σ : Type) where
  cycles : List (List (Action σ))
  generates : Bool
  calls : Nat

namespace Callback

variable {σ : Type}

/-- The actions of the next call. -/
def script (c : Callback σ) : List (Action σ) :=
  match c.cycles[c.calls]? with
  | some actions => actions
  | none => c.cycles.getLast?.getD []

/-- The callback after one more call. -/
def next (c : Callback σ) : Callback σ := { c with calls := c.calls + 1 }

end Callback

/-- Observes the reports that a callback has left until its end. -/
def Sink.observeAll (s : Sink) : List (Scalar × LabelArgument) → Except Failure Sink
  | [] => .ok s
  | (value, labels) :: rest =>
    match s.observe value labels with
    | .ok s => s.observeAll rest
    | .error e => .error e

end Metering
