import Metering.Session.Answer

/-!
# Naming in a session

Steps refer to components by name.  A name is resolved when the step that uses it is performed, and
what a step makes is named only when it has been made.
-/

namespace Metering.SystemM

variable {σ : Type}

/-- What a name stands for. -/
def named (id : String) : SystemM σ Entity := do demand id ((← get).names.get? id)

/-- The component of a sort that a name stands for. -/
def find (c : Component) (id : String) : SystemM σ (Ref c) := do
  demand id ((← named id).ref? c)

/-- The aggregator that a name stands for. -/
def findAggregator (id : String) : SystemM σ AggregatorId := do
  demand id (← named id).aggregator?

/-- Gives a name to an entity. -/
def name (id : String) (e : Entity) : SystemM σ Unit :=
  modify fun s => { s with names := s.names.insert id e }

/-- Gives a name to an entity and answers with the first name that it had before. -/
def nameAgain (id : String) (e : Entity) : SystemM σ Answer := do
  let before := (← get).names.nameOf? e
  name id e
  return .text before

/-- The labels of a description. -/
def labelArgument (spec : LabelSpec) : SystemM σ LabelArgument :=
  ofExcept (spec.argument.mapError Failure.labels)

/-- The label set of a description. -/
def labelSet (spec : LabelSpec) : SystemM σ LabelSet := do
  ofExcept ((LabelSet.create (← labelArgument spec)).mapError Failure.labels)

end Metering.SystemM
