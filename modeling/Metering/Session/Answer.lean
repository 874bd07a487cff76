import Metering.System.Basic

/-!
# Answers

Every step has an answer.  An `Answer` is typed by what it shows; several things that one step
answers with are kept together as a list.
-/

namespace Metering

/-- The answer of a step. -/
inductive Answer where
  /-- The step has nothing to say. -/
  | nothing
  | flag (b : Bool)
  | integer (n : Int)
  /-- A name or another text, or that there is none. -/
  | text (s : Option String)
  | labels (l : LabelSet)
  | labelSets (l : List LabelSet)
  /-- The label sets of a window in their order, and the start of the window. -/
  | window (labels : List LabelSet) (start : Int)
  /-- What an aggregator says by itself, outside any window. -/
  | state (value : Option PointValue)
  | point (p : Option Point)
  /-- Metrics, with the times of their points if those are known. -/
  | metrics (ms : List Metric) (timed : Bool)
  | observations (l : List (LabelSet × Number))
  | schedule (interval : Number) (seconds : Binary64)
  | deliveries (batches : List (List Metric)) (shutdowns : Nat) (timed : Bool)
  | several (parts : List Answer)

/-- What became of a step: its answer or its failure, with the messages and the delays that it
produced. -/
structure Outcome where
  result : Except Failure Answer
  log : List LogEntry
  waits : List Number

end Metering
