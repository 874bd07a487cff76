import Metering.Session.Pipeline
import Metering.Session.Standalone

/-!
# Running a session

A session performs the steps of a program one after the other on a system that begins empty.  A step
that fails ends there, what it changed before stays, and the next step goes on.  Nothing comes after
a step that never ends.  Callbacks perform steps while a step is in progress; their answers are
dropped and their failures end the callback, as does one of their steps that never ends.

The depth to which steps may nest is bounded by the number of steps in the program, as `Step.depth`
explains, so that bound is never met.
-/

namespace Metering.Session

/-- Performs a step within which steps may nest to a given depth. -/
def perform : Nat → Step → SystemM Step Answer
  | 0, _ => throw (.unusable "callback")
  | depth + 1, step =>
    let nested : Step → SystemM Step Unit := fun s => do
      let _ ← perform depth s
    match step with
    | .environment s => s.perform
    | .clock s => s.perform
    | .aggregator s => s.perform
    | .processor s => s.perform
    | .accumulator s => s.perform nested
    | .sink s => s.perform
    | .provider s => s.perform nested
    | .meter s => s.perform nested
    | .instrument s => s.perform nested
    | .handle s => s.perform
    | .exporter s => s.perform nested
    | .reader s => s.perform nested

/-- The system when a step begins: no messages and no delays yet. -/
def calm (s : System Step) : System Step := { s with log := [], waits := [] }

/-- What becomes of a step, and the system afterwards. -/
def advance (depth : Nat) (step : Step) (s : System Step) : Outcome × System Step :=
  let (result, s) := perform depth step (calm s)
  (⟨result, s.log, s.waits⟩, s)

/-- What becomes of steps performed one after the other. -/
def runFrom (depth : Nat) (s : System Step) : List Step → List Outcome
  | [] => []
  | step :: rest =>
    let (outcome, s) := advance depth step s
    match outcome.result with
    | .error .endless => [outcome]
    | _ => outcome :: runFrom depth s rest

/-- What becomes of the steps of a program. -/
def run (steps : List Step) : List Outcome :=
  runFrom (Step.depth steps) System.empty steps

end Metering.Session
