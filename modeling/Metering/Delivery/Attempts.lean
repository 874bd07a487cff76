import Metering.Delivery.Backoff
import Metering.Exporter

/-!
# Delivering a batch

A batch is offered to an exporter until it takes it, refuses it for good, raises, or has answered
otherwise as often as it may.  After each attempt but the last there is a delay.  Every way of not
delivering the batch leaves one message that says which it was.

Where nothing limits the attempts, and the exporter never stops asking for more of them, they never
come to an end.  Such attempts are followed for some time only, and the report says so.
-/

namespace Metering.Delivery

/-- What became of a batch.  Nothing has become of it yet if the attempts have not `ended`. -/
structure Report where
  ended : Bool
  delivered : Bool
  attempts : Nat
  waits : List Number
  log : List LogEntry
deriving DecidableEq, Repr

/-- The least number of attempts that reaches a limit; nothing if no number does. -/
def allowed? : Number → Option Nat
  | .integer n => some n.toNat
  | .double (.finite false units) =>
    some ((units + Binary64.unitsPerOne - 1) / Binary64.unitsPerOne)
  | .double (.finite true _) => some 0
  | .double (.infinity true) => some 0
  | .double _ => none

/-- Says that a batch is offered again after a delay. -/
def retryMessage (size : Nat) (d : Number) : String :=
  "Retrying export of " ++ toString size ++ " metrics in " ++ d.text ++ "s"

/-- Says that a batch has used up its attempts. -/
def dropMessage (size attempts : Nat) : String :=
  "Dropping " ++ toString size ++ " metrics after " ++ toString attempts
    ++ " failed export attempts"

/-- Says that a batch was refused for good. -/
def refusalMessage (size : Nat) : String :=
  "Failed to export " ++ toString size ++ " metrics"

/-- Says that the exporter raised. -/
def raisedMessage : String := "Exception while exporting metrics"

/-- The report of a batch whose last attempt is told by the message, if it failed. -/
def Report.final (attempts : Nat) (failure : Option LogEntry) : Report :=
  ⟨true, failure.isNone, attempts, [], failure.toList⟩

/-- The report of a batch that was delayed once before the rest. -/
def Report.afterDelay (message : String) (d : Number) (rest : Report) : Report :=
  { rest with waits := d :: rest.waits, log := .debug message :: rest.log }

/-- What is answered to whoever offered the batch. -/
def Report.answer (r : Report) : Except Failure Bool :=
  if r.ended then .ok r.delivered else .error .endless

/-- Offers a batch of the given size.  The first number bounds the attempts that are followed, the
second counts those made before; the batch is dropped when the count reaches what is allowed. -/
def attempt {ε : Type} (send : ε → ExportOutcome × ε) (allowed : Option Nat) (cap : Binary64)
    (size : Nat) : Nat → Nat → ε → Report × ε
  | 0, made, e => (⟨false, false, made, [], []⟩, e)
  | fuel + 1, made, e =>
    let (outcome, e) := send e
    let made' := made + 1
    match outcome with
    | .success => (.final made' none, e)
    | .raised f => (.final made' (some (.failed raisedMessage f)), e)
    | .rejected => (.final made' (some (.warning (refusalMessage size))), e)
    | .retryable | .unknown =>
      if allowed.any (· ≤ made') then
        (.final made' (some (.warning (dropMessage size made'))), e)
      else
        let d := delay cap made
        let (rest, e) := attempt send allowed cap size fuel made' e
        (rest.afterDelay (retryMessage size d) d, e)

/-- Offers a batch to an exporter.  Without a limit the attempts are followed until the outcomes of
the exporter no longer change: if it still asks for more of them, then it always will. -/
def deliver (limit : Number) (cap : Binary64) (metrics : List Metric) (e : Exporter) :
    Report × Exporter :=
  let allowed := (allowed? limit).map (max 1)
  attempt (Exporter.send metrics) allowed cap metrics.length (allowed.getD e.patience) 0 e

end Metering.Delivery
