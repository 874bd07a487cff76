import Metering.Log

/-!
# Exporters

An exporter receives the metrics of a collection and says how it went.  One keeps them in memory
until it is shut down, one writes them as text, and one answers after a script and keeps every
batch, also those it refuses.
-/

namespace Metering

/-- How an export went. -/
inductive ExportOutcome where
  | success
  | retryable
  | rejected
  | unknown
  | raised (f : Failure)
deriving DecidableEq, Repr

namespace ExportOutcome

/-- The name of an outcome as a constant; an unknown one has none. -/
def constant? : ExportOutcome → Option String
  | .success => some "SUCCESS"
  | .retryable => some "FAILED_RETRYABLE"
  | .rejected => some "FAILED_NOT_RETRYABLE"
  | _ => none

end ExportOutcome

/-- How a writing exporter writes a metric on its line. -/
inductive LineFormat where
  | whole
  | name
deriving DecidableEq, Repr

/-- The line of a metric. -/
def LineFormat.line (f : LineFormat) (m : Metric) : String :=
  match f with
  | .whole => m.shown ++ "\n"
  | .name => m.name ++ "\n"

/-- A receiver of metrics. -/
inductive Exporter where
  | memory (finished : List Metric) (stopped : Bool)
  | console (format : LineFormat) (written : String)
  | scripted (outcomes : List ExportOutcome) (batches : List (List Metric)) (shutdowns : Nat)
      (shutdownFailure : Option Failure)
deriving DecidableEq, Repr

namespace Exporter

/-- The outcome of a script's export after the given number of earlier ones. -/
def outcomeAfter (outcomes : List ExportOutcome) (earlier : Nat) : ExportOutcome :=
  match outcomes[earlier]? with
  | some o => o
  | none => outcomes.getLast?.getD .success

/-- How exporting metrics goes, and the exporter afterwards. -/
def send (metrics : List Metric) : Exporter → ExportOutcome × Exporter
  | .memory finished stopped =>
    if stopped then (.rejected, .memory finished stopped)
    else (.success, .memory (finished ++ metrics) stopped)
  | .console format written =>
    (.success, .console format (metrics.foldl (fun text m => text ++ format.line m) written))
  | .scripted outcomes batches shutdowns failure =>
    (outcomeAfter outcomes batches.length,
      .scripted outcomes (batches ++ [metrics]) shutdowns failure)

/-- What shutting the exporter down fails with, if it does, and the exporter afterwards. -/
def shutdown : Exporter → Option Failure × Exporter
  | .memory finished _ => (none, .memory finished true)
  | .console format written => (none, .console format written)
  | .scripted outcomes batches shutdowns failure =>
    (failure, .scripted outcomes batches (shutdowns + 1) failure)

/-- The exporter without the metrics it keeps in memory. -/
def clear : Exporter → Exporter
  | .memory _ stopped => .memory [] stopped
  | e => e

/-- After this many further exports the outcomes of the exporter no longer change. -/
def patience : Exporter → Nat
  | .scripted outcomes .. => outcomes.length + 1
  | _ => 1

end Exporter

end Metering
