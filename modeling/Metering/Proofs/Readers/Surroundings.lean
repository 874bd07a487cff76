import Metering.Proofs.Fallible
import Metering.Proofs.Pipeline.Exporting
import Metering.Session.Pipeline

/-!
# Periodic readers and their surroundings

A periodic reader collects, offers what it has collected to its exporter, shuts the exporter down at
the end, writes to the log, and changes its own schedule.  `Surroundings` are computations for
these, on states of any kind, and everything that a reader does is written for all of them.

The readers of a system have the system for their surroundings (`SystemM.surroundings`), and there
they do just this (`ReaderStep.perform_eq_answer`).
-/

namespace Metering

open Fallible

/-- A computation on states of any kind that may fail. -/
abbrev FallibleM (S α : Type) := ExceptT Failure (StateM S) α

/-- What a periodic reader uses. -/
structure Surroundings (S : Type) where
  /-- Collects once. -/
  collect : FallibleM S (List Metric)
  /-- Offers a batch, with the limit of the attempts and the longest delay between them. -/
  offer : Number → Binary64 → List Metric → FallibleM S Bool
  /-- Shuts the exporter down. -/
  close : FallibleM S Unit
  report : List LogEntry → FallibleM S Unit
  /-- Changes the schedule of the reader. -/
  change : (Schedule → Schedule) → FallibleM S Unit

/-- What a periodic reader is asked to do. -/
inductive ReaderCall where
  | tick
  | flush
  | shutdown
deriving DecidableEq, Repr

/-- The step of a program that asks a reader. -/
def ReaderCall.step (id : String) : ReaderCall → ReaderStep
  | tick => .tick id
  | flush => .flush id
  | shutdown => .shutdown id

/-- The result of shutting an exporter down, which may fail. -/
def Exporter.closing {α : Type} (a : α) : Option Failure → Except Failure α
  | none => .ok a
  | some f => .error f

/-- Runs a computation and turns a failure into an answer. -/
def Fallible.caught {S α : Type} (x : FallibleM S α) : FallibleM S (Except Failure α) := fun s =>
  (.ok (x s).1, (x s).2)

theorem Fallible.Keeps.caught {S α : Type} {I : S → Prop} {x : FallibleM S α} (hx : Keeps I x) :
    Keeps I (Fallible.caught x) := hx

namespace Surroundings

variable {S : Type} (w : Surroundings S) (c : Schedule)

/-- Exports a batch, if there is a longest delay. -/
def exportMetrics (metrics : List Metric) : FallibleM S Bool :=
  match Delivery.seconds? c.timeout with
  | none => throw .tooLarge
  | some cap => w.offer c.attempts cap metrics

/-- Collects and exports once. -/
def collectAndExport : FallibleM S Bool := do
  match ← caught w.collect with
  | .error e =>
    w.report [.failed "Exception while collecting metrics" e]
    return false
  | .ok [] => return true
  | .ok metrics => w.exportMetrics c metrics

/-- One interval passes. -/
def tick : FallibleM S Bool :=
  if c.ticking then do
    w.change fun c => { c with inProgress := true }
    let result ← caught (w.collectAndExport c)
    w.change fun c => { c with inProgress := false }
    match result with
    | .ok _ => return true
    | .error e =>
      w.change fun c => { c with ticking := false }
      throw e
  else return false

/-- Collects and exports at once. -/
def flush : FallibleM S Bool :=
  if c.isShutDown then do
    w.report [.warning "Can't force flush, reader is shut down"]
    return false
  else w.collectAndExport c

/-- Stops the intervals, exports once more, and shuts the exporter down. -/
def shutdown : FallibleM S Unit :=
  if c.isShutDown then w.report [SystemM.alreadyShutDown]
  else do
    w.change fun c => { c with ticking := false }
    if c.inProgress then throw .ownInterval
    let _ ← w.collectAndExport c
    w.change fun c => { c with isShutDown := true }
    w.close

/-- Does what a reader with the schedule is asked to do. -/
def answer : ReaderCall → FallibleM S Answer
  | .tick => do return .flag (← w.tick c)
  | .flush => do return .flag (← w.flush c)
  | .shutdown => do
    w.shutdown c
    return .nothing

end Surroundings

/-! ### Readers of a system -/

namespace SystemM

variable {σ : Type} {perform : σ → SystemM σ Unit} {r : Ref .reader} {c : Schedule}

/-- The surroundings of a reader in a system, with the given exporter. -/
def surroundings (perform : σ → SystemM σ Unit) (r : Ref .reader) (e : Ref .exporter) :
    Surroundings (System σ) where
  collect := collectReader perform r
  offer limit cap metrics := do
    let x ← exporter e
    let (outcome, x) := Delivery.deliver limit cap metrics x
    setExporter e x
    modify fun s => { s with log := s.log ++ outcome.log, waits := s.waits ++ outcome.waits }
    ofExcept outcome.answer
  close := shutdownExporter e
  report := report
  change := modifySchedule r

theorem reader_apply {s : System σ} {x : Reader} (hx : s.readers.get? r = some x) :
    reader r s = (.ok x, s) := by
  unfold reader
  simp only [bind_apply, get_apply, demand_apply, hx]

section

variable {s : System σ} {x : Reader} (hx : s.readers.get? r = some x)
  (hmode : x.mode = .periodic c)
include hx hmode

theorem tick_eq (perform : σ → SystemM σ Unit) :
    tick perform r s = (surroundings perform r c.exporter).tick c s := by
  unfold tick
  rw [bind_apply, reader_apply hx]
  dsimp only
  rw [hmode]
  rfl

theorem flushReader_eq (perform : σ → SystemM σ Unit) :
    flushReader perform r s = (surroundings perform r c.exporter).flush c s := by
  unfold flushReader
  rw [bind_apply, reader_apply hx]
  dsimp only
  rw [hmode]
  rfl

theorem shutdownReader_eq (perform : σ → SystemM σ Unit) :
    shutdownReader perform r s = (surroundings perform r c.exporter).shutdown c s := by
  unfold shutdownReader
  rw [bind_apply, reader_apply hx]
  dsimp only
  rw [hmode]
  rfl

end

end SystemM

open SystemM in
/-- **The periodic readers** of a system do what readers do in any surroundings. -/
theorem ReaderStep.perform_eq_answer {σ : Type} {s : System σ} {id : String} {r : Ref .reader}
    {x : Reader} {c : Schedule} (hid : find .reader id s = (.ok r, s))
    (hx : s.readers.get? r = some x) (hmode : x.mode = .periodic c)
    (perform : σ → SystemM σ Unit) (call : ReaderCall) :
    (call.step id).perform perform s = (surroundings perform r c.exporter).answer c call s := by
  cases call with
  | tick =>
    unfold ReaderCall.step ReaderStep.perform Surroundings.answer
    simp only [bind_apply, hid, tick_eq hx hmode]
  | flush =>
    unfold ReaderCall.step ReaderStep.perform Surroundings.answer
    simp only [bind_apply, hid, flushReader_eq hx hmode]
  | shutdown =>
    unfold ReaderCall.step ReaderStep.perform Surroundings.answer
    simp only [bind_apply, hid, shutdownReader_eq hx hmode]

end Metering
