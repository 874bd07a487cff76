import Metering.System.Provider

/-!
# Readers

A reader triggers the collections of the provider that it is registered with.  A periodic reader
also exports what it collects, again and again with growing delays if the exporter asks for it; a
failure of the collection or of the exporter is reported and ends there.  Shutting a periodic reader
down stops its intervals, exports once more, and shuts its exporter down.
-/

namespace Metering

/-- The name of a reader. -/
def ReaderMode.title : ReaderMode → String
  | .onDemand => "InMemoryMetricReader"
  | .periodic _ => "PeriodicExportingMetricReader"

/-- What a periodic reader is asked for with. -/
structure ScheduleRequest where
  interval : Option Number := none
  timeout : Option Number := none
  attempts : Option Number := none
deriving Repr

namespace Schedule

/-- The milliseconds between exports unless told otherwise. -/
def defaultInterval : Int := 60000

/-- The greatest delay between attempts, in milliseconds, unless told otherwise. -/
def defaultTimeout : Int := 30000

/-- The number of attempts unless told otherwise. -/
def defaultAttempts : Int := 5

/-- What is wrong with the numbers of a schedule: the interval must be positive, and there must be
at least one attempt. -/
def error? (interval attempts : Number) : Option ScheduleError :=
  if interval.le (.integer 0) then some (.interval interval)
  else if attempts.lt (.integer 1) then some (.attempts attempts)
  else none

/-- Whether the first interval ends, where `longest` is the longest time in seconds that can be
waited for.  Otherwise there are no intervals at all. -/
def begins (longest : Binary64) (interval : Number) : Bool :=
  (Delivery.seconds? interval).any fun seconds => !longest.lt seconds

end Schedule

namespace SystemM

variable {σ : Type}

/-! ### Making readers -/

/-- Adds a reader that is not registered yet. -/
def addReader (mode : ReaderMode) : SystemM σ (Ref .reader) := do
  let r := (← get).readers.next
  modify fun s => { s with readers := s.readers.add ⟨none, true, mode⟩ }
  return r

/-- The number of milliseconds given, or the setting of the environment. -/
def millisOr (name : String) (default : Int) : Option Number → SystemM σ Number
  | some n => return n
  | none => do
    let (n, entries) := (← get).environment.millis name default
    report entries
    return .integer n

/-- A new periodic reader, and the milliseconds between its exports.  A reader that cannot wait for
its first interval is made all the same: it can still be flushed and shut down. -/
def newPeriodicReader (longest : Binary64) (e : Ref .exporter) (q : ScheduleRequest) :
    SystemM σ (Ref .reader × Number) := do
  let interval ← millisOr Environment.exportInterval Schedule.defaultInterval q.interval
  let timeout ← millisOr Environment.exportTimeout Schedule.defaultTimeout q.timeout
  let attempts := q.attempts.getD (.integer Schedule.defaultAttempts)
  match Schedule.error? interval attempts with
  | some error => throw (.schedule error)
  | none =>
    let r ← addReader (.periodic
      { exporter := e
        interval := interval
        timeout := timeout
        attempts := attempts
        ticking := Schedule.begins longest interval
        inProgress := false
        isShutDown := false })
    return (r, interval)

/-! ### Collecting and exporting -/

/-- The metrics of the provider that a reader is registered with. -/
def collectReader (perform : σ → SystemM σ Unit) (r : Ref .reader) : SystemM σ (List Metric) := do
  let x ← reader r
  match x.provider with
  | none =>
    report [.debug (x.mode.title ++ " is not registered with a MeterProvider")]
    return []
  | some p => collectProvider perform p

/-- Delivers metrics to the exporter of a schedule, which may never end. -/
def exportMetrics (s : Schedule) (metrics : List Metric) : SystemM σ Bool := do
  match Delivery.seconds? s.timeout with
  | none => throw .tooLarge
  | some cap =>
    let e ← exporter s.exporter
    let (outcome, e) := Delivery.deliver s.attempts cap metrics e
    setExporter s.exporter e
    modify fun s => { s with log := s.log ++ outcome.log, waits := s.waits ++ outcome.waits }
    ofExcept outcome.answer

/-- Collects and exports once; true if there was nothing to export or it was taken. -/
def collectAndExport (perform : σ → SystemM σ Unit) (r : Ref .reader) (s : Schedule) :
    SystemM σ Bool := do
  match ← attempt (collectReader perform r) with
  | .error e =>
    report [.failed "Exception while collecting metrics" e]
    return false
  | .ok [] => return true
  | .ok metrics => exportMetrics s metrics

/-- Changes the schedule of a reader. -/
def modifySchedule (r : Ref .reader) (f : Schedule → Schedule) : SystemM σ Unit := do
  let x ← reader r
  match x.mode with
  | .onDemand => return ()
  | .periodic s => setReader r { x with mode := .periodic (f s) }

/-- One interval passes: a reader whose intervals have not been stopped collects and exports.  A
failure that is not caught on the way stops the intervals, as a shutdown from within does. -/
def tick (perform : σ → SystemM σ Unit) (r : Ref .reader) : SystemM σ Bool := do
  match (← reader r).mode with
  | .onDemand => return false
  | .periodic s =>
    if s.ticking then
      modifySchedule r fun s => { s with inProgress := true }
      let result ← attempt (collectAndExport perform r s)
      modifySchedule r fun s => { s with inProgress := false }
      match result with
      | .ok _ => return true
      | .error e =>
        modifySchedule r fun s => { s with ticking := false }
        throw e
    else return false

/-- Collects and exports at once, if the reader exports at all. -/
def flushReader (perform : σ → SystemM σ Unit) (r : Ref .reader) : SystemM σ Bool := do
  match (← reader r).mode with
  | .onDemand => return true
  | .periodic s =>
    if s.isShutDown then
      report [.warning "Can't force flush, reader is shut down"]
      return false
    else collectAndExport perform r s

/-- The text for a second shutdown. -/
def alreadyShutDown : LogEntry := .warning "shutdown can only be called once"

/-- Shuts an exporter down; it counts as shut down even if that fails. -/
def shutdownExporter (r : Ref .exporter) : SystemM σ Unit := do
  let (failure, e) := (← exporter r).shutdown
  setExporter r e
  match failure with
  | some f => throw f
  | none => return ()

/-- Shuts a reader down.  Its intervals are stopped and the one in progress is waited for, which is
refused to a caller that runs in that interval itself; the reader then goes on as if nobody had
asked, but has no further intervals. -/
def shutdownReader (perform : σ → SystemM σ Unit) (r : Ref .reader) : SystemM σ Unit := do
  match (← reader r).mode with
  | .onDemand => return ()
  | .periodic s =>
    if s.isShutDown then report [alreadyShutDown]
    else
      modifySchedule r fun s => { s with ticking := false }
      if s.inProgress then throw .ownInterval
      -- the last export takes place before the reader counts as shut down
      let _ ← collectAndExport perform r s
      modifySchedule r fun s => { s with isShutDown := true }
      shutdownExporter s.exporter

/-! ### Providers with their readers -/

/-- Flushes readers one after the other; true if all of them succeeded. -/
def flushReaders (perform : σ → SystemM σ Unit) : List (Ref .reader) → SystemM σ Bool
  | [] => return true
  | r :: rest => do
    let first ← flushReader perform r
    let others ← flushReaders perform rest
    return first && others

/-- Flushes all readers of a provider. -/
def flushProvider (perform : σ → SystemM σ Unit) (r : Ref .provider) : SystemM σ Bool := do
  flushReaders perform (← provider r).readers

/-- Shuts all readers of a provider down and then the provider itself. -/
def shutdownProvider (perform : σ → SystemM σ Unit) (r : Ref .provider) : SystemM σ Unit := do
  let p ← provider r
  if p.isShutDown then report [alreadyShutDown]
  else
    p.readers.forM (shutdownReader perform)
    -- the last exports may have changed the provider
    let p ← provider r
    setProvider r { p with isShutDown := true }

end SystemM

end Metering
