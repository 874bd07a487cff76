import Metering.System.Basic

/-!
# Instruments at work

Recording into an instrument, binding it to a label set, and collecting it.  A synchronous
instrument is an accumulation over the pool of the system; an observer runs its callback, which may
perform steps of the surrounding program, and only then ends its window.
-/

namespace Metering.SystemM

variable {σ : Type}

/-! ### Accumulations within the system -/

/-- Runs a computation on the accumulation of a live map and a processor.  The pool of the system
changes with it; the new live map and processor are handed back even if it fails. -/
def accumulate {α : Type} (live : OrderedMap LabelSet AggregatorId) (p : Processor)
    (x : AccumulationM α) :
    SystemM σ (Except Failure α × OrderedMap LabelSet AggregatorId × Processor) := do
  let s ← get
  let (result, a) := x { pool := s.pool, stream := p.stream, live := live }
  set { s with pool := a.pool }
  return (result, a.live, { p with stream := a.stream })

/-- Runs an operation on the stream of a processor. -/
def withStream {α : Type} (p : Processor) (f : PooledStream → Except Failure α × PooledStream) :
    SystemM σ (Except Failure α × Processor) := do
  let s ← get
  let (result, w) := f { pool := s.pool, stream := p.stream }
  set { s with pool := w.pool }
  return (result, { p with stream := w.stream })

/-- Runs a computation on the accumulation of a synchronous instrument. -/
def onAccumulation {α : Type} (r : Ref .instrument) (x : AccumulationM α) : SystemM σ α := do
  let i ← instrument r
  match i.accumulator, i.processor with
  | .synchronous live, some p =>
    let (result, live, p) ← accumulate live p x
    setInstrument r { i with accumulator := .synchronous live, processor := some p }
    ofExcept result
  | _, _ => throw (.unusable i.descriptor.name)

/-- Records into an aggregator of the pool. -/
def recordInto (a : AggregatorId) (value : Scalar) : SystemM σ Unit := do
  let s ← get
  match s.pool.record a value with
  | .ok p => set { s with pool := p }
  | .error e => throw (.record e)

/-- Gives a reference to an aggregator of the pool back. -/
def releaseAggregator (a : AggregatorId) : SystemM σ Unit :=
  modify fun s => { s with pool := s.pool.release a }

/-- Records into an aggregator and gives a reference back, even if nothing could be recorded. -/
def recordAndRelease (a : AggregatorId) (value : Scalar) : SystemM σ Unit := do
  tryCatch (recordInto a value) fun e => do
    releaseAggregator a
    throw e
  releaseAggregator a

/-! ### Recording -/

/-- The aggregator of an instrument for labels, with one more reference.  An instrument that
discards has one aggregator for all labels and does not look at them. -/
def bindInstrument (r : Ref .instrument) (labels : LabelArgument) : SystemM σ AggregatorId := do
  match (← instrument r).accumulator with
  | .discarding a => return a
  | _ => onAccumulation r (Accumulation.bindArgument labels)

/-- Records a measurement for labels. -/
def recordInstrument (r : Ref .instrument) (value : Scalar) (labels : LabelArgument) :
    SystemM σ Unit := do
  match (← instrument r).accumulator with
  | .discarding a => recordAndRelease a value
  | _ => onAccumulation r (Accumulation.add labels value)

/-- A handle that binds an instrument to labels. -/
def bindHandle (r : Ref .instrument) (labels : LabelArgument) : SystemM σ (Ref .handle) := do
  let i ← instrument r
  let a ← bindInstrument r labels
  let h := (← get).handles.next
  modify fun s =>
    { s with handles := s.handles.add ⟨r, i.descriptor.name, a, false⟩ }
  return h

/-- Records a measurement on a handle; a released handle drops it. -/
def recordHandle (r : Ref .handle) (value : Scalar) : SystemM σ Unit := do
  let h ← demand "handle" ((← get).handles.get? r)
  if h.released then
    report [.warning ("Dropping measurement on released bound instrument of " ++ h.name)]
  else recordInto h.aggregator value

/-- Releases a handle, once. -/
def releaseHandle (r : Ref .handle) : SystemM σ Unit := do
  let h ← demand "handle" ((← get).handles.get? r)
  if h.released then
    report [.warning ("Bound instrument of " ++ h.name ++ " already released")]
  else
    modify fun s => { s with handles := s.handles.set r { h with released := true } }
    releaseAggregator h.aggregator

/-! ### Collecting -/

/-- Runs the actions of a callback into a sink.  Labels are built when their action is reached;
reports wait for the end unless the callback generates them. -/
def runActions (perform : σ → SystemM σ Unit) (generates : Bool) :
    List (Action σ) → Sink → List (Scalar × LabelArgument) → SystemM σ Sink
  | [], sink, reports => ofExcept (sink.observeAll reports.reverse)
  | action :: rest, sink, reports =>
    match action with
    | .observe value labels => do
      let l ← ofExcept (labels.argument.mapError Failure.labels)
      runActions perform generates rest (← ofExcept (sink.observe value l)) reports
    | .report value labels => do
      let l ← ofExcept (labels.argument.mapError Failure.labels)
      if generates then
        runActions perform generates rest (← ofExcept (sink.observe value l)) reports
      else runActions perform generates rest sink ((value, l) :: reports)
    | .raise f => throw f
    | .perform step => do
      perform step
      runActions perform generates rest sink reports

/-- Calls a callback and says what it observed, or nothing if it is missing or failed; a failure is
reported under the instrument's name. -/
def callBack (perform : σ → SystemM σ Unit) (name : String) (valueType : ValueType) :
    Option (Callback σ) → SystemM σ (Option (List (LabelSet × Number)))
  | none => return none
  | some c => do
    match ← attempt (runActions perform c.generates c.script (Sink.empty valueType) []) with
    | .ok sink => return some sink.observed.entries
    | .error e =>
      report [.failed ("Callback of observer " ++ name ++ " failed") e]
      return none

/-- Completes a collection cycle of an instrument, at the given time or at the one that its clock
shows when the cycle ends. -/
def collectInstrument (perform : σ → SystemM σ Unit) (r : Ref .instrument) (time : Option Int) :
    SystemM σ (List Metric) := do
  let i ← instrument r
  match i.accumulator, i.processor with
  | .synchronous _, some p =>
    onAccumulation r (Accumulation.collect Accumulation.undisturbed (← timeOr p.clock time))
  | .asynchronous, some p =>
    -- the call counts even if it fails
    setInstrument r { i with callback := i.callback.map Callback.next }
    let observed ← callBack perform i.descriptor.name i.descriptor.valueType i.callback
    let time ← timeOr p.clock time
    -- the callback may have changed the instrument
    let i ← instrument r
    let (result, p) ← withStream (i.processor.getD p) (·.close observed time)
    setInstrument r { i with processor := some p }
    ofExcept result
  | _, _ => return []

end Metering.SystemM
