import Metering.Session.Naming
import Metering.Session.Step

/-!
# Steps on components that stand alone

The environment, clocks, single aggregators, and the parts of an instrument that a program may use
without a provider: processors, accumulators and sinks.
-/

namespace Metering

open SystemM

variable {σ : Type}

/-- The answer of an environment step. -/
def EnvironmentStep.perform : EnvironmentStep → SystemM σ Answer
  | assign name value => do
    modify fun s => { s with environment := s.environment.assign name value }
    return .nothing
  | readMillis name default => do
    let (n, entries) := (← get).environment.millis name default
    report entries
    return .integer n
  | readDisabled => return .flag (← get).environment.isDisabled

/-! ### Clocks -/

/-- Changes a named clock and answers with the time it shows then. -/
def moveClock (id : String) (f : Clock → Clock) : SystemM σ Answer := do
  let r ← find .clock id
  let c := f (← clock r)
  modify fun s => { s with clocks := s.clocks.set r c }
  return .integer c.now

/-- The answer of a clock step. -/
def ClockStep.perform : ClockStep → SystemM σ Answer
  | create id start => do
    let c := Clock.manual (start.getD Clock.defaultStart)
    name id (.component .clock (← newClock c))
    return .integer c.now
  | set id time => moveClock id (Clock.setTo time)
  | advanceNanos id nanos => moveClock id (Clock.advance nanos)
  | advanceMillis id millis => moveClock id (Clock.advance (Clock.nanosOfMillis millis))

/-! ### Aggregators -/

/-- What an aggregator of the pool says by itself. -/
def stateOf (i : AggregatorId) : SystemM σ Answer := do
  return .state ((← get).pool.get i).value?

/-- The kind and the value type of an aggregator of the pool. -/
def describeAggregator (i : AggregatorId) : SystemM σ Answer := do
  let a := (← get).pool.get i
  return .several [.text (some a.kind.title), .text (some a.valueType.measured.label)]

/-- Replaces the pool by what an operation makes of it. -/
def changePool (f : Pool → Except Failure Pool) : SystemM σ Unit := do
  let s ← get
  match f s.pool with
  | .ok p => set { s with pool := p }
  | .error e => throw e

/-- Replaces the pool if an operation succeeds, and answers whether it did. -/
def tryPool (f : Pool → Option Pool) : SystemM σ Answer := do
  let s ← get
  match f s.pool with
  | some p =>
    set { s with pool := p }
    return .flag true
  | none => return .flag false

/-- The answer of an aggregator step. -/
def AggregatorStep.perform : AggregatorStep → SystemM σ Answer
  | create id shape valueType => do
    let s ← ofExcept (shape.build.mapError Failure.boundaries)
    let i ← newAggregator (Aggregator.fresh s valueType)
    name id (.aggregator i)
    describeAggregator i
  | record id valueType value => do
    let i ← findAggregator id
    changePool fun p =>
      match valueType with
      | some v => (p.recordAs i v value).mapError Failure.record
      | none => (p.record i value).mapError Failure.record
    stateOf i
  | merge source target => do
    let i ← findAggregator source
    let j ← findAggregator target
    changePool fun p => (p.move i j).mapError Failure.merge
    return .several [← stateOf i, ← stateOf j]
  | point id start stop labels => do
    let i ← findAggregator id
    let l ← labelSet labels
    return .point (((← get).pool.get i).point? start stop l)
  | acquire id => do
    let i ← findAggregator id
    tryPool (·.acquire? i)
  | release id => do
    releaseAggregator (← findAggregator id)
    return .nothing
  | retire id => do
    let i ← findAggregator id
    tryPool (·.retire? i)

/-! ### Processors -/

/-- The window of a processor. -/
def windowOf (r : Ref .processor) : SystemM σ Answer := do
  let s := (← processor r).stream
  return .window s.window.keys s.start

/-- Runs an operation on the stream of a processor, which is changed even if the operation fails. -/
def onProcessor {α : Type} (r : Ref .processor)
    (f : PooledStream → Except Failure α × PooledStream) : SystemM σ α := do
  let (result, p) ← withStream (← processor r) f
  setProcessor r p
  ofExcept result

/-- A new processor for a request.  The descriptor is built first, then the aggregation, then the
resource. -/
def newProcessor (q : ProcessorRequest) : SystemM σ (Ref .processor) := do
  let d ← ofExcept (q.descriptor.build.mapError Failure.descriptor)
  let a ← ofExcept (q.aggregation.build.mapError Failure.boundaries)
  let labels ← labelSet q.resource
  let c ← find .clock q.clock
  let stream : Stream :=
    { descriptor := d
      aggregation := a
      temporality := q.temporality
      resource := ⟨labels⟩
      library := q.library
      start := ← now c
      window := OrderedMap.empty }
  let r := (← get).processors.next
  modify fun s => { s with processors := s.processors.add ⟨stream, c⟩ }
  return r

/-- The answer of a processor step. -/
def ProcessorStep.perform : ProcessorStep → SystemM σ Answer
  | create id request => do
    let r ← newProcessor request
    name id (.component .processor r)
    windowOf r
  | createAggregator id aggregator => do
    let i ← onProcessor (← find .processor id) fun w =>
      let (i, w) := w.create
      (.ok i, w)
    name aggregator (.aggregator i)
    describeAggregator i
  | batch id labels aggregator unmapped => do
    let r ← find .processor id
    let i ← findAggregator aggregator
    let l ← labelSet labels
    onProcessor r (·.batch l i unmapped)
    return .several [← windowOf r, ← stateOf i]
  | complete id time => do
    let r ← find .processor id
    let time ← timeOr (← processor r).clock time
    let metrics ← onProcessor r fun w =>
      let (metrics, w) := w.complete time
      (.ok metrics, w)
    return .several [.metrics metrics true, ← windowOf r]
  | skip id time => do
    let r ← find .processor id
    let time ← timeOr (← processor r).clock time
    onProcessor r fun w => (.ok (), w.skip time)
    windowOf r
  | inspect id => do windowOf (← find .processor id)

/-! ### Accumulators -/

/-- A new accumulator under a name. -/
def newSharedAccumulator (id : String) (a : SharedAccumulator) : SystemM σ Answer := do
  let r := (← get).accumulators.next
  modify fun s => { s with accumulators := s.accumulators.add a }
  name id (.component .accumulator r)
  return .nothing

/-- The label sets that are live in an accumulator. -/
def liveOf (r : Ref .accumulator) : SystemM σ Answer := do
  match (← accumulator r).accumulator with
  | .synchronous live => return .labelSets live.keys
  | _ => return .labelSets []

/-- Runs a computation on the accumulation of a synchronous accumulator. -/
def onShared {α : Type} (r : Ref .accumulator) (x : AccumulationM α) : SystemM σ α := do
  let a ← accumulator r
  match a.accumulator, a.processor with
  | .synchronous live, some q =>
    let (result, live, p) ← accumulate live (← processor q) x
    setAccumulator r { a with accumulator := .synchronous live }
    setProcessor q p
    ofExcept result
  | _, _ => throw (.unusable "accumulator")

/-- What other threads add when the collection has tried to retire an aggregator.  Each addition
counts for itself: one that fails changes nothing for the next. -/
def InterleavedAdds.run (x : InterleavedAdds) (a : Accumulation) : Accumulation :=
  x.adds.foldl (fun a add =>
    match add.1.argument with
    | .ok labels => (Accumulation.add labels add.2 a).2
    | .error _ => a) a

/-- The additions that are due when the aggregator of each label set in the live map was tried. -/
def interference (live : OrderedMap LabelSet AggregatorId)
    (l : List (LabelSet × InterleavedAdds)) : Accumulation.Interference :=
  fun i a => l.foldl (fun a x => if live.get? x.1 = some i then x.2.run a else a) a

/-- Collects an accumulator. -/
def collectShared (perform : σ → SystemM σ Unit) (r : Ref .accumulator) (time : Option Int)
    (callback : Option (Callback σ)) (interleaved : List InterleavedAdds) :
    SystemM σ (List Metric) := do
  let a ← accumulator r
  match a.accumulator, a.processor with
  | .synchronous live, some q =>
    let others ← interleaved.mapM fun x => return (← labelSet x.after, x)
    let time ← timeOr (← processor q).clock time
    onShared r (Accumulation.collect (interference live others) time)
  | .asynchronous, some q =>
    let p ← processor q
    -- the callback may change the processor, which is looked up again afterwards
    let observed ← callBack perform p.stream.descriptor.name a.valueType callback
    let time ← timeOr p.clock time
    onProcessor q (·.close observed time)
  | _, _ => return []

/-- The answer of an accumulator step. -/
def AccumulatorStep.perform (perform : σ → SystemM σ Unit) : AccumulatorStep σ → SystemM σ Answer
  | synchronous id processor => do
    let q ← find .processor processor
    let d := (← SystemM.processor q).stream.descriptor
    newSharedAccumulator id ⟨.synchronous OrderedMap.empty, some q, d.valueType⟩
  | asynchronous id processor => do
    let q ← find .processor processor
    let d := (← SystemM.processor q).stream.descriptor
    newSharedAccumulator id ⟨.asynchronous, some q, d.valueType⟩
  | discarding id valueType => do
    let i ← newAggregator (Aggregator.discarding valueType)
    newSharedAccumulator id ⟨.discarding i, none, valueType.measured⟩
  | bind id labels aggregator => do
    let r ← find .accumulator id
    let l ← labelArgument labels
    let i ←
      match (← accumulator r).accumulator with
      | .discarding i => pure i
      | _ => onShared r (Accumulation.bindArgument l)
    return .several [← nameAgain aggregator (.aggregator i), ← liveOf r]
  | add id labels value => do
    let r ← find .accumulator id
    let l ← labelArgument labels
    match (← accumulator r).accumulator with
    | .discarding i => recordAndRelease i value
    | _ => onShared r (Accumulation.add l value)
    liveOf r
  | collect id time callback interleaved => do
    let r ← find .accumulator id
    let metrics ← collectShared perform r time callback interleaved
    return .several [.metrics metrics true, ← liveOf r]
  | overtake id race => do
    let r ← find .accumulator id
    let l ← labelArgument race.labels
    -- the other thread has its aggregator ready before the bind begins
    let rival ← onShared r (Accumulation.rival race.winner race.winnerRetired)
    let l ← ofExcept ((LabelSet.create l).mapError Failure.labels)
    let i ← onShared r (Accumulation.bindAgainst rival race.candidate l)
    name race.winnerName (.aggregator rival)
    return .several [← nameAgain race.boundName (.aggregator i), ← stateOf i, ← liveOf r]

/-! ### Sinks -/

/-- The answer of a sink step. -/
def SinkStep.perform : SinkStep → SystemM σ Answer
  | create id valueType => do
    let r := (← get).sinks.next
    modify fun s => { s with sinks := s.sinks.add (Sink.empty valueType) }
    name id (.component .sink r)
    return .nothing
  | observe id value labels => do
    let r ← find .sink id
    let l ← labelArgument labels
    let x ← ofExcept ((← sink r).observe value l)
    modify fun s => { s with sinks := s.sinks.set r x }
    return .observations x.observed.entries

end Metering
