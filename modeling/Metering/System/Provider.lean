import Metering.System.Instrument

/-!
# Meters and providers

A provider hands out meters, one for each library, and a meter makes instruments, one for each
name.  Asking again for the same instrument gives the one that is there; asking for another one
under its name replaces it and takes over its place.  Collecting a provider collects the
instruments of all its meters, in the order in which they were first made, at one common time.
-/

namespace Metering

/-- The value type of an instrument whose maker does not say one. -/
def InstrumentKind.defaultValueType : InstrumentKind → ValueType
  | .valueRecorder | .valueObserver => .double
  | .counter | .upDownCounter | .sumObserver | .upDownSumObserver => .long

/-- What an instrument is asked for with. -/
structure InstrumentRequest (σ : Type) where
  kind : InstrumentKind
  name : Scalar
  description : Option String := some ""
  unit : Option String := some "1"
  valueType : Option ValueTypeArgument := none
  callback : Option (Callback σ) := none

/-- The descriptor of a requested instrument.  The value type is looked at first, and may be named
by its class of numbers. -/
def InstrumentRequest.descriptor {σ : Type} (q : InstrumentRequest σ) :
    Except DescriptorError Descriptor :=
  let valueType := q.valueType.getD (.numberClass q.kind.defaultValueType)
  match valueType.resolve? with
  | none => .error (.notNumberClass valueType)
  | some v => Descriptor.create q.name q.description q.unit (.kind q.kind) (.valueType v)

/-- What a measurement of a batch is for: an instrument, or something that is none. -/
inductive BatchTarget where
  | instrument (r : Ref .instrument)
  | other (s : Scalar)

namespace SystemM

variable {σ : Type}

/-! ### Meters -/

/-- An accumulator and a processor for a new instrument of a provider.  A provider that is disabled
or shut down makes instruments that discard. -/
def newAccumulator (p : Provider) (library : Library) (d : Descriptor) :
    SystemM σ (Accumulator × Option Processor) := do
  if p.disabled || p.isShutDown then
    return (.discarding (← newAggregator (Aggregator.fresh .discard d.valueType)), none)
  else
    let c := p.chooser.choose d
    let stream : Stream :=
      { descriptor := d
        aggregation := c.aggregation
        temporality := c.temporality
        resource := p.resource
        library := library
        start := ← now p.clock
        window := OrderedMap.empty }
    let accumulator := if d.kind.isSynchronous then .synchronous OrderedMap.empty else .asynchronous
    return (accumulator, some ⟨stream, p.clock⟩)

/-- Makes an instrument under a name of a meter, or the place of the one that has it. -/
def makeInstrument (m : Ref .meter) (d : Descriptor) (callback : Option (Callback σ)) :
    SystemM σ (Ref .instrument) := do
  let owner ← meter m
  let (accumulator, processor) ← newAccumulator (← provider owner.provider) owner.library d
  let r := (← get).instruments.next
  modify fun s => { s with instruments := s.instruments.add ⟨d, accumulator, processor, callback⟩ }
  setMeter m { owner with instruments := owner.instruments.insert d.name r }
  return r

/-- The instrument of a meter for a request.  An instrument with the same descriptor is handed out
again, with the callback of the request if it has one. -/
def requestInstrument (m : Ref .meter) (q : InstrumentRequest σ) : SystemM σ (Ref .instrument) := do
  let d ← ofExcept (q.descriptor.mapError Failure.descriptor)
  match (← meter m).instruments.get? d.name with
  | none => makeInstrument m d q.callback
  | some r =>
    let i ← instrument r
    if i.descriptor = d then
      if q.callback.isSome then
        setInstrument r { i with callback := q.callback }
      return r
    else
      report [.warning ("Instrument " ++ d.name ++ " was already registered as "
        ++ i.descriptor.shown ++ ", replacing it with " ++ d.shown)]
      -- the new instrument takes over the place of the old one
      makeInstrument m d q.callback

/-- Checks one measurement of a batch before any is recorded. -/
def checkMeasurement : BatchTarget × Scalar → SystemM σ Unit
  | (.other s, _) => throw (.batch (.notSynchronous s.shown))
  | (.instrument r, value) => do
    let d := (← instrument r).descriptor
    if !d.kind.isSynchronous then
      throw (.batch (.notSynchronous d.shownInstrument))
    let n ← ofExcept ((d.valueType.check value).mapError fun e => .record (.measurement e))
    if d.kind.isMonotonic && n.isNegative then
      throw (.batch (.negative d.name n))

/-- Records one measurement of a batch. -/
def recordMeasurement (labels : LabelSet) : BatchTarget × Scalar → SystemM σ Unit
  | (.other _, _) => return ()
  | (.instrument r, value) => recordInstrument r value (.set labels)

/-- Records several measurements with the same labels; all of them are checked before any is
recorded. -/
def recordBatch (labels : LabelArgument) (measurements : List (BatchTarget × Scalar)) :
    SystemM σ Unit := do
  let l ← ofExcept ((LabelSet.create labels).mapError Failure.labels)
  measurements.forM checkMeasurement
  measurements.forM (recordMeasurement l)

/-- Collects instruments one after the other. -/
def collectInstruments (perform : σ → SystemM σ Unit) (time : Option Int) :
    List (Ref .instrument) → SystemM σ (List Metric)
  | [] => return []
  | r :: rest => do
    let first ← collectInstrument perform r time
    return first ++ (← collectInstruments perform time rest)

/-- Collects the instruments that a meter has at this moment. -/
def collectMeter (perform : σ → SystemM σ Unit) (m : Ref .meter) (time : Option Int) :
    SystemM σ (List Metric) := do
  collectInstruments perform time (← meter m).instruments.values

/-! ### Providers -/

/-- A new provider, registered with its readers.  Unless told otherwise the environment says whether
it is disabled. -/
def newProvider (resource : Resource) (clock : Ref .clock) (disabled : Option Bool)
    (readers : List (Ref .reader)) : SystemM σ (Ref .provider) := do
  let s ← get
  let r := s.providers.next
  let p : Provider :=
    { resource := resource
      clock := clock
      chooser := Chooser.empty
      disabled := disabled.getD s.environment.isDisabled
      isShutDown := false
      meters := OrderedMap.empty
      readers := readers }
  set { s with providers := s.providers.add p }
  let timed := (← SystemM.clock clock).isManual
  readers.forM fun q => do
    let x ← reader q
    setReader q { x with provider := some r, timed := x.timed && timed }
  return r

/-- Registers a view with a provider, for the instruments made from now on. -/
def addView (r : Ref .provider) (v : View) : SystemM σ Unit := do
  let p ← provider r
  setProvider r { p with chooser := p.chooser.add v }
  report [.debug v.announcement]

/-- The meter of a library. -/
def requestMeter (r : Ref .provider) (name version : Option String) : SystemM σ (Ref .meter) := do
  if (name.getD "").isEmpty then
    report [.warning "Meter name cannot be None or empty."]
  let p ← provider r
  match p.meters.get? (name, version) with
  | some m => return m
  | none =>
    let m := (← get).meters.next
    modify fun s => { s with meters := s.meters.add ⟨⟨name, version⟩, r, OrderedMap.empty⟩ }
    setProvider r { p with meters := p.meters.insert (name, version) m }
    return m

/-- Collects meters one after the other. -/
def collectMeters (perform : σ → SystemM σ Unit) (time : Option Int) :
    List (Ref .meter) → SystemM σ (List Metric)
  | [] => return []
  | m :: rest => do
    let first ← collectMeter perform m time
    return first ++ (← collectMeters perform time rest)

/-- Completes a collection cycle of all instruments of a provider at one time. -/
def collectProvider (perform : σ → SystemM σ Unit) (r : Ref .provider) :
    SystemM σ (List Metric) := do
  let p ← provider r
  if p.isShutDown then
    report [.warning "Can't collect metrics, provider is shut down"]
    return []
  else
    let time ← now p.clock
    collectMeters perform (some time) p.meters.values

end SystemM

end Metering
