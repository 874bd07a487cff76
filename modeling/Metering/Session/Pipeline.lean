import Metering.Session.Naming
import Metering.Session.Step

/-!
# Steps on the pipeline

Providers, their meters and instruments, handles, exporters and readers: the way of a measurement
from an instrument to an exporter.  Metrics that were collected at the times of a system clock are
answered without times.
-/

namespace Metering

open SystemM

variable {σ : Type}

/-- Metrics collected through a provider. -/
def metricsOf (r : Ref .provider) (metrics : List Metric) : SystemM σ Answer := do
  let c ← clock (← provider r).clock
  return .metrics metrics c.isManual

/-! ### Providers -/

/-- The answer of a provider step. -/
def ProviderStep.perform (perform : σ → SystemM σ Unit) : ProviderStep → SystemM σ Answer
  | create id request => do
    let resource : Resource := ⟨← labelSet request.resource⟩
    let c ←
      match request.clock with
      | some c => find .clock c
      | none => newClock .system
    let readers ← request.readers.mapM (find .reader)
    name id (.component .provider (← newProvider resource c request.disabled readers))
    return .labels resource.labels
  | addView id view => do
    let r ← find .provider id
    let selector ← ofExcept (view.selector.mapError Failure.selector)
    let aggregation ← ofExcept (view.aggregation.build.mapError Failure.boundaries)
    SystemM.addView r (view.assemble selector aggregation)
    return .nothing
  | requestMeter id meter library => do
    let m ← SystemM.requestMeter (← find .provider id) library.name library.version
    let l := (← SystemM.meter m).library
    return .several
      [← nameAgain meter (.component .meter m), .text l.name, .text l.version]
  | collect id => do
    let r ← find .provider id
    metricsOf r (← collectProvider perform r)
  | flush id => do return .flag (← flushProvider perform (← find .provider id))
  | shutdown id => do
    shutdownProvider perform (← find .provider id)
    return .nothing

/-! ### Meters -/

/-- The target that a measurement of a batch names. -/
def NamedTarget.resolve : NamedTarget → SystemM σ BatchTarget
  | instrument id => return .instrument (← find .instrument id)
  | other s => return .other s

/-- A request without the callback that its instrument has no use for. -/
def InstrumentRequest.usable (q : InstrumentRequest σ) : InstrumentRequest σ :=
  if q.kind.isSynchronous then { q with callback := none } else q

/-- The answer of a meter step. -/
def MeterStep.perform (perform : σ → SystemM σ Unit) : MeterStep σ → SystemM σ Answer
  | requestInstrument id instrument request => do
    let r ← SystemM.requestInstrument (← find .meter id) request.usable
    let d := (← SystemM.instrument r).descriptor
    return .several
      [← nameAgain instrument (.component .instrument r), .text (some d.shownInstrument)]
  | recordBatch id labels measurements => do
    let _ ← find .meter id
    let l ← labelArgument labels
    let targets ← measurements.mapM fun m => return (← m.1.resolve, m.2)
    SystemM.recordBatch l targets
    return .nothing
  | collect id time => do
    let m ← find .meter id
    let metrics ← collectMeter perform m time
    metricsOf (← meter m).provider metrics

/-! ### Instruments and handles -/

/-- The name of a handle of an instrument. -/
def Descriptor.handleTitle (d : Descriptor) : String := "Bound" ++ d.kind.title

/-- The answer of an instrument step. -/
def InstrumentStep.perform (perform : σ → SystemM σ Unit) :
    InstrumentStep σ → SystemM σ Answer
  | record id value labels => do
    let r ← find .instrument id
    recordInstrument r value (← labelArgument labels)
    return .nothing
  | bind id labels handle => do
    let r ← find .instrument id
    let h ← bindHandle r (← labelArgument labels)
    name handle (.component .handle h)
    return .text (some (← instrument r).descriptor.handleTitle)
  | collect id time => do
    let r ← find .instrument id
    let metrics ← collectInstrument perform r time
    match (← instrument r).processor with
    | some p => return .metrics metrics (← clock p.clock).isManual
    | none => return .metrics metrics true
  | setCallback id callback => do
    let r ← find .instrument id
    setInstrument r { ← instrument r with callback := callback }
    return .nothing

/-- The answer of a handle step. -/
def HandleStep.perform : HandleStep → SystemM σ Answer
  | record id value => do
    recordHandle (← find .handle id) value
    return .nothing
  | release id => do
    releaseHandle (← find .handle id)
    return .nothing

/-! ### Exporters -/

/-- What an exporter has received. -/
def Exporter.received (timed : Bool) : Exporter → Answer
  | .memory finished _ => .metrics finished timed
  | .console _ written => .text (some written)
  | .scripted _ batches shutdowns _ => .deliveries batches shutdowns timed

/-- The answer of an exporter step. -/
def ExporterStep.perform (perform : σ → SystemM σ Unit) : ExporterStep → SystemM σ Answer
  | create id exporter => do
    let r := (← get).exporters.next
    modify fun s => { s with exporters := s.exporters.add exporter }
    name id (.component .exporter r)
    return .nothing
  | send id provider => do
    let r ← find .exporter id
    let metrics ← collectProvider perform (← find .provider provider)
    let (outcome, e) := (← exporter r).send metrics
    setExporter r e
    match outcome with
    | .raised f => throw f
    | outcome => return .text outcome.constant?
  | inspect id timed => do return (← exporter (← find .exporter id)).received timed
  | clear id => do
    let r ← find .exporter id
    setExporter r (← exporter r).clear
    return .nothing
  | shutdown id => do
    shutdownExporter (← find .exporter id)
    return .nothing

/-! ### Readers -/

/-- The answer of a reader step. -/
def ReaderStep.perform (perform : σ → SystemM σ Unit) : ReaderStep → SystemM σ Answer
  | onDemand id => do
    name id (.component .reader (← addReader .onDemand))
    return .nothing
  | periodic id exporter request => do
    -- the program decides when an interval is over, so no interval is too long to be waited for
    let (r, interval) ← newPeriodicReader (.infinity false) (← find .exporter exporter) request
    match Delivery.seconds? interval with
    | none => throw .tooLarge
    | some seconds =>
      name id (.component .reader r)
      return .schedule interval seconds
  | collect id => do
    let r ← find .reader id
    let metrics ← collectReader perform r
    return .metrics metrics (← reader r).timed
  | flush id => do return .flag (← flushReader perform (← find .reader id))
  | shutdown id => do
    shutdownReader perform (← find .reader id)
    return .nothing
  | tick id => do return .flag (← SystemM.tick perform (← find .reader id))

end Metering
