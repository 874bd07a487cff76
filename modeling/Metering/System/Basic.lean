import Metering.Accumulation
import Metering.Clock
import Metering.Delivery.Attempts
import Metering.Environment
import Metering.Observation
import Metering.System.Names

/-!
# The system

The state of a whole program that measures: its environment, its clocks, the pool of aggregators,
and tables of the instruments, meters, providers, exporters and readers that it has made.  Next to
them stand the parts that a program may also use on their own, without a provider: processors,
accumulators and sinks.  The names are those that the program has given to what it made; the log
and the delays are what the step in progress has produced.

`SystemM` is a computation on a system that may fail; what it changed before failing stays.
-/

namespace Metering

/-- How an instrument takes its measurements: through a live map, from its callback, or not at
all. -/
inductive Accumulator where
  | synchronous (live : OrderedMap LabelSet AggregatorId)
  | asynchronous
  | discarding (aggregator : AggregatorId)

/-- What an instrument reports to: a stream, and the clock that ends its windows by default. -/
structure Processor where
  stream : Stream
  clock : Ref .clock

/-- An instrument; one that discards has no processor. -/
structure Instrument (σ : Type) where
  descriptor : Descriptor
  accumulator : Accumulator
  processor : Option Processor
  callback : Option (Callback σ)

/-- An instrument bound to one label set, until it is released. -/
structure Handle where
  instrument : Ref .instrument
  name : String
  aggregator : AggregatorId
  released : Bool

/-- The instruments of one library, by name. -/
structure Meter where
  library : Library
  provider : Ref .provider
  instruments : OrderedMap String (Ref .instrument)

/-- The entry point: hands out meters and collects them all. -/
structure Provider where
  resource : Resource
  clock : Ref .clock
  chooser : Chooser
  disabled : Bool
  isShutDown : Bool
  meters : OrderedMap (Option String × Option String) (Ref .meter)
  readers : List (Ref .reader)

/-- A reader that exports at intervals, as long as it is `ticking`.  Shutting it down first stops the
intervals, then waits for the interval in progress, and counts as done only after the last
export. -/
structure Schedule where
  exporter : Ref .exporter
  interval : Number
  timeout : Number
  attempts : Number
  ticking : Bool
  inProgress : Bool
  isShutDown : Bool

/-- What triggers collections: a caller on demand, or a schedule. -/
inductive ReaderMode where
  | onDemand
  | periodic (s : Schedule)

/-- A reader, registered with a provider or not.  It is timed as long as every provider that it was
ever registered with has known times. -/
structure Reader where
  provider : Option (Ref .provider)
  timed : Bool
  mode : ReaderMode

/-- An accumulator that is used on its own, over a processor that others may use too. -/
structure SharedAccumulator where
  accumulator : Accumulator
  processor : Option (Ref .processor)
  valueType : ValueType

/-- The state of a program that measures. -/
structure System (σ : Type) where
  names : Directory
  environment : Environment
  clocks : Table .clock Clock
  pool : Pool
  instruments : Table .instrument (Instrument σ)
  handles : Table .handle Handle
  meters : Table .meter Meter
  providers : Table .provider Provider
  exporters : Table .exporter Exporter
  readers : Table .reader Reader
  processors : Table .processor Processor
  accumulators : Table .accumulator SharedAccumulator
  sinks : Table .sink Sink
  log : List LogEntry
  waits : List Number

/-- The system in which nothing has been made. -/
def System.empty {σ : Type} : System σ :=
  { names := OrderedMap.empty
    environment := OrderedMap.empty
    clocks := Table.empty
    pool := Pool.empty
    instruments := Table.empty
    handles := Table.empty
    meters := Table.empty
    providers := Table.empty
    exporters := Table.empty
    readers := Table.empty
    processors := Table.empty
    accumulators := Table.empty
    sinks := Table.empty
    log := []
    waits := [] }

/-- A computation on a system that may fail; what it changed before failing stays. -/
abbrev SystemM (σ : Type) (α : Type) := ExceptT Failure (StateM (System σ)) α

namespace SystemM

variable {σ : Type}

/-- Adds messages to the log. -/
def report (entries : List LogEntry) : SystemM σ Unit :=
  modify fun s => { s with log := s.log ++ entries }

/-- Runs a computation and turns a failure into an answer. -/
def attempt {α : Type} (x : SystemM σ α) : SystemM σ (Except Failure α) := fun s =>
  let (result, s) := x s
  (.ok result, s)

/-- A component that has to be there. -/
def demand {α : Type} (what : String) : Option α → SystemM σ α
  | some x => return x
  | none => throw (.unusable what)

/-! ### Components by reference -/

/-- The clock of a reference. -/
def clock (r : Ref .clock) : SystemM σ Clock := do demand "clock" ((← get).clocks.get? r)

/-- The instrument of a reference. -/
def instrument (r : Ref .instrument) : SystemM σ (Instrument σ) := do
  demand "instrument" ((← get).instruments.get? r)

/-- The meter of a reference. -/
def meter (r : Ref .meter) : SystemM σ Meter := do demand "meter" ((← get).meters.get? r)

/-- The provider of a reference. -/
def provider (r : Ref .provider) : SystemM σ Provider := do
  demand "provider" ((← get).providers.get? r)

/-- The exporter of a reference. -/
def exporter (r : Ref .exporter) : SystemM σ Exporter := do
  demand "exporter" ((← get).exporters.get? r)

/-- The reader of a reference. -/
def reader (r : Ref .reader) : SystemM σ Reader := do demand "reader" ((← get).readers.get? r)

/-- The processor of a reference. -/
def processor (r : Ref .processor) : SystemM σ Processor := do
  demand "processor" ((← get).processors.get? r)

/-- The accumulator of a reference. -/
def accumulator (r : Ref .accumulator) : SystemM σ SharedAccumulator := do
  demand "accumulator" ((← get).accumulators.get? r)

/-- The sink of a reference. -/
def sink (r : Ref .sink) : SystemM σ Sink := do demand "sink" ((← get).sinks.get? r)

/-- The time a clock shows. -/
def now (r : Ref .clock) : SystemM σ Int := do return (← clock r).now

/-- The given time, or the one that the clock shows at this moment. -/
def timeOr (r : Ref .clock) : Option Int → SystemM σ Int
  | some time => return time
  | none => now r

/-- Replaces an instrument. -/
def setInstrument (r : Ref .instrument) (i : Instrument σ) : SystemM σ Unit :=
  modify fun s => { s with instruments := s.instruments.set r i }

/-- Replaces a provider. -/
def setProvider (r : Ref .provider) (p : Provider) : SystemM σ Unit :=
  modify fun s => { s with providers := s.providers.set r p }

/-- Replaces a meter. -/
def setMeter (r : Ref .meter) (m : Meter) : SystemM σ Unit :=
  modify fun s => { s with meters := s.meters.set r m }

/-- Replaces an exporter. -/
def setExporter (r : Ref .exporter) (e : Exporter) : SystemM σ Unit :=
  modify fun s => { s with exporters := s.exporters.set r e }

/-- Replaces a reader. -/
def setReader (r : Ref .reader) (x : Reader) : SystemM σ Unit :=
  modify fun s => { s with readers := s.readers.set r x }

/-- Replaces a processor. -/
def setProcessor (r : Ref .processor) (p : Processor) : SystemM σ Unit :=
  modify fun s => { s with processors := s.processors.set r p }

/-- Replaces an accumulator. -/
def setAccumulator (r : Ref .accumulator) (a : SharedAccumulator) : SystemM σ Unit :=
  modify fun s => { s with accumulators := s.accumulators.set r a }

/-! ### New components -/

/-- A new clock. -/
def newClock (c : Clock) : SystemM σ (Ref .clock) := do
  let r := (← get).clocks.next
  modify fun s => { s with clocks := s.clocks.add c }
  return r

/-- A new aggregator in the pool. -/
def newAggregator (a : Aggregator) : SystemM σ AggregatorId := do
  let i := (← get).pool.next
  modify fun s => { s with pool := s.pool.add a }
  return i

end SystemM

end Metering
