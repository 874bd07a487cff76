import Metering.System.Reader

/-!
# Steps

A program that measures is a list of steps.  Each makes a component under a name or acts on
components that earlier steps have named.  Steps are sorted by what they act on.  A step may hand
over the script of a callback, and the script may contain steps in turn, which are performed when
the callback reaches them; `Step` closes that circle.
-/

namespace Metering

/-- Steps on the environment. -/
inductive EnvironmentStep where
  | assign (name : String) (value : Option String)
  | readMillis (name : String) (default : Int)
  | readDisabled

/-- Steps on clocks. -/
inductive ClockStep where
  | create (id : String) (start : Option Int)
  | set (id : String) (time : Int)
  | advanceNanos (id : String) (nanos : Int)
  | advanceMillis (id : String) (millis : Int)

/-- Steps on single aggregators. -/
inductive AggregatorStep where
  | create (id : String) (shape : ShapeSpec) (valueType : ValueType)
  | record (id : String) (valueType : Option ValueType) (value : Scalar)
  | merge (source target : String)
  | point (id : String) (start stop : Int) (labels : LabelSpec)
  | acquire (id : String)
  | release (id : String)
  | retire (id : String)

/-- What a processor is asked for with. -/
structure ProcessorRequest where
  descriptor : DescriptorSpec
  aggregation : AggregationSpec
  temporality : Temporality
  clock : String
  resource : LabelSpec
  library : Library

/-- Steps on processors. -/
inductive ProcessorStep where
  | create (id : String) (request : ProcessorRequest)
  | createAggregator (id aggregator : String)
  | batch (id : String) (labels : LabelSpec) (aggregator : String) (unmapped : Bool)
  | complete (id : String) (time : Option Int)
  | skip (id : String) (time : Option Int)
  | inspect (id : String)

/-- What other threads add during a collection, right after it has tried to retire the aggregator
that was live for some labels when it began. -/
structure InterleavedAdds where
  after : LabelSpec
  adds : List (LabelSpec × Scalar)

/-- A bind that another thread overtakes between the lookup without the lock and the one under it.
The other thread's aggregator has recorded some values and may have been retired already; the
candidate of the bind has recorded some as well. -/
structure BindRace where
  labels : LabelSpec
  winner : List Scalar
  winnerRetired : Bool
  candidate : List Scalar
  winnerName : String
  boundName : String

/-- Steps on accumulators. -/
inductive AccumulatorStep (σ : Type) where
  | synchronous (id processor : String)
  | asynchronous (id processor : String)
  | discarding (id : String) (valueType : ValueTypeArgument)
  | bind (id : String) (labels : LabelSpec) (aggregator : String)
  | add (id : String) (labels : LabelSpec) (value : Scalar)
  | collect (id : String) (time : Option Int) (callback : Option (Callback σ))
      (interleaved : List InterleavedAdds)
  | overtake (id : String) (race : BindRace)

/-- Steps on sinks of observations. -/
inductive SinkStep where
  | create (id : String) (valueType : ValueType)
  | observe (id : String) (value : Scalar) (labels : LabelSpec)

/-- What a provider is asked for with; without the name of a clock it uses the system's. -/
structure ProviderRequest where
  clock : Option String
  readers : List String
  resource : LabelSpec
  disabled : Option Bool

/-- Steps on providers. -/
inductive ProviderStep where
  | create (id : String) (request : ProviderRequest)
  | addView (id : String) (view : ViewSpec)
  | requestMeter (id meter : String) (library : Library)
  | collect (id : String)
  | flush (id : String)
  | shutdown (id : String)

/-- What a measurement of a batch names: an instrument, or something that is none. -/
inductive NamedTarget where
  | instrument (id : String)
  | other (s : Scalar)

/-- Steps on meters. -/
inductive MeterStep (σ : Type) where
  | requestInstrument (id instrument : String) (request : InstrumentRequest σ)
  | recordBatch (id : String) (labels : LabelSpec) (measurements : List (NamedTarget × Scalar))
  | collect (id : String) (time : Option Int)

/-- Steps on instruments. -/
inductive InstrumentStep (σ : Type) where
  | record (id : String) (value : Scalar) (labels : LabelSpec)
  | bind (id : String) (labels : LabelSpec) (handle : String)
  | collect (id : String) (time : Option Int)
  | setCallback (id : String) (callback : Option (Callback σ))

/-- Steps on handles. -/
inductive HandleStep where
  | record (id : String) (value : Scalar)
  | release (id : String)

/-- Steps on exporters. -/
inductive ExporterStep where
  | create (id : String) (exporter : Exporter)
  | send (id provider : String)
  | inspect (id : String) (timed : Bool)
  | clear (id : String)
  | shutdown (id : String)

/-- Steps on readers. -/
inductive ReaderStep where
  | onDemand (id : String)
  | periodic (id exporter : String) (request : ScheduleRequest)
  | collect (id : String)
  | flush (id : String)
  | shutdown (id : String)
  | tick (id : String)

/-- A step of a program that measures. -/
inductive Step where
  | environment (s : EnvironmentStep)
  | clock (s : ClockStep)
  | aggregator (s : AggregatorStep)
  | processor (s : ProcessorStep)
  | accumulator (s : AccumulatorStep Step)
  | sink (s : SinkStep)
  | provider (s : ProviderStep)
  | meter (s : MeterStep Step)
  | instrument (s : InstrumentStep Step)
  | handle (s : HandleStep)
  | exporter (s : ExporterStep)
  | reader (s : ReaderStep)

namespace Step

/-! ### Counting

A callback that is running is not called again before it has ended, so steps that callbacks perform
nest at most as deeply as there are steps. -/

mutual

/-- The number of steps that a step consists of, those of its callback included. -/
def count : Step → Nat
  | accumulator (.collect _ _ callback _) => countIn? callback + 1
  | meter (.requestInstrument _ _ request) => countRequested request + 1
  | instrument (.setCallback _ callback) => countIn? callback + 1
  | _ => 1

/-- The number of steps in the callback of a request. -/
def countRequested : InstrumentRequest Step → Nat
  | ⟨_, _, _, _, _, callback⟩ => countIn? callback

/-- The number of steps in a callback, if there is one. -/
def countIn? : Option (Callback Step) → Nat
  | none => 0
  | some callback => countIn callback

/-- The number of steps in a callback. -/
def countIn : Callback Step → Nat
  | ⟨cycles, _, _⟩ => countCycles cycles

/-- The number of steps in the scripts of several calls. -/
def countCycles : List (List (Action Step)) → Nat
  | [] => 0
  | actions :: rest => countActions actions + countCycles rest

/-- The number of steps in the script of one call. -/
def countActions : List (Action Step) → Nat
  | [] => 0
  | action :: rest => countAction action + countActions rest

/-- The number of steps in an action. -/
def countAction : Action Step → Nat
  | .perform step => step.count
  | _ => 0

end

/-- How deeply the steps of a program may nest. -/
def depth (steps : List Step) : Nat := steps.foldr (fun step n => step.count + n) 0

end Step

end Metering
