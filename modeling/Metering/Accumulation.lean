import Metering.Stream

/-!
# Accumulation of a synchronous instrument

Recording threads reach the aggregator of their label set through the live map.  Binding takes a
reference to it and keeps it until released; a collection drains every live aggregator into the
stream's window and retires those that nothing refers to.

Both work in steps between which other threads may act.  Binding looks the label set up without the
lock, makes a candidate of its own if that fails, and settles under the lock which of the two
stays.  A collection takes a snapshot of the live map and, for each entry, tries to retire the
aggregator, removes it from the map if it is still there, and batches it; `drain` lets a given
interference act right after the attempt to retire.
-/

namespace Metering

/-- The live map of a synchronous instrument with its stream and pool. -/
structure Accumulation extends PooledStream where
  live : OrderedMap LabelSet AggregatorId

/-- A computation on an accumulation that may fail; what it changed before failing stays. -/
abbrev AccumulationM (α : Type) := ExceptT Failure (StateM Accumulation) α

namespace Accumulation

/-- Lifts an operation on the stream and its pool. -/
def onStream {α : Type} (f : PooledStream → Except Failure α × PooledStream) : AccumulationM α :=
  fun a =>
    let (result, w) := f a.toPooledStream
    (result, { a with toPooledStream := w })

/-! ### Binding -/

/-- The live aggregator of a label set with one more reference, unless there is none that can still
be referred to. -/
def acquireLive? (a : Accumulation) (labels : LabelSet) : Option (AggregatorId × Accumulation) :=
  match a.live.get? labels with
  | none => none
  | some i => (a.pool.acquire? i).map fun p => (i, { a with pool := p })

/-- A new aggregator of the stream with one reference. -/
def candidate : AccumulationM AggregatorId := fun a =>
  let (i, w) := a.toPooledStream.create
  let p := (w.pool.acquire? i).getD w.pool
  (.ok i, { a with toPooledStream := { w with pool := p } })

/-- Decides under the lock which aggregator stays for a label set.  A live one that can still be
referred to takes up what the candidate holds; otherwise the candidate takes the place. -/
def settle (labels : LabelSet) (c : AggregatorId) : AccumulationM AggregatorId := do
  let a ← get
  match a.acquireLive? labels with
  | some (i, a) =>
    set a
    -- the candidate may have recorded something already
    onStream (·.move c i)
    modify fun a => { a with pool := a.pool.release c }
    return i
  | none =>
    set { a with live := a.live.insert labels c }
    return c

/-- The live aggregator of a label set with one more reference, made if need be.  When the lookup
without the lock has failed and a candidate is made, other threads may act before the lookup under
the lock. -/
def bindDuring (others : AggregatorId → AccumulationM Unit) (labels : LabelSet) :
    AccumulationM AggregatorId := do
  match (← get).acquireLive? labels with
  | some (i, a) =>
    set a
    return i
  | none =>
    let c ← candidate
    others c
    settle labels c

/-- The live aggregator of a label set with one more reference, made if need be. -/
def bind (labels : LabelSet) : AccumulationM AggregatorId :=
  bindDuring (fun _ => return ()) labels

/-- The aggregator bound for labels as a caller gives them. -/
def bindArgument (labels : LabelArgument) : AccumulationM AggregatorId := do
  match LabelSet.create labels with
  | .ok s => bind s
  | .error e => throw (.labels e)

/-- Records into an aggregator. -/
def record (i : AggregatorId) (value : Scalar) : AccumulationM Unit := do
  let a ← get
  match a.pool.record i value with
  | .ok p => set { a with pool := p }
  | .error e => throw (.record e)

/-- Records several values into an aggregator. -/
def recordAll (i : AggregatorId) (values : List Scalar) : AccumulationM Unit :=
  values.forM (record i)

/-- Gives a reference back. -/
def release (i : AggregatorId) : AccumulationM Unit :=
  modify fun a => { a with pool := a.pool.release i }

/-- Binds, records and releases; the reference is given back even if nothing could be recorded. -/
def add (labels : LabelArgument) (value : Scalar) : AccumulationM Unit := do
  let i ← bindArgument labels
  tryCatch (record i value) fun e => do
    release i
    throw e
  release i

/-! ### Other threads -/

/-- A new aggregator that another thread has made for itself: some values are recorded in it, and it
may be retired already. -/
def rival (values : List Scalar) (retired : Bool) : AccumulationM AggregatorId := do
  let i ← onStream fun w =>
    let (i, w) := w.create
    (.ok i, w)
  recordAll i values
  if retired then
    modify fun a => { a with pool := (a.pool.retire? i).getD a.pool }
  return i

/-- Puts an aggregator into the live map. -/
def mapLive (labels : LabelSet) (i : AggregatorId) : AccumulationM Unit :=
  modify fun a => { a with live := a.live.insert labels i }

/-- Binds a label set while another thread maps an aggregator for it; the candidate has recorded
some values by then. -/
def bindAgainst (rival : AggregatorId) (candidateValues : List Scalar) (labels : LabelSet) :
    AccumulationM AggregatorId :=
  bindDuring (fun c => do
    recordAll c candidateValues
    mapLive labels rival) labels

/-! ### Collecting -/

/-- What other threads do at a moment of a collection, told by the aggregator it has just tried to
retire. -/
abbrev Interference := AggregatorId → Accumulation → Accumulation

/-- Nobody interferes. -/
def undisturbed : Interference := fun _ a => a

/-- Drains one entry of the snapshot into the window. -/
def drain (interfere : Interference) (labels : LabelSet) (i : AggregatorId) :
    AccumulationM Unit := do
  let a ← get
  let unmapped := (a.pool.retire? i).isSome
  set (interfere i { a with pool := (a.pool.retire? i).getD a.pool })
  if unmapped then
    -- another thread may have put its own aggregator there in the meantime
    modify fun a =>
      if a.live.get? labels = some i then { a with live := a.live.erase labels } else a
  onStream (·.batch labels i unmapped)

/-- Drains the live map and completes the cycle at a time. -/
def collect (interfere : Interference) (time : Int) : AccumulationM (List Metric) := do
  (← get).live.entries.forM fun e => drain interfere e.1 e.2
  onStream fun w =>
    let (metrics, w) := w.complete time
    (.ok metrics, w)

end Accumulation

end Metering
