import Metering.Accumulation
import Metering.Proofs.Aggregator.Typed

/-!
# Threads over one accumulation

`Threads` is an accumulation with everything that is under way on it: the threads that are binding a
label set, the references that are bound and not yet given back, and one collecting thread.  Each
step of `Threads.step` is one thing that a thread does at once, so between any two of them every
other thread may act:

* binding looks the label set up without the lock, takes a reference or makes a candidate, and
  settles under the lock;
* a collection takes the snapshot and then, for each entry, tries to retire the aggregator, removes
  it from the live map, and batches it, and at the end completes the cycle.

The threads remember what was recorded and what was reported.  The `Ledger` follows the steps and
says where the values recorded for each label set are: with the live aggregator, with one that is
retired but not batched yet, taken by the collection under way, or in the block that an earlier
collection took.
-/

namespace Metering

/-- Where a thread is that binds a label set. -/
inductive Binding where
  /-- It has looked the label set up without the lock. -/
  | looked (labels : LabelSet) (found : Option AggregatorId)
  /-- It has made a candidate of its own. -/
  | prepared (labels : LabelSet) (candidate : AggregatorId)
deriving DecidableEq

namespace Binding

/-- The label set that is bound. -/
def labels : Binding → LabelSet
  | looked labels _ => labels
  | prepared labels _ => labels

open Accumulation in
/-- The next thing a binding thread does; it is done when it has an aggregator. -/
def advance : Binding → AccumulationM (Binding ⊕ AggregatorId)
  | looked labels found => do
    let a ← get
    match found.bind fun i => (a.pool.acquire? i).map fun p => (i, p) with
    | some (i, p) =>
      set { a with pool := p }
      return .inr i
    | none => return .inl (prepared labels (← candidate))
  | prepared labels c => return .inr (← settle labels c)

end Binding

/-- Where the collecting thread is. -/
inductive Collector where
  /-- It has not begun, or is done. -/
  | idle
  /-- It has these entries of its snapshot before it. -/
  | draining (rest : List (LabelSet × AggregatorId))
  /-- It has tried to retire an aggregator. -/
  | tried (labels : LabelSet) (i : AggregatorId) (unmapped : Bool)
      (rest : List (LabelSet × AggregatorId))
  /-- It has seen to it that a retired aggregator is not in the live map. -/
  | removed (labels : LabelSet) (i : AggregatorId) (rest : List (LabelSet × AggregatorId))
deriving DecidableEq

namespace Collector

/-- The next thing the collecting thread does, at a time; a collection that is done reports. -/
def advance (time : Int) : Collector → AccumulationM (Collector × Option (List Metric))
  | idle => do return (draining (← get).live.entries, none)
  | draining ((labels, i) :: rest) => do
    let a ← get
    set { a with pool := (a.pool.retire? i).getD a.pool }
    return (tried labels i (a.pool.retire? i).isSome rest, none)
  | tried labels i true rest => do
    modify fun a =>
      if a.live.get? labels = some i then { a with live := a.live.erase labels } else a
    return (removed labels i rest, none)
  | tried labels i false rest => do
    Accumulation.onStream (·.batch labels i false)
    return (draining rest, none)
  | removed labels i rest => do
    Accumulation.onStream (·.batch labels i true)
    return (draining rest, none)
  | draining [] => do
    let metrics ← Accumulation.onStream fun w =>
      let (metrics, w) := w.complete time
      (.ok metrics, w)
    return (idle, some metrics)

/-- The entries of the snapshot that the collection has not come to. -/
def rest : Collector → List (LabelSet × AggregatorId)
  | idle => []
  | draining rest => rest
  | tried _ _ _ rest => rest
  | removed _ _ rest => rest

/-- The aggregator that is retired and not batched yet, with its label set. -/
def retired? : Collector → Option (LabelSet × AggregatorId)
  | tried labels i true _ => some (labels, i)
  | removed labels i _ => some (labels, i)
  | _ => none

end Collector

/-- An accumulation with the threads that work on it. -/
structure Threads where
  accumulation : Accumulation
  bindings : List Binding := []
  /-- The references that are bound and not given back, one entry for each. -/
  held : List (LabelSet × AggregatorId) := []
  collector : Collector := .idle
  /-- What was recorded, oldest first. -/
  recorded : List (LabelSet × Scalar) := []
  /-- What the collections reported, oldest first. -/
  reports : List (List Metric) := []
  /-- What bindings and collections have failed with. -/
  failures : List Failure := []

/-- Something that a thread does. -/
inductive Event where
  /-- A thread begins to bind a label set and looks it up. -/
  | look (labels : LabelSet)
  /-- A binding thread goes on. -/
  | bind (b : Binding)
  /-- A bound aggregator is recorded into. -/
  | record (labels : LabelSet) (i : AggregatorId) (value : Scalar)
  /-- A reference is given back. -/
  | release (labels : LabelSet) (i : AggregatorId)
  /-- The collecting thread goes on, or begins with the next collection. -/
  | collect (time : Int)

namespace Threads

/-- The threads after something was done; what cannot be done at this moment changes nothing. -/
def step (t : Threads) : Event → Threads
  | .look labels =>
    { t with bindings := .looked labels (t.accumulation.live.get? labels) :: t.bindings }
  | .bind b =>
    if b ∈ t.bindings then
      match b.advance t.accumulation with
      | (.ok (.inl b'), a) => { t with accumulation := a, bindings := b' :: t.bindings.erase b }
      | (.ok (.inr i), a) =>
        { t with
          accumulation := a
          bindings := t.bindings.erase b
          held := (b.labels, i) :: t.held }
      | (.error f, a) =>
        { t with
          accumulation := a
          bindings := t.bindings.erase b
          failures := t.failures ++ [f] }
    else t
  | .record labels i value =>
    if (labels, i) ∈ t.held then
      match Accumulation.record i value t.accumulation with
      | (.ok (), a) =>
        { t with accumulation := a, recorded := t.recorded ++ [(labels, value)] }
      | (.error _, a) => { t with accumulation := a }
    else t
  | .release labels i =>
    if (labels, i) ∈ t.held then
      { t with
        accumulation := (Accumulation.release i t.accumulation).2
        held := t.held.erase (labels, i) }
    else t
  | .collect time =>
    match t.collector.advance time t.accumulation with
    | (.ok (c, report), a) =>
      { t with accumulation := a, collector := c, reports := t.reports ++ report.toList }
    | (.error f, a) =>
      { t with accumulation := a, collector := .idle, failures := t.failures ++ [f] }

/-- The threads after several things were done. -/
def run (t : Threads) (events : List Event) : Threads := events.foldl step t

theorem run_append (t : Threads) (events events' : List Event) :
    t.run (events ++ events') = (t.run events).run events' := List.foldl_append

/-- The pool of the aggregators. -/
def pool (t : Threads) : Pool := t.accumulation.pool

/-- The live map. -/
def live (t : Threads) : OrderedMap LabelSet AggregatorId := t.accumulation.live

/-- The stream that the collections report. -/
def stream (t : Threads) : Stream := t.accumulation.stream

/-- The values recorded for a label set, oldest first. -/
def recordedFor (α : Type) [Recordable α] (t : Threads) (labels : LabelSet) : List α :=
  t.recorded.filterMap fun r =>
    if r.1 = labels then (Recordable.read r.2 : Except RecordError α).toOption else none

end Threads

/-! ### What a step does -/

namespace Threads

variable {t : Threads} {a : Accumulation}

theorem step_bind_on {b b' : Binding} (hb : b ∈ t.bindings)
    (h : b.advance t.accumulation = (.ok (.inl b'), a)) :
    t.step (.bind b) = { t with accumulation := a, bindings := b' :: t.bindings.erase b } := by
  unfold step
  simp only [if_pos hb, h]

theorem step_bind_done {b : Binding} {i : AggregatorId} (hb : b ∈ t.bindings)
    (h : b.advance t.accumulation = (.ok (.inr i), a)) :
    t.step (.bind b) =
      { t with
        accumulation := a
        bindings := t.bindings.erase b
        held := (b.labels, i) :: t.held } := by
  unfold step
  simp only [if_pos hb, h]

theorem step_record_ok {l : LabelSet} {i : AggregatorId} {value : Scalar}
    (hheld : (l, i) ∈ t.held)
    (h : Accumulation.record i value t.accumulation = (.ok (), a)) :
    t.step (.record l i value) =
      { t with accumulation := a, recorded := t.recorded ++ [(l, value)] } := by
  unfold step
  simp only [if_pos hheld, h]

theorem step_record_error {l : LabelSet} {i : AggregatorId} {value : Scalar} {f : Failure}
    (hheld : (l, i) ∈ t.held)
    (h : Accumulation.record i value t.accumulation = (.error f, a)) :
    t.step (.record l i value) = { t with accumulation := a } := by
  unfold step
  simp only [if_pos hheld, h]

theorem step_release {l : LabelSet} {i : AggregatorId} (hheld : (l, i) ∈ t.held) :
    t.step (.release l i) =
      { t with
        accumulation := (Accumulation.release i t.accumulation).2
        held := t.held.erase (l, i) } := by
  unfold step
  simp only [if_pos hheld]

theorem step_collect {time : Int} {c : Collector} {report : Option (List Metric)}
    (h : t.collector.advance time t.accumulation = (.ok (c, report), a)) :
    t.step (.collect time) =
      { t with accumulation := a, collector := c, reports := t.reports ++ report.toList } := by
  unfold step
  simp only [h]

theorem step_collect_silent {time : Int} {c : Collector}
    (h : t.collector.advance time t.accumulation = (.ok (c, none), a)) :
    t.step (.collect time) = { t with accumulation := a, collector := c } := by
  rw [step_collect h, Option.toList_none, List.append_nil]

end Threads

/-! ### Where the recorded values are -/

/-- Where the values recorded for each label set are. -/
@[ext]
structure Ledger (α : Type) where
  /-- With the live aggregator. -/
  live : LabelSet → List α
  /-- With an aggregator that is retired and not batched yet. -/
  retired : LabelSet → List α
  /-- In the window, since the latest report. -/
  taken : LabelSet → List α
  /-- In the blocks that the reports so far were made of, one block for each report. -/
  blocks : LabelSet → List (List α)

namespace Ledger

variable {α : Type}

/-- Nothing is recorded, and nothing reported. -/
def empty : Ledger α := ⟨fun _ => [], fun _ => [], fun _ => [], fun _ => []⟩

/-- A value is recorded into a live aggregator. -/
def record (g : Ledger α) (labels : LabelSet) (v : α) : Ledger α :=
  { g with live := Function.update g.live labels (g.live labels ++ [v]) }

/-- The values of a live aggregator are those of a retired one from now on. -/
def retire (g : Ledger α) (labels : LabelSet) : Ledger α :=
  { g with
    live := Function.update g.live labels []
    retired := Function.update g.retired labels (g.retired labels ++ g.live labels) }

/-- The values of a retired aggregator move into the window. -/
def take (g : Ledger α) (labels : LabelSet) : Ledger α :=
  { g with
    retired := Function.update g.retired labels []
    taken := Function.update g.taken labels (g.taken labels ++ g.retired labels) }

/-- The window is reported: what has been taken for each label set is one more block. -/
def close (g : Ledger α) : Ledger α :=
  { g with
    taken := fun _ => []
    blocks := fun labels => g.blocks labels ++ [g.taken labels] }

/-- Where the values are after the collecting thread has gone on. -/
def collect (g : Ledger α) (p : Pool) : Collector → Ledger α
  | .idle => g
  | .draining [] => g.close
  | .draining ((labels, i) :: _) => if (p.retire? i).isSome then g.retire labels else g
  | .tried _ _ true _ => g
  -- an aggregator that stays live hands its values over as a retired one does
  | .tried labels _ false _ => (g.retire labels).take labels
  | .removed labels _ _ => g.take labels

/-- Where the values are after a thread did something. -/
def follow [Recordable α] (g : Ledger α) (t : Threads) : Event → Ledger α
  | .record labels i value =>
    if (labels, i) ∈ t.held then
      match (Accumulation.record i value t.accumulation).1,
          (Recordable.read value : Except _ α) with
      | .ok _, .ok v => g.record labels v
      | _, _ => g
    else g
  | .collect _ => g.collect t.pool t.collector
  | _ => g

/-- Where the values are after several things were done. -/
def after [Recordable α] (g : Ledger α) (t : Threads) : List Event → Ledger α
  | [] => g
  | e :: events => (g.follow t e).after (t.step e) events

/-- All values recorded for a label set, oldest first. -/
def all (g : Ledger α) (labels : LabelSet) : List α :=
  (g.blocks labels).flatten ++ g.taken labels ++ g.retired labels ++ g.live labels

theorem all_record (g : Ledger α) (labels labels' : LabelSet) (v : α) :
    (g.record labels v).all labels' =
      if labels' = labels then g.all labels' ++ [v] else g.all labels' := by
  unfold all record
  by_cases h : labels' = labels
  · subst h
    simp
  · simp [h]

theorem all_retire (g : Ledger α) (labels : LabelSet) : (g.retire labels).all = g.all := by
  funext labels'
  unfold all retire
  by_cases h : labels' = labels
  · subst h
    simp
  · simp [h]

theorem all_take (g : Ledger α) (labels : LabelSet) : (g.take labels).all = g.all := by
  funext labels'
  unfold all take
  by_cases h : labels' = labels
  · subst h
    simp
  · simp [h]

theorem all_close (g : Ledger α) : g.close.all = g.all := by
  funext labels
  simp [all, close]

end Ledger

end Metering
