import Metering.Proofs.Instruments.Accumulations
import Metering.Proofs.Processors.Custody
import Metering.Session.Standalone

/-!
# Working with a processor

A caller of a processor makes aggregators, records into those that it keeps, batches them, ends
cycles, and lets time pass.  It knows its aggregators by name; one that it has batched as unmapped
it does not keep any longer, and a call that needs it fails and changes nothing.

What the calls do to the window is told by `WindowEvent`s: aggregators that arrive, in the state
that they are in, and cycles that end, at the time that was given or read from the
clock.  `Bench.Works` is the invariant of such work, and `Bench.Works.step` says that one call does
to the window what its event says, and to the aggregators of the caller what `ProcessorCall.follow`
says.
-/

namespace Metering

open Fallible SystemM

variable {σ : Type}

/-- A call of a caller of a processor. -/
inductive ProcessorCall where
  /-- Has the processor make an aggregator. -/
  | create (k : Nat)
  /-- Makes an aggregator without the processor. -/
  | make (k : Nat) (shape : Shape) (valueType : ValueType)
  | record (k : Nat) (value : Scalar)
  | batch (labels : LabelSet) (k : Nat) (unmapped : Bool)
  /-- Ends a cycle with a report, at a given time or at the one that the clock shows. -/
  | complete (time : Option Int)
  /-- Ends a cycle without a report. -/
  | skip (time : Option Int)
  /-- Time passes on the clock of the processor. -/
  | elapse (nanos : Int)
deriving DecidableEq, Repr

/-- A system in which a caller works, and the aggregators that it keeps under its names. -/
structure Bench (σ : Type) where
  system : System σ
  hand : Nat → Option AggregatorId

/-- What happens to the window of a processor. -/
inductive WindowEvent where
  | arrived (x : Arrival)
  | ended (time : Int)
deriving DecidableEq, Repr

namespace Bench

/-- The states of the aggregators that the caller keeps. -/
def states (b : Bench σ) : Nat → Option Aggregator := b.system.pool.states b.hand

theorem states_of_none {b : Bench σ} {k : Nat} (h : b.hand k = none) : b.states k = none := by
  unfold states Pool.states
  rw [h]
  rfl

theorem states_of_some {b : Bench σ} {k : Nat} {i : AggregatorId} (h : b.hand k = some i) :
    b.states k = some (b.system.pool.get i) := by
  unfold states Pool.states
  rw [h]
  rfl

/-- The given time, or what the clock of a processor shows. -/
def reading (b : Bench σ) (r : Ref .processor) (time : Option Int) : Int :=
  time.getD (((b.system.processors.get? r).bind fun p => b.system.clocks.get? p.clock).getD
    default).now

end Bench

namespace ProcessorCall

/-- What becomes of a call, and the metrics if it ends a cycle with a report. -/
def perform (r : Ref .processor) (hand : Nat → Option AggregatorId) :
    ProcessorCall → SystemM σ (List Metric)
  | create _ => do
    let _ ← onProcessor r fun w =>
      let (i, w) := w.create
      (.ok i, w)
    return []
  | make _ shape valueType => do
    let _ ← newAggregator (Aggregator.fresh shape valueType)
    return []
  | record k value => do
    let i ← demand "aggregator" (hand k)
    changePool fun p => (p.record i value).mapError Failure.record
    return []
  | batch labels k unmapped => do
    let i ← demand "aggregator" (hand k)
    onProcessor r (·.batch labels i unmapped)
    return []
  | complete time => do
    let time ← timeOr (← processor r).clock time
    onProcessor r fun w =>
      let (metrics, w) := w.complete time
      (.ok metrics, w)
  | skip time => do
    let time ← timeOr (← processor r).clock time
    onProcessor r fun w => (.ok (), w.skip time)
    return []
  | elapse nanos => do
    let q := (← processor r).clock
    let c ← clock q
    modify fun s => { s with clocks := s.clocks.set q (c.advance nanos) }
    return []

/-- The names of the caller after a call, of which `next` is the identifier of a new aggregator. -/
def handAfter (hand : Nat → Option AggregatorId) (next : AggregatorId) :
    ProcessorCall → Nat → Option AggregatorId
  | create k | make k _ _ => Function.update hand k (some next)
  | batch _ k unmapped => Custody.handed hand k unmapped
  | _ => hand

/-- The bench after a call, with what came of it. -/
def step (r : Ref .processor) (b : Bench σ) (c : ProcessorCall) :
    Except Failure (List Metric) × Bench σ :=
  let (result, s) := c.perform r b.hand b.system
  (result, ⟨s, c.handAfter b.hand b.system.pool.next⟩)

/-- What the call does to the window. -/
def event? (r : Ref .processor) (b : Bench σ) : ProcessorCall → Option WindowEvent
  | batch labels k unmapped => (b.states k).map fun a => .arrived ⟨labels, a, unmapped⟩
  | complete time | skip time => some (.ended (b.reading r time))
  | _ => none

/-- The aggregators of the caller after a call. -/
def follow (s : Stream) (states : Nat → Option Aggregator) :
    ProcessorCall → Nat → Option Aggregator
  | create k => Function.update states k (some s.freshAggregator)
  | make k shape valueType => Function.update states k (some (Aggregator.fresh shape valueType))
  | record k value =>
    Function.update states k ((states k).map fun a => (a.record value).toOption.getD a)
  | batch _ k unmapped =>
    Function.update states k (if unmapped then none else (states k).map Aggregator.emptied)
  | _ => states

/-- The clock of the processor after a call. -/
def clockAfter (c : Clock) : ProcessorCall → Clock
  | elapse nanos => c.advance nanos
  | _ => c

/-- An aggregator that the caller makes by itself is of the kind of the stream. -/
def Fits (s : Stream) : ProcessorCall → Prop
  | make _ shape valueType => valueType = s.descriptor.valueType ∧ shape.Alike s.shape
  | _ => True

theorem Fits.continues {s s' : Stream} {c : ProcessorCall} (h : c.Fits s) (hs : s.Continues s') :
    c.Fits s' := by
  cases c with
  | make k shape valueType =>
    obtain ⟨hv, hshape⟩ := h
    exact ⟨hv.trans (congrArg Descriptor.valueType hs.descriptor).symm,
      by rw [hs.shape]; exact hshape⟩
  | _ => trivial

end ProcessorCall

namespace Bench

/-- The bench after several calls. -/
def after (r : Ref .processor) (b : Bench σ) (calls : List ProcessorCall) : Bench σ :=
  calls.foldl (fun b c => (c.step r b).2) b

/-- What several calls do to the window. -/
def events (r : Ref .processor) (b : Bench σ) : List ProcessorCall → List WindowEvent
  | [] => []
  | c :: rest => (c.event? r b).toList ++ events r (c.step r b).2 rest

theorem after_cons (r : Ref .processor) (b : Bench σ) (c : ProcessorCall)
    (rest : List ProcessorCall) : b.after r (c :: rest) = (c.step r b).2.after r rest := rfl

theorem events_append (r : Ref .processor) (b : Bench σ) (calls rest : List ProcessorCall) :
    b.events r (calls ++ rest) = b.events r calls ++ (b.after r calls).events r rest := by
  induction calls generalizing b with
  | nil => rfl
  | cons c calls ih =>
    rw [List.cons_append, events, events, ih, List.append_assoc, after_cons]

end Bench

/-! ### The window as calls change it -/

/-- A window: when it began, and what it has for each label set. -/
structure WindowState where
  start : Int
  aggregators : OrderedMap LabelSet Aggregator

namespace Stream

/-- The window of a stream. -/
def windowState (s : Stream) (p : Pool) : WindowState := ⟨s.start, s.windowIn p⟩

/-- The window after an event. -/
def next (s : Stream) (w : WindowState) : WindowEvent → WindowState
  | .arrived x => { w with aggregators := s.receive w.aggregators x }
  | .ended time =>
    match s.temporality with
    | .delta => ⟨time, OrderedMap.empty⟩
    | .cumulative => w

theorem Continues.next {s s' : Stream} (h : s.Continues s') : s'.next = s.next := by
  have hjoined : s'.joined = s.joined := by
    unfold joined
    rw [h.freshAggregator]
  funext w e
  cases e with
  | arrived x =>
    unfold Stream.next receive
    rw [hjoined]
  | ended time =>
    unfold Stream.next
    rw [h.temporality]

theorem windowState_endWindow (s : Stream) (p : Pool) (time : Int) :
    (s.endWindow time).windowState p = s.next (s.windowState p) (.ended time) := by
  unfold windowState
  rw [windowIn_endWindow]
  unfold endWindow afterEnd next
  cases s.temporality <;> rfl

end Stream

/-! ### Calls on a system -/

theorem onProcessor_apply {α : Type} {s : System σ} {r : Ref .processor} {p : Processor}
    (h : s.processors.get? r = some p) (f : PooledStream → Except Failure α × PooledStream) :
    onProcessor r f s = ((f ⟨s.pool, p.stream⟩).1, { s with
      pool := (f ⟨s.pool, p.stream⟩).2.pool
      processors := s.processors.set r { p with stream := (f ⟨s.pool, p.stream⟩).2.stream } }) := by
  unfold onProcessor SystemM.processor withStream
  simp only [bind_apply, get_apply, demand_apply, h, set_apply, pure_apply, setProcessor,
    modify_apply, ofExcept_apply]

theorem changePool_apply (s : System σ) (f : Pool → Except Failure Pool) :
    changePool f s = match f s.pool with
      | .ok p => (.ok (), { s with pool := p })
      | .error e => (.error e, s) := by
  unfold changePool
  rw [bind_apply, get_apply]
  dsimp only
  cases f s.pool <;> rfl

theorem timeOr_apply {s : System σ} {q : Ref .clock} {c : Clock} (h : s.clocks.get? q = some c)
    (time : Option Int) : timeOr q time s = (.ok (time.getD c.now), s) := by
  cases time with
  | some time => rfl
  | none =>
    unfold timeOr now SystemM.clock
    simp only [bind_apply, get_apply, demand_apply, h, pure_apply, Option.getD_none]

/-- A processor with its clock, and a caller that works with it. -/
structure Bench.Works (b : Bench σ) (r : Ref .processor) (p : Processor) (c : Clock)
    (keeper : AggregatorId → Keeper) : Prop where
  processor : b.system.processors.get? r = some p
  clock : b.system.clocks.get? p.clock = some c
  custody : Custody b.system.pool p.stream b.hand keeper

namespace Bench.Works

variable {b : Bench σ} {r : Ref .processor} {p : Processor} {c : Clock}
  {keeper : AggregatorId → Keeper}

theorem reading_eq (h : b.Works r p c keeper) (time : Option Int) :
    b.reading r time = time.getD c.now := by
  unfold reading
  rw [h.processor, Option.bind_some, h.clock]
  rfl

theorem timeOr_reading (h : b.Works r p c keeper) (time : Option Int) :
    timeOr p.clock time b.system = (.ok (b.reading r time), b.system) := by
  rw [h.reading_eq, timeOr_apply h.clock]

/-- **Completing** a cycle reports the window, up to the time of the cycle. -/
theorem complete_result (h : b.Works r p c keeper) (time : Option Int) :
    ((ProcessorCall.complete time).step r b).1
      = .ok (p.stream.metricsOf (p.stream.windowIn b.system.pool) (b.reading r time)) := by
  unfold ProcessorCall.step ProcessorCall.perform SystemM.processor
  simp only [bind_apply, get_apply, demand_apply, h.processor, h.timeOr_reading,
    onProcessor_apply h.processor]
  rw [← Stream.metrics_eq]
  rfl

/-- What a call leaves of the work: the same processor with its clock, another window perhaps, and
the aggregators of the caller. -/
structure After (b : Bench σ) (r : Ref .processor) (p : Processor) (c : Clock)
    (call : ProcessorCall) (b' : Bench σ) (p' : Processor) (keeper' : AggregatorId → Keeper) :
    Prop where
  works : b'.Works r p' (call.clockAfter c) keeper'
  continues : p.stream.Continues p'.stream
  window : p'.stream.windowState b'.system.pool
    = (call.event? r b).toList.foldl p.stream.next (p.stream.windowState b.system.pool)
  states : b'.states = call.follow p.stream b.states

theorem create_step (h : b.Works r p c keeper) (k : Nat) :
    ∃ keeper', After b r p c (.create k) ((ProcessorCall.create k).step r b).2 p keeper' := by
  have hstep : (ProcessorCall.create k).step r b = (.ok [], ⟨{ b.system with
      pool := b.system.pool.add p.stream.freshAggregator
      processors := b.system.processors.set r p },
      Function.update b.hand k (some b.system.pool.next)⟩) := by
    unfold ProcessorCall.step ProcessorCall.perform
    simp only [bind_apply, onProcessor_apply h.processor, pure_apply]
    rfl
  rw [hstep]
  obtain ⟨keeper', hcustody, hwindow, hstates⟩ :=
    h.custody.make k p.stream.kin_freshAggregator
  exact ⟨keeper', ⟨Table.get?_set_self p h.processor, h.clock, hcustody⟩, rfl,
    congrArg (WindowState.mk _) hwindow, hstates⟩

theorem make_step (h : b.Works r p c keeper) (k : Nat) {shape : Shape} {v : ValueType}
    (hfits : (ProcessorCall.make k shape v).Fits p.stream) :
    ∃ keeper', After b r p c (.make k shape v) ((ProcessorCall.make k shape v).step r b).2 p
      keeper' := by
  obtain ⟨rfl, hshape⟩ := hfits
  obtain ⟨keeper', hcustody, hwindow, hstates⟩ := h.custody.make k (Stream.kin_fresh hshape)
  exact ⟨keeper', ⟨h.processor, h.clock, hcustody⟩, rfl, congrArg (WindowState.mk _) hwindow,
    hstates⟩

/-- A call that fails because the caller does not keep what it names. -/
theorem unkept_step (h : b.Works r p c keeper) {call : ProcessorCall} {e : Failure}
    (hstep : call.perform r b.hand b.system = (.error e, b.system))
    (hhand : call.handAfter b.hand b.system.pool.next = b.hand) (hevent : call.event? r b = none)
    (hclock : call.clockAfter c = c) (hfollow : call.follow p.stream b.states = b.states) :
    After b r p c call (call.step r b).2 p keeper := by
  have hsame : (call.step r b).2 = b := by
    unfold ProcessorCall.step
    rw [hstep, hhand]
  rw [hsame]
  refine ⟨?_, rfl, ?_, hfollow.symm⟩
  · rw [hclock]
    exact h
  · rw [hevent]
    rfl

theorem record_step (h : b.Works r p c keeper) (k : Nat) (value : Scalar) :
    After b r p c (.record k value) ((ProcessorCall.record k value).step r b).2 p keeper := by
  cases hk : b.hand k with
  | none =>
    have hstate := Bench.states_of_none hk
    refine h.unkept_step (e := .unusable "aggregator") ?_ rfl rfl rfl ?_
    · unfold ProcessorCall.perform
      simp only [bind_apply, demand_apply, hk]
    · rw [ProcessorCall.follow, hstate, Option.map_none]
      exact Function.update_eq_self_iff.mpr hstate.symm
  | some i =>
    have hstate := Bench.states_of_some hk
    cases hrecord : (b.system.pool.get i).record value with
    | error e =>
      refine h.unkept_step (e := .record e) ?_ rfl rfl rfl ?_
      · unfold ProcessorCall.perform
        simp only [bind_apply, demand_apply, hk, changePool_apply, Pool.record, hrecord]
        rfl
      · rw [ProcessorCall.follow, hstate, Option.map_some, hrecord]
        exact Function.update_eq_self_iff.mpr hstate.symm
    | ok a =>
      have hstep : (ProcessorCall.record k value).step r b
          = (.ok [], ⟨{ b.system with pool := b.system.pool.set i a }, b.hand⟩) := by
        unfold ProcessorCall.step ProcessorCall.perform
        simp only [bind_apply, demand_apply, hk, changePool_apply, Pool.record, hrecord]
        rfl
      rw [hstep]
      have hkin := (h.custody.kin (h.custody.kept_hand hk)).record hrecord
      obtain ⟨hcustody, hwindow, hstates⟩ := h.custody.set hk hkin
      refine ⟨⟨h.processor, h.clock, hcustody⟩, rfl, congrArg (WindowState.mk _) hwindow, ?_⟩
      rw [ProcessorCall.follow, hstate, Option.map_some, hrecord]
      exact hstates

theorem batch_step (h : b.Works r p c keeper) (l : LabelSet) (k : Nat) (unmapped : Bool) :
    ∃ p' keeper', After b r p c (.batch l k unmapped)
      ((ProcessorCall.batch l k unmapped).step r b).2 p' keeper' := by
  cases hk : b.hand k with
  | none =>
    have hstate := Bench.states_of_none hk
    refine ⟨p, keeper, h.unkept_step (e := .unusable "aggregator") ?_ ?_ ?_ rfl ?_⟩
    · unfold ProcessorCall.perform
      simp only [bind_apply, demand_apply, hk]
    · show Custody.handed b.hand k unmapped = b.hand
      unfold Custody.handed
      split
      · exact Function.update_eq_self_iff.mpr hk.symm
      · rfl
    · rw [ProcessorCall.event?, hstate, Option.map_none]
    · rw [ProcessorCall.follow, hstate, Option.map_none, ite_self]
      exact Function.update_eq_self_iff.mpr hstate.symm
  | some i =>
    have hstate := Bench.states_of_some hk
    obtain ⟨w', keeper', hbatch, hcustody, hcontinues, hstart, hwindow, hstates⟩ :=
      Custody.batch (w := ⟨b.system.pool, p.stream⟩) h.custody hk l unmapped
    have hstep : (ProcessorCall.batch l k unmapped).step r b = (.ok [], ⟨{ b.system with
        pool := w'.pool
        processors := b.system.processors.set r { p with stream := w'.stream } },
        Custody.handed b.hand k unmapped⟩) := by
      unfold ProcessorCall.step ProcessorCall.perform
      simp only [bind_apply, demand_apply, hk, onProcessor_apply h.processor, hbatch, pure_apply]
      rfl
    rw [hstep]
    refine ⟨{ p with stream := w'.stream }, keeper',
      ⟨Table.get?_set_self _ h.processor, h.clock, hcustody⟩, hcontinues, ?_, ?_⟩
    · rw [ProcessorCall.event?, hstate]
      exact congrArg₂ WindowState.mk hstart hwindow
    · rw [ProcessorCall.follow, hstate]
      exact hstates

theorem elapse_step (h : b.Works r p c keeper) (nanos : Int) :
    After b r p c (.elapse nanos) ((ProcessorCall.elapse nanos).step r b).2 p keeper := by
  have hstep : (ProcessorCall.elapse nanos).step r b = (.ok [], ⟨{ b.system with
      clocks := b.system.clocks.set p.clock (c.advance nanos) }, b.hand⟩) := by
    unfold ProcessorCall.step ProcessorCall.perform SystemM.processor SystemM.clock
    simp only [bind_apply, get_apply, demand_apply, h.processor, h.clock, modify_apply, pure_apply]
    rfl
  rw [hstep]
  exact ⟨⟨h.processor, Table.get?_set_self _ h.clock, h.custody⟩, rfl, rfl, rfl⟩

/-- The end of a cycle, whatever is reported of it. -/
theorem ended_step (h : b.Works r p c keeper) (time : Option Int) {call : ProcessorCall}
    (hcall : call = .complete time ∨ call = .skip time) :
    ∃ keeper', After b r p c call (call.step r b).2
      { p with stream := p.stream.endWindow (b.reading r time) } keeper' := by
  have hstep : (call.step r b).2 = ⟨{ b.system with
      processors := b.system.processors.set r
        { p with stream := p.stream.endWindow (b.reading r time) } }, b.hand⟩ := by
    unfold ProcessorCall.step
    rcases hcall with rfl | rfl <;> unfold ProcessorCall.perform SystemM.processor <;>
      simp only [bind_apply, get_apply, demand_apply, h.processor, h.timeOr_reading,
        onProcessor_apply h.processor, pure_apply] <;> rfl
  rw [hstep]
  obtain ⟨keeper', hcustody⟩ :=
    Custody.skip (w := ⟨b.system.pool, p.stream⟩) h.custody (b.reading r time)
  refine ⟨keeper', ⟨Table.get?_set_self _ h.processor, ?_, hcustody⟩,
    p.stream.continues_endWindow _, ?_, ?_⟩
  · rcases hcall with rfl | rfl <;> exact h.clock
  · rw [Stream.windowState_endWindow]
    rcases hcall with rfl | rfl <;> rfl
  · rcases hcall with rfl | rfl <;> rfl

/-- **One call** does to the window what its event says, and the caller is left with what it
keeps. -/
theorem step (h : b.Works r p c keeper) (call : ProcessorCall) (hcall : call.Fits p.stream) :
    ∃ p' keeper', After b r p c call (call.step r b).2 p' keeper' := by
  cases call with
  | create k => exact ⟨p, h.create_step k⟩
  | make k shape v => exact ⟨p, h.make_step k hcall⟩
  | record k value => exact ⟨p, keeper, h.record_step k value⟩
  | batch l k unmapped => exact h.batch_step l k unmapped
  | complete time => exact ⟨_, h.ended_step time (Or.inl rfl)⟩
  | skip time => exact ⟨_, h.ended_step time (Or.inr rfl)⟩
  | elapse nanos => exact ⟨p, keeper, h.elapse_step nanos⟩

/-- What arrives is kin. -/
theorem kin_of_arrived (h : b.Works r p c keeper) {call : ProcessorCall} {x : Arrival}
    (hx : call.event? r b = some (.arrived x)) : p.stream.Kin x.aggregator := by
  cases call with
  | batch l k unmapped =>
    obtain ⟨a, ha, heq⟩ := Option.map_eq_some_iff.mp hx
    obtain ⟨i, hi, rfl⟩ := Option.map_eq_some_iff.mp ha
    obtain rfl := WindowEvent.arrived.inj heq
    exact h.custody.kin (h.custody.kept_hand hi)
  | _ => cases hx

/-- **Calls** do to the window what their events say, one after the other, and all that arrives is
kin. -/
theorem after (h : b.Works r p c keeper) (calls : List ProcessorCall)
    (hcalls : ∀ call ∈ calls, call.Fits p.stream) :
    ∃ p' c' keeper', (b.after r calls).Works r p' c' keeper' ∧ p.stream.Continues p'.stream ∧
      p'.stream.windowState (b.after r calls).system.pool
        = (b.events r calls).foldl p.stream.next (p.stream.windowState b.system.pool) ∧
      ∀ x, .arrived x ∈ b.events r calls → p.stream.Kin x.aggregator := by
  induction calls generalizing b p c keeper with
  | nil => exact ⟨p, c, keeper, h, rfl, rfl, fun _ => nofun⟩
  | cons call calls ih =>
    obtain ⟨p₁, keeper₁, hafter⟩ := h.step call (hcalls call List.mem_cons_self)
    obtain ⟨p', c', keeper', h', hcontinues, hwindow, hkin⟩ := ih hafter.works fun x hx =>
      (hcalls x (List.mem_cons_of_mem call hx)).continues hafter.continues
    refine ⟨p', c', keeper', h', hafter.continues.trans hcontinues, ?_, fun x hx => ?_⟩
    · rw [Bench.after_cons, hwindow, hafter.window, hafter.continues.next, Bench.events,
        List.foldl_append]
    · rcases List.mem_append.mp hx with hx | hx
      · exact h.kin_of_arrived (Option.mem_toList.mp hx)
      · exact hafter.continues.kin.mp (hkin x hx)

end Bench.Works

/-! ### New processors -/

theorem labelSet_look (spec : LabelSpec) (s : System σ) : (SystemM.labelSet spec s).2 = s := by
  unfold SystemM.labelSet labelArgument
  simp only [bind_apply, ofExcept_apply]
  cases spec.argument.mapError Failure.labels <;> rfl

theorem find_look (c : Component) (id : String) (s : System σ) : (find c id s).2 = s := by
  unfold find named
  simp only [bind_apply, get_apply, demand_apply]
  cases s.names.get? id with
  | none => rfl
  | some e => cases h : e.ref? c <;> simp only [h]

/-- The bench of a caller that keeps nothing yet. -/
def Bench.start (s : System σ) : Bench σ := ⟨s, fun _ => none⟩

/-- The processor under another temporality. -/
def Processor.under (p : Processor) (t : Temporality) : Processor :=
  { p with stream := { p.stream with temporality := t } }

/-- **New processors** for requests that differ in temporality only.  Both have an empty window,
which begins at the time that the clock shows. -/
theorem newProcessor_under {q : ProcessorRequest} {t : Temporality} {s s' s'' : System σ}
    {r r' : Ref .processor} (h : newProcessor q s = (.ok r, s'))
    (h' : newProcessor { q with temporality := t } s = (.ok r', s'')) :
    ∃ p c, (Bench.start s').Works r p c (fun _ => .nobody) ∧
      (Bench.start s'').Works r' (p.under t) c (fun _ => .nobody) ∧
      p.stream.window = OrderedMap.empty ∧ p.stream.start = c.now ∧
      p.stream.temporality = q.temporality := by
  unfold newProcessor at h h'
  obtain ⟨d, hd, h⟩ := look_of_bind_eq_ok (by rw [ofExcept_apply]) h
  obtain ⟨d', hd', h'⟩ := look_of_bind_eq_ok (by rw [ofExcept_apply]) h'
  obtain rfl := Except.ok.inj (Prod.mk.inj (hd.symm.trans hd')).1
  obtain ⟨a, ha, h⟩ := look_of_bind_eq_ok (by rw [ofExcept_apply]) h
  obtain ⟨a', ha', h'⟩ := look_of_bind_eq_ok (by rw [ofExcept_apply]) h'
  obtain rfl := Except.ok.inj (Prod.mk.inj (ha.symm.trans ha')).1
  obtain ⟨l, hl, h⟩ := look_of_bind_eq_ok (labelSet_look _ s) h
  obtain ⟨l', hl', h'⟩ := look_of_bind_eq_ok (labelSet_look _ s) h'
  obtain rfl := Except.ok.inj (Prod.mk.inj (hl.symm.trans hl')).1
  obtain ⟨c, hc, h⟩ := look_of_bind_eq_ok (find_look _ _ s) h
  obtain ⟨c', hc', h'⟩ := look_of_bind_eq_ok (find_look _ _ s) h'
  obtain rfl := Except.ok.inj (Prod.mk.inj (hc.symm.trans hc')).1
  unfold now SystemM.clock at h h'
  cases hclock : s.clocks.get? c with
  | none =>
    simp only [bind_apply, get_apply, demand_apply, hclock] at h
    cases h
  | some x =>
    simp only [bind_apply, get_apply, demand_apply, hclock, pure_apply, modify_apply] at h h'
    cases h
    cases h'
    exact ⟨_, x, ⟨Table.get?_add_next _ _, hclock, Custody.start _ rfl⟩,
      ⟨Table.get?_add_next _ _, hclock, Custody.start _ rfl⟩, rfl, rfl, rfl⟩

/-- **A new processor** has an empty window, which begins at the time that its clock shows. -/
theorem newProcessor_works {q : ProcessorRequest} {s s' : System σ} {r : Ref .processor}
    (h : newProcessor q s = (.ok r, s')) :
    ∃ p c, (Bench.start s').Works r p c (fun _ => .nobody) ∧
      p.stream.window = OrderedMap.empty ∧ p.stream.start = c.now ∧
      p.stream.temporality = q.temporality := by
  obtain ⟨p, c, hworks, -, hnew⟩ := newProcessor_under h h
  exact ⟨p, c, hworks, hnew⟩

end Metering
