import Metering.Proofs.Instruments.Callbacks
import Metering.Session.Standalone

/-!
# Cycles of an observer

An observer that stands alone is an asynchronous accumulator over a processor.  Each of its cycles
calls a callback and ends with a report or without one.  Without a callback, or after one that
failed, the window is skipped; what a callback observed without failing is taken up and reported.

One thing stands against that.  What is observed has been checked, but the check lets integers pass
that no double holds, and negative numbers for a monotonic sum.  Such a value ends the cycle with a
failure where it stands: the window stays open, with the values before it taken up and the ones
after it lost (`Cycle.Done.torn`).
-/

namespace Metering

open Fallible SystemM

variable {σ : Type}

/-! ### Taking up one value for each label set -/

/-- The second window has taken up values, each under its label set, and is otherwise as the first
one. -/
structure Stream.TookUp (s : Stream) (window : OrderedMap LabelSet Aggregator)
    (values : List (LabelSet × Number)) (window' : OrderedMap LabelSet Aggregator) : Prop where
  observed : ∀ l n, (l, n) ∈ values →
    s.freshAggregator.record (.number n) = .ok (s.single (.number n)) ∧
      window'.get? l
        = some (((window.get? l).getD s.freshAggregator).absorb (s.single (.number n)))
  other : ∀ l, l ∉ values.map Prod.fst → window'.get? l = window.get? l

theorem Stream.tookUp_takeUpAll (s : Stream) (window : OrderedMap LabelSet Aggregator)
    {values : List (LabelSet × Number)} (hnodup : (values.map Prod.fst).Nodup)
    (haccepts : ∀ v ∈ values, s.accepts v = true) :
    s.TookUp window values (s.takeUpAll window values) := by
  induction values generalizing window with
  | nil => exact ⟨fun _ _ => nofun, fun _ _ => rfl⟩
  | cons v rest ih =>
    obtain ⟨l₁, n₁⟩ := v
    rw [List.map_cons, List.nodup_cons] at hnodup
    have h := ih (s.takeUp window l₁ (s.single (.number n₁))) hnodup.2
      fun v hv => haccepts v (List.mem_cons_of_mem _ hv)
    have hget : ∀ l, (s.takeUp window l₁ (s.single (.number n₁))).get? l
        = if l = l₁ then some (((window.get? l₁).getD s.freshAggregator).absorb
            (s.single (.number n₁))) else window.get? l := fun l => OrderedMap.get?_insert
    constructor
    · intro l n hmem
      rcases List.mem_cons.mp hmem with heq | hrest
      · -- the first value is not touched again, since no other has its label set
        obtain ⟨rfl, rfl⟩ := Prod.mk.inj heq
        have haccept := haccepts (l, n) List.mem_cons_self
        refine ⟨(Stream.single_of_accepted (Option.isNone_iff_eq_none.mp haccept)).1, ?_⟩
        exact (h.other l hnodup.1).trans ((hget l).trans (if_pos rfl))
      · have hne : l ≠ l₁ := by
          rintro rfl
          exact hnodup.1 (List.mem_map.mpr ⟨(l, n), hrest, rfl⟩)
        obtain ⟨hrecord, hl⟩ := h.observed l n hrest
        rw [hget, if_neg hne] at hl
        exact ⟨hrecord, hl⟩
    · intro l hl
      rw [List.map_cons, List.mem_cons, not_or] at hl
      exact (h.other l hl.2).trans ((hget l).trans (if_neg hl.1))

/-! ### An observer that stands alone -/

/-- An asynchronous accumulator over a processor, which no other accumulator shares. -/
structure Observer (s : System σ) (r : Ref .accumulator) (q : Ref .processor) (p : Processor)
    (clock : Clock) : Prop where
  accumulator : s.accumulators.get? r
    = some ⟨.asynchronous, some q, p.stream.descriptor.valueType⟩
  processor : s.processors.get? q = some p
  clock : s.clocks.get? p.clock = some clock

/-- A cycle of an observer: the callback that it has at that time, and the time of its end if it is
not left to the clock. -/
structure Cycle (σ : Type) where
  callback : Option (Callback σ)
  time : Option Int

namespace Cycle

/-- The callback of the cycle performs no steps. -/
def IsQuiet (c : Cycle σ) : Prop := ∀ x ∈ c.callback, x.IsQuiet

/-- What becomes of a cycle. -/
def perform (perform : σ → SystemM σ Unit) (r : Ref .accumulator) (c : Cycle σ) :
    SystemM σ (List Metric) :=
  collectShared perform r c.time c.callback []

/-- The system after several cycles. -/
def after (perform : σ → SystemM σ Unit) (r : Ref .accumulator) (s : System σ)
    (cycles : List (Cycle σ)) : System σ :=
  cycles.foldl (fun s c => (c.perform perform r s).2) s

end Cycle

/-- The system after the window of a processor was skipped. -/
def System.skipping (s : System σ) (q : Ref .processor) (p : Processor) (time : Int) : System σ :=
  { s with processors := s.processors.set q { p with stream := p.stream.endWindow time } }

/-- What becomes of a cycle of an observer. -/
structure Cycle.Done (perform : σ → SystemM σ Unit) (r : Ref .accumulator) (q : Ref .processor)
    (s : System σ) (p : Processor) (clock : Clock) (c : Cycle σ) : Prop where
  /-- Without a callback the window is skipped. -/
  missing : c.callback = none →
    c.perform perform r s = (.ok [], s.skipping q p (c.time.getD clock.now))
  /-- A callback that fails is reported to the log, and the window is skipped. -/
  failed : ∀ x e, c.callback = some x → x.outcome p.stream.descriptor.valueType = .error e →
    c.perform perform r s = (.ok [], { s.skipping q p (c.time.getD clock.now) with
      log := s.log ++ [.failed ("Callback of observer " ++ p.stream.descriptor.name ++ " failed")
        e] })
  /-- All that a callback observed is taken up and reported, if all of it can be recorded. -/
  reported : ∀ x values, c.callback = some x →
    x.outcome p.stream.descriptor.valueType = .ok values →
    (∀ v ∈ values, ¬ p.stream.CannotRecord v.2) →
    ∃ s' p' window', c.perform perform r s
        = (.ok (p.stream.metricsOf window' (c.time.getD clock.now)), s') ∧
      p.stream.TookUp (p.stream.windowIn s.pool) values window' ∧ Observer s' r q p' clock ∧
      p'.stream.start = (p.stream.endWindow (c.time.getD clock.now)).start ∧
      p'.stream.windowIn s'.pool = p.stream.afterEnd window'
  /-- Otherwise the first value that cannot be recorded ends the cycle with a failure.  The window
  has not ended, and has taken up the values before it. -/
  torn : ∀ x values, c.callback = some x →
    x.outcome p.stream.descriptor.valueType = .ok values →
    ∀ before v rest, values = before ++ v :: rest →
    (∀ u ∈ before, ¬ p.stream.CannotRecord u.2) → p.stream.CannotRecord v.2 →
    ∃ s' p' e, c.perform perform r s = (.error (.record e), s') ∧
      p.stream.refusal? (.number v.2) = some e ∧
      p.stream.TookUp (p.stream.windowIn s.pool) before (p'.stream.windowIn s'.pool) ∧
      Observer s' r q p' clock ∧ p'.stream.start = p.stream.start

namespace Observer

variable {s : System σ} {r : Ref .accumulator} {q : Ref .processor} {p : Processor} {clock : Clock}
  {c : Cycle σ}

/-- The system after a cycle that ended with a stream and a pool. -/
def ended (s : System σ) (q : Ref .processor) (p : Processor) (entries : List LogEntry)
    (w : PooledStream) : System σ :=
  { s with
    pool := w.pool
    processors := s.processors.set q { p with stream := w.stream }
    log := s.log ++ entries }

theorem perform_apply (h : Observer s r q p clock) (hc : c.IsQuiet)
    (perform : σ → SystemM σ Unit) :
    c.perform perform r s
      = ((({ pool := s.pool, stream := p.stream } : PooledStream).close
            (Callback.learned c.callback p.stream.descriptor.valueType)
            (c.time.getD clock.now)).1,
          ended s q p (Callback.entries p.stream.descriptor.name c.callback
              p.stream.descriptor.valueType)
            (({ pool := s.pool, stream := p.stream } : PooledStream).close
              (Callback.learned c.callback p.stream.descriptor.valueType)
              (c.time.getD clock.now)).2) := by
  have htime : ∀ s' : System σ, s'.clocks = s.clocks →
      timeOr p.clock c.time s' = (.ok (c.time.getD clock.now), s') := by
    intro s' hs'
    cases c.time with
    | some time => rfl
    | none =>
      unfold timeOr now SystemM.clock
      simp only [bind_apply, get_apply, demand_apply, hs', h.clock, pure_apply, Option.getD_none]
  unfold Cycle.perform collectShared SystemM.accumulator SystemM.processor
  simp only [bind_apply, get_apply, demand_apply, h.accumulator, h.processor,
    callBack_apply perform _ _ _ hc, htime, onProcessor, SystemM.processor, withStream, set_apply,
    pure_apply, setProcessor, modify_apply, ofExcept_apply]
  rfl

theorem after_ended (h : Observer s r q p clock) (entries : List LogEntry) {w : PooledStream}
    (hw : p.stream.Continues w.stream) :
    Observer (ended s q p entries w) r q { p with stream := w.stream } clock where
  accumulator := by
    show _ = some (SharedAccumulator.mk _ _ w.stream.descriptor.valueType)
    rw [hw.descriptor]
    exact h.accumulator
  processor := Table.get?_set_self _ h.processor
  clock := h.clock

theorem done {role : AggregatorId → Role} (h : Observer s r q p clock)
    (hobs : Observes s.pool p.stream role) (hc : c.IsQuiet) (perform : σ → SystemM σ Unit) :
    c.Done perform r q s p clock := by
  have happly := h.perform_apply hc perform
  constructor
  case missing =>
    intro hnone
    rw [happly, hnone]
    show (Except.ok [], { s.skipping q p (c.time.getD clock.now) with log := s.log ++ [] }) = _
    rw [List.append_nil]
    rfl
  case failed =>
    intro x e hx he
    rw [happly, hx, Callback.learned_of_error he, Callback.entries_of_error he]
    rfl
  case reported =>
    intro x values hx hvalues hall
    obtain ⟨hchecked, hnodup⟩ := Callback.outcome_checked hvalues
    have haccepts := Stream.accepts_of_recordable hchecked hall
    -- nothing is refused, so the cycle takes up all values
    have hnone : p.stream.refusalIn? values = none :=
      (Stream.refusalIn?_eq_none_iff hchecked).mpr hall
    obtain ⟨w', role', hclose, -, hadv, hstart, hwindow⟩ :=
      Observes.close (w := { pool := s.pool, stream := p.stream }) hobs (some values)
        (c.time.getD clock.now)
    unfold Stream.report at hclose
    unfold Stream.startAfterCycle at hstart
    unfold Stream.afterCycle at hwindow
    simp only [Option.getD_some, hnone] at hclose hstart hwindow
    rw [happly, hx, Callback.learned_of_ok hvalues, hclose]
    exact ⟨_, _, _, rfl, p.stream.tookUp_takeUpAll _ hnodup haccepts,
      h.after_ended _ hadv.stream, hstart, hwindow⟩
  case torn =>
    rintro x values hx hvalues before v rest rfl hbefore hv
    obtain ⟨hchecked, hnodup⟩ := Callback.outcome_checked hvalues
    -- the first value that is refused ends the cycle: what stands before it is taken up
    obtain ⟨e, he, hfirst, htake⟩ := Stream.refuses_first hchecked hbefore hv
    have haccepts := Stream.accepts_of_recordable
      (fun u hu => hchecked u (List.mem_append_left _ hu)) hbefore
    have hnodup : (before.map Prod.fst).Nodup := by
      rw [List.map_append] at hnodup
      exact (List.nodup_append.mp hnodup).1
    obtain ⟨w', role', hclose, -, hadv, hstart, hwindow⟩ :=
      Observes.close (w := { pool := s.pool, stream := p.stream }) hobs
        (some (before ++ v :: rest)) (c.time.getD clock.now)
    unfold Stream.report at hclose
    unfold Stream.startAfterCycle at hstart
    unfold Stream.afterCycle at hwindow
    simp only [Option.getD_some, hfirst, htake] at hclose hstart hwindow
    rw [happly, hx, Callback.learned_of_ok hvalues, hclose]
    refine ⟨_, _, e, rfl, he, ?_, h.after_ended _ hadv.stream, hstart⟩
    show p.stream.TookUp _ before (w'.stream.windowIn w'.pool)
    rw [hwindow]
    exact p.stream.tookUp_takeUpAll _ hnodup haccepts

/-- **A cycle** leaves an observer as it should be. -/
theorem perform (h : Observer s r q p clock) {role : AggregatorId → Role}
    (hobs : Observes s.pool p.stream role) (hc : c.IsQuiet) (perform : σ → SystemM σ Unit) :
    ∃ p' role', Observer (c.perform perform r s).2 r q p' clock ∧
      Observes (c.perform perform r s).2.pool p'.stream role' ∧
      p.stream.Continues p'.stream := by
  obtain ⟨w', role', hclose, hobs', hadv, -, -⟩ :=
    Observes.close (w := { pool := s.pool, stream := p.stream }) hobs
      (Callback.learned c.callback p.stream.descriptor.valueType) (c.time.getD clock.now)
  rw [h.perform_apply hc perform, hclose]
  exact ⟨{ p with stream := w'.stream }, role', h.after_ended _ hadv.stream, hobs', hadv.stream⟩

/-- **Cycles** leave an observer as it should be. -/
theorem after (h : Observer s r q p clock) {role : AggregatorId → Role}
    (hobs : Observes s.pool p.stream role) (perform : σ → SystemM σ Unit)
    (cycles : List (Cycle σ)) (hquiet : ∀ c ∈ cycles, c.IsQuiet) :
    ∃ p' role', Observer (Cycle.after perform r s cycles) r q p' clock ∧
      Observes (Cycle.after perform r s cycles).pool p'.stream role' ∧
      p.stream.Continues p'.stream := by
  induction cycles generalizing s p role with
  | nil => exact ⟨p, role, h, hobs, rfl⟩
  | cons c cycles ih =>
    obtain ⟨p₁, role₁, h₁, hobs₁, hstream₁⟩ :=
      h.perform hobs (hquiet c List.mem_cons_self) perform
    obtain ⟨p', role', h', hobs', hstream'⟩ :=
      ih h₁ hobs₁ fun c hc => hquiet c (List.mem_cons_of_mem _ hc)
    exact ⟨p', role', h', hobs', hstream₁.trans hstream'⟩

end Observer

/-- **Cycles of an observer**: after any cycles, the next one skips the window if there is no
callback or the callback fails, and otherwise takes up and reports all that was observed, unless a
value cannot be recorded, which tears the cycle. -/
theorem observer_cycles {s : System σ} {r : Ref .accumulator} {q : Ref .processor} {p : Processor}
    {clock : Clock} (h : Observer s r q p clock) (hnew : p.stream.window = OrderedMap.empty)
    (perform : σ → SystemM σ Unit) (cycles : List (Cycle σ)) (hquiet : ∀ c ∈ cycles, c.IsQuiet)
    (c : Cycle σ) (hc : c.IsQuiet) :
    ∃ p', Observer (Cycle.after perform r s cycles) r q p' clock ∧
      p.stream.Continues p'.stream ∧
      c.Done perform r q (Cycle.after perform r s cycles) p' clock := by
  obtain ⟨p', role', h', hobs', hstream⟩ :=
    h.after (Observes.start s.pool hnew) perform cycles hquiet
  exact ⟨p', h', hstream, h'.done hobs' hc perform⟩

/-- A new observer of doubles over its processor, with a clock that shows the time 5. -/
def Observer.ofDoubles : System Unit :=
  let stream : Stream :=
    { descriptor := ⟨"load", some "", some "1", .valueObserver, .double⟩
      aggregation := .lastValue
      temporality := .delta
      resource := Resource.empty
      library := ⟨some "server", none⟩
      start := 0
      window := OrderedMap.empty }
  { (System.empty : System Unit) with
    clocks := Table.empty.add (.manual 5)
    processors := Table.empty.add ⟨stream, ⟨0⟩⟩
    accumulators := Table.empty.add ⟨.asynchronous, some ⟨0⟩, .double⟩ }

/-- A cycle in which one is observed without labels, and then, under a label, an integer that no
double holds. -/
def Cycle.ofHugeValue : Cycle Unit :=
  let huge : Int := Nat.pow 10 400
  { callback := some
      { cycles := [[.observe (.number (.integer 1)) .absent,
          .observe (.number (.integer huge)) (.pairs [(.text "k", .text "v")])]]
        generates := false
        calls := 0 }
    time := none }

/-- The first cycle of an observer of doubles is torn by an integer that no double holds. -/
theorem observer_cycles_of_huge_value : ∃ p,
    Cycle.ofHugeValue.Done (fun _ => pure ()) ⟨0⟩ ⟨0⟩ Observer.ofDoubles p (.manual 5) ∧
    (Cycle.ofHugeValue.perform (fun _ => pure ()) ⟨0⟩ Observer.ofDoubles).1
      = .error (.record .tooLarge) := by
  have h : Observer Observer.ofDoubles ⟨0⟩ ⟨0⟩ _ (.manual 5) := ⟨rfl, rfl, rfl⟩
  have hquiet : Cycle.ofHugeValue.IsQuiet := by
    intro x hx a ha
    obtain rfl := Option.some.inj hx
    change a ∈ [_, _] at ha
    simp only [List.mem_cons, List.not_mem_nil, or_false] at ha
    rcases ha with rfl | rfl <;> exact trivial
  obtain ⟨p, -, -, hdone⟩ := observer_cycles h rfl (fun _ => pure ()) [] (fun _ => nofun)
    Cycle.ofHugeValue hquiet
  exact ⟨p, hdone, by decide +kernel⟩

/-- **A torn cycle**: the collection fails, although what the callback observed was accepted, and
one of the two observed values is in the window, which has not ended. -/
theorem observer_cycle_torn :
    let c := Cycle.ofHugeValue.perform (fun _ => pure ()) ⟨0⟩ Observer.ofDoubles
    (Callback.learned Cycle.ofHugeValue.callback .double).map (fun values => values.length)
        = some 2 ∧
      c.1 = .error (.record .tooLarge) ∧
      (c.2.processors.get? ⟨0⟩).map (fun p => (p.stream.window.keys, p.stream.start))
        = some ([LabelSet.empty], 0) := by
  decide +kernel

end Metering
