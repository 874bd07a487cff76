import Metering.Proofs.Aggregator.Combination
import Metering.Proofs.Pipeline.Program
import Metering.Proofs.Readers.Starting

/-!
# Exported exactly once

The main statement about pipelines, `exported_exactly_once`: whatever an ordinary program does with
a provider that has one periodic reader, after the shutdown the exporter has every measurement that
was recorded before, and has it once.  What it has for a label set of an instrument is what the
history of the label set says (`Stream.Delivers`).
-/

namespace Metering

open Fallible SystemM

variable {σ : Type}

/-- What came out of a stream for a label set is what the history of the label set says. -/
structure Stream.Delivers (s : Stream) (history : List Int) (points : List PointValue) : Prop where
  /-- Points of consecutive windows combine into the summary of the history. -/
  delta : s.temporality = .delta → s.shape.combined points = s.shape.summary history
  /-- Of points that each cover the whole past, the last one is the summary of the history. -/
  cumulative : s.temporality = .cumulative → points.getLast? = s.shape.summary history
  /-- There are points exactly where something was recorded. -/
  vacant : points = [] ↔ history = []

/-! ### Setting a pipeline up -/

/-- Makes an exporter that keeps its metrics in memory, a periodic reader for it, and a provider
with the reader.  Nothing can be waited for longer than the longest time. -/
def Pipeline.setup (longest : Binary64) (resource : Resource) (clock : Clock)
    (disabled : Option Bool) (q : ScheduleRequest) : SystemM σ Pipeline := do
  let c ← newClock clock
  let e := (← get).exporters.next
  modify fun s => { s with exporters := s.exporters.add (.memory [] false) }
  let (r, _) ← newPeriodicReader longest e q
  let p ← newProvider resource c disabled [r]
  return { exporter := e, reader := r, provider := p }

namespace SystemM

theorem newProvider_apply {s : System σ} {c : Ref .clock} {clock : Clock} {r : Ref .reader}
    {x : Reader} (hc : s.clocks.get? c = some clock) (hx : s.readers.get? r = some x)
    (resource : Resource) (disabled : Option Bool) :
    newProvider resource c disabled [r] s = (.ok s.providers.next, { s with
      providers := s.providers.add
        { resource := resource
          clock := c
          chooser := Chooser.empty
          disabled := disabled.getD s.environment.isDisabled
          isShutDown := false
          meters := OrderedMap.empty
          readers := [r] }
      readers := s.readers.set r
        { x with provider := some s.providers.next, timed := x.timed && clock.isManual } }) := by
  unfold newProvider SystemM.clock reader setReader
  simp only [bind_apply, get_apply, set_apply, pure_apply, demand_apply, hc, forM_cons_apply,
    forM_nil_apply, modify_apply, hx]

end SystemM

/-- A system without meters and instruments is in order. -/
theorem Running.of_empty {P : Pipeline} {schedule : Schedule} {s : System σ}
    (hw : Wired P schedule s [])
    (hmeters : ∀ {x}, s.providers.get? P.provider = some x → x.meters = OrderedMap.empty)
    (hm : ∀ r, s.meters.get? r = none) (hi : ∀ r, s.instruments.get? r = none)
    (hh : ∀ r, s.handles.get? r = none) (plan : Ref .meter → String → Descriptor) :
    Running P schedule plan s [] [] [] := by
  have hacc : ∀ {r a}, s.accumulation? r ≠ some a := by
    intro r a ha
    obtain ⟨i, hr, -⟩ := Option.bind_eq_some_iff.mp ha
    rw [hi] at hr
    cases hr
  refine ⟨hw, ?_, fun _ _ => .foreign, ?_⟩
  · constructor
    case meters =>
      intro x hx key m
      rw [hmeters hx, hm]
      simp
    all_goals simp [hm, hi]
  · constructor
    case handled => exact ⟨List.nodup_nil, by simp⟩
    case accounts => exact fun ha => absurd ha hacc
    case apart => exact fun ha => absurd ha hacc
    case distinct => exact fun ha => absurd ha hacc
    all_goals simp [hh]

namespace Pipeline

section

variable (longest : Binary64) (resource : Resource) (clock : Clock) (disabled : Option Bool)
  {q : ScheduleRequest} {s : System σ}

/-- **Setting up** a pipeline works if the numbers of its reader are accepted. -/
theorem setup_of_accepted (haccepted : q.errorIn? s.environment = none) :
    ∃ log, setup longest resource clock disabled q s
      = (.ok ⟨s.exporters.next, s.readers.next, s.providers.next⟩, { s with
          clocks := s.clocks.add clock
          exporters := s.exporters.add (.memory [] false)
          readers := (s.readers.add ⟨none, true, .periodic
            (q.scheduleIn s.environment longest s.exporters.next)⟩).set s.readers.next
              ⟨some s.providers.next, true && clock.isManual, .periodic
                (q.scheduleIn s.environment longest s.exporters.next)⟩
          providers := s.providers.add
            { resource := resource
              clock := s.clocks.next
              chooser := Chooser.empty
              disabled := disabled.getD s.environment.isDisabled
              isShutDown := false
              meters := OrderedMap.empty
              readers := [s.readers.next] }
          log := log }) := by
  obtain ⟨log, hreader⟩ := newPeriodicReader_of_accepted (s := { s with
      clocks := s.clocks.add clock
      exporters := s.exporters.add (.memory [] false) }) longest s.exporters.next haccepted
  have hc := Table.get?_add_next s.clocks clock
  have hr := Table.get?_add_next s.readers
    ⟨none, true, .periodic (q.scheduleIn s.environment longest s.exporters.next)⟩
  refine ⟨log, ?_⟩
  unfold setup newClock
  simp only [bind_apply, get_apply, modify_apply, pure_apply, hreader]
  rw [newProvider_apply hc hr]

/-- A pipeline cannot be set up if the numbers of its reader are not accepted. -/
theorem setup_of_error {error : ScheduleError} (herror : q.errorIn? s.environment = some error) :
    (setup longest resource clock disabled q s).1 = .error (.schedule error) := by
  obtain ⟨log, hreader⟩ := newPeriodicReader_of_error (s := { s with
      clocks := s.clocks.add clock
      exporters := s.exporters.add (.memory [] false) }) longest s.exporters.next herror
  unfold setup newClock
  simp only [bind_apply, get_apply, modify_apply, pure_apply, hreader]

end

variable {longest : Binary64} {resource : Resource} {clock : Clock} {disabled : Option Bool}
  {q : ScheduleRequest} {env : Environment} {s : System σ}

/-- **A pipeline** that was set up in a system without instruments is running. -/
theorem running_of_setup {P : Pipeline}
    (h : setup longest resource clock disabled q { System.empty with environment := env }
      = (.ok P, s))
    (henabled : disabled.getD env.isDisabled = false)
    (htimeout : ∃ cap, Delivery.seconds? (q.timeoutIn env) = some cap) :
    ∃ schedule, schedule.Going ∧ ∀ plan, Running P schedule plan s [] [] [] := by
  cases haccepted : q.errorIn? env with
  | some error =>
    have hrefused := setup_of_error longest resource clock disabled
      (s := { (System.empty : System σ) with environment := env }) haccepted
    rw [h] at hrefused
    cases hrefused
  | none =>
    obtain ⟨log, hmade⟩ := setup_of_accepted longest resource clock disabled
      (s := { (System.empty : System σ) with environment := env }) haccepted
    obtain ⟨hP, hs⟩ := Prod.mk.inj (h.symm.trans hmade)
    obtain rfl := Except.ok.inj hP
    subst hs
    refine ⟨q.scheduleIn env longest (Table.empty : Table .exporter Exporter).next, ⟨rfl, rfl⟩,
      Running.of_empty ⟨?_, ?_, ⟨rfl, htimeout⟩, ?_⟩ ?_ ?_ ?_ ?_⟩
    · exact ⟨_, clock, Table.get?_add_next _ _, henabled, rfl, rfl, Table.get?_add_next _ _⟩
    · exact ⟨_, Table.get?_set_self _ (Table.get?_add_next _ _), rfl, rfl⟩
    · exact Table.get?_add_next _ _
    · intro x hx
      obtain rfl := Option.some.inj ((Table.get?_add_next _ _).symm.trans hx)
      rfl
    all_goals exact fun r => Table.get?_empty r

end Pipeline

/-! ### What has come out in the end -/

theorem flatMap_eq_of_getElem? {α β : Type} (xs : List α) {f : α → List β} {g : Nat → List β}
    (h : ∀ k x, xs[k]? = some x → f x = g k) :
    xs.flatMap f = (List.range xs.length).flatMap g := by
  induction xs generalizing g with
  | nil => rfl
  | cons x xs ih =>
    rw [List.length_cons, List.range_succ_eq_map, List.flatMap_cons, List.flatMap_cons,
      List.flatMap_map, h 0 x rfl]
    rw [ih fun k y hy => h (k + 1) y hy]

theorem pointValues_flatten (labels : LabelSet) (reports : List (List Metric)) :
    pointValues labels reports.flatten = reports.flatMap (pointValues labels) := by
  unfold pointValues
  induction reports with
  | nil => rfl
  | cons report reports ih =>
    rw [List.flatten_cons, List.flatMap_append, List.filter_append, List.map_append, ih,
      List.flatMap_cons]

/-- What was reported for a label set are the points of the blocks. -/
theorem Booked.pointValues_reports {t : Threads} {g : Ledger Int} (h : Booked IsSum t g)
    (labels : LabelSet) : pointValues labels t.reports.flatten
      = (List.range (g.blocks labels).length).flatMap fun k => (t.stream.shape.summary
          (t.stream.temporality.covered (g.blocks labels) k)).toList := by
  rw [pointValues_flatten, h.length labels]
  refine flatMap_eq_of_getElem? t.reports fun k report hk => ?_
  obtain ⟨a, ha, hvalues⟩ := h.reports labels k report hk
  rw [hvalues, Aggregator.value?_of_holds_long ha]

/-- **Points of blocks** say what the blocks together say. -/
theorem Stream.delivers_of_blocks (s : Stream) (blocks : List (List Int)) :
    s.Delivers blocks.flatten ((List.range blocks.length).flatMap fun k =>
      (s.shape.summary (s.temporality.covered blocks k)).toList) := by
  have hdelta : s.temporality = .delta → s.shape.combined ((List.range blocks.length).flatMap
      fun k => (s.shape.summary (s.temporality.covered blocks k)).toList)
        = s.shape.summary blocks.flatten := by
    intro ht
    rw [ht, ← flatMap_eq_of_getElem? blocks fun k block hk => ?_]
    · exact s.shape.combined_summaries blocks
    · show _ = (s.shape.summary (blocks.getD k [])).toList
      rw [List.getD_eq_getElem?_getD, hk]
      rfl
  have hcumulative : s.temporality = .cumulative → ((List.range blocks.length).flatMap
      fun k => (s.shape.summary (s.temporality.covered blocks k)).toList).getLast?
        = s.shape.summary blocks.flatten := by
    intro ht
    rw [ht]
    exact s.shape.getLast?_summaries blocks
  refine ⟨hdelta, hcumulative, fun h => ?_, fun h => ?_⟩
  · -- without points the summary is missing, and no stream discards what is recorded
    refine (Shape.summary_eq_none_iff s.shape_ne_discard).mp ?_
    cases ht : s.temporality with
    | delta =>
      rw [← hdelta ht, h]
      rfl
    | cumulative =>
      rw [← hcumulative ht, h]
      rfl
  · refine List.flatMap_eq_nil_iff.mpr fun k _ => ?_
    rw [s.temporality.covered_of_flatten_eq_nil h]
    rfl

theorem World.history_eq {w : World σ} {r : Ref .instrument} {t : Threads}
    (h : t.recorded = notes w.recorded r) (labels : LabelSet) :
    w.history r labels = t.recordedFor Int labels := by
  unfold World.history Threads.recordedFor
  rw [h, notes, List.filterMap_filterMap]
  refine List.filterMap_congr fun e _ => ?_
  by_cases hr : e.1 = r
  · by_cases hl : e.2.1 = labels
    · rw [if_pos ⟨hr, hl⟩, if_pos hr, Option.bind_some, if_pos hl]
      show _ = (Aggregator.longValue e.2.2).toOption
      unfold Aggregator.longValue
      cases checkLong e.2.2 <;> rfl
    · rw [if_neg fun h => hl h.2, if_pos hr, Option.bind_some, if_neg hl]
  · rw [if_neg fun h => hr h.1, if_neg hr]
    rfl

namespace Finished

variable {P : Pipeline} {plan : Ref .meter → String → Descriptor} {w : World σ}
  {finished : List Metric}

/-- A pipeline that has been stopped has delivered every history. -/
theorem delivers (h : Finished P plan w.system w.bound w.recorded finished)
    {r : Ref .instrument} {a : Accumulation} (ha : w.system.accumulation? r = some a)
    (labels : LabelSet) : a.stream.Delivers (w.history r labels)
      (pointValues labels (finished.filter fun m => m.origin = a.stream.origin)) := by
  obtain ⟨role, hens⟩ := h.ensemble
  obtain ⟨t, g, rfl, hacc, hnotes, hout, hlive⟩ := hens.account ha
  have hretired : g.retired labels = [] :=
    hacc.sound.vacant (.retired labels) fun i =>
      hacc.sound.not_retired (by rw [hacc.idle]; rfl) i labels
  have hall : g.all labels = (g.blocks labels).flatten := by
    unfold Ledger.all
    rw [hacc.booked.idle hacc.idle labels, hretired, hlive trivial labels]
    simp only [List.append_nil]
  rw [World.history_eq hnotes, hacc.booked.recorded labels, hall, ← hout,
    hacc.booked.pointValues_reports labels]
  exact t.stream.delivers_of_blocks (g.blocks labels)

/-- Every measurement that was recorded is one of an instrument, and has a long value. -/
theorem readable (h : Finished P plan w.system w.bound w.recorded finished)
    {e : Ref .instrument × LabelSet × Scalar} (he : e ∈ w.recorded) :
    (∃ i, w.system.instruments.get? e.1 = some i) ∧ ∃ n, checkLong e.2.2 = .ok n := by
  obtain ⟨role, hens⟩ := h.ensemble
  obtain ⟨a, ha⟩ := hens.targets e he
  obtain ⟨i, hi, -⟩ := Option.bind_eq_some_iff.mp ha
  obtain ⟨t, g, hacc, hnotes, -⟩ := hens.accounts ha
  refine ⟨⟨i, hi⟩, ?_⟩
  have hmem : e.2 ∈ t.recorded := by
    rw [hnotes]
    exact List.mem_filterMap.mpr ⟨e, he, if_pos rfl⟩
  obtain ⟨n, hn⟩ := hacc.booked.readable e.2 hmem
  refine ⟨n, ?_⟩
  change Aggregator.longValue e.2.2 = .ok n at hn
  unfold Aggregator.longValue at hn
  cases hc : checkLong e.2.2 with
  | error f =>
    rw [hc] at hn
    cases hn
  | ok k =>
    rw [hc] at hn
    exact congrArg Except.ok (Except.ok.inj hn)

end Finished

/-- What an exporter keeps has every measurement of a world, and has it once. -/
structure World.ExportedOnce (w : World σ) (finished : List Metric) : Prop where
  /-- Every measurement that was recorded is one of an instrument, and has a long value. -/
  measurements : ∀ e ∈ w.recorded, (∃ i, w.system.instruments.get? e.1 = some i) ∧
    ∃ n, checkLong e.2.2 = .ok n
  /-- Every metric is one of an instrument. -/
  metrics : ∀ m ∈ finished, ∃ r i p, w.system.instruments.get? r = some i ∧
    i.processor = some p ∧ m.origin = p.stream.origin
  /-- Metrics of different instruments can be told apart. -/
  distinct : ∀ {r r' i i' p p'}, w.system.instruments.get? r = some i → i.processor = some p →
    w.system.instruments.get? r' = some i' → i'.processor = some p' →
    p.stream.origin = p'.stream.origin → r = r'
  /-- Every instrument has a stream, and the points that came out of it for a label set are what the
  values say that were recorded for the label set. -/
  histories : ∀ r i, w.system.instruments.get? r = some i → ∃ p, i.processor = some p ∧
    ∀ labels, p.stream.Delivers (w.history r labels)
      (pointValues labels (finished.filter fun m => m.origin = p.stream.origin))

/-- The accumulation of an instrument is over its stream. -/
theorem Finished.accumulation? {P : Pipeline} {plan : Ref .meter → String → Descriptor}
    {w : World σ} {finished : List Metric}
    (h : Finished P plan w.system w.bound w.recorded finished)
    {r : Ref .instrument} {i : Instrument σ} (hi : w.system.instruments.get? r = some i) :
    ∃ p a, i.processor = some p ∧ w.system.accumulation? r = some a ∧ a.stream = p.stream := by
  obtain ⟨a, ha⟩ := h.registered.accumulation? hi
  obtain ⟨j, hj, hacc⟩ := Option.bind_eq_some_iff.mp ha
  obtain rfl := Option.some.inj (hi.symm.trans hj)
  obtain ⟨live, p, -, hp, rfl⟩ := Instrument.accumulation?_eq_some hacc
  exact ⟨p, _, hp, ha, rfl⟩

theorem Finished.exportedOnce {P : Pipeline} {plan : Ref .meter → String → Descriptor} {w : World σ}
    {finished : List Metric} (h : Finished P plan w.system w.bound w.recorded finished) :
    w.ExportedOnce finished := by
  obtain ⟨role, hens⟩ := h.ensemble
  constructor
  case measurements => exact fun e he => h.readable he
  case metrics =>
    intro m hm
    obtain ⟨r, a, ha, ho⟩ := hens.known m hm
    obtain ⟨i, hi, -⟩ := Option.bind_eq_some_iff.mp ha
    obtain ⟨p, b, hp, hb, hstream⟩ := h.accumulation? hi
    obtain rfl := Option.some.inj (ha.symm.trans hb)
    exact ⟨r, i, p, hi, hp, by rw [ho, hstream]⟩
  case distinct =>
    intro r r' i i' p p' hi hp hi' hp' ho
    obtain ⟨q, a, hq, ha, hstream⟩ := h.accumulation? hi
    obtain ⟨q', a', hq', ha', hstream'⟩ := h.accumulation? hi'
    obtain rfl := Option.some.inj (hp.symm.trans hq)
    obtain rfl := Option.some.inj (hp'.symm.trans hq')
    exact hens.distinct ha ha' (by rw [hstream, hstream', ho])
  case histories =>
    intro r i hi
    obtain ⟨p, a, hp, ha, hstream⟩ := h.accumulation? hi
    refine ⟨p, hp, fun labels => ?_⟩
    rw [← hstream]
    exact h.delivers ha labels

/-- What came out of the stream of an instrument, from what the stream is. -/
theorem World.ExportedOnce.delivers_of_stream {w : World σ} {finished : List Metric}
    (h : w.ExportedOnce finished) {r : Ref .instrument} {l : LabelSet} {temporality : Temporality}
    {aggregation : Aggregation} {origin : Library × String} {history : List Int}
    (hr : ((w.system.instruments.get? r).bind fun i => i.processor.map fun p =>
      (p.stream.temporality, p.stream.aggregation, p.stream.origin, w.history r l))
        = some (temporality, aggregation, origin, history)) :
    ∃ s : Stream, s.temporality = temporality ∧ s.aggregation = aggregation ∧
      s.Delivers history (pointValues l (finished.filter fun m => m.origin = origin)) := by
  obtain ⟨i, hi, hr⟩ := Option.bind_eq_some_iff.mp hr
  obtain ⟨p, hp, hr⟩ := Option.map_eq_some_iff.mp hr
  obtain ⟨p', hp', hdelivers⟩ := h.histories r i hi
  obtain rfl := Option.some.inj (hp.symm.trans hp')
  simp only [Prod.mk.injEq] at hr
  obtain ⟨htemporality, haggregation, rfl, rfl⟩ := hr
  exact ⟨_, htemporality, haggregation, hdelivers l⟩

/-- **Exactly once**: a provider that is enabled has one periodic reader whose exporter keeps its
metrics in memory.  A program does anything with it, except that it asks only for synchronous
instruments of long values and never for different ones under one name of a meter; then it shuts the
reader or the provider down, and goes on as it likes.  What the exporter keeps right after the
shutdown it keeps forever, and it is every measurement that was recorded before the shutdown,
once.  The interval of the reader may be of any length, even too long to be ever over. -/
theorem exported_exactly_once {longest : Binary64} {resource : Resource} {clock : Clock}
    {disabled : Option Bool} {q : ScheduleRequest} {env : Environment} {P : Pipeline} {s : System σ}
    (hsetup : Pipeline.setup longest resource clock disabled q
      { System.empty with environment := env } = (.ok P, s))
    (henabled : disabled.getD env.isDisabled = false)
    (htimeout : ∃ cap, Delivery.seconds? (q.timeoutIn env) = some cap)
    (perform : σ → SystemM σ Unit) {before : List (Act σ)} {stop : Act σ}
    (hbefore : ∀ a ∈ before, a.IsOrdinary) (hconsistent : Act.Consistent before)
    (hstop : stop.IsShutdown) (after : List (Act σ)) :
    let w := ({ system := s } : World σ).run perform P before
    let stopped := w.step perform P stop
    ∃ finished, stopped.exporter? P = some (.memory finished true) ∧
      (stopped.run perform P after).exporter? P = some (.memory finished true) ∧
      stopped.recorded = w.recorded ∧ stopped.ExportedOnce finished := by
  intro w stopped
  obtain ⟨plan, hplan⟩ := hconsistent.exists_plan
  obtain ⟨schedule, hgoing, hstart⟩ := Pipeline.running_of_setup hsetup henabled htimeout
  obtain ⟨earlier, hrunning⟩ :=
    Running.run (w := { system := s }) before (hstart plan) hgoing perform hbefore hplan
  obtain ⟨hrecorded, more, hfinished⟩ := hrunning.stop hgoing perform hstop
  exact ⟨_, hfinished.stopped.exporter, (hfinished.stopped.run perform after).exporter, hrecorded,
    hfinished.exportedOnce⟩

/-- A counter is exported three times, each time with all that was counted so far, and a value
recorder twice, each time with what was recorded since the last time.  What is refused or comes
after the shutdown is in no point. -/
theorem exported_exactly_once_of_late_measurement :
    let P : Pipeline := ⟨⟨0⟩, ⟨0⟩, ⟨0⟩⟩
    let longest : Binary64 := .ofInt 9223372036
    let library : Library := ⟨some "server", none⟩
    let value (n : Int) : Scalar := .number (.integer n)
    let before : List (Act Empty) :=
      [.meter library.name library.version,
        .create ⟨0⟩ { kind := .counter, name := .text "requests" },
        .create ⟨0⟩ { kind := .valueRecorder, name := .text "size",
                      valueType := some (.numberClass .long) },
        .record ⟨0⟩ (value 3) .absent, .bind ⟨1⟩ .absent, .recordOn ⟨0⟩ (value 5), .tick,
        .recordOn ⟨0⟩ (value 2), .record ⟨0⟩ (value 4) .absent, .flush,
        .record ⟨0⟩ (value (-4)) .absent]
    let after : List (Act Empty) :=
      [.record ⟨0⟩ (value 6) .absent, .recordOn ⟨0⟩ (value 1), .flush]
    let bare : System Empty := { System.empty with environment := OrderedMap.empty }
    let s := (Pipeline.setup longest Resource.empty (.manual 0) none {} bare).2
    let w := ({ system := s } : World Empty).run (fun _ => pure ()) P before
    let stopped := w.step (fun _ => pure ()) P .shutdownProvider
    ∃ finished, (stopped.run (fun _ => pure ()) P after).exporter? P
        = some (.memory finished true) ∧
      (pointValues LabelSet.empty
          (finished.filter fun m => m.origin = (library, "requests"))).getLast?
        = some (.number (.integer 7)) ∧
      Shape.minMaxSumCount.combined (pointValues LabelSet.empty
          (finished.filter fun m => m.origin = (library, "size")))
        = some (.summary 2 (.integer 7) (.integer 2) (.integer 5)) := by
  intro P longest library value before after bare s w stopped
  have hok : (Pipeline.setup longest Resource.empty (.manual 0) none {} bare).1 = .ok P := by
    decide +kernel
  have hpair : ∀ x : Except Failure Pipeline × System Empty, x.1 = .ok P → x = (.ok P, x.2) :=
    fun x hx => Prod.ext hx rfl
  have hsetup : Pipeline.setup longest Resource.empty (.manual 0) none {} bare = (.ok P, s) :=
    hpair _ hok
  have htimeout : (Delivery.seconds? (({} : ScheduleRequest).timeoutIn OrderedMap.empty)).isSome
      = true := by decide +kernel
  have hordinary : ∀ a ∈ before, a.IsOrdinary := by
    simp only [before, List.forall_mem_cons, Act.IsOrdinary, List.not_mem_nil, false_imp_iff,
      implies_true, and_true, true_and]
    refine ⟨⟨rfl, fun hd => ?_, rfl⟩, ⟨rfl, fun hd => ?_, rfl⟩⟩
    all_goals
      cases hd
      rfl
  have hconsistent : Act.Consistent before := by
    intro m q q' d d' hq hq' hd hd' hname
    simp only [before, List.mem_cons, reduceCtorEq, Act.create.injEq, List.not_mem_nil, or_false,
      false_or] at hq hq'
    rcases hq with ⟨-, rfl⟩ | ⟨-, rfl⟩ <;> rcases hq' with ⟨-, rfl⟩ | ⟨-, rfl⟩ <;> cases hd <;>
      cases hd' <;> first | rfl | exact absurd hname (by decide)
  obtain ⟨finished, -, hexporter, -, honce⟩ :=
    exported_exactly_once hsetup rfl (Option.isSome_iff_exists.mp htimeout)
      (fun _ => pure ()) hordinary hconsistent (show Act.shutdownProvider.IsShutdown from trivial)
      after
  obtain ⟨counter, htemporality, haggregation, hcounter⟩ :=
    honce.delivers_of_stream (r := ⟨0⟩) (l := LabelSet.empty)
      (show _ = some (.cumulative, .sum, (library, "requests"), [3, 4]) by decide +kernel)
  obtain ⟨recorder, htemporality', haggregation', hrecorder⟩ :=
    honce.delivers_of_stream (r := ⟨1⟩) (l := LabelSet.empty)
      (show _ = some (.delta, .minMaxSumCount, (library, "size"), [5, 2]) by decide +kernel)
  refine ⟨finished, hexporter, (hcounter.cumulative htemporality).trans ?_, ?_⟩
  · unfold Stream.shape
    rw [haggregation]
    rfl
  · have hpoints := hrecorder.delta htemporality'
    unfold Stream.shape at hpoints
    rw [haggregation'] at hpoints
    exact hpoints

end Metering
