import Metering.Proofs.Instruments.Callbacks
import Metering.Proofs.Instruments.Keeping
import Metering.Proofs.Pipeline.Registering

/-!
# When windows begin

The span of a stream says when its window began, and its temporality whether it ends.  Work on a
system leaves the spans of its instruments alone (`System.SameSpans`), with two exceptions: a new
instrument begins its window when the clock says (`SystemM.requestInstrument_founds`), and a
collection at a time reports the window up to that time and begins the next one there
(`SystemM.collectInstrument_visits`).  Neither depends on what the windows hold.
-/

namespace Metering

open Fallible SystemM

variable {σ : Type}

/-- When a window began, and whether it ends. -/
structure Span where
  temporality : Temporality
  start : Int
deriving DecidableEq, Repr

/-- The span after a cycle that ended at a time. -/
def Span.next (w : Span) (time : Int) : Span :=
  match w.temporality with
  | .delta => { w with start := time }
  | .cumulative => w

theorem Span.temporality_next (w : Span) (time : Int) :
    (w.next time).temporality = w.temporality := by
  unfold next
  split <;> rfl

/-- The span of a stream. -/
def Stream.span (s : Stream) : Span := ⟨s.temporality, s.start⟩

theorem Stream.span_endWindow (s : Stream) (time : Int) :
    (s.endWindow time).span = s.span.next time := by
  unfold Span.next Stream.span
  cases h : s.temporality with
  | delta => rw [Stream.endWindow_delta h, h]
  | cumulative => rw [Stream.endWindow_cumulative h, h]

/-- All points of some metrics begin and end at certain times. -/
def Within (start stop : Int) (metrics : List Metric) : Prop :=
  ∀ m ∈ metrics, ∀ x ∈ m.points, x.start = start ∧ x.stop = stop

theorem Stream.within_metrics (s : Stream) (p : Pool) (time : Int) :
    Within s.start time (s.metrics p time) := by
  intro m hm x hx
  have hpoints : x ∈ s.points p time := by
    unfold Stream.metrics at hm
    cases hp : s.points p time with
    | nil =>
      rw [hp] at hm
      cases hm
    | cons y ys =>
      rw [hp] at hm
      obtain rfl := List.mem_singleton.mp hm
      exact hx
  obtain ⟨e, -, he⟩ := List.mem_filterMap.mp hpoints
  obtain ⟨value, -, rfl⟩ := Option.map_eq_some_iff.mp he
  exact ⟨rfl, rfl⟩

/-- The result of a cycle that ended at a time, and the span after it: what is reported is the
window up to that time, and a cycle that fails has not ended the window. -/
def Span.Reports (w : Span) (time : Int) (result : Except Failure (List Metric)) (w' : Span) :
    Prop :=
  match result with
  | .ok metrics => Within w.start time metrics ∧ w' = w.next time
  | .error _ => w' = w

theorem Stream.reports_metrics (s : Stream) (p : Pool) (time : Int) :
    s.span.Reports time (.ok (s.metrics p time)) (s.endWindow time).span :=
  ⟨s.within_metrics p time, s.span_endWindow time⟩

/-! ### Windows -/

namespace PooledStream

variable {w : PooledStream}

theorem span_move (w : PooledStream) (i j : AggregatorId) :
    (w.move i j).2.stream.span = w.stream.span := by
  unfold move
  split <;> rfl

theorem span_batch (w : PooledStream) (l : LabelSet) (i : AggregatorId) (unmapped : Bool) :
    (w.batch l i unmapped).2.stream.span = w.stream.span := by
  unfold batch
  split
  · exact w.span_move _ _
  · split
    · rfl
    · exact span_move _ _ _

theorem span_gather (w : PooledStream) (values : List (LabelSet × Number)) :
    (w.gather values).2.stream.span = w.stream.span := by
  induction values generalizing w with
  | nil => rfl
  | cons v rest ih =>
    unfold gather create
    dsimp only
    split
    · rfl
    · next p _ =>
      have hbatch := span_batch (w := { pool := p, stream := w.stream }) v.1 w.pool.next true
      split
      · next hb =>
        rw [hb] at hbatch
        exact (ih _).trans hbatch
      · next hb =>
        rw [hb] at hbatch
        exact hbatch

/-- **A cycle** of an observer. -/
theorem reports_close (w : PooledStream) (observed : Option (List (LabelSet × Number)))
    (time : Int) : w.stream.span.Reports time (w.close observed time).1
      (w.close observed time).2.stream.span := by
  unfold close
  cases observed with
  | none => exact ⟨fun _ => nofun, w.stream.span_endWindow time⟩
  | some values =>
    have hgather := w.span_gather values
    dsimp only
    rcases hg : w.gather values with ⟨e | u, w'⟩ <;> rw [hg] at hgather
    · exact hgather
    · rw [← hgather]
      exact w'.stream.reports_metrics w'.pool time

end PooledStream

namespace Accumulation

/-- Whatever becomes of the computation, the window has the same span. -/
def KeepsSpan {α : Type} (x : AccumulationM α) : Prop :=
  ∀ w : Span, Keeps (fun a : Accumulation => a.stream.span = w) x

theorem keepsSpan_onStream {α : Type} {f : PooledStream → Except Failure α × PooledStream}
    (hf : ∀ w, (f w).2.stream.span = w.stream.span) : KeepsSpan (onStream f) := by
  intro w a ha
  exact (hf a.toPooledStream).trans ha

theorem keepsSpan_release (i : AggregatorId) : KeepsSpan (release i) := fun _ =>
  Keeps.modify fun _ ha => ha

theorem stream_acquireLive? {a b : Accumulation} {l : LabelSet} {i : AggregatorId}
    (h : a.acquireLive? l = some (i, b)) : b.stream = a.stream := by
  unfold acquireLive? at h
  split at h
  · cases h
  · obtain ⟨p, -, hp⟩ := Option.map_eq_some_iff.mp h
    obtain ⟨-, rfl⟩ := Prod.mk.inj hp
    rfl

theorem keepsSpan_settle (l : LabelSet) (c : AggregatorId) : KeepsSpan (settle l c) := by
  intro w a ha
  unfold settle
  rw [bind_apply, get_apply]
  dsimp only
  cases h : a.acquireLive? l with
  | none => exact ha
  | some x =>
    obtain ⟨i, b⟩ := x
    have hb : b.stream.span = w := by
      rw [stream_acquireLive? h]
      exact ha
    have hrelease := keepsSpan_release c w
    exact ((keepsSpan_onStream (fun w => w.span_move c i) w).bind
      fun _ => hrelease.bind fun _ => .pure i) b hb

theorem keepsSpan_bind (l : LabelSet) : KeepsSpan (bind l) := by
  intro w a ha
  unfold bind bindDuring
  rw [bind_apply, get_apply]
  dsimp only
  cases h : a.acquireLive? l with
  | none =>
    have hcandidate : Keeps (fun a : Accumulation => a.stream.span = w) candidate := fun _ ha => ha
    exact hcandidate.bind (fun c => (Keeps.pure ()).bind fun _ => keepsSpan_settle l c w) a ha
  | some x =>
    obtain ⟨i, b⟩ := x
    show b.stream.span = w
    rw [stream_acquireLive? h]
    exact ha

theorem keepsSpan_bindArgument (labels : LabelArgument) : KeepsSpan (bindArgument labels) := by
  intro w
  unfold bindArgument
  split
  · exact keepsSpan_bind _ w
  · exact .throw _

theorem keepsSpan_record (i : AggregatorId) (value : Scalar) : KeepsSpan (record i value) := by
  intro w a ha
  unfold record
  rw [bind_apply, get_apply]
  dsimp only
  cases h : a.pool.record i value <;> exact ha

theorem keepsSpan_add (labels : LabelArgument) (value : Scalar) : KeepsSpan (add labels value) := by
  intro w
  exact (keepsSpan_bindArgument labels w).bind fun i =>
    ((keepsSpan_record i value w).tryCatch fun _ =>
      (keepsSpan_release i w).bind fun _ => .throw _).bind fun _ => keepsSpan_release i w

theorem keepsSpan_drain (l : LabelSet) (i : AggregatorId) :
    KeepsSpan (drain undisturbed l i) := by
  intro w a ha
  unfold drain
  rw [bind_apply, get_apply]
  dsimp only
  have hset : ∀ a' : Accumulation, a'.stream = a.stream →
      Keeps (fun a : Accumulation => a.stream.span = w) (set a' : AccumulationM PUnit) := by
    intro a' ha' _ _
    show a'.stream.span = w
    rw [ha', ha]
  have hbatch : ∀ unmapped, Keeps (fun a : Accumulation => a.stream.span = w)
      (onStream (·.batch l i unmapped)) := fun unmapped =>
    keepsSpan_onStream (fun w => w.span_batch l i unmapped) w
  refine Keeps.bind (x := set _) (hset _ ?_) (fun _ => ?_) a ha
  · rfl
  split
  · refine Keeps.bind (Keeps.modify fun a ha => ?_) fun _ => hbatch _
    split <;> exact ha
  · exact hbatch _

/-- **A cycle** of a synchronous instrument. -/
theorem reports_collect (a : Accumulation) (time : Int) :
    a.stream.span.Reports time (collect undisturbed time a).1
      (collect undisturbed time a).2.stream.span := by
  have hdrains : KeepsSpan (a.live.entries.forM fun e => drain undisturbed e.1 e.2) := by
    intro w
    refine Keeps.forM (fun e => ?_) _
    exact keepsSpan_drain e.1 e.2 w
  have hkept := hdrains a.stream.span a rfl
  unfold collect
  rw [bind_apply, get_apply]
  dsimp only
  rw [bind_apply]
  rcases hd : (a.live.entries.forM fun e => drain undisturbed e.1 e.2) a with ⟨e | u, b⟩ <;>
    rw [hd] at hkept
  · exact hkept
  · rw [← hkept]
    show b.stream.span.Reports time (.ok (b.stream.metrics b.pool time))
      (b.stream.endWindow time).span
    exact b.stream.reports_metrics b.pool time

end Accumulation

/-! ### Instruments at work -/

/-- The span of the window of an instrument; one that discards has no window. -/
def Instrument.span? (i : Instrument σ) : Option Span :=
  match i.accumulator with
  | .discarding _ => none
  | _ => i.processor.map fun p => p.stream.span

theorem Instrument.span?_of_accumulation {i : Instrument σ} {p : Pool} {a : Accumulation}
    (h : i.accumulation? p = some a) (b : Accumulation) :
    i.span? = some a.stream.span ∧ (i.withAccumulation b).span? = some b.stream.span := by
  obtain ⟨live, processor, hl, hp, rfl⟩ := accumulation?_eq_some h
  unfold span? withAccumulation
  rw [hl, hp]
  exact ⟨rfl, rfl⟩

namespace System

/-- The span of the window of an instrument that is there, if it has one. -/
def spanAt (s : System σ) (r : Ref .instrument) : Option (Option Span) :=
  (s.instruments.get? r).map Instrument.span?

/-- The clocks are the same, and so are those that the providers use. -/
structure SameClocks (s s' : System σ) : Prop where
  clocks : s'.clocks = s.clocks
  clock : ∀ P, (s'.providers.get? P).map Provider.clock = (s.providers.get? P).map Provider.clock

/-- The windows of all instruments have the same spans. -/
structure SameSpans (s s' : System σ) : Prop extends s.SameClocks s' where
  span : ∀ r, s'.spanAt r = s.spanAt r

variable {s s' s'' : System σ} {r : Ref .instrument} {i i' : Instrument σ}

theorem SameClocks.of_eq (hc : s'.clocks = s.clocks) (hp : s'.providers = s.providers) :
    s.SameClocks s' := ⟨hc, fun P => by rw [hp]⟩

theorem SameClocks.trans (h : s.SameClocks s') (h' : s'.SameClocks s'') : s.SameClocks s'' where
  clocks := h'.clocks.trans h.clocks
  clock P := (h'.clock P).trans (h.clock P)

theorem SameSpans.of_eq (hc : s'.clocks = s.clocks) (hp : s'.providers = s.providers)
    (hi : s'.instruments = s.instruments) : s.SameSpans s' where
  toSameClocks := .of_eq hc hp
  span r := by
    unfold spanAt
    rw [hi]

theorem SameSpans.refl (s : System σ) : s.SameSpans s := .of_eq rfl rfl rfl

theorem SameSpans.trans (h : s.SameSpans s') (h' : s'.SameSpans s'') : s.SameSpans s'' where
  toSameClocks := h.toSameClocks.trans h'.toSameClocks
  span r := (h'.span r).trans (h.span r)

theorem spanAt_of_get? (hi : s.instruments.get? r = some i) : s.spanAt r = some i.span? := by
  unfold spanAt
  rw [hi]
  rfl

/-- A changed instrument has the span that it has, and the others have theirs. -/
theorem spanAt_of_set (hi : s.instruments.get? r = some i)
    (h : s'.instruments = s.instruments.set r i') (r' : Ref .instrument) :
    s'.spanAt r' = if r' = r then some i'.span? else s.spanAt r' := by
  unfold spanAt
  rw [h, Table.get?_set i' hi]
  split <;> rfl

theorem SameSpans.of_set (hi : s.instruments.get? r = some i) (hc : s'.clocks = s.clocks)
    (hp : s'.providers = s.providers) (h : s'.instruments = s.instruments.set r i')
    (hspan : i'.span? = i.span?) : s.SameSpans s' where
  toSameClocks := .of_eq hc hp
  span r' := by
    rw [spanAt_of_set hi h]
    split
    · next hr => rw [hr, spanAt_of_get? hi, hspan]
    · rfl

end System

namespace SystemM

variable {α : Type} {s : System σ} {r : Ref .instrument}

/-- An instrument that has no accumulation cannot be worked on. -/
theorem onAccumulation_of_none (h : s.accumulation? r = none) (x : AccumulationM α) :
    ∃ e, onAccumulation r x s = (.error e, s) := by
  unfold onAccumulation SystemM.instrument
  simp only [bind_apply, get_apply, demand_apply]
  cases hi : s.instruments.get? r with
  | none => exact ⟨_, rfl⟩
  | some i =>
    have hnone : i.accumulation? s.pool = none := by
      unfold System.accumulation? at h
      rwa [hi] at h
    obtain ⟨d, accumulator, processor, callback⟩ := i
    cases accumulator with
    | asynchronous => exact ⟨_, rfl⟩
    | discarding a => exact ⟨_, rfl⟩
    | synchronous live =>
      cases processor with
      | none => exact ⟨_, rfl⟩
      | some p => cases hnone

/-- Work on an accumulation leaves to its instrument the span that it leaves to the accumulation. -/
theorem onAccumulation_span {a : Accumulation} (h : s.accumulation? r = some a)
    (x : AccumulationM α) :
    s.spanAt r = some (some a.stream.span) ∧ s.SameClocks (onAccumulation r x s).2 ∧
    ∀ r', (onAccumulation r x s).2.spanAt r'
      = if r' = r then some (some (x a).2.stream.span) else s.spanAt r' := by
  obtain ⟨i, hi, hacc⟩ := Option.bind_eq_some_iff.mp h
  obtain ⟨hspan, hspan'⟩ := Instrument.span?_of_accumulation hacc (x a).2
  have hset : (s.withAccumulation r (x a).2).instruments
      = s.instruments.set r (i.withAccumulation (x a).2) := by
    unfold System.withAccumulation
    rw [hi]
  rw [onAccumulation_apply h]
  refine ⟨?_, .of_eq rfl rfl, fun r' => ?_⟩
  · rw [System.spanAt_of_get? hi, hspan]
  · rw [System.spanAt_of_set hi hset, hspan']

end SystemM

/-! ### What leaves all spans alone -/

namespace System.SameSpans

variable {s : System σ} {α : Type}

/-- What leaves the spans of any system alone leaves them as they have been. -/
theorem keeps {x : SystemM σ α} (h : ∀ s : System σ, s.SameSpans (x s).2) :
    Keeps s.SameSpans x := fun s' hs => hs.trans (h s')

theorem onAccumulation {x : AccumulationM α} (hx : Accumulation.KeepsSpan x)
    (r : Ref .instrument) : Keeps s.SameSpans (SystemM.onAccumulation r x : SystemM σ α) := by
  refine keeps fun s => ?_
  cases ha : s.accumulation? r with
  | some a =>
    obtain ⟨hspan, hclocks, hspans⟩ := onAccumulation_span ha x
    refine ⟨hclocks, fun r' => ?_⟩
    rw [hspans]
    split
    · next hr => rw [hr, hspan, hx a.stream.span a rfl]
    · rfl
  | none =>
    obtain ⟨e, he⟩ := onAccumulation_of_none ha x
    rw [he]
    exact .refl s

/-- **No use** of instruments changes spans. -/
theorem ofUses (s : System σ) : System.OfUses s.SameSpans where
  beside _ _ _ hs := hs.trans (.of_eq rfl rfl rfl)
  add r labels value := onAccumulation (Accumulation.keepsSpan_add labels value) r
  bind r labels := onAccumulation (Accumulation.keepsSpan_bindArgument labels) r

theorem requestMeter (P : Ref .provider) (name version : Option String) :
    Keeps s.SameSpans (SystemM.requestMeter P name version : SystemM σ (Ref .meter)) := by
  refine keeps fun s => ?_
  cases hp : s.providers.get? P with
  | none =>
    unfold SystemM.requestMeter SystemM.provider SystemM.report
    split <;> simp only [bind_apply, get_apply, demand_apply, modify_apply, hp] <;>
      exact .of_eq rfl rfl rfl
  | some p =>
    obtain ⟨log, happly⟩ := requestMeter_apply hp name version
    rw [happly]
    cases p.meters.get? (name, version) with
    | some m => exact .of_eq rfl rfl rfl
    | none =>
      -- the provider that gets the new meter keeps its clock
      refine ⟨⟨rfl, fun P' => ?_⟩, fun _ => rfl⟩
      show ((s.providers.set P _).get? P').map Provider.clock = _
      rw [Table.get?_set _ hp]
      split
      · next hP =>
        rw [hP, hp]
        rfl
      · rfl

end System.SameSpans

/-! ### New instruments -/

/-- The windows that were there have the same spans, and new ones begin at a time. -/
structure System.Founds (s : System σ) (time : Int) (s' : System σ) : Prop
    extends s.SameClocks s' where
  span : ∀ r, s'.spanAt r = s.spanAt r ∨
    s.spanAt r = none ∧ ∃ o, s'.spanAt r = some o ∧ ∀ w ∈ o, w.start = time

namespace System

variable {s s' s'' : System σ} {time : Int} {i : Instrument σ}

theorem SameSpans.founds (h : s.SameSpans s') (time : Int) : s.Founds time s' :=
  ⟨h.toSameClocks, fun r => Or.inl (h.span r)⟩

theorem SameSpans.trans_founds (h : s.SameSpans s') (h' : s'.Founds time s'') :
    s.Founds time s'' where
  toSameClocks := h.toSameClocks.trans h'.toSameClocks
  span r := by
    rw [← h.span r]
    exact h'.span r

/-- A new instrument begins its window at the time, if it has one. -/
theorem Founds.of_add (hc : s'.clocks = s.clocks) (hp : s'.providers = s.providers)
    (hi : s'.instruments = s.instruments.add i)
    (h : ∀ w ∈ i.span?, w.start = time) : s.Founds time s' where
  toSameClocks := .of_eq hc hp
  span r := by
    unfold spanAt
    rw [hi, Table.get?_add]
    split
    · next hr =>
      rw [hr, Table.get?_next]
      exact Or.inr ⟨rfl, i.span?, rfl, h⟩
    · exact Or.inl rfl

end System

namespace SystemM

variable {s : System σ} {m : Ref .meter} {y : Meter} {x : Provider} {c : Clock}

theorem makeInstrument_founds (hy : s.meters.get? m = some y)
    (hx : s.providers.get? y.provider = some x) (hc : s.clocks.get? x.clock = some c)
    (d : Descriptor) (callback : Option (Callback σ)) :
    s.Founds c.now (makeInstrument m d callback s).2 := by
  unfold makeInstrument SystemM.meter SystemM.provider setMeter
  simp only [bind_apply, get_apply, demand_apply, modify_apply, pure_apply, hy, hx]
  rcases newAccumulator_outcome x y.library d s with hnew | ⟨e, hnew⟩ | ⟨c', hc', hnew⟩ <;>
    simp only [hnew]
  · exact .of_add rfl rfl rfl nofun
  · exact (System.SameSpans.refl s).founds _
  · obtain rfl := Option.some.inj (hc'.symm.trans hc)
    refine .of_add rfl rfl rfl fun w hw => ?_
    have hspan : some (x.stream y.library d c'.now).span = some w := by
      cases hd : d.kind.isSynchronous <;> rw [hd] at hw <;> exact hw
    exact congrArg Span.start (Option.some.inj hspan).symm

/-- **A request** for an instrument makes at most new windows, which begin when the clock says. -/
theorem requestInstrument_founds (hy : s.meters.get? m = some y)
    (hx : s.providers.get? y.provider = some x) (hc : s.clocks.get? x.clock = some c)
    (q : InstrumentRequest σ) : s.Founds c.now (requestInstrument m q s).2 := by
  unfold requestInstrument SystemM.meter
  rw [bind_apply, ofExcept_apply]
  cases q.descriptor.mapError Failure.descriptor with
  | error e => exact (System.SameSpans.refl s).founds _
  | ok d =>
    simp only [bind_apply, get_apply, demand_apply, hy]
    cases y.instruments.get? d.name with
    | none => exact makeInstrument_founds hy hx hc d q.callback
    | some r =>
      unfold SystemM.instrument setInstrument
      simp only [bind_apply, get_apply, demand_apply]
      cases hi : s.instruments.get? r with
      | none => exact (System.SameSpans.refl s).founds _
      | some i =>
        dsimp only
        split
        · split
          · refine System.SameSpans.founds ?_ _
            exact .of_set hi rfl rfl rfl rfl
          · exact (System.SameSpans.refl s).founds _
        · -- the instrument that is replaced stays as it is
          let entry := LogEntry.warning ("Instrument " ++ d.name ++ " was already registered as "
            ++ i.descriptor.shown ++ ", replacing it with " ++ d.shown)
          have hlog : s.SameSpans { s with log := s.log ++ [entry] } := .of_eq rfl rfl rfl
          have hmade := makeInstrument_founds (s := { s with log := s.log ++ [entry] }) hy hx hc d
            q.callback
          exact hlog.trans_founds hmade

end SystemM

/-! ### Collecting -/

/-- An instrument was collected at a time, with a result. -/
structure System.Visited (s : System σ) (r : Ref .instrument) (time : Int)
    (result : Except Failure (List Metric)) (s' : System σ) : Prop extends s.SameClocks s' where
  others : ∀ r', r' ≠ r → s'.spanAt r' = s.spanAt r'
  window : ∀ w, s.spanAt r = some (some w) →
    ∃ w', s'.spanAt r = some (some w') ∧ w.Reports time result w'
  /-- An instrument that has no window gives nothing. -/
  windowless : (∀ w, s.spanAt r ≠ some (some w)) → s'.spanAt r = s.spanAt r ∧
    ∀ metrics, result = .ok metrics → metrics = []
  /-- An instrument that is not there cannot be collected. -/
  there : ∀ metrics, result = .ok metrics → ∃ o, s.spanAt r = some o

namespace System.Visited

/-- A collection that fails has ended no window. -/
theorem sameSpans_of_error {s s' : System σ} {r : Ref .instrument} {time : Int} {f : Failure}
    (h : s.Visited r time (.error f) s') : s.SameSpans s' where
  toSameClocks := h.toSameClocks
  span r' := by
    by_cases hr : r' = r
    case neg => exact h.others r' hr
    rw [hr]
    by_cases hspan : ∃ w, s.spanAt r = some (some w)
    · obtain ⟨w, hspan⟩ := hspan
      obtain ⟨w', hspan', rfl⟩ := h.window w hspan
      rw [hspan, hspan']
    · rw [not_exists] at hspan
      exact (h.windowless hspan).1

variable {s s' : System σ} {r : Ref .instrument} {i i' : Instrument σ} {w w' : Span} {time : Int}
  {result : Except Failure (List Metric)}

/-- What is collected leaves its span to the instrument, and the others theirs. -/
theorem of_window (hw : s.spanAt r = some (some w)) (hclocks : s.SameClocks s')
    (hspans : ∀ r', s'.spanAt r' = if r' = r then some (some w') else s.spanAt r')
    (h : w.Reports time result w') : s.Visited r time result s' where
  toSameClocks := hclocks
  others r' hr := (hspans r').trans (if_neg hr)
  window v hv := by
    obtain rfl := Option.some.inj (Option.some.inj (hv.symm.trans hw))
    exact ⟨w', (hspans r).trans (if_pos rfl), h⟩
  windowless hnot := absurd hw (hnot w)
  there _ _ := ⟨some w, hw⟩

theorem of_set (hi : s.instruments.get? r = some i) (hc : s'.clocks = s.clocks)
    (hp : s'.providers = s.providers) (hset : s'.instruments = s.instruments.set r i')
    (hw : i.span? = some w) (hw' : i'.span? = some w') (h : w.Reports time result w') :
    s.Visited r time result s' := by
  have hspans : ∀ r', s'.spanAt r' = if r' = r then some (some w') else s.spanAt r' := by
    intro r'
    rw [spanAt_of_set hi hset, hw']
  refine .of_window ?_ (.of_eq hc hp) hspans h
  rw [spanAt_of_get? hi, hw]

end System.Visited

namespace SystemM

variable {s : System σ} {r : Ref .instrument}

/-- Collecting an instrument without a window changes nothing. -/
theorem collectInstrument_of_windowless (h : ∀ w, s.spanAt r ≠ some (some w))
    (perform : σ → SystemM σ Unit) (time : Option Int) :
    ∃ result, collectInstrument perform r time s = (result, s) ∧
      ∀ metrics, result = .ok metrics → metrics = [] ∧ ∃ o, s.spanAt r = some o := by
  unfold collectInstrument SystemM.instrument
  simp only [bind_apply, get_apply, demand_apply]
  cases hi : s.instruments.get? r with
  | none => exact ⟨_, rfl, nofun⟩
  | some i =>
    rw [System.spanAt_of_get? hi] at h ⊢
    have hnothing : ∀ metrics, (Except.ok [] : Except Failure (List Metric)) = .ok metrics →
        metrics = [] ∧ ∃ o, some i.span? = some o := fun _ h => ⟨(Except.ok.inj h).symm, _, rfl⟩
    obtain ⟨d, accumulator, processor, callback⟩ := i
    cases accumulator with
    | discarding a => exact ⟨_, rfl, hnothing⟩
    | synchronous live =>
      cases processor with
      | none => exact ⟨_, rfl, hnothing⟩
      | some p => exact absurd rfl (h p.stream.span)
    | asynchronous =>
      cases processor with
      | none => exact ⟨_, rfl, hnothing⟩
      | some p => exact absurd rfl (h p.stream.span)

/-- A synchronous instrument reports what it drains. -/
theorem collectRecorder_visits {d : Descriptor} {live : OrderedMap LabelSet AggregatorId}
    {p : Processor} {callback : Option (Callback σ)}
    (hi : s.instruments.get? r = some ⟨d, .synchronous live, some p, callback⟩)
    (perform : σ → SystemM σ Unit) (time : Int) :
    s.Visited r time (collectInstrument perform r (some time) s).1
      (collectInstrument perform r (some time) s).2 := by
  have hacc : s.accumulation? r = some { pool := s.pool, stream := p.stream, live := live } := by
    unfold System.accumulation?
    rw [hi]
    rfl
  have happly : collectInstrument perform r (some time) s
      = onAccumulation r (Accumulation.collect Accumulation.undisturbed time) s := by
    unfold collectInstrument SystemM.instrument timeOr
    simp only [bind_apply, get_apply, demand_apply, hi, pure_apply]
  obtain ⟨hspan, hclocks, hspans⟩ := onAccumulation_span hacc
    (Accumulation.collect Accumulation.undisturbed time)
  rw [happly]
  refine .of_window hspan hclocks hspans ?_
  rw [onAccumulation_apply hacc]
  exact Accumulation.reports_collect _ time

/-- An observer reports what its callback observes; it performs no steps, since there are none. -/
theorem collectObserver_visits [IsEmpty σ] {d : Descriptor} {p : Processor}
    {callback : Option (Callback σ)}
    (hi : s.instruments.get? r = some ⟨d, .asynchronous, some p, callback⟩)
    (perform : σ → SystemM σ Unit) (time : Int) :
    s.Visited r time (collectInstrument perform r (some time) s).1
      (collectInstrument perform r (some time) s).2 := by
  have hquiet : ∀ c ∈ callback, c.IsQuiet := by
    intro c _ a _
    cases a with
    | perform step => exact isEmptyElim step
    | observe value labels => trivial
    | report value labels => trivial
    | raise f => trivial
  have htime : ∀ s' : System σ, s'.clocks = s.clocks →
      timeOr p.clock (some time) s' = (.ok time, s') := fun _ _ => rfl
  rw [collectInstrument_of_observer hi hquiet htime perform]
  exact .of_set hi rfl rfl rfl rfl rfl (PooledStream.reports_close _ _ time)

/-- **A collection** of an instrument at a time reports its window up to that time, unless it
fails. -/
theorem collectInstrument_visits [IsEmpty σ] (perform : σ → SystemM σ Unit) (r : Ref .instrument)
    (time : Int) (s : System σ) :
    s.Visited r time (collectInstrument perform r (some time) s).1
      (collectInstrument perform r (some time) s).2 := by
  by_cases hspan : ∃ w, s.spanAt r = some (some w)
  case neg =>
    rw [not_exists] at hspan
    obtain ⟨result, happly, hresult⟩ := collectInstrument_of_windowless hspan perform (some time)
    rw [happly]
    exact
      { toSameClocks := (System.SameSpans.refl s).toSameClocks
        others := fun _ _ => rfl
        window := fun w hw => absurd hw (hspan w)
        windowless := fun _ => ⟨rfl, fun metrics h => (hresult metrics h).1⟩
        there := fun metrics h => (hresult metrics h).2 }
  case pos =>
    obtain ⟨w, hspan⟩ := hspan
    obtain ⟨⟨d, accumulator, processor, callback⟩, hi, hw⟩ := Option.map_eq_some_iff.mp hspan
    unfold Instrument.span? at hw
    cases accumulator with
    | discarding a => cases hw
    | synchronous live =>
      obtain ⟨p, rfl, -⟩ := Option.map_eq_some_iff.mp hw
      exact collectRecorder_visits hi perform time
    | asynchronous =>
      obtain ⟨p, rfl, -⟩ := Option.map_eq_some_iff.mp hw
      exact collectObserver_visits hi perform time

end SystemM

end Metering
