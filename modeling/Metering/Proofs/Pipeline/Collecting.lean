import Metering.Proofs.Instruments.Callbacks
import Metering.Proofs.Instruments.Keeping
import Metering.Proofs.Pipeline.InOrder
import Metering.System.Reader

/-!
# Collecting systems in order

A collection calls callbacks, and a callback may perform steps of the surrounding program, even
another collection of the same instrument.  If every such step keeps a system in order, so does the
collection: an observer stays one while its callback is running, whatever the callback does.
-/

namespace Metering

open Fallible SystemM

variable {σ : Type}

section

variable {I : System σ → Prop} {perform : σ → SystemM σ Unit}

/-! ### Callbacks -/

namespace Fallible.Keeps

theorem attempt {α : Type} {x : SystemM σ α} (hx : Keeps I x) : Keeps I (SystemM.attempt x) :=
  fun s hs => hx s hs

theorem timeOr (r : Ref .clock) (time : Option Int) : Keeps I (SystemM.timeOr r time) := by
  cases time with
  | some time => exact .pure time
  | none => exact (component _ fun s => s.clocks.get? r).bind fun c => .pure _

/-- **Running** a callback keeps what its steps keep. -/
theorem runActions (hperform : ∀ step, Keeps I (perform step)) (generates : Bool)
    (actions : List (Action σ)) (sink : Sink) (reports : List (Scalar × LabelArgument)) :
    Keeps I (SystemM.runActions perform generates actions sink reports) := by
  induction actions generalizing sink reports with
  | nil => exact .ofExcept _
  | cons a rest ih =>
    cases a with
    | observe value labels => exact (ofExcept _).bind fun _ => (ofExcept _).bind fun _ => ih _ _
    | report value labels =>
      refine (ofExcept _).bind fun l => ?_
      cases generates with
      | true => exact (ofExcept _).bind fun _ => ih _ _
      | false => exact ih _ _
    | raise f => exact .throw f
    | perform step => exact (hperform step).bind fun _ => ih _ _

/-! ### Collections -/

section

variable (hcollect : ∀ r time, Keeps I (SystemM.collectInstrument perform r time))
include hcollect

theorem collectInstruments (time : Option Int) (rs : List (Ref .instrument)) :
    Keeps I (SystemM.collectInstruments perform time rs) := by
  induction rs with
  | nil => exact .pure _
  | cons r rs ih => exact (hcollect r time).bind fun _ => ih.bind fun _ => .pure _

theorem collectMeter (m : Ref .meter) (time : Option Int) :
    Keeps I (SystemM.collectMeter perform m time) :=
  (component _ fun s => s.meters.get? m).bind fun _ => collectInstruments hcollect time _

theorem collectMeters (time : Option Int) (ms : List (Ref .meter)) :
    Keeps I (SystemM.collectMeters perform time ms) := by
  induction ms with
  | nil => exact .pure _
  | cons m ms ih => exact (collectMeter hcollect m time).bind fun _ => ih.bind fun _ => .pure _

/-- **Collecting** a provider keeps what collecting its instruments keeps. -/
theorem collectProvider (hreport : ∀ entries, Keeps I (SystemM.report entries))
    (r : Ref .provider) : Keeps I (SystemM.collectProvider perform r) := by
  refine (component _ fun s => s.providers.get? r).bind fun x => ?_
  split
  · exact (hreport _).bind fun _ => .pure _
  · have htime : Keeps I (SystemM.now x.clock) :=
      (component _ fun s => s.clocks.get? x.clock).bind fun _ => .pure _
    exact htime.bind fun time => collectMeters hcollect _ _

end

end Fallible.Keeps

/-- After looking a component up the rest begins with it in the same state. -/
theorem Fallible.Ends.component {α β : Type} {good : β → System σ → Prop} {what : String}
    {f : System σ → Option α} {g : α → SystemM σ β} {s : System σ} (h : I s)
    (hg : ∀ y, f s = some y → Ends I good (g y s)) :
    Ends I good (((do SystemM.demand what (f (← MonadState.get)) : SystemM σ α) >>= g) s) := by
  rw [bind_apply, bind_apply, get_apply]
  dsimp only
  rw [demand_apply]
  cases hf : f s with
  | none => exact .of_error h _
  | some y => exact hg y hf

/-! ### Readers and exporters -/

namespace System.OfCore

variable (h : System.OfCore I)
include h

/-- What leaves the core of a system as it is. -/
theorem modify {f : System σ → System σ} (hf : ∀ s : System σ, s.SameCore (f s)) :
    Keeps I (MonadStateOf.modifyGet fun s => ((), f s) : SystemM σ Unit) :=
  fun s hs => h (hf s) hs

theorem report (entries : List LogEntry) : Keeps I (SystemM.report entries) :=
  h.modify fun _ => ⟨⟨rfl, rfl, rfl, rfl, rfl, rfl⟩, rfl, rfl, rfl⟩

/-- **Calling** a callback keeps what its steps keep. -/
theorem callBack (hperform : ∀ step, Keeps I (perform step)) (name : String) (v : ValueType)
    (c : Option (Callback σ)) : Keeps I (SystemM.callBack perform name v c) := by
  cases c with
  | none => exact .pure none
  | some c =>
    refine (Keeps.runActions hperform _ _ _ _).attempt.bind fun outcome => ?_
    cases outcome with
    | ok sink => exact .pure _
    | error e => exact (h.report _).bind fun _ => .pure none

theorem setReader (r : Ref .reader) (x : Reader) : Keeps I (SystemM.setReader r x) :=
  h.modify fun _ => ⟨⟨rfl, rfl, rfl, rfl, rfl, rfl⟩, rfl, rfl, rfl⟩

theorem setExporter (r : Ref .exporter) (e : Exporter) : Keeps I (SystemM.setExporter r e) :=
  h.modify fun _ => ⟨⟨rfl, rfl, rfl, rfl, rfl, rfl⟩, rfl, rfl, rfl⟩

theorem exportMetrics (s : Schedule) (metrics : List Metric) :
    Keeps I (SystemM.exportMetrics (σ := σ) s metrics) := by
  unfold SystemM.exportMetrics
  cases Delivery.seconds? s.timeout with
  | none => exact .throw _
  | some cap =>
    refine (Keeps.component _ fun x => x.exporters.get? s.exporter).bind fun e =>
      (h.setExporter _ _).bind fun _ => Keeps.bind ?_ fun _ => .ofExcept _
    exact h.modify fun _ => ⟨⟨rfl, rfl, rfl, rfl, rfl, rfl⟩, rfl, rfl, rfl⟩

theorem modifySchedule (r : Ref .reader) (f : Schedule → Schedule) :
    Keeps I (SystemM.modifySchedule (σ := σ) r f) := by
  refine (Keeps.component _ fun x => x.readers.get? r).bind fun x => ?_
  cases x.mode with
  | onDemand => exact .pure ()
  | periodic s => exact h.setReader _ _

theorem shutdownExporter (r : Ref .exporter) : Keeps I (SystemM.shutdownExporter (σ := σ) r) := by
  refine (Keeps.component _ fun x => x.exporters.get? r).bind fun e => ?_
  generalize e.shutdown = outcome
  obtain ⟨failure, e'⟩ := outcome
  refine (h.setExporter r e').bind fun _ => ?_
  cases failure with
  | none => exact .pure ()
  | some f => exact .throw f

variable (hcollect : ∀ r, Keeps I (collectProvider perform r))
include hcollect

theorem collectReader (r : Ref .reader) : Keeps I (SystemM.collectReader perform r) := by
  refine (Keeps.component _ fun x => x.readers.get? r).bind fun x => ?_
  cases x.provider with
  | none => exact (h.report _).bind fun _ => .pure _
  | some p => exact hcollect p

theorem collectAndExport (r : Ref .reader) (s : Schedule) :
    Keeps I (SystemM.collectAndExport perform r s) := by
  refine (h.collectReader hcollect r).attempt.bind fun outcome => ?_
  match outcome with
  | .error e => exact (h.report _).bind fun _ => .pure _
  | .ok [] => exact .pure _
  | .ok (m :: metrics) => exact h.exportMetrics s _

theorem tick (r : Ref .reader) : Keeps I (SystemM.tick perform r) := by
  refine (Keeps.component _ fun x => x.readers.get? r).bind fun x => ?_
  cases x.mode with
  | onDemand => exact .pure _
  | periodic s =>
    dsimp only
    split
    · refine (h.modifySchedule r _).bind fun _ =>
        (h.collectAndExport hcollect r s).attempt.bind fun outcome =>
          (h.modifySchedule r _).bind fun _ => ?_
      cases outcome with
      | ok _ => exact .pure _
      | error e => exact (h.modifySchedule r _).bind fun _ => .throw e
    · exact .pure _

theorem flushReader (r : Ref .reader) : Keeps I (SystemM.flushReader perform r) := by
  refine (Keeps.component _ fun x => x.readers.get? r).bind fun x => ?_
  cases x.mode with
  | onDemand => exact .pure _
  | periodic s =>
    dsimp only
    split
    · exact (h.report _).bind fun _ => .pure _
    · exact h.collectAndExport hcollect r s

theorem flushReaders (rs : List (Ref .reader)) : Keeps I (SystemM.flushReaders perform rs) := by
  induction rs with
  | nil => exact .pure _
  | cons r rs ih =>
    exact (h.flushReader hcollect r).bind fun _ => ih.bind fun _ => .pure _

theorem flushProvider (r : Ref .provider) : Keeps I (SystemM.flushProvider perform r) :=
  (Keeps.component _ fun x => x.providers.get? r).bind fun _ => h.flushReaders hcollect _

theorem shutdownReader (r : Ref .reader) : Keeps I (SystemM.shutdownReader perform r) := by
  refine (Keeps.component _ fun x => x.readers.get? r).bind fun x => ?_
  cases x.mode with
  | onDemand => exact .pure _
  | periodic s =>
    dsimp only
    split
    · exact h.report _
    · refine (h.modifySchedule r _).bind fun _ => ?_
      split
      · exact .throw _
      · exact (h.collectAndExport hcollect r s).bind fun _ =>
          (h.modifySchedule r _).bind fun _ => h.shutdownExporter _

end System.OfCore

end

theorem SystemM.instrument_apply {s : System σ} {r : Ref .instrument} {i : Instrument σ}
    (hi : s.instruments.get? r = some i) : SystemM.instrument r s = (.ok i, s) := by
  unfold SystemM.instrument
  simp only [bind_apply, get_apply, demand_apply, hi]

/-- Calling a callback always comes to an end: a failure of the callback is reported there. -/
theorem SystemM.callBack_ok (perform : σ → SystemM σ Unit) (name : String) (v : ValueType)
    (c : Option (Callback σ)) (s : System σ) :
    ∃ observed s', callBack perform name v c s = (.ok observed, s') := by
  cases c with
  | none => exact ⟨none, s, rfl⟩
  | some c =>
    unfold callBack attempt
    dsimp only
    rw [bind_apply]
    rcases runActions perform c.generates c.script (Sink.empty v) [] s with ⟨e | sink, s'⟩
    · exact ⟨none, _, rfl⟩
    · exact ⟨some sink.observed.entries, s', rfl⟩

/-- The time of a cycle is known where the clock is there. -/
theorem SystemM.timeOr_ok {r : Ref .clock} {s : System σ} {c : Clock}
    (hc : s.clocks.get? r = some c) (time : Option Int) :
    ∃ stop, timeOr r time s = (.ok stop, s) := by
  cases time with
  | some time => exact ⟨time, rfl⟩
  | none =>
    refine ⟨c.now, ?_⟩
    unfold timeOr now clock
    simp only [bind_apply, get_apply, demand_apply, hc, pure_apply]

/-- What a collection of an instrument of a system can come to. -/
inductive Collection (s : System σ) (r : Ref .instrument) :
    Except Failure (List Metric) × System σ → Prop
  /-- There is no such instrument. -/
  | missing {name : String} (hi : s.instruments.get? r = none) (kept : InOrder s s) :
      Collection s r (.error (.unusable name), s)
  /-- The instrument discards. -/
  | discarded {i : Instrument σ} (hi : s.instruments.get? r = some i)
      (processor : i.processor = none) (kept : InOrder s s) : Collection s r (.ok [], s)
  /-- The instrument records. -/
  | recorded {i : Instrument σ} {p : Processor} {stop : Int} {s' : System σ}
      (hi : s.instruments.get? r = some i) (processor : i.processor = some p)
      (kind : i.descriptor.kind.isSynchronous = true)
      (kept : InOrder s s')
      (left : s'.portrait? r = some ⟨(i.restart (p.stream.endWindow stop).start).bare,
        p.stream.endIn (p.stream.drainAllIn (i.contents s.pool))⟩) :
      Collection s r
        (.ok (p.stream.metricsOf (p.stream.drainAllIn (i.contents s.pool)).window stop), s')
  /-- The instrument is an observer, and its callback has led to another system; if it only observes
  it has left everything as it was. -/
  | observed {s₁ s' : System σ} {i : Instrument σ} {p : Processor}
      {values : Option (List (LabelSet × Number))} {stop : Int} (called : InOrder s s₁)
      (hi : s₁.instruments.get? r = some i) (processor : i.processor = some p)
      (kept : InOrder s₁ s')
      (left : s'.portrait? r = some ⟨(i.restart (p.stream.startAfterCycle values stop)).bare,
        { i.contents s₁.pool with
          window := p.stream.afterCycle (i.contents s₁.pool).window values }⟩)
      (quiet : ∀ j, s.instruments.get? r = some j → (∀ c ∈ j.callback, c.IsQuiet) →
        values = Callback.learned j.callback j.descriptor.valueType ∧
          i.contents s₁.pool = j.contents s.pool) :
      Collection s r (p.stream.report (i.contents s₁.pool).window values stop, s')

theorem Collection.kept {s : System σ} {r : Ref .instrument}
    {outcome : Except Failure (List Metric) × System σ} (h : Collection s r outcome) :
    InOrder s outcome.2 := by
  cases h with
  | missing _ kept => exact kept
  | discarded _ _ kept => exact kept
  | recorded _ _ _ kept => exact kept
  | observed called _ _ kept => exact called.after kept

namespace InOrder

variable {since s : System σ} {perform : σ → SystemM σ Unit}

/-- The end of a cycle of an observer, whatever its callback has done. -/
theorem closing (h : InOrder since s) {r : Ref .instrument} {i : Instrument σ}
    (hi : s.instruments.get? r = some i) (hacc : i.accumulator = .asynchronous) {p : Processor}
    (hp : i.processor = some p) (other : Processor) (observed : Option (List (LabelSet × Number)))
    (time : Int) :
    ∃ s', InOrder s s' ∧
      s'.portrait? r = some ⟨(i.restart (p.stream.startAfterCycle observed time)).bare,
        { i.contents s.pool with
          window := p.stream.afterCycle (i.contents s.pool).window observed }⟩ ∧
      (do
        let i ← instrument r
        let (result, p) ← withStream (i.processor.getD other) (·.close observed time)
        setInstrument r { i with processor := some p }
        ofExcept result : SystemM σ (List Metric)) s
        = (p.stream.report (i.contents s.pool).window observed time, s') := by
  obtain ⟨bound, role, horderly⟩ := h.orderly
  obtain ⟨w, role', hclose, hacted, hbare, hwindow⟩ :=
    horderly.observed hi hacc hp observed time i.callback s.log
  -- an observer has nothing live: only its window changes
  have hcontents : ({ i with processor := some { p with stream := w.stream } }).contents w.pool
      = { i.contents s.pool with
          window := p.stream.afterCycle (i.contents s.pool).window observed } := by
    refine congrArg₂ Contents.mk hwindow ?_
    dsimp only [Instrument.contents]
    rw [hacc]
  have hleft := System.portrait?_of_get?
    (s := { s with
      pool := w.pool
      instruments := s.instruments.set r
        { i with processor := some { p with stream := w.stream } } })
    (Table.get?_set_self _ hi)
  rw [hcontents, hbare] at hleft
  refine ⟨_, h.here.acted horderly hacted (Orderly.climbsAt_of_restart hi hp hp hleft
    (fun ht => Stream.startAfterCycle_cumulative ht _ _)
    fun haccrues ht => (horderly.fills hi hp).climbs_afterCycle haccrues ht observed), hleft, ?_⟩
  unfold instrument withStream setInstrument
  simp only [bind_apply, get_apply, demand_apply, hi, hp, Option.getD_some, set_apply,
    pure_apply, modify_apply, ofExcept_apply, hclose]

/-- **Collecting an observer**, whatever its callback does. -/
theorem collection_of_observer (h : InOrder since s)
    (hperform : ∀ since step, Keeps (InOrder since) (perform step)) {r : Ref .instrument}
    {d : Descriptor} {p : Processor} {callback : Option (Callback σ)}
    (hi : s.instruments.get? r = some ⟨d, .asynchronous, some p, callback⟩) (time : Option Int) :
    Collection s r (SystemM.collectInstrument perform r time s) := by
  have h₀ := h.here.setCallback hi (callback.map Callback.next)
  obtain ⟨observed, s₁, hcall⟩ := callBack_ok perform d.name d.valueType callback
    { s with instruments := s.instruments.set r _ }
  have h₁ : InOrder s s₁ := by
    have hkept := InOrderBy.ofCore.callBack (hperform s) d.name d.valueType callback _ h₀
    rwa [hcall] at hkept
  -- the callback may have collected the instrument, but an observer with its clock it still is
  obtain ⟨i', hi', hdesign⟩ := h₁.retains r _ hi
  obtain ⟨p', hp', -, hclock⟩ := Instrument.processor_of_design hdesign rfl
  have hacc' := Instrument.asynchronous_of_design hdesign rfl
  obtain ⟨stop, hstop⟩ : ∃ stop, SystemM.timeOr p.clock time s₁ = (.ok stop, s₁) := by
    obtain ⟨bound', role', horderly'⟩ := h₁.orderly
    obtain ⟨c, hc⟩ := horderly'.clock_of_processor hi' hp'
    exact timeOr_ok (hclock ▸ hc) time
  obtain ⟨s', hkept, hleft, hclose⟩ := h₁.closing hi' hacc' hp' p observed stop
  have hcollect : SystemM.collectInstrument perform r time s
      = (p'.stream.report (i'.contents s₁.pool).window observed stop, s') := by
    unfold SystemM.collectInstrument
    rw [bind_apply, instrument_apply hi]
    dsimp only
    rw [bind_apply]
    unfold setInstrument
    rw [modify_apply]
    dsimp only
    rw [bind_apply, hcall]
    dsimp only
    rw [bind_apply, hstop]
    exact hclose
  rw [hcollect]
  refine .observed h₁ hi' hp' hkept hleft fun j hj hquiet => ?_
  -- a callback that performs nothing leaves the system alone
  obtain rfl := Option.some.inj (hi.symm.trans hj)
  rw [callBack_apply perform d.name d.valueType callback hquiet] at hcall
  obtain ⟨hvalues, rfl⟩ := Prod.mk.inj hcall
  have hset : (s.instruments.set r _).get? r = some i' := hi'
  rw [Table.get?_set_self _ hi] at hset
  obtain rfl := Option.some.inj hset
  exact ⟨(Except.ok.inj hvalues).symm, rfl⟩

/-- **Collecting** an instrument. -/
theorem collection (h : InOrder since s)
    (hperform : ∀ since step, Keeps (InOrder since) (perform step)) (r : Ref .instrument)
    (time : Option Int) : Collection s r (SystemM.collectInstrument perform r time s) := by
  obtain ⟨bound, role, horderly⟩ := h.orderly
  cases hi : s.instruments.get? r with
  | none =>
    unfold SystemM.collectInstrument instrument
    simp only [bind_apply, get_apply, demand_apply, hi]
    exact .missing hi h.here
  | some i =>
    cases horderly.steady hi with
    | recording accumulator processor kind =>
      obtain ⟨stop, s', role', -, happly, hacted, -, hleft⟩ :=
        horderly.collectRecording hi accumulator processor time perform
      rw [happly]
      refine .recorded hi processor kind (h.here.acted horderly hacted
        (Orderly.climbsAt_of_restart hi processor processor hleft (fun ht => ?_)
          fun haccrues ht => ?_)) hleft
      · rw [Stream.endWindow_cumulative ht]
      · unfold Stream.endIn
        rw [Stream.afterEnd_cumulative ht]
        exact (horderly.fills hi processor).climbs_drainAllIn haccrues
    | discarding accumulator processor =>
      unfold SystemM.collectInstrument instrument
      simp only [bind_apply, get_apply, demand_apply, hi, accumulator, pure_apply]
      exact .discarded hi processor h.here
    | observing accumulator processor =>
      obtain ⟨d, accumulator', processor', callback⟩ := i
      obtain rfl : accumulator' = .asynchronous := accumulator
      obtain rfl : processor' = some _ := processor
      exact h.collection_of_observer hperform hi time

/-- **Collecting** an instrument. -/
theorem collectInstrument
    (hperform : ∀ since step, Keeps (InOrder since) (perform step)) (r : Ref .instrument)
    (time : Option Int) :
    Keeps (InOrder since) (SystemM.collectInstrument perform r time) :=
  fun _ h => h.after (h.collection hperform r time).kept

end InOrder

/-- **Shutting down** a provider. -/
theorem InOrderBy.shutdownProvider {R : Portrait σ → Portrait σ → Prop} [Portrait.Lasting R]
    {since : System σ} {perform : σ → SystemM σ Unit}
    (hcollect : ∀ r, Keeps (InOrderBy R since) (SystemM.collectProvider perform r))
    (r : Ref .provider) : Keeps (InOrderBy R since) (SystemM.shutdownProvider perform r) := by
  refine (Keeps.component _ fun x => x.providers.get? r).bind fun x => ?_
  split
  · exact ofCore.report _
  · refine (Keeps.forM (ofCore.shutdownReader hcollect) _).bind fun _ => ?_
    intro s h
    unfold provider SystemM.setProvider
    simp only [bind_apply, get_apply, demand_apply]
    cases hx : s.providers.get? r with
    | none => exact h
    | some x => exact h.setProvider hx rfl rfl (x.stance_shutDown ▸ .stop)

end Metering
