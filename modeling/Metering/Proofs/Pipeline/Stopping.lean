import Metering.Proofs.Pipeline.Exporting
import Metering.Proofs.Pipeline.Making

/-!
# Stopping a pipeline

Shutting down the reader or the provider exports once more and settles all instruments, so that all
that was recorded has been reported (`Finished`).  From then on the reader starts no export, and
whatever else is done to the pipeline leaves the exporter as it is (`Stopped`).
-/

namespace Metering

open Fallible SystemM

variable {σ : Type}

/-- The reader of a pipeline exports no more, and its exporter takes no more. -/
structure Stopped (P : Pipeline) (s : System σ) (finished : List Metric) : Prop where
  provider : ∃ x, s.providers.get? P.provider = some x ∧ x.readers = [P.reader]
  reader : ∃ x schedule, s.readers.get? P.reader = some x ∧ x.mode = .periodic schedule ∧
    schedule.ticking = false ∧ schedule.isShutDown = true
  exporter : s.exporters.get? P.exporter = some (.memory finished true)

/-- A pipeline has been stopped, and its last export has settled all instruments. -/
structure Finished (P : Pipeline) (plan : Ref .meter → String → Descriptor) (s : System σ)
    (bound : List (Ref .handle × LabelSet))
    (recorded : List (Ref .instrument × LabelSet × Scalar)) (finished : List Metric) : Prop where
  stopped : Stopped P s finished
  registered : Registered P plan s
  ensemble : ∃ role, Ensemble s bound role recorded finished fun _ => True

/-! ### The shutdown -/

section

variable {P : Pipeline} {schedule : Schedule} {plan : Ref .meter → String → Descriptor}
  {s : System σ} {bound : List (Ref .handle × LabelSet)}
  {recorded : List (Ref .instrument × LabelSet × Scalar)} {finished : List Metric}

namespace Running

/-- The exporter of a pipeline that has been settled is shut down. -/
theorem shutdownExporter (h : Running P schedule plan s bound recorded finished)
    (hticking : schedule.ticking = false) (hdown : schedule.isShutDown = true)
    {role : Ref .instrument → AggregatorId → Role}
    (hens : Ensemble s bound role recorded finished fun _ => True) :
    ∃ s', SystemM.shutdownExporter P.exporter s = (.ok (), s') ∧
      Finished P plan s' bound recorded finished := by
  obtain ⟨p, c, hp, -, -, hreaders, -⟩ := h.wired.provider
  obtain ⟨x, hx, -, hmode⟩ := h.wired.reader
  refine ⟨{ s with exporters := s.exporters.set P.exporter (.memory finished true) }, ?_,
    ⟨⟨p, hp, hreaders⟩, ⟨x, schedule, hx, hmode, hticking, hdown⟩,
      Table.get?_set_self _ h.wired.exporter⟩, ?_, role, hens.congr rfl rfl rfl fun _ => id⟩
  · unfold SystemM.shutdownExporter exporter setExporter
    simp only [bind_apply, get_apply, demand_apply, modify_apply, pure_apply, h.wired.exporter,
      Exporter.shutdown]
  · exact h.registered.congr rfl rfl rfl

/-- **Shutting down** the reader. -/
theorem shutdownReader (h : Running P schedule plan s bound recorded finished)
    (hg : schedule.Going) (perform : σ → SystemM σ Unit) :
    ∃ more s', SystemM.shutdownReader perform P.reader s = (.ok (), s') ∧
      Finished P plan s' bound recorded (finished ++ more) := by
  obtain ⟨x, hx, -, hmode⟩ := h.wired.reader
  have hserves := h.wired.serves
  obtain ⟨s₁, hstop, h₁, -⟩ := h.modifySchedule (fun y => { y with ticking := false })
    ⟨hserves.exporter, hserves.timeout⟩
  obtain ⟨more, s₂, hexport, h₂, role, hsettled⟩ := h₁.collectAndExport hserves perform
  -- only now does the reader count as shut down
  obtain ⟨s₃, hdown, h₃, hkept⟩ := h₂.modifySchedule (fun y => { y with isShutDown := true })
    ⟨hserves.exporter, hserves.timeout⟩
  obtain ⟨s₄, hend, hfinished⟩ := h₃.shutdownExporter rfl rfl (hkept hsettled)
  refine ⟨more, s₄, ?_, hfinished⟩
  unfold SystemM.shutdownReader reader
  simp only [bind_apply, get_apply, demand_apply, hx, hmode]
  rw [hg.isShutDown, if_neg Bool.false_ne_true]
  simp only [bind_apply, hstop]
  rw [hg.inProgress, if_neg Bool.false_ne_true]
  simp only [bind_apply, hexport, hdown, hserves.exporter, hend]

/-- **Shutting down** the provider. -/
theorem shutdownProvider (h : Running P schedule plan s bound recorded finished)
    (hg : schedule.Going) (perform : σ → SystemM σ Unit) :
    ∃ more s', SystemM.shutdownProvider perform P.provider s = (.ok (), s') ∧
      Finished P plan s' bound recorded (finished ++ more) := by
  obtain ⟨p, c, hp, -, hopen, hreaders, -⟩ := h.wired.provider
  obtain ⟨more, s', hreader, hfinished⟩ := h.shutdownReader hg perform
  obtain ⟨q, hq, hreaders'⟩ := hfinished.stopped.provider
  obtain ⟨role, hens⟩ := hfinished.ensemble
  refine ⟨more, { s' with providers := s'.providers.set P.provider { q with isShutDown := true } },
    ?_, ⟨⟨_, Table.get?_set_self _ hq, hreaders'⟩, hfinished.stopped.reader,
      hfinished.stopped.exporter⟩, ?_, role, hens.congr rfl rfl rfl fun _ => id⟩
  · unfold SystemM.shutdownProvider provider setProvider
    simp only [bind_apply, get_apply, demand_apply, hp]
    rw [hopen, if_neg Bool.false_ne_true, hreaders]
    simp only [bind_apply, forM_cons_apply, forM_nil_apply, hreader, get_apply, demand_apply, hq,
      modify_apply]
  · refine hfinished.registered.transport rfl (fun hy => ⟨q, hq, ?_⟩) (fun _ => rfl)
      fun hmakes => hmakes.congr rfl
    rw [Table.get?_set_self _ hq] at hy
    obtain rfl := Option.some.inj hy
    rfl

end Running

end

/-! ### After the shutdown -/

namespace Stopped

variable {P : Pipeline} {s s' : System σ} {finished : List Metric}

/-- Only the provider, the readers and the exporters matter. -/
theorem congr (h : Stopped P s finished) (hp : s'.providers = s.providers)
    (hr : s'.readers = s.readers) (he : s'.exporters = s.exporters) : Stopped P s' finished where
  provider := by
    rw [hp]
    exact h.provider
  reader := by
    rw [hr]
    exact h.reader
  exporter := by
    rw [he]
    exact h.exporter

/-- The provider may change, as long as its readers stay the same. -/
theorem setProvider (h : Stopped P s finished) {x : Provider}
    (hx : s.providers.get? P.provider = some x) {y : Provider}
    (hp : s'.providers = s.providers.set P.provider y) (hy : y.readers = x.readers)
    (hr : s'.readers = s.readers) (he : s'.exporters = s.exporters) : Stopped P s' finished where
  provider := by
    obtain ⟨x', hx', hreaders⟩ := h.provider
    obtain rfl := Option.some.inj (hx.symm.trans hx')
    rw [hp]
    exact ⟨y, Table.get?_set_self _ hx, hy.trans hreaders⟩
  reader := by
    rw [hr]
    exact h.reader
  exporter := by
    rw [he]
    exact h.exporter

/-! #### Recording, binding and releasing -/

theorem onAccumulation {α : Type} (r : Ref .instrument) (x : AccumulationM α) :
    Keeps (Stopped P · finished) (SystemM.onAccumulation r x : SystemM σ α) := by
  have haccumulate : ∀ live (p : Processor), Keeps (Stopped P · finished)
      (accumulate live p x : SystemM σ _) := by
    intro live p s hs
    exact hs.congr rfl rfl rfl
  refine (Keeps.component _ fun s => s.instruments.get? r).bind fun i => ?_
  split
  · refine (haccumulate _ _).bind fun (result, live, p) => ?_
    exact (Keeps.modify fun _ hs => hs.congr rfl rfl rfl).bind fun _ => .ofExcept result
  · exact .throw _

/-- **No use** of instruments matters. -/
theorem ofUses : System.OfUses (σ := σ) (Stopped P · finished) where
  beside _ _ _ hs := hs.congr rfl rfl rfl
  add r _ _ := onAccumulation r _
  bind r _ := onAccumulation r _

/-! #### Making -/

theorem requestMeter (name version : Option String) :
    Keeps (Stopped P · finished)
      (SystemM.requestMeter P.provider name version : SystemM σ (Ref .meter)) := by
  intro s hs
  obtain ⟨x, hx, -⟩ := hs.provider
  obtain ⟨log, happly⟩ := requestMeter_apply hx name version
  rw [happly]
  split
  · exact hs.congr rfl rfl rfl
  · exact hs.setProvider hx rfl rfl rfl rfl

theorem newAccumulator (x : Provider) (library : Library) (d : Descriptor) :
    Keeps (Stopped P · finished)
      (SystemM.newAccumulator x library d : SystemM σ (Accumulator × Option Processor)) := by
  unfold SystemM.newAccumulator
  split
  · refine Keeps.bind ?_ fun _ => .pure _
    exact Keeps.get.bind fun _ =>
      (Keeps.modify fun _ hs => hs.congr rfl rfl rfl).bind fun _ => .pure _
  · have hnow : Keeps (Stopped P · finished) (now x.clock : SystemM σ Int) :=
      (Keeps.component _ fun s => s.clocks.get? x.clock).bind fun _ => .pure _
    exact hnow.bind fun _ => .pure _

theorem makeInstrument (m : Ref .meter) (d : Descriptor) (callback : Option (Callback σ)) :
    Keeps (Stopped P · finished)
      (SystemM.makeInstrument m d callback : SystemM σ (Ref .instrument)) := by
  refine (Keeps.component _ fun s => s.meters.get? m).bind fun y =>
    (Keeps.component _ fun s => s.providers.get? y.provider).bind fun x =>
      (newAccumulator _ _ _).bind fun a => Keeps.get.bind fun s =>
        (Keeps.modify fun _ hs => hs.congr rfl rfl rfl).bind fun _ => ?_
  exact (Keeps.modify fun _ hs => hs.congr rfl rfl rfl).bind fun _ => .pure _

theorem requestInstrument (m : Ref .meter) (q : InstrumentRequest σ) :
    Keeps (Stopped P · finished) (SystemM.requestInstrument m q) := by
  refine (Keeps.ofExcept _).bind fun d =>
    (Keeps.component _ fun s => s.meters.get? m).bind fun y => ?_
  split
  · exact makeInstrument m d _
  · next r _ =>
    refine (Keeps.component _ fun s => s.instruments.get? r).bind fun i => ?_
    split
    · split
      · exact (Keeps.modify fun _ hs => hs.congr rfl rfl rfl).bind fun _ => .pure _
      · exact .pure _
    · exact (ofUses.report _).bind fun _ => makeInstrument m d _

theorem addView (v : View) :
    Keeps (Stopped P · finished) (SystemM.addView P.provider v : SystemM σ Unit) := by
  intro s hs
  obtain ⟨x, hx, -⟩ := hs.provider
  unfold SystemM.addView SystemM.provider SystemM.setProvider SystemM.report
  simp only [bind_apply, get_apply, demand_apply, hx, modify_apply]
  exact hs.setProvider hx rfl rfl rfl rfl

theorem moveClock (q : Ref .clock) (f : Clock → Clock) :
    Keeps (Stopped P · finished) (SystemM.moveClock q f : SystemM σ Unit) :=
  (Keeps.component _ fun s => s.clocks.get? q).bind fun _ =>
    .modify fun _ hs => hs.congr rfl rfl rfl

/-! #### Exporting -/

/-- No further interval exports. -/
theorem tick (perform : σ → SystemM σ Unit) :
    Keeps (Stopped P · finished) (SystemM.tick perform P.reader) := by
  intro s hs
  obtain ⟨x, schedule, hx, hmode, hticking, -⟩ := hs.reader
  unfold SystemM.tick SystemM.reader
  simp only [bind_apply, get_apply, demand_apply, hx, hmode]
  rw [hticking, if_neg Bool.false_ne_true]
  exact hs

/-- A flush is refused. -/
theorem flushReader (perform : σ → SystemM σ Unit) :
    Keeps (Stopped P · finished) (SystemM.flushReader perform P.reader) := by
  intro s hs
  obtain ⟨x, schedule, hx, hmode, -, hdown⟩ := hs.reader
  unfold SystemM.flushReader SystemM.reader
  simp only [bind_apply, get_apply, demand_apply, hx, hmode]
  rw [if_pos hdown]
  exact ((ofUses.report _).bind fun _ => .pure false) s hs

theorem flushProvider (perform : σ → SystemM σ Unit) :
    Keeps (Stopped P · finished) (SystemM.flushProvider perform P.provider) := by
  intro s hs
  obtain ⟨x, hx, hreaders⟩ := hs.provider
  unfold SystemM.flushProvider SystemM.provider
  simp only [bind_apply, get_apply, demand_apply, hx, hreaders]
  exact ((flushReader perform).bind fun _ => Keeps.bind (.pure true) fun _ => .pure _) s hs

/-- A second shutdown is refused. -/
theorem shutdownReader (perform : σ → SystemM σ Unit) :
    Keeps (Stopped P · finished) (SystemM.shutdownReader perform P.reader) := by
  intro s hs
  obtain ⟨x, schedule, hx, hmode, -, hdown⟩ := hs.reader
  unfold SystemM.shutdownReader SystemM.reader
  simp only [bind_apply, get_apply, demand_apply, hx, hmode]
  rw [if_pos hdown]
  exact ofUses.report _ s hs

theorem shutdownProvider (perform : σ → SystemM σ Unit) :
    Keeps (Stopped P · finished) (SystemM.shutdownProvider perform P.provider) := by
  intro s hs
  obtain ⟨x, hx, hreaders⟩ := hs.provider
  unfold SystemM.shutdownProvider SystemM.provider
  simp only [bind_apply, get_apply, demand_apply, hx]
  split
  · exact ofUses.report _ s hs
  · rw [hreaders]
    have hreader : Keeps (Stopped P · finished)
        ([P.reader].forM (SystemM.shutdownReader perform)) :=
      (shutdownReader perform).bind fun _ => .pure _
    refine (hreader.bind fun _ => ?_) s hs
    intro s hs
    obtain ⟨y, hy, -⟩ := hs.provider
    unfold SystemM.setProvider
    simp only [bind_apply, get_apply, demand_apply, hy, modify_apply]
    exact hs.setProvider hy rfl rfl rfl rfl

end Stopped

end Metering
