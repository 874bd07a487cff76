import Metering.Proofs.Pipeline.Stopping
import Metering.Proofs.Pipeline.Using

/-!
# Programs that use a pipeline

An `Act` is what a program does with a pipeline, and a `World` is a system with what has been bound
and recorded so far.  As long as a program is ordinary, every act keeps the pipeline running and
only makes longer what its exporter keeps (`Running.step`); a shutdown finishes it (`Running.stop`),
and after that no act of any kind makes a difference to the exporter (`Stopped.step`).
-/

namespace Metering

open Fallible SystemM

variable {σ : Type}

/-- What a program does with a pipeline. -/
inductive Act (σ : Type) where
  /-- Asks for the meter of a library. -/
  | meter (name version : Option String)
  /-- Asks for an instrument of a meter. -/
  | create (m : Ref .meter) (request : InstrumentRequest σ)
  /-- Adds a view. -/
  | view (v : View)
  /-- Moves a clock. -/
  | move (c : Ref .clock) (f : Clock → Clock)
  /-- Records a measurement. -/
  | record (r : Ref .instrument) (value : Scalar) (labels : LabelArgument)
  /-- Binds a handle. -/
  | bind (r : Ref .instrument) (labels : LabelArgument)
  /-- Records on a handle. -/
  | recordOn (h : Ref .handle) (value : Scalar)
  /-- Releases a handle, perhaps not for the first time. -/
  | release (h : Ref .handle)
  /-- Records several measurements with the same labels. -/
  | batch (labels : LabelArgument) (measurements : List (BatchTarget × Scalar))
  /-- An interval of the reader passes. -/
  | tick
  /-- Flushes the provider. -/
  | flush
  /-- Shuts the reader down. -/
  | shutdownReader
  /-- Shuts the provider down. -/
  | shutdownProvider

namespace Act

/-- The act shuts the reader down, by itself or with its provider. -/
def IsShutdown : Act σ → Prop
  | shutdownReader | shutdownProvider => True
  | _ => False

/-- The act shuts nothing down and asks only for synchronous instruments of long values. -/
def IsOrdinary : Act σ → Prop
  | create _ q => q.IsLong
  | shutdownReader | shutdownProvider => False
  | _ => True

/-- The act asks only for instruments with the descriptors that are planned. -/
def IsPlanned (plan : Ref .meter → String → Descriptor) : Act σ → Prop
  | create m q => ∀ d, q.descriptor = .ok d → plan m d.name = d
  | _ => True

/-- A meter is not asked for different instruments under one name. -/
def Consistent (acts : List (Act σ)) : Prop :=
  ∀ m q q' d d', create m q ∈ acts → create m q' ∈ acts → q.descriptor = .ok d →
    q'.descriptor = .ok d' → d.name = d'.name → d = d'

/-- Consistent acts follow a plan. -/
theorem Consistent.exists_plan {acts : List (Act σ)} (h : Consistent acts) :
    ∃ plan, ∀ a ∈ acts, a.IsPlanned plan := by
  classical
  let asked (m : Ref .meter) (name : String) (d : Descriptor) : Prop :=
    ∃ q, create m q ∈ acts ∧ q.descriptor = .ok d ∧ d.name = name
  refine ⟨fun m name => if hd : ∃ d, asked m name d then hd.choose else
    ⟨name, none, none, .counter, .long⟩, fun a ha => ?_⟩
  cases a with
  | create m q =>
    intro d hd
    -- whatever was chosen for the name is what is asked for here
    have hasked : ∃ d', asked m d.name d' := ⟨d, q, ha, hd, rfl⟩
    dsimp only
    rw [dif_pos hasked]
    obtain ⟨q', hq', hd', hname⟩ := hasked.choose_spec
    exact h m q' q _ d hq' ha hd' hd hname
  | _ => exact trivial

end Act

/-- A system with what was bound and recorded in it. -/
structure World (σ : Type) where
  system : System σ
  /-- The handles that were bound, with their label sets, newest first. -/
  bound : List (Ref .handle × LabelSet) := []
  /-- The measurements that were recorded, oldest first. -/
  recorded : List (Ref .instrument × LabelSet × Scalar) := []

namespace World

/-- The instrument and the label set of a handle that was bound and not released. -/
def target? (w : World σ) (h : Ref .handle) : Option (Ref .instrument × LabelSet) :=
  match w.system.handles.get? h, w.bound.find? fun b => decide (b.1 = h) with
  | some x, some b => if x.released then none else some (x.instrument, b.2)
  | _, _ => none

/-- The world after an act. -/
def step (perform : σ → SystemM σ Unit) (P : Pipeline) (w : World σ) : Act σ → World σ
  | .meter name version =>
    { w with system := (requestMeter P.provider name version w.system).2 }
  | .create m q => { w with system := (requestInstrument m q w.system).2 }
  | .view v => { w with system := (addView P.provider v w.system).2 }
  | .move c f => { w with system := (moveClock c f w.system).2 }
  | .record r value labels =>
    let x := recordInstrument r value labels w.system
    { w with
      system := x.2
      recorded := w.recorded ++ match x.1, LabelSet.create labels with
        | .ok (), .ok l => [(r, l, value)]
        | _, _ => [] }
  | .bind r labels =>
    let x := bindHandle r labels w.system
    { w with
      system := x.2
      bound := match x.1, LabelSet.create labels with
        | .ok h, .ok l => (h, l) :: w.bound
        | _, _ => w.bound }
  | .recordOn h value =>
    let x := recordHandle h value w.system
    { w with
      system := x.2
      recorded := w.recorded ++ match x.1, w.target? h with
        | .ok (), some (r, l) => [(r, l, value)]
        | _, _ => [] }
  | .release h => { w with system := (releaseHandle h w.system).2 }
  | .batch labels ms =>
    let x := recordBatch labels ms w.system
    { w with
      system := x.2
      recorded := w.recorded ++ match x.1, LabelSet.create labels with
        | .ok (), .ok l => batchEntries l ms
        | _, _ => [] }
  | .tick => { w with system := (tick perform P.reader w.system).2 }
  | .flush => { w with system := (flushProvider perform P.provider w.system).2 }
  | .shutdownReader => { w with system := (shutdownReader perform P.reader w.system).2 }
  | .shutdownProvider => { w with system := (shutdownProvider perform P.provider w.system).2 }

/-- The world after several acts. -/
def run (perform : σ → SystemM σ Unit) (P : Pipeline) (w : World σ) (acts : List (Act σ)) :
    World σ := acts.foldl (step perform P) w

/-- The exporter of a pipeline. -/
def exporter? (w : World σ) (P : Pipeline) : Option Exporter :=
  w.system.exporters.get? P.exporter

/-- The values recorded into an instrument for a label set, oldest first. -/
def history (w : World σ) (r : Ref .instrument) (labels : LabelSet) : List Int :=
  w.recorded.filterMap fun e =>
    if e.1 = r ∧ e.2.1 = labels then (checkLong e.2.2).toOption else none

end World

/-! ### After the shutdown -/

namespace Stopped

variable {P : Pipeline} {w : World σ} {finished : List Metric}

/-- **No act** reaches the exporter of a pipeline that has been stopped. -/
theorem step (h : Stopped P w.system finished) (perform : σ → SystemM σ Unit) (a : Act σ) :
    Stopped P (w.step perform P a).system finished := by
  cases a with
  | meter name version => exact requestMeter name version _ h
  | create m q => exact requestInstrument m q _ h
  | view v => exact addView v _ h
  | move c f => exact moveClock c f _ h
  | record r value labels => exact ofUses.recordInstrument r value labels _ h
  | bind r labels => exact ofUses.bindHandle r labels _ h
  | recordOn q value => exact ofUses.recordHandle q value _ h
  | release q => exact ofUses.releaseHandle q _ h
  | batch labels ms => exact ofUses.recordBatch labels ms _ h
  | tick => exact tick perform _ h
  | flush => exact flushProvider perform _ h
  | shutdownReader => exact shutdownReader perform _ h
  | shutdownProvider => exact shutdownProvider perform _ h

/-- **No acts** reach the exporter of a pipeline that has been stopped. -/
theorem run (h : Stopped P w.system finished) (perform : σ → SystemM σ Unit)
    (acts : List (Act σ)) : Stopped P (w.run perform P acts).system finished := by
  induction acts generalizing w with
  | nil => exact h
  | cons a acts ih => exact ih (h.step perform a)

end Stopped

/-! ### Until the shutdown -/

namespace SystemM

variable {s : System σ} {r : Ref .instrument}

theorem recordInstrument_of_none (h : s.instruments.get? r = none) (value : Scalar)
    (labels : LabelArgument) :
    recordInstrument r value labels s = (.error (.unusable "instrument"), s) := by
  unfold recordInstrument instrument
  simp only [bind_apply, get_apply, demand_apply, h]

theorem bindHandle_of_none (h : s.instruments.get? r = none) (labels : LabelArgument) :
    bindHandle r labels s = (.error (.unusable "instrument"), s) := by
  unfold bindHandle instrument
  simp only [bind_apply, get_apply, demand_apply, h]

end SystemM

section

variable {P : Pipeline} {schedule : Schedule} {plan : Ref .meter → String → Descriptor}
  {s s' : System σ} {bound bound' : List (Ref .handle × LabelSet)}
  {recorded recorded' : List (Ref .instrument × LabelSet × Scalar)} {finished : List Metric}

namespace Running

/-- The pipeline goes on running when something was written down. -/
theorem noted (h : Running P schedule plan s bound recorded finished)
    (hn : Ensemble.Noted s s' bound' recorded' finished) :
    Running P schedule plan s' bound' recorded' finished :=
  ⟨h.wired.sameParts hn.parts, h.registered.sameParts hn.parts, hn.ensemble⟩

variable {w : World σ}

/-- **Recording**. -/
theorem step_record (h : Running P schedule plan w.system w.bound w.recorded finished)
    (perform : σ → SystemM σ Unit) (r : Ref .instrument) (value : Scalar)
    (labels : LabelArgument) :
    let w' := w.step perform P (.record r value labels)
    Running P schedule plan w'.system w'.bound w'.recorded finished := by
  obtain ⟨role, hens⟩ := h.ensemble
  unfold World.step
  dsimp only
  cases hi : w.system.instruments.get? r with
  | none =>
    rw [recordInstrument_of_none hi, List.append_nil]
    exact h
  | some i =>
    obtain ⟨a, ha⟩ := h.registered.accumulation? hi
    obtain ⟨entries, hnoted, hok, herror⟩ := hens.record ha value labels
    rcases hr : (recordInstrument r value labels w.system).1 with f | ⟨⟩
    · rw [herror f hr] at hnoted
      exact h.noted hnoted
    · obtain ⟨l, hl, rfl⟩ := hok hr
      rw [hl]
      exact h.noted hnoted

/-- **Binding**. -/
theorem step_bind (h : Running P schedule plan w.system w.bound w.recorded finished)
    (perform : σ → SystemM σ Unit) (r : Ref .instrument) (labels : LabelArgument) :
    let w' := w.step perform P (.bind r labels)
    Running P schedule plan w'.system w'.bound w'.recorded finished := by
  obtain ⟨role, hens⟩ := h.ensemble
  unfold World.step
  dsimp only
  cases hi : w.system.instruments.get? r with
  | none =>
    rw [bindHandle_of_none hi]
    exact h
  | some i =>
    obtain ⟨a, ha⟩ := h.registered.accumulation? hi
    rcases hens.bind ha labels with ⟨e, -, hbind⟩ | ⟨l, hl, hok, hnoted⟩
    · rw [hbind]
      exact h
    · rw [hl, hok]
      exact h.noted hnoted

/-- What a handle that was not released refers to. -/
theorem target?_of_open (h : Running P schedule plan w.system w.bound w.recorded finished)
    {q : Ref .handle} {x : Handle} (hx : w.system.handles.get? q = some x)
    (ho : x.released = false) :
    ∃ l, (q, l) ∈ w.bound ∧ w.target? q = some (x.instrument, l) := by
  obtain ⟨role, hens⟩ := h.ensemble
  obtain ⟨⟨l, hl⟩, -⟩ := hens.owned hx
  have hfind : (w.bound.find? fun b => decide (b.1 = q)).isSome = true :=
    List.find?_isSome.mpr ⟨(q, l), hl, decide_eq_true rfl⟩
  obtain ⟨b, hb⟩ := Option.isSome_iff_exists.mp hfind
  have hbq : b.1 = q := by simpa using List.find?_some hb
  refine ⟨b.2, ?_, ?_⟩
  · rw [← hbq]
    exact List.mem_of_find?_eq_some hb
  · unfold World.target?
    rw [hx, hb]
    dsimp only
    rw [ho, if_neg Bool.false_ne_true]

/-- **Recording** on a handle. -/
theorem step_recordOn (h : Running P schedule plan w.system w.bound w.recorded finished)
    (perform : σ → SystemM σ Unit) (q : Ref .handle) (value : Scalar) :
    let w' := w.step perform P (.recordOn q value)
    Running P schedule plan w'.system w'.bound w'.recorded finished := by
  obtain ⟨role, hens⟩ := h.ensemble
  unfold World.step
  dsimp only
  cases hx : w.system.handles.get? q with
  | none =>
    rw [recordHandle_of_none hx, List.append_nil]
    exact h
  | some x =>
    cases ho : x.released with
    | true =>
      -- nothing is recorded, though nothing fails
      have htarget : w.target? q = none := by
        unfold World.target?
        rw [hx]
        split
        · rw [if_pos (by simp_all)]
        · rfl
      obtain ⟨entries, hrecord⟩ := recordHandle_of_released hx ho value
      rw [hrecord, htarget, List.append_nil]
      exact h.congr_log _
    | false =>
      obtain ⟨l, hl, htarget⟩ := h.target?_of_open hx ho
      obtain ⟨entries, hnoted, hok, herror⟩ := hens.recordOn hx ho hl value
      rw [htarget]
      rcases hr : (recordHandle q value w.system).1 with f | ⟨⟩
      · rw [herror f hr] at hnoted
        exact h.noted hnoted
      · rw [hok hr] at hnoted
        exact h.noted hnoted

/-- **Releasing** a handle, also for another time. -/
theorem step_release (h : Running P schedule plan w.system w.bound w.recorded finished)
    (perform : σ → SystemM σ Unit) (q : Ref .handle) :
    let w' := w.step perform P (.release q)
    Running P schedule plan w'.system w'.bound w'.recorded finished := by
  obtain ⟨role, hens⟩ := h.ensemble
  unfold World.step
  dsimp only
  cases hx : w.system.handles.get? q with
  | none =>
    rw [releaseHandle_of_none hx]
    exact h
  | some x =>
    cases ho : x.released with
    | true =>
      obtain ⟨entries, hrelease⟩ := releaseHandle_of_released hx ho
      rw [hrelease]
      exact h.congr_log _
    | false => exact h.noted (hens.release hx ho)

/-- **Recording a batch**. -/
theorem step_batch (h : Running P schedule plan w.system w.bound w.recorded finished)
    (perform : σ → SystemM σ Unit) (labels : LabelArgument) (ms : List (BatchTarget × Scalar)) :
    let w' := w.step perform P (.batch labels ms)
    Running P schedule plan w'.system w'.bound w'.recorded finished := by
  obtain ⟨role, hens⟩ := h.ensemble
  unfold World.step
  dsimp only
  rcases hens.recordBatch h.registered labels ms with ⟨l, hl, hok, hnoted⟩ | ⟨⟨f, hf⟩, hs⟩
  · rw [hl, hok]
    exact h.noted hnoted
  · rw [hf, hs, List.append_nil]
    exact h

/-- **One act** of an ordinary program keeps the pipeline running, and only makes longer what its
exporter keeps. -/
theorem step (h : Running P schedule plan w.system w.bound w.recorded finished)
    (hg : schedule.Going) (perform : σ → SystemM σ Unit) {a : Act σ} (ha : a.IsOrdinary)
    (hplan : a.IsPlanned plan) :
    let w' := w.step perform P a
    ∃ more, Running P schedule plan w'.system w'.bound w'.recorded (finished ++ more) := by
  have hsame : ∀ {w' : World σ},
      Running P schedule plan w'.system w'.bound w'.recorded finished →
      ∃ more, Running P schedule plan w'.system w'.bound w'.recorded (finished ++ more) := by
    intro w' h'
    refine ⟨[], ?_⟩
    rw [List.append_nil]
    exact h'
  cases a with
  | meter name version => exact hsame (h.requestMeter name version)
  | create m q => exact hsame (h.requestInstrument ha hplan)
  | view v => exact hsame (h.addView v)
  | move c f => exact hsame (h.moveClock c f)
  | record r value labels => exact hsame (h.step_record perform r value labels)
  | bind r labels => exact hsame (h.step_bind perform r labels)
  | recordOn q value => exact hsame (h.step_recordOn perform q value)
  | release q => exact hsame (h.step_release perform q)
  | batch labels ms => exact hsame (h.step_batch perform labels ms)
  | tick => exact h.tick hg perform
  | flush => exact h.flushProvider hg perform
  | shutdownReader => exact ha.elim
  | shutdownProvider => exact ha.elim

/-- **Any run** of an ordinary program keeps the pipeline running. -/
theorem run (acts : List (Act σ))
    (h : Running P schedule plan w.system w.bound w.recorded finished) (hg : schedule.Going)
    (perform : σ → SystemM σ Unit) (hacts : ∀ a ∈ acts, a.IsOrdinary)
    (hplan : ∀ a ∈ acts, a.IsPlanned plan) :
    let w' := w.run perform P acts
    ∃ more, Running P schedule plan w'.system w'.bound w'.recorded (finished ++ more) := by
  induction acts generalizing w finished with
  | nil =>
    refine ⟨[], ?_⟩
    rw [List.append_nil]
    exact h
  | cons a acts ih =>
    obtain ⟨more, h'⟩ :=
      h.step hg perform (hacts a List.mem_cons_self) (hplan a List.mem_cons_self)
    obtain ⟨rest, h''⟩ := ih h' (fun a ha => hacts a (List.mem_cons_of_mem _ ha))
      fun a ha => hplan a (List.mem_cons_of_mem _ ha)
    refine ⟨more ++ rest, ?_⟩
    rw [← List.append_assoc]
    exact h''

/-- **The shutdown** finishes the pipeline. -/
theorem stop (h : Running P schedule plan w.system w.bound w.recorded finished)
    (hg : schedule.Going) (perform : σ → SystemM σ Unit) {a : Act σ} (ha : a.IsShutdown) :
    let w' := w.step perform P a
    w'.recorded = w.recorded ∧
      ∃ more, Finished P plan w'.system w'.bound w'.recorded (finished ++ more) := by
  cases a with
  | shutdownReader =>
    obtain ⟨more, s', hshutdown, hfinished⟩ := h.shutdownReader hg perform
    unfold World.step
    dsimp only
    rw [hshutdown]
    exact ⟨rfl, more, hfinished⟩
  | shutdownProvider =>
    obtain ⟨more, s', hshutdown, hfinished⟩ := h.shutdownProvider hg perform
    unfold World.step
    dsimp only
    rw [hshutdown]
    exact ⟨rfl, more, hfinished⟩
  | _ => exact ha.elim

end Running

end

end Metering
