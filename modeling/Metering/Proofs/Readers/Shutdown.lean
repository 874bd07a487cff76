import Metering.Proofs.Delivery.Patience
import Metering.Proofs.Pipeline.Retirement
import Metering.Proofs.Readers.Outlets
import Metering.Proofs.Readers.Surroundings
import Metering.Proofs.Session.Reachable

/-!
# Shutting a provider down

A provider shuts its readers down one after the other, and only then counts as shut down itself.
Shutting a reader down fails if its exporter does, and the readers that follow are not even told.

`provider_shutdown` says which readers have been shut down in the end, and when the provider has.
It is about calls that come to an end: where nothing limits the attempts of a reader, its last
export may never do so.
-/

namespace Metering

open Fallible SystemM

variable {σ : Type} {perform : σ → SystemM σ Unit}

/-! ### Exporters -/

/-- What shutting an exporter down fails with does not depend on what it has been sent. -/
theorem Exporter.shutdown_send (metrics : List Metric) (e : Exporter) :
    (e.send metrics).2.shutdown.1 = e.shutdown.1 := by
  cases e with
  | memory finished stopped => cases stopped <;> rfl
  | console format written => rfl
  | scripted outcomes batches shutdowns failure => rfl

namespace Delivery

/-- What an attempt keeps is kept by all of them. -/
theorem answers_keeps {ε α : Type} {send : ε → ExportOutcome × ε} {f : ε → α}
    (h : ∀ e, f (send e).2 = f e) (n : Nat) (e : ε) : f (answers send n e).2 = f e := by
  induction n generalizing e with
  | zero => rfl
  | succ n ih =>
    rw [answers_succ]
    exact (ih (send e).2).trans (h e)

/-- What shutting an exporter down fails with does not depend on what is delivered to it. -/
theorem shutdown_deliver (limit : Number) (cap : Binary64) (metrics : List Metric) (e : Exporter) :
    (deliver limit cap metrics e).2.shutdown.1 = e.shutdown.1 := by
  have hpatience : ∃ watch, e.patience = watch + 1 := by
    cases e with
    | scripted outcomes => exact ⟨outcomes.length, rfl⟩
    | memory => exact ⟨0, rfl⟩
    | console => exact ⟨0, rfl⟩
  obtain ⟨watch, hpatience⟩ := hpatience
  obtain ⟨fuel, hfuel⟩ := exists_followed limit watch
  rw [← hpatience] at hfuel
  obtain ⟨again, last, report, e', -, -, hanswers, -, hoffer⟩ :=
    offer_told Exporter.send Exporter.patience e hfuel cap metrics
  have hkept := answers_keeps (f := fun e => e.shutdown.1) (Exporter.shutdown_send metrics)
    (again.length + 1) e
  rw [hanswers] at hkept
  rw [deliver_eq_offer, hoffer]
  exact hkept

end Delivery

/-! ### One reader -/

/-- The schedule of a reader that has one. -/
def ReaderMode.schedule? : ReaderMode → Option Schedule
  | .onDemand => none
  | .periodic c => some c

/-- A periodic reader and its exporter, as they are before the reader is shut down. -/
structure Outlet where
  reader : Reader
  schedule : Schedule
  exporter : Exporter
  cap : Binary64

namespace Outlet

variable (o : Outlet)

/-- The reader without further intervals. -/
def stopped : Reader := { o.reader with mode := .periodic { o.schedule with ticking := false } }

/-- The reader after it has been shut down. -/
def closed : Reader :=
  { o.reader with mode := .periodic { o.schedule with ticking := false, isShutDown := true } }

/-- The exporter after the last batch, if there is one. -/
def handed : Except Failure (List Metric) → Exporter
  | .ok (m :: ms) => (Delivery.deliver o.schedule.attempts o.cap (m :: ms) o.exporter).2
  | _ => o.exporter

/-- What shutting the exporter down fails with, if it does. -/
def failure? : Option Failure := o.exporter.shutdown.1

theorem shutdown_handed (collected : Except Failure (List Metric)) :
    (o.handed collected).shutdown.1 = o.failure? := by
  rcases collected with f | batch
  · rfl
  cases batch with
  | nil => rfl
  | cons m ms => exact Delivery.shutdown_deliver _ _ _ _

end Outlet

namespace System

/-- The reader is one of the system, between two intervals; it has not been shut down, and its
longest delay fits into a double. -/
structure HasOutlet (s : System σ) (r : Ref .reader) (o : Outlet) : Prop where
  reader : s.readers.get? r = some o.reader
  mode : o.reader.mode = .periodic o.schedule
  isShutDown : o.schedule.isShutDown = false
  inProgress : o.schedule.inProgress = false
  exporter : s.exporters.get? o.schedule.exporter = some o.exporter
  timeout : Delivery.seconds? o.schedule.timeout = some o.cap

theorem HasOutlet.spared {s s' : System σ} {r : Ref .reader} {o : Outlet} (h : s.HasOutlet r o)
    {readers : Ref .reader → Prop} {exporters : Ref .exporter → Prop}
    (hspares : s.Spares readers exporters s') (hr : readers r)
    (he : exporters o.schedule.exporter) : s'.HasOutlet r o :=
  { h with
    reader := hspares.reader hr h.reader
    exporter := hspares.exporter he h.exporter }

/-- What makes a reader of a system one that can be shut down. -/
theorem exists_outlet {s : System σ} {r : Ref .reader} {e : Ref .exporter} {y : Exporter}
    {cap : Binary64} (hschedule : ((s.readers.get? r).bind (·.mode.schedule?)).map
      (fun c => (c.exporter, c.isShutDown, c.inProgress, Delivery.seconds? c.timeout))
        = some (e, false, false, some cap)) (hy : s.exporters.get? e = some y) :
    ∃ o, s.HasOutlet r o ∧ o.schedule.exporter = e ∧ o.exporter = y := by
  obtain ⟨c, hc, hfields⟩ := Option.map_eq_some_iff.mp hschedule
  obtain ⟨x, hx, hmode⟩ := Option.bind_eq_some_iff.mp hc
  obtain ⟨rfl, hflags⟩ := Prod.mk.inj hfields
  obtain ⟨hopen, hflags⟩ := Prod.mk.inj hflags
  obtain ⟨hidle, hcap⟩ := Prod.mk.inj hflags
  refine ⟨⟨x, c, y, cap⟩, ⟨hx, ?_, hopen, hidle, hy, hcap⟩, rfl, rfl⟩
  cases hm : x.mode with
  | onDemand =>
    rw [hm] at hmode
    cases hmode
  | periodic c' =>
    rw [hm] at hmode
    exact congrArg _ (Option.some.inj hmode)

/-- The system in which the reader has no further intervals. -/
def halt (s : System σ) (r : Ref .reader) (o : Outlet) : System σ :=
  { s with readers := s.readers.set r o.stopped }

/-- The reader has collected for the last time, in the system in which it had no further intervals.
Its exporter has got the batch, if there was one, and has then been shut down. -/
structure ShutsDown (perform : σ → SystemM σ Unit) (r : Ref .reader) (o : Outlet)
    (s s' : System σ) : Prop where
  reader : s'.readers.get? r = some o.closed
  exporter : s'.exporters.get? o.schedule.exporter
    = some (o.handed (collectReader perform r (s.halt r o)).1).shutdown.2

end System

namespace SystemM

variable {s : System σ} {r : Ref .reader} {o : Outlet}

theorem shutdownExporter_apply {e : Ref .exporter} {y : Exporter}
    (hy : s.exporters.get? e = some y) : shutdownExporter e s
      = (Exporter.closing () y.shutdown.1,
        { s with exporters := s.exporters.set e y.shutdown.2 }) := by
  unfold shutdownExporter exporter setExporter
  simp only [bind_apply, get_apply, demand_apply, hy, modify_apply]
  rcases y.shutdown with ⟨_ | f, y'⟩ <;> rfl

/-- **The last export** succeeds or not, but it does not fail if it ends. -/
theorem collectAndExport_outlet (htimeout : Delivery.seconds? o.schedule.timeout = some o.cap)
    (hended : (collectAndExport perform r o.schedule s).1 ≠ .error .endless)
    (hexporter : (collectReader perform r s).2.exporters.get? o.schedule.exporter
      = some o.exporter) :
    ∃ b s', collectAndExport perform r o.schedule s = (.ok b, s') ∧
      s'.exporters.get? o.schedule.exporter
        = some (o.handed (collectReader perform r s).1) ∧
      (collectReader perform r s).2.Spares (fun _ => True) (· ≠ o.schedule.exporter) s' := by
  unfold collectAndExport at hended ⊢
  rw [bind_apply, attempt_apply] at hended ⊢
  rcases hcollect : collectReader perform r s with ⟨f | batch, s₁⟩
  · rw [hcollect] at hexporter
    exact ⟨false, _, rfl, hexporter, .of_eq rfl rfl rfl⟩
  rw [hcollect] at hended hexporter
  cases batch with
  | nil => exact ⟨true, _, rfl, hexporter, .refl s₁⟩
  | cons m ms =>
    dsimp only at hended ⊢
    rw [exportMetrics_apply htimeout hexporter] at hended ⊢
    have hdelivered :
        (Delivery.deliver o.schedule.attempts o.cap (m :: ms) o.exporter).1.ended = true := by
      by_contra hunended
      exact hended (if_neg hunended)
    rw [Delivery.Report.answer_of_ended hdelivered]
    refine ⟨_, _, rfl, ?_, ?_⟩
    · exact Table.get?_set_self _ hexporter
    · constructor
      case reader => exact fun _ hx => hx
      case exporter =>
        intro e y he hy
        exact (Table.get?_set_of_ne _ _ (Ne.symm he)).trans hy
      case provider => exact fun hx => ⟨_, hx, rfl, rfl⟩

/-- Shutting a reader down stops its intervals first. -/
theorem shutdownReader_halt (h : s.HasOutlet r o) : shutdownReader perform r s
    = (collectAndExport perform r o.schedule >>= fun _ => do
        modifySchedule r fun c => { c with isShutDown := true }
        shutdownExporter o.schedule.exporter) (s.halt r o) := by
  have hstop : modifySchedule r (fun c => { c with ticking := false }) s = (.ok (), s.halt r o) :=
    modifySchedule_apply h.reader h.mode _
  unfold shutdownReader
  rw [bind_apply, reader_apply h.reader]
  dsimp only
  rw [h.mode]
  dsimp only
  rw [h.isShutDown, if_neg Bool.false_ne_true, bind_apply, hstop]
  dsimp only
  rw [h.inProgress, if_neg Bool.false_ne_true]

/-- It then exports once more, and after that the reader is closed, and its exporter shut down. -/
theorem shutdownReader_apply (h : s.HasOutlet r o) {b : Bool} {s₁ : System σ} {y : Exporter}
    (hexport : collectAndExport perform r o.schedule (s.halt r o) = (.ok b, s₁))
    (hrow : s₁.readers.get? r = some o.stopped)
    (hy : s₁.exporters.get? o.schedule.exporter = some y) :
    shutdownReader perform r s = (Exporter.closing () y.shutdown.1, { s₁ with
      readers := s₁.readers.set r o.closed
      exporters := s₁.exporters.set o.schedule.exporter y.shutdown.2 }) := by
  have hover : modifySchedule r (fun c => { c with isShutDown := true }) s₁
      = (.ok (), { s₁ with readers := s₁.readers.set r o.closed }) :=
    modifySchedule_apply hrow rfl _
  rw [shutdownReader_halt h]
  simp only [bind_apply, hexport, hover]
  exact shutdownExporter_apply (s := { s₁ with readers := s₁.readers.set r o.closed }) hy

/-- **Shutting a reader down**, if it ends, fails exactly if its exporter does; the last export takes
place all the same. -/
theorem shutdownReader_outlet (hperform : ∀ step (s : System σ), s.SparesAll (perform step s).2)
    (h : s.HasOutlet r o) (hended : (shutdownReader perform r s).1 ≠ .error .endless) :
    ∃ s', shutdownReader perform r s = (Exporter.closing () o.failure?, s') ∧
      s.ShutsDown perform r o s' ∧ s.Spares (· ≠ r) (· ≠ o.schedule.exporter) s' := by
  have hhalt : s.Spares (· ≠ r) (fun _ => True) (s.halt r o) := by
    constructor
    case reader =>
      intro r' x hr hx
      exact (Table.get?_set_of_ne _ _ (Ne.symm hr)).trans hx
    case exporter => exact fun _ hy => hy
    case provider => exact fun hx => ⟨_, hx, rfl, rfl⟩
  have hspares := System.sparesAll_collectReader hperform r (s.halt r o)
  have hlast : (collectAndExport perform r o.schedule (s.halt r o)).1 ≠ .error .endless := by
    rw [shutdownReader_halt h] at hended
    exact fun hendless => hended (bind_eq_error hendless _)
  obtain ⟨b, s₁, hexport, hhanded, hothers⟩ :=
    collectAndExport_outlet h.timeout hlast (hspares.exporter trivial h.exporter)
  have hrow : s₁.readers.get? r = some o.stopped :=
    hothers.reader trivial (hspares.reader trivial (Table.get?_set_self _ h.reader))
  have happly := shutdownReader_apply h hexport hrow hhanded
  -- whatever the exporter was handed last, it shuts down as it would have done before
  rw [o.shutdown_handed] at happly
  refine ⟨_, happly, ⟨?_, ?_⟩, ?_⟩
  · exact Table.get?_set_self _ hrow
  · exact Table.get?_set_self _ hhanded
  · constructor
    case reader =>
      intro r' x hr hx
      have hx₁ := hothers.reader trivial (hspares.reader trivial (hhalt.reader hr hx))
      exact (Table.get?_set_of_ne _ _ (Ne.symm hr)).trans hx₁
    case exporter =>
      intro e y he hy
      have hy₁ := hothers.exporter he (hspares.exporter trivial (hhalt.exporter trivial hy))
      exact (Table.get?_set_of_ne _ _ (Ne.symm he)).trans hy₁
    case provider =>
      exact ((hhalt.mono (fun _ hr => hr) fun _ _ => trivial).trans
        ((hspares.mono (fun _ _ => trivial) fun _ _ => trivial).trans
          (hothers.mono (fun _ _ => trivial) fun _ he => he))).provider

end SystemM

/-! ### Several readers -/

/-- The readers are those of the outlets, and no two of them share an exporter. -/
structure System.Outfitted (s : System σ) (ends : List (Ref .reader × Outlet)) : Prop where
  outlet : ∀ p ∈ ends, s.HasOutlet p.1 p.2
  distinct : (ends.map (·.2.schedule.exporter)).Nodup

namespace System.Outfitted

variable {s s' : System σ} {r : Ref .reader} {o : Outlet} {ends : List (Ref .reader × Outlet)}

/-- The first reader is none of the others. -/
theorem apart (h : s.Outfitted ((r, o) :: ends)) {p : Ref .reader × Outlet} (hp : p ∈ ends) :
    p.1 ≠ r ∧ p.2.schedule.exporter ≠ o.schedule.exporter := by
  have hfirst : s.HasOutlet r o := h.outlet (r, o) List.mem_cons_self
  have hother : s.HasOutlet p.1 p.2 := h.outlet p (List.mem_cons_of_mem _ hp)
  have hexporter : p.2.schedule.exporter ≠ o.schedule.exporter := by
    have hnot := (List.nodup_cons.mp h.distinct).1
    exact fun he => hnot (List.mem_map.mpr ⟨p, hp, he⟩)
  refine ⟨fun hr => hexporter ?_, hexporter⟩
  -- one reader has one schedule
  have hreader := hother.reader
  rw [hr, hfirst.reader] at hreader
  have hmode := hother.mode
  rw [← Option.some.inj hreader, hfirst.mode] at hmode
  rw [ReaderMode.periodic.inj hmode]

/-- After the first reader the others are as they were. -/
theorem tail (h : s.Outfitted ((r, o) :: ends))
    (hspares : s.Spares (· ≠ r) (· ≠ o.schedule.exporter) s') : s'.Outfitted ends where
  outlet p hp :=
    (h.outlet p (List.mem_cons_of_mem _ hp)).spared hspares (h.apart hp).1 (h.apart hp).2
  distinct := (List.nodup_cons.mp h.distinct).2

end System.Outfitted

/-- What shutting readers down one after the other comes to. -/
structure System.Swept (perform : σ → SystemM σ Unit) (ends : List (Ref .reader × Outlet))
    (s : System σ) (result : Except Failure Unit) (s' : System σ) : Prop where
  /-- It fails as the first exporter does that fails. -/
  outcome : result = Exporter.closing () (ends.findSome? (·.2.failure?))
  /-- A reader is shut down if no exporter before has failed. -/
  reached : ∀ {done r o rest}, ends = done ++ (r, o) :: rest →
    (∀ p ∈ done, p.2.failure? = none) →
      ∃ s₁, (done.map Prod.fst).forM (shutdownReader perform) s = (.ok (), s₁) ∧
        s₁.ShutsDown perform r o s'
  /-- All that come after an exporter that fails are as they were before. -/
  missed : ∀ {done r o rest}, ends = done ++ (r, o) :: rest →
    (∃ p ∈ done, p.2.failure? ≠ none) → s'.HasOutlet r o
  spares : s.Spares (fun r => ∀ p ∈ ends, p.1 ≠ r)
    (fun e => ∀ p ∈ ends, p.2.schedule.exporter ≠ e) s'

namespace SystemM

variable {s s₁ s' : System σ} {r : Ref .reader} {o : Outlet} {ends : List (Ref .reader × Outlet)}
  {result : Except Failure Unit}

/-- What concerns none of the readers does not concern the first one. -/
theorem spares_of_first (hspares : s.Spares (· ≠ r) (· ≠ o.schedule.exporter) s₁) :
    s.Spares (fun r' => ∀ p ∈ (r, o) :: ends, p.1 ≠ r')
      (fun e => ∀ p ∈ (r, o) :: ends, p.2.schedule.exporter ≠ e) s₁ :=
  hspares.mono (fun _ hr' => (hr' (r, o) List.mem_cons_self).symm)
    fun _ he => (he (r, o) List.mem_cons_self).symm

/-- Nobody is reached after a failure. -/
theorem swept_of_failed (h : s.Outfitted ((r, o) :: ends)) {f : Failure}
    (hfails : o.failure? = some f) (hdown : s.ShutsDown perform r o s₁)
    (hspares : s.Spares (· ≠ r) (· ≠ o.schedule.exporter) s₁) :
    System.Swept perform ((r, o) :: ends) s (.error f) s₁ := by
  constructor
  case outcome => rw [List.findSome?_cons, hfails]; rfl
  case reached =>
    intro done r' o' rest hends hdone
    cases done with
    | nil =>
      obtain ⟨hfirst, -⟩ := List.cons.inj hends
      obtain ⟨rfl, rfl⟩ := Prod.mk.inj hfirst
      exact ⟨s, rfl, hdown⟩
    | cons p done =>
      obtain ⟨rfl, -⟩ := List.cons.inj hends
      have hnone := hdone (r, o) List.mem_cons_self
      cases hfails.symm.trans hnone
  case missed =>
    intro done r' o' rest hends hdone
    cases done with
    | nil =>
      obtain ⟨p, hp, -⟩ := hdone
      cases hp
    | cons p done =>
      obtain ⟨-, hrest⟩ := List.cons.inj hends
      exact (h.tail hspares).outlet (r', o') (hrest ▸ by simp)
  case spares => exact spares_of_first hspares

/-- The others follow unless there was a failure. -/
theorem swept_of_done (h : s.Outfitted ((r, o) :: ends)) (hsucceeds : o.failure? = none)
    (happly : shutdownReader perform r s = (.ok (), s₁)) (hdown : s.ShutsDown perform r o s₁)
    (hspares : s.Spares (· ≠ r) (· ≠ o.schedule.exporter) s₁)
    (hrest : System.Swept perform ends s₁ result s') :
    System.Swept perform ((r, o) :: ends) s result s' := by
  constructor
  case outcome => rw [List.findSome?_cons, hsucceeds]; exact hrest.outcome
  case reached =>
    intro done r' o' rest hends hdone
    -- the reader is the first one, or one that the rest of the sweep reaches
    cases done with
    | nil =>
      obtain ⟨hfirst, -⟩ := List.cons.inj hends
      obtain ⟨rfl, rfl⟩ := Prod.mk.inj hfirst
      refine ⟨s, rfl, ?_, ?_⟩
      · exact hrest.spares.reader (fun p hp => (h.apart hp).1) hdown.reader
      · exact hrest.spares.exporter (fun p hp => (h.apart hp).2) hdown.exporter
    | cons p done =>
      obtain ⟨rfl, htail⟩ := List.cons.inj hends
      obtain ⟨s₂, hbefore, hlast⟩ :=
        hrest.reached htail fun p hp => hdone p (List.mem_cons_of_mem _ hp)
      refine ⟨s₂, ?_, hlast⟩
      rw [List.map_cons, forM_cons_apply, happly]
      exact hbefore
  case missed =>
    intro done r' o' rest hends hdone
    obtain ⟨p, hp, hfails⟩ := hdone
    cases done with
    | nil => cases hp
    | cons first done =>
      obtain ⟨rfl, htail⟩ := List.cons.inj hends
      obtain rfl | hp := List.mem_cons.mp hp
      · exact absurd hsucceeds hfails
      · exact hrest.missed htail ⟨p, hp, hfails⟩
  case spares =>
    refine (spares_of_first hspares).trans (hrest.spares.mono ?_ ?_)
    · exact fun r' hr' p hp => hr' p (List.mem_cons_of_mem _ hp)
    · exact fun e he p hp => he p (List.mem_cons_of_mem _ hp)

/-- **One reader after the other.** -/
theorem forM_shutdownReader
    (hperform : ∀ step (s : System σ), s.SparesAll (perform step s).2) (h : s.Outfitted ends)
    (hended : ((ends.map Prod.fst).forM (shutdownReader perform) s).1 ≠ .error .endless) :
    ∃ result s', (ends.map Prod.fst).forM (shutdownReader perform) s = (result, s') ∧
      System.Swept perform ends s result s' := by
  induction ends generalizing s with
  | nil => exact ⟨.ok (), s, rfl, rfl, by simp, by simp, .refl s⟩
  | cons p ends ih =>
    obtain ⟨r, o⟩ := p
    have hfirst : (shutdownReader perform r s).1 ≠ .error .endless :=
      fun hendless => hended (bind_eq_error hendless _)
    obtain ⟨s₁, happly, hdown, hspares⟩ :=
      shutdownReader_outlet hperform (h.outlet (r, o) List.mem_cons_self) hfirst
    rw [List.map_cons, forM_cons_apply, happly] at hended ⊢
    cases hfailure : o.failure? with
    | some f => exact ⟨_, s₁, rfl, swept_of_failed h hfailure hdown hspares⟩
    | none =>
      rw [hfailure] at happly hended
      obtain ⟨result, s', hothers, hswept⟩ := ih (h.tail hspares) hended
      exact ⟨result, s', hothers, swept_of_done h hfailure happly hdown hspares hswept⟩

end SystemM

/-! ### Providers -/

/-- The instrument keeps nothing of what is recorded and never reports anything. -/
structure Instrument.IsInert (i : Instrument σ) : Prop where
  accumulator : ∃ a, i.accumulator = .discarding a
  processor : i.processor = none

/-- What shutting a provider down comes to. -/
structure ProviderShutDown (perform : σ → SystemM σ Unit) (q : Ref .provider)
    (ends : List (Ref .reader × Outlet)) (s : System σ) (result : Except Failure Unit)
    (s' : System σ) : Prop where
  /-- It fails as the first exporter does that fails. -/
  outcome : result = Exporter.closing () (ends.findSome? (·.2.failure?))
  /-- A reader is shut down if no exporter before has failed. -/
  reached : ∀ {done r o rest}, ends = done ++ (r, o) :: rest →
    (∀ p ∈ done, p.2.failure? = none) →
      ∃ s₁, (done.map Prod.fst).forM (shutdownReader perform) s = (.ok (), s₁) ∧
        s₁.ShutsDown perform r o s'
  /-- All that come after an exporter that fails are as they were before. -/
  missed : ∀ {done r o rest}, ends = done ++ (r, o) :: rest →
    (∃ p ∈ done, p.2.failure? ≠ none) → s'.HasOutlet r o
  /-- The provider counts as shut down only if no exporter has failed. -/
  provider : ∃ x, s'.providers.get? q = some x ∧ (x.isShutDown = true ↔ result = .ok ())
  /-- Then it collects nothing any more. -/
  collects : result = .ok () → collectProvider perform q s' = (.ok [], { s' with
    log := s'.log ++ [.warning "Can't collect metrics, provider is shut down"] })
  /-- Then the instruments that are made for it do nothing. -/
  makes : result = .ok () → ∀ {m y}, s'.meters.get? m = some y → y.provider = q →
    ∀ d callback, ∃ r t i, makeInstrument m d callback s' = (.ok r, t) ∧
      t.instruments.get? r = some i ∧ i.IsInert

namespace SystemM

variable {s : System σ}

/-- Instruments of a provider that was shut down are inert. -/
theorem makeInstrument_inert {m : Ref .meter} {y : Meter} {q : Ref .provider} {x : Provider}
    (hy : s.meters.get? m = some y) (hq : y.provider = q) (hx : s.providers.get? q = some x)
    (hdown : x.isShutDown = true) (d : Descriptor) (callback : Option (Callback σ)) :
    ∃ r t i, makeInstrument m d callback s = (.ok r, t) ∧ t.instruments.get? r = some i ∧
      i.IsInert := by
  have hidle : x.stance.isIdle = true := by
    show (x.disabled || x.isShutDown) = true
    rw [hdown, Bool.or_true]
  unfold makeInstrument meter provider setMeter
  simp only [bind_apply, get_apply, demand_apply, hy, hq, hx, newAccumulator_of_idle hidle,
    modify_apply, pure_apply]
  exact ⟨_, _, _, rfl, Table.get?_add_next _ _, ⟨_, rfl⟩, rfl⟩

end SystemM

/-- **Shutting a provider down** that has any number of readers, each with an exporter of its own,
if that comes to an end. -/
theorem provider_shutdown (hperform : ∀ step (s : System σ), s.SparesAll (perform step s).2)
    {s : System σ} {q : Ref .provider} {x : Provider} (hx : s.providers.get? q = some x)
    (hopen : x.isShutDown = false) {ends : List (Ref .reader × Outlet)}
    (hreaders : x.readers = ends.map Prod.fst) (hends : s.Outfitted ends)
    (hended : (shutdownProvider perform q s).1 ≠ .error .endless) :
    ∃ result s', shutdownProvider perform q s = (result, s') ∧
      ProviderShutDown perform q ends s result s' := by
  have happly : shutdownProvider perform q s
      = ((ends.map Prod.fst).forM (shutdownReader perform) >>= fun _ => do
          let p ← provider q
          setProvider q { p with isShutDown := true }) s := by
    have hfound : provider q s = (.ok x, s) := by
      unfold provider
      simp only [bind_apply, get_apply, demand_apply, hx]
    unfold shutdownProvider
    rw [bind_apply, hfound]
    dsimp only
    rw [hopen, if_neg Bool.false_ne_true, hreaders]
  rw [happly] at hended
  have hsweep : ((ends.map Prod.fst).forM (shutdownReader perform) s).1 ≠ .error .endless :=
    fun hendless => hended (bind_eq_error hendless _)
  obtain ⟨result, s', hloop, hswept⟩ := forM_shutdownReader hperform hends hsweep
  obtain ⟨x', hx', -, hopen'⟩ := hswept.spares.provider hx
  rw [happly, bind_apply, hloop]
  unfold provider setProvider
  cases result with
  | error f =>
    refine ⟨_, s', rfl, hswept.outcome, hswept.reached, hswept.missed, ⟨x', hx', ?_⟩, ?_, ?_⟩
    · simp [hopen', hopen]
    · exact fun h => by cases h
    · exact fun h => by cases h
  | ok _ =>
    simp only [bind_apply, get_apply, demand_apply, hx', modify_apply]
    have hrow := Table.get?_set_self { x' with isShutDown := true } hx'
    refine ⟨_, _, rfl, hswept.outcome, ?_, ?_, ⟨_, hrow, by simp⟩, ?_, ?_⟩
    · intro done r o rest hsplit hdone
      obtain ⟨s₁, hbefore, hdown⟩ := hswept.reached hsplit hdone
      exact ⟨s₁, hbefore, hdown.reader, hdown.exporter⟩
    · intro done r o rest hsplit hdone
      exact { hswept.missed hsplit hdone with }
    · exact fun _ => SystemM.collectProvider_of_shutDown hrow rfl
    · intro _ m y hy hprovider d callback
      exact makeInstrument_inert hy hprovider hrow rfl d callback

/-- Two readers, of which the first has an exporter that fails to shut down, and a counter that has
counted three requests. -/
def Session.stubbornExporter : List Step :=
  [.clock (.create "clock" (some 5)),
    .exporter (.create "stubborn" (.scripted [.success] [] 0
      (some (.raised .failedOperation "exporter shutdown failed")))),
    .exporter (.create "other" (.scripted [.success] [] 0 none)),
    .reader (.periodic "first" "stubborn" {}),
    .reader (.periodic "second" "other" {}),
    .provider (.create "provider"
      { clock := some "clock", readers := ["first", "second"], resource := .absent,
        disabled := none }),
    .provider (.requestMeter "provider" "meter" ⟨some "server", none⟩),
    .meter (.requestInstrument "meter" "requests"
      { kind := .counter, name := .text "requests" }),
    .instrument (.record "requests" (.number (.integer 3)) .absent)]

/-- The second reader is not reached. -/
theorem provider_shutdown_of_stubborn_exporter :
    let s := Session.after 1 Session.stubbornExporter
    ∃ x first second s', s.providers.get? ⟨0⟩ = some x ∧ x.isShutDown = false ∧
      x.readers = [⟨0⟩, ⟨1⟩] ∧ s.Outfitted [(⟨0⟩, first), (⟨1⟩, second)] ∧
      shutdownProvider (fun _ => pure ()) ⟨0⟩ s
        = (.error (.raised .failedOperation "exporter shutdown failed"), s') ∧
      ProviderShutDown (fun _ => pure ()) ⟨0⟩ [(⟨0⟩, first), (⟨1⟩, second)] s
        (.error (.raised .failedOperation "exporter shutdown failed")) s' := by
  intro s
  have hprovider : (s.providers.get? ⟨0⟩).map (fun x => (x.isShutDown, x.readers))
      = some (false, [⟨0⟩, ⟨1⟩]) := by decide +kernel
  have hfirst : ((s.readers.get? ⟨0⟩).bind (·.mode.schedule?)).map
      (fun c => (c.exporter, c.isShutDown, c.inProgress, Delivery.seconds? c.timeout))
        = some (⟨0⟩, false, false, some (Binary64.ofInt 30)) := by decide +kernel
  have hsecond : ((s.readers.get? ⟨1⟩).bind (·.mode.schedule?)).map
      (fun c => (c.exporter, c.isShutDown, c.inProgress, Delivery.seconds? c.timeout))
        = some (⟨1⟩, false, false, some (Binary64.ofInt 30)) := by decide +kernel
  have hstubborn : s.exporters.get? ⟨0⟩ = some (.scripted [.success] [] 0
      (some (.raised .failedOperation "exporter shutdown failed"))) := by decide +kernel
  have hother : s.exporters.get? ⟨1⟩ = some (.scripted [.success] [] 0 none) := by decide +kernel
  have hended : (shutdownProvider (fun _ => pure ()) ⟨0⟩ s).1 ≠ .error .endless := by
    decide +kernel
  clear_value s
  obtain ⟨x, hx, hfields⟩ := Option.map_eq_some_iff.mp hprovider
  obtain ⟨hopen, hreaders⟩ := Prod.mk.inj hfields
  obtain ⟨first, h₁, he₁, hy₁⟩ := System.exists_outlet hfirst hstubborn
  obtain ⟨second, h₂, he₂, -⟩ := System.exists_outlet hsecond hother
  have hends : s.Outfitted [(⟨0⟩, first), (⟨1⟩, second)] := by
    constructor
    · intro p hp
      obtain rfl | hp := List.mem_cons.mp hp
      · exact h₁
      · obtain rfl := List.mem_singleton.mp hp
        exact h₂
    · show [first.schedule.exporter, second.schedule.exporter].Nodup
      rw [he₁, he₂]
      decide
  have hquiet : ∀ (step : Step) (s : System Step),
      s.SparesAll ((pure () : SystemM Step Unit) s).2 := fun _ s => .refl s
  obtain ⟨result, s', happly, hdown⟩ := provider_shutdown hquiet hx hopen
    (show x.readers = [(⟨0⟩, first), (⟨1⟩, second)].map Prod.fst from hreaders) hends hended
  have hfails : first.failure? = some (.raised .failedOperation "exporter shutdown failed") := by
    unfold Outlet.failure?
    rw [hy₁]
    rfl
  have hresult := hdown.outcome
  rw [List.findSome?_cons, hfails] at hresult
  obtain rfl : result = .error (.raised .failedOperation "exporter shutdown failed") := hresult
  exact ⟨x, first, second, s', hx, hopen, hreaders, hends, happly, hdown⟩

/-- **A reader that is not reached**: the first exporter fails to shut down.  The second has got
nothing and has not been shut down, and the provider still collects. -/
theorem provider_shutdown_torn :
    let s := Session.after 1 Session.stubbornExporter
    let d := shutdownProvider (fun _ => pure ()) ⟨0⟩ s
    d.1 = .error (.raised .failedOperation "exporter shutdown failed") ∧
      d.2.exporters.get? ⟨1⟩ = some (.scripted [.success] [] 0 none) ∧
      (d.2.providers.get? ⟨0⟩).map (·.isShutDown) = some false ∧
      (collectProvider (fun _ => pure ()) ⟨0⟩ d.2).1.map (fun metrics => metrics.length)
        = .ok 1 := by
  decide +kernel

end Metering
