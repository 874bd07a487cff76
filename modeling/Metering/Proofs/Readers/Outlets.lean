import Metering.Proofs.Delivery.Attempts
import Metering.Proofs.Pipeline.Collecting

/-!
# Readers and exporters during a collection

A collection works on instruments.  Unless a callback does, it touches no reader, no exporter, and
nothing of a provider but its meters (`System.Spares`).
-/

namespace Metering

open Fallible SystemM

variable {σ : Type}

namespace System

/-- The readers and the exporters that are meant are the same in both systems, and so are the lists
of readers of all providers, and which of them have been shut down. -/
structure Spares (readers : Ref .reader → Prop) (exporters : Ref .exporter → Prop)
    (s s' : System σ) : Prop where
  reader : ∀ {r x}, readers r → s.readers.get? r = some x → s'.readers.get? r = some x
  exporter : ∀ {e y}, exporters e → s.exporters.get? e = some y → s'.exporters.get? e = some y
  provider : ∀ {q x}, s.providers.get? q = some x →
    ∃ x', s'.providers.get? q = some x' ∧ x'.readers = x.readers ∧ x'.isShutDown = x.isShutDown

/-- All readers and exporters are the same. -/
abbrev SparesAll (s s' : System σ) : Prop := Spares (fun _ => True) (fun _ => True) s s'

namespace Spares

variable {readers readers' : Ref .reader → Prop} {exporters exporters' : Ref .exporter → Prop}
  {s s' s'' : System σ}

theorem of_eq (hreaders : s'.readers = s.readers) (hexporters : s'.exporters = s.exporters)
    (hproviders : s'.providers = s.providers) : Spares readers exporters s s' where
  reader _ hx := hreaders ▸ hx
  exporter _ hy := hexporters ▸ hy
  provider hx := ⟨_, hproviders ▸ hx, rfl, rfl⟩

theorem refl (s : System σ) : Spares readers exporters s s := of_eq rfl rfl rfl

theorem trans (h : Spares readers exporters s s') (h' : Spares readers exporters s' s'') :
    Spares readers exporters s s'' where
  reader hr hx := h'.reader hr (h.reader hr hx)
  exporter he hy := h'.exporter he (h.exporter he hy)
  provider hx := by
    obtain ⟨x', hx', hreaders, hdown⟩ := h.provider hx
    obtain ⟨x'', hx'', hreaders', hdown'⟩ := h'.provider hx'
    exact ⟨x'', hx'', hreaders'.trans hreaders, hdown'.trans hdown⟩

/-- What spares more spares less. -/
theorem mono (h : Spares readers exporters s s') (hreaders : ∀ r, readers' r → readers r)
    (hexporters : ∀ e, exporters' e → exporters e) : Spares readers' exporters' s s' where
  reader hr hx := h.reader (hreaders _ hr) hx
  exporter he hy := h.exporter (hexporters _ he) hy
  provider := h.provider

end Spares

/-- A property of systems that depends on readers, exporters and providers only. -/
def OfOutlets (I : System σ → Prop) : Prop := ∀ {s s' : System σ}, s'.readers = s.readers →
  s'.exporters = s.exporters → s'.providers = s.providers → I s → I s'

namespace OfOutlets

variable {I : System σ → Prop} (h : OfOutlets I)
include h

theorem report (entries : List LogEntry) : Keeps I (SystemM.report entries) :=
  fun s hs => h (s := s) rfl rfl rfl hs

theorem setInstrument (r : Ref .instrument) (i : Instrument σ) :
    Keeps I (SystemM.setInstrument r i) :=
  fun s hs => h (s := s) rfl rfl rfl hs

theorem withStream {α : Type} (p : Processor)
    (f : PooledStream → Except Failure α × PooledStream) :
    Keeps I (SystemM.withStream (σ := σ) p f) :=
  fun s hs => h (s := s) rfl rfl rfl hs

theorem onAccumulation {α : Type} (r : Ref .instrument) (x : AccumulationM α) :
    Keeps I (SystemM.onAccumulation r x) := by
  refine (Keeps.component _ fun s => s.instruments.get? r).bind fun i => ?_
  split
  · refine Keeps.bind (fun s hs => ?_) fun outcome =>
      (h.setInstrument r _).bind fun _ => .ofExcept _
    exact h (s := s) rfl rfl rfl hs
  · exact .throw _

variable {perform : σ → SystemM σ Unit} (hperform : ∀ step, Keeps I (perform step))
include hperform

theorem callBack (name : String) (v : ValueType) (c : Option (Callback σ)) :
    Keeps I (SystemM.callBack perform name v c) := by
  cases c with
  | none => exact .pure none
  | some c =>
    refine (Keeps.runActions hperform _ _ _ _).attempt.bind fun outcome => ?_
    cases outcome with
    | ok sink => exact .pure _
    | error e => exact (h.report _).bind fun _ => .pure none

theorem collectInstrument (r : Ref .instrument) (time : Option Int) :
    Keeps I (SystemM.collectInstrument perform r time) := by
  have hlook : Keeps I (SystemM.instrument r) := .component _ fun s => s.instruments.get? r
  refine hlook.bind fun i => ?_
  split
  · exact (Keeps.timeOr _ time).bind fun stop => h.onAccumulation r _
  · refine (h.setInstrument r _).bind fun _ => (h.callBack hperform _ _ _).bind fun observed =>
      (Keeps.timeOr _ time).bind fun stop => hlook.bind fun i => ?_
    exact (h.withStream _ _).bind fun closed => (h.setInstrument r _).bind fun _ => .ofExcept _
  · exact .pure _

theorem collectReader (r : Ref .reader) : Keeps I (SystemM.collectReader perform r) := by
  refine (Keeps.component _ fun s => s.readers.get? r).bind fun x => ?_
  cases x.provider with
  | none => exact (h.report _).bind fun _ => .pure _
  | some p => exact .collectProvider (h.collectInstrument hperform) h.report p

end OfOutlets

/-- **A collection** spares all readers and exporters if the steps of its callbacks do. -/
theorem sparesAll_collectReader {perform : σ → SystemM σ Unit}
    (hperform : ∀ step (s : System σ), s.SparesAll (perform step s).2) (r : Ref .reader)
    (s : System σ) : s.SparesAll (collectReader perform r s).2 := by
  have hsame : OfOutlets fun s' => s.SparesAll s' :=
    fun hreaders hexporters hproviders hs => hs.trans (.of_eq hreaders hexporters hproviders)
  have hsteps : ∀ step, Keeps (fun s' => s.SparesAll s') (perform step) :=
    fun step s' hs => hs.trans (hperform step s')
  exact hsame.collectReader hsteps r s (.refl s)

end System

end Metering
