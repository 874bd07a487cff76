import Metering.Proofs.Instruments.Accumulations
import Metering.System.Provider

/-!
# What the uses of instruments keep

A computation that only looks at a system keeps everything.  Recording, binding handles, recording
on them and releasing them change the pool, the handles and the log, and work on the accumulation of
an instrument.  So they keep every property that looks at none of the three and that such work keeps
(`System.OfUses`).
-/

namespace Metering

open Fallible SystemM

variable {σ : Type} {I : System σ → Prop}

/-! ### Looking and failing -/

namespace Fallible.Keeps

theorem demand {α : Type} (what : String) (o : Option α) : Keeps I (SystemM.demand what o) :=
  of_look fun s => by rw [demand_apply]; cases o <;> rfl

/-- Looking a component up. -/
theorem component {α : Type} (what : String) (f : System σ → Option α) :
    Keeps I (do SystemM.demand what (f (← MonadState.get)) : SystemM σ α) :=
  get.bind fun _ => demand _ _

theorem ofExcept {α : Type} (x : Except Failure α) :
    Keeps I (MonadExcept.ofExcept x : SystemM σ α) :=
  of_look fun s => by rw [ofExcept_apply]

end Fallible.Keeps

/-- A check only looks. -/
theorem SystemM.checkMeasurement_state (m : BatchTarget × Scalar) (s : System σ) :
    (checkMeasurement m s).2 = s := by
  obtain ⟨r | _, value⟩ := m
  swap
  · rfl
  unfold checkMeasurement instrument
  simp only [bind_apply, get_apply, demand_apply]
  cases s.instruments.get? r with
  | none => rfl
  | some i =>
    dsimp only
    split
    · rfl
    cases (i.descriptor.valueType.check value).mapError
        fun e => Failure.record (.measurement e) with
    | error e => rfl
    | ok n =>
      simp only [bind_apply, ofExcept_apply]
      split <;> rfl

/-- **A batch** keeps what recording keeps. -/
theorem Fallible.Keeps.recordBatch
    (hrecord : ∀ r value labels, Keeps I (SystemM.recordInstrument r value labels))
    (labels : LabelArgument) (ms : List (BatchTarget × Scalar)) :
    Keeps I (SystemM.recordBatch labels ms) := by
  refine (ofExcept _).bind fun l => Keeps.bind ?_ fun _ => ?_
  · exact forM (fun m => of_look (checkMeasurement_state m)) ms
  · refine forM (fun (target, value) => ?_) ms
    cases target with
    | instrument r => exact hrecord r value _
    | other _ => exact .pure _

/-! ### Recording, binding and releasing -/

/-- The property does not depend on the pool, the handles and the log, and the work on accumulations
that measurements are recorded with keeps it. -/
structure System.OfUses (I : System σ → Prop) : Prop where
  beside : ∀ {s : System σ} (pool : Pool) (handles : Table .handle Handle) (log : List LogEntry),
    I s → I { s with pool := pool, handles := handles, log := log }
  add : ∀ r labels value, Keeps I (SystemM.onAccumulation r (Accumulation.add labels value))
  bind : ∀ r labels, Keeps I (SystemM.onAccumulation r (Accumulation.bindArgument labels))

namespace System.OfUses

variable (h : System.OfUses I)
include h

theorem report (entries : List LogEntry) : Keeps I (SystemM.report entries) := fun s =>
  h.beside s.pool s.handles _

theorem recordInto (i : AggregatorId) (value : Scalar) :
    Keeps I (SystemM.recordInto i value) := by
  intro s hs
  unfold SystemM.recordInto
  rw [bind_apply, get_apply]
  dsimp only
  cases s.pool.record i value with
  | ok p => exact h.beside p s.handles s.log hs
  | error e => exact hs

theorem releaseAggregator (i : AggregatorId) : Keeps I (SystemM.releaseAggregator i) := fun s =>
  h.beside _ s.handles s.log

/-- **Recording.** -/
theorem recordInstrument (r : Ref .instrument) (value : Scalar) (labels : LabelArgument) :
    Keeps I (SystemM.recordInstrument r value labels) := by
  refine (Keeps.component _ fun s => s.instruments.get? r).bind fun i => ?_
  split
  · next a _ =>
    refine Keeps.bind ?_ fun _ => h.releaseAggregator a
    exact (h.recordInto a value).tryCatch fun e =>
      (h.releaseAggregator a).bind fun _ => .throw e
  · exact h.add r labels value

/-- **Binding** a handle. -/
theorem bindHandle (r : Ref .instrument) (labels : LabelArgument) :
    Keeps I (SystemM.bindHandle r labels) := by
  have hlook : Keeps I (SystemM.instrument r) := .component _ fun s => s.instruments.get? r
  have hbind : Keeps I (bindInstrument r labels) := by
    refine hlook.bind fun i => ?_
    split
    · exact .pure _
    · exact h.bind r labels
  refine hlook.bind fun i => hbind.bind fun a => Keeps.get.bind fun s => ?_
  exact Keeps.bind (fun s => h.beside s.pool _ s.log) fun _ => .pure _

/-- **Recording on** a handle. -/
theorem recordHandle (q : Ref .handle) (value : Scalar) :
    Keeps I (SystemM.recordHandle q value) := by
  refine (Keeps.component _ fun s => s.handles.get? q).bind fun x => ?_
  split
  · exact h.report _
  · exact h.recordInto x.aggregator value

/-- **Releasing** a handle. -/
theorem releaseHandle (q : Ref .handle) : Keeps I (SystemM.releaseHandle q) := by
  refine (Keeps.component _ fun s => s.handles.get? q).bind fun x => ?_
  split
  · exact h.report _
  · exact Keeps.bind (fun s => h.beside s.pool _ s.log) fun _ => h.releaseAggregator _

/-- **A batch.** -/
theorem recordBatch (labels : LabelArgument) (ms : List (BatchTarget × Scalar)) :
    Keeps I (SystemM.recordBatch labels ms) := .recordBatch h.recordInstrument labels ms

end System.OfUses

end Metering
