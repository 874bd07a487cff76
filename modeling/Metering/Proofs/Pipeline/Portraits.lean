import Metering.Proofs.Pipeline.Orderly

/-!
# Portraits of instruments

A `Portrait` of an instrument is all that its later collections can depend on: the instrument
without the identifiers of its aggregators, and what the aggregators hold.  In a system in order, a
change of one instrument leaves the portraits of all others as they are (`Orderly.portrait_of_ne`).

The `design` of an instrument is what it is made with and keeps, whatever is done to it: how it
takes its measurements, and the stream that it reports but for the window.
-/

namespace Metering

open Fallible SystemM

variable {σ : Type}

namespace Processor

/-- The processor without what is in its window. -/
def bare (p : Processor) : Processor :=
  { p with stream := { p.stream with window := OrderedMap.empty } }

/-- The processor without its window. -/
def design (p : Processor) : Processor :=
  { p with stream := { p.stream with start := 0, window := OrderedMap.empty } }

theorem design_of_continues {p : Processor} {x : Stream} (h : p.stream.Continues x) :
    ({ p with stream := x } : Processor).design = p.design := by
  unfold design
  rw [h]

/-- Processors of one design have streams that differ in their windows only. -/
theorem continues_of_design {p p' : Processor} (h : p'.design = p.design) :
    p.stream.Continues p'.stream ∧ p'.clock = p.clock := by
  have hstream := congrArg stream h
  refine ⟨?_, (congrArg clock h :)⟩
  unfold Stream.Continues
  have hsame := congrArg
    (fun x : Stream => { x with start := p'.stream.start, window := p'.stream.window }) hstream
  exact hsame

end Processor

namespace Instrument

/-- The instrument without what it holds. -/
def bare (i : Instrument σ) : Instrument σ :=
  { i with accumulator := i.accumulator.bare, processor := i.processor.map Processor.bare }

/-- The instrument without what it holds, the start of its window and its callback. -/
def design (i : Instrument σ) : Instrument σ :=
  { i with
    accumulator := i.accumulator.bare
    processor := i.processor.map Processor.design
    callback := none }

section

variable {i i' : Instrument σ} (h : i'.design = i.design)
include h

theorem descriptor_of_design : i'.descriptor = i.descriptor :=
  (congrArg descriptor h :)

theorem accumulator_of_design : i'.accumulator.bare = i.accumulator.bare :=
  (congrArg accumulator h :)

theorem synchronous_of_design {live : OrderedMap LabelSet AggregatorId}
    (hacc : i.accumulator = .synchronous live) : ∃ live', i'.accumulator = .synchronous live' := by
  have hbare := accumulator_of_design h
  rw [hacc] at hbare
  cases hacc' : i'.accumulator with
  | synchronous live' => exact ⟨live', rfl⟩
  | asynchronous => rw [hacc'] at hbare; cases hbare
  | discarding a => rw [hacc'] at hbare; cases hbare

theorem asynchronous_of_design (hacc : i.accumulator = .asynchronous) :
    i'.accumulator = .asynchronous := by
  have hbare := accumulator_of_design h
  rw [hacc] at hbare
  cases hacc' : i'.accumulator with
  | asynchronous => rfl
  | synchronous live => rw [hacc'] at hbare; cases hbare
  | discarding a => rw [hacc'] at hbare; cases hbare

theorem processor_of_design {p : Processor} (hp : i.processor = some p) :
    ∃ p', i'.processor = some p' ∧ p.stream.Continues p'.stream ∧ p'.clock = p.clock := by
  have hprocessor : i'.processor.map Processor.design = i.processor.map Processor.design :=
    congrArg processor h
  rw [hp] at hprocessor
  obtain ⟨p', hp', hdesign⟩ := Option.map_eq_some_iff.mp hprocessor
  exact ⟨p', hp', Processor.continues_of_design hdesign⟩

end

theorem bare_accumulator {i : Instrument σ} {x : Accumulator} (h : i.accumulator = x) :
    i.bare.accumulator = x.bare := congrArg Accumulator.bare h

/-- What does not record does not do so on its own either. -/
theorem bare_ne_synchronous {i : Instrument σ} {x : Accumulator} (h : i.accumulator = x)
    (hx : ∀ live, x ≠ .synchronous live) (live : OrderedMap LabelSet AggregatorId) :
    i.bare.accumulator ≠ .synchronous live := by
  rw [bare_accumulator h]
  cases x with
  | synchronous live => exact absurd rfl (hx live)
  | asynchronous => simp [Accumulator.bare]
  | discarding a => simp [Accumulator.bare]

theorem bare_processor {i : Instrument σ} {p : Processor} (h : i.processor = some p) :
    i.bare.processor = some p.bare := congrArg (Option.map Processor.bare) h

/-- What the instrument holds. -/
def contents (i : Instrument σ) (p : Pool) : Contents where
  window := match i.processor with
    | some x => x.stream.windowIn p
    | none => OrderedMap.empty
  live := match i.accumulator with
    | .synchronous live => live.map p.cell
    | _ => OrderedMap.empty

end Instrument

/-- An instrument and what it holds, without identifiers. -/
structure Portrait (σ : Type) where
  instrument : Instrument σ
  contents : Contents

namespace System

/-- The portrait of an instrument. -/
def portrait? (s : System σ) (r : Ref .instrument) : Option (Portrait σ) :=
  (s.instruments.get? r).map fun i => ⟨i.bare, i.contents s.pool⟩

/-- Every instrument is there in another system, and has the design that it had. -/
def Retains (s s' : System σ) : Prop :=
  ∀ r i, s.instruments.get? r = some i →
    ∃ i', s'.instruments.get? r = some i' ∧ i'.design = i.design

variable {s s' s'' : System σ} {r : Ref .instrument} {i : Instrument σ}

theorem portrait?_of_get? (h : s.instruments.get? r = some i) :
    s.portrait? r = some ⟨i.bare, i.contents s.pool⟩ := by
  unfold portrait?
  rw [h]
  rfl

theorem retains_of_eq (h : s'.instruments = s.instruments) : s.Retains s' := by
  intro r i hi
  exact ⟨i, by rw [h, hi], rfl⟩

theorem Retains.refl (s : System σ) : s.Retains s := retains_of_eq rfl

theorem Retains.trans (h : s.Retains s') (h' : s'.Retains s'') : s.Retains s'' := by
  intro r i hi
  obtain ⟨i', hi', hd'⟩ := h r i hi
  obtain ⟨i'', hi'', hd''⟩ := h' r i' hi'
  exact ⟨i'', hi'', hd''.trans hd'⟩

/-- A change of one instrument that leaves its design alone. -/
theorem ChangedAt.retains {role : AggregatorId → Role} {i' : Instrument σ}
    (h : s.ChangedAt s' r role) (hi : s.instruments.get? r = some i)
    (hi' : s'.instruments.get? r = some i') (hd : i'.design = i.design) : s.Retains s' := by
  intro q x hx
  by_cases hq : q = r
  · subst hq
    obtain rfl := Option.some.inj (hi.symm.trans hx)
    exact ⟨i', hi', hd⟩
  · exact ⟨x, by rw [h.others hq, hx], rfl⟩

/-- A handle stays one of its instrument. -/
theorem Owns.retain {bound bound' : List (Ref .handle × LabelSet)} {q : Ref .handle} {x : Handle}
    (h : s.Owns bound q x) (hr : s.Retains s') (hsub : bound ⊆ bound') : s'.Owns bound' q x := by
  obtain ⟨i, hi, hmatch⟩ := h
  obtain ⟨i', hi', hd⟩ := hr _ _ hi
  have hb := Instrument.accumulator_of_design hd
  refine ⟨i', hi', ?_⟩
  cases hacc : i.accumulator <;> cases hacc' : i'.accumulator <;> rw [hacc, hacc'] at hb <;>
    rw [hacc] at hmatch <;> cases hb
  · obtain ⟨l, hl⟩ := hmatch
    exact ⟨l, hsub hl⟩
  · exact hmatch
  · exact hmatch

end System

/-- What an instrument holds depends only on the aggregators that play a role for it. -/
theorem Steady.contents_eq {s : System σ} {bound : List (Ref .handle × LabelSet)}
    {r : Ref .instrument} {role : AggregatorId → Role} {i : Instrument σ} {p : Pool}
    (h : Steady s bound r role i) (hi : s.instruments.get? r = some i)
    (hp : s.pool.Spares p fun j => role j = .foreign) : i.contents p = i.contents s.pool := by
  have hcell : ∀ {j}, role j ≠ .foreign → p.cell j = s.pool.cell j := fun hj =>
    hp.cell (h.has hj) hj
  unfold Instrument.contents
  cases h with
  | recording accumulator processor kind descriptor clock records =>
    obtain ⟨a, ha⟩ := records.accumulation?
    have hrests := records.rests ha
    rw [System.accumulation?_of_get? hi] at ha
    obtain ⟨live, x, hlive, hx, rfl⟩ := Instrument.accumulation?_eq_some ha
    rw [hlive, hx]
    refine congrArg₂ Contents.mk (OrderedMap.map_congr fun l j hj => ?_)
      (OrderedMap.map_congr fun l j hj => ?_)
    · exact congrArg Cell.aggregator (hcell (window_plays (hrests.window_iff.mp hj)))
    · exact hcell (live_plays (hrests.live_iff.mp hj))
  | observing accumulator processor kind descriptor clock observes =>
    rw [accumulator, processor]
    exact congrArg₂ Contents.mk (observes.windowIn_elsewhere hp) rfl
  | discarding accumulator processor has get role_iff =>
    rw [accumulator, processor]

namespace Orderly

variable {s s' : System σ} {bound : List (Ref .handle × LabelSet)}
  {role : Ref .instrument → AggregatorId → Role} {r r' : Ref .instrument} {i : Instrument σ}

/-- **Changes elsewhere** leave the portrait of an instrument as it is. -/
theorem portrait_elsewhere (h : Orderly s bound role) (hi : s.instruments.get? r = some i)
    (hi' : s'.instruments.get? r = some i)
    (hp : s.pool.Spares s'.pool fun j => role r j = .foreign) :
    s'.portrait? r = s.portrait? r := by
  rw [System.portrait?_of_get? hi', System.portrait?_of_get? hi, (h.steady hi).contents_eq hi hp]

/-- **A change of one instrument** leaves the portraits of all others as they are. -/
theorem portrait_of_ne (h : Orderly s bound role) (hc : s.ChangedAt s' r (role r)) (hr : r' ≠ r) :
    s'.portrait? r' = s.portrait? r' := by
  cases hi : s.instruments.get? r' with
  | none =>
    have hi' := hc.others hr
    unfold System.portrait?
    rw [hi', hi]
    rfl
  | some i =>
    exact h.portrait_elsewhere hi ((hc.others hr).trans hi)
      (hc.pool.mono fun _ hj => h.apart hr hj)

end Orderly

end Metering
