import Metering.Proofs.Instruments.Holdings
import Metering.Proofs.Pipeline.Batches
import Metering.Proofs.Pipeline.Sweep

/-!
# Outlooks

The outlook of an instrument is what can be told from its collections, now and after anything else
that is done to it: of one that records, what its label sets hold.  Portraits with the same outlook
give the same points when they are collected (`Portrait.collected_samePoints`), and have the same
outlook again after any operation (`Portrait.outlook_touched`, `Portrait.outlook_collected`).
-/

namespace Metering

variable {σ : Type}

/-- Two collections end with the same failure, or with the same metrics but for the order of their
points. -/
def SamePoints : Except Failure (List Metric) → Except Failure (List Metric) → Prop
  | .ok ms, .ok ms' => List.Forall₂ Metric.Rearranges ms ms'
  | .error e, .error e' => e = e'
  | _, _ => False

theorem SamePoints.refl (x : Except Failure (List Metric)) : SamePoints x x := by
  cases x with
  | ok ms => exact List.forall₂_same.mpr fun m _ => m.rearranges_refl
  | error e => rfl

/-- What can be told from the collections of an instrument: the instrument, and what its label sets
hold if it records, or else just what there is. -/
inductive Outlook (σ : Type) where
  | recording (i : Instrument σ) (holdings : LabelSet → Holding)
  | other (P : Portrait σ)

namespace Portrait

/-- The outlook of a portrait. -/
def outlook (P : Portrait σ) : Outlook σ :=
  match P.instrument.accumulator, P.instrument.processor with
  | .synchronous _, some p => .recording P.instrument (p.stream.holding P.contents)
  | _, _ => .other P

/-- If the instrument is an observer and has a callback, that one only ever observes. -/
def IsCalm (P : Portrait σ) : Prop :=
  P.instrument.accumulator = .asynchronous →
    ∀ c ∈ P.instrument.callback, ∀ actions ∈ c.cycles, ∀ a ∈ actions, a.IsQuiet

variable {P P' : Portrait σ} {l : LabelSet} {f : Cell → Cell}

/-- Portraits with the same outlook are the same, or are of an instrument that records and have the
same holdings. -/
theorem outlook_eq_iff : P.outlook = P'.outlook ↔ P = P' ∨ ∃ live p,
    P.instrument.accumulator = .synchronous live ∧ P.instrument.processor = some p ∧
      P'.instrument = P.instrument ∧
      p.stream.holding P.contents = p.stream.holding P'.contents := by
  constructor
  · intro h
    unfold outlook at h
    split at h
    · next live p hacc hp =>
      split at h
      · next live' p' hacc' hp' =>
        obtain ⟨hi, hc⟩ := Outlook.recording.inj h
        rw [← hi, hp] at hp'
        obtain rfl := Option.some.inj hp'
        exact .inr ⟨live, p, hacc, hp, hi.symm, hc⟩
      · cases h
    · split at h
      · cases h
      · exact .inl (Outlook.other.inj h)
  · rintro (rfl | ⟨live, p, hacc, hp, hi, hc⟩)
    · rfl
    · unfold outlook
      rw [hi, hacc, hp]
      dsimp only
      rw [hc]

theorem instrument_of_outlook (h : P.outlook = P'.outlook) : P.instrument = P'.instrument := by
  obtain rfl | ⟨live, p, -, -, hi, -⟩ := outlook_eq_iff.mp h
  · rfl
  · exact hi.symm

/-- **Changing a live cell** in a way that depends only on its aggregator. -/
theorem outlook_touched {g : Aggregator → Aggregator}
    (hf : ∀ x, (f x).aggregator = g x.aggregator) (h : P.outlook = P'.outlook) (l : LabelSet) :
    (P.touched l f).outlook = (P'.touched l f).outlook := by
  rw [outlook_eq_iff] at h ⊢
  obtain rfl | ⟨live, p, hacc, hp, hi, hc⟩ := h
  · exact .inl rfl
  · refine .inr ⟨live, p, ?_⟩
    unfold touched
    rw [hi, hacc, hp]
    dsimp only
    refine ⟨hacc, hp, rfl, ?_⟩
    rw [Stream.holding_touch hf, Stream.holding_touch hf, hc]

/-- Who refers to what is live does not matter. -/
theorem outlook_touched_of_eq (hf : ∀ x, (f x).aggregator = x.aggregator) (P : Portrait σ)
    (l : LabelSet) : (P.touched l f).outlook = P.outlook := by
  rw [outlook_eq_iff]
  unfold touched
  split
  · next live p hacc hp =>
    exact .inr ⟨live, p, hacc, hp, rfl, Stream.holding_touch_of_eq hf ..⟩
  · exact .inl rfl

/-- **Collecting** portraits with the same outlook. -/
theorem collected_samePoints (h : P.outlook = P'.outlook) (time : Int) :
    SamePoints (P.collected time).1 (P'.collected time).1 := by
  obtain rfl | ⟨live, p, hacc, hp, hi, hc⟩ := outlook_eq_iff.mp h
  · exact .refl _
  · unfold collected
    dsimp only
    rw [hi, hacc, hp]
    refine Stream.metricsOf_rearranges (fun l => ?_) time
    have hdrained := (Stream.holding_drainAllIn P.contents).trans
      ((congrArg (fun x l => p.stream.drained (x l)) hc).trans
        (Stream.holding_drainAllIn P'.contents).symm)
    exact congrArg Holding.batched (congrFun hdrained l)

theorem outlook_collected (h : P.outlook = P'.outlook) (time : Int) :
    (P.collected time).2.outlook = (P'.collected time).2.outlook := by
  rw [outlook_eq_iff] at h ⊢
  obtain rfl | ⟨live, p, hacc, hp, hi, hc⟩ := h
  · exact .inl rfl
  · refine .inr ⟨live,
      { p with stream := { p.stream with start := (p.stream.endWindow time).start } }, ?_⟩
    unfold collected
    dsimp only
    rw [hi, hacc, hp]
    refine ⟨hacc, ?_, rfl, ?_⟩
    · unfold Instrument.restart
      rw [hp]
      rfl
    · show p.stream.holding _ = p.stream.holding _
      rw [Stream.holding_endIn, Stream.holding_endIn, Stream.holding_drainAllIn,
        Stream.holding_drainAllIn, hc]

/-! ### Callbacks that only ever observe -/

theorem IsCalm.touched (h : P.IsCalm) (l : LabelSet) (f : Cell → Cell) :
    (P.touched l f).IsCalm := by
  unfold Portrait.touched
  split
  · exact h
  · exact h

theorem IsCalm.collected (h : P.IsCalm) (time : Int) : (P.collected time).2.IsCalm := by
  unfold Portrait.collected
  dsimp only
  split
  · exact h
  · intro hacc c hc
    obtain ⟨c', hc', rfl⟩ := Option.map_eq_some_iff.mp hc
    exact h hacc c' hc'
  · exact h

theorem IsCalm.of_outlook (h : P.IsCalm) (hP : P.outlook = P'.outlook) : P'.IsCalm := by
  unfold IsCalm
  rw [← instrument_of_outlook hP]
  exact h

end Portrait

end Metering
