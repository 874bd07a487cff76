import Metering.Proofs.Pipeline.Batches
import Metering.Proofs.Session.Reachable

/-!
# Batches of a meter

Whatever a program has done before, a batch that its check refuses has changed nothing, and one that
is let pass is recorded, measurement after measurement.  The exception is an integer that no double
holds: the check lets it pass, the instrument refuses it, and what stands before it in the batch is
recorded all the same.
-/

namespace Metering

open Fallible SystemM

/-- **Recording a batch** in any reachable system: what becomes of it, for all labels and all
measurements. -/
theorem batch_recording {s : System Step} (hs : Session.Reachable s) (labels : LabelArgument)
    (ms : List (BatchTarget × Scalar)) :
    ∃ result s', recordBatch labels ms s = (result, s') ∧ Batched s s' labels ms result :=
  hs.inOrder.batched labels ms

/-- A counter of longs, and a value recorder of doubles. -/
def Session.counterAndRecorder : List Step :=
  [.clock (.create "clock" (some 5)),
    .provider (.create "provider"
      { clock := some "clock", readers := [], resource := .absent, disabled := none }),
    .provider (.requestMeter "provider" "meter" ⟨some "server", none⟩),
    .meter (.requestInstrument "meter" "requests"
      { kind := .counter, name := .text "requests" }),
    .meter (.requestInstrument "meter" "latency"
      { kind := .valueRecorder, name := .text "latency" })]

/-- One request, which took longer than any double. -/
def Session.hugeBatch : List (BatchTarget × Scalar) :=
  [(.instrument ⟨0⟩, .number (.integer 1)),
    (.instrument ⟨1⟩, .number (.integer (Nat.pow 10 400 : Nat)))]

/-- The counter has noted its value when the value recorder refuses its own. -/
theorem batch_recording_of_huge_value :
    let s := Session.after 1 Session.counterAndRecorder
    ∃ s' s₁, recordBatch .absent Session.hugeBatch s = (.error (.record .tooLarge), s') ∧
      RecordedEach .absent s [(.instrument ⟨0⟩, .number (.integer 1))] s₁ ∧
      s.Notes s' LabelSet.empty Session.hugeBatch := by
  intro s
  have hkind : ∀ r kind valueType, (s.instruments.get? r).map
      (fun i => (i.descriptor.kind, i.descriptor.valueType)) = some (kind, valueType) →
      ∃ i, s.instruments.get? r = some i ∧ i.descriptor.kind = kind ∧
        i.descriptor.valueType = valueType := by
    intro r kind valueType h
    obtain ⟨i, hi, hpair⟩ := Option.map_eq_some_iff.mp h
    exact ⟨i, hi, Prod.mk.inj hpair⟩
  obtain ⟨counter, hcounter, hcount, hlong⟩ := hkind ⟨0⟩ .counter .long (by decide +kernel)
  obtain ⟨recorder, hrecorder, hrecord, hdouble⟩ :=
    hkind ⟨1⟩ .valueRecorder .double (by decide +kernel)
  have hcounted : s.Admits (.instrument ⟨0⟩, .number (.integer 1)) := by
    refine ⟨counter, hcounter, ?_, .integer 1, ?_, fun _ => by decide +kernel⟩
    · rw [hcount]
      rfl
    · rw [hlong]
      rfl
  have hadmitted : s.Admits (.instrument ⟨1⟩, .number (.integer (Nat.pow 10 400 : Nat))) := by
    refine ⟨recorder, hrecorder, ?_, .integer (Nat.pow 10 400 : Nat), ?_, fun h => ?_⟩
    · rw [hrecord]
      rfl
    · rw [hdouble]
      rfl
    · rw [hrecord] at h
      cases h
  have hover : s.Overflows (.instrument ⟨1⟩, .number (.integer (Nat.pow 10 400 : Nat))) := by
    refine ⟨recorder, hrecorder, hdouble, .integer (Nat.pow 10 400 : Nat), ?_, by decide +kernel⟩
    rw [hdouble]
    rfl
  have hfits : ¬ s.Overflows (.instrument ⟨0⟩, .number (.integer 1)) := by
    rintro ⟨i, hi, hd, -⟩
    obtain rfl := Option.some.inj (hcounter.symm.trans hi)
    rw [hlong] at hd
    cases hd
  obtain ⟨result, s', happly, hbatched⟩ :=
    batch_recording ⟨1, Session.counterAndRecorder, rfl⟩ .absent Session.hugeBatch
  obtain ⟨rfl, hnotes, s₁, heach, -⟩ := hbatched.torn LabelSet.empty rfl
    (List.forall_mem_cons.mpr ⟨hcounted, List.forall_mem_singleton.mpr hadmitted⟩)
    [(.instrument ⟨0⟩, .number (.integer 1))] _ [] rfl (List.forall_mem_singleton.mpr hfits) hover
  exact ⟨s', s₁, happly, heach, hnotes⟩

/-- **A torn batch** has failed, but changed what a collection gives. -/
theorem batch_recording_torn :
    let s := Session.after 1 Session.counterAndRecorder
    let b := recordBatch .absent Session.hugeBatch s
    b.1 = .error (.record .tooLarge) ∧
      (collectProvider (fun _ => pure ()) ⟨0⟩ s).1 = .ok [] ∧
      (collectProvider (fun _ => pure ()) ⟨0⟩ b.2).1.map (fun metrics => metrics.length)
        = .ok 1 := by
  decide +kernel

end Metering
