import Metering.Proofs.Pipeline.Paths
import Metering.Proofs.Session.Reachable

/-!
# Ways to record

Whatever a program has done before, a measurement that a synchronous instrument accepts leads to the
same points whether the instrument records it itself, on a handle or from a batch.  A handle never
disagrees with its instrument.  A batch does: it refuses negative values for every counter, and a
counter that does not sum up records them.
-/

namespace Metering

open Fallible SystemM

/-- **Three ways to record** with any synchronous instrument of a reachable system. -/
theorem recording_paths {s : System Step} (hs : Session.Reachable s) {r : Ref .instrument}
    {i : Instrument Step} (hi : s.instruments.get? r = some i)
    (hsync : i.descriptor.kind.isSynchronous = true) (labels : LabelArgument) (v : Scalar) :
    RecordingPaths s r i labels v :=
  hs.inOrder.recordingPaths hi hsync labels v

/-- A counter of requests, of which a view only counts how often it is added to. -/
def Session.countedRequests : List Step :=
  [.clock (.create "clock" (some 5)),
    .provider (.create "provider"
      { clock := some "clock", readers := [], resource := .absent, disabled := none }),
    .provider (.addView "provider"
      { kind := .kind .counter, aggregation := .count, temporality := .delta }),
    .provider (.requestMeter "provider" "meter" ⟨some "server", none⟩),
    .meter (.requestInstrument "meter" "requests"
      { kind := .counter, name := .text "requests" })]

/-- A batch refuses to take a request back, and the counter does not. -/
theorem recording_paths_of_negative_value :
    let s := Session.after 1 Session.countedRequests
    recordBatch .absent [(.instrument ⟨0⟩, .number (.integer (-1)))] s
        = (.error (.batch (.negative "requests" (.integer (-1)))), s) ∧
      (recordInstrument ⟨0⟩ (.number (.integer (-1))) .absent s).1 = .ok () ∧
      (recordBound ⟨0⟩ .absent (.number (.integer (-1))) s).1 = .ok () := by
  intro s
  have hmade : (s.instruments.get? ⟨0⟩).map
      (fun i => (i.descriptor.kind, i.descriptor.valueType, i.descriptor.name, i.shape))
        = some (.counter, .long, "requests", .count) := by decide +kernel
  obtain ⟨i, hi, hmade⟩ := Option.map_eq_some_iff.mp hmade
  obtain ⟨hkind, hmade⟩ := Prod.mk.inj hmade
  obtain ⟨hlong, hmade⟩ := Prod.mk.inj hmade
  obtain ⟨hname, hshape⟩ := Prod.mk.inj hmade
  have hsync : i.descriptor.kind.isSynchronous = true := by rw [hkind]; rfl
  have hmonotonic : i.descriptor.kind.isMonotonic = true := by rw [hkind]; rfl
  have hcheck : i.descriptor.valueType.check (.number (.integer (-1))) = .ok (.integer (-1)) := by
    rw [hlong]
    rfl
  have hpaths := recording_paths ⟨1, Session.countedRequests, rfl⟩ hi hsync .absent
    (.number (.integer (-1)))
  obtain ⟨hbatch, -, hdirect⟩ :=
    hpaths.sign LabelSet.empty (.integer (-1)) rfl hmonotonic hcheck (by decide +kernel)
  obtain ⟨m, hdirect⟩ := hdirect fun ho => by
    rw [Instrument.Overflows, hlong] at ho
    cases ho.1
  rw [if_neg (by rw [hshape]; exact nofun)] at hdirect
  rw [hname] at hbatch
  exact ⟨hbatch, hdirect, hpaths.handle.trans hdirect⟩

/-- **Two answers** to the same measurement: what a batch refuses for its value has been recorded by
the counter, and a collection shows it. -/
theorem recording_paths_disagree :
    let s := Session.after 1 Session.countedRequests
    let d := recordInstrument ⟨0⟩ (.number (.integer (-1))) .absent s
    (recordBatch .absent [(.instrument ⟨0⟩, .number (.integer (-1)))] s).1.mapError
        Failure.category = .error .invalidValue ∧
      d.1 = .ok () ∧
      (collectProvider (fun _ => pure ()) ⟨0⟩ d.2).1.map (fun metrics => metrics.length)
        = .ok 1 := by
  decide +kernel

end Metering
