import Metering.Proofs.Pipeline.Transcripts
import Metering.Proofs.Session.Measurements

/-!
# Refused measurements

Whatever a program has done before and does next, a measurement that is refused leaves no trace: had
it not been tried, every later call would have had the same reply, and every collection the same
points.
-/

namespace Metering

open Fallible SystemM

/-- **A refused measurement leaves no trace.**  In any reachable system, calls of instruments of any
kind, value type, aggregation and temporality, among them collections at given times or at those of
clocks, have the same replies without the measurements that were refused. -/
theorem refused_measurements_leave_no_trace {s : System Step} (hs : Session.Reachable s)
    (perform : Step → SystemM Step Unit) {cs : List InstrumentCall}
    (hcalm : ∀ c ∈ cs, ∀ r ∈ c.collects, s.IsCalmAt r) :
    List.Forall₂ (fun e e' => e'.1 = e.1 ∧ e.2.Agrees e'.2)
      (withoutRefusals (s.transcript perform cs))
      (s.transcript perform ((withoutRefusals (s.transcript perform cs)).map Prod.fst)) :=
  hs.inOrder.refusals_traceless perform hcalm

/-- Requests are counted for a path that a negative one was refused for, and on a handle that
refuses a truth value. -/
def Session.refusedRequests : List InstrumentCall :=
  let path : LabelArgument := .mapping ⟨[(.text "path", .text "/")]⟩
  [.use (.record ⟨0⟩ path (.number (.integer (-1)))),
    .use (.bind ⟨0⟩ .absent),
    .use (.recordOn ⟨0⟩ (.boolean true)),
    .use (.recordOn ⟨0⟩ (.number (.integer 2))),
    .collectNow ⟨0⟩,
    .moveClock ⟨0⟩ (Clock.advance 5),
    .use (.record ⟨0⟩ path (.number (.integer 3))),
    .use (.record ⟨0⟩ (.mapping ⟨[(.text "", .text "/")]⟩) (.number (.integer 3))),
    .use (.release ⟨0⟩),
    .use (.collect ⟨0⟩ 20)]

/-- A negative value, a truth value and an empty label key are refused. -/
theorem refused_measurements_leave_no_trace_of_requests :
    let s := Session.after 1 Session.counterAndRecorder
    let t := s.transcript (fun _ => pure ()) Session.refusedRequests
    t.map isRefusal = [true, false, true, false, false, false, false, true, false, false] ∧
      List.Forall₂ (fun e e' => e'.1 = e.1 ∧ e.2.Agrees e'.2) (withoutRefusals t)
        (s.transcript (fun _ => pure ()) ((withoutRefusals t).map Prod.fst)) := by
  intro s t
  have hrefused : t.map isRefusal
      = [true, false, true, false, false, false, false, true, false, false] := by decide +kernel
  have hcollects : ∀ r ∈ Session.refusedRequests.filterMap InstrumentCall.collects, r = ⟨0⟩ := by
    decide
  have hrecords : (s.accumulation? ⟨0⟩).isSome = true := by decide +kernel
  refine ⟨hrefused, refused_measurements_leave_no_trace ⟨1, Session.counterAndRecorder, rfl⟩ _ ?_⟩
  intro c hc r hr i hi hacc
  obtain rfl := hcollects r (List.mem_filterMap.mpr ⟨c, hc, hr⟩)
  -- an instrument that records is no observer
  obtain ⟨a, ha⟩ := Option.isSome_iff_exists.mp hrecords
  rw [System.accumulation?_of_get? hi] at ha
  obtain ⟨live, p, hlive, -⟩ := Instrument.accumulation?_eq_some ha
  rw [hacc] at hlive
  cases hlive

end Metering
