import Metering.Proofs.Pipeline.Typing
import Metering.Proofs.Session.Reachable

/-!
# Types in any reachable system

Whatever a program has done, with whatever views, the aggregators of its instruments are of the
types that their aggregations give them, no merge fails in any operation or interleaving of threads,
and every metric of every collection is well typed (`collections_well_typed`).
-/

namespace Metering

open SystemM

/-- **Well typed collections**: in any reachable system, and however deeply the steps of callbacks
nest, aggregators and metrics are of the right types, and nothing fails because of a merge. -/
theorem collections_well_typed {s : System Step} (hs : Session.Reachable s) (depth : Nat) :
    s.WellTyped (Session.nested depth) :=
  hs.inOrder.wellTyped (Session.nested_keeps depth)

/-- A counter of longs, a histogram of doubles with one boundary, and a count of doubles. -/
def Session.severalTypes : List Step :=
  [.clock (.create "clock" (some 5)),
    .provider (.create "provider"
      { clock := some "clock", readers := [], resource := .absent, disabled := none }),
    .provider (.addView "provider"
      { kind := .kind .valueRecorder
        aggregation := .histogram (some [.number (.integer 4)])
        temporality := .cumulative }),
    .provider (.addView "provider"
      { kind := .kind .upDownCounter, aggregation := .count, temporality := .delta }),
    .provider (.requestMeter "provider" "meter" ⟨some "server", none⟩),
    .meter (.requestInstrument "meter" "requests" { kind := .counter, name := .text "requests" }),
    .meter (.requestInstrument "meter" "latency"
      { kind := .valueRecorder, name := .text "latency" }),
    .meter (.requestInstrument "meter" "load"
      { kind := .upDownCounter
        name := .text "load"
        valueType := some (.valueType .double) }),
    .instrument (.record "requests" (.number (.integer 3)) .absent),
    .instrument (.record "latency" (.number (.integer 7)) .absent),
    .instrument (.record "load" (.number (.integer (-2))) .absent)]

/-- Each of the three metrics has points of the class that its type asks for, and the stream of an
instrument describes it. -/
theorem collections_well_typed_of_severalTypes :
    let s := Session.after 1 Session.severalTypes
    ∃ metrics s', collectProvider (Session.nested 1) ⟨0⟩ s = (.ok metrics, s') ∧
      (metrics.map fun m => (m.type, m.points.map fun x => x.value.pointClass))
        = [(.sum true .long, [.long]), (.histogram, [.histogram]), (.sum true .long, [.long])] ∧
      ∀ m ∈ metrics, s'.Describes m := by
  intro s
  have htypes : (collectProvider (Session.nested 1) ⟨0⟩ s).1.map
      (fun metrics => metrics.map fun m => (m.type, m.points.map fun x => x.value.pointClass))
        = .ok [(.sum true .long, [.long]), (.histogram, [.histogram]),
            (.sum true .long, [.long])] := by
    decide +kernel
  have hcollected :=
    (collections_well_typed ⟨1, Session.severalTypes, rfl⟩ 1).provider (s := s) ⟨0⟩
  rcases hcollect : collectProvider (Session.nested 1) ⟨0⟩ s with ⟨e | metrics, s'⟩ <;>
    rw [hcollect] at htypes hcollected
  · cases htypes
  · exact ⟨metrics, s', rfl, Except.ok.inj htypes, hcollected.described metrics rfl⟩

end Metering
