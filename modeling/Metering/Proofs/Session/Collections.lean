import Metering.Proofs.Pipeline.Providers
import Metering.Proofs.Session.Reachable

/-!
# Collections of a provider

Whatever a program has done before, a collection of a provider gives what its instruments would give
each on its own, and leaves each of them as its own collection would.  Callbacks that are missing or
fail do not change that.  An observed value that cannot be recorded does: the collection fails, and
what the instruments before have already given is lost.
-/

namespace Metering

open Fallible SystemM

/-- **Collecting a provider** in any reachable system, if the callbacks of its instruments only
observe. -/
theorem provider_collection {s : System Step} (hs : Session.Reachable s) {q : Ref .provider}
    {x : Provider} (hx : s.providers.get? q = some x) (hopen : x.isShutDown = false)
    (hquiet : ∀ r ∈ s.instrumentsOf x, ∀ i, s.instruments.get? r = some i →
      ∀ c ∈ i.callback, c.IsQuiet) (perform : Step → SystemM Step Unit) :
    ∃ c result s', s.clocks.get? x.clock = some c ∧
      collectProvider perform q s = (result, s') ∧
      ProviderCollected perform s s' x c.now result :=
  hs.inOrder.collectProvider_apply hx hopen hquiet perform

/-- A value recorder that has recorded 3, and after it an observer of doubles whose first call
observes an integer that no double holds. -/
def Session.overreaching : List Step :=
  let huge : Int := Nat.pow 10 400
  [.clock (.create "clock" (some 5)),
    .provider (.create "provider"
      { clock := some "clock", readers := [], resource := .absent, disabled := none }),
    .provider (.requestMeter "provider" "meter" ⟨some "server", none⟩),
    .meter (.requestInstrument "meter" "size"
      { kind := .valueRecorder, name := .text "size", valueType := some (.numberClass .long) }),
    .meter (.requestInstrument "meter" "load"
      { kind := .valueObserver
        name := .text "load"
        callback := some
          { cycles := [[.observe (.number (.integer huge)) .absent], []]
            generates := false
            calls := 0 } }),
    .instrument (.record "size" (.number (.integer 3)) .absent)]

/-- The value recorder has given what it recorded when the observer fails. -/
theorem provider_collection_of_huge_value :
    let s := Session.after 1 Session.overreaching
    ∃ x s', s.providers.get? ⟨0⟩ = some x ∧ x.isShutDown = false ∧
      ProviderCollected (fun _ => pure ()) s s' x 5 (.error (.record .tooLarge)) := by
  intro s
  have hprovider : (s.providers.get? ⟨0⟩).map (fun x => (x.isShutDown, x.clock))
      = some (false, ⟨0⟩) := by decide +kernel
  have htime : (s.clocks.get? ⟨0⟩).map Clock.now = some 5 := by decide +kernel
  have hquiet : ∀ i ∈ s.instruments.rows.toList, ∀ c ∈ i.callback, c.IsQuiet := by decide +kernel
  have hresult : (collectProvider (fun _ => pure ()) ⟨0⟩ s).1 = .error (.record .tooLarge) := by
    decide +kernel
  obtain ⟨x, hx, hpair⟩ := Option.map_eq_some_iff.mp hprovider
  obtain ⟨hopen, hclock⟩ := Prod.mk.inj hpair
  obtain ⟨c, result, s', hc, happly, hcollected⟩ :=
    provider_collection ⟨1, Session.overreaching, rfl⟩ hx hopen
      (fun r _ i hi => hquiet i (Array.mem_toList_iff.mpr (Array.mem_of_getElem? hi)))
      (fun _ => pure ())
  rw [hclock] at hc
  rw [hc] at htime
  rw [happly] at hresult
  obtain rfl : result = .error (.record .tooLarge) := hresult
  exact ⟨x, s', hx, hopen, Option.some.inj htime ▸ hcollected⟩

/-- **A torn collection**: both instruments would give something on their own, one a metric and the
other a failure.  The collection fails, and the next one has nothing of what was recorded. -/
theorem provider_collection_torn :
    let s := Session.after 1 Session.overreaching
    let c := collectProvider (fun _ => pure ()) ⟨0⟩ s
    (collectInstrument (fun _ => pure ()) ⟨0⟩ (some 5) s).1.map (fun metrics => metrics.length)
        = .ok 1 ∧
      c.1 = .error (.record .tooLarge) ∧
      (collectProvider (fun _ => pure ()) ⟨0⟩ c.2).1 = .ok [] := by
  decide +kernel

end Metering
