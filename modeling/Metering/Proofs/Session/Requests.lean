import Metering.Proofs.Pipeline.Retirement
import Metering.Proofs.Session.Reachable

/-!
# Requests for instruments in any reachable system

A meter of a reachable system is asked for instruments, good ones and bad ones, while views are
registered and a program does what it likes: measures, collects, shuts providers down, asks for
instruments within callbacks.  `meter_follows_register` is the main statement: through all of that
the meter follows its register, and whatever has been replaced by then is retired and never seen
again.
-/

namespace Metering

open Fallible SystemM

namespace Session

/-- A run of a program, given with what happens to the register of a meter. -/
inductive Run (m : Ref .meter) (s : System Step) : List (RegisterEvent Step) → System Step → Prop
  | start : Run m s [] s
  /-- The meter is asked for an instrument. -/
  | request {events : List (RegisterEvent Step)} {t : System Step} (h : Run m s events t)
      (q : InstrumentRequest Step) :
      Run m s (events ++ [.request q]) (requestInstrument m q t).2
  /-- The provider of the meter registers a view. -/
  | view {events : List (RegisterEvent Step)} {t : System Step} (h : Run m s events t) {y : Meter}
      (hy : t.meters.get? m = some y) (v : View) :
      Run m s (events ++ [.view v]) (addView y.provider v t).2
  /-- A step of the program, with all that happens within it. -/
  | step {events others : List (RegisterEvent Step)} {t : System Step} (h : Run m s events t)
      (depth : Nat) (x : Step) (hx : System.Registered m t others (advance depth x t).2) :
      Run m s (events ++ others) (advance depth x t).2

/-- **A run** keeps a system in order, and is what it is given with. -/
theorem Run.registered {since s t : System Step} {m : Ref .meter} {y : Meter}
    {events : List (RegisterEvent Step)} (h : Run m s events t) (hs : InOrder since s)
    (hy : s.meters.get? m = some y) :
    InOrder since t ∧ System.Registered m s events t := by
  induction h with
  | start => exact ⟨hs, .aside rfl (.refl s) rfl⟩
  | request _ q ih =>
    obtain ⟨ht, hregistered⟩ := ih
    obtain ⟨y', hy', -⟩ := hregistered.exists_meter hy
    obtain ⟨hq, hkept⟩ := ht.registration hy' q
    exact ⟨hkept, hregistered.append (.requested hq)⟩
  | view _ hy' v ih =>
    obtain ⟨ht, hregistered⟩ := ih
    exact ⟨InOrderBy.addView _ v _ ht, hregistered.append (ht.registered_addView hy' v)⟩
  | step _ depth x hx ih =>
    obtain ⟨ht, hregistered⟩ := ih
    exact ⟨advance_inOrder ht depth x, hregistered.append hx⟩

/-- What has become of a meter that followed a register, after some events. -/
structure MeterUpheld (m : Ref .meter) (R : Register) (s : System Step)
    (events : List (RegisterEvent Step)) (t : System Step) : Prop where
  /-- It follows what has become of the register: its names are in the same order, and the
  instruments are what the register says. -/
  follows : t.Follows m (R.after events)
  /-- A name stands for what was asked for last under it. -/
  described : ∀ name, t.described? m name = (lastRequested name events).or (R.descriptor? name)
  /-- Asking for an instrument comes to what it should: a failure that changes nothing, the
  instrument that is there, or a new one. -/
  registration : ∀ q, Registration t m q (requestInstrument m q t)
  /-- A good request gives the instrument that has the name just if that is what is asked for. -/
  same : ∀ q d, q.descriptor = .ok d →
    ((requestInstrument m q t).1.toOption = t.current? m d.name ↔
      t.described? m d.name = some d)
  /-- A new instrument takes over the place of the one that had its name, or comes last. -/
  place : ∀ q d, q.descriptor = .ok d → t.described? m d.name ≠ some d →
    (requestInstrument m q t).2.instrumentsIn m = match t.current? m d.name with
      | some r => (t.instrumentsIn m).map fun r' => if r' = r then t.instruments.next else r'
      | none => t.instrumentsIn m ++ [t.instruments.next]
  /-- What a request replaces is retired. -/
  replaced : ∀ q name r, t.current? m name = some r →
    (requestInstrument m q t).2.current? m name ≠ some r →
    (requestInstrument m q t).2.Retired r
  /-- The program may go on with any step. -/
  proceeds : ∀ depth x, ∃ others, Run m s (events ++ others) (advance depth x t).2
  /-- Whatever it goes on with, every instrument stays what it is, and what is retired stays so and
  is not seen by any collection. -/
  lasting : ∀ {others u}, Run m t others u →
    (∀ r e, t.entry? r = some e → u.entry? r = some e) ∧
      ∀ r, t.Retired r → u.Retired r ∧ ∀ depth, u.Unseen (nested depth) r

end Session

/-- **A meter follows its register**: every meter of a reachable system follows some register, and
goes on following it in any run, whatever it is asked for. -/
theorem meter_follows_register {s : System Step} (hs : Session.Reachable s) {m : Ref .meter}
    {y : Meter} (hy : s.meters.get? m = some y) :
    (∃ R, s.Follows m R) ∧ ∀ R, s.Follows m R → ∀ events t, Session.Run m s events t →
      Session.MeterUpheld m R s events t := by
  have hempty := hs.inOrder
  refine ⟨hempty.exists_follows hy, fun R hR events t hrun => ?_⟩
  obtain ⟨ht, hregistered⟩ := hrun.registered hempty.here hy
  obtain ⟨y', hy', -⟩ := hregistered.exists_meter hy
  have hfollows := hR.after hregistered
  have hregistration := fun q => (ht.registration hy' q).1
  constructor
  case follows => exact hfollows
  case described =>
    intro name
    rw [hfollows.described?, Register.descriptor?_after]
  case registration => exact hregistration
  case same =>
    intro q d hq
    by_cases hd : t.described? m d.name = some d
    · obtain ⟨r, hr, hanswer⟩ := (hregistration q).of_described hq hd
      refine iff_of_true ?_ hd
      rw [hr, hanswer]
      rfl
    · obtain ⟨hanswer, -⟩ := (hregistration q).of_other hq hd
      refine iff_of_false (fun hcurrent => ?_) hd
      -- what has the name is there, and the new instrument was not
      rw [hanswer] at hcurrent
      obtain ⟨z, hz, hname⟩ := Option.bind_eq_some_iff.mp hcurrent.symm
      obtain ⟨i, hi, -⟩ := ht.registry.instrument hz hname
      rw [Table.get?_next] at hi
      cases hi
  case place =>
    intro q d hq hother
    obtain ⟨-, z, a, i, hz, henlists⟩ := (hregistration q).of_other hq hother
    exact henlists.instrumentsIn ht.registry hz
  case replaced => exact fun q name r hr hne => ht.registry.retired (hregistration q) hr hne
  case proceeds =>
    intro depth x
    have hnext := Session.advance_inOrder ht.here depth x
    obtain ⟨others, hothers⟩ := hnext.evolves.registered m y' hy'
    exact ⟨others, hrun.step depth x hothers⟩
  case lasting =>
    intro others u hlater
    obtain ⟨hu, -⟩ := hlater.registered ht.here hy'
    refine ⟨fun r e he => hu.evolves.retains.entry? he, fun r hr => ?_⟩
    have hretired := hu.evolves.retired hr
    exact ⟨hretired, fun depth => hu.unseen (Session.nested_keeps depth) hretired⟩

/-- A counter has counted five requests. -/
def Session.fiveRequests : List Step :=
  [.clock (.create "clock" (some 5)),
    .provider (.create "provider"
      { clock := some "clock", readers := [], resource := .absent, disabled := none }),
    .provider (.requestMeter "provider" "meter" ⟨some "server", none⟩),
    .meter (.requestInstrument "meter" "requests" { kind := .counter, name := .text "requests" }),
    .instrument (.record "requests" (.number (.integer 5)) .absent)]

/-- The values that the first provider reports. -/
def Session.reported (s : System Step) : Except Failure (List PointValue) :=
  (collectProvider (nested 1) ⟨0⟩ s).1.map fun ms => (ms.flatMap Metric.points).map Point.value

/-- What has counted requests is retired by a request for something else under its name, and what it
has counted is not reported any more. -/
theorem meter_follows_register_of_conflict :
    let s := Session.after 1 Session.fiveRequests
    let q : InstrumentRequest Step := { kind := .upDownCounter, name := .text "requests" }
    let t := (requestInstrument ⟨0⟩ q s).2
    Session.reported s = .ok [.number (.integer 5)] ∧ Session.reported t = .ok [] ∧
      t.described? ⟨0⟩ "requests" = some ⟨"requests", some "", some "1", .upDownCounter, .long⟩ ∧
      t.Retired ⟨0⟩ ∧ ∃ R, Session.MeterUpheld ⟨0⟩ R s [.request q] t := by
  intro s q t
  have hcounted : Session.reported s = .ok [.number (.integer 5)] := by decide +kernel
  have hgone : Session.reported t = .ok [] := by decide +kernel
  have hdescribed : t.described? ⟨0⟩ "requests"
      = some ⟨"requests", some "", some "1", .upDownCounter, .long⟩ := by decide +kernel
  have hbefore : s.current? ⟨0⟩ "requests" = some ⟨0⟩ := by decide +kernel
  have hafter : t.current? ⟨0⟩ "requests" ≠ some ⟨0⟩ := by decide +kernel
  obtain ⟨y, hy, -⟩ := Option.bind_eq_some_iff.mp hbefore
  have hs : Session.Reachable s := ⟨1, Session.fiveRequests, rfl⟩
  obtain ⟨⟨R, hR⟩, hupheld⟩ := meter_follows_register hs hy
  have hstart := hupheld R hR [] s .start
  exact ⟨hcounted, hgone, hdescribed, hstart.replaced q "requests" ⟨0⟩ hbefore hafter, R,
    hupheld R hR _ t (.request .start q)⟩

end Metering
