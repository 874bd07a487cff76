import Mathlib.Logic.Function.Basic
import Metering.Proofs.Concurrency.Spans

/-!
# Readers that collect at the same time

`Readers` is a system with the collections of a provider that any number of readers have under way.
Each step of `Readers.step` is one thing that is done at once:

* a collection begins by reading the clock, then takes the snapshot of the meters, then for each
  meter the snapshot of its instruments, and collects these one by one at the time that it has read
  (`Sweep.advance`); left alone it does what `collectProvider` does (`Readers.collect_alone`);
* an instrument is asked for, which reads the clock as well;
* time passes, or a measurement is recorded.

The readers remember what the clock has said, when instruments were made, and what was collected
from them.  `Readers.Becomes` says all that a step can do to windows and moments
(`Readers.becomes_step`).
-/

namespace Metering

open Fallible SystemM

variable {σ : Type}

/-- A reading of the clock: how many there were before it, and what it said. -/
structure Moment where
  place : Nat
  time : Int
deriving DecidableEq, Repr

/-- A collection that has read the clock at a moment has collected an instrument. -/
structure Visit where
  instrument : Ref .instrument
  moment : Moment
  metrics : List Metric

/-- A collection under way. -/
structure Sweep where
  /-- When it has read the clock. -/
  moment : Moment
  /-- The meters that it has not come to, as soon as it has their snapshot. -/
  meters : Option (List (Ref .meter)) := none
  /-- The instruments that it has not come to, of the latest meter. -/
  instruments : List (Ref .instrument) := []
  gathered : List Metric := []

/-- What the clock of a provider says. -/
def System.timeOf? (s : System σ) (P : Ref .provider) : Option Int :=
  ((s.providers.get? P).map Provider.clock).bind fun c => (s.clocks.get? c).map Clock.now

/-- A collection begins by reading the clock, unless the provider is shut down. -/
def SystemM.beginSweep (P : Ref .provider) : SystemM σ (Option Int) := do
  let p ← provider P
  if p.isShutDown then
    report [.warning "Can't collect metrics, provider is shut down"]
    return none
  else
    return some (← now p.clock)

/-- The next thing that a collection does.  What it visits, if anything, is handed out; a collection
that is done gives what it has gathered. -/
def Sweep.advance (perform : σ → SystemM σ Unit) (P : Ref .provider) (x : Sweep) :
    SystemM σ ((Sweep × Option Visit) ⊕ List Metric) :=
  match x.instruments, x.meters with
  | r :: rest, _ => do
    let metrics ← collectInstrument perform r (some x.moment.time)
    return .inl ({ x with instruments := rest, gathered := x.gathered ++ metrics },
      some ⟨r, x.moment, metrics⟩)
  | [], none => do return .inl ({ x with meters := some (← provider P).meters.values }, none)
  | [], some (m :: rest) => do
    return .inl ({ x with meters := some rest, instruments := (← meter m).instruments.values },
      none)
  | [], some [] => return .inr x.gathered

/-- A system with the collections under way. -/
structure Readers (σ : Type) where
  system : System σ
  /-- What the clock has said so far, oldest first. -/
  past : List Int := []
  /-- When the clock was read for the window of an instrument. -/
  births : Ref .instrument → Option Moment := fun _ => none
  /-- The collection that a reader has under way. -/
  sweeps : Nat → Option Sweep := fun _ => none
  /-- The instruments that were collected, oldest first. -/
  visits : List Visit := []
  /-- What the readers have got from their collections, oldest first. -/
  answers : List (Nat × Except Failure (List Metric)) := []

/-- Something that is done. -/
inductive ReaderEvent (σ : Type) where
  /-- Time passes on the clock of the provider. -/
  | pass (nanos : Nat)
  /-- A reader begins to collect, or goes on with it. -/
  | collect (k : Nat)
  /-- An instrument of a meter of the provider is asked for. -/
  | create (m : Ref .meter) (q : InstrumentRequest σ)
  /-- The meter of a library is asked for. -/
  | meter (name version : Option String)
  | record (r : Ref .instrument) (value : Scalar) (labels : LabelArgument)
  | batch (labels : LabelArgument) (measurements : List (BatchTarget × Scalar))
  | bind (r : Ref .instrument) (labels : LabelArgument)
  | recordOn (h : Ref .handle) (value : Scalar)
  | release (h : Ref .handle)

namespace Readers

/-- The readers after something was done to the system, successful or not. -/
def after {α : Type} (w : Readers σ) (x : SystemM σ α) : Readers σ :=
  { w with system := (x w.system).2 }

/-- The collection of a reader is over. -/
def answer (w : Readers σ) (k : Nat) (result : Except Failure (List Metric)) (s : System σ) :
    Readers σ :=
  { w with
    system := s
    sweeps := Function.update w.sweeps k none
    answers := w.answers ++ [(k, result)] }

/-- The readers after something was done; what cannot be done at this moment changes nothing. -/
def step (perform : σ → SystemM σ Unit) (P : Ref .provider) (w : Readers σ) :
    ReaderEvent σ → Readers σ
  | .pass nanos => w.after do moveClock (← provider P).clock (Clock.advance nanos)
  | .collect k =>
    match w.sweeps k with
    | none =>
      match beginSweep P w.system with
      | (.ok (some time), s) =>
        { w with
          system := s
          past := w.past ++ [time]
          sweeps := Function.update w.sweeps k (some { moment := ⟨w.past.length, time⟩ }) }
      | (.ok none, s) => w.answer k (.ok []) s
      | (.error f, s) => w.answer k (.error f) s
    | some x =>
      match x.advance perform P w.system with
      | (.ok (.inl (y, visit)), s) =>
        { w with
          system := s
          sweeps := Function.update w.sweeps k (some y)
          visits := w.visits ++ visit.toList }
      | (.ok (.inr metrics), s) => w.answer k (.ok metrics) s
      | (.error f, s) => w.answer k (.error f) s
  | .create m q =>
    match w.system.timeOf? P with
    | none => w
    | some time =>
      if (w.system.meters.get? m).map Meter.provider = some P then
        let s := (requestInstrument m q w.system).2
        { w with
          system := s
          past := w.past ++ [time]
          births := fun r => (w.births r).or ((s.spanAt r).map fun _ => ⟨w.past.length, time⟩) }
      else w
  | .meter name version => w.after (requestMeter P name version)
  | .record r value labels => w.after (recordInstrument r value labels)
  | .batch labels measurements => w.after (recordBatch labels measurements)
  | .bind r labels => w.after (bindHandle r labels)
  | .recordOn h value => w.after (recordHandle h value)
  | .release h => w.after (releaseHandle h)

/-- The readers after several things were done. -/
def run (perform : σ → SystemM σ Unit) (P : Ref .provider) (w : Readers σ)
    (events : List (ReaderEvent σ)) : Readers σ := events.foldl (step perform P) w

/-- The visits to an instrument, oldest first. -/
def visitsTo (w : Readers σ) (r : Ref .instrument) : List Visit :=
  w.visits.filter fun v => v.instrument = r

end Readers

/-! ### A collection that is left alone -/

namespace Sweep

/-- What is left for a collection that has these meters before it. -/
def rest (perform : σ → SystemM σ Unit) (x : Sweep) (meters : List (Ref .meter)) :
    SystemM σ (List Metric) := do
  let here ← collectInstruments perform (some x.moment.time) x.instruments
  return x.gathered ++ (here ++ (← collectMeters perform (some x.moment.time) meters))

variable {x : Sweep} {r : Ref .instrument} {rs : List (Ref .instrument)} {m : Ref .meter}
  {ms : List (Ref .meter)}

theorem rest_instrument (perform : σ → SystemM σ Unit) (hx : x.instruments = r :: rs)
    (ms : List (Ref .meter)) (s : System σ) :
    x.rest perform ms s = match collectInstrument perform r (some x.moment.time) s with
      | (.ok metrics, s') =>
        { x with instruments := rs, gathered := x.gathered ++ metrics }.rest perform ms s'
      | (.error f, s') => (.error f, s') := by
  unfold rest
  rw [hx, collectInstruments]
  simp only [bind_apply, pure_apply]
  rcases collectInstrument perform r (some x.moment.time) s with ⟨f | first, s₁⟩
  · rfl
  dsimp only
  rcases collectInstruments perform (some x.moment.time) rs s₁ with ⟨f | here, s₂⟩
  · rfl
  dsimp only
  rcases collectMeters perform (some x.moment.time) ms s₂ with ⟨f | there, s₃⟩
  · rfl
  simp only [List.append_assoc]

theorem rest_meter (perform : σ → SystemM σ Unit) (hx : x.instruments = []) (m : Ref .meter)
    (ms : List (Ref .meter)) (s : System σ) :
    x.rest perform (m :: ms) s = match SystemM.meter m s with
      | (.ok y, s') =>
        { x with meters := some ms, instruments := y.instruments.values }.rest perform ms s'
      | (.error f, s') => (.error f, s') := by
  unfold rest
  rw [hx, collectInstruments, collectMeters, collectMeter]
  simp only [bind_apply, pure_apply, List.nil_append]
  rcases SystemM.meter m s with ⟨f | y, s₁⟩
  · rfl
  dsimp only
  rcases collectInstruments perform (some x.moment.time) y.instruments.values s₁ with ⟨f | here, s₂⟩
  · rfl
  dsimp only
  rcases collectMeters perform (some x.moment.time) ms s₂ with ⟨f | there, s₃⟩ <;> rfl

theorem rest_nil (perform : σ → SystemM σ Unit) (hx : x.instruments = []) (s : System σ) :
    x.rest perform [] s = (.ok x.gathered, s) := by
  unfold rest
  rw [hx]
  unfold collectMeters collectInstruments
  simp only [bind_apply, pure_apply, List.append_nil]

/-- What is left for a collection that has gathered nothing. -/
theorem rest_begun (perform : σ → SystemM σ Unit) (moment : Moment)
    (meters : Option (List (Ref .meter))) (ms : List (Ref .meter)) :
    ({ moment := moment, meters := meters } : Sweep).rest perform ms
      = collectMeters perform (some moment.time) ms := by
  funext s
  unfold rest
  rw [collectInstruments]
  simp only [bind_apply, pure_apply, List.nil_append]
  rcases collectMeters perform (some moment.time) ms s with ⟨f | metrics, s'⟩ <;> rfl

end Sweep

namespace Readers

variable {w : Readers σ} {k : Nat} {x : Sweep}

/-- If only one reader goes on, its collection ends with a result, in a system. -/
def Ends (perform : σ → SystemM σ Unit) (P : Ref .provider) (w : Readers σ) (k : Nat)
    (outcome : Except Failure (List Metric) × System σ) : Prop :=
  ∃ n w', w.run perform P (List.replicate n (.collect k)) = w' ∧ w'.system = outcome.2 ∧
    w'.answers = w.answers ++ [(k, outcome.1)] ∧ w'.sweeps = Function.update w.sweeps k none

theorem Ends.of_step {perform : σ → SystemM σ Unit} {P : Ref .provider}
    {outcome : Except Failure (List Metric) × System σ} {w' : Readers σ} {o : Option Sweep}
    (hstep : w.step perform P (.collect k) = w') (hanswers : w'.answers = w.answers)
    (hsweeps : w'.sweeps = Function.update w.sweeps k o) (h : w'.Ends perform P k outcome) :
    w.Ends perform P k outcome := by
  obtain ⟨n, w'', hrun, hsystem, hanswer, hrest⟩ := h
  refine ⟨n + 1, w'', ?_, hsystem, ?_, ?_⟩
  · rw [List.replicate_succ, ← hrun, ← hstep]
    rfl
  · rw [hanswer, hanswers]
  · rw [hrest, hsweeps, Function.update_idem]

theorem Ends.of_answer {perform : σ → SystemM σ Unit} {P : Ref .provider}
    {result : Except Failure (List Metric)} {s : System σ}
    (hstep : w.step perform P (.collect k) = w.answer k result s) :
    w.Ends perform P k (result, s) :=
  ⟨1, _, hstep, rfl, rfl, rfl⟩

/-- A collection begins by reading the clock, or is over at once. -/
theorem step_collect_of_none (hk : w.sweeps k = none) (perform : σ → SystemM σ Unit)
    (P : Ref .provider) :
    (∃ p time, w.system.providers.get? P = some p ∧ w.system.timeOf? P = some time ∧
      w.step perform P (.collect k) =
        { w with
          past := w.past ++ [time]
          sweeps := Function.update w.sweeps k (some { moment := ⟨w.past.length, time⟩ }) } ∧
      collectProvider perform P w.system
        = collectMeters perform (some time) p.meters.values w.system) ∨
    ∃ result s, w.system.SameSpans s ∧ w.step perform P (.collect k) = w.answer k result s ∧
      collectProvider perform P w.system = (result, s) := by
  have hstep : w.step perform P (.collect k) = match beginSweep P w.system with
      | (.ok (some time), s) =>
        { w with
          system := s
          past := w.past ++ [time]
          sweeps := Function.update w.sweeps k (some { moment := ⟨w.past.length, time⟩ }) }
      | (.ok none, s) => w.answer k (.ok []) s
      | (.error f, s) => w.answer k (.error f) s := by
    unfold step
    simp only [hk]
  rw [hstep]
  unfold System.timeOf? beginSweep collectProvider now SystemM.clock provider
  simp only [bind_apply, get_apply, demand_apply]
  -- it is over at once if there is no provider, or no clock, or the provider is shut down
  cases w.system.providers.get? P with
  | none => exact .inr ⟨_, _, .refl _, rfl, rfl⟩
  | some p =>
    dsimp only
    cases hdown : p.isShutDown with
    | true =>
      let entry := LogEntry.warning "Can't collect metrics, provider is shut down"
      exact .inr ⟨.ok [], { w.system with log := w.system.log ++ [entry] }, .of_eq rfl rfl rfl, rfl,
        rfl⟩
    | false =>
      simp only [Bool.false_eq_true, if_false, bind_apply, get_apply, demand_apply, pure_apply]
      cases hc : w.system.clocks.get? p.clock with
      | none => exact .inr ⟨_, _, .refl _, rfl, rfl⟩
      | some c => exact .inl ⟨p, c.now, rfl, by simp [hc], rfl, rfl⟩

theorem step_collect_of_some (hx : w.sweeps k = some x) (perform : σ → SystemM σ Unit)
    (P : Ref .provider) :
    w.step perform P (.collect k) = match x.advance perform P w.system with
      | (.ok (.inl (y, visit)), s) =>
        { w with
          system := s
          sweeps := Function.update w.sweeps k (some y)
          visits := w.visits ++ visit.toList }
      | (.ok (.inr metrics), s) => w.answer k (.ok metrics) s
      | (.error f, s) => w.answer k (.error f) s := by
  unfold step
  simp only [hx]

/-- A collection goes on to the end of the instruments that it has before it. -/
theorem ends_instruments {perform : σ → SystemM σ Unit} {P : Ref .provider}
    {ms : List (Ref .meter)}
    (hnext : ∀ (w : Readers σ) (x : Sweep), w.sweeps k = some x → x.meters = some ms →
      x.instruments = [] → w.Ends perform P k (x.rest perform ms w.system))
    (rs : List (Ref .instrument)) (w : Readers σ) (x : Sweep) (hx : w.sweeps k = some x)
    (hms : x.meters = some ms) (hrs : x.instruments = rs) :
    w.Ends perform P k (x.rest perform ms w.system) := by
  induction rs generalizing w x with
  | nil => exact hnext w x hx hms hrs
  | cons r rs ih =>
    have hstep := step_collect_of_some hx perform P
    unfold Sweep.advance at hstep
    rw [hrs] at hstep
    simp only [bind_apply, pure_apply] at hstep
    rw [x.rest_instrument perform hrs]
    rcases hc : collectInstrument perform r (some x.moment.time) w.system with ⟨f | metrics, s⟩ <;>
      rw [hc] at hstep
    · exact .of_answer hstep
    · exact .of_step hstep rfl rfl (ih _ _ (Function.update_self ..) hms rfl)

/-- A collection that has its snapshot of the meters goes on to its end. -/
theorem ends_rest (perform : σ → SystemM σ Unit) (P : Ref .provider) (ms : List (Ref .meter))
    (w : Readers σ) (x : Sweep) (hx : w.sweeps k = some x) (hms : x.meters = some ms) :
    w.Ends perform P k (x.rest perform ms w.system) := by
  induction ms generalizing w x with
  | nil =>
    refine ends_instruments (fun w x hx hms hrs => ?_) x.instruments w x hx hms rfl
    have hstep := step_collect_of_some hx perform P
    unfold Sweep.advance at hstep
    rw [hrs, hms] at hstep
    rw [x.rest_nil perform hrs]
    exact .of_answer hstep
  | cons m ms ih =>
    refine ends_instruments (fun w x hx hms hrs => ?_) x.instruments w x hx hms rfl
    have hstep := step_collect_of_some hx perform P
    unfold Sweep.advance at hstep
    rw [hrs, hms] at hstep
    simp only [bind_apply, pure_apply] at hstep
    rw [x.rest_meter perform hrs]
    rcases hm : SystemM.meter m w.system with ⟨f | y, s⟩ <;> rw [hm] at hstep
    · exact .of_answer hstep
    · refine .of_step hstep ?_ rfl (ih _ _ (Function.update_self ..) rfl)
      rfl

/-- A collection that has just read the clock goes on to its end. -/
theorem ends_begun (perform : σ → SystemM σ Unit) {P : Ref .provider} {p : Provider}
    (moment : Moment) (hp : w.system.providers.get? P = some p)
    (hx : w.sweeps k = some { moment := moment }) : w.Ends perform P k
      (collectMeters perform (some moment.time) p.meters.values w.system) := by
  have hstep := step_collect_of_some hx perform P
  unfold Sweep.advance provider at hstep
  simp only [bind_apply, get_apply, demand_apply, hp, pure_apply] at hstep
  have hrest := Sweep.rest_begun perform moment (some p.meters.values) p.meters.values
  rw [← hrest]
  exact .of_step hstep rfl rfl (ends_rest perform P _ _ _ (Function.update_self ..) rfl)

/-- **A collection that is left alone** does what `collectProvider` does. -/
theorem collect_alone (perform : σ → SystemM σ Unit) (P : Ref .provider) (w : Readers σ) (k : Nat)
    (hk : w.sweeps k = none) : w.Ends perform P k (collectProvider perform P w.system) := by
  obtain ⟨p, time, hp, -, hbegin, hcollect⟩ | ⟨result, s, -, hbegin, hcollect⟩ :=
    step_collect_of_none hk perform P
  case inr =>
    rw [hcollect]
    exact .of_answer hbegin
  rw [hcollect]
  refine .of_step hbegin rfl rfl (ends_begun perform ⟨w.past.length, time⟩ ?_ ?_)
  · exact hp
  · exact Function.update_self ..

end Readers

/-! ### What a step can do -/

theorem Clock.now_le_advance (c : Clock) (nanos : Nat) : c.now ≤ (c.advance nanos).now := by
  cases c with
  | manual time => exact Int.le_add_of_nonneg_right (Int.natCast_nonneg nanos)
  | system => exact le_rfl

namespace System

variable {s s' : System σ} {P : Ref .provider}

theorem timeOf?_of_get? {p : Provider} {c : Clock} (hp : s.providers.get? P = some p)
    (hc : s.clocks.get? p.clock = some c) : s.timeOf? P = some c.now := by
  unfold timeOf?
  rw [hp, Option.map_some, Option.bind_some, hc]
  rfl

theorem exists_of_timeOf? {time : Int} (h : s.timeOf? P = some time) :
    ∃ p c, s.providers.get? P = some p ∧ s.clocks.get? p.clock = some c ∧ c.now = time := by
  obtain ⟨r, hr, htime⟩ := Option.bind_eq_some_iff.mp h
  obtain ⟨p, hp, rfl⟩ := Option.map_eq_some_iff.mp hr
  obtain ⟨c, hc, htime⟩ := Option.map_eq_some_iff.mp htime
  exact ⟨p, c, hp, hc, htime⟩

theorem SameClocks.timeOf? (h : s.SameClocks s') (P : Ref .provider) :
    s'.timeOf? P = s.timeOf? P := by
  unfold System.timeOf?
  rw [h.clocks, h.clock]

/-- The windows have the same spans, and the clock of a provider has not run backwards. -/
structure Passes (s : System σ) (P : Ref .provider) (s' : System σ) : Prop where
  span : ∀ r, s'.spanAt r = s.spanAt r
  clock : ∀ time ∈ s'.timeOf? P, ∃ earlier ∈ s.timeOf? P, earlier ≤ time

theorem SameSpans.passes (h : s.SameSpans s') (P : Ref .provider) : s.Passes P s' :=
  ⟨h.span, fun time ht => ⟨time, h.timeOf? P ▸ ht, le_rfl⟩⟩

/-- Time passes. -/
theorem passes_advance (s : System σ) (P : Ref .provider) (nanos : Nat) :
    s.Passes P
      ((do moveClock (← provider P).clock (Clock.advance nanos) : SystemM σ Unit) s).2 := by
  unfold provider moveClock SystemM.clock
  simp only [bind_apply, get_apply, demand_apply]
  cases hp : s.providers.get? P with
  | none => exact (SameSpans.refl s).passes P
  | some p =>
    dsimp only
    cases hc : s.clocks.get? p.clock with
    | none => exact (SameSpans.refl s).passes P
    | some c =>
      refine ⟨fun _ => rfl, fun time ht => ⟨c.now, timeOf?_of_get? hp hc, ?_⟩⟩
      let s' := { s with clocks := s.clocks.set p.clock (c.advance nanos) }
      have htime : s'.timeOf? P = some (c.advance nanos).now :=
        timeOf?_of_get? hp (Table.get?_set_self _ hc)
      obtain rfl := Option.some.inj (htime.symm.trans ht)
      exact c.now_le_advance nanos

end System

namespace Readers

variable {w : Readers σ} {P : Ref .provider} {k : Nat} {x : Sweep}

/-- The collections that go on are at the moments at which they have begun. -/
def GoOn (w : Readers σ) (sweeps : Nat → Option Sweep) : Prop :=
  ∀ k, ∀ y ∈ sweeps k, ∃ x ∈ w.sweeps k, y.moment = x.moment

/-- What the readers can be after something was done. -/
inductive Becomes (P : Ref .provider) (w : Readers σ) : ReaderEvent σ → Readers σ → Prop where
  /-- No window begins or ends, and the clock is not read for one. -/
  | same {e : ReaderEvent σ} {s : System σ} {sweeps : Nat → Option Sweep}
      {answers : List (Nat × Except Failure (List Metric))} (hs : w.system.Passes P s)
      (hsweeps : w.GoOn sweeps) :
      Becomes P w e { w with system := s, sweeps := sweeps, answers := answers }
  /-- A collection begins. -/
  | begins {k : Nat} {time : Int} (hk : w.sweeps k = none)
      (ht : w.system.timeOf? P = some time) :
      Becomes P w (.collect k) { w with
        past := w.past ++ [time]
        sweeps := Function.update w.sweeps k (some { moment := ⟨w.past.length, time⟩ }) }
  /-- An instrument is born, perhaps. -/
  | births {m : Ref .meter} {q : InstrumentRequest σ} {time : Int} {s : System σ}
      (ht : w.system.timeOf? P = some time) (hs : w.system.Founds time s) :
      Becomes P w (.create m q) { w with
        system := s
        past := w.past ++ [time]
        births := fun r => (w.births r).or ((s.spanAt r).map fun _ => ⟨w.past.length, time⟩) }
  /-- A collection visits an instrument. -/
  | visits {k : Nat} {s : System σ} {sweeps : Nat → Option Sweep} {x : Sweep} {v : Visit}
      (hx : w.sweeps k = some x) (hmoment : v.moment = x.moment)
      (hs : w.system.Visited v.instrument v.moment.time (.ok v.metrics) s)
      (hsweeps : w.GoOn sweeps) :
      Becomes P w (.collect k) { w with
        system := s
        sweeps := sweeps
        visits := w.visits ++ [v] }

theorem GoOn.refl (w : Readers σ) : w.GoOn w.sweeps := fun _ y hy => ⟨y, hy, rfl⟩

/-- Once a reader has another collection, or none, the collections are this one and those of the
other readers. -/
theorem mem_update {sweeps : Nat → Option Sweep} {j : Nat} {o : Option Sweep} {y : Sweep}
    (h : y ∈ Function.update sweeps k o j) : j = k ∧ y ∈ o ∨ y ∈ sweeps j := by
  rw [Function.update_apply] at h
  split at h
  · next hj => exact Or.inl ⟨hj, h⟩
  · exact Or.inr h

theorem goOn_update (hx : w.sweeps k = some x) {y : Sweep} (hy : y.moment = x.moment) :
    w.GoOn (Function.update w.sweeps k (some y)) := by
  intro j z hz
  rcases mem_update hz with ⟨rfl, hzy⟩ | hz
  · obtain rfl := Option.some.inj hzy
    exact ⟨x, hx, hy⟩
  · exact ⟨z, hz, rfl⟩

theorem goOn_finish (w : Readers σ) (k : Nat) : w.GoOn (Function.update w.sweeps k none) := by
  intro j z hz
  rcases mem_update hz with ⟨-, hz⟩ | hz
  · cases hz
  · exact ⟨z, hz, rfl⟩

theorem becomes_after {α : Type} {x : SystemM σ α} (hx : Keeps w.system.SameSpans x)
    (P : Ref .provider) (e : ReaderEvent σ) : Becomes P w e (w.after x) :=
  .same ((hx w.system (.refl _)).passes P) (.refl w)

theorem becomes_answer {s : System σ} (hs : w.system.SameSpans s) (P : Ref .provider) (k : Nat)
    (result : Except Failure (List Metric)) (e : ReaderEvent σ) :
    Becomes P w e (w.answer k result s) := .same (hs.passes P) (w.goOn_finish k)

theorem becomes_create (perform : σ → SystemM σ Unit) (m : Ref .meter) (q : InstrumentRequest σ) :
    Becomes P w (.create m q) (w.step perform P (.create m q)) := by
  have hsame : Becomes P w (.create m q) w := .same ((System.SameSpans.refl _).passes P) (.refl w)
  unfold step
  dsimp only
  cases ht : w.system.timeOf? P with
  | none => exact hsame
  | some time =>
    dsimp only
    split
    case isFalse => exact hsame
    case isTrue hm =>
      obtain ⟨y, hy, rfl⟩ := Option.map_eq_some_iff.mp hm
      obtain ⟨p, c, hp, hc, rfl⟩ := System.exists_of_timeOf? ht
      exact .births ht (requestInstrument_founds hy hp hc q)

/-- A collection that is under way looks at the system, visits an instrument, or is over. -/
theorem becomes_advance [IsEmpty σ] (hx : w.sweeps k = some x) (perform : σ → SystemM σ Unit) :
    Becomes P w (.collect k) (w.step perform P (.collect k)) := by
  have hrefl : w.system.SameSpans w.system := .refl _
  have hlooked : ∀ y : Sweep, y.moment = x.moment → Becomes P w (.collect k) { w with
      sweeps := Function.update w.sweeps k (some y)
      visits := w.visits ++ [] } := by
    intro y hy
    rw [List.append_nil]
    exact .same (hrefl.passes P) (goOn_update hx hy)
  rw [step_collect_of_some hx]
  unfold Sweep.advance
  rcases hi : x.instruments with _ | ⟨r, rest⟩
  case cons =>
    simp only [bind_apply, pure_apply]
    have hvisited := collectInstrument_visits perform r x.moment.time w.system
    rcases hc : collectInstrument perform r (some x.moment.time) w.system with ⟨f | metrics, s⟩ <;>
      rw [hc] at hvisited
    · exact becomes_answer hvisited.sameSpans_of_error P k _ _
    · exact .visits (v := ⟨r, x.moment, metrics⟩) hx rfl hvisited (goOn_update hx rfl)
  case nil =>
    rcases hm : x.meters with _ | ⟨_ | ⟨m, rest⟩⟩
    · unfold provider
      simp only [bind_apply, get_apply, demand_apply]
      cases w.system.providers.get? P with
      | none => exact becomes_answer hrefl P k _ _
      | some p => exact hlooked _ rfl
    · exact becomes_answer hrefl P k _ _
    · unfold SystemM.meter
      simp only [bind_apply, get_apply, demand_apply]
      cases w.system.meters.get? m with
      | none => exact becomes_answer hrefl P k _ _
      | some y => exact hlooked _ rfl

/-- **A step.** -/
theorem becomes_step [IsEmpty σ] (perform : σ → SystemM σ Unit) (P : Ref .provider)
    (w : Readers σ) (e : ReaderEvent σ) : Becomes P w e (w.step perform P e) := by
  have huses := System.SameSpans.ofUses w.system
  cases e with
  | pass nanos => exact .same (w.system.passes_advance P nanos) (.refl w)
  | collect k =>
    cases hk : w.sweeps k with
    | some x => exact becomes_advance hk perform
    | none =>
      obtain ⟨p, time, -, ht, hstep, -⟩ | ⟨result, s, hs, hstep, -⟩ :=
        step_collect_of_none hk perform P
      · rw [hstep]
        exact .begins hk ht
      · rw [hstep]
        exact becomes_answer hs P k result _
  | create m q => exact becomes_create perform m q
  | meter name version => exact becomes_after (System.SameSpans.requestMeter P name version) P _
  | record r value labels => exact becomes_after (huses.recordInstrument r value labels) P _
  | batch labels measurements => exact becomes_after (huses.recordBatch labels measurements) P _
  | bind r labels => exact becomes_after (huses.bindHandle r labels) P _
  | recordOn q value => exact becomes_after (huses.recordHandle q value) P _
  | release q => exact becomes_after (huses.releaseHandle q) P _

end Readers

end Metering
