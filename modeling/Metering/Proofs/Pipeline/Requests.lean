import Metering.Proofs.OrderedMap
import Metering.Proofs.Pipeline.Portraits
import Metering.System.Provider

/-!
# What a meter makes of requests

A `Register` is all that a meter goes by when it is asked for instruments: what it has under each
name, how views configure new instruments, and whether these discard.  It is a machine of its own,
whose events are requests, views, and the end of the provider.

`Registration` says what asking a meter for an instrument comes to, and `System.Registered` that one
system has come about from another with such events in between.  `System.Follows.after` is the main
statement: a meter that follows a register goes on following it.
-/

namespace Metering

variable {σ : Type}

/-! ### Registers -/

/-- What an instrument is to its meter: what it was asked for as, and how it aggregates unless it
discards. -/
structure Entry where
  descriptor : Descriptor
  configuration : Option Configuration

/-- How a provider stands to new instruments: how its views configure them, and whether they
discard. -/
structure Stance where
  configure : Descriptor → Configuration
  isIdle : Bool

/-- What a meter goes by when it is asked for instruments.  Its names are in the order in which
their instruments are collected. -/
structure Register extends Stance where
  entries : OrderedMap String Entry

/-- What may change a register. -/
inductive RegisterEvent (σ : Type) where
  | request (q : InstrumentRequest σ)
  | view (v : View)
  | stop

namespace Stance

/-- One more view configures the instruments that it selects. -/
def view (a : Stance) (v : View) : Stance :=
  { a with configure := fun d => if v.selector.selects d then v.configuration else a.configure d }

/-- From now on new instruments discard. -/
def stop (a : Stance) : Stance := { a with isIdle := true }

/-- What a new instrument is. -/
def entry (a : Stance) (d : Descriptor) : Entry :=
  ⟨d, if a.isIdle then none else some (a.configure d)⟩

/-- What may become of how a provider stands to new instruments. -/
inductive Turns (a : Stance) : Stance → Prop
  | same : a.Turns a
  | view (v : View) : a.Turns (a.view v)
  | stop : a.Turns a.stop

end Stance

/-- What the event asks for, if that makes an instrument. -/
def RegisterEvent.descriptor? : RegisterEvent σ → Option Descriptor
  | .request q => q.descriptor.toOption
  | .view _ => none
  | .stop => none

/-- What was asked for last under a name. -/
def lastRequested (name : String) (events : List (RegisterEvent σ)) : Option Descriptor :=
  ((events.filterMap RegisterEvent.descriptor?).filter (·.name = name)).getLast?

theorem lastRequested_append (name : String) (events others : List (RegisterEvent σ)) :
    lastRequested name (events ++ others)
      = (lastRequested name others).or (lastRequested name events) := by
  unfold lastRequested
  rw [List.filterMap_append, List.filter_append, List.getLast?_append]

namespace Register

/-- What the instrument was asked for as that has a name. -/
def descriptor? (R : Register) (name : String) : Option Descriptor :=
  (R.entries.get? name).map Entry.descriptor

/-- Asking for what has the name changes nothing.  Anything else takes the place of the name. -/
def request (R : Register) (d : Descriptor) : Register :=
  if R.descriptor? d.name = some d then R
  else { R with entries := R.entries.insert d.name (R.entry d) }

/-- The register after an event. -/
def step (R : Register) : RegisterEvent σ → Register
  | .request q =>
    match q.descriptor with
    | .ok d => R.request d
    | .error _ => R
  | .view v => { R with toStance := R.toStance.view v }
  | .stop => { R with toStance := R.toStance.stop }

/-- The register after several events. -/
def after (R : Register) (events : List (RegisterEvent σ)) : Register := events.foldl step R

variable {R : Register}

theorem after_append (R : Register) (events others : List (RegisterEvent σ)) :
    R.after (events ++ others) = (R.after events).after others := List.foldl_append

theorem descriptor?_request (d : Descriptor) (name : String) :
    (R.request d).descriptor? name = if d.name = name then some d else R.descriptor? name := by
  unfold request
  split
  · next h =>
    split
    · next hname => rw [← hname, h]
    · rfl
  · unfold descriptor?
    rw [OrderedMap.get?_insert]
    by_cases hname : d.name = name
    · rw [if_pos hname, if_pos hname.symm]
      rfl
    · rw [if_neg hname, if_neg (Ne.symm hname)]

theorem step_valid {q : InstrumentRequest σ} {d : Descriptor} (hq : q.descriptor = .ok d) :
    R.step (.request q) = R.request d := by
  unfold step
  dsimp only
  rw [hq]

theorem step_invalid {q : InstrumentRequest σ} {e : DescriptorError}
    (hq : q.descriptor = .error e) : R.step (.request q) = R := by
  unfold step
  dsimp only
  rw [hq]

theorem descriptor?_step (e : RegisterEvent σ) (name : String) :
    (R.step e).descriptor? name = (lastRequested name [e]).or (R.descriptor? name) := by
  cases e with
  | request q =>
    unfold lastRequested RegisterEvent.descriptor?
    cases hq : q.descriptor with
    | ok d =>
      rw [step_valid hq, descriptor?_request]
      by_cases hname : d.name = name <;> simp [hname, hq, Except.toOption]
    | error e =>
      rw [step_invalid hq]
      simp [hq, Except.toOption]
  | view v => rfl
  | stop => rfl

/-- **A name stands for** what was asked for last under it. -/
theorem descriptor?_after (events : List (RegisterEvent σ)) (name : String) :
    (R.after events).descriptor? name
      = (lastRequested name events).or (R.descriptor? name) := by
  induction events using List.reverseRecOn with
  | nil => rfl
  | append_singleton events e ih =>
    rw [after_append]
    show ((R.after events).step e).descriptor? name = _
    rw [descriptor?_step, ih, ← Option.or_assoc, lastRequested_append]

end Register

/-! ### Meters -/

/-- What the instrument is to its meter. -/
def Instrument.entry (i : Instrument σ) : Entry :=
  ⟨i.descriptor, i.processor.map fun p => ⟨p.stream.aggregation, p.stream.temporality⟩⟩

/-- Whatever is done to an instrument, it stays what it is to its meter. -/
theorem Instrument.entry_of_design {i i' : Instrument σ} (h : i'.design = i.design) :
    i'.entry = i.entry := by
  have hentry : ∀ j : Instrument σ, j.design.entry = j.entry := by
    intro j
    unfold entry design
    cases j.processor <;> rfl
  rw [← hentry, h, hentry]

/-- How the provider stands to new instruments. -/
def Provider.stance (x : Provider) : Stance := ⟨x.chooser.choose, x.disabled || x.isShutDown⟩

namespace Provider

theorem stance_addView (x : Provider) (v : View) :
    ({ x with chooser := x.chooser.add v } : Provider).stance = x.stance.view v := by
  refine congrArg (Stance.mk · _) (funext fun d => ?_)
  show (x.chooser.add v).choose d = if _ then _ else x.chooser.choose d
  unfold Chooser.choose
  rw [Chooser.view?_add]
  cases v.selector.selects d <;> rfl

theorem stance_shutDown (x : Provider) :
    ({ x with isShutDown := true } : Provider).stance = x.stance.stop :=
  congrArg (Stance.mk _) (Bool.or_true _)

end Provider

namespace System

variable {s s' s'' : System σ} {m : Ref .meter} {R : Register}

/-- The instrument that has a name of a meter. -/
def current? (s : System σ) (m : Ref .meter) (name : String) : Option (Ref .instrument) :=
  (s.meters.get? m).bind fun y => y.instruments.get? name

/-- What an instrument is to its meter. -/
def entry? (s : System σ) (r : Ref .instrument) : Option Entry :=
  (s.instruments.get? r).map Instrument.entry

/-- What the instrument was asked for as that has a name of a meter. -/
def described? (s : System σ) (m : Ref .meter) (name : String) : Option Descriptor :=
  (s.current? m name).bind fun r => (s.entry? r).map Entry.descriptor

/-- How the provider of a meter stands to new instruments. -/
def stance? (s : System σ) (m : Ref .meter) : Option Stance :=
  (s.meters.get? m).bind fun y => (s.providers.get? y.provider).map Provider.stance

theorem current?_of_get? {y : Meter} (hy : s.meters.get? m = some y) (name : String) :
    s.current? m name = y.instruments.get? name := by
  unfold current?
  rw [hy, Option.bind_some]

theorem stance?_of_get? {y : Meter} {x : Provider} (hy : s.meters.get? m = some y)
    (hx : s.providers.get? y.provider = some x) : s.stance? m = some x.stance := by
  unfold stance?
  rw [hy, Option.bind_some, hx]
  rfl

theorem described?_of_get? {name : String} {r : Ref .instrument} {i : Instrument σ}
    (hr : s.current? m name = some r) (hi : s.instruments.get? r = some i) :
    s.described? m name = some i.descriptor := by
  unfold described? entry?
  rw [hr, Option.bind_some, hi]
  rfl

theorem Retains.entry? (h : s.Retains s') {r : Ref .instrument} {e : Entry}
    (he : s.entry? r = some e) : s'.entry? r = some e := by
  obtain ⟨i, hi, rfl⟩ := Option.map_eq_some_iff.mp he
  obtain ⟨i', hi', hdesign⟩ := h r i hi
  unfold System.entry?
  rw [hi', Option.map_some, Instrument.entry_of_design hdesign]

/-- A new instrument of a meter, under a name that it may take over from another one. -/
structure Enlists (s s' : System σ) (m : Ref .meter) (y : Meter) (a : Stance) (d : Descriptor)
    (callback : Option (Callback σ)) (i : Instrument σ) : Prop where
  instruments : s'.instruments = s.instruments.add i
  meters : s'.meters = s.meters.set m
    { y with instruments := y.instruments.insert d.name s.instruments.next }
  providers : s'.providers = s.providers
  others : ∀ r, r ≠ s.instruments.next → s'.portrait? r = s.portrait? r
  entry : i.entry = a.entry d
  callback : i.callback = callback
  empty : i.contents s'.pool = ⟨OrderedMap.empty, OrderedMap.empty⟩

theorem Enlists.current? {y : Meter} {a : Stance} {d : Descriptor}
    {callback : Option (Callback σ)} {i : Instrument σ} (h : s.Enlists s' m y a d callback i)
    (hy : s.meters.get? m = some y) (m' : Ref .meter) (name : String) :
    s'.current? m' name
      = if m' = m ∧ name = d.name then some s.instruments.next else s.current? m' name := by
  unfold System.current?
  rw [h.meters, Table.get?_set _ hy]
  by_cases hm : m' = m
  · rw [if_pos hm, hm, hy, Option.bind_some, Option.bind_some]
    dsimp only
    rw [OrderedMap.get?_insert]
    simp only [true_and]
  · rw [if_neg hm, if_neg fun hand => hm hand.1]

/-- What was logged before does not matter. -/
theorem Enlists.of_logged {m : Ref .meter} {y : Meter} {a : Stance} {d : Descriptor}
    {callback : Option (Callback σ)} {i : Instrument σ} {log : List LogEntry}
    (h : Enlists { s with log := log } s' m y a d callback i) :
    s.Enlists s' m y a d callback i :=
  ⟨h.instruments, h.meters, h.providers, h.others, h.entry, h.callback, h.empty⟩

end System

/-- What asking a meter for an instrument comes to. -/
inductive Registration (s : System σ) (m : Ref .meter) (q : InstrumentRequest σ) :
    Except Failure (Ref .instrument) × System σ → Prop
  /-- What is asked for makes no instrument. -/
  | refused {e : DescriptorError} (invalid : q.descriptor = .error e) :
      Registration s m q (.error (.descriptor e), s)
  /-- The instrument that has the name is what is asked for.  It is called back from now on as the
  request says, if that says so. -/
  | again {d : Descriptor} {r : Ref .instrument} {i : Instrument σ}
      (valid : q.descriptor = .ok d) (current : s.current? m d.name = some r)
      (there : s.instruments.get? r = some i) (same : i.descriptor = d) :
      Registration s m q (.ok r, if q.callback.isSome then
        { s with instruments := s.instruments.set r { i with callback := q.callback } } else s)
  /-- No instrument has the name, or another one. -/
  | made {d : Descriptor} {y : Meter} {a : Stance} {i : Instrument σ} {s' : System σ}
      (valid : q.descriptor = .ok d) (other : s.described? m d.name ≠ some d)
      (meter : s.meters.get? m = some y) (stance : s.stance? m = some a)
      (enlists : s.Enlists s' m y a d q.callback i) :
      Registration s m q (.ok s.instruments.next, s')

namespace Registration

variable {s : System σ} {m : Ref .meter} {q : InstrumentRequest σ} {d : Descriptor}
  {outcome : Except Failure (Ref .instrument) × System σ}

/-- Asking for what has the name gives it. -/
theorem of_described (h : Registration s m q outcome) (hq : q.descriptor = .ok d)
    (hsame : s.described? m d.name = some d) :
    ∃ r, s.current? m d.name = some r ∧ outcome.1 = .ok r := by
  cases h with
  | refused invalid =>
    rw [hq] at invalid
    cases invalid
  | @again _ r _ valid current =>
    obtain rfl := Except.ok.inj (hq.symm.trans valid)
    exact ⟨r, current, rfl⟩
  | made valid other =>
    obtain rfl := Except.ok.inj (hq.symm.trans valid)
    exact absurd hsame other

/-- Asking for anything else makes it. -/
theorem of_other (h : Registration s m q outcome) (hq : q.descriptor = .ok d)
    (hother : s.described? m d.name ≠ some d) :
    outcome.1 = .ok s.instruments.next ∧ ∃ y a i, s.meters.get? m = some y ∧
      s.Enlists outcome.2 m y a d q.callback i := by
  cases h with
  | refused invalid =>
    rw [hq] at invalid
    cases invalid
  | again valid current there same =>
    obtain rfl := Except.ok.inj (hq.symm.trans valid)
    have hdescribed := System.described?_of_get? current there
    rw [same] at hdescribed
    exact absurd hdescribed hother
  | @made _ y a i _ valid _ meter _ enlists =>
    obtain rfl := Except.ok.inj (hq.symm.trans valid)
    exact ⟨rfl, y, a, i, meter, enlists⟩

end Registration

/-- One system has come about from another one, with some events for a meter in between. -/
inductive System.Registered (m : Ref .meter) :
    System σ → List (RegisterEvent σ) → System σ → Prop
  /-- The meter is not concerned. -/
  | aside {s s' : System σ} (meter : s'.meters.get? m = s.meters.get? m) (retains : s.Retains s')
      (stance : s'.stance? m = s.stance? m) : Registered m s [] s'
  | viewed {s s' : System σ} (v : View) {a : Stance}
      (meter : s'.meters.get? m = s.meters.get? m) (retains : s.Retains s')
      (before : s.stance? m = some a) (after : s'.stance? m = some (a.view v)) :
      Registered m s [.view v] s'
  | stopped {s s' : System σ} {a : Stance}
      (meter : s'.meters.get? m = s.meters.get? m) (retains : s.Retains s')
      (before : s.stance? m = some a) (after : s'.stance? m = some a.stop) :
      Registered m s [.stop] s'
  | requested {s : System σ} {q : InstrumentRequest σ}
      {outcome : Except Failure (Ref .instrument) × System σ} (h : Registration s m q outcome) :
      Registered m s [.request q] outcome.2
  | append {s s' s'' : System σ} {events others : List (RegisterEvent σ)}
      (h : Registered m s events s') (h' : Registered m s' others s'') :
      Registered m s (events ++ others) s''

namespace System

variable {s s' : System σ} {m : Ref .meter} {y : Meter} {a a' : Stance}

theorem registered_of_turn (hm : s'.meters.get? m = s.meters.get? m) (hr : s.Retains s')
    (ha : s.stance? m = some a) (ha' : s'.stance? m = some a') (h : a.Turns a') :
    ∃ events, Registered m s events s' := by
  cases h with
  | same => exact ⟨[], .aside hm hr (ha'.trans ha.symm)⟩
  | view v => exact ⟨_, .viewed v hm hr ha ha'⟩
  | stop => exact ⟨_, .stopped hm hr ha ha'⟩

/-- A meter stays where it is. -/
theorem Registered.exists_meter {events : List (RegisterEvent σ)} (h : Registered m s events s')
    (hy : s.meters.get? m = some y) :
    ∃ y', s'.meters.get? m = some y' ∧ y'.provider = y.provider := by
  induction h generalizing y with
  | aside meter => exact ⟨y, meter.trans hy, rfl⟩
  | viewed v meter => exact ⟨y, meter.trans hy, rfl⟩
  | stopped meter => exact ⟨y, meter.trans hy, rfl⟩
  | requested hq =>
    cases hq with
    | refused => exact ⟨y, hy, rfl⟩
    | again =>
      refine ⟨y, ?_, rfl⟩
      dsimp only
      split <;> exact hy
    | made valid other meter stance enlists =>
      obtain rfl := Option.some.inj (hy.symm.trans meter)
      dsimp only
      rw [enlists.meters]
      exact ⟨_, Table.get?_set_self _ hy, rfl⟩
  | append _ _ ih ih' =>
    obtain ⟨y', hy', hprovider⟩ := ih hy
    obtain ⟨y'', hy'', hprovider'⟩ := ih' hy'
    exact ⟨y'', hy'', hprovider'.trans hprovider⟩

end System

/-! ### Meters follow registers -/

namespace System

variable {s s' : System σ} {m : Ref .meter} {R : Register} {q : InstrumentRequest σ}

/-- The meter has the names of the register in their order, for instruments that are what it says,
and the provider stands to new ones as it says. -/
structure Follows (s : System σ) (m : Ref .meter) (R : Register) : Prop where
  entries : ∃ y, s.meters.get? m = some y ∧ y.instruments.map s.entry? = R.entries.map some
  stance : s.stance? m = some R.toStance

namespace Follows

theorem described? (h : s.Follows m R) (name : String) :
    s.described? m name = R.descriptor? name := by
  obtain ⟨y, hy, hentries⟩ := h.entries
  have hget := congrArg (OrderedMap.get? · name) hentries
  simp only [OrderedMap.get?_map] at hget
  unfold System.described? current? Register.descriptor?
  rw [hy, Option.bind_some]
  cases hr : y.instruments.get? name with
  | none =>
    rw [hr] at hget
    rw [Option.map_eq_none_iff.mp hget.symm]
    rfl
  | some r =>
    rw [hr] at hget
    obtain ⟨e, he, hsome⟩ := Option.map_eq_some_iff.mp hget.symm
    rw [he, Option.bind_some, ← hsome]

/-- An instrument of the meter is there. -/
theorem exists_entry (h : s.Follows m R) {y : Meter} (hy : s.meters.get? m = some y) {name : String}
    {r : Ref .instrument} (hr : y.instruments.get? name = some r) : ∃ e, s.entry? r = some e := by
  obtain ⟨y', hy', hentries⟩ := h.entries
  obtain rfl := Option.some.inj (hy.symm.trans hy')
  have hget := congrArg (OrderedMap.get? · name) hentries
  simp only [OrderedMap.get?_map, hr] at hget
  obtain ⟨e, -, hsome⟩ := Option.map_eq_some_iff.mp hget.symm
  exact ⟨e, hsome.symm⟩

/-- What only changes how the provider stands to new instruments. -/
theorem turn (h : s.Follows m R) (hr : s.Retains s') (hm : s'.meters.get? m = s.meters.get? m)
    {a : Stance} (ha : s'.stance? m = some a) : s'.Follows m { R with toStance := a } where
  entries := by
    obtain ⟨y, hy, hentries⟩ := h.entries
    refine ⟨y, hm.trans hy, ?_⟩
    show _ = R.entries.map some
    rw [← hentries]
    refine OrderedMap.map_congr fun name r hget => ?_
    obtain ⟨e, he⟩ := h.exists_entry hy hget
    rw [he, hr.entry? he]
  stance := ha

/-- **A request** does to the meter what it does to the register. -/
theorem request (h : s.Follows m R) {outcome : Except Failure (Ref .instrument) × System σ}
    (hq : Registration s m q outcome) : outcome.2.Follows m (R.step (.request q)) := by
  cases hq with
  | refused invalid =>
    rw [Register.step_invalid invalid]
    exact h
  | @again d r i valid current there same =>
    -- the register does nothing, and the meter at most changes a callback
    have hsame : R.descriptor? d.name = some d := by
      rw [← h.described?, System.described?_of_get? current there, same]
    rw [Register.step_valid valid]
    unfold Register.request
    rw [if_pos hsame]
    dsimp only
    split
    · have hretains : s.Retains
          { s with instruments := s.instruments.set r { i with callback := q.callback } } := by
        intro r' j hj
        rw [Table.get?_set _ there]
        split
        · next hr =>
          rw [hr, there] at hj
          obtain rfl := Option.some.inj hj
          exact ⟨_, rfl, rfl⟩
        · exact ⟨j, hj, rfl⟩
      exact h.turn hretains rfl h.stance
    · exact h
  | @made d y a i s' valid other meter stance enlists =>
    obtain rfl := Option.some.inj (stance.symm.trans h.stance)
    have hmeter : s'.meters.get? m = some
        { y with instruments := y.instruments.insert d.name s.instruments.next } := by
      rw [enlists.meters]
      exact Table.get?_set_self _ meter
    -- the name has another entry or none, in the register as in the meter
    rw [h.described?] at other
    rw [Register.step_valid valid]
    unfold Register.request
    rw [if_neg other]
    constructor
    case entries =>
      refine ⟨_, hmeter, ?_⟩
      obtain ⟨y', hy', hentries⟩ := h.entries
      obtain rfl := Option.some.inj (meter.symm.trans hy')
      -- the instruments that the meter had are what they were
      have hkept : y.instruments.map s'.entry? = y.instruments.map s.entry? := by
        refine OrderedMap.map_congr fun name r hget => ?_
        obtain ⟨e, he⟩ := h.exists_entry meter hget
        obtain ⟨j, hj, rfl⟩ := Option.map_eq_some_iff.mp he
        rw [he]
        unfold System.entry?
        rw [enlists.instruments, Table.get?_add_of_some _ hj]
        rfl
      have hnew : s'.entry? s.instruments.next = some (R.toStance.entry d) := by
        unfold System.entry?
        rw [enlists.instruments, Table.get?_add_next, Option.map_some, enlists.entry]
      dsimp only
      rw [OrderedMap.map_insert, OrderedMap.map_insert, hkept, hnew, hentries]
    case stance =>
      have hstance := h.stance
      unfold System.stance? at hstance ⊢
      rw [meter] at hstance
      rw [hmeter, enlists.providers]
      exact hstance

/-- **A meter that follows a register** goes on following it. -/
theorem after (h : s.Follows m R) {events : List (RegisterEvent σ)}
    (he : Registered m s events s') : s'.Follows m (R.after events) := by
  -- on how the system has come about, since that is how the events are put together
  induction he generalizing R with
  | aside meter retains stance => exact h.turn retains meter (stance.trans h.stance)
  | viewed v meter retains before after =>
    obtain rfl := Option.some.inj (before.symm.trans h.stance)
    exact h.turn retains meter after
  | stopped meter retains before after =>
    obtain rfl := Option.some.inj (before.symm.trans h.stance)
    exact h.turn retains meter after
  | requested hq => exact h.request hq
  | append _ _ ih ih' =>
    rw [Register.after_append]
    exact ih' (ih h)

end Follows

end System

end Metering
