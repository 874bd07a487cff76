import Metering.Proofs.Instruments.Climbing
import Metering.Proofs.Pipeline.Actions
import Metering.Proofs.Pipeline.Requests

/-!
# How systems evolve

Whatever a program does, some things about its system only ever change in one direction.
`System.Evolves` collects them:

* instruments keep their designs (`System.Retains`);
* what an instrument was stands in some relation to what it is (`System.LastsAt`);
* an instrument that has a name of a meter has had it all along or is new (`System.NeverReturns`),
  so an instrument that has been replaced never gets its place back;
* what becomes of a meter and of how its provider stands to new instruments comes from requests,
  views and the end of the provider (`System.Registered`).

The relation must hold of whatever keeps its processor and its window (`Portrait.Lasting`).  Of two
such relations one bears collections: windows that never end keep their starts, and climb if they
accrue (`Portrait.Climbs`).  The other one is for what collects nothing: it leaves processors and
windows as they are (`Portrait.Rests`).
-/

namespace Metering

open Fallible SystemM

variable {σ : Type}

/-! ### Portraits that last -/

/-- A relation of what an instrument was to what it is, which holds as long as the instrument keeps
its processor and what is in its window. -/
class Portrait.Lasting (R : Portrait σ → Portrait σ → Prop) : Prop where
  of_window : ∀ {P P' : Portrait σ}, P'.instrument.processor = P.instrument.processor →
    P'.contents.window = P.contents.window → R P P'
  trans : ∀ {P P' P'' : Portrait σ}, R P P' → R P' P'' → R P P''

/-- The instrument has kept its processor and what is in its window. -/
structure Portrait.Rests (P P' : Portrait σ) : Prop where
  processor : P'.instrument.processor = P.instrument.processor
  window : P'.contents.window = P.contents.window

instance : Portrait.Lasting (Portrait.Rests (σ := σ)) where
  of_window hp hw := ⟨hp, hw⟩
  trans h h' := ⟨h'.processor.trans h.processor, h'.window.trans h.window⟩

/-- If its window never ends the instrument has kept its start, and the window has climbed if it
accrues. -/
def Portrait.Climbs (P P' : Portrait σ) : Prop :=
  ∀ p, P.instrument.processor = some p → p.stream.temporality = .cumulative →
    ∃ p', P'.instrument.processor = some p' ∧ p.stream.Continues p'.stream ∧
      p'.stream.start = p.stream.start ∧
      (p.stream.Accrues → P.contents.window.Climbs P'.contents.window)

namespace Portrait.Climbs

variable {P P' P'' : Portrait σ}

theorem of_window (hp : P'.instrument.processor = P.instrument.processor)
    (hw : P'.contents.window = P.contents.window) : P.Climbs P' := by
  intro p hprocessor _
  exact ⟨p, hp.trans hprocessor, rfl, rfl, fun _ => hw ▸ .refl _⟩

theorem trans (h : P.Climbs P') (h' : P'.Climbs P'') : P.Climbs P'' := by
  intro p hp ht
  obtain ⟨p', hp', hcontinues, hstart, hw⟩ := h p hp ht
  obtain ⟨p'', hp'', hcontinues', hstart', hw'⟩ := h' p' hp' (hcontinues.temporality.trans ht)
  refine ⟨p'', hp'', hcontinues.trans hcontinues', hstart'.trans hstart, fun haccrues => ?_⟩
  exact (hw haccrues).trans (hw' (hcontinues.accrues.mpr haccrues))

end Portrait.Climbs

instance : Portrait.Lasting (Portrait.Climbs (σ := σ)) := ⟨.of_window, .trans⟩

namespace System

variable {R : Portrait σ → Portrait σ → Prop} [Portrait.Lasting R] {s s' s'' : System σ}
  {r : Ref .instrument} {i : Instrument σ} {c : Contents}

/-- An instrument is there in another system, and what it was stands in the relation to what it is.
-/
def LastsAt (R : Portrait σ → Portrait σ → Prop) (s s' : System σ) (r : Ref .instrument) : Prop :=
  ∀ P, s.portrait? r = some P → ∃ P', s'.portrait? r = some P' ∧ R P P'

theorem lastsAt_of_eq (h : s'.portrait? r = s.portrait? r) : s.LastsAt R s' r :=
  fun P hP => ⟨P, h.trans hP, Portrait.Lasting.of_window rfl rfl⟩

theorem lastsAt_of_window (hi : s.instruments.get? r = some i) {P' : Portrait σ}
    (hP' : s'.portrait? r = some P') (hp : P'.instrument.processor = i.bare.processor)
    (hw : P'.contents.window = (i.contents s.pool).window) : s.LastsAt R s' r := by
  intro P hP
  obtain rfl := Option.some.inj ((portrait?_of_get? hi).symm.trans hP)
  exact ⟨P', hP', Portrait.Lasting.of_window hp hw⟩

theorem LastsAt.trans (h : s.LastsAt R s' r) (h' : s'.LastsAt R s'' r) : s.LastsAt R s'' r := by
  intro P hP
  obtain ⟨P', hP', hc⟩ := h P hP
  obtain ⟨P'', hP'', hc'⟩ := h' P' hP'
  exact ⟨P'', hP'', Portrait.Lasting.trans hc hc'⟩

/-! ### Names of instruments -/

/-- The instrument that has a name of a meter in another system had it before, or is new. -/
def NeverReturns (s s' : System σ) : Prop :=
  ∀ m name r, s'.current? m name = some r →
    s.current? m name = some r ∨ s.instruments.get? r = none

theorem neverReturns_of_eq (h : s'.meters = s.meters) : s.NeverReturns s' := by
  intro m name r hr
  unfold current? at hr
  rw [h] at hr
  exact Or.inl hr

/-- A system may have come about from another one, in such a way that a relation has lasted. -/
structure Evolves (R : Portrait σ → Portrait σ → Prop) (s s' : System σ) : Prop where
  retains : s.Retains s'
  lasts : ∀ r, s.LastsAt R s' r
  neverReturns : s.NeverReturns s'
  registered : ∀ m y, s.meters.get? m = some y → ∃ events, Registered m s events s'

theorem evolves_of_eq (hi : s'.instruments = s.instruments) (hm : s'.meters = s.meters)
    (hx : s'.providers = s.providers) (hp : ∀ r, s'.portrait? r = s.portrait? r) :
    s.Evolves R s' where
  retains := retains_of_eq hi
  lasts r := lastsAt_of_eq (hp r)
  neverReturns := neverReturns_of_eq hm
  registered m y _ := by
    refine ⟨[], .aside (by rw [hm]) (retains_of_eq hi) ?_⟩
    unfold stance?
    rw [hm, hx]

theorem Evolves.refl (s : System σ) : s.Evolves R s := evolves_of_eq rfl rfl rfl fun _ => rfl

theorem Evolves.trans (h : s.Evolves R s') (h' : s'.Evolves R s'') : s.Evolves R s'' where
  retains := h.retains.trans h'.retains
  lasts r := (h.lasts r).trans (h'.lasts r)
  neverReturns m name r hr := by
    obtain hr' | hnew := h'.neverReturns m name r hr
    · exact h.neverReturns m name r hr'
    -- what was not there later was not there before, since instruments are retained
    · refine Or.inr (Option.eq_none_iff_forall_ne_some.mpr fun i hi => ?_)
      obtain ⟨i', hi', -⟩ := h.retains r i hi
      rw [hnew] at hi'
      cases hi'
  registered m y hy := by
    obtain ⟨events, he⟩ := h.registered m y hy
    obtain ⟨y', hy', -⟩ := he.exists_meter hy
    obtain ⟨others, ho⟩ := h'.registered m y' hy'
    exact ⟨events ++ others, he.append ho⟩

/-- **A new instrument** of a meter. -/
theorem Enlists.evolves {m : Ref .meter} {y : Meter} {a : Stance} {d : Descriptor}
    {q : InstrumentRequest σ} (h : s.Enlists s' m y a d q.callback i) (hq : q.descriptor = .ok d)
    (hother : s.described? m d.name ≠ some d) (hy : s.meters.get? m = some y)
    (ha : s.stance? m = some a) : s.Evolves R s' := by
  have hretains : s.Retains s' := by
    intro r x hx
    refine ⟨x, ?_, rfl⟩
    rw [h.instruments]
    exact Table.get?_add_of_some _ hx
  constructor
  case retains => exact hretains
  case lasts =>
    intro r P hP
    -- an instrument that has a portrait is not the new one
    refine lastsAt_of_eq (h.others r ?_) P hP
    rintro rfl
    unfold portrait? at hP
    rw [Table.get?_next] at hP
    cases hP
  case neverReturns =>
    intro m' name r hr
    rw [h.current? hy] at hr
    split at hr
    · obtain rfl := Option.some.inj hr
      exact Or.inr (Table.get?_next _)
    · exact Or.inl hr
  case registered =>
    intro m' y' _
    by_cases hm : m' = m
    · rw [hm]
      exact ⟨_, .requested (.made hq hother hy ha h)⟩
    · have hmeter : s'.meters.get? m' = s.meters.get? m' := by
        rw [h.meters, Table.get?_set _ hy, if_neg hm]
      refine ⟨[], .aside hmeter hretains ?_⟩
      unfold stance?
      rw [hmeter, h.providers]

end System

namespace Orderly

variable {R : Portrait σ → Portrait σ → Prop} [Portrait.Lasting R] {s s' : System σ}
  {bound bound' : List (Ref .handle × LabelSet)} {role role' : Ref .instrument → AggregatorId → Role}
  {r : Ref .instrument} {i : Instrument σ} {p : Processor}

/-- **An action** on an instrument for which the relation lasts. -/
theorem evolves (h : Orderly s bound role) (ha : Acted s s' bound bound' role role' r)
    (hr : s.LastsAt R s' r) : s.Evolves R s' where
  retains := ha.retains
  lasts q := by
    by_cases hq : q = r
    · exact hq ▸ hr
    · exact System.lastsAt_of_eq (h.portrait_of_ne ha.changed hq)
  neverReturns := System.neverReturns_of_eq ha.changed.rest.meters
  registered m y _ := by
    have hrest := ha.changed.rest
    refine ⟨[], .aside (by rw [hrest.meters]) ha.retains ?_⟩
    unfold System.stance?
    rw [hrest.meters, hrest.providers]

/-! ### Collecting -/

theorem descriptor_eq (h : Orderly s bound role) (hi : s.instruments.get? r = some i)
    (hp : i.processor = some p) : p.stream.descriptor = i.descriptor := by
  cases h.steady hi with
  | recording accumulator processor kind descriptor =>
    obtain rfl := Option.some.inj (hp.symm.trans processor)
    exact descriptor
  | observing accumulator processor kind descriptor =>
    obtain rfl := Option.some.inj (hp.symm.trans processor)
    exact descriptor
  | discarding accumulator processor =>
    rw [processor] at hp
    cases hp

/-- The clock of an instrument is there. -/
theorem clock_of_processor (h : Orderly s bound role) (hi : s.instruments.get? r = some i)
    (hp : i.processor = some p) : ∃ c, s.clocks.get? p.clock = some c := by
  cases h.steady hi with
  | recording accumulator processor kind descriptor clock =>
    obtain rfl := Option.some.inj (hp.symm.trans processor)
    exact ⟨_, clock⟩
  | observing accumulator processor kind descriptor clock =>
    obtain rfl := Option.some.inj (hp.symm.trans processor)
    exact ⟨_, clock⟩
  | discarding accumulator processor =>
    rw [processor] at hp
    cases hp

/-- What an instrument holds is its stream's. -/
theorem fills (h : Orderly s bound role) (hi : s.instruments.get? r = some i)
    (hp : i.processor = some p) : p.stream.Fills (i.contents s.pool) := by
  cases h.steady hi with
  | recording accumulator processor =>
    obtain ⟨a, ha, records, hstream, hsame, -⟩ := h.recording hi accumulator hp
    have hfills := (records.rests ha).fills
    rwa [hstream, hsame] at hfills
  | observing accumulator processor kind descriptor clock observes =>
    obtain rfl := Option.some.inj (hp.symm.trans processor)
    unfold Instrument.contents
    rw [accumulator, processor]
    exact observes.fills
  | discarding accumulator processor =>
    rw [processor] at hp
    cases hp

/-- What a collection does to a window that never ends. -/
theorem climbsAt_of_restart (hi : s.instruments.get? r = some i) (hp : i.processor = some p)
    {i' : Instrument σ} (hi' : i'.processor = some p) {start : Int} {c : Contents}
    (hP' : s'.portrait? r = some ⟨(i'.restart start).bare, c⟩)
    (hstart : p.stream.temporality = .cumulative → start = p.stream.start)
    (hw : p.stream.Accrues → p.stream.temporality = .cumulative →
      (i.contents s.pool).window.Climbs c.window) : s.LastsAt Portrait.Climbs s' r := by
  intro P hP
  obtain rfl := Option.some.inj ((System.portrait?_of_get? hi).symm.trans hP)
  refine ⟨_, hP', fun q hq ht => ?_⟩
  rw [Instrument.bare_processor hp] at hq
  obtain rfl := Option.some.inj hq
  have hrestarted : (i'.restart start).processor
      = some { p with stream := { p.stream with start := start } } := by
    unfold Instrument.restart
    rw [hi']
    rfl
  exact ⟨_, Instrument.bare_processor hrestarted, rfl, hstart ht, fun haccrues => hw haccrues ht⟩

end Orderly

end Metering
