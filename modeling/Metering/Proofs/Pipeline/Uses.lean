import Metering.Proofs.Pipeline.Outlooks

/-!
# Uses of instruments

Whatever is done to an instrument of a system in order, successful or not, is an action on the
instrument whose effect on its portrait depends on the portrait alone.  The lemmas say so for each
use: recording, binding a handle, recording on a handle, releasing it, and collecting.
-/

namespace Metering

open Fallible SystemM

variable {σ : Type}

/-- Something that is done to an instrument. -/
inductive InstrumentUse where
  | record (r : Ref .instrument) (labels : LabelArgument) (v : Scalar)
  | bind (r : Ref .instrument) (labels : LabelArgument)
  | recordOn (q : Ref .handle) (v : Scalar)
  | release (q : Ref .handle)
  | collect (r : Ref .instrument) (time : Int)

/-- The system after a use, whatever becomes of it. -/
def System.use (perform : σ → SystemM σ Unit) (s : System σ) : InstrumentUse → System σ
  | .record r labels v => (recordInstrument r v labels s).2
  | .bind r labels => (bindHandle r labels s).2
  | .recordOn q v => (recordHandle q v s).2
  | .release q => (releaseHandle q s).2
  | .collect r time => (collectInstrument perform r (some time) s).2

namespace Portrait

/-- The portrait after a value was recorded with labels, if they are accepted. -/
def told (labels : LabelArgument) (v : Scalar) (P : Portrait σ) : Portrait σ :=
  match LabelSet.create labels with
  | .ok l => P.noted l v
  | .error _ => P

/-- How the instrument binds a handle, if it does: to a label set, or to no labels at all. -/
def binding? (labels : LabelArgument) (P : Portrait σ) : Option (Option LabelSet) :=
  match P.instrument.accumulator with
  | .synchronous _ => (LabelSet.create labels).toOption.map some
  | .asynchronous => none
  | .discarding _ => some none

theorem told_eq_self {P : Portrait σ} (h : ∀ live, P.instrument.accumulator ≠ .synchronous live)
    (labels : LabelArgument) (v : Scalar) : P.told labels v = P := by
  unfold told
  cases LabelSet.create labels with
  | ok l => exact touched_eq_self h l _
  | error e => rfl

end Portrait

/-- The outlook of an instrument. -/
def System.outlook? (s : System σ) (r : Ref .instrument) : Option (Outlook σ) :=
  (s.portrait? r).map Portrait.outlook

/-- If the instrument of a handle records, the handle is bound to a label set. -/
def System.Labels (s : System σ) (bound : List (Ref .handle × LabelSet)) (q : Ref .handle)
    (r : Ref .instrument) (l : LabelSet) : Prop :=
  ∀ P ∈ s.portrait? r, ∀ live, P.instrument.accumulator = .synchronous live → (q, l) ∈ bound

theorem System.portrait?_of_none {s : System σ} {r : Ref .instrument}
    (h : s.instruments.get? r = none) : s.portrait? r = none := by
  unfold portrait?
  rw [h]
  rfl

/-- What an instrument holds has no say in what it takes. -/
theorem Instrument.verdict_bare (i : Instrument σ) (v : Scalar) :
    i.bare.verdict v = i.verdict v := by
  unfold verdict shape bare
  cases i.processor <;> rfl

namespace Orderly

variable {s : System σ} {bound : List (Ref .handle × LabelSet)}
  {role : Ref .instrument → AggregatorId → Role} {r : Ref .instrument} {i : Instrument σ}
  {q : Ref .handle} {x : Handle}

/-- The log does not matter. -/
theorem logged (h : Orderly s bound role) (log : List LogEntry) :
    Orderly { s with log := log } bound role :=
  h.beside rfl rfl (fun hq => ⟨_, hq⟩) (.refl _) fun he => h.outside (he.congr rfl rfl rfl)

/-- What changes nothing. -/
theorem unchanged (h : Orderly s bound role) (r : Ref .instrument) :
    Acted s s bound bound role role r :=
  ⟨h, ⟨fun _ => rfl, .refl _, ⟨rfl, rfl, rfl, rfl, rfl, rfl⟩⟩, System.retains_of_eq rfl⟩

/-! ### Recording -/

/-- **Recording.** -/
theorem recordAt (h : Orderly s bound role) (r : Ref .instrument) (labels : LabelArgument)
    (v : Scalar) :
    ∃ s' role', (recordInstrument r v labels s).2 = s' ∧
      Acted s s' bound bound role role' r ∧ s'.handles = s.handles ∧
      s'.portrait? r = (s.portrait? r).map (Portrait.told labels v) := by
  cases hi : s.instruments.get? r with
  | none =>
    rw [System.portrait?_of_none hi]
    refine ⟨s, role, ?_, h.unchanged r, rfl, System.portrait?_of_none hi⟩
    unfold recordInstrument instrument
    simp only [bind_apply, get_apply, demand_apply, hi]
  | some i =>
    have hportrait := System.portrait?_of_get? hi
    cases h.steady hi with
    | recording accumulator processor kind =>
      cases hl : LabelSet.create labels with
      | ok l =>
        obtain ⟨s', role', happly, hacted, hhandles, hnoted⟩ := h.recordNoted hi kind hl v
        refine ⟨s', role', by rw [happly], hacted, hhandles, ?_⟩
        unfold Portrait.told
        rw [hnoted, hl]
      | error e =>
        obtain ⟨happly, -⟩ := h.mislabelled hi accumulator processor hl v
        refine ⟨s, role, by rw [happly], h.unchanged r, rfl, ?_⟩
        unfold Portrait.told
        rw [hl, hportrait]
        rfl
    | observing accumulator =>
      refine ⟨s, role, ?_, h.unchanged r, rfl, ?_⟩
      · unfold recordInstrument onAccumulation
        simp only [bind_apply, instrument_apply hi, accumulator, throw_apply]
      · rw [hportrait, Option.map_some,
          Portrait.told_eq_self (Instrument.bare_ne_synchronous accumulator (by simp))]
    | discarding accumulator =>
      obtain ⟨s', happly, hacted, hhandles, hsame⟩ := h.recordDiscarding hi accumulator labels v
      refine ⟨s', role, by rw [happly], hacted, hhandles, ?_⟩
      rw [hsame, hportrait, Option.map_some,
        Portrait.told_eq_self (Instrument.bare_ne_synchronous accumulator (by simp))]

/-! ### Binding -/

/-- **Binding** a handle. -/
theorem bindAt (h : Orderly s bound role) (r : Ref .instrument) (labels : LabelArgument) :
    ∃ s' bound' role', (bindHandle r labels s).2 = s' ∧ Acted s s' bound bound' role role' r ∧
      s'.outlook? r = s.outlook? r ∧
      match (s.portrait? r).bind (Portrait.binding? labels) with
      | none => s'.handles = s.handles ∧ bound' = bound
      | some l? => bound' = (l?.map (s.handles.next, ·)).toList ++ bound ∧
        (bindHandle r labels s).1 = .ok s.handles.next ∧
        ∃ x, s'.handles = s.handles.add x ∧ x.instrument = r ∧ x.released = false := by
  cases hi : s.instruments.get? r with
  | none =>
    refine ⟨s, bound, role, ?_, h.unchanged r, rfl, ?_⟩
    · unfold bindHandle instrument
      simp only [bind_apply, get_apply, demand_apply, hi]
    · rw [System.portrait?_of_none hi]
      exact ⟨rfl, rfl⟩
  | some i =>
    have hportrait := System.portrait?_of_get? hi
    unfold System.outlook?
    rw [hportrait, Option.bind_some, Option.map_some]
    unfold Portrait.binding?
    dsimp only
    cases h.steady hi with
    | recording accumulator processor =>
      rw [Instrument.bare_accumulator accumulator]
      cases hl : LabelSet.create labels with
      | ok l =>
        obtain ⟨x, s', role', happly, hacted, hhandles, hx, ho, htouched⟩ :=
          h.bind hi accumulator processor hl
        refine ⟨s', _, role', by rw [happly], hacted, ?_, rfl, by rw [happly], x, hhandles, hx, ho⟩
        rw [htouched, ← Instrument.touched_recording accumulator processor, Option.map_some,
          Portrait.outlook_touched_of_eq Cell.aggregator_acquired]
      | error e =>
        obtain ⟨-, happly⟩ := h.mislabelled hi accumulator processor hl .absent
        exact ⟨s, bound, role, by rw [happly], h.unchanged r, by rw [hportrait]; rfl, rfl, rfl⟩
    -- an observer cannot be bound, and refuses before it looks at the labels
    | observing accumulator =>
      rw [Instrument.bare_accumulator accumulator]
      refine ⟨s, bound, role, ?_, h.unchanged r, by rw [hportrait]; rfl, rfl, rfl⟩
      unfold bindHandle bindInstrument onAccumulation
      simp only [bind_apply, instrument_apply hi, accumulator, throw_apply]
    | discarding accumulator =>
      rw [Instrument.bare_accumulator accumulator]
      obtain ⟨x, s', happly, hacted, hhandles, hx, ho, hsame⟩ :=
        h.bindDiscarding hi accumulator labels
      refine ⟨s', bound, role, by rw [happly], hacted, ?_, rfl, by rw [happly], x, hhandles, hx, ho⟩
      rw [hsame, hportrait]
      rfl

/-! ### Handles -/

/-- A handle has labels. -/
theorem exists_labels (h : Orderly s bound role) (hx : s.handles.get? q = some x) :
    ∃ l, s.Labels bound q x.instrument l := by
  obtain ⟨i, hi, hmatch⟩ := h.owned hx
  have hportrait := System.portrait?_of_get? hi
  cases hacc : i.accumulator with
  | synchronous live =>
    rw [hacc] at hmatch
    obtain ⟨l, hl⟩ := hmatch
    exact ⟨l, fun _ _ _ _ => hl⟩
  | asynchronous =>
    rw [hacc] at hmatch
    exact hmatch.elim
  | discarding a =>
    refine ⟨LabelSet.empty, fun P hP live hlive => ?_⟩
    obtain rfl := Option.some.inj (hportrait.symm.trans hP)
    exact absurd hlive (Instrument.bare_ne_synchronous hacc (by simp) live)

/-- **Recording** on an open handle. -/
theorem recordOnAt (h : Orderly s bound role) (hx : s.handles.get? q = some x)
    (ho : x.released = false) {l : LabelSet} (hl : s.Labels bound q x.instrument l) (v : Scalar) :
    ∃ s' role', (recordHandle q v s).2 = s' ∧
      Acted s s' bound bound role role' x.instrument ∧ s'.handles = s.handles ∧
      s'.portrait? x.instrument = (s.portrait? x.instrument).map (Portrait.noted l · v) ∧
      ∀ P ∈ s.portrait? x.instrument, (recordHandle q v s).1 = P.instrument.verdict v := by
  obtain ⟨i, hi, hmatch⟩ := h.owned hx
  have hportrait := System.portrait?_of_get? hi
  have hverdict : ∀ P ∈ s.portrait? x.instrument, i.verdict v = P.instrument.verdict v := by
    intro P hP
    obtain rfl := Option.some.inj (hportrait.symm.trans hP)
    exact (i.verdict_bare v).symm
  cases h.steady hi with
  | recording accumulator processor =>
    have hbound := hl _ hportrait _ (Instrument.bare_accumulator accumulator)
    obtain ⟨s', role', happly, hacted, hhandles, htouched⟩ :=
      h.recordOn hi accumulator processor hbound hx rfl ho v
    refine ⟨s', role', by rw [happly], hacted, hhandles, ?_, ?_⟩
    · rw [htouched, hportrait, Option.map_some, Portrait.noted,
        Instrument.touched_recording accumulator processor]
    · rw [happly]
      exact hverdict
  | observing accumulator =>
    rw [accumulator] at hmatch
    exact hmatch.elim
  | discarding accumulator =>
    obtain ⟨s', happly, hacted, hhandles, hsame⟩ :=
      h.recordOnDiscarding hi accumulator hx rfl ho v
    refine ⟨s', role, by rw [happly], hacted, hhandles, ?_, ?_⟩
    · rw [hsame, hportrait, Option.map_some, Portrait.noted,
        Portrait.touched_eq_self (Instrument.bare_ne_synchronous accumulator (by simp))]
    · rw [happly]
      exact hverdict

/-- **Releasing** an open handle. -/
theorem releaseAt (h : Orderly s bound role) (hx : s.handles.get? q = some x)
    (ho : x.released = false) :
    ∃ s' role', (releaseHandle q s).2 = s' ∧ Acted s s' bound bound role role' x.instrument ∧
      s'.handles = s.handles.set q { x with released := true } ∧
      s'.outlook? x.instrument = s.outlook? x.instrument := by
  obtain ⟨l, hl⟩ := h.exists_labels hx
  obtain ⟨i, hi, hmatch⟩ := h.owned hx
  have hportrait := System.portrait?_of_get? hi
  unfold System.outlook?
  rw [hportrait, Option.map_some]
  cases h.steady hi with
  | recording accumulator processor =>
    have hbound := hl _ hportrait _ (Instrument.bare_accumulator accumulator)
    obtain ⟨s', role', happly, hacted, hhandles, htouched⟩ :=
      h.release hi accumulator processor hbound hx rfl ho
    refine ⟨s', role', by rw [happly], hacted, hhandles, ?_⟩
    rw [htouched, ← Instrument.touched_recording accumulator processor, Option.map_some,
      Portrait.outlook_touched_of_eq Cell.aggregator_released]
  | observing accumulator =>
    rw [accumulator] at hmatch
    exact hmatch.elim
  | discarding accumulator =>
    obtain ⟨s', happly, hacted, hhandles, hsame⟩ := h.releaseDiscarding hi accumulator hx rfl ho
    refine ⟨s', role, by rw [happly], hacted, hhandles, ?_⟩
    rw [hsame, hportrait]
    rfl

/-! ### Collecting -/

/-- **Collecting** an instrument that is no observer, or whose callback only ever observes. -/
theorem collectAt (h : Orderly s bound role) (hcalm : ∀ P ∈ s.portrait? r, P.IsCalm) (time : Int)
    (perform : σ → SystemM σ Unit) :
    ∃ s' role', (collectInstrument perform r (some time) s).2 = s' ∧
      Acted s s' bound bound role role' r ∧ s'.handles = s.handles ∧
      s'.portrait? r = s.remains time r ∧ ∀ P ∈ s.portrait? r,
        (collectInstrument perform r (some time) s).1 = (P.collected time).1 := by
  cases hi : s.instruments.get? r with
  | none =>
    refine ⟨s, role, ?_, h.unchanged r, rfl, ?_, ?_⟩
    · unfold collectInstrument instrument
      simp only [bind_apply, get_apply, demand_apply, hi]
    · unfold System.remains
      rw [System.portrait?_of_none hi]
      rfl
    · rw [System.portrait?_of_none hi]
      exact fun P hP => absurd hP (Option.not_mem_none P)
  | some i =>
    have hportrait := System.portrait?_of_get? hi
    have hquiet : s.IsQuietAt r :=
      ⟨i, hi, fun hacc c hc => Callback.isQuiet_of_cycles
        (hcalm _ hportrait (Instrument.bare_accumulator hacc) c hc)⟩
    obtain ⟨s', role', happly, hacted, hhandles, hleft⟩ := h.collected hquiet time perform
    refine ⟨s', role', by rw [happly], hacted, hhandles, hleft, fun P hP => ?_⟩
    rw [happly]
    unfold System.share
    rw [hP]

end Orderly

end Metering
