import Metering.Proofs.Pipeline.Registering

/-!
# Batches

A batch is checked as a whole before anything of it is recorded.  What the check refuses has changed
nothing, and what it admits is recorded by the instruments one after the other.  The check lets one
thing pass that an instrument refuses, an integer that no double holds: such a measurement tears the
batch, with the ones before it recorded (`Batched.torn`).
-/

namespace Metering

open Fallible SystemM

variable {σ : Type}

/-! ### What an instrument takes -/

namespace Instrument

/-- A batch admits a value for the instrument: it is synchronous, the value is one of its type, and
not negative if the instrument is monotonic. -/
def Admits (i : Instrument σ) (v : Scalar) : Prop :=
  i.descriptor.kind.isSynchronous = true ∧ ∃ n, i.descriptor.valueType.check v = .ok n ∧
    (i.descriptor.kind.isMonotonic = true → n.isNegative = false)

/-- The instrument has doubles, and the value is an integer that no double holds. -/
def Overflows (i : Instrument σ) (v : Scalar) : Prop :=
  i.descriptor.valueType = .double ∧ ∃ n, i.descriptor.valueType.check v = .ok n ∧
    n.toBinary64? = none

/-- What the check of a batch says of a value for the instrument. -/
def batchVerdict (i : Instrument σ) (v : Scalar) : Except Failure Unit :=
  if i.descriptor.kind.isSynchronous then
    match i.descriptor.valueType.check v with
    | .error e => .error (.record (.measurement e))
    | .ok n =>
      if i.descriptor.kind.isMonotonic && n.isNegative then
        .error (.batch (.negative i.descriptor.name n))
      else .ok ()
  else .error (.batch (.notSynchronous i.descriptor.shownInstrument))

variable {i : Instrument σ} {v : Scalar}

theorem batchVerdict_ok_iff : i.batchVerdict v = .ok () ↔ i.Admits v := by
  unfold batchVerdict Admits
  cases i.descriptor.kind.isSynchronous with
  | false => exact iff_of_false nofun fun h => nomatch h.1
  | true =>
    rw [if_pos rfl]
    cases i.descriptor.valueType.check v with
    | error e => exact iff_of_false nofun fun ⟨_, _, hn, _⟩ => nomatch hn
    | ok n =>
      dsimp only
      split
      · next h =>
        rw [Bool.and_eq_true] at h
        refine iff_of_false nofun ?_
        rintro ⟨-, n', hn, hneg⟩
        obtain rfl := Except.ok.inj hn
        rw [hneg h.1] at h
        exact nomatch h.2
      · next h =>
        refine iff_of_true rfl ⟨rfl, n, rfl, fun hm => ?_⟩
        rwa [hm, Bool.true_and, Bool.not_eq_true] at h

/-- Aggregators of a monotonic sum are those of a monotonic instrument. -/
theorem isMonotonic_of_shape {s : System σ} {bound : List (Ref .handle × LabelSet)}
    {r : Ref .instrument} {role : AggregatorId → Role} (h : Steady s bound r role i)
    (hs : i.shape = .sum true) : i.descriptor.kind.isMonotonic = true := by
  have hstream : ∀ {p : Processor}, i.processor = some p → p.stream.descriptor = i.descriptor →
      i.descriptor.kind.isMonotonic = true := by
    intro p hp hd
    unfold shape at hs
    rw [hp] at hs
    change p.stream.aggregation.shape p.stream.descriptor = _ at hs
    rw [hd] at hs
    unfold Aggregation.shape at hs
    split at hs <;> first | exact Shape.sum.inj hs | cases hs
  cases h with
  | recording _ processor _ descriptor => exact hstream processor descriptor
  | observing _ processor _ descriptor => exact hstream processor descriptor
  | discarding _ processor =>
    unfold shape at hs
    rw [processor] at hs
    cases hs

theorem verdict_of_error {e : MeasurementError} (he : i.descriptor.valueType.check v = .error e) :
    i.verdict v = .error (.record (.measurement e)) := by
  unfold verdict Shape.refusalOf?
  rw [he]

/-- **A measurement** is recorded unless no double holds it, or it is a negative one for a monotonic
sum. -/
theorem verdict_of_ok {n : Number} (hn : i.descriptor.valueType.check v = .ok n) :
    (i.Overflows v → i.verdict v = .error (.record .tooLarge)) ∧
      (¬ i.Overflows v → ∃ m, i.verdict v =
        if i.shape = .sum true ∧ n.isNegative = true then .error (.record (.negative m))
        else .ok ()) := by
  unfold verdict Shape.refusalOf? Shape.refusal?
  rw [hn]
  dsimp only
  have hover : i.Overflows v ↔ i.descriptor.valueType.recorded? n = none := by
    unfold Overflows
    rw [hn]
    cases i.descriptor.valueType with
    | long => exact iff_of_false (fun ho => nomatch ho.1) nofun
    | double =>
      show (_ ∧ ∃ n', Except.ok n = Except.ok n' ∧ n'.toBinary64? = none)
        ↔ n.toBinary64?.map Number.double = none
      rw [Option.map_eq_none_iff]
      exact ⟨fun ⟨_, _, he, ho⟩ => Except.ok.inj he ▸ ho, fun ho => ⟨rfl, n, rfl, ho⟩⟩
  cases hm : i.descriptor.valueType.recorded? n with
  | none =>
    rw [hm] at hover
    exact ⟨fun _ => rfl, fun hnot => absurd (hover.mpr rfl) hnot⟩
  | some m =>
    rw [hm] at hover
    refine ⟨fun ho => (nomatch hover.mp ho), fun _ => ⟨m, ?_⟩⟩
    dsimp only
    rw [ValueType.isNegative_of_recorded? hm]
    by_cases hneg : i.shape = .sum true ∧ n.isNegative = true
    · rw [if_pos hneg, if_pos hneg]
    · rw [if_neg hneg, if_neg hneg]

/-- **An admitted value** is recorded unless no double holds it. -/
theorem verdict_of_admits {s : System σ} {bound : List (Ref .handle × LabelSet)}
    {r : Ref .instrument} {role : AggregatorId → Role} (h : Steady s bound r role i)
    (hv : i.Admits v) :
    (i.Overflows v → i.verdict v = .error (.record .tooLarge)) ∧
      (¬ i.Overflows v → i.verdict v = .ok ()) := by
  obtain ⟨-, n, hn, hneg⟩ := hv
  obtain ⟨hlarge, hfits⟩ := verdict_of_ok hn
  refine ⟨hlarge, fun ho => ?_⟩
  obtain ⟨m, hverdict⟩ := hfits ho
  rw [hverdict, if_neg]
  rintro ⟨hs, hn'⟩
  rw [hneg (isMonotonic_of_shape h hs)] at hn'
  cases hn'

end Instrument

/-! ### Recording one value -/

/-- The portrait with the live cell of a label set changed, if the instrument records. -/
def Portrait.touched (l : LabelSet) (f : Cell → Cell) (P : Portrait σ) : Portrait σ :=
  match P.instrument.accumulator, P.instrument.processor with
  | .synchronous _, some p => { P with contents := p.stream.touch l f P.contents }
  | _, _ => P

/-- The portrait after a value was recorded under a label set, unless it was refused. -/
def Portrait.noted (l : LabelSet) (P : Portrait σ) (v : Scalar) : Portrait σ :=
  P.touched l (Cell.recorded v)

namespace Instrument

variable {i : Instrument σ} {p : Processor}

theorem touched_recording {live : OrderedMap LabelSet AggregatorId}
    (hacc : i.accumulator = .synchronous live) (hp : i.processor = some p) (l : LabelSet)
    (f : Cell → Cell) (c : Contents) :
    (Portrait.mk i.bare c).touched l f = ⟨i.bare, p.stream.touch l f c⟩ := by
  have hbare : p.stream.Continues p.bare.stream := rfl
  unfold Portrait.touched
  dsimp only
  rw [bare_accumulator hacc, bare_processor hp]
  dsimp only [Accumulator.bare]
  rw [hbare.touch]

end Instrument

/-- Nothing is changed in an instrument that does not record. -/
theorem Portrait.touched_eq_self {P : Portrait σ}
    (h : ∀ live, P.instrument.accumulator ≠ .synchronous live) (l : LabelSet) (f : Cell → Cell) :
    P.touched l f = P := by
  unfold touched
  split
  · next live p hacc hp => exact absurd hacc (h live)
  · rfl

/-- Only the label set that labels stand for matters. -/
theorem SystemM.recordInstrument_labels {labels : LabelArgument} {l : LabelSet}
    (hl : LabelSet.create labels = .ok l) (r : Ref .instrument) (v : Scalar) (s : System σ) :
    recordInstrument r v labels s = recordInstrument r v (.set l) s := by
  have hadd : Accumulation.add labels v = Accumulation.add (.set l) v := by
    unfold Accumulation.add Accumulation.bindArgument
    rw [hl]
    rfl
  unfold recordInstrument
  rw [hadd]

/-- **Recording** into a synchronous instrument. -/
theorem Orderly.recordNoted {s : System σ} {bound : List (Ref .handle × LabelSet)}
    {role : Ref .instrument → AggregatorId → Role} (h : Orderly s bound role)
    {r : Ref .instrument} {i : Instrument σ} (hi : s.instruments.get? r = some i)
    (hsync : i.descriptor.kind.isSynchronous = true) {labels : LabelArgument} {l : LabelSet}
    (hl : LabelSet.create labels = .ok l) (v : Scalar) :
    ∃ s' role', recordInstrument r v labels s = (i.verdict v, s') ∧
      Acted s s' bound bound role role' r ∧ s'.handles = s.handles ∧
      s'.portrait? r = (s.portrait? r).map (Portrait.noted l · v) := by
  rw [System.portrait?_of_get? hi, Option.map_some]
  cases h.steady hi with
  | @recording live p c accumulator processor =>
    obtain ⟨s', role', happly, hacted, hhandles, hportrait⟩ :=
      h.record hi accumulator processor hl v
    refine ⟨s', role', happly, hacted, hhandles, ?_⟩
    rw [hportrait, Portrait.noted, Instrument.touched_recording accumulator processor]
  | observing accumulator processor kind =>
    rw [hsync] at kind
    cases kind
  | @discarding a accumulator processor =>
    obtain ⟨s', happly, hacted, hhandles, hportrait⟩ :=
      h.recordDiscarding hi accumulator labels v
    refine ⟨s', role, happly, hacted, hhandles, ?_⟩
    rw [hportrait, System.portrait?_of_get? hi, Portrait.noted,
      Portrait.touched_eq_self (Instrument.bare_ne_synchronous accumulator (by simp))]

/-! ### Recording one after the other -/

/-- Some measurements are recorded with labels, one after the other. -/
inductive RecordedEach (labels : LabelArgument) :
    System σ → List (BatchTarget × Scalar) → System σ → Prop
  | nil (s : System σ) : RecordedEach labels s [] s
  | cons {s s₁ s' : System σ} {r : Ref .instrument} {v : Scalar}
      {ms : List (BatchTarget × Scalar)} (first : recordInstrument r v labels s = (.ok (), s₁))
      (others : RecordedEach labels s₁ ms s') :
      RecordedEach labels s ((.instrument r, v) :: ms) s'

theorem RecordedEach.append {labels : LabelArgument} {s s₁ s' : System σ}
    {ms ms' : List (BatchTarget × Scalar)} (h : RecordedEach labels s ms s₁)
    (h' : RecordedEach labels s₁ ms' s') : RecordedEach labels s (ms ++ ms') s' := by
  induction h with
  | nil s => exact h'
  | cons first _ ih => exact .cons first (ih h')

/-- The values of some measurements that are for an instrument. -/
def valuesFor (r : Ref .instrument) (ms : List (BatchTarget × Scalar)) : List Scalar :=
  ms.filterMap fun m =>
    match m.1 with
    | .instrument q => if q = r then some m.2 else none
    | .other _ => none

/-- Every instrument has noted its values under a label set, one after the other, and nothing else
has changed. -/
def System.Notes (s s' : System σ) (l : LabelSet) (ms : List (BatchTarget × Scalar)) : Prop :=
  ∀ r, s'.portrait? r = (s.portrait? r).map fun P => (valuesFor r ms).foldl (Portrait.noted l) P

namespace System

variable {s s₁ s' : System σ} {l : LabelSet} {ms ms' : List (BatchTarget × Scalar)}

theorem notes_refl (s : System σ) (l : LabelSet) : s.Notes s l [] := by
  intro r
  cases s.portrait? r <;> rfl

theorem Notes.trans (h : s.Notes s₁ l ms) (h' : s₁.Notes s' l ms') : s.Notes s' l (ms ++ ms') := by
  intro r
  have hvalues : valuesFor r (ms ++ ms') = valuesFor r ms ++ valuesFor r ms' :=
    List.filterMap_append
  rw [h', h, Option.map_map, hvalues]
  congr 1
  funext P
  exact List.foldl_append.symm

end System

/-- An instrument has noted one value. -/
theorem Orderly.notes {s s' : System σ} {bound : List (Ref .handle × LabelSet)}
    {role role' : Ref .instrument → AggregatorId → Role} (h : Orderly s bound role)
    {r : Ref .instrument} (hacted : Acted s s' bound bound role role' r) {l : LabelSet} {v : Scalar}
    (hr : s'.portrait? r = (s.portrait? r).map (Portrait.noted l · v)) :
    s.Notes s' l [(.instrument r, v)] := by
  intro q
  by_cases hq : q = r
  · have hvalues : valuesFor q [(.instrument r, v)] = [v] := by
      unfold valuesFor
      rw [List.filterMap_cons]
      dsimp only
      rw [if_pos hq.symm]
      rfl
    rw [hvalues, hq, hr]
    rfl
  · have hvalues : valuesFor q [(.instrument r, v)] = [] := by
      unfold valuesFor
      rw [List.filterMap_cons]
      dsimp only
      rw [if_neg (Ne.symm hq)]
      rfl
    rw [hvalues, h.portrait_of_ne hacted.changed hq]
    cases s.portrait? q <;> rfl

/-! ### Whole batches -/

namespace System

/-- A measurement of a batch is admitted. -/
def Admits (s : System σ) : BatchTarget × Scalar → Prop
  | (.other _, _) => False
  | (.instrument r, v) => ∃ i, s.instruments.get? r = some i ∧ i.Admits v

/-- A measurement of a batch is an integer that no double holds, for an instrument of doubles. -/
def Overflows (s : System σ) : BatchTarget × Scalar → Prop
  | (.other _, _) => False
  | (.instrument r, v) => ∃ i, s.instruments.get? r = some i ∧ i.Overflows v

end System

theorem System.Admits.retained {s s' : System σ} {m : BatchTarget × Scalar} (h : s.Admits m)
    (hs : s.Retains s') : s'.Admits m := by
  obtain ⟨r | x, v⟩ := m
  swap
  · exact h
  obtain ⟨i, hi, hv⟩ := h
  obtain ⟨i', hi', hdesign⟩ := hs _ _ hi
  have hd := Instrument.descriptor_of_design hdesign
  refine ⟨i', hi', ?_⟩
  unfold Instrument.Admits at *
  rwa [hd]

/-- Whether an admitted measurement is too large does not change. -/
theorem System.Admits.overflows_iff {s s' : System σ} {m : BatchTarget × Scalar} (h : s.Admits m)
    (hs : s.Retains s') : s'.Overflows m ↔ s.Overflows m := by
  obtain ⟨r | x, v⟩ := m
  swap
  · exact Iff.rfl
  obtain ⟨i, hi, -⟩ := h
  obtain ⟨i', hi', hdesign⟩ := hs _ _ hi
  have hd := Instrument.descriptor_of_design hdesign
  have hsame : i'.Overflows v ↔ i.Overflows v := by
    unfold Instrument.Overflows
    rw [hd]
  constructor
  · rintro ⟨j, hj, ho⟩
    obtain rfl := Option.some.inj (hi'.symm.trans hj)
    exact ⟨i, hi, hsame.mp ho⟩
  · rintro ⟨j, hj, ho⟩
    obtain rfl := Option.some.inj (hi.symm.trans hj)
    exact ⟨i', hi', hsame.mpr ho⟩

namespace SystemM

variable {s : System σ}

theorem checkMeasurement_apply {r : Ref .instrument} {i : Instrument σ}
    (hi : s.instruments.get? r = some i) (v : Scalar) :
    checkMeasurement (.instrument r, v) s = (i.batchVerdict v, s) := by
  unfold checkMeasurement Instrument.batchVerdict
  simp only [bind_apply, instrument_apply hi]
  cases i.descriptor.kind.isSynchronous with
  | false => rfl
  | true =>
    rw [if_neg (by simp), if_pos rfl]
    cases i.descriptor.valueType.check v with
    | error e => rfl
    | ok n =>
      simp only [Except.mapError, bind_apply, ofExcept_apply]
      split <;> rfl

/-- **A batch of one measurement.** -/
theorem recordBatch_single {r : Ref .instrument} {i : Instrument σ}
    (hi : s.instruments.get? r = some i) (labels : LabelArgument) (v : Scalar) :
    recordBatch labels [(.instrument r, v)] s = match LabelSet.create labels with
      | .error e => (.error (.labels e), s)
      | .ok _ => match i.batchVerdict v with
        | .error e => (.error e, s)
        | .ok () => recordInstrument r v labels s := by
  unfold recordBatch
  rw [bind_apply, ofExcept_apply]
  cases hl : LabelSet.create labels with
  | error e => rfl
  | ok l =>
    simp only [Except.mapError, bind_apply]
    rw [forM_cons_apply, checkMeasurement_apply hi]
    cases i.batchVerdict v with
    | error e => rfl
    | ok _ =>
      have hrecord : recordMeasurement l (.instrument r, v) s = recordInstrument r v labels s :=
        (recordInstrument_labels hl r v s).symm
      show ([(BatchTarget.instrument r, v)].forM (recordMeasurement l)) s = _
      rw [forM_cons_apply, hrecord]
      rcases recordInstrument r v labels s with ⟨e | ⟨⟩, s'⟩ <;> rfl

/-- The check of a measurement lets pass just what is admitted. -/
theorem checkMeasurement_ok_iff {m : BatchTarget × Scalar} :
    (checkMeasurement m s).1 = .ok () ↔ s.Admits m := by
  obtain ⟨r | x, v⟩ := m
  swap
  · exact iff_of_false nofun id
  cases hi : s.instruments.get? r with
  | none =>
    refine iff_of_false (fun h => ?_) fun ⟨i, hi', _⟩ => ?_
    · obtain ⟨r', i, n, hm, hi', -⟩ := checkMeasurement_ok h
      obtain rfl := BatchTarget.instrument.inj hm
      rw [hi] at hi'
      cases hi'
    · rw [hi] at hi'
      cases hi'
  | some i =>
    rw [checkMeasurement_apply hi]
    refine Instrument.batchVerdict_ok_iff.trans ⟨fun h => ⟨i, hi, h⟩, fun ⟨i', hi', h⟩ => ?_⟩
    obtain rfl := Option.some.inj (hi.symm.trans hi')
    exact h

/-- The checks of a batch let it pass just if all of it is admitted. -/
theorem checkMeasurements_ok_iff {ms : List (BatchTarget × Scalar)} :
    ((ms.forM checkMeasurement) s).1 = .ok () ↔ ∀ m ∈ ms, s.Admits m := by
  refine ⟨fun h m hm => checkMeasurement_ok_iff.mp ((checkMeasurements_apply ms s).2 h m hm), ?_⟩
  induction ms with
  | nil => exact fun _ => rfl
  | cons m ms ih =>
    intro h
    have hstate := checkMeasurement_state m s
    have hm := checkMeasurement_ok_iff.mpr (h m List.mem_cons_self)
    rw [forM_cons_apply]
    rcases hc : checkMeasurement m s with ⟨e | ⟨⟩, s'⟩ <;> rw [hc] at hm hstate
    · cases hm
    · obtain rfl : s' = s := hstate
      exact ih fun m hm => h m (List.mem_cons_of_mem _ hm)

end SystemM

namespace Orderly

variable {s : System σ} {bound : List (Ref .handle × LabelSet)}
  {role : Ref .instrument → AggregatorId → Role} {labels : LabelArgument} {l : LabelSet}

/-- **One admitted measurement** is recorded, unless it is too large. -/
theorem recordMeasurement (h : Orderly s bound role) (hl : LabelSet.create labels = .ok l)
    {m : BatchTarget × Scalar} (hm : s.Admits m) :
    ∃ s' role', Orderly s' bound role' ∧ s.Retains s' ∧ s.Notes s' l [m] ∧
      (s.Overflows m → SystemM.recordMeasurement l m s = (.error (.record .tooLarge), s')) ∧
      (¬ s.Overflows m → SystemM.recordMeasurement l m s = (.ok (), s') ∧
        RecordedEach labels s [m] s') := by
  obtain ⟨r | x, v⟩ := m
  swap
  · exact hm.elim
  obtain ⟨i, hi, hv⟩ := hm
  obtain ⟨s', role', happly, hacted, -, hr⟩ := h.recordNoted hi hv.1 hl v
  obtain ⟨hlarge, hfits⟩ := Instrument.verdict_of_admits (h.steady hi) hv
  have hrecord : SystemM.recordMeasurement l (.instrument r, v) s = (i.verdict v, s') :=
    (recordInstrument_labels hl r v s).symm.trans happly
  have hover : s.Overflows (.instrument r, v) ↔ i.Overflows v := by
    refine ⟨fun ⟨j, hj, ho⟩ => ?_, fun ho => ⟨i, hi, ho⟩⟩
    obtain rfl := Option.some.inj (hi.symm.trans hj)
    exact ho
  refine ⟨s', role', hacted.orderly, hacted.retains, h.notes hacted hr, fun ho => ?_, fun ho => ?_⟩
  · rw [hrecord, hlarge (hover.mp ho)]
  · have hok := hfits fun hi => ho (hover.mpr hi)
    rw [hok] at happly hrecord
    exact ⟨hrecord, .cons happly (.nil s')⟩

/-- **Admitted measurements** are recorded one after the other, if none is too large. -/
theorem recordMeasurements (h : Orderly s bound role) (hl : LabelSet.create labels = .ok l)
    {ms : List (BatchTarget × Scalar)} (hms : ∀ m ∈ ms, s.Admits m)
    (hfits : ∀ m ∈ ms, ¬ s.Overflows m) :
    ∃ s' role', (ms.forM (SystemM.recordMeasurement l)) s = (.ok (), s') ∧
      Orderly s' bound role' ∧ s.Retains s' ∧ RecordedEach labels s ms s' ∧ s.Notes s' l ms := by
  induction ms generalizing s role with
  | nil => exact ⟨s, role, rfl, h, System.retains_of_eq rfl, .nil s, s.notes_refl l⟩
  | cons m ms ih =>
    have hm := hms m List.mem_cons_self
    obtain ⟨s₁, role₁, h₁, hretains, hnotes, -, hrecorded⟩ := h.recordMeasurement hl hm
    obtain ⟨hok, hfirst⟩ := hrecorded (hfits m List.mem_cons_self)
    obtain ⟨s', role', hothers, h', hretains', heach, hnotes'⟩ := ih h₁
      (fun m hm => (hms m (List.mem_cons_of_mem _ hm)).retained hretains)
      (fun m hm ho => hfits m (List.mem_cons_of_mem _ hm)
        (((hms m (List.mem_cons_of_mem _ hm)).overflows_iff hretains).mp ho))
    refine ⟨s', role', ?_, h', hretains.trans hretains', hfirst.append heach, hnotes.trans hnotes'⟩
    rw [forM_cons_apply, hok]
    exact hothers

end Orderly

/-- What becomes of a batch. -/
structure Batched (s s' : System σ) (labels : LabelArgument) (ms : List (BatchTarget × Scalar))
    (result : Except Failure Unit) : Prop where
  /-- If the labels or a measurement are refused, nothing has changed. -/
  refused : (∃ e, LabelSet.create labels = .error e) ∨ (∃ m ∈ ms, ¬ s.Admits m) →
    (∃ e, result = .error e) ∧ s' = s
  /-- Otherwise everything is recorded, in the order of the batch, if nothing is too large. -/
  recorded : ∀ l, LabelSet.create labels = .ok l → (∀ m ∈ ms, s.Admits m) →
    (∀ m ∈ ms, ¬ s.Overflows m) →
    result = .ok () ∧ RecordedEach labels s ms s' ∧ s.Notes s' l ms
  /-- The first measurement that is too large tears the batch: those before it are recorded, and
  those after it are not. -/
  torn : ∀ l, LabelSet.create labels = .ok l → (∀ m ∈ ms, s.Admits m) →
    ∀ before m after, ms = before ++ m :: after → (∀ b ∈ before, ¬ s.Overflows b) →
    s.Overflows m →
    result = .error (.record .tooLarge) ∧ s.Notes s' l (before ++ [m]) ∧
      ∃ s₁, RecordedEach labels s before s₁ ∧ s.Notes s₁ l before

/-- **A batch** in a system in order. -/
theorem InOrder.batched {since s : System σ} (h : InOrder since s)
    (labels : LabelArgument) (ms : List (BatchTarget × Scalar)) :
    ∃ result s', SystemM.recordBatch labels ms s = (result, s') ∧
      Batched s s' labels ms result := by
  obtain ⟨bound, role, horderly⟩ := h.orderly
  refine ⟨(SystemM.recordBatch labels ms s).1, (SystemM.recordBatch labels ms s).2, rfl, ?_⟩
  unfold SystemM.recordBatch
  rw [bind_apply, ofExcept_apply]
  cases hl : LabelSet.create labels with
  | error e =>
    exact ⟨fun _ => ⟨⟨_, rfl⟩, rfl⟩, fun _ hl' => (nomatch hl.symm.trans hl'),
      fun _ hl' => (nomatch hl.symm.trans hl')⟩
  | ok l =>
    -- all measurements are checked before the first is recorded
    have hcheck : (ms.forM checkMeasurement s).1 = .ok () ↔ ∀ m ∈ ms, s.Admits m :=
      checkMeasurements_ok_iff
    have hstate := (checkMeasurements_apply ms s).1
    simp only [Except.mapError, bind_apply]
    rcases hc : ms.forM checkMeasurement s with ⟨e | ⟨⟩, s₀⟩ <;> rw [hc] at hcheck hstate <;>
      obtain rfl : s₀ = s := hstate
    · have hnot : ¬ ∀ m ∈ ms, s₀.Admits m := fun hall => nomatch hcheck.mpr hall
      exact ⟨fun _ => ⟨⟨e, rfl⟩, rfl⟩, fun _ _ hall => absurd hall hnot,
        fun _ _ hall => absurd hall hnot⟩
    · have hall := hcheck.mp rfl
      constructor
      case refused =>
        rintro (⟨e, he⟩ | ⟨m, hm, hnot⟩)
        · cases hl.symm.trans he
        · exact absurd (hall m hm) hnot
      case recorded =>
        intro l' hl' _ hfits
        obtain rfl := Except.ok.inj (hl.symm.trans hl')
        obtain ⟨s', role', hrecord, -, -, heach, hnotes⟩ :=
          horderly.recordMeasurements hl hall hfits
        dsimp only
        rw [hrecord]
        exact ⟨rfl, heach, hnotes⟩
      case torn =>
        rintro l' hl' _ before m after rfl hfits hover
        obtain rfl := Except.ok.inj (hl.symm.trans hl')
        -- those before it are recorded, and then it is, in a state that still admits it
        obtain ⟨s₁, role₁, hrecord, h₁, hretains, heach, hnotes⟩ :=
          horderly.recordMeasurements hl (fun b hb => hall b (List.mem_append_left _ hb)) hfits
        have hm := hall m (List.mem_append_right _ List.mem_cons_self)
        obtain ⟨s', role', -, -, hnotes', hlarge, -⟩ :=
          h₁.recordMeasurement hl (hm.retained hretains)
        dsimp only
        rw [forM_append_apply, hrecord]
        dsimp only
        rw [forM_cons_apply, hlarge ((hm.overflows_iff hretains).mpr hover)]
        exact ⟨rfl, hnotes.trans hnotes', s₁, heach, hnotes⟩

end Metering
