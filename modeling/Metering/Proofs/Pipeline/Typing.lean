import Metering.Proofs.Pipeline.Collecting

/-!
# Types in systems in order

All aggregators that an instrument of a system in order reaches are of the type that its aggregation
gives to its descriptor (`Orderly.makes_of_reaches`).  Hence nothing that is done to instruments
fails because of a merge, and what a collection reports is described by the streams of instruments
of the system that it leaves, whatever callbacks have done meanwhile (`InOrder.wellTyped`).
-/

namespace Metering

open Fallible SystemM

variable {σ : Type}

/-! ### Instruments -/

/-- An aggregator is in the live map of an instrument or in the window of its processor. -/
def Instrument.Reaches (i : Instrument σ) (j : AggregatorId) : Prop :=
  (∃ live l, i.accumulator = .synchronous live ∧ live.get? l = some j) ∨
    ∃ p l, i.processor = some p ∧ p.stream.window.get? l = some j

namespace Orderly

variable {s : System σ} {bound : List (Ref .handle × LabelSet)}
  {role : Ref .instrument → AggregatorId → Role} {r : Ref .instrument} {i : Instrument σ}
  {p : Processor}

theorem makes_of_reaches (h : Orderly s bound role) (hi : s.instruments.get? r = some i)
    (hp : i.processor = some p) {j : AggregatorId} (hj : i.Reaches j) :
    p.stream.Makes (s.pool.get j) := by
  have hfills := h.fills hi hp
  unfold Instrument.contents at hfills
  rw [hp] at hfills
  obtain ⟨live, l, hacc, hl⟩ | ⟨p', l, hp', hl⟩ := hj
  · rw [hacc] at hfills
    refine hfills.live (l := l) (x := s.pool.cell j) ?_
    show (live.map s.pool.cell).get? l = _
    rw [OrderedMap.get?_map, hl]
    rfl
  · obtain rfl := Option.some.inj (hp.symm.trans hp')
    refine hfills.window (l := l) ?_
    show (p.stream.window.map s.pool.get).get? l = _
    rw [OrderedMap.get?_map, hl]
    rfl

end Orderly

/-! ### Failures -/

/-- A result is no failure of a merge. -/
def MergeFree {α : Type} (result : Except Failure α) : Prop := ∀ e, result ≠ .error (.merge e)

namespace MergeFree

variable {α β : Type} {s : System σ}

theorem of_ok (a : α) : MergeFree (.ok a) := fun _ => nofun

theorem ofExcept {result : Except Failure α} (h : MergeFree result) :
    MergeFree ((MonadExcept.ofExcept result : SystemM σ α) s).1 := by
  rwa [ofExcept_apply]

theorem mapError {ε : Type} {f : ε → Failure} (hf : ∀ x e, f x ≠ .merge e) (x : Except ε α) :
    MergeFree (x.mapError f) := by
  cases x with
  | error x => exact fun e he => hf x e (Except.error.inj he)
  | ok a => exact of_ok a

theorem bind {x : SystemM σ α} {f : α → SystemM σ β} (hx : MergeFree (x s).1)
    (hf : ∀ a s', x s = (.ok a, s') → MergeFree (f a s').1) : MergeFree ((x >>= f) s).1 := by
  rw [bind_apply]
  rcases hr : x s with ⟨e | a, s'⟩ <;> rw [hr] at hx
  · exact fun m hm => hx m (congrArg Except.error (Except.error.inj hm))
  · exact hf a s' hr

theorem component (what : String) (f : System σ → Option α) :
    MergeFree ((do SystemM.demand what (f (← MonadState.get)) : SystemM σ α) s).1 := by
  rw [bind_apply, get_apply]
  dsimp only
  rw [demand_apply]
  cases f s with
  | none => exact fun _ => nofun
  | some a => exact of_ok a

theorem forM {I : System σ → Prop} {f : α → SystemM σ Unit} (hkeeps : ∀ a, Keeps I (f a))
    (hf : ∀ a s, I s → MergeFree (f a s).1) (as : List α) (h : I s) :
    MergeFree (as.forM f s).1 := by
  induction as generalizing s with
  | nil => exact of_ok _
  | cons a as ih =>
    refine bind (x := f a) (hf a s h) fun _ s' hs' => ih ?_
    have hkept := hkeeps a s h
    rwa [hs'] at hkept

end MergeFree

theorem Instrument.verdict_mergeFree (i : Instrument σ) (v : Scalar) :
    MergeFree (i.verdict v) := by
  unfold verdict
  cases i.shape.refusalOf? i.descriptor.valueType v with
  | some e => exact fun _ => nofun
  | none => exact MergeFree.of_ok _

/-- A check of a batch has nothing to merge. -/
theorem SystemM.checkMeasurement_mergeFree (m : BatchTarget × Scalar) (s : System σ) :
    MergeFree (checkMeasurement m s).1 := by
  obtain ⟨r | x, v⟩ := m
  swap
  · exact fun _ => nofun
  refine .bind (.component _ fun s => s.instruments.get? r) fun i s' _ => ?_
  dsimp only
  split
  · exact fun _ => nofun
  refine .bind (.ofExcept (.mapError (fun _ _ => by simp) _)) fun n s'' _ => ?_
  split
  · exact fun _ => nofun
  · exact .of_ok _

namespace InOrder

variable {since s : System σ}

/-- **Recording** does not fail because of a merge. -/
theorem recordInstrument_mergeFree (h : InOrder since s) (r : Ref .instrument) (v : Scalar)
    (labels : LabelArgument) : MergeFree (SystemM.recordInstrument r v labels s).1 := by
  obtain ⟨bound, role, horderly⟩ := h.orderly
  cases hi : s.instruments.get? r with
  | none =>
    unfold SystemM.recordInstrument instrument
    simp only [bind_apply, get_apply, demand_apply, hi]
    exact fun _ => nofun
  | some i =>
    cases horderly.steady hi with
    | recording accumulator processor =>
      cases hl : LabelSet.create labels with
      | ok l =>
        obtain ⟨s', role', happly, -⟩ := horderly.record hi accumulator processor hl v
        rw [happly]
        exact i.verdict_mergeFree v
      | error e =>
        rw [(horderly.mislabelled hi accumulator processor hl v).1]
        exact fun _ => nofun
    | observing accumulator processor =>
      unfold SystemM.recordInstrument onAccumulation
      simp only [bind_apply, instrument_apply hi, accumulator, throw_apply]
      exact fun _ => nofun
    | discarding accumulator =>
      obtain ⟨s', happly, -⟩ := horderly.recordDiscarding hi accumulator labels v
      rw [happly]
      exact i.verdict_mergeFree v

/-- **Binding** does not fail because of a merge. -/
theorem bindHandle_mergeFree (h : InOrder since s) (r : Ref .instrument) (labels : LabelArgument) :
    MergeFree (SystemM.bindHandle r labels s).1 := by
  obtain ⟨bound, role, horderly⟩ := h.orderly
  cases hi : s.instruments.get? r with
  | none =>
    unfold SystemM.bindHandle instrument
    simp only [bind_apply, get_apply, demand_apply, hi]
    exact fun _ => nofun
  | some i =>
    cases horderly.steady hi with
    | recording accumulator processor =>
      cases hl : LabelSet.create labels with
      | ok l =>
        obtain ⟨x, s', role', happly, -⟩ := horderly.bind hi accumulator processor hl
        rw [happly]
        exact .of_ok _
      | error e =>
        rw [(horderly.mislabelled hi accumulator processor hl (.text "")).2]
        exact fun _ => nofun
    | observing accumulator processor =>
      unfold SystemM.bindHandle bindInstrument onAccumulation
      simp only [bind_apply, instrument_apply hi, accumulator, throw_apply]
      exact fun _ => nofun
    | discarding accumulator =>
      obtain ⟨x, s', happly, -⟩ := horderly.bindDiscarding hi accumulator labels
      rw [happly]
      exact .of_ok _

/-- **A batch** does not fail because of a merge. -/
theorem recordBatch_mergeFree (h : InOrder since s) (labels : LabelArgument)
    (ms : List (BatchTarget × Scalar)) : MergeFree (SystemM.recordBatch labels ms s).1 := by
  refine .bind (.ofExcept (.mapError (fun _ _ => by simp) _)) fun l s₁ hs₁ => ?_
  rw [ofExcept_apply] at hs₁
  obtain rfl : s = s₁ := congrArg Prod.snd hs₁
  have hlook : ∀ m, Keeps (InOrder since) (checkMeasurement (σ := σ) m) :=
    fun m => .of_look (checkMeasurement_state m)
  refine .bind (.forM hlook (fun m s _ => checkMeasurement_mergeFree m s) ms h) fun _ s₁ hs₁ => ?_
  have h₁ := Keeps.forM hlook ms s h
  rw [hs₁] at h₁
  refine .forM (I := InOrder since) (fun m => ?_) (fun m s hs => ?_) ms h₁
  · obtain ⟨r | x, v⟩ := m
    · exact InOrderBy.recordInstrument r v _
    · exact .pure _
  · obtain ⟨r | x, v⟩ := m
    · exact hs.recordInstrument_mergeFree r v _
    · exact .of_ok _

end InOrder

/-! ### Collections -/

/-- A metric is described by the stream of an instrument of the system. -/
def System.Describes (s : System σ) (m : Metric) : Prop :=
  ∃ r i p, s.instruments.get? r = some i ∧ i.processor = some p ∧ p.stream.Describes m

theorem System.Retains.describes {s s' : System σ} (h : s.Retains s') {m : Metric}
    (hm : s.Describes m) : s'.Describes m := by
  obtain ⟨r, i, p, hi, hp, hm⟩ := hm
  obtain ⟨i', hi', hdesign⟩ := h r i hi
  obtain ⟨p', hp', hstream, -⟩ := Instrument.processor_of_design hdesign hp
  exact ⟨r, i', p', hi', hp', hstream.describes hm⟩

/-- A collection does not fail because of a merge, and what it reports is described by the streams
of instruments of the system that it leaves. -/
structure WellCollected (outcome : Except Failure (List Metric) × System σ) : Prop where
  mergeFree : MergeFree outcome.1
  described : ∀ metrics, outcome.1 = .ok metrics → ∀ m ∈ metrics, outcome.2.Describes m

/-- A collection of a system is as it should be, and keeps the system in order. -/
structure Collects (s : System σ) (outcome : Except Failure (List Metric) × System σ) : Prop where
  kept : InOrder s outcome.2
  collected : WellCollected outcome

namespace Collects

variable {s : System σ}

theorem of_error {s' : System σ} (h : InOrder s s') {e : Failure} (he : ∀ m, e ≠ .merge m) :
    Collects s (.error e, s') :=
  ⟨h, fun m hm => he m (Except.error.inj hm), fun _ => nofun⟩

theorem nothing {s' : System σ} (h : InOrder s s') : Collects s (.ok [], s') := by
  refine ⟨h, .of_ok _, fun metrics hm m hin => ?_⟩
  obtain rfl := Except.ok.inj hm
  cases hin

/-- What an instrument gives is described by its own stream. -/
theorem of_collection {r : Ref .instrument} {outcome : Except Failure (List Metric) × System σ}
    (h : Collection s r outcome) (hs : InOrder s s) : Collects s outcome := by
  cases h with
  | missing _ kept => exact .of_error kept fun _ => nofun
  | discarded _ _ kept => exact .nothing kept
  | @recorded i p stop s' hi processor kind kept =>
    obtain ⟨bound, role, horderly⟩ := hs.orderly
    refine ⟨kept, .of_ok _, fun metrics hm m hin => kept.retains.describes ?_⟩
    obtain rfl := Except.ok.inj hm
    exact ⟨r, i, p, hi, processor, (horderly.fills hi processor).describes hin⟩
  | @observed s₁ s' i p values stop called hi processor kept =>
    obtain ⟨bound, role, horderly⟩ := called.orderly
    refine ⟨called.after kept, ?_, fun metrics hm m hin => kept.retains.describes ?_⟩
    · unfold Stream.report
      cases values with
      | none => exact .of_ok _
      | some values =>
        dsimp only
        cases p.stream.refusalIn? values with
        | some e => exact fun _ => nofun
        | none => exact .of_ok _
    · exact ⟨r, i, p, hi, processor, (horderly.fills hi processor).describes_report hm hin⟩

/-- One collection after another. -/
theorem append {x y : SystemM σ (List Metric)} (hx : Collects s (x s))
    (hy : ∀ s', InOrder s' s' → Collects s' (y s')) :
    Collects s ((do
      let first ← x
      return first ++ (← y)) s) := by
  rw [bind_apply]
  obtain ⟨hkept, hfree, hdescribed⟩ := hx
  rcases hfirst : x s with ⟨e | first, s₁⟩ <;> rw [hfirst] at hkept hfree hdescribed
  · exact .of_error hkept fun m hm => hfree m (congrArg Except.error hm)
  obtain ⟨hkept', hfree', hdescribed'⟩ := hy s₁ hkept.here
  dsimp only
  rw [bind_apply]
  rcases hothers : y s₁ with ⟨e | others, s₂⟩ <;> rw [hothers] at hkept' hfree' hdescribed'
  · exact .of_error (hkept.after hkept') fun m hm => hfree' m (congrArg Except.error hm)
  refine ⟨hkept.after hkept', .of_ok _, fun metrics hm m hin => ?_⟩
  obtain rfl := Except.ok.inj hm
  obtain hin | hin := List.mem_append.mp hin
  · exact hkept'.retains.describes (hdescribed first rfl m hin)
  · exact hdescribed' others rfl m hin

end Collects

namespace InOrder

variable {s : System σ} {perform : σ → SystemM σ Unit}
  (hperform : ∀ since step, Keeps (InOrder since) (perform step))
include hperform

theorem instruments_collects (h : InOrder s s) (time : Option Int) (rs : List (Ref .instrument)) :
    Collects s (SystemM.collectInstruments perform time rs s) := by
  induction rs generalizing s with
  | nil => exact .nothing h
  | cons r rs ih =>
    exact Collects.append (.of_collection (h.collection hperform r time) h) fun s' h' => ih h'

theorem meter_collects (h : InOrder s s) (m : Ref .meter) (time : Option Int) :
    Collects s (SystemM.collectMeter perform m time s) := by
  unfold SystemM.collectMeter meter
  simp only [bind_apply, get_apply, demand_apply]
  cases s.meters.get? m with
  | none => exact .of_error h fun _ => nofun
  | some y => exact h.instruments_collects hperform time _

theorem meters_collects (h : InOrder s s) (time : Option Int) (ms : List (Ref .meter)) :
    Collects s (SystemM.collectMeters perform time ms s) := by
  induction ms generalizing s with
  | nil => exact .nothing h
  | cons m ms ih => exact (h.meter_collects hperform m time).append fun s' h' => ih h'

/-- **A provider** is collected meter by meter. -/
theorem provider_collects (h : InOrder s s) (q : Ref .provider) :
    Collects s (SystemM.collectProvider perform q s) := by
  unfold SystemM.collectProvider provider now clock
  simp only [bind_apply, get_apply, demand_apply]
  cases s.providers.get? q with
  | none => exact .of_error h fun _ => nofun
  | some x =>
    dsimp only
    split
    · exact .nothing (h.logged _)
    · simp only [bind_apply, get_apply, demand_apply, pure_apply]
      cases s.clocks.get? x.clock with
      | none => exact .of_error h fun _ => nofun
      | some c => exact h.meters_collects hperform _ _

theorem reader_collects (h : InOrder s s) (q : Ref .reader) :
    Collects s (SystemM.collectReader perform q s) := by
  unfold SystemM.collectReader reader
  simp only [bind_apply, get_apply, demand_apply]
  cases s.readers.get? q with
  | none => exact .of_error h fun _ => nofun
  | some x =>
    dsimp only
    cases x.provider with
    | none => exact .nothing (h.logged _)
    | some p => exact h.provider_collects hperform p

end InOrder

/-! ### Whole systems -/

/-- The types of aggregators and metrics are right, whatever is done to a system next. -/
structure System.WellTyped (perform : σ → SystemM σ Unit) (s : System σ) : Prop where
  /-- All aggregators that an instrument reaches are of the type that its aggregation gives to its
  descriptor. -/
  aggregators : ∀ {r i p j}, s.instruments.get? r = some i → i.processor = some p → i.Reaches j →
    (s.pool.get j).SameType (p.stream.aggregation.fresh i.descriptor)
  /-- Any two of them can be moved into each other. -/
  merges : ∀ {r i j k}, s.instruments.get? r = some i → i.Reaches j → i.Reaches k →
    i.processor.isSome → (s.pool.get j).mergeError? (s.pool.get k) = none
  recording : ∀ r v labels, MergeFree (recordInstrument r v labels s).1
  binding : ∀ r labels, MergeFree (bindHandle r labels s).1
  batch : ∀ labels ms, MergeFree (recordBatch labels ms s).1
  instrument : ∀ r time, WellCollected (collectInstrument perform r time s)
  meter : ∀ m time, WellCollected (collectMeter perform m time s)
  provider : ∀ q, WellCollected (collectProvider perform q s)
  reader : ∀ q, WellCollected (collectReader perform q s)
  /-- Threads may bind, record, release and collect at once, on all handles that are open. -/
  threads : ∀ {r i live}, s.instruments.get? r = some i → i.accumulator = .synchronous live →
    ∃ bound t, Tracks s r bound t ∧ t.collector = .idle ∧ t.reports = [] ∧
      (∀ q x, s.handles.get? q = some x → x.instrument = r → ∃ l, (q, l) ∈ bound) ∧
      ∀ events, (t.run events).WellTyped

/-- **Every system in order** is well typed. -/
theorem InOrder.wellTyped {since s : System σ} (h : InOrder since s)
    {perform : σ → SystemM σ Unit}
    (hperform : ∀ since step, Keeps (InOrder since) (perform step)) : s.WellTyped perform := by
  obtain ⟨bound, role, horderly⟩ := h.orderly
  have hs : InOrder s s := h.here
  have htype : ∀ {r i p j}, s.instruments.get? r = some i → i.processor = some p → i.Reaches j →
      (s.pool.get j).SameType (p.stream.aggregation.fresh i.descriptor) := by
    intro r i p j hi hp hj
    have hsame := (horderly.makes_of_reaches hi hp hj).sameType
    unfold Stream.freshAggregator at hsame
    rwa [horderly.descriptor_eq hi hp] at hsame
  constructor
  case aggregators => exact htype
  case merges =>
    intro r i j k hi hj hk hp
    obtain ⟨p, hp⟩ := Option.isSome_iff_exists.mp hp
    exact ((htype hi hp hj).trans (htype hi hp hk).symm).mergeError?
  case recording => exact h.recordInstrument_mergeFree
  case binding => exact h.bindHandle_mergeFree
  case batch => exact h.recordBatch_mergeFree
  case instrument =>
    intro r time
    exact (Collects.of_collection (hs.collection hperform r time) hs).collected
  case meter => exact fun m time => (hs.meter_collects hperform m time).collected
  case provider => exact fun q => (hs.provider_collects hperform q).collected
  case reader => exact fun q => (hs.reader_collects hperform q).collected
  case threads =>
    intro r i live hi hacc
    cases horderly.steady hi with
    | recording accumulator processor kind descriptor clock records =>
      -- the threads start where the system is, with no report made so far
      obtain ⟨α, _, t, g, hrecording⟩ := records
      have hsound := hrecording.sound.with_reports []
      refine ⟨bound, { t with reports := [] }, ?_, hrecording.idle, rfl, fun q x hx hr => ?_,
        fun events => ?_⟩
      · exact ⟨hrecording.tracks.accumulation, hrecording.tracks.bindings, hrecording.tracks.held⟩
      · obtain ⟨i', hi', howned⟩ := horderly.owned hx
        rw [hr] at hi'
        obtain rfl := Option.some.inj (hi.symm.trans hi')
        rw [hacc] at howned
        exact howned
      · have hsilent : Recording s bound r (role r) { t with reports := [] } g :=
          ⟨⟨hrecording.tracks.accumulation, hrecording.tracks.bindings, hrecording.tracks.held⟩,
            hsound, hrecording.idle, hrecording.admitted, hrecording.makes⟩
        exact hsilent.wellTyped_run rfl events
    | observing accumulator =>
      rw [hacc] at accumulator
      cases accumulator
    | discarding accumulator =>
      rw [hacc] at accumulator
      cases accumulator

end Metering
