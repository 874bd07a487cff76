import Metering.Proofs.Instruments.Confinement
import Metering.Proofs.Pipeline.Registering
import Metering.Session.Standalone

/-!
# Steps aside from the instruments

Clocks, single aggregators, processors and accumulators that a program makes for itself share the
pool with the instruments of its providers, and nothing else.  `Aside` says that a system
differs from another one in such things only: every aggregator that is reserved for an instrument is
as it was, and none of them can be reached without its instrument.  Steps on what stands alone keep
that, and so they keep systems in order (`Keeps.of_aside`).
-/

namespace Metering

open Fallible SystemM

variable {σ : Type}

/-- The system differs from another one only in what stands alone. -/
structure Aside (reserved : AggregatorId → Prop) (base s : System σ) : Prop where
  instruments : s.instruments = base.instruments
  handles : s.handles = base.handles
  meters : s.meters = base.meters
  providers : s.providers = base.providers
  clocks : base.KeepsClocks s
  named : ∀ {id c}, s.names.get? id = some (.component .clock c) → ∃ x, s.clocks.get? c = some x
  respects : base.pool.Respects s.pool reserved
  outside : ∀ {i}, s.Exposes i → s.pool.Offers reserved i

/-- **Aside from the instruments** a system stays in order. -/
theorem Fallible.Keeps.of_aside {α : Type} {x : SystemM σ α}
    {R : Portrait σ → Portrait σ → Prop} [Portrait.Lasting R] {since : System σ}
    (hx : ∀ reserved base, Keeps (Aside reserved base) x) : Keeps (InOrderBy R since) x := by
  intro s h
  obtain ⟨bound, role, horderly⟩ := h.orderly
  let reserved : AggregatorId → Prop := fun i => ∃ r, role r i ≠ .foreign
  have hfree : ∀ {i}, ¬ reserved i → ∀ r, role r i = .foreign := fun hi r => by
    by_contra hne
    exact hi ⟨r, hne⟩
  have hself : Aside reserved s s :=
    { instruments := rfl
      handles := rfl
      meters := rfl
      providers := rfl
      clocks := fun hc => ⟨_, hc⟩
      named := h.registry.named
      respects := .refl fun ⟨r, hr⟩ => horderly.has hr
      outside := fun hi =>
        ⟨(horderly.outside hi).1, fun ⟨r, hr⟩ => hr ((horderly.outside hi).2 r)⟩ }
  have hend := hx reserved s s hself
  have hspares := hend.respects.spares.mono fun _ hj => hfree hj
  refine h.beside hend.instruments hend.meters hend.providers hend.clocks hend.named (fun r => ?_)
    ⟨bound, role, horderly.beside hend.instruments hend.handles hend.clocks hspares fun hj => ?_⟩
  · cases hi : s.instruments.get? r with
    | none =>
      unfold System.portrait?
      rw [hend.instruments, hi]
      rfl
    | some i =>
      exact horderly.portrait_elsewhere hi (hend.instruments ▸ hi)
        (hspares.mono fun _ hj => hj r)
  · exact ⟨(hend.outside hj).has, hfree (hend.outside hj).free⟩

namespace Aside

variable {reserved : AggregatorId → Prop} {base s s' : System σ} {i : AggregatorId} {α : Type}

/-- What can be reached may be used. -/
abbrev offered (reserved : AggregatorId → Prop) : AggregatorId → System σ → Prop :=
  fun i s => s.pool.Offers reserved i

/-! ### The pool -/

/-- Work in the pool alone. -/
theorem inPool (h : Aside reserved base s) {q : Pool} (hq : base.pool.Respects q reserved)
    (hgrows : ∀ {i}, s.pool.Has i → q.Has i) : Aside reserved base { s with pool := q } :=
  { h with
    respects := hq
    outside := fun hi => (h.outside (hi.congr rfl rfl rfl)).mono hgrows }

/-- **A new aggregator**. -/
theorem newAggregator (h : Aside reserved base s) (a : Aggregator) :
    Ends (Aside reserved base) (offered reserved) (SystemM.newAggregator a s) :=
  .of_ok (h.inPool (h.respects.add a) fun hi => Pool.has_add.mpr (Or.inl hi))
    (h.respects.offers_next a)

/-- An aggregator that has a name. -/
theorem findAggregator (h : Aside reserved base s) (id : String) :
    Ends (Aside reserved base) (offered reserved) (SystemM.findAggregator id s) := by
  unfold SystemM.findAggregator SystemM.named
  simp only [bind_apply, get_apply, demand_apply]
  cases he : s.names.get? id with
  | none => exact .of_error h _
  | some e =>
    cases e with
    | component c r => exact .of_error h _
    | aggregator i => exact .of_ok h (h.outside (.named he))

theorem recordInto (h : Aside reserved base s) (hi : ¬ reserved i) (v : Scalar) :
    Ends (Aside reserved base) anything (SystemM.recordInto i v s) := by
  rw [recordInto_apply]
  cases hq : s.pool.record i v with
  | error e => exact .of_error h _
  | ok q => exact .of_ok (h.inPool (h.respects.record hi hq) (Pool.has_record hq)) trivial

theorem releaseAggregator (h : Aside reserved base s) (hi : ¬ reserved i) :
    Ends (Aside reserved base) anything (SystemM.releaseAggregator i s) :=
  .of_ok (h.inPool (h.respects.release hi) fun hj => Pool.has_setReferences.mpr hj) trivial

theorem recordAndRelease (h : Aside reserved base s) (hi : ¬ reserved i) (v : Scalar) :
    Ends (Aside reserved base) anything (SystemM.recordAndRelease i v s) := by
  unfold SystemM.recordAndRelease
  have hrecord := h.recordInto hi v
  rw [bind_apply, tryCatch_apply]
  rcases hr : SystemM.recordInto i v s with ⟨e | ⟨⟩, s'⟩ <;> rw [hr] at hrecord
  · exact .of_error (hrecord.kept.releaseAggregator hi).kept e
  · exact hrecord.kept.releaseAggregator hi

/-- Replacing the pool by what an operation makes of it. -/
theorem changePool (h : Aside reserved base s) {f : Pool → Except Failure Pool}
    (hf : ∀ {q}, f s.pool = .ok q →
      base.pool.Respects q reserved ∧ ∀ {i}, s.pool.Has i → q.Has i) :
    Ends (Aside reserved base) anything (Metering.changePool f s) := by
  unfold Metering.changePool
  rw [bind_apply, get_apply]
  dsimp only
  cases hq : f s.pool with
  | error e => exact .of_error h _
  | ok q => exact .of_ok (h.inPool (hf hq).1 (hf hq).2) trivial

theorem tryPool (h : Aside reserved base s) {f : Pool → Option Pool}
    (hf : ∀ {q}, f s.pool = some q →
      base.pool.Respects q reserved ∧ ∀ {i}, s.pool.Has i → q.Has i) :
    Ends (Aside reserved base) anything (Metering.tryPool f s) := by
  unfold Metering.tryPool
  rw [bind_apply, get_apply]
  dsimp only
  cases hq : f s.pool with
  | none => exact .of_ok h trivial
  | some q => exact .of_ok (h.inPool (hf hq).1 (hf hq).2) trivial

/-! ### Names and clocks -/

/-- **Naming** a clock that is there, an aggregator that may be used, or anything else. -/
theorem name (h : Aside reserved base s) (id : String) {e : Entity}
    (hc : ∀ {c}, e = .component .clock c → ∃ x, s.clocks.get? c = some x)
    (ha : ∀ {i}, e = .aggregator i → s.pool.Offers reserved i) :
    Aside reserved base { s with names := s.names.insert id e } :=
  { h with
    named := by
      intro id' c hid
      change (s.names.insert id e).get? id' = _ at hid
      rw [OrderedMap.get?_insert] at hid
      split at hid
      · exact hc (Option.some.inj hid)
      · exact h.named hid
    outside := by
      intro i hi
      cases hi with
      | @named id' hid =>
        change (s.names.insert id e).get? id' = _ at hid
        rw [OrderedMap.get?_insert] at hid
        split at hid
        · exact ha (Option.some.inj hid)
        · exact h.outside (.named hid)
      | window hq hl => exact h.outside (.window hq hl)
      | accumulator hq hu => exact h.outside (.accumulator hq hu) }

theorem named_ends (h : Aside reserved base s) (id : String) {e : Entity}
    (hc : ∀ {c}, e = .component .clock c → ∃ x, s.clocks.get? c = some x)
    (ha : ∀ {i}, e = .aggregator i → s.pool.Offers reserved i) :
    Ends (Aside reserved base) (fun _ s' => s'.pool = s.pool) (SystemM.name id e s) :=
  .of_ok (h.name id hc ha) rfl

/-- **A new clock**. -/
theorem newClock (h : Aside reserved base s) (c : Clock) :
    Ends (Aside reserved base) (fun r s => ∃ x, s.clocks.get? r = some x)
      (SystemM.newClock c s) := by
  refine .of_ok ?_ ⟨c, Table.get?_add_next _ _⟩
  exact
    { h with
      clocks := fun hq => by
        obtain ⟨c', hc'⟩ := h.clocks hq
        exact ⟨c', Table.get?_add_of_some _ hc'⟩
      named := fun hid => by
        obtain ⟨c', hc'⟩ := h.named hid
        exact ⟨c', Table.get?_add_of_some _ hc'⟩
      outside := fun hi => h.outside (hi.congr rfl rfl rfl) }

/-- **A clock** shows another time. -/
theorem setClock (h : Aside reserved base s) {r : Ref .clock} {c : Clock}
    (hr : s.clocks.get? r = some c) (c' : Clock) :
    Aside reserved base { s with clocks := s.clocks.set r c' } := by
  have hkept : s.KeepsClocks { s with clocks := s.clocks.set r c' } :=
    System.keepsClocks_set hr c'
  exact
    { h with
      clocks := fun hq => by
        obtain ⟨x, hx⟩ := h.clocks hq
        exact hkept hx
      named := fun hid => by
        obtain ⟨x, hx⟩ := h.named hid
        exact hkept hx
      outside := fun hi => h.outside (hi.congr rfl rfl rfl) }

/-! ### Processors -/

/-- The stream of a processor is confined. -/
theorem confined (h : Aside reserved base s) {q : Ref .processor} {p : Processor}
    (hq : s.processors.get? q = some p) :
    ({ pool := s.pool, stream := p.stream } : PooledStream).Confined reserved base.pool :=
  ⟨h.respects, fun hl => h.outside (.window hq hl)⟩

theorem rebase (h : Aside reserved base s) : Aside reserved s s :=
  { h with
    instruments := rfl
    handles := rfl
    meters := rfl
    providers := rfl
    clocks := fun hc => ⟨_, hc⟩
    respects := .refl h.respects.here }

/-- **A new processor**, with nothing in its window. -/
theorem addProcessor (h : Aside reserved base s) {p : Processor}
    (hp : p.stream.window = OrderedMap.empty) :
    Aside reserved base { s with processors := s.processors.add p } :=
  { h with
    outside := by
      intro i hi
      cases hi with
      | named hid => exact h.outside (.named hid)
      | @window q p' l hq hl =>
        change (s.processors.add p).get? q = some p' at hq
        rw [Table.get?_add] at hq
        split at hq
        · obtain rfl := Option.some.inj hq
          rw [hp] at hl
          cases hl
        · exact h.outside (.window hq hl)
      | accumulator hq hu => exact h.outside (.accumulator hq hu) }

/-- A processor whose stream has been at work. -/
theorem setProcessor (h : Aside reserved base s) {q : Ref .processor} {p : Processor}
    (hq : s.processors.get? q = some p) {w : PooledStream} (hw : w.Confined reserved base.pool)
    (hgrows : ∀ {i}, s.pool.Has i → w.pool.Has i) :
    Aside reserved base { s with
      pool := w.pool
      processors := s.processors.set q { p with stream := w.stream } } :=
  { h with
    respects := hw.respects
    outside := by
      intro i hi
      cases hi with
      | named hid => exact (h.outside (.named hid)).mono hgrows
      | @window q' p' l hq' hl =>
        change (s.processors.set q _).get? q' = some p' at hq'
        rw [Table.get?_set _ hq] at hq'
        split at hq'
        · obtain rfl := Option.some.inj hq'
          exact hw.window hl
        · exact (h.outside (.window hq' hl)).mono hgrows
      | accumulator hq hu => exact (h.outside (.accumulator hq hu)).mono hgrows }

/-- **An operation on the stream** of a processor. -/
theorem onProcessor (h : Aside reserved base s) (q : Ref .processor)
    {f : PooledStream → Except Failure α × PooledStream} (good : α → Pool → Prop)
    (hf : ∀ {w : PooledStream} {base}, w.Confined reserved base → w.pool = s.pool →
      Ends (PooledStream.Confined reserved base) (fun y w => good y w.pool) (f w)) :
    Ends (Aside reserved base) (fun y s => good y s.pool) (Metering.onProcessor q f s) := by
  unfold Metering.onProcessor SystemM.processor withStream SystemM.setProcessor
  simp only [bind_apply, get_apply, demand_apply]
  cases hq : s.processors.get? q with
  | none => exact .of_error h _
  | some p =>
    have hw := hf (h.confined hq) rfl
    have hspares := (hf (h.rebase.confined hq) rfl).kept.respects.spares
    simp only [set_apply, pure_apply, modify_apply, ofExcept_apply]
    exact ⟨h.setProcessor hq hw.kept hspares.has, hw.good⟩

/-! ### Accumulators -/

/-- **A new accumulator**, which refers to nothing but what may be used. -/
theorem addAccumulator (h : Aside reserved base s) {a : SharedAccumulator}
    (ha : ∀ {i}, a.accumulator.Uses i → s.pool.Offers reserved i) :
    Aside reserved base { s with accumulators := s.accumulators.add a } :=
  { h with
    outside := by
      intro i hi
      cases hi with
      | named hid => exact h.outside (.named hid)
      | window hq hl => exact h.outside (.window hq hl)
      | @accumulator q x hq hu =>
        change (s.accumulators.add a).get? q = some x at hq
        rw [Table.get?_add] at hq
        split at hq
        · obtain rfl := Option.some.inj hq
          exact ha hu
        · exact h.outside (.accumulator hq hu) }

/-- The live map of an accumulator after work on its accumulation. -/
theorem setAccumulator (h : Aside reserved base s) {r : Ref .accumulator} {x : SharedAccumulator}
    (hr : s.accumulators.get? r = some x) {live : OrderedMap LabelSet AggregatorId}
    (hlive : ∀ {l i}, live.get? l = some i → s.pool.Offers reserved i) :
    Aside reserved base { s with
      accumulators := s.accumulators.set r { x with accumulator := .synchronous live } } :=
  { h with
    outside := by
      intro i hi
      cases hi with
      | named hid => exact h.outside (.named hid)
      | window hq hl => exact h.outside (.window hq hl)
      | @accumulator q y hq hu =>
        change (s.accumulators.set r _).get? q = some y at hq
        rw [Table.get?_set _ hr] at hq
        split at hq
        · obtain rfl := Option.some.inj hq
          obtain ⟨l, hl⟩ := hu
          exact hlive hl
        · exact h.outside (.accumulator hq hu) }

/-- **A computation on the accumulation** of an accumulator. -/
theorem onShared (h : Aside reserved base s) (r : Ref .accumulator) {x : AccumulationM α}
    (good : α → Pool → Prop)
    (hx : ∀ {a : Accumulation} {base}, a.Confined reserved base → a.pool = s.pool →
      Ends (Accumulation.Confined reserved base) (fun y a => good y a.pool) (x a)) :
    Ends (Aside reserved base) (fun y s => good y s.pool) (Metering.onShared r x s) := by
  unfold Metering.onShared SystemM.accumulator
  simp only [bind_apply, get_apply, demand_apply]
  cases hr : s.accumulators.get? r with
  | none => exact .of_error h _
  | some y =>
    obtain ⟨accumulator, processor, v⟩ := y
    cases accumulator with
    | asynchronous => cases processor <;> exact .of_error h _
    | discarding d => cases processor <;> exact .of_error h _
    | synchronous live =>
      cases processor with
      | none => exact .of_error h _
      | some q =>
        unfold SystemM.processor
        simp only [bind_apply, get_apply, demand_apply]
        cases hq : s.processors.get? q with
        | none => exact .of_error h _
        | some p =>
          have hlive : ∀ {l i}, live.get? l = some i → s.pool.Offers reserved i :=
            fun hl => h.outside (.accumulator hr ⟨_, hl⟩)
          have ha := hx (a := ⟨⟨s.pool, p.stream⟩, live⟩) ⟨h.confined hq, hlive⟩ rfl
          have hspares := (hx (a := ⟨⟨s.pool, p.stream⟩, live⟩) ⟨h.rebase.confined hq, hlive⟩
            rfl).kept.stream.respects.spares
          have hset := (h.setProcessor hq ha.kept.stream hspares.has).setAccumulator hr ha.kept.live
          unfold accumulate SystemM.setAccumulator SystemM.setProcessor
          simp only [bind_apply, get_apply, modify_apply, ofExcept_apply]
          exact ⟨hset, ha.good⟩

end Aside

/-- What other threads add during a collection is confined. -/
theorem interference_confined {reserved : AggregatorId → Prop} {base : Pool}
    (live : OrderedMap LabelSet AggregatorId) (l : List (LabelSet × InterleavedAdds))
    {i : AggregatorId} {a : Accumulation} (h : a.Confined reserved base) :
    (interference live l i a).Confined reserved base := by
  have hrun : ∀ (x : InterleavedAdds) {a : Accumulation}, a.Confined reserved base →
      (x.run a).Confined reserved base := by
    intro x
    unfold InterleavedAdds.run
    induction x.adds with
    | nil => exact id
    | cons add adds ih =>
      intro a ha
      rw [List.foldl_cons]
      refine ih ?_
      cases add.1.argument with
      | error e => exact ha
      | ok labels => exact (ha.add labels add.2).kept
  unfold interference
  induction l generalizing a with
  | nil => exact h
  | cons x l ih =>
    rw [List.foldl_cons]
    refine ih ?_
    split
    · exact hrun x.2 h
    · exact h

end Metering
