import Metering.Accumulation
import Metering.Proofs.Aggregator.Cells
import Metering.Proofs.Fallible
import Metering.Proofs.OrderedMap

/-!
# Work that is confined

A pool is shared by all that measures, and nothing but its identifiers says whose an aggregator is.
Some identifiers are reserved, say those of the instruments of a provider.  What works with other
ones is *confined*: it changes no reserved aggregator, and no identifier that it has or makes is
reserved.  The operations of streams and accumulations are confined, whatever happens in them, if
they are given none of the reserved identifiers.
-/

namespace Metering

open Fallible

/-- An aggregator is there and is not reserved. -/
structure Pool.Offers (p : Pool) (reserved : AggregatorId → Prop) (i : AggregatorId) : Prop where
  has : p.Has i
  free : ¬ reserved i

/-- One pool comes from another in which every reserved aggregator is there, and they are all as
they were. -/
structure Pool.Respects (p q : Pool) (reserved : AggregatorId → Prop) : Prop where
  there : ∀ {i}, reserved i → p.Has i
  spares : p.Spares q fun i => ¬ reserved i

section

variable {reserved : AggregatorId → Prop} {p q base : Pool} {i j : AggregatorId}

theorem Pool.Offers.mono (h : p.Offers reserved i) (hp : ∀ {i}, p.Has i → q.Has i) :
    q.Offers reserved i :=
  ⟨hp h.has, h.free⟩

namespace Pool.Respects

theorem refl (h : ∀ {i}, reserved i → p.Has i) : p.Respects p reserved := ⟨h, .refl p⟩

theorem trans (h : base.Respects p reserved) (h' : p.Spares q fun i => ¬ reserved i) :
    base.Respects q reserved :=
  ⟨h.there, h.spares.trans h'⟩

/-- Every reserved aggregator is still there. -/
theorem here (h : base.Respects p reserved) (hi : reserved i) : p.Has i :=
  h.spares.has (h.there hi)

theorem setOf (h : base.Respects p reserved) (hi : ¬ reserved i)
    (hq : p.Spares q (· = i)) : base.Respects q reserved :=
  h.trans (hq.mono fun _ hj => hj ▸ hi)

/-- What is new is not reserved. -/
theorem offers_next (h : base.Respects p reserved) (a : Aggregator) :
    (p.add a).Offers reserved p.next :=
  ⟨Pool.has_add.mpr (Or.inr rfl), fun hr => p.not_has_next (h.here hr)⟩

theorem add (h : base.Respects p reserved) (a : Aggregator) : base.Respects (p.add a) reserved :=
  h.trans .add

theorem record (h : base.Respects p reserved) (hi : ¬ reserved i) {x : Scalar}
    (hq : p.record i x = .ok q) : base.Respects q reserved := by
  obtain ⟨a, -, rfl⟩ := Pool.record_eq_ok hq
  exact h.setOf hi (.set _ _ _)

theorem move (h : base.Respects p reserved) (hi : ¬ reserved i) (hj : ¬ reserved j)
    (hq : p.move i j = .ok q) : base.Respects q reserved := by
  refine h.trans ((Pool.move_spares hq).mono fun _ hk => ?_)
  rcases hk with rfl | rfl
  · exact hi
  · exact hj

theorem acquire (h : base.Respects p reserved) (hi : ¬ reserved i)
    (hq : p.acquire? i = some q) : base.Respects q reserved := by
  obtain ⟨n, -, rfl⟩ := Pool.acquire?_eq_some hq
  exact h.setOf hi (.setReferences _ _ _)

theorem retire (h : base.Respects p reserved) (hi : ¬ reserved i)
    (hq : p.retire? i = some q) : base.Respects q reserved := by
  obtain ⟨-, rfl⟩ := Pool.retire?_eq_some hq
  exact h.setOf hi (.setReferences _ _ _)

theorem release (h : base.Respects p reserved) (hi : ¬ reserved i) :
    base.Respects (p.release i) reserved :=
  h.setOf hi (.setReferences _ _ _)

end Pool.Respects

/-! ### Streams -/

theorem Pool.has_record {x : Scalar} (hq : p.record i x = .ok q) (hj : p.Has j) : q.Has j := by
  obtain ⟨a, -, rfl⟩ := Pool.record_eq_ok hq
  exact Pool.has_set.mpr hj

theorem Pool.has_acquire (hq : p.acquire? i = some q) (hj : p.Has j) : q.Has j := by
  obtain ⟨n, -, rfl⟩ := Pool.acquire?_eq_some hq
  exact Pool.has_setReferences.mpr hj

/-- Nothing is lost by an attempt to retire an aggregator. -/
theorem Pool.has_tryRetire (p : Pool) (hj : p.Has j) : ((p.retire? i).getD p).Has j := by
  cases hq : p.retire? i with
  | none => exact hj
  | some q =>
    obtain ⟨-, rfl⟩ := Pool.retire?_eq_some hq
    exact Pool.has_setReferences.mpr hj

/-- A stream with its pool is confined: it has respected what is reserved, and has nothing of it. -/
structure PooledStream.Confined (reserved : AggregatorId → Prop) (base : Pool)
    (w : PooledStream) : Prop where
  respects : base.Respects w.pool reserved
  window : ∀ {l i}, w.stream.window.get? l = some i → w.pool.Offers reserved i

namespace PooledStream.Confined

variable {w : PooledStream} {l : LabelSet}

/-- Work in the pool alone. -/
theorem inPool (h : w.Confined reserved base) (hq : base.Respects q reserved)
    (hhas : ∀ {i}, w.pool.Has i → q.Has i) :
    ({ w with pool := q } : PooledStream).Confined reserved base :=
  ⟨hq, fun hl => (h.window hl).mono hhas⟩

theorem create (h : w.Confined reserved base) :
    w.create.2.Confined reserved base ∧ w.create.2.pool.Offers reserved w.create.1 :=
  ⟨h.inPool (h.respects.add _) fun hi => Pool.has_add.mpr (Or.inl hi), h.respects.offers_next _⟩

theorem enter (h : w.Confined reserved base) (hi : w.pool.Offers reserved i) :
    (w.enter l i).Confined reserved base where
  respects := h.respects
  window {l' j} hl' := by
    change (w.stream.window.insert l i).get? l' = some j at hl'
    rw [OrderedMap.get?_insert] at hl'
    split at hl'
    · obtain rfl := Option.some.inj hl'
      exact hi
    · exact h.window hl'

theorem move (h : w.Confined reserved base) (hi : ¬ reserved i) (hj : ¬ reserved j) :
    (w.move i j).2.Confined reserved base := by
  unfold PooledStream.move
  cases hq : w.pool.move i j with
  | error e => exact h
  | ok q => exact h.inPool (h.respects.move hi hj hq) (Pool.move_spares hq).has

theorem batch (h : w.Confined reserved base) (hi : w.pool.Offers reserved i) (unmapped : Bool) :
    (w.batch l i unmapped).2.Confined reserved base := by
  unfold PooledStream.batch
  cases hl : w.stream.window.get? l with
  | some j => exact h.move hi.free (h.window hl).free
  | none =>
    dsimp only
    split
    · exact h.enter hi
    · obtain ⟨h', hnew⟩ := h.create
      exact (h'.enter hnew).move hi.free hnew.free

theorem skip (h : w.Confined reserved base) (time : Int) :
    (w.skip time).Confined reserved base where
  respects := h.respects
  window {l i} hl := by
    unfold PooledStream.skip Stream.endWindow at hl
    dsimp only at hl
    split at hl
    · cases hl
    · exact h.window hl

theorem gather (h : w.Confined reserved base) (values : List (LabelSet × Number)) :
    (w.gather values).2.Confined reserved base := by
  induction values generalizing w with
  | nil => exact h
  | cons v rest ih =>
    obtain ⟨l, x⟩ := v
    obtain ⟨h', hnew⟩ := h.create
    unfold PooledStream.gather
    dsimp only
    cases hq : w.create.2.pool.record w.create.1 (.number x) with
    | error e => exact h'
    | ok q =>
      dsimp only
      have hbatch := (h'.inPool (h'.respects.record hnew.free hq) (Pool.has_record hq)).batch
        (l := l) (hnew.mono (Pool.has_record hq)) true
      split
      · next heq =>
        rw [heq] at hbatch
        exact ih hbatch
      · next heq =>
        rw [heq] at hbatch
        exact hbatch

theorem close (h : w.Confined reserved base) (observed : Option (List (LabelSet × Number)))
    (time : Int) : (w.close observed time).2.Confined reserved base := by
  unfold PooledStream.close
  cases observed with
  | none => exact h.skip time
  | some values =>
    dsimp only
    have hgather := h.gather values
    split
    · next heq =>
      rw [heq] at hgather
      exact hgather
    · next heq =>
      rw [heq] at hgather
      exact hgather.skip time

end PooledStream.Confined

/-! ### Accumulations -/

/-- An accumulation is confined: it has respected what is reserved, and has nothing of it. -/
structure Accumulation.Confined (reserved : AggregatorId → Prop) (base : Pool)
    (a : Accumulation) : Prop where
  stream : a.toPooledStream.Confined reserved base
  live : ∀ {l i}, a.live.get? l = some i → a.pool.Offers reserved i

namespace Accumulation

variable {α : Type} {a : Accumulation} {l : LabelSet} {good : α → Accumulation → Prop}

/-- What a computation gives may be used. -/
abbrev offered (reserved : AggregatorId → Prop) : AggregatorId → Accumulation → Prop :=
  fun c a => a.pool.Offers reserved c

namespace Confined

theorem rebase (h : a.Confined reserved base) : a.Confined reserved a.pool :=
  ⟨⟨.refl h.stream.respects.here, h.stream.window⟩, h.live⟩

/-- Work in the pool alone. -/
theorem inPool (h : a.Confined reserved base) (hq : base.Respects q reserved)
    (hhas : ∀ {i}, a.pool.Has i → q.Has i) :
    ({ a with pool := q } : Accumulation).Confined reserved base :=
  ⟨h.stream.inPool hq hhas, fun hl => (h.live hl).mono hhas⟩

theorem tryRetire (h : a.Confined reserved base) (hi : ¬ reserved i) :
    ({ a with pool := (a.pool.retire? i).getD a.pool } : Accumulation).Confined reserved base := by
  refine h.inPool ?_ a.pool.has_tryRetire
  cases hq : a.pool.retire? i with
  | none => exact h.stream.respects
  | some q => exact h.stream.respects.retire hi hq

theorem mapped (h : a.Confined reserved base) (hi : a.pool.Offers reserved i) :
    ({ a with live := a.live.insert l i } : Accumulation).Confined reserved base where
  stream := h.stream
  live {l' j} hl' := by
    change (a.live.insert l i).get? l' = some j at hl'
    rw [OrderedMap.get?_insert] at hl'
    split at hl'
    · obtain rfl := Option.some.inj hl'
      exact hi
    · exact h.live hl'

theorem unmapped (h : a.Confined reserved base) (l : LabelSet) :
    ({ a with live := a.live.erase l } : Accumulation).Confined reserved base where
  stream := h.stream
  live {l' j} hl' := by
    change (a.live.erase l).get? l' = some j at hl'
    rw [OrderedMap.get?_erase] at hl'
    split at hl'
    · cases hl'
    · exact h.live hl'

end Confined

/-- What is confined wherever it is begun loses no aggregator. -/
theorem Confined.grows {x : AccumulationM α} (h : a.Confined reserved base)
    (hx : ∀ {base}, a.Confined reserved base → Ends (Confined reserved base) good (x a)) :
    Ends (Confined reserved base) (fun y b => good y b ∧ ∀ {k}, a.pool.Has k → b.pool.Has k)
      (x a) where
  kept := (hx h).kept
  good y hy := ⟨(hx h).good y hy, (hx h.rebase).kept.stream.respects.spares.has⟩

/-- An operation on the stream of an accumulation. -/
theorem Confined.onStream {f : PooledStream → Except Failure α × PooledStream}
    (h : a.Confined reserved base) (hw : (f a.toPooledStream).2.Confined reserved base)
    (hgrows : ∀ {i}, a.pool.Has i → (f a.toPooledStream).2.pool.Has i)
    (hgood : ∀ y, (f a.toPooledStream).1 = .ok y →
      good y { a with toPooledStream := (f a.toPooledStream).2 }) :
    Ends (Confined reserved base) good (Accumulation.onStream f a) :=
  ⟨⟨hw, fun hl => (h.live hl).mono hgrows⟩, hgood⟩

namespace Confined

/-- **Recording** in an aggregator that is not reserved. -/
theorem record (h : a.Confined reserved base) (hi : ¬ reserved i) (v : Scalar) :
    Ends (Confined reserved base) anything (Accumulation.record i v a) := by
  unfold Accumulation.record
  rw [bind_apply, get_apply]
  dsimp only
  cases hq : a.pool.record i v with
  | error e => exact .of_error h _
  | ok q =>
    exact .of_ok (h.inPool (h.stream.respects.record hi hq) (Pool.has_record hq)) trivial

theorem recordAll (h : a.Confined reserved base) (hi : ¬ reserved i) (vs : List Scalar) :
    Ends (Confined reserved base) anything (Accumulation.recordAll i vs a) := by
  unfold Accumulation.recordAll
  induction vs generalizing a with
  | nil => exact .of_ok h trivial
  | cons v vs ih => exact (h.record hi v).bind fun _ _ hb _ => ih hb

/-- **Releasing** an aggregator that is not reserved. -/
theorem release (h : a.Confined reserved base) (hi : ¬ reserved i) :
    Ends (Confined reserved base) anything (Accumulation.release i a) :=
  .of_ok (h.inPool (h.stream.respects.release hi) fun hj => Pool.has_setReferences.mpr hj) trivial

theorem candidate (h : a.Confined reserved base) :
    Ends (Confined reserved base) (offered reserved) (Accumulation.candidate a) := by
  obtain ⟨hw, hnew⟩ := h.stream.create
  have h' : ({ a with toPooledStream := a.toPooledStream.create.2 } : Accumulation).Confined
      reserved base := ⟨hw, fun hl => (h.live hl).mono fun hi => Pool.has_add.mpr (Or.inl hi)⟩
  unfold Accumulation.candidate
  dsimp only
  cases hq : a.toPooledStream.create.2.pool.acquire? a.toPooledStream.create.1 with
  | none => exact .of_ok h' hnew
  | some q =>
    exact .of_ok (h'.inPool (hw.respects.acquire hnew.free hq) (Pool.has_acquire hq))
      (hnew.mono (Pool.has_acquire hq))

theorem acquireLive? (h : a.Confined reserved base) {b : Accumulation}
    (hb : a.acquireLive? l = some (i, b)) :
    b.Confined reserved base ∧ b.pool.Offers reserved i ∧
      ∀ {j}, a.pool.Has j → b.pool.Has j := by
  unfold Accumulation.acquireLive? at hb
  cases hl : a.live.get? l with
  | none =>
    rw [hl] at hb
    cases hb
  | some j =>
    rw [hl] at hb
    obtain ⟨q, hq, hpair⟩ := Option.map_eq_some_iff.mp hb
    obtain ⟨rfl, rfl⟩ := Prod.mk.inj hpair
    exact ⟨h.inPool (h.stream.respects.acquire (h.live hl).free hq) (Pool.has_acquire hq),
      (h.live hl).mono (Pool.has_acquire hq), Pool.has_acquire hq⟩

theorem settle (h : a.Confined reserved base) (hi : a.pool.Offers reserved i) :
    Ends (Confined reserved base) (offered reserved) (Accumulation.settle l i a) := by
  unfold Accumulation.settle
  rw [bind_apply, get_apply]
  dsimp only
  cases hacquire : a.acquireLive? l with
  | none =>
    exact .of_ok (h.mapped hi) hi
  | some x =>
    obtain ⟨j, b⟩ := x
    obtain ⟨hb, hj, hgrows⟩ := h.acquireLive? hacquire
    have hi' := hi.mono hgrows
    dsimp only
    rw [bind_apply, set_apply]
    dsimp only
    have hmove : Ends (Confined reserved base) (fun _ b => b.pool.Offers reserved j)
        (Accumulation.onStream (·.move i j) b) := by
      have hkept : ∀ {k}, b.pool.Has k → (b.toPooledStream.move i j).2.pool.Has k := by
        intro k hk
        unfold PooledStream.move
        cases hq : b.pool.move i j with
        | error e => exact hk
        | ok q => exact (Pool.move_spares hq).has hk
      exact hb.onStream (hb.stream.move hi'.free hj.free) hkept
        fun _ _ => hj.mono hkept
    refine hmove.bind fun _ c hc hjc => ?_
    have hrelease := hc.release hi.free
    exact ⟨hrelease.kept, fun y hy => by
      obtain rfl := Except.ok.inj hy
      exact hjc.mono fun hk => Pool.has_setReferences.mpr hk⟩

/-- **Binding**, if the other threads that act meanwhile are confined too. -/
theorem bindDuring (h : a.Confined reserved base) {others : AggregatorId → AccumulationM Unit}
    (hothers : ∀ {base b c}, b.Confined reserved base → (∀ {k}, a.pool.Has k → b.pool.Has k) →
      b.pool.Offers reserved c → Ends (Confined reserved base) anything (others c b)) :
    Ends (Confined reserved base) (offered reserved)
      (Accumulation.bindDuring others l a) := by
  unfold Accumulation.bindDuring
  rw [bind_apply, get_apply]
  dsimp only
  cases hacquire : a.acquireLive? l with
  | some x =>
    obtain ⟨j, b⟩ := x
    obtain ⟨hb, hj, -⟩ := h.acquireLive? hacquire
    exact .of_ok hb hj
  | none =>
    refine (h.grows candidate).bind fun c b hb hc => ?_
    obtain ⟨hc, hgrows⟩ := hc
    refine (hb.grows fun hb => hothers hb hgrows hc).bind fun _ b' hb' hgrows' => ?_
    exact hb'.settle (hc.mono hgrows'.2)

theorem bind (h : a.Confined reserved base) :
    Ends (Confined reserved base) (offered reserved) (Accumulation.bind l a) :=
  h.bindDuring fun hb _ _ => .of_ok hb trivial

theorem bindArgument (h : a.Confined reserved base) (labels : LabelArgument) :
    Ends (Confined reserved base) (offered reserved) (Accumulation.bindArgument labels a) := by
  unfold Accumulation.bindArgument
  cases LabelSet.create labels with
  | error e => exact .of_error h _
  | ok l => exact h.bind

/-- **Adding** a measurement. -/
theorem add (h : a.Confined reserved base) (labels : LabelArgument) (v : Scalar) :
    Ends (Confined reserved base) anything (Accumulation.add labels v a) := by
  unfold Accumulation.add
  refine (h.bindArgument labels).bind fun i b hb hi => ?_
  have hrecord := hb.record hi.free v
  rw [bind_apply, tryCatch_apply]
  rcases hr : Accumulation.record i v b with ⟨e | ⟨⟩, b'⟩ <;> rw [hr] at hrecord
  · dsimp only
    rw [bind_apply]
    exact .of_error (hrecord.kept.release hi.free).kept e
  · exact hrecord.kept.release hi.free

/-! ### Other threads -/

theorem rival (h : a.Confined reserved base) (vs : List Scalar) (retired : Bool) :
    Ends (Confined reserved base) (offered reserved) (Accumulation.rival vs retired a) := by
  obtain ⟨hw, hnew⟩ := h.stream.create
  unfold Accumulation.rival
  have hcreate : Ends (Confined reserved base) (offered reserved)
      (Accumulation.onStream (fun w => (.ok w.create.1, w.create.2)) a) :=
    h.onStream hw (fun hi => Pool.has_add.mpr (Or.inl hi)) fun y hy => by
      obtain rfl := Except.ok.inj hy
      exact hnew
  refine hcreate.bind fun i b hb hi => ?_
  refine (hb.grows fun hb => hb.recordAll hi.free vs).bind fun _ b' hb' hgrows => ?_
  have hi' := hi.mono hgrows.2
  cases retired with
  | false => exact .of_ok hb' hi'
  | true =>
    change Ends _ _ (Except.ok i, { b' with pool := (b'.pool.retire? i).getD b'.pool })
    exact .of_ok (hb'.tryRetire hi.free) (hi'.mono b'.pool.has_tryRetire)

theorem bindAgainst (h : a.Confined reserved base) (hi : a.pool.Offers reserved i)
    (vs : List Scalar) : Ends (Confined reserved base) (offered reserved)
      (Accumulation.bindAgainst i vs l a) := by
  refine h.bindDuring fun hb hgrows hc => ?_
  exact (hb.grows fun hb => hb.recordAll hc.free vs).bind fun _ b hb' hgrows' =>
    .of_ok (hb'.mapped ((hi.mono hgrows).mono hgrows'.2)) trivial

/-! ### Collecting -/

/-- **Draining** a live aggregator, if the other threads that act meanwhile are confined too. -/
theorem drain (h : a.Confined reserved base) {interfere : Interference}
    (hothers : ∀ {base i b}, Confined reserved base b → (interfere i b).Confined reserved base)
    (hi : a.pool.Offers reserved i) :
    Ends (Confined reserved base) anything (Accumulation.drain interfere l i a) := by
  have htried := h.tryRetire hi.free
  have hi' : (interfere i { a with pool := (a.pool.retire? i).getD a.pool }).pool.Offers
      reserved i :=
    hi.mono fun hk => (hothers htried.rebase).stream.respects.spares.has
      (a.pool.has_tryRetire hk)
  have hbatch : ∀ {b : Accumulation}, b.Confined reserved base → b.pool.Offers reserved i →
      Ends (Confined reserved base) anything
        (Accumulation.onStream (·.batch l i (a.pool.retire? i).isSome) b) := fun hb hi =>
    hb.onStream (hb.stream.batch hi _)
      (fun hk => (hb.rebase.stream.batch hi _).respects.spares.has hk) fun _ _ => trivial
  unfold Accumulation.drain
  rw [bind_apply, get_apply]
  dsimp only
  rw [bind_apply, set_apply]
  dsimp only
  have hb := hothers (i := i) htried
  generalize interfere i { a with pool := (a.pool.retire? i).getD a.pool } = b at hb hi'
  split
  · rw [bind_apply, modify_apply]
    dsimp only
    split
    · exact hbatch (hb.unmapped l) hi'
    · exact hbatch hb hi'
  · exact hbatch hb hi'

/-- **Collecting**, if the other threads that act meanwhile are confined too. -/
theorem collect (h : a.Confined reserved base) {interfere : Interference}
    (hothers : ∀ {base i b}, Confined reserved base b → (interfere i b).Confined reserved base)
    (time : Int) :
    Ends (Confined reserved base) anything (Accumulation.collect interfere time a) := by
  have hdrains : ∀ (entries : List (LabelSet × AggregatorId)) {b : Accumulation},
      b.Confined reserved base → (∀ e ∈ entries, b.pool.Offers reserved e.2) →
      Ends (Confined reserved base) anything
        (entries.forM (fun e => Accumulation.drain interfere e.1 e.2) b) := by
    intro entries
    induction entries with
    | nil => exact fun hb _ => .of_ok hb trivial
    | cons e rest ih =>
      intro b hb hoffers
      refine (hb.grows fun hb => hb.drain hothers (hoffers e List.mem_cons_self)).bind
        fun _ b' hb' hgrows => ih hb' fun e' he' => ?_
      exact (hoffers e' (List.mem_cons_of_mem _ he')).mono hgrows.2
  unfold Accumulation.collect
  rw [bind_apply, get_apply]
  dsimp only
  refine (hdrains _ h fun e he => h.live (OrderedMap.mem_entries_iff.mp he)).bind fun _ b hb _ => ?_
  exact hb.onStream (hb.stream.skip time) id fun _ _ => trivial

end Confined

end Accumulation

end

end Metering
