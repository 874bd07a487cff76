import Metering.Proofs.Fallible
import Metering.Proofs.Concurrency.Roles
import Metering.System.Instrument

/-!
# The accumulation of an instrument

A synchronous instrument that does not discard is an accumulation whose pool is that of the whole
system.  `System.accumulation?` takes it out of a system and `System.withAccumulation` puts it back.
Putting it back changes no other instrument, except that all of them see the new pool.

The handles of an instrument are listed with the label sets they were bound to, and
`System.heldOn` says which references of the instrument they hold.
-/

namespace Metering

open Fallible

variable {σ : Type}

/-! ### Tables -/

theorem Table.set_of_get? {c : Component} {α : Type} {t : Table c α} {r : Ref c} {x : α}
    (h : t.get? r = some x) : t.set r x = t := by
  obtain ⟨hlt, hx⟩ := Array.getElem?_eq_some_iff.mp h
  unfold set
  congr 1
  rw [Array.setIfInBounds, dif_pos hlt, ← hx]
  exact Array.set_getElem_self hlt

theorem Table.get?_empty {c : Component} {α : Type} (r : Ref c) :
    (Table.empty : Table c α).get? r = none := by
  simp [get?, empty]

theorem Table.get?_add {c : Component} {α : Type} (t : Table c α) (x : α) (r : Ref c) :
    (t.add x).get? r = if r = t.next then some x else t.get? r := by
  obtain ⟨r⟩ := r
  simp only [get?, add, next, Array.getElem?_push, Ref.mk.injEq]

theorem Table.get?_next {c : Component} {α : Type} (t : Table c α) : t.get? t.next = none := by
  simp [get?, next]

theorem Table.get?_set {c : Component} {α : Type} {t : Table c α} {r : Ref c} {y : α} (x : α)
    (h : t.get? r = some y) (q : Ref c) :
    (t.set r x).get? q = if q = r then some x else t.get? q := by
  by_cases hq : q = r
  · rw [if_pos hq, hq, get?_set_self x h]
  · rw [if_neg hq, get?_set_of_ne t x (Ne.symm hq)]

theorem Table.set_set {c : Component} {α : Type} (t : Table c α) (r : Ref c) (x y : α) :
    (t.set r x).set r y = t.set r y := by
  unfold Table.set
  rw [Array.setIfInBounds_setIfInBounds]

theorem SystemM.demand_apply {α : Type} (what : String) (o : Option α) (s : System σ) :
    demand what o s = match o with
      | some x => (.ok x, s)
      | none => (.error (.unusable what), s) := by
  cases o <;> rfl

theorem SystemM.ofExcept_apply {α : Type} (x : Except Failure α) (s : System σ) :
    (ofExcept x : SystemM σ α) s = (x, s) := by
  cases x <;> rfl

/-! ### Instruments -/

namespace Instrument

/-- The accumulation of an instrument over a pool. -/
def accumulation? (i : Instrument σ) (p : Pool) : Option Accumulation :=
  match i.accumulator, i.processor with
  | .synchronous live, some processor =>
    some { pool := p, stream := processor.stream, live := live }
  | _, _ => none

/-- The instrument with another accumulation. -/
def withAccumulation (i : Instrument σ) (a : Accumulation) : Instrument σ :=
  match i.accumulator, i.processor with
  | .synchronous _, some processor =>
    { i with
      accumulator := .synchronous a.live
      processor := some { processor with stream := a.stream } }
  | _, _ => i

variable {i : Instrument σ} {p q : Pool} {a : Accumulation}

theorem accumulation?_eq_some (h : i.accumulation? p = some a) :
    ∃ live processor, i.accumulator = .synchronous live ∧ i.processor = some processor ∧
      a = { pool := p, stream := processor.stream, live := live } := by
  unfold accumulation? at h
  split at h
  · next live processor hl hp => exact ⟨live, processor, hl, hp, (Option.some.inj h).symm⟩
  · cases h

theorem accumulation?_pool (i : Instrument σ) (p q : Pool) :
    i.accumulation? q = (i.accumulation? p).map fun a => { a with pool := q } := by
  unfold accumulation?
  split <;> rfl

theorem accumulation?_withAccumulation (h : i.accumulation? p = some a) (b : Accumulation) :
    (i.withAccumulation b).accumulation? b.pool = some b := by
  obtain ⟨live, processor, hl, hp, rfl⟩ := accumulation?_eq_some h
  unfold withAccumulation
  rw [hl, hp]
  rfl

theorem withAccumulation_self (h : i.accumulation? p = some a) :
    i.withAccumulation { a with pool := q } = i := by
  obtain ⟨live, processor, hl, hp, rfl⟩ := accumulation?_eq_some h
  unfold withAccumulation
  obtain ⟨d, accumulator, processor', callback⟩ := i
  dsimp only at hl hp
  subst hl hp
  rfl

theorem descriptor_withAccumulation (i : Instrument σ) (a : Accumulation) :
    (i.withAccumulation a).descriptor = i.descriptor := by
  unfold withAccumulation
  split <;> rfl

end Instrument

namespace System

variable {s : System σ} {r r' : Ref .instrument} {a b : Accumulation}

/-- The accumulation of an instrument that is synchronous and does not discard. -/
def accumulation? (s : System σ) (r : Ref .instrument) : Option Accumulation :=
  (s.instruments.get? r).bind fun i => i.accumulation? s.pool

/-- The system with another accumulation of an instrument. -/
def withAccumulation (s : System σ) (r : Ref .instrument) (a : Accumulation) : System σ :=
  { s with
    pool := a.pool
    instruments := match s.instruments.get? r with
      | some i => s.instruments.set r (i.withAccumulation a)
      | none => s.instruments }

theorem accumulation?_withAccumulation_self (h : s.accumulation? r = some a) (b : Accumulation) :
    (s.withAccumulation r b).accumulation? r = some b := by
  obtain ⟨i, hi, hacc⟩ := Option.bind_eq_some_iff.mp h
  unfold accumulation? withAccumulation
  rw [hi]
  dsimp only
  rw [Table.get?_set_self _ hi]
  exact Instrument.accumulation?_withAccumulation hacc b

theorem accumulation?_withAccumulation_of_ne (hne : r' ≠ r) (b : Accumulation) :
    (s.withAccumulation r b).accumulation? r'
      = (s.accumulation? r').map fun a => { a with pool := b.pool } := by
  have hsame : (s.withAccumulation r b).instruments.get? r' = s.instruments.get? r' := by
    unfold withAccumulation
    cases s.instruments.get? r with
    | none => rfl
    | some j => exact Table.get?_set_of_ne _ _ (Ne.symm hne)
  unfold accumulation?
  rw [hsame]
  cases s.instruments.get? r' with
  | none => rfl
  | some i => exact i.accumulation?_pool s.pool b.pool

/-- Changing only the pool is putting the accumulation back with another pool. -/
theorem withAccumulation_pool (h : s.accumulation? r = some a) (p : Pool) :
    s.withAccumulation r { a with pool := p } = { s with pool := p } := by
  obtain ⟨i, hi, hacc⟩ := Option.bind_eq_some_iff.mp h
  unfold withAccumulation
  rw [hi]
  dsimp only
  rw [Instrument.withAccumulation_self hacc, Table.set_of_get? hi]

theorem accumulation?_pool (h : s.accumulation? r = some a) : a.pool = s.pool := by
  obtain ⟨i, -, hacc⟩ := Option.bind_eq_some_iff.mp h
  obtain ⟨live, processor, -, -, rfl⟩ := Instrument.accumulation?_eq_some hacc
  rfl

theorem withAccumulation_self (h : s.accumulation? r = some a) : s.withAccumulation r a = s := by
  refine (withAccumulation_pool h a.pool).trans ?_
  rw [accumulation?_pool h]

end System

/-- **Working** on an instrument works on its accumulation. -/
theorem SystemM.onAccumulation_apply {α : Type} {s : System σ} {r : Ref .instrument}
    {a : Accumulation} (h : s.accumulation? r = some a) (x : AccumulationM α) :
    onAccumulation r x s = ((x a).1, s.withAccumulation r (x a).2) := by
  obtain ⟨i, hi, hacc⟩ := Option.bind_eq_some_iff.mp h
  obtain ⟨live, processor, hl, hp, rfl⟩ := Instrument.accumulation?_eq_some hacc
  unfold onAccumulation instrument accumulate setInstrument System.withAccumulation
    Instrument.withAccumulation
  simp only [bind_apply, get_apply, demand_apply, hi, hl, hp, modify_apply, ofExcept_apply]
  rfl

/-! ### Handles -/

namespace System

/-- The reference that a handle holds, if it is one of the instrument and not released. -/
def reference? (s : System σ) (r : Ref .instrument) (h : Ref .handle) : Option AggregatorId :=
  match s.handles.get? h with
  | some x => if x.instrument = r ∧ x.released = false then some x.aggregator else none
  | none => none

/-- The references of an instrument that handles hold; the handles come with the label sets they
were bound to. -/
def heldOn (s : System σ) (r : Ref .instrument) (bound : List (Ref .handle × LabelSet)) :
    List (LabelSet × AggregatorId) :=
  bound.filterMap fun b => (s.reference? r b.1).map fun i => (b.2, i)

variable {s s' : System σ} {r : Ref .instrument} {bound : List (Ref .handle × LabelSet)}

theorem mem_heldOn {l : LabelSet} {i : AggregatorId} :
    (l, i) ∈ s.heldOn r bound ↔ ∃ h, (h, l) ∈ bound ∧ s.reference? r h = some i := by
  unfold heldOn
  rw [List.mem_filterMap]
  constructor
  · rintro ⟨⟨h, l'⟩, hb, hi⟩
    obtain ⟨i', hi', he⟩ := Option.map_eq_some_iff.mp hi
    obtain ⟨rfl, rfl⟩ := Prod.mk.inj he
    exact ⟨h, hb, hi'⟩
  · rintro ⟨h, hb, hi⟩
    exact ⟨(h, l), hb, by rw [hi]; rfl⟩

theorem reference?_congr (h : s'.handles = s.handles) (x : Ref .handle) :
    s'.reference? r x = s.reference? r x := by
  unfold reference?
  rw [h]

/-- An instrument that no handle is for has nothing held. -/
theorem heldOn_eq_nil (h : ∀ {q x}, s.handles.get? q = some x → x.instrument ≠ r) :
    s.heldOn r bound = [] := by
  refine List.filterMap_eq_nil_iff.mpr fun b _ => ?_
  unfold reference?
  cases hx : s.handles.get? b.1 with
  | none => rfl
  | some x =>
    dsimp only
    rw [if_neg fun hr => h hx hr.1]
    rfl

theorem heldOn_congr (h : ∀ b ∈ bound, s'.reference? r b.1 = s.reference? r b.1) :
    s'.heldOn r bound = s.heldOn r bound := by
  unfold heldOn
  refine List.filterMap_congr fun b hb => ?_
  rw [h b hb]

/-- References to an aggregator that is bound under one label set only, counted by handles. -/
theorem count_heldOn {l : LabelSet} {i : AggregatorId}
    (hl : ∀ l', (l', i) ∈ s.heldOn r bound → l' = l) : (s.heldOn r bound).count (l, i)
      = (bound.filter fun b => s.reference? r b.1 = some i).length := by
  induction bound with
  | nil => rfl
  | cons b bound ih =>
    have hcons : s.heldOn r (b :: bound)
        = ((s.reference? r b.1).map fun i => (b.2, i)).toList ++ s.heldOn r bound := by
      unfold heldOn
      rw [List.filterMap_cons]
      cases s.reference? r b.1 <;> rfl
    rw [hcons] at hl ⊢
    have ih := ih fun l' hmem => hl l' (List.mem_append_right _ hmem)
    rw [List.count_append, ih, List.filter_cons]
    cases href : s.reference? r b.1 with
    | none => simp
    | some j =>
      by_cases hj : j = i
      · -- the handle was bound under the one label set of the aggregator
        subst hj
        obtain rfl : b.2 = l := hl b.2 (by rw [href]; simp)
        simp [Nat.add_comm]
      · simp [hj]

end System

end Metering
