import Metering.Proofs.Processors.Mirrors
import Metering.Proofs.Processors.Windows

/-!
# Adoption is only an optimisation

An aggregator that is batched as unmapped is adopted by a window that has nothing for its label set,
and one that is batched as live is taken up into a fresh one.  If all aggregators are made by the
processor a fresh one that takes up another is just like it, so the two windows mirror each other
(`Desk.Stocked.adopt_mirrors`), and no later calls can tell them apart.

`adoption_changes_nothing` is the main statement.  It compares an aggregator with a copy of it, of
which nothing is asked but that the window does not have the aggregator already.
-/

namespace Metering

open Fallible SystemM

variable {σ : Type}

/-! ### Aggregators made by a processor -/

namespace Pool

/-- What is in use is there, and is made by the stream. -/
structure Stocks (s : Stream) (used : AggregatorId → Prop) (p : Pool) : Prop where
  has : ∀ {i}, used i → p.Has i
  makes : ∀ {i}, used i → s.Makes (p.get i)

namespace Stocks

variable {s : Stream} {used : AggregatorId → Prop} {p q : Pool} {i j : AggregatorId}
  {a : Aggregator}

theorem continues {s' : Stream} (h : Stocks s used p) (hs : s.Continues s') : Stocks s' used p :=
  ⟨h.has, fun hi => hs.makes.mpr (h.makes hi)⟩

theorem set (h : Stocks s used p) (hi : used i) (ha : s.Makes a) : Stocks s used (p.set i a) where
  has hj := has_set.mpr (h.has hj)
  makes {j} hj := by
    by_cases hij : i = j
    · subst hij
      rwa [get_set_self (h.has hi)]
    · rw [get_set_of_ne p a hij]
      exact h.makes hj

theorem add (h : Stocks s used p) (ha : s.Makes a) :
    Stocks s (fun i => used i ∨ i = p.next) (p.add a) where
  has hi := has_add.mpr (hi.imp_left h.has)
  makes := by
    rintro j (hj | rfl)
    · rw [get_add_of_has (h.has hj)]
      exact h.makes hj
    · rwa [get_add_next]

theorem record (h : Stocks s used p) (hi : used i) {x : Scalar} (hq : p.record i x = .ok q) :
    Stocks s used q := by
  obtain ⟨b, hb, rfl⟩ := record_eq_ok hq
  refine h.set hi ?_
  have hrecord := (h.makes hi).record_eq x
  cases he : s.refusal? x with
  | some e =>
    rw [he, hb] at hrecord
    cases hrecord
  | none =>
    rw [he, hb] at hrecord
    obtain ⟨b', hb', hmakes⟩ := hrecord
    rw [Except.ok.inj hb']
    exact hmakes

/-- Aggregators of the stream move into each other. -/
theorem move (h : Stocks s used p) (hi : used i) (hj : used j) :
    ∃ q, p.move i j = .ok q ∧ Stocks s used q := by
  have hdrained : Stocks s used (p.set i (p.get i).emptied) := by
    refine h.set hi ?_
    rw [(h.makes hi).emptied]
    exact s.makes_fresh
  exact ⟨_, move_eq ((h.makes hi).mergeError? (h.makes hj)),
    hdrained.set hj ((hdrained.makes hj).absorb (h.makes hi))⟩

end Stocks

end Pool

namespace PooledStream

/-- All that is in use is made by the stream, and so is its window. -/
structure Stocked (used : AggregatorId → Prop) (w : PooledStream) : Prop where
  pool : w.pool.Stocks w.stream used
  window : ∀ {l i}, w.stream.window.get? l = some i → used i

namespace Stocked

variable {used used' : AggregatorId → Prop} {w : PooledStream} {i j : AggregatorId} {l : LabelSet}

theorem ne_next (h : Stocked used w) (hi : used i) : i ≠ w.pool.next := (h.pool.has hi).ne_next

theorem of_pool (h : Stocked used w) {p : Pool} (hpool : p.Stocks w.stream used) :
    Stocked used { w with pool := p } := ⟨hpool, h.window⟩

theorem add (h : Stocked used w) {a : Aggregator} (ha : w.stream.Makes a) :
    Stocked (fun i => used i ∨ i = w.pool.next) { w with pool := w.pool.add a } :=
  ⟨h.pool.add ha, fun hi => Or.inl (h.window hi)⟩

theorem create (h : Stocked used w) : Stocked (fun i => used i ∨ i = w.pool.next) w.create.2 :=
  h.add w.stream.makes_fresh

theorem enter (h : Stocked used w) (hi : used i) (l : LabelSet) : Stocked used (w.enter l i) := by
  refine ⟨h.pool.continues rfl, fun {l' j} hj => ?_⟩
  have hj : (w.stream.window.insert l i).get? l' = some j := hj
  rw [OrderedMap.get?_insert] at hj
  split at hj
  · exact Option.some.inj hj ▸ hi
  · exact h.window hj

theorem move (h : Stocked used w) (hi : used i) (hj : used j) :
    (w.move i j).1 = .ok () ∧ Stocked used (w.move i j).2 := by
  obtain ⟨q, hq, hstocks⟩ := h.pool.move hi hj
  unfold PooledStream.move
  rw [hq]
  exact ⟨rfl, h.of_pool hstocks⟩

/-- **Batching** does not fail, and what is in use then was so before or is new. -/
theorem batch (h : Stocked used w) (hi : used i) (l : LabelSet) (unmapped : Bool) :
    (w.batch l i unmapped).1 = .ok () ∧ ∃ used', (∀ {j}, used j → used' j) ∧
      Stocked used' (w.batch l i unmapped).2 := by
  cases hl : w.stream.window.get? l with
  | some j =>
    rw [batch_of_some hl]
    obtain ⟨hresult, hstocked⟩ := h.move hi (h.window hl)
    exact ⟨hresult, used, id, hstocked⟩
  | none =>
    cases unmapped with
    | true =>
      rw [batch_of_none_unmapped hl]
      exact ⟨rfl, used, id, h.enter hi l⟩
    | false =>
      rw [batch_of_none_live hl]
      obtain ⟨hresult, hstocked⟩ := (h.create.enter (Or.inr rfl) l).move (Or.inl hi) (Or.inr rfl)
      exact ⟨hresult, _, Or.inl, hstocked⟩

theorem skip (h : Stocked used w) (time : Int) : Stocked used (w.skip time) := by
  unfold PooledStream.skip
  cases ht : w.stream.temporality with
  | cumulative =>
    rw [Stream.endWindow_cumulative ht]
    exact h
  | delta =>
    rw [Stream.endWindow_delta ht]
    exact ⟨h.pool.continues rfl, fun hi => by cases hi⟩

end Stocked

end PooledStream

/-! ### An aggregator and its copy -/

namespace PooledStream

/-- The stream with a copy of an aggregator in its pool. -/
def copy (w : PooledStream) (i : AggregatorId) : PooledStream :=
  { w with pool := w.pool.add (w.pool.get i) }

variable {used : AggregatorId → Prop} {w : PooledStream} {i j : AggregatorId} {l : LabelSet}

theorem get_copy_of_has (h : w.pool.Has j) : (w.copy i).pool.get j = w.pool.get j :=
  Pool.get_add_of_has h

theorem get_copy_next : (w.copy i).pool.get w.pool.next = w.pool.get i :=
  Pool.get_add_next w.pool (w.pool.get i)

theorem Stocked.copy (h : w.Stocked used) (hi : used i) :
    (w.copy i).Stocked fun j => used j ∨ j = w.pool.next := h.add (h.pool.makes hi)

theorem get_create_of_has (h : w.pool.Has j) : w.create.2.pool.get j = w.pool.get j :=
  Pool.get_add_of_has h

theorem get_create_next : w.create.2.pool.get w.pool.next = w.stream.freshAggregator :=
  Pool.get_add_next w.pool w.stream.freshAggregator

/-- **A label set that the window has**: the aggregator there takes up both in the same way. -/
theorem Stocked.batch_known (h : w.Stocked used) (hi : used i)
    (hwindow : ∀ l, w.stream.window.get? l ≠ some i) (hl : w.stream.window.get? l = some j) :
    Mirrors id (fun i' => used i' ∧ i' ≠ i) (w.batch l i true).2
      ((w.copy i).batch l w.pool.next false).2 := by
  have hj : used j := h.window hl
  have hij : i ≠ j := fun heq => hwindow l (heq ▸ hl)
  have hcopy := h.copy hi
  obtain ⟨p, hp, -, hget, -, hspares⟩ := Pool.move_of_ne hij (h.pool.has hi) (h.pool.has hj)
    ((h.pool.makes hi).mergeError? (h.pool.makes hj))
  obtain ⟨q, hq, -, hget', -, hspares'⟩ := Pool.move_of_ne (h.ne_next hj).symm
    (hcopy.pool.has (Or.inr rfl)) (hcopy.pool.has (Or.inl hj))
    ((hcopy.pool.makes (Or.inr rfl)).mergeError? (hcopy.pool.makes (Or.inl hj)))
  rw [batch_of_some hl, move_of_ok hp, batch_of_some (w := w.copy i) hl,
    move_of_ok (w := w.copy i) hq]
  refine ⟨⟨?_, ?_, ?_, ?_⟩, ?_, ?_⟩
  · exact fun hi' => hspares.has (h.pool.has hi'.1)
  · exact fun hi' => hspares'.has (hcopy.pool.has (Or.inl hi'.1))
  · intro i' hi'
    by_cases hj' : i' = j
    · subst hj'
      rw [id, hget, hget']
      show ((w.copy i).pool.get i').absorb ((w.copy i).pool.get w.pool.next) = _
      rw [get_copy_of_has (h.pool.has hj), get_copy_next]
    · have hother : q.get i' = (w.copy i).pool.get i' :=
        hspares'.get (hcopy.pool.has (Or.inl hi'.1))
          (not_or.mpr ⟨h.ne_next hi'.1, hj'⟩)
      rw [id, hother, get_copy_of_has (h.pool.has hi'.1),
        hspares.get (h.pool.has hi'.1) (not_or.mpr ⟨hi'.2, hj'⟩)]
  · exact fun _ _ => id
  · show w.stream = { w.stream with window := w.stream.window.map id }
    rw [OrderedMap.map_id]
  · rintro l' i' hi'
    exact ⟨h.window hi', fun heq => hwindow l' (heq ▸ hi')⟩

/-- **A label set that the window has nothing for**: the aggregator is adopted, and its copy is
taken up into a fresh one, which is just like it then. -/
theorem Stocked.batch_new (h : w.Stocked used) (hi : used i)
    (hwindow : ∀ l, w.stream.window.get? l ≠ some i) (hl : w.stream.window.get? l = none) :
    Mirrors (Function.update id i (w.copy i).pool.next) used (w.batch l i true).2
      ((w.copy i).batch l w.pool.next false).2 := by
  have hcopy := h.copy hi
  have hcreated := hcopy.create
  have hne : w.pool.next ≠ (w.copy i).pool.next := hcopy.ne_next (Or.inr rfl)
  obtain ⟨q, hq, -, hget, -, hspares⟩ := Pool.move_of_ne hne
    (hcreated.pool.has (Or.inl (Or.inr rfl))) (hcreated.pool.has (Or.inr rfl))
    ((hcreated.pool.makes (Or.inl (Or.inr rfl))).mergeError? (hcreated.pool.makes (Or.inr rfl)))
  have hold : ∀ {i'}, used i' → i' ≠ (w.copy i).pool.next := fun hi' =>
    hcopy.ne_next (Or.inl hi')
  rw [batch_of_none_unmapped hl, batch_of_none_live (w := w.copy i) hl,
    move_of_ok (w := (w.copy i).create.2.enter l (w.copy i).pool.next) hq]
  have hself : Function.update id i (w.copy i).pool.next i = (w.copy i).pool.next :=
    Function.update_self _ _ _
  have hother : ∀ {i'}, i' ≠ i → Function.update id i (w.copy i).pool.next i' = i' := fun hi' =>
    Function.update_of_ne hi' _ _
  refine ⟨⟨h.pool.has, ?_, ?_, ?_⟩, ?_, ?_⟩
  · intro i' hi'
    by_cases hii : i' = i
    · rw [hii, hself]
      exact hspares.has (hcreated.pool.has (Or.inr rfl))
    · rw [hother hii]
      exact hspares.has (hcreated.pool.has (Or.inl (Or.inl hi')))
  · intro i' hi'
    by_cases hii : i' = i
    · -- the fresh aggregator has taken up what the copy held
      have hfresh : (w.copy i).create.2.pool.get (w.copy i).pool.next
          = w.stream.freshAggregator := get_create_next (w := w.copy i)
      have hcopied : (w.copy i).create.2.pool.get w.pool.next = w.pool.get i := by
        rw [get_create_of_has (hcopy.pool.has (Or.inr rfl)), get_copy_next]
      rw [hii, hself, hget, hfresh, hcopied, (h.pool.makes hi).fresh_absorb]
      rfl
    · have hspared : q.get i' = (w.copy i).create.2.pool.get i' :=
        hspares.get (hcreated.pool.has (Or.inl (Or.inl hi')))
          (not_or.mpr ⟨h.ne_next hi', hold hi'⟩)
      rw [hother hii, hspared, get_create_of_has (hcopy.pool.has (Or.inl hi')),
        get_copy_of_has (h.pool.has hi')]
      rfl
  · intro i' j' hi' hj' heq
    by_cases hii : i' = i
    · by_cases hji : j' = i
      · rw [hii, hji]
      · rw [hii, hself, hother hji] at heq
        exact absurd heq.symm (hold hj')
    · by_cases hji : j' = i
      · rw [hji, hself, hother hii] at heq
        exact absurd heq (hold hi')
      · rwa [hother hii, hother hji] at heq
  · have hsame : w.stream.window.map (Function.update id i (w.copy i).pool.next)
        = w.stream.window := by
      conv_rhs => rw [← w.stream.window.map_id]
      exact OrderedMap.map_congr fun l' i' hi' => hother fun heq => hwindow l' (heq ▸ hi')
    have hwindows : w.stream.window.insert l (w.copy i).pool.next
        = (w.stream.window.insert l i).map (Function.update id i (w.copy i).pool.next) := by
      rw [OrderedMap.map_insert, hself, hsame]
    exact congrArg (fun window => ({ w.stream with window := window } : Stream)) hwindows
  · exact (h.enter hi l).window

end PooledStream

/-! ### Desks at which a processor makes everything -/

/-- The call makes no aggregator aside from the processor. -/
def ProcessorCall.OfFactory : ProcessorCall → Prop
  | make .. => False
  | _ => True

namespace Desk

/-- All that is in use is made by the processor, and so is all that has a name; no aggregator has
two names. -/
structure Stocked (used : AggregatorId → Prop) (d : Desk) : Prop where
  work : d.work.Stocked used
  hand : ∀ {k i}, d.hand k = some i → used i
  distinct : ∀ {k k' i}, d.hand k = some i → d.hand k' = some i → k = k'

namespace Stocked

variable {used used' : AggregatorId → Prop} {d : Desk} {i : AggregatorId} {k k' : Nat}
  {l : LabelSet}

theorem of_work (h : Stocked used d) {w : PooledStream} (hwork : w.Stocked used')
    (hsub : ∀ {i}, used i → used' i) (c : Clock) : Stocked used' ⟨d.hand, w, c⟩ :=
  ⟨hwork, fun hi => hsub (h.hand hi), h.distinct⟩

/-- A new aggregator gets a name. -/
theorem of_new (h : Stocked used d) {w : PooledStream}
    (hwork : w.Stocked fun i => used i ∨ i = d.work.pool.next) (k : Nat) (c : Clock) :
    Stocked (fun i => used i ∨ i = d.work.pool.next)
      ⟨Function.update d.hand k (some d.work.pool.next), w, c⟩ := by
  have hnew : ∀ {k'}, d.hand k' ≠ some d.work.pool.next := fun hi => h.work.ne_next (h.hand hi) rfl
  refine ⟨hwork, fun {k' i} hi => ?_, fun {k' k'' i} hi hi' => ?_⟩
  · dsimp only at hi
    by_cases hkk : k' = k
    · rw [hkk, Function.update_self] at hi
      exact Or.inr (Option.some.inj hi).symm
    · rw [Function.update_of_ne hkk] at hi
      exact Or.inl (h.hand hi)
  · dsimp only at hi hi'
    by_cases hk' : k' = k
    · by_cases hk'' : k'' = k
      · rw [hk', hk'']
      · rw [hk', Function.update_self] at hi
        rw [Function.update_of_ne hk'', ← hi] at hi'
        exact absurd hi' hnew
    · by_cases hk'' : k'' = k
      · rw [hk'', Function.update_self] at hi'
        rw [Function.update_of_ne hk', ← hi'] at hi
        exact absurd hi hnew
      · rw [Function.update_of_ne hk'] at hi
        rw [Function.update_of_ne hk''] at hi'
        exact h.distinct hi hi'

/-- **One call** of a caller that has everything made by the processor. -/
theorem step (h : Stocked used d) {c : ProcessorCall} (hc : c.OfFactory) :
    ∃ used', Stocked used' (d.step c).2 := by
  unfold Desk.step
  cases c with
  | create k => exact ⟨_, h.of_new h.work.create k _⟩
  | make => exact hc.elim
  | record k value =>
    unfold ProcessorCall.act
    cases hi : d.hand k with
    | none =>
      simp only [hi]
      exact ⟨used, h.of_work h.work id _⟩
    | some i =>
      simp only [hi]
      cases hp : d.work.pool.record i value with
      | error e => exact ⟨used, h.of_work h.work id _⟩
      | ok p =>
        exact ⟨used, h.of_work (h.work.of_pool (h.work.pool.record (h.hand hi) hp)) id _⟩
  | batch l k unmapped =>
    unfold ProcessorCall.act
    cases hi : d.hand k with
    | none =>
      simp only [hi]
      exact ⟨used, h.of_work h.work id _⟩
    | some i =>
      simp only [hi]
      obtain ⟨-, used', hsub, hstocked⟩ := h.work.batch (h.hand hi) l unmapped
      exact ⟨used', h.of_work hstocked hsub _⟩
  | complete time => exact ⟨used, h.of_work (h.work.skip _) id _⟩
  | skip time => exact ⟨used, h.of_work (h.work.skip _) id _⟩
  | elapse nanos => exact ⟨used, h.of_work h.work id _⟩

end Stocked

/-- The desk with a copy of the aggregator of one name under another one. -/
def copy (d : Desk) (k k' : Nat) : Desk :=
  match d.hand k with
  | some i =>
    { d with
      hand := Function.update d.hand k' (some d.work.pool.next)
      work := d.work.copy i }
  | none => d

namespace Stocked

variable {used : AggregatorId → Prop} {d : Desk} {i : AggregatorId} {k : Nat}

/-- **Adopting** an aggregator and taking up a copy of it do not fail, and they leave desks that
mirror each other but for the two names. -/
theorem adopt_mirrors (h : Stocked used d) (hk : d.hand k = some i)
    (hwindow : ∀ l, d.work.stream.window.get? l ≠ some i) (k' : Nat) (l : LabelSet) :
    (d.step (.batch l k true)).1 = .ok [] ∧
      ((d.copy k k').step (.batch l k' false)).1 = .ok [] ∧
      ∃ f used', Mirrors f used' (fun n => n = k ∨ n = k') (d.step (.batch l k true)).2
        ((d.copy k k').step (.batch l k' false)).2 := by
  have hi := h.hand hk
  have hbatch := (h.work.batch hi l true).1
  have hbatch' := ((h.work.copy hi).batch (Or.inr rfl) l false).1
  have hstep : d.step (.batch l k true)
      = (.ok [], ⟨d.hand, (d.work.batch l i true).2, d.clock⟩) := by
    unfold Desk.step ProcessorCall.act
    simp only [hk, hbatch]
    rfl
  have hstep' : (d.copy k k').step (.batch l k' false)
      = (.ok [], ⟨Function.update d.hand k' (some d.work.pool.next),
        ((d.work.copy i).batch l d.work.pool.next false).2, d.clock⟩) := by
    unfold Desk.step ProcessorCall.act Desk.copy
    simp only [hk, Function.update_self, hbatch']
    rfl
  rw [hstep, hstep']
  refine ⟨rfl, rfl, ?_⟩
  -- the other names are those of other aggregators, which keep their identifiers
  have hnames : ∀ {f used'}, (∀ {j}, used j → j ≠ i → used' j ∧ f j = j) →
      (d.work.batch l i true).2.Mirrors f used' ((d.work.copy i).batch l d.work.pool.next false).2 →
      Mirrors f used' (fun n => n = k ∨ n = k') ⟨d.hand, (d.work.batch l i true).2, d.clock⟩
        ⟨Function.update d.hand k' (some d.work.pool.next),
          ((d.work.copy i).batch l d.work.pool.next false).2, d.clock⟩ := by
    intro f used' hkept hwork
    have hnot : ∀ {n j}, ¬ (n = k ∨ n = k') → d.hand n = some j → j ≠ i := by
      rintro n j hn hj rfl
      exact hn (Or.inl (h.distinct hj hk))
    refine ⟨hwork, fun hn _ hj => (hkept (h.hand hj) (hnot hn hj)).1, fun {n} hn => ?_, rfl⟩
    show Function.update d.hand k' _ n = (d.hand n).map f
    rw [Function.update_of_ne (fun heq => hn (Or.inr heq))]
    cases hj : d.hand n with
    | none => rfl
    | some j => rw [Option.map_some, (hkept (h.hand hj) (hnot hn hj)).2]
  cases hl : d.work.stream.window.get? l with
  | some j =>
    exact ⟨_, _, hnames (fun hj hne => ⟨⟨hj, hne⟩, rfl⟩) (h.work.batch_known hi hwindow hl)⟩
  | none =>
    exact ⟨_, _, hnames (fun hj hne => ⟨hj, Function.update_of_ne hne _ _⟩)
      (h.work.batch_new hi hwindow hl)⟩

end Stocked

end Desk

namespace Bench

/-- The bench with a copy of the aggregator of one name under another one. -/
def copy (b : Bench σ) (k k' : Nat) : Bench σ :=
  match b.hand k with
  | some i =>
    { hand := Function.update b.hand k' (some b.system.pool.next)
      system := { b.system with pool := b.system.pool.add (b.system.pool.get i) } }
  | none => b

/-- The bench after several calls of a caller that keeps all of its names. -/
def kept (r : Ref .processor) (b : Bench σ) (calls : List ProcessorCall) : Bench σ :=
  calls.foldl (fun b c => (c.keep r b).2) b

end Bench

theorem Desk.Views.copy {d : Desk} {b : Bench σ} {r : Ref .processor} {p : Processor}
    (h : d.Views b r p) (k k' : Nat) : (d.copy k k').Views (b.copy k k') r p := by
  unfold Desk.copy Bench.copy
  rw [h.hand]
  cases d.hand k with
  | none => exact h
  | some i =>
    refine ⟨?_, ?_, h.processor, h.clock⟩
    · dsimp only
      rw [h.pool]
    · dsimp only
      rw [h.pool]
      rfl

/-- **Calls** of a caller that has everything made by the processor. -/
theorem Desk.Stocked.kept {used : AggregatorId → Prop} {d : Desk} {b : Bench σ}
    {r : Ref .processor} {p : Processor} (h : d.Stocked used) (hviews : d.Views b r p)
    (calls : List ProcessorCall) (hcalls : ∀ c ∈ calls, c.OfFactory) :
    ∃ d' used', Stocked used' d' ∧ d'.Views (b.kept r calls) r p := by
  induction calls generalizing d b used with
  | nil => exact ⟨d, used, h, hviews⟩
  | cons c calls ih =>
    obtain ⟨used', hstocked⟩ := h.step (hcalls c List.mem_cons_self)
    exact ih hstocked (hviews.step c).2 fun c' hc' => hcalls c' (List.mem_cons_of_mem c hc')

/-- A new processor has made nothing yet. -/
theorem Desk.stocked_start {s : System σ} {p : Processor} (h : p.stream.window = OrderedMap.empty)
    (c : Clock) : Desk.Stocked (fun _ => False) ⟨fun _ => none, ⟨s.pool, p.stream⟩, c⟩ := by
  refine ⟨⟨⟨False.elim, False.elim⟩, fun {l i} hi => ?_⟩, (fun hi => by cases hi),
    (fun hi => by cases hi)⟩
  dsimp only at hi
  rw [h] at hi
  cases hi

/-- **Adoption is only an optimisation**: an aggregator is batched as unmapped, or a copy of it is
batched as live instead.  If neither of them is used again, all later calls have the same outcomes.

The window has the aggregator already only if it has been adopted before, and to hand it over would
be to batch it again. -/
theorem adoption_changes_nothing {s s' : System σ} {q : ProcessorRequest} {r : Ref .processor}
    (hnew : newProcessor q s = (.ok r, s')) (calls : List ProcessorCall)
    (hcalls : ∀ c ∈ calls, c.OfFactory) {k : Nat} {i : AggregatorId} {p : Processor}
    (hk : ((Bench.start s').kept r calls).hand k = some i)
    (hp : ((Bench.start s').kept r calls).system.processors.get? r = some p)
    (hwindow : i ∉ p.stream.window.values) (k' : Nat) (l : LabelSet)
    (later : List ProcessorCall) (hlater : ∀ c ∈ later, ¬ c.Names k ∧ ¬ c.Names k') :
    let b := (Bench.start s').kept r calls
    let adopted := (ProcessorCall.batch l k true).keep r b
    let copied := (ProcessorCall.batch l k' false).keep r (b.copy k k')
    adopted.1 = .ok [] ∧ copied.1 = .ok [] ∧
      adopted.2.outcomes r later = copied.2.outcomes r later := by
  intro b adopted copied
  obtain ⟨p₀, c, hworks, hempty, -⟩ := newProcessor_works hnew
  obtain ⟨d, used, hstocked, hviews⟩ := (Desk.stocked_start hempty c).kept
    ⟨rfl, rfl, hworks.processor, hworks.clock⟩ calls hcalls
  have hstream : p.stream = d.work.stream :=
    congrArg Processor.stream (Option.some.inj (hp.symm.trans hviews.processor))
  obtain ⟨hadopted, hcopied, f, used', hmirrors⟩ := hstocked.adopt_mirrors
    (hviews.hand ▸ hk) (fun l hl => hwindow (OrderedMap.mem_values_iff.mpr ⟨l, hstream ▸ hl⟩)) k' l
  obtain ⟨hresult, hviews'⟩ := hviews.step (.batch l k true)
  obtain ⟨hresult', hviews''⟩ := (hviews.copy k k').step (.batch l k' false)
  refine ⟨hresult.trans hadopted, hresult'.trans hcopied, ?_⟩
  have houtcomes := hmirrors.outcomes later fun c hc n hn => by
    rcases hn with rfl | rfl
    · exact (hlater c hc).1
    · exact (hlater c hc).2
  exact (hviews'.outcomes later).trans (houtcomes.symm.trans (hviews''.outcomes later).symm)

/-- Three are counted without labels, and seven by an aggregator that is not batched yet. -/
def ProcessorCall.beforeHandover : List ProcessorCall :=
  [.create 0, .record 0 (.number (.integer 3)), .batch LabelSet.empty 0 false,
    .create 1, .record 1 (.number (.integer 7))]

/-- The bench of a counter after that. -/
def Bench.beforeHandover : Bench Unit :=
  (Bench.start (System.ofCounter .cumulative)).kept ⟨0⟩ ProcessorCall.beforeHandover

/-- Two more are counted under a label, and the cycle is completed. -/
def ProcessorCall.afterHandover : List ProcessorCall :=
  [.record 0 (.number (.integer 2)), .batch (LabelSet.empty.insert "k" "v") 0 true,
    .complete (some 9)]

/-- The seven are handed over under that label, in the one way or the other. -/
theorem adoption_changes_nothing_of_counter :
    let l := LabelSet.empty.insert "k" "v"
    let adopted := (ProcessorCall.batch l 1 true).keep ⟨0⟩ Bench.beforeHandover
    let copied := (ProcessorCall.batch l 2 false).keep ⟨0⟩ (Bench.beforeHandover.copy 1 2)
    (adopted.2.outcomes ⟨0⟩ ProcessorCall.afterHandover
        = copied.2.outcomes ⟨0⟩ ProcessorCall.afterHandover) ∧
      (adopted.2.outcomes ⟨0⟩ ProcessorCall.afterHandover).map
          (fun outcome => outcome.toOption.map fun metrics => metrics.flatMap Metric.points)
        = [some [], some [], some [⟨5, 9, LabelSet.empty, .number (.integer 3)⟩,
            ⟨5, 9, LabelSet.empty.insert "k" "v", .number (.integer 9)⟩]] := by
  intro l adopted copied
  obtain ⟨i, hi⟩ : ∃ i, Bench.beforeHandover.hand 1 = some i :=
    Option.isSome_iff_exists.mp (by decide +kernel)
  obtain ⟨p, hp⟩ : ∃ p, Bench.beforeHandover.system.processors.get? ⟨0⟩ = some p :=
    Option.isSome_iff_exists.mp (by decide +kernel)
  have hwindow : i ∉ p.stream.window.values := by
    have hall : ∀ i ∈ Bench.beforeHandover.hand 1,
        ∀ p ∈ Bench.beforeHandover.system.processors.get? ⟨0⟩, i ∉ p.stream.window.values := by
      decide +kernel
    exact hall i hi p hp
  have hnew : newProcessor (ProcessorRequest.ofCounter .cumulative) System.ofClock
      = (.ok ⟨0⟩, System.ofCounter .cumulative) := rfl
  have hcalls : ∀ c ∈ ProcessorCall.beforeHandover, c.OfFactory := by
    simp [ProcessorCall.beforeHandover, ProcessorCall.OfFactory]
  have hlater : ∀ c ∈ ProcessorCall.afterHandover, ¬ c.Names 1 ∧ ¬ c.Names 2 := by
    simp [ProcessorCall.afterHandover, ProcessorCall.Names]
  unfold Bench.beforeHandover at hi hp
  obtain ⟨-, -, hsame⟩ := adoption_changes_nothing hnew _ hcalls hi hp hwindow 2 l
    ProcessorCall.afterHandover hlater
  refine ⟨hsame, ?_⟩
  decide +kernel

end Metering
