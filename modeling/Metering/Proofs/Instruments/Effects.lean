import Metering.Proofs.Concurrency.Operations
import Metering.Proofs.Instruments.Contents

/-!
# The effects of operations on contents

Binding, recording, releasing and collecting act on the contents of an accumulation as plain
functions, whatever identifiers its aggregators have.  The first three change the live cell of one
label set (`Stream.touch`); a collection drains one label set after the other into the window
(`Stream.drainIn`) and then ends it.

`Rests` is what the effects need to know: every aggregator is where its role says, and the live ones
can be referred to.  It follows from `Sound` whenever no aggregator is on its way into the window.
-/

namespace Metering

open Fallible

/-! ### Contents as a state -/

namespace Cell

/-- The cell with one more reference, if it may still be referred to. -/
def acquired (x : Cell) : Cell := { x with references := x.references.acquire?.getD x.references }

/-- The cell with one reference less. -/
def released (x : Cell) : Cell := { x with references := x.references.release }

/-- The cell after a scalar was recorded, unless its aggregator refuses it. -/
def recorded (v : Scalar) (x : Cell) : Cell :=
  match x.aggregator.record v with
  | .ok a => { x with aggregator := a }
  | .error _ => x

end Cell

namespace Stream

/-- What becomes of recording a scalar into an aggregator of the stream. -/
def verdict (s : Stream) (v : Scalar) : Except Failure Unit :=
  match s.refusal? v with
  | some e => .error (.record e)
  | none => .ok ()

/-- The cell of a new aggregator of the stream. -/
def freshCell (s : Stream) : Cell := ⟨s.freshAggregator, .held 0⟩

/-- The contents with the live cell of a label set changed, which is made if there is none. -/
def touch (s : Stream) (labels : LabelSet) (f : Cell → Cell) (c : Contents) : Contents :=
  { c with live := c.live.insert labels (f ((c.live.get? labels).getD s.freshCell)) }

/-- The contents after the live aggregator of a label set was drained into the window.  It is gone
then, unless something refers to it. -/
def drainIn (s : Stream) (c : Contents) (labels : LabelSet) : Contents :=
  match c.live.get? labels with
  | none => c
  | some x =>
    { window := s.takeUp c.window labels x.aggregator
      live :=
        if x.references = .held 0 then c.live.erase labels
        else c.live.insert labels { s.freshCell with references := x.references } }

/-- The contents after all live aggregators were drained. -/
def drainAllIn (s : Stream) (c : Contents) : Contents := c.live.keys.foldl s.drainIn c

/-- The contents after the window has ended. -/
def endIn (s : Stream) (c : Contents) : Contents := { c with window := s.afterEnd c.window }

variable {s s' : Stream}

theorem touch_touch (s : Stream) (labels : LabelSet) (f g : Cell → Cell) (c : Contents) :
    s.touch labels g (s.touch labels f c) = s.touch labels (g ∘ f) c := by
  unfold touch
  dsimp only
  rw [OrderedMap.get?_insert_self, Option.getD_some, OrderedMap.insert_insert]
  rfl

/-- Only what becomes of the one cell matters. -/
theorem touch_congr {labels : LabelSet} {f g : Cell → Cell} {c : Contents}
    (h : f ((c.live.get? labels).getD s.freshCell) = g ((c.live.get? labels).getD s.freshCell)) :
    s.touch labels f c = s.touch labels g c := by
  unfold touch
  rw [h]

theorem Continues.freshCell (h : s.Continues s') : s'.freshCell = s.freshCell := by
  unfold Stream.freshCell
  rw [h.freshAggregator]

theorem Continues.touch (h : s.Continues s') : s'.touch = s.touch := by
  unfold Stream.touch
  rw [h.freshCell]

theorem Continues.drainIn (h : s.Continues s') : s'.drainIn = s.drainIn := by
  unfold Stream.drainIn
  rw [h.freshCell, h.takeUp]

theorem Continues.drainAllIn (h : s.Continues s') : s'.drainAllIn = s.drainAllIn := by
  unfold Stream.drainAllIn
  rw [h.drainIn]

theorem Continues.endIn (h : s.Continues s') : s'.endIn = s.endIn := by
  unfold Stream.endIn
  rw [h.afterEnd]

end Stream

/-! ### Accumulations at rest -/

/-- Every aggregator of an accumulation is where its role says and is the stream's, and the live
ones can be referred to. -/
structure Rests (role : AggregatorId → Role) (a : Accumulation) : Prop where
  live_iff : ∀ {l i}, a.live.get? l = some i ↔ role i = .live l
  window_iff : ∀ {l i}, a.stream.window.get? l = some i ↔ role i = .window l
  has : ∀ {i}, role i ≠ .foreign → a.pool.Has i
  makes : ∀ {i}, role i ≠ .foreign → a.stream.Makes (a.pool.get i)
  held : ∀ {l i}, role i = .live l → ∃ n, a.pool.references i = .held n

/-- Threads between whose steps no retired aggregator is left to be batched. -/
theorem Sound.rests {α : Type} [Recordable α] {isTotal : α → List α → Prop}
    {role : AggregatorId → Role} {t : Threads} {g : Ledger α} (h : Sound isTotal role t g)
    (hc : t.collector.retired? = none) (hg : g.Admitted t.stream.shape)
    (hmakes : ∀ {b vs}, t.stream.shape.Admits vs →
      Aggregator.Holds isTotal t.stream.shape b vs → t.stream.Makes b) :
    Rests role t.accumulation where
  live_iff {l i} := by
    refine ⟨fun hl => ?_, h.mapped.live_of_role⟩
    refine (h.mapped.role_of_live hl).resolve_right fun hr => ?_
    rw [← h.mapped.retired_iff, hc] at hr
    cases hr
  window_iff := h.window_iff
  has := h.has
  makes hi := hmakes (hg.contents t.stream.temporality _) (h.holds rfl hi)
  held hi := ⟨_, h.references_live hi⟩

namespace Rests

variable {role : AggregatorId → Role} {a : Accumulation} {l : LabelSet} {i j : AggregatorId}
  {p : Pool}

theorem get?_live (h : Rests role a) (hi : role i = .live l) :
    a.contents.live.get? l = some (a.pool.cell i) := by
  show (a.live.map _).get? l = _
  rw [OrderedMap.get?_map, h.live_iff.mpr hi]
  rfl

/-- Only the cells that play a role matter. -/
theorem contents_congr (h : Rests role a) (hp : ∀ i, role i ≠ .foreign → p.cell i = a.pool.cell i) :
    ({ a with pool := p } : Accumulation).contents = a.contents := by
  unfold Accumulation.contents Stream.windowIn
  refine congrArg₂ Contents.mk (OrderedMap.map_congr fun l i hi => ?_)
    (OrderedMap.map_congr fun l i hi => ?_)
  · rw [Pool.get, Pool.get, hp i (window_plays (h.window_iff.mp hi))]
  · exact hp i (live_plays (h.live_iff.mp hi))

/-! ### Changing one live cell -/

/-- When only the cell of a live aggregator has changed, only its cell in the contents has. -/
theorem contents_touched (h : Rests role a) (hi : role i = .live l)
    (hp : a.pool.Spares p (· = i)) : ({ a with pool := p } : Accumulation).contents
      = { a.contents with live := a.contents.live.insert l (p.cell i) } := by
  unfold Accumulation.contents Stream.windowIn
  refine congrArg₂ Contents.mk (OrderedMap.map_congr fun l' j hj => ?_)
    (OrderedMap.map_insert_of_eq (h.live_iff.mpr hi) fun l' j hj hl' => ?_)
  · have hrole := h.window_iff.mp hj
    exact hp.get (h.has (window_plays hrole)) (ne_of_window_of_live hrole hi)
  · have hrole := h.live_iff.mp hj
    refine hp.cell (h.has (live_plays hrole)) (ne_of_role_ne hrole hi ?_)
    exact fun he => hl' (Role.live.inj he)

/-- **Touching** the cell of a live aggregator. -/
theorem contents_touch (h : Rests role a) (hi : role i = .live l) (hp : a.pool.Spares p (· = i))
    {f : Cell → Cell} (hf : p.cell i = f (a.pool.cell i)) :
    ({ a with pool := p } : Accumulation).contents = a.stream.touch l f a.contents := by
  rw [h.contents_touched hi hp, hf]
  unfold Stream.touch
  rw [h.get?_live hi, Option.getD_some]

/-- A new aggregator takes the place of a label set that has none. -/
theorem contents_place (h : Rests role a) (hl : a.live.get? l = none)
    (hp : a.pool.Spares p fun _ => False) {f : Cell → Cell}
    (hf : p.cell a.pool.next = f a.stream.freshCell) :
    ({ a with pool := p, live := a.live.insert l a.pool.next } : Accumulation).contents
      = a.stream.touch l f a.contents := by
  have hsame : ({ a with pool := p } : Accumulation).contents = a.contents :=
    h.contents_congr fun i hi => hp.cell (h.has hi) id
  have hwindow := congrArg Contents.window hsame
  have hlive := congrArg Contents.live hsame
  unfold Accumulation.contents Stream.touch at *
  dsimp only at *
  rw [hwindow, OrderedMap.map_insert, hlive, hf, OrderedMap.get?_map, hl]
  rfl

/-- **Binding** takes a reference to the live aggregator of the label set, made if need be. -/
theorem bind (h : Rests role a) {b : Accumulation} (hb : Accumulation.bind l a = (.ok i, b)) :
    b.live.get? l = some i ∧ b.stream = a.stream ∧
      b.contents = a.stream.touch l Cell.acquired a.contents := by
  unfold Accumulation.bind Accumulation.bindDuring at hb
  rw [bind_apply, get_apply] at hb
  dsimp only at hb
  cases hacquire : a.acquireLive? l with
  | some x =>
    obtain ⟨j, a'⟩ := x
    obtain ⟨hl, n, hn, rfl⟩ := Accumulation.acquireLive?_eq_some hacquire
    rw [hacquire] at hb
    simp only [bind_apply, set_apply, pure_apply] at hb
    obtain ⟨hij, rfl⟩ := Prod.mk.inj hb
    obtain rfl := Except.ok.inj hij
    have hi := h.live_iff.mp hl
    refine ⟨hl, rfl, h.contents_touch hi (.setReferences _ _ _) ?_⟩
    rw [Pool.cell_setReferences_self (h.has (live_plays hi))]
    unfold Cell.acquired
    rw [show (a.pool.cell j).references = .held n from hn]
    rfl
  | none =>
    -- a live aggregator could have been referred to, so there is none
    have hl : a.live.get? l = none := by
      cases hl : a.live.get? l with
      | none => rfl
      | some j =>
        obtain ⟨n, hn⟩ := h.held (h.live_iff.mp hl)
        rw [Accumulation.acquireLive?_eq_none hacquire j hl] at hn
        cases hn
    rw [hacquire] at hb
    have hsettle : ∀ p : Pool, Accumulation.settle l a.pool.next { a with pool := p }
        = (.ok a.pool.next, { a with pool := p, live := a.live.insert l a.pool.next }) := by
      intro p
      refine Accumulation.settle_of_none ?_
      unfold Accumulation.acquireLive?
      dsimp only
      rw [hl]
    simp only [bind_apply, Accumulation.candidate_eq, pure_apply, hsettle] at hb
    obtain ⟨hij, rfl⟩ := Prod.mk.inj hb
    obtain rfl := Except.ok.inj hij
    have hhas : (a.pool.add a.stream.freshAggregator).Has a.pool.next :=
      Pool.has_add.mpr (Or.inr rfl)
    refine ⟨OrderedMap.get?_insert_self .., rfl, h.contents_place hl ?_ ?_⟩
    · refine ⟨fun hi => Pool.has_setReferences.mpr (Pool.has_add.mpr (Or.inl hi)),
        fun {k} hk _ => ?_⟩
      rw [Pool.cell_setReferences_of_ne hk.ne_next, Pool.cell_add_of_has hk]
    · rw [Pool.cell_setReferences_self hhas, Pool.get_add_next]
      rfl

/-- **Recording** into a live aggregator changes its cell, and fails just if the stream refuses the
scalar. -/
theorem record (h : Rests role a) (hi : role i = .live l) (v : Scalar) :
    ∃ p, Accumulation.record i v a = (a.stream.verdict v, { a with pool := p }) ∧
      Rests role { a with pool := p } ∧
      ({ a with pool := p } : Accumulation).contents
        = a.stream.touch l (Cell.recorded v) a.contents := by
  have hplays : role i ≠ .foreign := live_plays hi
  have hrecord := (h.makes hplays).record_eq v
  have hcell : (a.pool.cell i).aggregator = a.pool.get i := rfl
  unfold Stream.verdict
  -- what the aggregator refuses leaves the pool, and `Cell.recorded` the cell, as it was
  cases hv : a.stream.refusal? v with
  | some e =>
    rw [hv] at hrecord
    have hp : a.pool.record i v = .error e := by
      unfold Pool.record
      rw [hrecord]
      rfl
    refine ⟨a.pool, Accumulation.record_of_error hp, h, h.contents_touch hi (.refl _) ?_⟩
    unfold Cell.recorded
    rw [hcell, hrecord]
  | none =>
    rw [hv] at hrecord
    obtain ⟨b, hb, hmakes⟩ := hrecord
    have hp : a.pool.record i v = .ok (a.pool.set i b) := by
      unfold Pool.record
      rw [hb]
      rfl
    refine ⟨a.pool.set i b, Accumulation.record_of_ok hp, ?_, h.contents_touch hi (.set _ _ _) ?_⟩
    · constructor
      case live_iff => exact h.live_iff
      case window_iff => exact h.window_iff
      case has => exact fun hk => Pool.has_set.mpr (h.has hk)
      case held =>
        intro l' k hk
        rw [Pool.references_set]
        exact h.held hk
      case makes =>
        intro k hk
        by_cases hki : k = i
        · rw [hki, Pool.get_set_self (h.has hplays)]
          exact hmakes
        · rw [Pool.get_set_of_ne _ _ (Ne.symm hki)]
          exact h.makes hk
    · rw [Pool.cell_set_self (h.has hplays)]
      unfold Cell.recorded
      rw [hcell, hb]
      rfl

/-- **Releasing** a live aggregator. -/
theorem release (h : Rests role a) (hi : role i = .live l) :
    (Accumulation.release i a).2.contents = a.stream.touch l Cell.released a.contents := by
  refine h.contents_touch hi (.setReferences _ _ _) ?_
  rw [Pool.cell_setReferences_self (h.has (live_plays hi))]
  rfl

/-! ### Draining -/

/-- What is live after an aggregator left the live map. -/
theorem live_erase {q : Pool} (h : Rests role a) (hi : role i = .live l)
    (hq : ∀ {k}, a.pool.Has k → k ≠ i → (∀ l', role k ≠ .window l') → q.cell k = a.pool.cell k) :
    (a.live.erase l).map q.cell = a.contents.live.erase l := by
  show _ = (a.live.map a.pool.cell).erase l
  rw [← OrderedMap.map_erase]
  refine OrderedMap.map_congr fun l' k hk => ?_
  rw [OrderedMap.get?_erase] at hk
  split at hk
  · cases hk
  · next hl' =>
    have hrole := h.live_iff.mp hk
    refine hq (h.has (live_plays hrole)) (ne_of_role_ne hrole hi ?_) fun _ => by simp [hrole]
    exact fun he => hl' (Role.live.inj he)

/-- What is live after an aggregator was emptied. -/
theorem live_insert {q : Pool} (h : Rests role a) (hi : role i = .live l)
    (hq : ∀ {k}, a.pool.Has k → k ≠ i → (∀ l', role k ≠ .window l') → q.cell k = a.pool.cell k) :
    a.live.map q.cell = a.contents.live.insert l (q.cell i) := by
  refine OrderedMap.map_insert_of_eq (h.live_iff.mpr hi) fun l' k hk hl' => ?_
  have hrole := h.live_iff.mp hk
  refine hq (h.has (live_plays hrole)) (ne_of_role_ne hrole hi ?_) fun _ => by simp [hrole]
  exact fun he => hl' (Role.live.inj he)

/-- An aggregator of the accumulation moves into one of the window. -/
theorem move (h : Rests role a) (hi : role i = .live l) (hj : role j = .window l) {q : Pool}
    (hq : q.Has i ∧ q.Has j ∧ q.get i = a.pool.get i ∧ q.get j = a.pool.get j) :
    ∃ q', q.move i j = .ok q' ∧ q'.get i = a.stream.freshAggregator ∧
      q'.get j = (a.pool.get j).absorb (a.pool.get i) ∧
      (∀ k, q'.references k = q.references k) ∧ q.Spares q' fun k => k = i ∨ k = j := by
  obtain ⟨hhasi, hhasj, hgeti, hgetj⟩ := hq
  have hmakes := h.makes (live_plays hi)
  obtain ⟨q', hmove, hfrom, hto, hreferences, hspares⟩ :=
    Pool.move_of_ne (ne_of_window_of_live hj hi).symm hhasi hhasj (by
      rw [hgeti, hgetj]
      exact hmakes.mergeError? (h.makes (window_plays hj)))
  rw [hgeti] at hfrom hto
  rw [hgetj] at hto
  exact ⟨q', hmove, hfrom.trans hmakes.emptied, hto, hreferences, hspares⟩

/-- **Draining** a live aggregator that nothing refers to: the window adopts it or takes up what it
holds, and it is no longer live. -/
theorem drain_free (h : Rests role a) (hi : role i = .live l)
    (hn : a.pool.references i = .held 0) {b : Accumulation}
    (hb : Accumulation.drain Accumulation.undisturbed l i a = (.ok (), b)) :
    b.stream.start = a.stream.start ∧ b.contents
      = { window := a.stream.takeUp a.contents.window l (a.pool.get i)
          live := a.contents.live.erase l } := by
  let p := a.pool.setReferences i .retired
  have hhas : a.pool.Has i := h.has (live_plays hi)
  have hget : ∀ k, p.get k = a.pool.get k := fun k => Pool.get_setReferences ..
  have hspares : a.pool.Spares p (· = i) := .setReferences ..
  have hretire : a.pool.retire? i = some p := by
    unfold Pool.retire?
    rw [hn]
    rfl
  have hdrain : Accumulation.drain Accumulation.undisturbed l i a
      = Accumulation.onStream (·.batch l i true) { a with pool := p, live := a.live.erase l } := by
    unfold Accumulation.drain Accumulation.undisturbed
    simp only [bind_apply, get_apply, set_apply, hretire, Option.isSome_some, if_true,
      Option.getD_some, modify_apply, h.live_iff.mpr hi]
  rw [hdrain] at hb
  unfold Accumulation.onStream at hb
  dsimp only at hb
  -- the window has nothing for the labels and adopts the aggregator, or has one that takes up what
  -- it holds
  cases hl : a.stream.window.get? l with
  | none =>
    rw [PooledStream.batch_of_none_unmapped (w := { pool := p, stream := a.stream }) hl] at hb
    obtain rfl := (Prod.mk.inj hb).2
    refine ⟨rfl, congrArg₂ Contents.mk ?_ ?_⟩
    · refine Stream.windowIn_enter hl ?_ fun l' k _ => hget k
      exact (hget i).trans (h.makes (live_plays hi)).fresh_absorb.symm
    · exact h.live_erase hi fun hk hki _ => hspares.cell hk hki
  | some j =>
    have hj := h.window_iff.mp hl
    obtain ⟨q, hmove, -, hto, -, hq⟩ := h.move hi hj ⟨hspares.has hhas,
      hspares.has (h.has (window_plays hj)), hget i, hget j⟩
    rw [PooledStream.batch_of_some (w := { pool := p, stream := a.stream }) hl,
      PooledStream.move_of_ok (w := { pool := p, stream := a.stream }) hmove] at hb
    obtain rfl := (Prod.mk.inj hb).2
    have hall : ∀ {k}, a.pool.Has k → k ≠ i → k ≠ j → q.cell k = a.pool.cell k :=
      fun hk hki hkj => (hq.cell (hspares.has hk) (not_or.mpr ⟨hki, hkj⟩)).trans
        (hspares.cell hk hki)
    refine ⟨rfl, congrArg₂ Contents.mk (Stream.windowIn_pour hl hto fun l' k hk hl' => ?_)
      (h.live_erase hi fun hk hki hw => hall hk hki fun hkj => hw l (by rw [hkj, hj]))⟩
    have hrole := h.window_iff.mp hk
    have hkj : k ≠ j := ne_of_role_ne hrole hj fun he => hl' (Role.window.inj he)
    exact congrArg Cell.aggregator
      (hall (h.has (window_plays hrole)) (ne_of_window_of_live hrole hi) hkj)

/-- **Batching** a live aggregator: what the window has for the label set takes up what it held, and
it starts over with the references it had. -/
theorem batch_live (h : Rests role a) (hi : role i = .live l) :
    ∃ q s, a.toPooledStream.batch l i false = (.ok (), { pool := q, stream := s }) ∧
      s.start = a.stream.start ∧
      s.windowIn q = a.stream.takeUp a.contents.window l (a.pool.get i) ∧
      q.get i = a.stream.freshAggregator ∧ q.references i = a.pool.references i ∧
      ∀ {k}, a.pool.Has k → k ≠ i → (∀ l', role k ≠ .window l') → q.cell k = a.pool.cell k := by
  have hhas : a.pool.Has i := h.has (live_plays hi)
  cases hl : a.stream.window.get? l with
  | none =>
    -- a new aggregator enters the window, and takes up what the live one held
    let p := a.pool.add a.stream.freshAggregator
    have hnext : a.pool.next ≠ i := hhas.ne_next.symm
    have hadd : ∀ {k}, a.pool.Has k → p.cell k = a.pool.cell k := Pool.cell_add_of_has
    have hgetnext : p.get a.pool.next = a.stream.freshAggregator := by
      rw [Pool.get_add_next]
    have hmakes := h.makes (live_plays hi)
    obtain ⟨q, hmove, hfrom, hto, hreferences, hq⟩ := Pool.move_of_ne (p := p) hnext.symm
      (Pool.has_add.mpr (Or.inl hhas)) (Pool.has_add.mpr (Or.inr rfl)) (by
        rw [hgetnext, Pool.get, hadd hhas]
        exact hmakes.mergeError? a.stream.makes_fresh)
    have hother : ∀ {k}, a.pool.Has k → k ≠ i → q.cell k = a.pool.cell k := by
      intro k hk hki
      exact (hq.cell (Pool.has_add.mpr (Or.inl hk)) (not_or.mpr ⟨hki, hk.ne_next⟩)).trans (hadd hk)
    have hsame : p.get i = a.pool.get i := congrArg Cell.aggregator (hadd hhas)
    refine ⟨q, { a.stream with window := a.stream.window.insert l a.pool.next },
      ?_, rfl, ?_, ?_, ?_, fun hk hki _ => hother hk hki⟩
    · rw [PooledStream.batch_of_none_live hl]
      exact PooledStream.move_of_ok
        (w := (a.toPooledStream.create.2.enter l a.pool.next)) hmove
    · refine Stream.windowIn_enter hl ?_ fun l' k hk => ?_
      · rw [hto, hgetnext, hsame]
      · have hrole := h.window_iff.mp hk
        exact congrArg Cell.aggregator
          (hother (h.has (window_plays hrole)) (ne_of_window_of_live hrole hi))
    · rw [hfrom, hsame]
      exact hmakes.emptied
    · rw [hreferences]
      exact congrArg Cell.references (hadd hhas)
  | some j =>
    have hj := h.window_iff.mp hl
    obtain ⟨q, hmove, hfrom, hto, hreferences, hq⟩ := h.move hi hj ⟨hhas,
      h.has (window_plays hj), rfl, rfl⟩
    refine ⟨q, a.stream, ?_, rfl, ?_, hfrom, hreferences i, fun {k} hk hki hw => ?_⟩
    · rw [PooledStream.batch_of_some hl, PooledStream.move_of_ok hmove]
    · refine Stream.windowIn_pour hl hto fun l' k hk hl' => ?_
      have hrole := h.window_iff.mp hk
      have hkj : k ≠ j := ne_of_role_ne hrole hj fun he => hl' (Role.window.inj he)
      exact hq.get (h.has (window_plays hrole))
        (not_or.mpr ⟨ne_of_window_of_live hrole hi, hkj⟩)
    · exact hq.cell hk (not_or.mpr ⟨hki, fun hkj => hw l (by rw [hkj, hj])⟩)

/-- **Draining** a live aggregator that something refers to: what it holds moves into the window,
and it stays live. -/
theorem drain_held (h : Rests role a) (hi : role i = .live l) {n : Nat}
    (hn : a.pool.references i = .held (n + 1)) {b : Accumulation}
    (hb : Accumulation.drain Accumulation.undisturbed l i a = (.ok (), b)) :
    b.stream.start = a.stream.start ∧ b.contents
      = { window := a.stream.takeUp a.contents.window l (a.pool.get i)
          live := a.contents.live.insert l
            { a.stream.freshCell with references := a.pool.references i } } := by
  have hretire : a.pool.retire? i = none := by
    unfold Pool.retire?
    rw [hn]
    rfl
  have hdrain : Accumulation.drain Accumulation.undisturbed l i a
      = Accumulation.onStream (·.batch l i false) a := by
    unfold Accumulation.drain Accumulation.undisturbed
    simp only [bind_apply, get_apply, set_apply, hretire]
    rfl
  obtain ⟨q, s, hbatch, hstart, hwindow, hfrom, hreferences, hq⟩ := h.batch_live hi
  rw [hdrain] at hb
  unfold Accumulation.onStream at hb
  dsimp only at hb
  rw [hbatch] at hb
  obtain rfl := (Prod.mk.inj hb).2
  refine ⟨hstart, congrArg₂ Contents.mk hwindow ((h.live_insert hi hq).trans ?_)⟩
  have hcell : q.cell i = ⟨q.get i, q.references i⟩ := rfl
  rw [hcell, hfrom, hreferences]
  rfl

/-- **Draining** a live aggregator, when nobody interferes. -/
theorem drain (h : Rests role a) (hi : role i = .live l) {b : Accumulation}
    (hb : Accumulation.drain Accumulation.undisturbed l i a = (.ok (), b)) :
    b.stream.start = a.stream.start ∧ b.contents = a.stream.drainIn a.contents l := by
  obtain ⟨n, hn⟩ := h.held hi
  have hreferences : (a.pool.cell i).references = .held n := hn
  unfold Stream.drainIn
  rw [h.get?_live hi]
  dsimp only
  cases n with
  | zero =>
    rw [if_pos hreferences]
    exact h.drain_free hi hn hb
  | succ n =>
    rw [if_neg (by rw [hreferences]; exact nofun)]
    exact h.drain_held hi hn hb

end Rests

/-! ### Whole operations -/

/-- Taking a reference and giving it back makes no difference to what is recorded in between. -/
theorem Cell.released_recorded_acquired {x : Cell} {n : Nat} (hx : x.references = .held n)
    (v : Scalar) : (x.acquired.recorded v).released = x.recorded v := by
  have hacquired : x.acquired = { x with references := .held (n + 1) } := by
    unfold acquired
    rw [hx]
    rfl
  rw [hacquired]
  unfold recorded
  dsimp only
  cases x.aggregator.record v with
  | error e =>
    unfold released
    dsimp only [References.release]
    rw [Nat.add_sub_cancel, ← hx]
  | ok a =>
    unfold released
    dsimp only [References.release]
    rw [Nat.add_sub_cancel, ← hx]

/-- The cell of a label set, live or new, can be referred to. -/
theorem Rests.held_cell {role : AggregatorId → Role} {a : Accumulation} (h : Rests role a)
    (l : LabelSet) :
    ∃ n, ((a.contents.live.get? l).getD a.stream.freshCell).references = .held n := by
  have hlive : a.contents.live.get? l = (a.live.get? l).map a.pool.cell := OrderedMap.get?_map ..
  rw [hlive]
  cases hl : a.live.get? l with
  | none => exact ⟨0, rfl⟩
  | some i => exact h.held (h.live_iff.mp hl)

section

variable {α : Type} [Recordable α] {isTotal : α → List α → Prop} {role : AggregatorId → Role}
  {t : Threads} {g : Ledger α}

/-- **Adding** a measurement records it under its labels, and fails just if the stream refuses it.
-/
theorem Sound.add (hadd : AddsUp isTotal) (h : Sound isTotal role t g)
    (hc : t.collector.retired? = none) (hg : g.Admitted t.stream.shape)
    (hmakes : ∀ {s b vs}, t.stream.Continues s → s.shape.Admits vs →
      Aggregator.Holds isTotal s.shape b vs → s.Makes b)
    {labels : LabelArgument} {l : LabelSet} (hl : LabelSet.create labels = .ok l) (v : Scalar) :
    ∃ b, Accumulation.add labels v t.accumulation = (t.stream.verdict v, b) ∧
      b.stream = t.stream ∧
      b.contents = t.stream.touch l (Cell.recorded v) t.accumulation.contents := by
  have hrests := h.rests hc hg (hmakes rfl)
  obtain ⟨i, a, events, hbind, hrun, -⟩ := Threads.run_bind hadd h l
  obtain ⟨hlive, hstream, hbound⟩ := hrests.bind hbind
  obtain ⟨role₁, h₁, hadv⟩ := h.run hadd events
  have hg₁ := h.admitted_run hadd hg events
  rw [hrun] at h₁ hadv
  have hstream₁ : t.stream.Continues a.stream := hadv.stream
  have hrests₁ : Rests role₁ a :=
    h₁.rests hc (hg₁.congr hstream₁.shape) (hmakes hstream₁)
  have hi := hrests₁.live_iff.mp hlive
  obtain ⟨p, hrecord, hrests₂, hrecorded⟩ := hrests₁.record hi v
  have hreleased := hrests₂.release hi
  have htouch : (Accumulation.release i { a with pool := p }).2.contents
      = t.stream.touch l (Cell.recorded v) t.accumulation.contents := by
    obtain ⟨n, hn⟩ := hrests.held_cell l
    rw [hreleased, hrecorded, hbound]
    show a.stream.touch l _ (a.stream.touch l _ _) = _
    rw [hstream, Stream.touch_touch, Stream.touch_touch]
    exact Stream.touch_congr (Cell.released_recorded_acquired hn v)
  have hverdict : a.stream.verdict v = t.stream.verdict v := congrArg (Stream.verdict · v) hstream
  rw [hverdict] at hrecord
  refine ⟨(Accumulation.release i { a with pool := p }).2, ?_, hstream, htouch⟩
  unfold Accumulation.add Accumulation.bindArgument
  simp only [hl, bind_apply, hbind, tryCatch_apply, hrecord]
  cases t.stream.verdict v <;> rfl

/-- **Draining** the rest of the snapshot. -/
theorem Sound.drainAll (hadd : AddsUp isTotal) (h : Sound isTotal role t g)
    (hg : g.Admitted t.stream.shape)
    (hmakes : ∀ {s b vs}, t.stream.Continues s → s.shape.Admits vs →
      Aggregator.Holds isTotal s.shape b vs → s.Makes b)
    (rest : List (LabelSet × AggregatorId)) (hc : t.collector = .draining rest) :
    ∃ b, (rest.forM fun e => Accumulation.drain Accumulation.undisturbed e.1 e.2) t.accumulation
        = (.ok (), b) ∧ t.stream.Continues b.stream ∧ b.stream.start = t.stream.start ∧
      b.contents = (rest.map Prod.fst).foldl t.stream.drainIn t.accumulation.contents := by
  induction rest generalizing role t g with
  | nil => exact ⟨t.accumulation, rfl, rfl, rfl, rfl⟩
  | cons e rest ih =>
    obtain ⟨l, i⟩ := e
    obtain ⟨a, entries, events, hdrain, -, hrun⟩ :=
      Threads.run_drain hadd Threads.isRun_undisturbed h hc
    have hi : role i = .live l := h.mapped.rest (by rw [hc]; exact List.mem_cons_self)
    obtain ⟨hstart, hcontents⟩ := (h.rests (by rw [hc]; rfl) hg (hmakes rfl)).drain hi hdrain
    obtain ⟨role₁, h₁, hadv⟩ := h.run hadd events
    have hg₁ := h.admitted_run hadd hg events
    rw [hrun] at h₁ hadv
    have hstream : t.stream.Continues a.stream := hadv.stream
    obtain ⟨b, hrest, hcontinues, hstart', hcontents'⟩ :=
      ih h₁ (hg₁.congr hstream.shape) (fun hs => hmakes (hstream.trans hs)) rfl
    refine ⟨b, ?_, hstream.trans hcontinues, hstart'.trans hstart, ?_⟩
    · rw [forM_cons_apply, hdrain]
      exact hrest
    · rw [hcontents', List.map_cons, List.foldl_cons]
      show List.foldl a.stream.drainIn a.contents _ = _
      rw [hstream.drainIn, hcontents]
      rfl

/-- **Collecting** drains everything into the window, reports the window, and ends it. -/
theorem Sound.collects (hadd : AddsUp isTotal) (h : Sound isTotal role t g)
    (hc : t.collector = .idle) (hg : g.Admitted t.stream.shape)
    (hmakes : ∀ {s b vs}, t.stream.Continues s → s.shape.Admits vs →
      Aggregator.Holds isTotal s.shape b vs → s.Makes b)
    (time : Int) :
    ∃ b, Accumulation.collect Accumulation.undisturbed time t.accumulation
        = (.ok (t.stream.metricsOf (t.stream.drainAllIn t.accumulation.contents).window time), b) ∧
      b.stream.start = (t.stream.endWindow time).start ∧
      b.contents = t.stream.endIn (t.stream.drainAllIn t.accumulation.contents) := by
  have hsnapshot : t.step (.collect time) = _ :=
    Threads.step_collect_silent (by rw [hc]; exact Collector.advance_idle)
  -- the drain is known of threads that have taken the snapshot, so that step is made first
  obtain ⟨role₁, h₁, -⟩ := h.collect hadd time
  rw [hsnapshot] at h₁
  obtain ⟨a, hdrain, hstream, hstart, hcontents⟩ :=
    h₁.drainAll hadd (h.admitted_step hadd hg (.collect time)) hmakes
      t.accumulation.live.entries rfl
  have hstream : t.stream.Continues a.stream := hstream
  have hcontents : a.contents = t.stream.drainAllIn t.accumulation.contents := by
    rw [hcontents]
    unfold Stream.drainAllIn Accumulation.contents
    rw [OrderedMap.keys_map]
    rfl
  have hwindow : a.stream.windowIn a.pool
      = (t.stream.drainAllIn t.accumulation.contents).window := congrArg Contents.window hcontents
  refine ⟨{ a with toPooledStream := (a.toPooledStream.complete time).2 }, ?_, ?_, ?_⟩
  · unfold Accumulation.collect Accumulation.onStream
    simp only [bind_apply, get_apply]
    dsimp only at hdrain
    rw [hdrain]
    show (Except.ok (a.stream.metrics a.pool time), _) = _
    rw [Stream.metrics_eq, hwindow, hstream.metricsOf hstart]
  · exact hstream.start_endWindow hstart time
  · rw [← hcontents, ← hstream.endIn]
    unfold Accumulation.contents Stream.endIn
    dsimp only
    rw [← Stream.windowIn_endWindow]
    rfl

end

end Metering
