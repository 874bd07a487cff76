import Metering.Proofs.Concurrency.Collecting

/-!
# Steps and runs

`Sound.step` puts the invariant together: whatever any thread does next, it holds again, with roles
that only change for aggregators that played one before and for new ones.  `Sound.run` follows by
induction, and `sound_start` is where runs begin.
-/

namespace Metering

open Fallible

/-! ### What the collecting thread computes -/

namespace Collector

variable {a : Accumulation} {l : LabelSet} {i : AggregatorId}
  {rest : List (LabelSet × AggregatorId)} {w : PooledStream} {time : Int}

theorem advance_idle : idle.advance time a = (.ok (draining a.live.entries, none), a) := rfl

theorem advance_draining_cons : (draining ((l, i) :: rest)).advance time a
    = (.ok (tried l i (a.pool.retire? i).isSome rest, none),
        { a with pool := (a.pool.retire? i).getD a.pool }) := rfl

theorem advance_draining_nil : (draining []).advance time a
    = (.ok (idle, some (a.toPooledStream.complete time).1),
        { a with toPooledStream := (a.toPooledStream.complete time).2 }) := rfl

theorem advance_tried_true : (tried l i true rest).advance time a
    = (.ok (removed l i rest, none),
        if a.live.get? l = some i then { a with live := a.live.erase l } else a) := rfl

theorem advance_tried_false (h : a.toPooledStream.batch l i false = (.ok (), w)) :
    (tried l i false rest).advance time a
      = (.ok (draining rest, none), { a with toPooledStream := w }) := by
  unfold advance
  simp only [bind_apply, Accumulation.onStream, h, pure_apply]

theorem advance_removed (h : a.toPooledStream.batch l i true = (.ok (), w)) :
    (removed l i rest).advance time a
      = (.ok (draining rest, none), { a with toPooledStream := w }) := by
  unfold advance
  simp only [bind_apply, Accumulation.onStream, h, pure_apply]

end Collector

namespace Stream

variable {s : Stream} {time : Int}

theorem endWindow_cumulative (h : s.temporality = .cumulative) : s.endWindow time = s := by
  unfold endWindow
  rw [h]

theorem endWindow_delta (h : s.temporality = .delta) :
    s.endWindow time = { s with start := time, window := OrderedMap.empty } := by
  unfold endWindow
  split
  · rfl
  · next hc =>
    rw [h] at hc
    cases hc

theorem continues_endWindow (s : Stream) (time : Int) : s.Continues (s.endWindow time) := by
  cases h : s.temporality with
  | delta => rw [endWindow_delta h, Continues]
  | cumulative => rw [endWindow_cumulative h, Continues]

end Stream

namespace PooledStream

variable {w : PooledStream} {l : LabelSet} {i j : AggregatorId}

theorem batch_of_some {unmapped : Bool} (h : w.stream.window.get? l = some j) :
    w.batch l i unmapped = w.move i j := by
  unfold batch
  rw [h]

theorem batch_of_none_unmapped (h : w.stream.window.get? l = none) :
    w.batch l i true = (.ok (), w.enter l i) := by
  unfold batch
  rw [h]
  rfl

theorem batch_of_none_live (h : w.stream.window.get? l = none) :
    w.batch l i false = (w.create.2.enter l w.pool.next).move i w.pool.next := by
  unfold batch
  rw [h]
  rfl

end PooledStream

namespace Sound

variable {α : Type} [Recordable α] {isTotal : α → List α → Prop} {role : AggregatorId → Role}
  {t : Threads} {g : Ledger α}

/-! ### Batching -/

/-- Batching a live aggregator into a window that has one for its label set. -/
theorem batch_into (hadd : AddsUp isTotal) (h : Sound isTotal role t g) {l : LabelSet}
    {i j : AggregatorId} {rest : List (LabelSet × AggregatorId)}
    (hc : t.collector = .tried l i false rest) (hj : role j = .window l) :
    ∃ q, t.pool.move i j = .ok q ∧
      Sound isTotal role { t with
        accumulation := { t.accumulation with pool := q }
        collector := .draining rest } ((g.retire l).take l) ∧
      Advances role role t.accumulation { t.accumulation with pool := q } := by
  have hi : role i = .live l := h.mapped.tried hc
  obtain ⟨q, hmove, hsource, htarget, hreferences, hspares, hplays⟩ :=
    h.move hadd hi hj nofun nofun nofun
  exact ⟨q, hmove, h.pour_live hc hj hspares hreferences hsource htarget,
    .of_spares hspares hplays rfl⟩

/-- **Batching** a live aggregator succeeds. -/
theorem batch_live (hadd : AddsUp isTotal) (h : Sound isTotal role t g) {l : LabelSet}
    {i : AggregatorId} {rest : List (LabelSet × AggregatorId)}
    (hc : t.collector = .tried l i false rest) :
    ∃ w role', t.accumulation.batch l i false = (.ok (), w) ∧
      Sound isTotal role' { t with
        accumulation := { t.accumulation with toPooledStream := w }
        collector := .draining rest } ((g.retire l).take l) ∧
      Advances role role' t.accumulation { t.accumulation with toPooledStream := w } := by
  cases hl : t.stream.window.get? l with
  | some j =>
    obtain ⟨q, hmove, hs, hadv⟩ := h.batch_into hadd hc (h.window_iff.mp hl)
    exact ⟨_, role, (PooledStream.batch_of_some hl).trans (PooledStream.move_of_ok hmove), hs, hadv⟩
  | none =>
    -- a new aggregator enters the window first, and takes the values
    have hnew : Function.update role t.pool.next (.window l) t.pool.next = .window l :=
      Function.update_self ..
    obtain ⟨q, hmove, hs, hadv⟩ := (h.enter hadd hl).batch_into hadd hc hnew
    refine ⟨_, _, (PooledStream.batch_of_none_live hl).trans (PooledStream.move_of_ok hmove), hs,
      ?_⟩
    refine Advances.trans ⟨Pool.Spares.add, fun {k} hk hf => ?_, ?_⟩ hadv
    · have hne : k ≠ t.pool.next := hk.ne_next
      rw [Function.update_of_ne hne, hf]
    · rfl

/-- **Batching** a retired aggregator succeeds. -/
theorem batch_retired (hadd : AddsUp isTotal) (h : Sound isTotal role t g) {l : LabelSet}
    {i : AggregatorId} {rest : List (LabelSet × AggregatorId)}
    (hc : t.collector = .removed l i rest) :
    ∃ w role', t.accumulation.batch l i true = (.ok (), w) ∧
      Sound isTotal role' { t with
        accumulation := { t.accumulation with toPooledStream := w }
        collector := .draining rest } (g.take l) ∧
      Advances role role' t.accumulation { t.accumulation with toPooledStream := w } := by
  have hi : role i = .retired l := h.mapped.retired_iff.mp (by rw [hc]; rfl)
  have hforeign : ∀ {r k}, role k = .foreign → Function.update role i r k = .foreign :=
    update_foreign hi nofun
  cases hl : t.stream.window.get? l with
  | none =>
    exact ⟨_, _, PooledStream.batch_of_none_unmapped hl, h.adopt hc hl, .refl _,
      fun _ hk => hforeign hk, rfl⟩
  | some j =>
    have hj := h.window_iff.mp hl
    obtain ⟨q, hmove, -, htarget, hreferences, hspares, hplays⟩ :=
      h.move hadd hi hj nofun nofun nofun
    exact ⟨_, _, (PooledStream.batch_of_some hl).trans (PooledStream.move_of_ok hmove),
      h.pour_retired hc hj hspares hreferences htarget, hspares.mono fun _ hk => hplays _ hk,
      fun _ hk => hforeign hk, rfl⟩

/-! ### Steps -/

/-- What was reported does not matter. -/
theorem with_reports (h : Sound isTotal role t g) (reports : List (List Metric)) :
    Sound isTotal role { t with reports := reports } g := { h with }

/-- Ending the cycle. -/
theorem complete (h : Sound isTotal role t g) (hc : t.collector = .draining []) (time : Int) :
    ∃ role', Sound isTotal role' { t with
        accumulation :=
          { t.accumulation with toPooledStream := (t.accumulation.toPooledStream.complete time).2 }
        collector := .idle } g.close ∧
      Advances role role' t.accumulation
        { t.accumulation with
          toPooledStream := (t.accumulation.toPooledStream.complete time).2 } := by
  have hstream : (t.accumulation.toPooledStream.complete time).2
      = { t.accumulation.toPooledStream with stream := t.stream.endWindow time } := rfl
  rw [hstream]
  cases htemp : t.stream.temporality with
  | cumulative =>
    rw [Stream.endWindow_cumulative htemp]
    exact ⟨role, h.close_cumulative hc htemp, .refl role _⟩
  | delta =>
    rw [Stream.endWindow_delta htemp]
    refine ⟨_, h.close_delta hc htemp time, .refl _, fun {i} _ hi => ?_, rfl⟩
    rw [hi]
    rfl

/-- **Collecting** goes on by one step. -/
theorem collect (hadd : AddsUp isTotal) (h : Sound isTotal role t g) (time : Int) :
    ∃ role', Sound isTotal role' (t.step (.collect time)) (g.follow t (.collect time)) ∧
      Advances role role' t.accumulation (t.step (.collect time)).accumulation := by
  show ∃ role', Sound isTotal role' _ (g.collect t.pool t.collector) ∧ _
  cases hc : t.collector with
  | idle =>
    rw [Threads.step_collect (by rw [hc]; exact Collector.advance_idle)]
    exact ⟨role, (h.snapshot hc).with_reports _, .refl role _⟩
  | draining rest =>
    cases rest with
    | nil =>
      rw [Threads.step_collect (by rw [hc]; exact Collector.advance_draining_nil)]
      obtain ⟨role', hs, hadv⟩ := h.complete hc time
      exact ⟨role', hs.with_reports _, hadv⟩
    | cons e rest =>
      obtain ⟨l, i⟩ := e
      rw [Threads.step_collect (by rw [hc]; exact Collector.advance_draining_cons)]
      have hcollect : g.collect t.pool (.draining ((l, i) :: rest))
          = if (t.pool.retire? i).isSome then g.retire l else g := rfl
      rw [hcollect]
      cases hr : t.pool.retire? i with
      | none =>
        rw [show t.accumulation.pool.retire? i = none from hr]
        exact ⟨role, (h.keep hc).with_reports _, .refl role _⟩
      | some q =>
        rw [show t.accumulation.pool.retire? i = some q from hr]
        obtain ⟨hfree, rfl⟩ := Pool.retire?_eq_some hr
        have hi : role i = .live l := h.mapped.rest (by rw [hc]; exact List.mem_cons_self)
        exact ⟨_, (h.retire hc hfree).with_reports _,
          (Pool.Spares.setReferences _ i _).mono fun _ => plays hi nofun,
          fun _ hk => update_foreign hi nofun hk, rfl⟩
  | tried l i unmapped rest =>
    cases unmapped with
    | true =>
      rw [Threads.step_collect (by rw [hc]; exact Collector.advance_tried_true)]
      -- whether the entry was still there or not, only the live map may have changed
      refine ⟨role, (h.remove hc).with_reports _, ?_⟩
      show Advances role role t.accumulation (ite _ _ _)
      split
      · exact ⟨.refl _, fun _ hf => hf, rfl⟩
      · exact .refl role _
    | false =>
      obtain ⟨w, role', hbatch, hs, hadv⟩ := h.batch_live hadd hc
      rw [Threads.step_collect (by rw [hc]; exact Collector.advance_tried_false hbatch)]
      exact ⟨role', hs.with_reports _, hadv⟩
  | removed l i rest =>
    obtain ⟨w, role', hbatch, hs, hadv⟩ := h.batch_retired hadd hc
    rw [Threads.step_collect (by rw [hc]; exact Collector.advance_removed hbatch)]
    exact ⟨role', hs.with_reports _, hadv⟩

/-- The collecting thread never fails. -/
theorem advance_ok (hadd : AddsUp isTotal) (h : Sound isTotal role t g) (time : Int) :
    ∃ c report a, t.collector.advance time t.accumulation = (.ok (c, report), a) := by
  rcases ha : t.collector.advance time t.accumulation with ⟨f | ⟨c, report⟩, a⟩
  · -- a failure would have been noted
    obtain ⟨role', h', -⟩ := h.collect hadd time
    have hfailed := h'.unfailing
    unfold Threads.step at hfailed
    dsimp only at hfailed
    rw [ha] at hfailed
    exact absurd hfailed (List.append_ne_nil_of_right_ne_nil _ (List.cons_ne_nil f []))
  · exact ⟨c, report, a, rfl⟩

/-- **One step** of any thread keeps the invariant and leaves foreign aggregators alone. -/
theorem step (hadd : AddsUp isTotal) (h : Sound isTotal role t g) (e : Event) :
    ∃ role', Sound isTotal role' (t.step e) (g.follow t e) ∧
      Advances role role' t.accumulation (t.step e).accumulation := by
  cases e with
  | look l => exact ⟨role, h.look l, .refl role _⟩
  | bind b => exact h.bind hadd b
  | record l i value => exact ⟨role, h.record hadd l i value⟩
  | release l i => exact ⟨role, h.release l i⟩
  | collect time => exact h.collect hadd time

/-- **Any run** keeps the invariant and leaves foreign aggregators alone. -/
theorem run (hadd : AddsUp isTotal) (h : Sound isTotal role t g) (events : List Event) :
    ∃ role', Sound isTotal role' (t.run events) (g.after t events) ∧
      Advances role role' t.accumulation (t.run events).accumulation := by
  induction events generalizing role t g with
  | nil => exact ⟨role, h, .refl role _⟩
  | cons e events ih =>
    obtain ⟨role₁, h₁, hadv₁⟩ := h.step hadd e
    obtain ⟨role₂, h₂, hadv₂⟩ := ih h₁
    exact ⟨role₂, h₂, hadv₁.trans hadv₂⟩

end Sound

/-! ### Where runs begin -/

/-- An accumulation of a stream that nothing has been recorded into, over any pool. -/
def Threads.start (p : Pool) (s : Stream) : Threads :=
  { accumulation :=
      { pool := p
        stream := { s with window := OrderedMap.empty }
        live := OrderedMap.empty } }

theorem sound_start {α : Type} [Recordable α] (isTotal : α → List α → Prop) (p : Pool) {s : Stream}
    (hs : s.descriptor.valueType = Recordable.valueType α) :
    Sound isTotal (fun _ => .foreign) (Threads.start p s) Ledger.empty where
  valueType := hs
  mapped :=
    { live_of_role := nofun
      role_of_live := nofun
      holders := nofun
      retired_iff := iff_of_false nofun nofun
      tried := nofun
      removed := nofun
      rest := nofun
      rest_nodup := List.nodup_nil }
  window_iff := iff_of_false nofun nofun
  bound := ⟨fun _ _ => rfl, nofun⟩
  fits _ hi := absurd rfl hi
  unfailing := rfl
  vacant r _ := by
    cases r with
    | window l =>
      show Temporality.before _ [] ++ [] = []
      rw [Temporality.before_nil, List.append_nil]
    | _ => rfl

end Metering
