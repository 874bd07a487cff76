import Metering.Proofs.Concurrency.Operations

/-!
# Collections that nobody interferes with

`Swept` is what holds while a collection goes on and nobody else does anything: a live aggregator
that the collection has come to is one that somebody refers to, and what it held has been taken.
When the collection is over, the live map has just the label sets that are referred to
(`Swept.held`), and no live aggregator holds any value (`Swept.live_eq_nil`).
-/

namespace Metering

theorem Pool.retire?_eq_none {p : Pool} {i : AggregatorId} (h : p.retire? i = none) :
    p.references i ≠ .held 0 := by
  intro href
  unfold Pool.retire? at h
  rw [href] at h
  cases h

section

variable {α : Type} {t : Threads} {g : Ledger α}

theorem Ledger.live_retire_self (g : Ledger α) (l : LabelSet) : (g.retire l).live l = [] :=
  Function.update_self ..

theorem Ledger.live_retire_of_ne (g : Ledger α) {l l' : LabelSet} (h : l' ≠ l) :
    (g.retire l).live l' = g.live l' := Function.update_of_ne h ..

theorem Ledger.follow_collect [Recordable α] {c : Collector} (hc : t.collector = c) (time : Int) :
    g.follow t (.collect time) = g.collect t.pool c := by
  rw [← hc]
  rfl

/-- The part of the live map that the collection under way has come to is swept. -/
structure Swept (t : Threads) (g : Ledger α) : Prop where
  /-- An aggregator that stays live is referred to. -/
  entries : ∀ {l i}, t.live.get? l = some i →
    (l, i) ∈ t.collector.rest ∨ t.collector.retired? = some (l, i) ∨ (l, i) ∈ t.held
  /-- Live aggregators hold nothing, once they are batched. -/
  values : ∀ {l}, g.live l ≠ [] →
    (∃ i, (l, i) ∈ t.collector.rest) ∨ ∃ i rest, t.collector = .tried l i false rest

namespace Swept

/-- After a collection every live aggregator is referred to. -/
theorem held (hw : Swept t g) (hc : t.collector = .idle) {l : LabelSet} {i : AggregatorId}
    (hi : t.live.get? l = some i) : (l, i) ∈ t.held := by
  have hor := hw.entries hi
  rw [hc] at hor
  rcases hor with hmem | hretired | hheld
  · cases hmem
  · cases hretired
  · exact hheld

/-- Values are with aggregators that the collection has yet to come to, unless it has just come to
one that stays live. -/
theorem values_rest (hw : Swept t g) (hc : ∀ l i rest, t.collector ≠ .tried l i false rest)
    {l : LabelSet} (hl : g.live l ≠ []) : ∃ i, (l, i) ∈ t.collector.rest :=
  (hw.values hl).resolve_right fun ⟨i, rest, he⟩ => hc l i rest he

/-- After a collection no live aggregator holds a value. -/
theorem live_eq_nil (hw : Swept t g) (hc : t.collector = .idle) (l : LabelSet) :
    g.live l = [] := by
  by_contra hl
  obtain ⟨i, hmem⟩ := hw.values_rest (by simp [hc]) hl
  rw [hc] at hmem
  cases hmem

variable [Recordable α] {isTotal : α → List α → Prop} {role : AggregatorId → Role}

/-- The snapshot has all there is. -/
theorem snapshot (h : Sound isTotal role t g) (hc : t.collector = .idle) (time : Int) :
    Swept (t.step (.collect time)) (g.follow t (.collect time)) := by
  rw [Threads.step_collect_silent (by rw [hc]; exact Collector.advance_idle)]
  constructor
  case entries =>
    intro l i hi
    exact Or.inl (OrderedMap.mem_entries_iff.mpr hi)
  case values =>
    intro l hl
    have hlive : g.live l ≠ [] := by
      have hfollow : g.follow t (.collect time) = g := Ledger.follow_collect hc time
      rwa [hfollow] at hl
    -- somebody plays the role, for it has values
    obtain ⟨i, hi⟩ : ∃ i, role i = .live l := by
      by_contra hnone
      exact hlive (h.vacant (.live l) fun i hi => hnone ⟨i, hi⟩)
    exact Or.inl ⟨i, OrderedMap.mem_entries_iff.mpr (h.mapped.live_of_role hi)⟩

/-- The next entry of the snapshot is tried. -/
theorem tried (h : Sound isTotal role t g) (hw : Swept t g) {l : LabelSet} {i : AggregatorId}
    {rest : List (LabelSet × AggregatorId)} (hc : t.collector = .draining ((l, i) :: rest))
    (time : Int) : Swept (t.step (.collect time)) (g.follow t (.collect time)) := by
  rw [Threads.step_collect_silent (by rw [hc]; exact Collector.advance_draining_cons)]
  have hfollow : g.follow t (.collect time)
      = if (t.pool.retire? i).isSome then g.retire l else g :=
    Ledger.follow_collect hc time
  rw [hfollow]
  have hi : role i = .live l := h.mapped.rest (by rw [hc]; exact List.mem_cons_self)
  constructor
  case entries =>
    intro l' i' hi'
    have hor := hw.entries hi'
    rw [hc] at hor
    rcases hor with hmem | hretired | hheld
    · rcases List.mem_cons.mp hmem with he | hmem
      · obtain ⟨rfl, rfl⟩ := Prod.mk.inj he
        show _ ∨ Collector.retired? (.tried l' i' (t.pool.retire? i').isSome rest) = _ ∨ _
        cases hr : t.pool.retire? i' with
        | some p => exact Or.inr (Or.inl rfl)
        | none =>
          -- it could not be retired, so it is referred to
          have href := h.references_live hi
          have hne := Pool.retire?_eq_none hr
          refine Or.inr (Or.inr (List.count_pos_iff.mp ?_))
          rw [href] at hne
          exact Nat.pos_of_ne_zero fun hzero => hne (congrArg References.held hzero)
      · exact Or.inl hmem
    · cases hretired
    · exact Or.inr (Or.inr hheld)
  case values =>
    intro l' hl'
    have hold : ∀ (hne : l' ≠ l), g.live l' ≠ [] → ∃ i', (l', i') ∈ rest := by
      intro hne hlive
      obtain ⟨i', hmem⟩ := hw.values_rest (by simp [hc]) hlive
      rw [hc] at hmem
      rcases List.mem_cons.mp hmem with he | hmem
      · exact absurd (Prod.mk.inj he).1 hne
      · exact ⟨i', hmem⟩
    show (∃ i', (l', i') ∈ rest) ∨ _
    cases hr : t.pool.retire? i with
    | some p =>
      rw [hr] at hl'
      rw [Option.isSome_some, if_pos rfl] at hl'
      by_cases hne : l' = l
      · subst hne
        exact absurd (g.live_retire_self l') hl'
      · rw [g.live_retire_of_ne hne] at hl'
        exact Or.inl (hold hne hl')
    | none =>
      rw [hr] at hl'
      by_cases hne : l' = l
      · -- its values are batched in the next step
        subst hne
        refine Or.inr ⟨i, rest, ?_⟩
        rw [show t.accumulation.pool.retire? i = none from hr]
        rfl
      · exact Or.inl (hold hne hl')

/-- A retired aggregator is taken out of the live map. -/
theorem removed (hw : Swept t g) {l : LabelSet} {i : AggregatorId}
    {rest : List (LabelSet × AggregatorId)} (hc : t.collector = .tried l i true rest)
    (time : Int) : Swept (t.step (.collect time)) (g.follow t (.collect time)) := by
  have hfollow : g.follow t (.collect time) = g :=
    Ledger.follow_collect hc time
  rw [hfollow, Threads.step_collect_silent (by rw [hc]; exact Collector.advance_tried_true)]
  constructor
  case entries =>
    intro l' i' hi'
    -- what is still in the live map was there before
    have hsame : t.live.get? l' = some i' := by
      dsimp only [Threads.live] at hi'
      split at hi'
      · by_cases hl : l' = l
        · rw [hl, OrderedMap.get?_erase_self] at hi'
          cases hi'
        · rwa [OrderedMap.get?_erase_of_ne _ hl] at hi'
      · exact hi'
    have hor := hw.entries hsame
    rw [hc] at hor
    exact hor
  case values =>
    intro l' hl'
    have hmem := hw.values_rest (by simp [hc]) hl'
    rw [hc] at hmem
    exact Or.inl hmem

/-- An aggregator that stays live is batched, and holds nothing then. -/
theorem batched_live (hadd : AddsUp isTotal) (h : Sound isTotal role t g) (hw : Swept t g)
    {l : LabelSet} {i : AggregatorId} {rest : List (LabelSet × AggregatorId)}
    (hc : t.collector = .tried l i false rest) (time : Int) :
    Swept (t.step (.collect time)) (g.follow t (.collect time)) := by
  obtain ⟨w, -, hbatch, -, -⟩ := h.batch_live hadd hc
  have hfollow : g.follow t (.collect time) = (g.retire l).take l :=
    Ledger.follow_collect hc time
  rw [hfollow,
    Threads.step_collect_silent (by rw [hc]; exact Collector.advance_tried_false hbatch)]
  constructor
  case entries =>
    intro l' i' hi'
    have hor := hw.entries hi'
    rw [hc] at hor
    exact hor
  case values =>
    intro l' hl'
    change (g.retire l).live l' ≠ [] at hl'
    by_cases hl : l' = l
    · subst hl
      exact absurd (g.live_retire_self l') hl'
    · rw [g.live_retire_of_ne hl] at hl'
      have hor := hw.values hl'
      rw [hc] at hor
      rcases hor with hmem | ⟨_, _, hcollector⟩
      · exact Or.inl hmem
      · exact absurd (Collector.tried.inj hcollector).1.symm hl

/-- A retired aggregator is batched; it is not in the live map any more. -/
theorem batched_retired (hadd : AddsUp isTotal) (h : Sound isTotal role t g) (hw : Swept t g)
    {l : LabelSet} {i : AggregatorId} {rest : List (LabelSet × AggregatorId)}
    (hc : t.collector = .removed l i rest) (time : Int) :
    Swept (t.step (.collect time)) (g.follow t (.collect time)) := by
  obtain ⟨w, -, hbatch, -, -⟩ := h.batch_retired hadd hc
  have hfollow : g.follow t (.collect time) = g.take l :=
    Ledger.follow_collect hc time
  rw [hfollow, Threads.step_collect_silent (by rw [hc]; exact Collector.advance_removed hbatch)]
  constructor
  case entries =>
    intro l' i' hi'
    have hor := hw.entries hi'
    rw [hc] at hor
    rcases hor with hmem | hretired | hheld
    · exact Or.inl hmem
    · obtain ⟨rfl, rfl⟩ := Prod.mk.inj (Option.some.inj hretired)
      exact absurd hi' (h.mapped.removed hc)
    · exact Or.inr (Or.inr hheld)
  case values =>
    intro l' hl'
    have hmem := hw.values_rest (by simp [hc]) hl'
    rw [hc] at hmem
    exact Or.inl hmem

/-- At the end of the snapshot everything is swept. -/
theorem closed (hw : Swept t g) (hc : t.collector = .draining []) (time : Int) :
    Swept (t.step (.collect time)) (g.follow t (.collect time)) := by
  have hfollow : g.follow t (.collect time) = g.close :=
    Ledger.follow_collect hc time
  rw [hfollow, Threads.step_collect (by rw [hc]; exact Collector.advance_draining_nil)]
  constructor
  case entries =>
    intro l i hi
    have hor := hw.entries hi
    rw [hc] at hor
    exact hor
  case values =>
    intro l hl
    have hmem := hw.values_rest (by simp [hc]) hl
    rw [hc] at hmem
    exact Or.inl hmem

/-- **Collecting** goes on by one step. -/
theorem collect (hadd : AddsUp isTotal) (h : Sound isTotal role t g)
    (hw : t.collector = .idle ∨ Swept t g) (time : Int) :
    Swept (t.step (.collect time)) (g.follow t (.collect time)) := by
  rcases hw with hidle | hw
  · exact snapshot h hidle time
  rcases hc : t.collector with _ | (_ | ⟨⟨l, i⟩, rest⟩) | ⟨l, i, _ | _, rest⟩ | ⟨l, i, rest⟩
  case idle => exact snapshot h hc time
  case draining.nil => exact hw.closed hc time
  case draining.cons => exact hw.tried h hc time
  case tried.true => exact hw.removed hc time
  case tried.false => exact hw.batched_live hadd h hc time
  case removed => exact hw.batched_retired hadd h hc time

/-- **Any collection** that goes on undisturbed sweeps the live map. -/
theorem run (hadd : AddsUp isTotal) (h : Sound isTotal role t g)
    (hw : t.collector = .idle ∨ Swept t g) (time : Int) (events : List Event)
    (hevents : ∀ e ∈ events, ∃ time, e = .collect time) :
    Swept (t.run (.collect time :: events)) (g.after t (.collect time :: events)) := by
  induction events generalizing role t g time with
  | nil => exact collect hadd h hw time
  | cons e events ih =>
    obtain ⟨time', rfl⟩ := hevents e List.mem_cons_self
    obtain ⟨role', h', -⟩ := h.collect hadd time
    exact ih h' (Or.inr (collect hadd h hw time)) time'
      fun e he => hevents e (List.mem_cons_of_mem _ he)

end Swept

end

end Metering
