import Metering.Proofs.Instruments.Effects

/-!
# Holdings of label sets

What an accumulation reports about a label set depends on two of its aggregators: the one in the
window, and the live one.  `Stream.holding` is these two, with a fresh aggregator for one that is
missing.  Contents with the same holdings may still differ in the order of their label sets, in
who refers to what is live, and in aggregators that nothing was recorded into.  Reports show no more
of that than the order of their points (`Stream.metricsOf_rearranges`), and neither do those after
further operations, as each operation acts on holdings alone (`Stream.holding_touch`,
`Stream.holding_drainAllIn`, `Stream.holding_endIn`).
-/

namespace Metering

/-! ### Fresh aggregators -/

namespace Aggregator

/-- A source that nothing was recorded into changes nothing in the target. -/
theorem absorb_fresh (a : Aggregator) (s : Shape) (v : ValueType) : a.absorb (fresh s v) = a := by
  have hempty : ∀ {α : Type} [Quantity α] (t : Tally α), t.absorb (Tally.fresh s) = t := by
    intro α _ t
    unfold Tally.absorb
    rw [if_pos (Tally.isEmpty_fresh s)]
  cases v <;> cases a <;> unfold fresh absorb <;> dsimp only <;> rw [hempty]

/-- An aggregator that nothing was recorded into makes no point. -/
theorem point?_fresh (s : Shape) (v : ValueType) (start stop : Int) (labels : LabelSet) :
    (fresh s v).point? start stop labels = none := by
  have hempty : ∀ {α : Type} [Quantity α], (Tally.fresh s : Tally α).value? = none := by
    intro α _
    unfold Tally.value?
    rw [if_pos (Tally.isEmpty_fresh s)]
  unfold point? fresh value?
  cases v <;> dsimp only <;> rw [hempty] <;> rfl

/-- A point has the labels that it was made for. -/
theorem labels_of_point? {a : Aggregator} {start stop : Int} {labels : LabelSet} {p : Point}
    (h : a.point? start stop labels = some p) : p.labels = labels := by
  obtain ⟨value, -, rfl⟩ := Option.map_eq_some_iff.mp h
  rfl

/-- The aggregator after a scalar was recorded, unless it refuses it. -/
def noted (v : Scalar) (a : Aggregator) : Aggregator :=
  match a.record v with
  | .ok b => b
  | .error _ => a

end Aggregator

namespace Cell

variable (x : Cell)

theorem aggregator_acquired : x.acquired.aggregator = x.aggregator := rfl

theorem aggregator_released : x.released.aggregator = x.aggregator := rfl

theorem aggregator_recorded (v : Scalar) :
    (x.recorded v).aggregator = x.aggregator.noted v := by
  unfold recorded Aggregator.noted
  cases x.aggregator.record v <;> rfl

end Cell

/-! ### Holdings -/

/-- What a label set has in the window, and what it has live. -/
structure Holding where
  batched : Aggregator
  pending : Aggregator

namespace Stream

variable {s : Stream} {c c' : Contents}

/-- What a label set has in some contents, where nothing is as good as a fresh aggregator. -/
def holding (s : Stream) (c : Contents) (l : LabelSet) : Holding where
  batched := (c.window.get? l).getD s.freshAggregator
  pending := ((c.live.get? l).getD s.freshCell).aggregator

/-- The holding after what is live went into the window. -/
def drained (s : Stream) (h : Holding) : Holding where
  batched := h.batched.absorb h.pending
  pending := s.freshAggregator

theorem drained_drained (h : Holding) : s.drained (s.drained h) = s.drained h := by
  unfold drained
  exact congrArg (Holding.mk · _) (Aggregator.absorb_fresh ..)

/-- Nothing is drained where nothing is live. -/
theorem drained_of_get?_none {l : LabelSet} (hl : c.live.get? l = none) :
    s.drained (s.holding c l) = s.holding c l := by
  unfold drained holding
  rw [hl]
  exact congrArg (Holding.mk · _) (Aggregator.absorb_fresh ..)

/-- **Touching** a live cell acts on the holding of its label set. -/
theorem holding_touch {f : Cell → Cell} {g : Aggregator → Aggregator}
    (hf : ∀ x, (f x).aggregator = g x.aggregator) (l : LabelSet) (c : Contents) :
    s.holding (s.touch l f c) = Function.update (s.holding c) l
      { s.holding c l with pending := g (s.holding c l).pending } := by
  funext k
  unfold holding touch
  dsimp only
  rw [OrderedMap.get?_insert]
  by_cases hk : k = l
  · rw [if_pos hk, hk, Function.update_self, Option.getD_some, hf]
  · rw [if_neg hk, Function.update_of_ne hk]

/-- Who refers to an aggregator is no part of the holding. -/
theorem holding_touch_of_eq {f : Cell → Cell} (hf : ∀ x, (f x).aggregator = x.aggregator)
    (l : LabelSet) (c : Contents) : s.holding (s.touch l f c) = s.holding c := by
  rw [holding_touch (g := id) hf]
  exact Function.update_eq_self l (s.holding c)

/-- **Draining** a label set. -/
theorem holding_drainIn (c : Contents) (l : LabelSet) :
    s.holding (s.drainIn c l) = Function.update (s.holding c) l (s.drained (s.holding c l)) := by
  cases hl : c.live.get? l with
  | none =>
    rw [drained_of_get?_none hl, Function.update_eq_self]
    unfold drainIn
    rw [hl]
  | some x =>
    funext k
    unfold holding drainIn takeUp
    rw [hl]
    dsimp only
    rw [OrderedMap.get?_insert, apply_ite fun m : OrderedMap LabelSet Cell => m.get? k,
      OrderedMap.get?_erase, OrderedMap.get?_insert]
    by_cases hk : k = l
    · subst hk
      rw [Function.update_self, hl]
      simp only [if_true]
      split <;> rfl
    · rw [Function.update_of_ne hk]
      simp only [if_neg hk, ite_self]

/-- Draining some label sets one after the other. -/
theorem holding_foldl_drainIn (ks : List LabelSet) (c : Contents) (l : LabelSet) :
    s.holding (ks.foldl s.drainIn c) l
      = if l ∈ ks then s.drained (s.holding c l) else s.holding c l := by
  induction ks generalizing c with
  | nil => rfl
  | cons k ks ih =>
    rw [List.foldl_cons, ih, holding_drainIn]
    by_cases hl : l = k
    · subst hl
      rw [Function.update_self, drained_drained, ite_self, if_pos List.mem_cons_self]
    · rw [Function.update_of_ne hl]
      exact if_congr (List.mem_cons.trans (or_iff_right hl)).symm rfl rfl

/-- **Draining** everything that is live. -/
theorem holding_drainAllIn (c : Contents) :
    s.holding (s.drainAllIn c) = fun l => s.drained (s.holding c l) := by
  funext l
  unfold drainAllIn
  rw [holding_foldl_drainIn]
  split
  · rfl
  · next hl =>
    refine (drained_of_get?_none ?_).symm
    cases hx : c.live.get? l with
    | none => rfl
    | some x => exact absurd (List.mem_map.mpr ⟨_, OrderedMap.mem_entries_iff.mpr hx, rfl⟩) hl

/-- **The end of a window.** -/
theorem holding_endIn (c : Contents) : s.holding (s.endIn c) = fun l =>
    match s.temporality with
    | .delta => { s.holding c l with batched := s.freshAggregator }
    | .cumulative => s.holding c l := by
  funext l
  unfold holding endIn afterEnd
  cases s.temporality <;> rfl

end Stream

/-! ### Reports -/

/-- The metrics are the same but for the order of their points. -/
def Metric.Rearranges (m m' : Metric) : Prop :=
  m.points.Perm m'.points ∧ m' = { m with points := m'.points }

namespace Metric

theorem rearranges_refl (m : Metric) : m.Rearranges m := ⟨.refl _, rfl⟩

end Metric

/-- The points of two windows in which every label set has the same. -/
theorem Stream.points_perm {s : Stream} {w w' : OrderedMap LabelSet Aggregator}
    (h : ∀ l, (w.get? l).getD s.freshAggregator = (w'.get? l).getD s.freshAggregator)
    (time : Int) : (w.entries.filterMap fun e => e.2.point? s.start time e.1).Perm
      (w'.entries.filterMap fun e => e.2.point? s.start time e.1) := by
  rw [List.perm_iff_count]
  intro p
  -- how often a point is there depends only on what its labels have
  have hcount : ∀ m : OrderedMap LabelSet Aggregator,
      (m.entries.filterMap fun e => e.2.point? s.start time e.1).count p
        = (((m.get? p.labels).getD s.freshAggregator).point? s.start time p.labels).toList.count
            p := by
    intro m
    have hp : decide (p.labels = p.labels) = true := decide_eq_true rfl
    rw [← List.count_filter (p := fun q : Point => decide (q.labels = p.labels)) hp,
      m.filterMap_entries _ Point.labels fun _ _ => Aggregator.labels_of_point?]
    cases m.get? p.labels with
    | some a => rfl
    | none =>
      rw [Option.getD_none, Stream.freshAggregator, Aggregation.fresh, Aggregator.point?_fresh]
      rfl
  rw [hcount, hcount, h]

/-- **The reports** of two windows in which every label set has the same. -/
theorem Stream.metricsOf_rearranges {s : Stream} {w w' : OrderedMap LabelSet Aggregator}
    (h : ∀ l, (w.get? l).getD s.freshAggregator = (w'.get? l).getD s.freshAggregator)
    (time : Int) : List.Forall₂ Metric.Rearranges (s.metricsOf w time) (s.metricsOf w' time) := by
  have hperm := s.points_perm h time
  unfold metricsOf
  generalize w.entries.filterMap _ = ps at hperm
  generalize w'.entries.filterMap _ = ps' at hperm
  cases ps with
  | nil =>
    obtain rfl := hperm.nil_eq
    exact .nil
  | cons p ps =>
    cases ps' with
    | nil => exact absurd hperm.symm.nil_eq nofun
    | cons p' ps' => exact .cons ⟨hperm, rfl⟩ .nil

end Metering
