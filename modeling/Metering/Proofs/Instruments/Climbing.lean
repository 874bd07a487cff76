import Metering.Proofs.Instruments.Typing

/-!
# Windows that climb

The metric of a stream may be labelled as a monotonic sum of long values.  If the aggregators of the
stream count or add up, everything that its window takes up climbs: `Stream.Accrues` is that
condition, and the lemmas on `OrderedMap.Climbs` say so for whatever is drained or observed into a
window, and for a cycle that fails half way.  A window that never ends keeps what it has.

A last value does not climb by itself.
-/

namespace Metering

/-- What an aggregator tells as an integer, another one tells too, or a greater one. -/
def Aggregator.Climbs (a b : Aggregator) : Prop :=
  ∀ n : Int, a.value? = some (.number (.integer n)) →
    ∃ n' : Int, n ≤ n' ∧ b.value? = some (.number (.integer n'))

/-- What a window tells of a label set as an integer, another one tells too, or a greater one. -/
def OrderedMap.Climbs (w w' : OrderedMap LabelSet Aggregator) : Prop :=
  ∀ l (n : Int), (w.get? l).bind Aggregator.value? = some (.number (.integer n)) →
    ∃ n' : Int, n ≤ n' ∧ (w'.get? l).bind Aggregator.value? = some (.number (.integer n'))

namespace Aggregator

variable {a : Aggregator}

/-- What counts tells how many values it has recorded. -/
theorem value?_of_holds_count {α : Type} [Recordable α] {isTotal : α → List α → Prop} {vs : List α}
    (h : Holds isTotal .count a vs) :
    a.value? = if vs = [] then none else some (.number (.integer vs.length)) := by
  obtain ⟨t, rfl, hshape, ht⟩ := h
  rw [Recordable.value?_eq]
  cases t with
  | count k =>
    obtain rfl : k = vs.length := ht
    unfold Tally.value? Tally.isEmpty
    simp only [beq_iff_eq, List.length_eq_zero_iff]
  | _ => cases hshape

end Aggregator

namespace OrderedMap.Climbs

variable {w w' w'' : OrderedMap LabelSet Aggregator}

theorem refl (w : OrderedMap LabelSet Aggregator) : w.Climbs w := fun _ n hn => ⟨n, le_rfl, hn⟩

theorem trans (h : w.Climbs w') (h' : w'.Climbs w'') : w.Climbs w'' := by
  intro l n hn
  obtain ⟨n', hle, hn'⟩ := h l n hn
  obtain ⟨n'', hle', hn''⟩ := h' l n' hn'
  exact ⟨n'', hle.trans hle', hn''⟩

/-- Putting an aggregator in the place of one that climbs to it. -/
theorem insert {l : LabelSet} {b : Aggregator} (h : ∀ a, w.get? l = some a → a.Climbs b) :
    w.Climbs (w.insert l b) := by
  intro l' n hn
  rw [OrderedMap.get?_insert]
  split
  · next hl =>
    subst hl
    obtain ⟨a, ha, hn⟩ := Option.bind_eq_some_iff.mp hn
    exact h a ha n hn
  · exact ⟨n, le_rfl, hn⟩

end OrderedMap.Climbs

namespace Stream

/-- The metric of the stream is labelled as a monotonic sum of long values, and its window never
ends. -/
structure IsMonotonic (s : Stream) : Prop where
  type : s.aggregation.metricType s.descriptor = .sum true .long
  temporality : s.temporality = .cumulative

/-- The aggregators of the stream count, or add up long values of which none is negative. -/
def Accrues (s : Stream) : Prop :=
  s.shape = .count ∨ s.shape = .sum true ∧ s.descriptor.valueType = .long

variable {s s' : Stream} {a b : Aggregator} {w : OrderedMap LabelSet Aggregator} {c : Contents}

theorem Continues.accrues (h : s.Continues s') : s'.Accrues ↔ s.Accrues := by
  rw [h]
  rfl

theorem Continues.aggregation (h : s.Continues s') : s'.aggregation = s.aggregation := by
  rw [h]

theorem Continues.isMonotonic (h : s.Continues s') (hm : s.IsMonotonic) : s'.IsMonotonic := by
  rw [h]
  exact ⟨hm.type, hm.temporality⟩

/-- **What is labelled monotonic** accrues, unless it is a last value. -/
theorem IsMonotonic.accrues (h : s.IsMonotonic) (hne : s.aggregation ≠ .lastValue) :
    s.Accrues := by
  have htype := h.type
  unfold Accrues shape
  cases hagg : s.aggregation with
  | sum =>
    rw [hagg] at htype
    obtain ⟨hmonotonic, hlong⟩ := MetricType.sum.inj htype
    refine Or.inr ⟨?_, hlong⟩
    show Shape.sum _ = _
    rw [hmonotonic]
  | count => exact Or.inl rfl
  | lastValue => exact absurd hagg hne
  | minMaxSumCount =>
    rw [hagg] at htype
    cases htype
  | histogram b =>
    rw [hagg] at htype
    cases htype

/-- A last value is labelled monotonic for a sum observer of long values. -/
theorem IsMonotonic.of_lastValue (h : s.IsMonotonic) (hlast : s.aggregation = .lastValue) :
    s.descriptor.kind = .sumObserver ∧ s.descriptor.valueType = .long := by
  have htype := h.type
  unfold Aggregation.metricType at htype
  rw [hlast] at htype
  dsimp only at htype
  split at htype
  · next hkind => exact ⟨hkind, (MetricType.sum.inj htype).2⟩
  · cases htype
  · cases htype

/-- **Absorbing** an aggregator of the stream is climbing. -/
theorem Makes.climbs_absorb (hs : s.Accrues) (ha : s.Makes a) (hb : s.Makes b) :
    a.Climbs (a.absorb b) := by
  intro n hn
  obtain hcount | ⟨hsum, hlong⟩ := hs
  -- a count tells how many values there are, of whatever type
  · obtain ⟨α, _, -, hmakes⟩ := s.exists_totals
    obtain ⟨vs, -, hvs⟩ := (hmakes a).mp ha
    obtain ⟨ws, -, hws⟩ := (hmakes b).mp hb
    have hjoined := hvs.absorb Totals.addsUp hws (Shape.alike_refl _)
    rw [hcount] at hvs hjoined
    rw [Aggregator.value?_of_holds_count hvs] at hn
    rw [Aggregator.value?_of_holds_count hjoined]
    split at hn
    · cases hn
    · next hne =>
      cases hn
      refine ⟨_, ?_, if_neg fun h => hne (List.append_eq_nil_iff.mp h).1⟩
      rw [List.length_append]
      omega
  -- a sum adds values of which none is negative
  · obtain ⟨vs, -, hvs⟩ := ha.exists_longs hlong
    obtain ⟨ws, hadmits, hws⟩ := hb.exists_longs hlong
    have hjoined := hvs.absorb addsUp_isSum hws (Shape.alike_refl _)
    rw [hsum] at hvs hadmits hjoined
    rw [Aggregator.value?_of_holds_long hvs] at hn
    unfold Shape.summary at hn
    split at hn
    · cases hn
    · next hne =>
      cases hn
      refine ⟨(vs ++ ws).sum, ?_, ?_⟩
      · rw [List.sum_append]
        have hnonneg := hadmits.sum_nonneg
        omega
      · rw [Aggregator.value?_of_holds_long hjoined]
        exact if_neg fun h => hne (List.append_eq_nil_iff.mp h).1

/-- What is labelled as a sum of long values tells integers. -/
theorem Makes.value?_of_isMonotonic (hm : s.IsMonotonic) (ha : s.Makes a) {x : PointValue}
    (hx : a.value? = some x) : ∃ n : Int, x = .number (.integer n) := by
  have hclass := ha.pointClass_eq hx
  rw [hm.type] at hclass
  cases x with
  | number n =>
    cases n with
    | integer n => exact ⟨n, rfl⟩
    | double x => cases hclass
  | summary => cases hclass
  | histogram => cases hclass

/-! ### Filling a window -/

/-- **Taking up** an aggregator of the stream. -/
theorem climbs_takeUp (hs : s.Accrues) (hw : ∀ {l a}, w.get? l = some a → s.Makes a)
    (ha : s.Makes a) (l : LabelSet) : w.Climbs (s.takeUp w l a) := by
  refine .insert fun b hb => ?_
  rw [hb]
  exact (hw hb).climbs_absorb hs ha

theorem climbs_takeUpAll (hs : s.Accrues) {values : List (LabelSet × Number)}
    (haccepted : ∀ v ∈ values, s.accepts v = true)
    (hw : ∀ {l a}, w.get? l = some a → s.Makes a) : w.Climbs (s.takeUpAll w values) := by
  induction values generalizing w with
  | nil => exact .refl w
  | cons v values ih =>
    have hv := Option.isNone_iff_eq_none.mp (haccepted v List.mem_cons_self)
    have hmakes := (single_of_accepted hv).2
    exact (climbs_takeUp hs hw hmakes v.1).trans
      (ih (fun v hv => haccepted v (List.mem_cons_of_mem _ hv)) (makes_takeUp hw hmakes))

/-- **Draining** what is live. -/
theorem Fills.climbs_drainAllIn (hs : s.Accrues) (h : s.Fills c) :
    c.window.Climbs (s.drainAllIn c).window := by
  unfold Stream.drainAllIn
  -- any label sets will do, so the induction need not follow what is left of the live map
  generalize c.live.keys = keys
  induction keys generalizing c with
  | nil => exact .refl _
  | cons l keys ih =>
    have hdrained : c.window.Climbs (s.drainIn c l).window := by
      unfold Stream.drainIn
      cases hl : c.live.get? l with
      | none => exact .refl _
      | some x => exact climbs_takeUp hs h.window (h.live hl) l
    exact hdrained.trans (ih (h.drainIn l))

/-! ### Windows that never end -/

theorem afterEnd_cumulative (hs : s.temporality = .cumulative)
    (w : OrderedMap LabelSet Aggregator) : s.afterEnd w = w := by
  unfold afterEnd
  rw [hs]

theorem startAfterCycle_cumulative (hs : s.temporality = .cumulative)
    (observed : Option (List (LabelSet × Number))) (time : Int) :
    s.startAfterCycle observed time = s.start := by
  unfold startAfterCycle
  rw [endWindow_cumulative hs]
  cases s.refusalIn? (observed.getD []) <;> rfl

/-- The window after a cycle: what was observed before the first refused value is taken up. -/
theorem afterCycle_cumulative (hs : s.temporality = .cumulative)
    (w : OrderedMap LabelSet Aggregator) (observed : Option (List (LabelSet × Number))) :
    s.afterCycle w observed = s.takeUpAll w ((observed.getD []).takeWhile s.accepts) := by
  cases hnone : s.refusalIn? (observed.getD []) with
  | none =>
    rw [afterCycle_of_accepted hnone, afterEnd_cumulative hs, takeWhile_accepts hnone]
  | some e =>
    cases observed with
    | none => cases hnone
    | some values =>
      rw [Option.getD_some] at hnone ⊢
      unfold afterCycle
      dsimp only
      rw [hnone]

/-- **A cycle** of an observer, which may fail half way. -/
theorem Fills.climbs_afterCycle (hs : s.Accrues) (ht : s.temporality = .cumulative)
    (h : s.Fills c) (observed : Option (List (LabelSet × Number))) :
    c.window.Climbs (s.afterCycle c.window observed) := by
  rw [afterCycle_cumulative ht]
  exact climbs_takeUpAll hs (fun v hv => List.mem_takeWhile_imp hv) h.window

end Stream

end Metering
