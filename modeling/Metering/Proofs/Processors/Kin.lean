import Metering.Proofs.Instruments.Contents

/-!
# Aggregators of the kind of a stream

A processor takes up any aggregator that can be moved into its own ones: one of the same way of
aggregating and the same value type, and of a histogram with boundaries that are equal as numbers.
`Stream.Kin` says so of an aggregator that has recorded some values.  Its shape may still differ
from the stream's, in whether a sum is monotonic and in the sign of a boundary that is zero.

Being alike is an equivalence of shapes (`Shape.Alike.symm`, `Shape.Alike.trans`), so kin merge with
each other, and what they come to is kin again.  A merge is empty just if both sides are
(`Stream.Kin.isEmpty_absorb`), which is what decides whether a label set has a point.
-/

namespace Metering

/-! ### Alike shapes -/

namespace Boundaries

theorem numericEq_iff {x y : Binary64} (hx : x.place? ≠ none) :
    x.numericEq y = true ↔ x.place? = y.place? := by
  refine ⟨place?_eq_of_numericEq, fun h => ?_⟩
  obtain ⟨p, hp⟩ := Option.ne_none_iff_exists'.mp hx
  unfold Binary64.numericEq
  rw [← h, hp]
  exact decide_eq_true rfl

theorem all_numericEq_iff {xs ys : List Binary64} (hx : ∀ x ∈ xs, x.place? ≠ none)
    (hlen : xs.length = ys.length) :
    ((xs.zip ys).all fun p => p.1.numericEq p.2) = true
      ↔ xs.map Binary64.place? = ys.map Binary64.place? := by
  induction xs generalizing ys with
  | nil =>
    obtain rfl := List.eq_nil_of_length_eq_zero hlen.symm
    exact iff_of_true rfl rfl
  | cons x xs ih =>
    cases ys with
    | nil => cases hlen
    | cons y ys =>
      rw [List.zip_cons_cons, List.all_cons, Bool.and_eq_true, List.map_cons, List.map_cons,
        List.cons.injEq, numericEq_iff (hx x List.mem_cons_self),
        ih (fun x' hx' => hx x' (List.mem_cons_of_mem x hx')) (Nat.succ.inj hlen)]

/-- Boundaries are the same just if they are at the same places. -/
theorem same_iff {b b' : Boundaries} :
    b.same b' = true ↔ b.values.map Binary64.place? = b'.values.map Binary64.place? := by
  rw [same, Bool.and_eq_true, decide_eq_true_eq]
  constructor
  · rintro ⟨hlen, hall⟩
    exact (all_numericEq_iff (fun _ => b.place?_ne_none) hlen).mp hall
  · intro h
    have hlen : b.values.length = b'.values.length := by simpa using congrArg List.length h
    exact ⟨hlen, (all_numericEq_iff (fun _ => b.place?_ne_none) hlen).mpr h⟩

end Boundaries

namespace Shape

variable {s s' s'' : Shape}

theorem alike_iff : s.Alike s' ↔ s.kind = s'.kind ∧
    ∀ b b', s = .histogram b → s' = .histogram b' → b.same b' = true := by
  cases s <;> cases s' <;> simp [Alike, kind]

theorem Alike.symm (h : s.Alike s') : s'.Alike s := by
  rw [alike_iff] at h ⊢
  exact ⟨h.1.symm, fun b b' hb hb' =>
    Boundaries.same_iff.mpr (Boundaries.same_iff.mp (h.2 b' b hb' hb)).symm⟩

theorem Alike.trans (h : s.Alike s') (h' : s'.Alike s'') : s.Alike s'' := by
  rw [alike_iff] at h h' ⊢
  refine ⟨h.1.trans h'.1, fun b b'' hb hb'' => ?_⟩
  -- what is between two histograms is one
  obtain ⟨b', hb'⟩ : ∃ b', s' = .histogram b' := by
    have hk := h.1
    subst hb
    cases s' <;> simp_all [kind]
  exact Boundaries.same_iff.mpr ((Boundaries.same_iff.mp (h.2 b b' hb hb')).trans
    (Boundaries.same_iff.mp (h'.2 b' b'' hb' hb'')))

theorem Alike.ne_discard (h : s.Alike s') (hs : s' ≠ .discard) : s ≠ .discard := by
  have hk := (alike_iff.mp h).1
  rintro rfl
  cases s' <;> simp_all [kind]

end Shape

/-! ### Empty aggregators -/

theorem Tally.value?_eq_none_iff {α : Type} [Quantity α] (t : Tally α) :
    t.value? = none ↔ t.isEmpty = true := by
  unfold value?
  split
  · next h => exact iff_of_true rfl h
  · next h =>
    refine iff_of_false ?_ h
    cases t with
    | discard => exact absurd rfl h
    | sum monotonic total => cases total <;> simp_all [isEmpty]
    | lastValue v => cases v <;> simp_all [isEmpty]
    | _ => simp

namespace Aggregator

/-- An aggregator says something just if it is not empty. -/
theorem value?_eq_none_iff (a : Aggregator) : a.value? = none ↔ a.isEmpty = true := by
  cases a with
  | long t => exact t.value?_eq_none_iff
  | double t => exact t.value?_eq_none_iff
  | untyped => exact iff_of_true rfl rfl

theorem Holds.isEmpty_iff {α : Type} [Recordable α] {isTotal : α → List α → Prop} {a : Aggregator}
    {s : Shape} {vs : List α} (h : Holds isTotal s a vs) (hs : s ≠ .discard) :
    a.isEmpty = true ↔ vs = [] := by
  obtain ⟨t, rfl, rfl, ht⟩ := h
  rw [← value?_eq_none_iff, Recordable.value?_eq, t.value?_eq_none_iff, ht.isEmpty_iff hs]

end Aggregator

/-! ### Kin -/

namespace Stream

/-- The aggregator can be moved into those of the stream, and has recorded some values. -/
def Kin (s : Stream) (a : Aggregator) : Prop :=
  match s.descriptor.valueType with
  | .long => ∃ (shape : Shape) (vs : List Int), shape.Alike s.shape ∧
      Aggregator.Holds Totals.IsTotal shape a vs
  | .double => ∃ (shape : Shape) (vs : List Binary64), shape.Alike s.shape ∧
      Aggregator.Holds Totals.IsTotal shape a vs

/-- The value type of a stream is that of a type of recorded values. -/
theorem exists_kin_totals (s : Stream) : ∃ (α : Type) (_ : Totals α),
    s.descriptor.valueType = Recordable.valueType α ∧
    ∀ a, s.Kin a ↔ ∃ (shape : Shape) (vs : List α), shape.Alike s.shape ∧
      Aggregator.Holds Totals.IsTotal shape a vs := by
  cases h : s.descriptor.valueType with
  | long =>
    refine ⟨Int, inferInstance, rfl, fun a => ?_⟩
    unfold Kin
    rw [h]
  | double =>
    refine ⟨Binary64, inferInstance, rfl, fun a => ?_⟩
    unfold Kin
    rw [h]

variable {s s' : Stream} {a b : Aggregator}

theorem Continues.kin (h : s.Continues s') : s'.Kin a ↔ s.Kin a := by
  rw [h]
  rfl

theorem kin_fresh {shape : Shape} (h : shape.Alike s.shape) :
    s.Kin (Aggregator.fresh shape s.descriptor.valueType) := by
  obtain ⟨α, _, hv, hkin⟩ := s.exists_kin_totals
  rw [hv]
  exact (hkin _).mpr ⟨shape, [], h, .fresh (Totals.addsUp (α := α)) shape⟩

theorem kin_freshAggregator (s : Stream) : s.Kin s.freshAggregator :=
  kin_fresh (Shape.alike_refl s.shape)

/-- An aggregator of the stream is kin. -/
theorem Makes.kin (h : s.Makes a) : s.Kin a := by
  unfold Makes at h
  unfold Kin
  cases hv : s.descriptor.valueType <;> rw [hv] at h <;> obtain ⟨vs, -, hvs⟩ := h <;>
    exact ⟨s.shape, vs, Shape.alike_refl s.shape, hvs⟩

theorem isEmpty_freshAggregator (s : Stream) : s.freshAggregator.isEmpty = true := by
  unfold freshAggregator Aggregation.fresh
  cases s.descriptor.valueType with
  | long => exact Tally.isEmpty_fresh _
  | double => exact Tally.isEmpty_fresh _

namespace Kin

theorem record (h : s.Kin a) {x : Scalar} (hb : a.record x = .ok b) : s.Kin b := by
  obtain ⟨α, _, -, hkin⟩ := s.exists_kin_totals
  obtain ⟨shape, vs, hshape, hvs⟩ := (hkin a).mp h
  obtain ⟨v, -, hb⟩ := hvs.record Totals.addsUp hb
  exact (hkin b).mpr ⟨shape, vs ++ [v], hshape, hb⟩

theorem emptied (h : s.Kin a) : s.Kin a.emptied := by
  obtain ⟨α, _, -, hkin⟩ := s.exists_kin_totals
  obtain ⟨shape, vs, hshape, hvs⟩ := (hkin a).mp h
  exact (hkin _).mpr ⟨shape, [], hshape, hvs.emptied Totals.addsUp⟩

theorem absorb (h : s.Kin a) (h' : s.Kin b) : s.Kin (a.absorb b) := by
  obtain ⟨α, _, -, hkin⟩ := s.exists_kin_totals
  obtain ⟨shape, vs, hshape, hvs⟩ := (hkin a).mp h
  obtain ⟨shape', ws, hshape', hws⟩ := (hkin b).mp h'
  exact (hkin _).mpr ⟨shape, vs ++ ws, hshape,
    hvs.absorb Totals.addsUp hws (hshape.trans hshape'.symm)⟩

theorem mergeError? (h : s.Kin a) (h' : s.Kin b) : a.mergeError? b = none := by
  obtain ⟨α, _, -, hkin⟩ := s.exists_kin_totals
  obtain ⟨shape, vs, hshape, hvs⟩ := (hkin a).mp h
  obtain ⟨shape', ws, hshape', hws⟩ := (hkin b).mp h'
  exact hvs.mergeError? hws (hshape'.trans hshape.symm)

/-- **A merge** is empty just if both sides are. -/
theorem isEmpty_absorb (h : s.Kin a) (h' : s.Kin b) :
    (a.absorb b).isEmpty = (a.isEmpty && b.isEmpty) := by
  obtain ⟨α, _, -, hkin⟩ := s.exists_kin_totals
  obtain ⟨shape, vs, hshape, hvs⟩ := (hkin a).mp h
  obtain ⟨shape', ws, hshape', hws⟩ := (hkin b).mp h'
  have hd := hshape.ne_discard s.shape_ne_discard
  have hd' := hshape'.ne_discard s.shape_ne_discard
  have hmerged := hvs.absorb Totals.addsUp hws (hshape.trans hshape'.symm)
  rw [Bool.eq_iff_iff, Bool.and_eq_true, hmerged.isEmpty_iff hd, hvs.isEmpty_iff hd,
    hws.isEmpty_iff hd', List.append_eq_nil_iff]

end Kin

end Stream

end Metering
