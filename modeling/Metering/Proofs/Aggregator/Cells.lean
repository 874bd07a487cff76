import Metering.Aggregator.Pool

/-!
# The cells of a pool

Every operation on a pool changes at most the cells it is told to change and adds new cells at the
end.  `Pool.Spares p q touched` is this frame condition: the pool `q` has every cell of `p` that is
not touched.  The lemmas about single operations say what becomes of the cell at which they work.
-/

namespace Metering

/-! ### Cells and references -/

namespace Pool

variable {p : Pool} {i j : AggregatorId}

/-- The pool has an aggregator of this identifier. -/
def Has (p : Pool) (i : AggregatorId) : Prop := i.index < p.cells.size

instance (p : Pool) (i : AggregatorId) : Decidable (p.Has i) := by
  unfold Has
  infer_instance

theorem not_has_next (p : Pool) : ¬ p.Has p.next := Nat.lt_irrefl _

theorem Has.ne_next (h : p.Has i) : i ≠ p.next := fun he => p.not_has_next (he ▸ h)

theorem has_set {a : Aggregator} : (p.set i a).Has j ↔ p.Has j := by
  simp [Has, set]

theorem has_setReferences {r : References} : (p.setReferences i r).Has j ↔ p.Has j := by
  simp [Has, setReferences]

theorem has_add {a : Aggregator} : (p.add a).Has j ↔ p.Has j ∨ j = p.next := by
  obtain ⟨j⟩ := j
  simp only [Has, add, next, Array.size_push, AggregatorId.mk.injEq]
  omega

theorem index_ne (h : i ≠ j) : i.index ≠ j.index := by
  intro he
  cases i
  cases j
  exact h (congrArg AggregatorId.mk he)

/-! ### Single cells -/

theorem cell_set_self {a : Aggregator} (h : p.Has i) :
    (p.set i a).cell i = ⟨a, p.references i⟩ := by
  unfold Has at h
  simp [cell, set, references, Array.getElem?_modify, Array.getElem?_eq_getElem h]

theorem cell_set_of_ne {a : Aggregator} (h : j ≠ i) : (p.set i a).cell j = p.cell j := by
  simp only [cell, set, Array.getElem?_modify, if_neg (index_ne h.symm)]

theorem cell_setReferences_self {r : References} (h : p.Has i) :
    (p.setReferences i r).cell i = ⟨p.get i, r⟩ := by
  unfold Has at h
  simp [cell, setReferences, get, Array.getElem?_modify, Array.getElem?_eq_getElem h]

theorem cell_setReferences_of_ne {r : References} (h : j ≠ i) :
    (p.setReferences i r).cell j = p.cell j := by
  simp only [cell, setReferences, Array.getElem?_modify, if_neg (index_ne h.symm)]

theorem cell_add_of_has {a : Aggregator} (h : p.Has j) : (p.add a).cell j = p.cell j := by
  unfold Has at h
  simp [cell, add, Array.getElem?_push_lt h, Array.getElem?_eq_getElem h]

theorem get_add_of_has {a : Aggregator} (h : p.Has j) : (p.add a).get j = p.get j :=
  congrArg Cell.aggregator (cell_add_of_has h)

theorem get_add_next (p : Pool) (a : Aggregator) : (p.add a).get p.next = a :=
  congrArg Cell.aggregator (p.cell_add_next a)

theorem get_set_self {a : Aggregator} (h : p.Has i) : (p.set i a).get i = a := by
  rw [get, cell_set_self h]

theorem references_setReferences_self {r : References} (h : p.Has i) :
    (p.setReferences i r).references i = r := by
  rw [references, cell_setReferences_self h]

theorem references_setReferences_of_ne {r : References} (h : j ≠ i) :
    (p.setReferences i r).references j = p.references j := by
  rw [references, cell_setReferences_of_ne h, ← references]

/-! ### Frames -/

/-- The second pool has every cell of the first one that is not touched; cells may be added. -/
structure Spares (p q : Pool) (touched : AggregatorId → Prop) : Prop where
  /-- No aggregator is lost. -/
  has : ∀ {i}, p.Has i → q.Has i
  /-- What is not touched stays as it is. -/
  cell : ∀ {i}, p.Has i → ¬ touched i → q.cell i = p.cell i

namespace Spares

variable {q r : Pool} {touched touched' : AggregatorId → Prop}

theorem refl (p : Pool) : p.Spares p touched := ⟨id, fun _ _ => rfl⟩

theorem trans (h : p.Spares q touched) (h' : q.Spares r touched) : p.Spares r touched where
  has hi := h'.has (h.has hi)
  cell hi ht := (h'.cell (h.has hi) ht).trans (h.cell hi ht)

theorem mono (h : p.Spares q touched) (hsub : ∀ {i}, p.Has i → touched i → touched' i) :
    p.Spares q touched' where
  has := h.has
  cell hi ht := h.cell hi fun hi' => ht (hsub hi hi')

theorem get (h : p.Spares q touched) (hi : p.Has i) (ht : ¬ touched i) : q.get i = p.get i := by
  rw [Pool.get, Pool.get, h.cell hi ht]

theorem references (h : p.Spares q touched) (hi : p.Has i) (ht : ¬ touched i) :
    q.references i = p.references i := by
  rw [Pool.references, Pool.references, h.cell hi ht]

theorem set (p : Pool) (i : AggregatorId) (a : Aggregator) : p.Spares (p.set i a) (· = i) where
  has hj := has_set.mpr hj
  cell _ hj := cell_set_of_ne hj

theorem setReferences (p : Pool) (i : AggregatorId) (r : References) :
    p.Spares (p.setReferences i r) (· = i) where
  has hj := has_setReferences.mpr hj
  cell _ hj := cell_setReferences_of_ne hj

theorem add {a : Aggregator} : p.Spares (p.add a) touched where
  has hj := has_add.mpr (Or.inl hj)
  cell hj _ := cell_add_of_has hj

end Spares

/-! ### Operations -/

theorem acquire?_eq_some {q : Pool} (h : p.acquire? i = some q) :
    ∃ n, p.references i = .held n ∧ q = p.setReferences i (.held (n + 1)) := by
  unfold acquire? at h
  cases hr : p.references i with
  | held n =>
    rw [hr] at h
    exact ⟨n, rfl, (Option.some.inj h).symm⟩
  | retired =>
    rw [hr] at h
    cases h

theorem acquire?_eq_none (h : p.acquire? i = none) : p.references i = .retired := by
  unfold acquire? at h
  cases hr : p.references i with
  | held n =>
    rw [hr] at h
    cases h
  | retired => rfl

theorem retire?_eq_some {q : Pool} (h : p.retire? i = some q) :
    p.references i = .held 0 ∧ q = p.setReferences i .retired := by
  unfold retire? at h
  rcases hr : p.references i with (_ | n) | _
  · rw [hr] at h
    exact ⟨rfl, (Option.some.inj h).symm⟩
  · rw [hr] at h
    cases h
  · rw [hr] at h
    cases h

theorem record_eq_ok {q : Pool} {s : Scalar} (h : p.record i s = .ok q) :
    ∃ a, (p.get i).record s = .ok a ∧ q = p.set i a := by
  unfold record at h
  cases hr : (p.get i).record s with
  | error e =>
    rw [hr] at h
    cases h
  | ok a =>
    rw [hr] at h
    exact ⟨a, rfl, (Except.ok.inj h).symm⟩

theorem move_eq {source target : AggregatorId}
    (h : (p.get source).mergeError? (p.get target) = none) :
    p.move source target = .ok ((p.set source (p.get source).emptied).set target
      (((p.set source (p.get source).emptied).get target).absorb (p.get source))) := by
  unfold move
  simp only [h]

theorem move_spares {q : Pool} {source target : AggregatorId} (h : p.move source target = .ok q) :
    p.Spares q (fun i => i = source ∨ i = target) := by
  unfold move at h
  cases he : (p.get source).mergeError? (p.get target) with
  | some e =>
    simp only [he] at h
    cases h
  | none =>
    simp only [he] at h
    obtain rfl := Except.ok.inj h
    exact Spares.trans ((Spares.set p source _).mono fun _ => Or.inl)
      ((Spares.set _ target _).mono fun _ => Or.inr)

/-- **Moving** one aggregator into another empties the first one. -/
theorem move_of_ne {source target : AggregatorId} (hne : source ≠ target) (hs : p.Has source)
    (ht : p.Has target) (h : (p.get source).mergeError? (p.get target) = none) :
    ∃ q, p.move source target = .ok q ∧ q.get source = (p.get source).emptied ∧
      q.get target = (p.get target).absorb (p.get source) ∧
      (∀ k, q.references k = p.references k) ∧
      p.Spares q fun k => k = source ∨ k = target := by
  refine ⟨_, move_eq h, ?_, ?_, ?_, move_spares (move_eq h)⟩
  · rw [get_set_of_ne _ _ hne.symm, get_set_self hs]
  · rw [get_set_self (has_set.mpr ht), get_set_of_ne _ _ hne]
  · intro k
    rw [references_set, references_set]

end Pool

end Metering
