/-!
# Tables of components

The components of a system refer to each other: a provider to its readers, a reader to its
exporter, several readers to one exporter.  Every component is kept in the table of its sort and is
referred to by a reference of that sort, which is its place in the table.  A component is never
removed, so a reference that a table once gave stays good.
-/

namespace Metering

/-- The sorts of components. -/
inductive Component where
  | clock
  | instrument
  | meter
  | provider
  | exporter
  | reader
  | handle
  | processor
  | accumulator
  | sink
deriving DecidableEq, Repr

/-- A reference to a component of a sort. -/
structure Ref (c : Component) where
  index : Nat
deriving DecidableEq, Repr, Inhabited

/-- The components of one sort. -/
structure Table (c : Component) (α : Type) where
  rows : Array α

namespace Table

variable {c : Component} {α : Type}

/-- The table without components. -/
def empty : Table c α := ⟨#[]⟩

instance : Inhabited (Table c α) := ⟨empty⟩

/-- The component of a reference. -/
def get? (t : Table c α) (r : Ref c) : Option α := t.rows[r.index]?

/-- The reference that the next component gets. -/
def next (t : Table c α) : Ref c := ⟨t.rows.size⟩

/-- The table with one more component. -/
def add (t : Table c α) (x : α) : Table c α := ⟨t.rows.push x⟩

/-- The table with another component under a reference. -/
def set (t : Table c α) (r : Ref c) (x : α) : Table c α := ⟨t.rows.setIfInBounds r.index x⟩

theorem get?_add_next (t : Table c α) (x : α) : (t.add x).get? t.next = some x := by
  simp [get?, add, next]

theorem get?_add_of_some {t : Table c α} {r : Ref c} {y : α} (x : α) (h : t.get? r = some y) :
    (t.add x).get? r = some y := by
  simp only [get?, add] at *
  rw [Array.getElem?_push]
  obtain ⟨hlt, _⟩ := Array.getElem?_eq_some_iff.1 h
  rw [if_neg (by omega), h]

theorem get?_set_self {t : Table c α} {r : Ref c} {y : α} (x : α) (h : t.get? r = some y) :
    (t.set r x).get? r = some x := by
  obtain ⟨hlt, _⟩ := Array.getElem?_eq_some_iff.1 h
  simp [get?, set, hlt]

theorem get?_set_of_ne (t : Table c α) {r q : Ref c} (x : α) (h : r ≠ q) :
    (t.set r x).get? q = t.get? q := by
  have hne : r.index ≠ q.index := fun he => h (by cases r; cases q; simp_all)
  simp [get?, set, Array.getElem?_setIfInBounds_ne hne]

end Table

end Metering
