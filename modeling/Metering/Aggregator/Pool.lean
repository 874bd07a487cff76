import Metering.Aggregator.Basic

/-!
# The pool of aggregators

Aggregators are shared: a bound handle, the live map of an instrument and the window of a stream
may all refer to one.  The pool holds every aggregator that was ever made under its identifier,
together with its references.  References are counted while the aggregator is in use; once it is
retired, which is possible only when nothing refers to it, no reference can be taken any more.
-/

namespace Metering

/-- The references to an aggregator: their number, or that it has been retired. -/
inductive References where
  | held (count : Nat)
  | retired
deriving DecidableEq, Repr

namespace References

/-- One reference more; nothing if retired. -/
def acquire? : References → Option References
  | .held n => some (.held (n + 1))
  | .retired => none

/-- One reference less; without references nothing changes. -/
def release : References → References
  | .held n => .held (n - 1)
  | .retired => .retired

/-- Retired, if nothing refers to it. -/
def retire? : References → Option References
  | .held 0 => some .retired
  | _ => none

end References

/-- The identifier of an aggregator in a pool. -/
structure AggregatorId where
  index : Nat
deriving DecidableEq, Repr, Inhabited

/-- An aggregator and its references. -/
structure Cell where
  aggregator : Aggregator
  references : References
deriving DecidableEq, Repr

/-- An identifier that a pool does not hold reads as an unreferenced aggregator that discards. -/
instance : Inhabited Cell := ⟨⟨default, .held 0⟩⟩

/-- All aggregators made so far. -/
structure Pool where
  cells : Array Cell
deriving DecidableEq, Repr

namespace Pool

/-- The pool without aggregators. -/
def empty : Pool := ⟨#[]⟩

instance : Inhabited Pool := ⟨empty⟩

/-- The cell of an identifier. -/
def cell (p : Pool) (i : AggregatorId) : Cell := (p.cells[i.index]?).getD default

/-- The aggregator of an identifier. -/
def get (p : Pool) (i : AggregatorId) : Aggregator := (p.cell i).aggregator

/-- The references of an identifier. -/
def references (p : Pool) (i : AggregatorId) : References := (p.cell i).references

/-- The pool with another aggregator under an identifier. -/
def set (p : Pool) (i : AggregatorId) (a : Aggregator) : Pool :=
  ⟨p.cells.modify i.index fun c => ⟨a, c.references⟩⟩

/-- The pool with other references under an identifier. -/
def setReferences (p : Pool) (i : AggregatorId) (r : References) : Pool :=
  ⟨p.cells.modify i.index fun c => ⟨c.aggregator, r⟩⟩

/-- The identifier that the next new aggregator gets. -/
def next (p : Pool) : AggregatorId := ⟨p.cells.size⟩

/-- The pool with a new aggregator that nothing refers to. -/
def add (p : Pool) (a : Aggregator) : Pool := ⟨p.cells.push ⟨a, .held 0⟩⟩

/-- Takes a reference, unless the aggregator is retired. -/
def acquire? (p : Pool) (i : AggregatorId) : Option Pool :=
  (p.references i).acquire?.map (p.setReferences i)

/-- Gives a reference back. -/
def release (p : Pool) (i : AggregatorId) : Pool :=
  p.setReferences i (p.references i).release

/-- Retires the aggregator, if nothing refers to it. -/
def retire? (p : Pool) (i : AggregatorId) : Option Pool :=
  (p.references i).retire?.map (p.setReferences i)

/-- Records a scalar. -/
def record (p : Pool) (i : AggregatorId) (s : Scalar) : Except RecordError Pool :=
  ((p.get i).record s).map (p.set i)

/-- Records a scalar as a value of a given type. -/
def recordAs (p : Pool) (i : AggregatorId) (valueType : ValueType) (s : Scalar) :
    Except RecordError Pool :=
  ((p.get i).recordAs valueType s).map (p.set i)

/-- Moves what one aggregator holds into another: the source is emptied first, so an aggregator
moved into itself takes up again what it held. -/
def move (p : Pool) (source target : AggregatorId) : Except MergeError Pool :=
  let moved := p.get source
  match moved.mergeError? (p.get target) with
  | some e => .error e
  | none =>
    let drained := p.set source moved.emptied
    .ok (drained.set target ((drained.get target).absorb moved))

/-! ### What the operations do -/

theorem cell_add_next (p : Pool) (a : Aggregator) : (p.add a).cell p.next = ⟨a, .held 0⟩ := by
  simp [cell, add, next]

theorem get_set_of_ne (p : Pool) {i j : AggregatorId} (a : Aggregator) (h : i ≠ j) :
    (p.set i a).get j = p.get j := by
  have hne : i.index ≠ j.index := fun he => h (by cases i; cases j; simp_all)
  simp only [get, cell, set, Array.getElem?_modify, if_neg hne]

theorem references_set (p : Pool) (i j : AggregatorId) (a : Aggregator) :
    (p.set i a).references j = p.references j := by
  simp only [references, cell, set, Array.getElem?_modify]
  split
  · cases p.cells[j.index]? <;> rfl
  · rfl

theorem get_setReferences (p : Pool) (i j : AggregatorId) (r : References) :
    (p.setReferences i r).get j = p.get j := by
  simp only [get, cell, setReferences, Array.getElem?_modify]
  split
  · cases p.cells[j.index]? <;> rfl
  · rfl

end Pool

end Metering
