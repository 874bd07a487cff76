import Metering.Aggregator.Pool
import Metering.OrderedMap
import Metering.System.Table

/-!
# Names

A program gives names to what it makes.  A directory remembers what each name stands for, in the
order in which the names were first given; a name that is given again keeps its place.  Several
names may stand for one thing, since asking twice for a meter gives the same meter twice.
-/

namespace Metering

/-- What a name can stand for: a component of some sort, or an aggregator. -/
inductive Entity where
  | component (c : Component) (r : Ref c)
  | aggregator (i : AggregatorId)
deriving DecidableEq, Repr

namespace Entity

/-- The reference of an entity that is a component of the given sort. -/
def ref? (c : Component) : Entity → Option (Ref c)
  | component c' r => if h : c' = c then some (h ▸ r) else none
  | aggregator _ => none

/-- The identifier of an entity that is an aggregator. -/
def aggregator? : Entity → Option AggregatorId
  | aggregator i => some i
  | component .. => none

theorem ref?_component (c : Component) (r : Ref c) : (component c r).ref? c = some r := by
  simp [ref?]

end Entity

/-- What the names stand for, in the order in which they were first given. -/
abbrev Directory := OrderedMap String Entity

/-- The first name that stands for an entity. -/
def Directory.nameOf? (d : Directory) (e : Entity) : Option String :=
  (d.entries.find? fun entry => decide (entry.2 = e)).map Prod.fst

end Metering
