import Metering.Labels.Argument

/-!
# Where metrics come from

A `Resource` describes the entity that produces metrics by its labels, a `Library` the code that
created a meter by its name and version.
-/

namespace Metering

/-- The entity that produces metrics. -/
structure Resource where
  labels : LabelSet
deriving DecidableEq, Repr, Inhabited

namespace Resource

/-- The resource without labels. -/
def empty : Resource := ⟨LabelSet.empty⟩

/-- The resource described by labels. -/
def create (labels : LabelArgument) : Except LabelError Resource :=
  (LabelSet.create labels).map Resource.mk

/-- The resource as messages show it. -/
def shown (r : Resource) : String :=
  "Resource(labels=" ++ r.labels.shown ++ ")"

end Resource

/-- A text or its absence as messages show it. -/
def shownText? : Option String → String
  | some s => Text.quote s
  | none => "None"

/-- The library that created a meter. -/
structure Library where
  name : Option String
  version : Option String
deriving DecidableEq, Repr, Inhabited

namespace Library

/-- The library as messages show it. -/
def shown (l : Library) : String :=
  "InstrumentationLibraryInfo(name=" ++ shownText? l.name ++ ", version=" ++ shownText? l.version
    ++ ")"

end Library

end Metering
