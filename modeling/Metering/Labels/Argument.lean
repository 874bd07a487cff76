import Metering.Labels.Basic

/-!
# Labels as callers give them

Labels arrive as nothing at all, as a mapping of arbitrary scalars, or as a finished label set.
`LabelSet.construct` builds a label set from any of them and refuses the first pair, in the order
of the mapping, that is not a pair of texts or whose key is empty.  `LabelSet.create` is the cheap
entry: it hands back a finished set and answers with the shared empty set when there are no labels,
and it agrees with `construct` otherwise.
-/

namespace Metering

/-- A mapping from scalars to scalars in insertion order. -/
structure Mapping where
  entries : List (Scalar × Scalar)
deriving DecidableEq, Repr

namespace Mapping

/-- The entries with a value stored: a key that is present keeps its place and its spelling. -/
def insertEntry (key value : Scalar) : List (Scalar × Scalar) → List (Scalar × Scalar)
  | [] => [(key, value)]
  | e :: rest =>
    if e.1.sameKey key then (e.1, value) :: rest else e :: insertEntry key value rest

/-- The mapping built by storing pairs one after the other. -/
def ofPairs (pairs : List (Scalar × Scalar)) : Mapping :=
  ⟨pairs.foldl (fun entries p => insertEntry p.1 p.2 entries) []⟩

end Mapping

/-- Labels as an operation receives them. -/
inductive LabelArgument where
  | absent
  | mapping (m : Mapping)
  | set (s : LabelSet)
deriving DecidableEq, Repr

/-- Why labels are refused. -/
inductive LabelError where
  | notText (key value : Scalar)
  | emptyKey
  | oddArguments (args : List Scalar)
deriving DecidableEq, Repr

namespace LabelError

/-- The text of refused labels. -/
def message : LabelError → String
  | .notText key value =>
    "Label keys and values must be strings, got " ++ key.shown ++ ": " ++ value.shown
  | .emptyKey => "Label keys must not be empty"
  | .oddArguments args =>
    "Labels must be given as key/value pairs, got an odd number of arguments: "
      ++ Scalar.shownTogether (args.map Scalar.shown)

end LabelError

namespace LabelSet

/-- A pair of a mapping as a label. -/
def checkPair : Scalar × Scalar → Except LabelError (String × String)
  | (.text key, .text value) => if key.isEmpty then .error .emptyKey else .ok (key, value)
  | (key, value) => .error (.notText key value)

/-- A new label set of the labels. -/
def construct : LabelArgument → Except LabelError LabelSet
  | .absent => .ok empty
  | .set s => .ok s
  | .mapping m => (m.entries.mapM checkPair).map ofPairs

/-- The label set of the labels: a finished set itself, the shared empty set for no labels. -/
def create : LabelArgument → Except LabelError LabelSet
  | .set s => .ok s
  | .absent => .ok empty
  | .mapping ⟨[]⟩ => .ok empty
  | .mapping m => construct (.mapping m)

/-- `create` answers with the one shared empty set. -/
def sharesEmpty : LabelArgument → Bool
  | .absent => true
  | .mapping ⟨[]⟩ => true
  | _ => false

theorem create_eq_construct (a : LabelArgument) : create a = construct a := by
  unfold create
  split <;> rfl

/-- Every second element of a list, beginning with the first, paired with its successor. -/
def pairUp : List Scalar → List (Scalar × Scalar)
  | key :: value :: rest => (key, value) :: pairUp rest
  | _ => []

/-- The label arguments for alternating keys and values. -/
def alternating (args : List Scalar) : Except LabelError LabelArgument :=
  if args.length % 2 = 1 then .error (.oddArguments args)
  else .ok (.mapping (Mapping.ofPairs (pairUp args)))

/-- Equality with what a caller holds: a set with the same labels, or a mapping that is the same
finite map. -/
def equals (s : LabelSet) : LabelArgument → Bool
  | .absent => false
  | .set t => decide (s = t)
  | .mapping m =>
    decide (m.entries.length = s.size) &&
      m.entries.all fun
        | (.text key, .text value) => s.get? key == some value
        | _ => false

end LabelSet

/-- A description of labels: nothing, pairs, or a label set built from a description. -/
inductive LabelSpec where
  | absent
  | pairs (l : List (Scalar × Scalar))
  | set (spec : LabelSpec)
deriving DecidableEq, Repr

/-- The labels a description stands for.  A described set is built here, so its errors show before
the operation that receives the labels begins. -/
def LabelSpec.argument : LabelSpec → Except LabelError LabelArgument
  | .absent => .ok .absent
  | .pairs l => .ok (.mapping (Mapping.ofPairs l))
  | .set spec => do
    let inner ← spec.argument
    return .set (← LabelSet.construct inner)

end Metering
