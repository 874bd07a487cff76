import Metering.Scalar

/-!
# Label sets

A label set is a finite map from non-empty texts to texts, held as the list of its pairs in
strictly increasing order of the keys by code point.  The order makes the list canonical: two label
sets are the same map exactly when their lists are equal, so label sets can be keys.
-/

namespace Metering

/-- An order-independent set of labels. -/
structure LabelSet where
  pairs : List (String × String)
  sorted : pairs.Pairwise fun a b => a.1 < b.1
deriving DecidableEq, Repr

namespace LabelSet

/-- The label set without labels. -/
def empty : LabelSet := ⟨[], List.Pairwise.nil⟩

instance : Inhabited LabelSet := ⟨empty⟩

/-- The pairs with a label put at its place; a label with the same key is replaced. -/
def insertPair (key value : String) : List (String × String) → List (String × String)
  | [] => [(key, value)]
  | p :: rest =>
    if key < p.1 then (key, value) :: p :: rest
    else if p.1 < key then p :: insertPair key value rest
    else (key, value) :: rest

theorem mem_insertPair {key value : String} {x : String × String} {l : List (String × String)}
    (h : x ∈ insertPair key value l) : x = (key, value) ∨ x ∈ l := by
  induction l with
  | nil => simpa [insertPair] using h
  | cons p rest ih =>
    unfold insertPair at h
    split at h
    · simpa using h
    · split at h
      · rcases List.mem_cons.1 h with rfl | h
        · exact Or.inr (by simp)
        · exact (ih h).imp_right fun h => List.mem_cons_of_mem _ h
      · rcases List.mem_cons.1 h with rfl | h
        · exact Or.inl rfl
        · exact Or.inr (List.mem_cons_of_mem _ h)

theorem pairwise_insertPair (key value : String) {l : List (String × String)}
    (h : l.Pairwise fun a b => a.1 < b.1) :
    (insertPair key value l).Pairwise fun a b => a.1 < b.1 := by
  induction l with
  | nil => simp [insertPair]
  | cons p rest ih =>
    obtain ⟨hp, hrest⟩ := List.pairwise_cons.1 h
    unfold insertPair
    split
    · next hk =>
      refine List.pairwise_cons.2 ⟨fun b hb => ?_, h⟩
      rcases List.mem_cons.1 hb with rfl | hb
      · exact hk
      · exact String.lt_trans hk (hp b hb)
    · next hk =>
      split
      · next hk' =>
        refine List.pairwise_cons.2 ⟨fun b hb => ?_, ih hrest⟩
        rcases mem_insertPair hb with rfl | hb
        · exact hk'
        · exact hp b hb
      · next hk' =>
        have heq : key = p.1 := String.le_antisymm (String.not_lt.1 hk') (String.not_lt.1 hk)
        exact List.pairwise_cons.2 ⟨fun b hb => heq ▸ hp b hb, hrest⟩

/-- The label set with a label added or replaced. -/
def insert (s : LabelSet) (key value : String) : LabelSet :=
  ⟨insertPair key value s.pairs, pairwise_insertPair key value s.sorted⟩

/-- The label set of a list of pairs; of several pairs with one key the last one counts. -/
def ofPairs (pairs : List (String × String)) : LabelSet :=
  pairs.foldl (fun s p => s.insert p.1 p.2) empty

/-- The value of a label. -/
def get? (s : LabelSet) (key : String) : Option String :=
  s.pairs.lookup key

/-- The number of labels. -/
def size (s : LabelSet) : Nat := s.pairs.length

/-- The label set as messages show it. -/
def shown (s : LabelSet) : String :=
  "LabelSet(\x7b"
    ++ ", ".intercalate (s.pairs.map fun p => Text.quote p.1 ++ ": " ++ Text.quote p.2)
    ++ "\x7d)"

end LabelSet

end Metering
