/-!
# Maps that remember the order of insertion

An `OrderedMap` is a list of entries with distinct keys.  Inserting under a key that is present
replaces the value and keeps the entry's place; a new key goes last; an erased key that is inserted
again goes last.  The list of entries is the view through which each operation is described:
`get?_insert_self`, `get?_insert_of_ne`, `keys_insert`, `get?_erase_self`, `get?_erase_of_ne`.
-/

namespace Metering

/-- A map whose entries keep the order in which their keys were inserted. -/
structure OrderedMap (κ ν : Type) where
  entries : List (κ × ν)
  nodup : (entries.map Prod.fst).Nodup

namespace OrderedMap

variable {κ ν : Type}

/-- The map without entries. -/
def empty : OrderedMap κ ν := ⟨[], by simp⟩

instance : EmptyCollection (OrderedMap κ ν) := ⟨empty⟩
instance : Inhabited (OrderedMap κ ν) := ⟨empty⟩

/-- The keys in the order of the entries. -/
def keys (m : OrderedMap κ ν) : List κ := m.entries.map Prod.fst

/-- The values in the order of the entries. -/
def values (m : OrderedMap κ ν) : List ν := m.entries.map Prod.snd

variable [DecidableEq κ]

/-- The value stored under a key. -/
def get? (m : OrderedMap κ ν) (k : κ) : Option ν :=
  (m.entries.find? fun e => decide (e.1 = k)).map Prod.snd

/-- The entries with the value under a key replaced, or with a new entry at the end. -/
def insertEntries (entries : List (κ × ν)) (k : κ) (v : ν) : List (κ × ν) :=
  if k ∈ entries.map Prod.fst then entries.map fun e => if e.1 = k then (k, v) else e
  else entries ++ [(k, v)]

theorem keys_insertEntries (entries : List (κ × ν)) (k : κ) (v : ν) :
    (insertEntries entries k v).map Prod.fst =
      if k ∈ entries.map Prod.fst then entries.map Prod.fst else entries.map Prod.fst ++ [k] := by
  unfold insertEntries
  split
  · rw [List.map_map]
    refine List.map_congr_left fun e _ => ?_
    simp only [Function.comp_apply]
    split
    · next h => exact h.symm
    · rfl
  · simp

/-- The map with a value stored under a key. -/
def insert (m : OrderedMap κ ν) (k : κ) (v : ν) : OrderedMap κ ν :=
  ⟨insertEntries m.entries k v, by
    rw [keys_insertEntries]
    split
    · exact m.nodup
    · next h =>
      exact List.nodup_append.2 ⟨m.nodup, by simp, fun a ha b hb hab => by
        simp only [List.mem_singleton] at hb
        exact h (hb ▸ hab ▸ ha)⟩⟩

/-- The map without the entry of a key. -/
def erase (m : OrderedMap κ ν) (k : κ) : OrderedMap κ ν :=
  ⟨m.entries.filter fun e => decide (e.1 ≠ k),
    List.Nodup.sublist (List.filter_sublist.map Prod.fst) m.nodup⟩

/-! ### What the operations do -/

@[simp] theorem get?_empty (k : κ) : (empty : OrderedMap κ ν).get? k = none := rfl

theorem keys_insert (m : OrderedMap κ ν) (k : κ) (v : ν) :
    (m.insert k v).keys = if k ∈ m.keys then m.keys else m.keys ++ [k] :=
  keys_insertEntries m.entries k v

theorem get?_eq_none_iff (m : OrderedMap κ ν) (k : κ) : m.get? k = none ↔ k ∉ m.keys := by
  simp only [get?, keys, Option.map_eq_none_iff, List.find?_eq_none, decide_eq_true_eq,
    List.mem_map, not_exists, not_and]

theorem get?_insert_self (m : OrderedMap κ ν) (k : κ) (v : ν) :
    (m.insert k v).get? k = some v := by
  unfold get? insert insertEntries
  dsimp only
  split
  · next h =>
    obtain ⟨e, he, hk⟩ := List.mem_map.1 h
    rw [List.find?_map]
    cases hf : m.entries.find? ((fun e => decide (e.1 = k)) ∘
        fun e => if e.1 = k then (k, v) else e) with
    | none =>
      have := List.find?_eq_none.1 hf e he
      simp [hk] at this
    | some e' =>
      have hp := List.find?_some hf
      simp only [Function.comp_apply, decide_eq_true_eq] at hp
      split at hp
      · next hk' => simp [hk']
      · next hk' => exact absurd hp hk'
  · next h =>
    rw [List.find?_append]
    have : m.entries.find? (fun e => decide (e.1 = k)) = none :=
      List.find?_eq_none.2 fun e he => by
        simpa using fun hk : e.1 = k => h (List.mem_map.2 ⟨e, he, hk⟩)
    simp [this]

theorem get?_insert_of_ne (m : OrderedMap κ ν) {k k' : κ} (v : ν) (h : k' ≠ k) :
    (m.insert k v).get? k' = m.get? k' := by
  unfold get? insert insertEntries
  dsimp only
  split
  · induction m.entries with
    | nil => rfl
    | cons e rest ih =>
      rw [List.map_cons, List.find?_cons, List.find?_cons]
      by_cases hk : e.1 = k
      · rw [if_pos hk, decide_eq_false (Ne.symm h),
          decide_eq_false (fun he : e.1 = k' => h (he.symm.trans hk))]
        exact ih
      · rw [if_neg hk]
        by_cases hk' : e.1 = k'
        · rw [decide_eq_true hk']
        · rw [decide_eq_false hk']
          exact ih
  · rw [List.find?_append]
    cases m.entries.find? (fun e => decide (e.1 = k')) <;> simp [Ne.symm h]

theorem get?_erase_self (m : OrderedMap κ ν) (k : κ) : (m.erase k).get? k = none := by
  rw [get?_eq_none_iff]
  simp [keys, erase]

theorem get?_erase_of_ne (m : OrderedMap κ ν) {k k' : κ} (h : k' ≠ k) :
    (m.erase k).get? k' = m.get? k' := by
  unfold get? erase
  dsimp only
  rw [List.find?_filter]
  congr 2
  funext e
  by_cases hk : e.1 = k'
  · simp [hk, h]
  · simp [hk]

end OrderedMap

end Metering
