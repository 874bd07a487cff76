import Metering.OrderedMap
import Mathlib.Data.List.Nodup

/-!
# Entries of ordered maps

`OrderedMap.mem_entries_iff` ties the entries of a map to its lookups, and
`OrderedMap.filterMap_entries` says what is left of a list made from the entries when only one key
is looked at.

`OrderedMap.map` applies a function to every value and keeps the order.  It commutes with the
operations; `map_insert_of_eq` is about two functions that differ at one key only, as when the
values are identifiers and one of the things they stand for has changed.
-/

namespace Metering.OrderedMap

variable {κ ν μ : Type} [DecidableEq κ] {m : OrderedMap κ ν} {k k' : κ} {v v' : ν}

theorem get?_eq_of_mem (h : (k, v) ∈ m.entries) : m.get? k = some v := by
  obtain ⟨entries, nodup⟩ := m
  unfold get?
  dsimp only at *
  induction entries with
  | nil => cases h
  | cons e rest ih =>
    rw [List.map_cons, List.nodup_cons] at nodup
    rw [List.find?_cons]
    rcases List.mem_cons.mp h with rfl | h
    · simp
    · have hne : e.1 ≠ k := fun he => nodup.1 (List.mem_map.mpr ⟨(k, v), h, he.symm⟩)
      rw [decide_eq_false hne]
      exact ih nodup.2 h

theorem mem_entries_iff : (k, v) ∈ m.entries ↔ m.get? k = some v := by
  refine ⟨get?_eq_of_mem, fun h => ?_⟩
  unfold get? at h
  obtain ⟨e, he, rfl⟩ := Option.map_eq_some_iff.mp h
  have hk : e.1 = k := by simpa using List.find?_some he
  rw [← hk]
  exact List.mem_of_find?_eq_some he

theorem mem_values_iff : v ∈ m.values ↔ ∃ k, m.get? k = some v := by
  constructor
  · intro h
    obtain ⟨e, he, rfl⟩ := List.mem_map.mp h
    exact ⟨e.1, mem_entries_iff.mp he⟩
  · rintro ⟨k, hk⟩
    exact List.mem_map.mpr ⟨(k, v), mem_entries_iff.mpr hk, rfl⟩

/-- Values differ if none of them stands under two keys. -/
theorem nodup_values (h : ∀ {k k' v}, m.get? k = some v → m.get? k' = some v → k = k') :
    m.values.Nodup := by
  refine List.Nodup.map_on (fun e he e' he' heq => ?_) (List.Nodup.of_map Prod.fst m.nodup)
  have hk := h (mem_entries_iff.mp he) (heq ▸ mem_entries_iff.mp he')
  exact Prod.ext hk heq

theorem get?_insert : (m.insert k v).get? k' = if k' = k then some v else m.get? k' := by
  split
  · next h =>
    subst h
    exact m.get?_insert_self k' v
  · next h => exact m.get?_insert_of_ne v h

/-- A value under a new key comes last. -/
theorem values_insert_of_none (h : m.get? k = none) : (m.insert k v).values = m.values ++ [v] := by
  have hk : k ∉ m.entries.map Prod.fst := (get?_eq_none_iff m k).mp h
  show (insertEntries m.entries k v).map Prod.snd = _
  unfold insertEntries
  rw [if_neg hk, List.map_append]
  rfl

/-- A value takes the place of the one that its key had, if that stands under no other key. -/
theorem values_insert_of_some [DecidableEq ν] (h : m.get? k = some v)
    (honly : ∀ {k'}, m.get? k' = some v → k' = k) :
    (m.insert k v').values = m.values.map fun w => if w = v then v' else w := by
  have hk : k ∈ m.entries.map Prod.fst := List.mem_map.mpr ⟨(k, v), mem_entries_iff.mpr h, rfl⟩
  show (insertEntries m.entries k v').map Prod.snd = (m.entries.map Prod.snd).map _
  unfold insertEntries
  rw [if_pos hk, List.map_map, List.map_map]
  refine List.map_congr_left fun e he => ?_
  have hiff : e.1 = k ↔ e.2 = v := by
    have hget : m.get? e.1 = some e.2 := get?_eq_of_mem he
    constructor
    · intro hek
      rw [hek, h] at hget
      exact (Option.some.inj hget).symm
    · intro hev
      rw [hev] at hget
      exact honly hget
  simp only [Function.comp_apply, apply_ite Prod.snd, hiff]

theorem get?_erase : (m.erase k).get? k' = if k' = k then none else m.get? k' := by
  split
  · next h =>
    subst h
    exact m.get?_erase_self k'
  · next h => exact m.get?_erase_of_ne h

/-- What a list made from the entries has for one key comes from the value under the key. -/
theorem filterMap_entries {β : Type} (m : OrderedMap κ ν) (f : κ × ν → Option β) (key : β → κ)
    (hf : ∀ e b, f e = some b → key b = e.1) (k : κ) :
    (m.entries.filterMap f).filter (fun b => key b = k)
      = ((m.get? k).bind fun v => f (k, v)).toList := by
  have hentries : ∀ entries : List (κ × ν), (entries.map Prod.fst).Nodup →
      (entries.filterMap f).filter (fun b => key b = k)
        = (((entries.find? fun e => decide (e.1 = k)).map Prod.snd).bind
            fun v => f (k, v)).toList := by
    intro entries hnodup
    induction entries with
    | nil => rfl
    | cons e rest ih =>
      rw [List.map_cons, List.nodup_cons] at hnodup
      rw [List.find?_cons]
      by_cases he : e.1 = k
      · subst he
        -- no further entry has the key
        have hrest : (rest.filterMap f).filter (fun b => key b = e.1) = [] := by
          rw [List.filter_eq_nil_iff]
          intro b hb
          obtain ⟨e', he', hb⟩ := List.mem_filterMap.mp hb
          rw [decide_eq_true_eq, hf e' b hb]
          exact fun heq => hnodup.1 (List.mem_map.mpr ⟨e', he', heq⟩)
        rw [List.filterMap_cons]
        cases hfe : f e with
        | none => simp [hrest, hfe]
        | some b => simp [hf e b hfe, hrest, hfe]
      · rw [List.filterMap_cons, decide_eq_false he]
        cases hfe : f e with
        | none => exact ih hnodup.2
        | some b =>
          have hb : key b ≠ k := fun hb => he ((hf e b hfe).symm.trans hb)
          simpa [hb] using ih hnodup.2
  exact hentries m.entries m.nodup

/-- The keys that a list made from the entries has something for, in the order of the entries. -/
theorem map_filterMap_entries {β : Type} (m : OrderedMap κ ν) (f : κ × ν → Option β) (key : β → κ)
    (hf : ∀ e b, f e = some b → key b = e.1) :
    (m.entries.filterMap f).map key
      = m.keys.filter fun k => ((m.get? k).bind fun v => f (k, v)).isSome := by
  have hget : ∀ e ∈ m.entries, m.get? e.1 = some e.2 := fun e he => get?_eq_of_mem he
  unfold keys
  generalize m.entries = entries at hget
  induction entries with
  | nil => rfl
  | cons e rest ih =>
    have ih := ih fun e' he' => hget e' (List.mem_cons_of_mem e he')
    rw [List.filterMap_cons, List.map_cons, List.filter_cons, hget e List.mem_cons_self,
      Option.bind_some]
    cases hfe : f e with
    | none => simp [ih]
    | some b => simp [ih, hf e b hfe]

/-! ### Maps of values -/

omit [DecidableEq κ] in
theorem ext_entries {m m' : OrderedMap κ ν} (h : m.entries = m'.entries) : m = m' := by
  cases m
  cases m'
  congr

omit [DecidableEq κ] in
/-- The map with a function applied to every value. -/
def map (f : ν → μ) (m : OrderedMap κ ν) : OrderedMap κ μ :=
  ⟨m.entries.map fun e => (e.1, f e.2), by
    rw [List.map_map]
    exact m.nodup⟩

omit [DecidableEq κ] in
theorem keys_map (f : ν → μ) (m : OrderedMap κ ν) : (m.map f).keys = m.keys :=
  List.map_map

omit [DecidableEq κ] in
theorem map_map {ξ : Type} (f : ν → μ) (g : μ → ξ) (m : OrderedMap κ ν) :
    (m.map f).map g = m.map (g ∘ f) := ext_entries List.map_map

omit [DecidableEq κ] in
theorem map_id (m : OrderedMap κ ν) : m.map id = m := ext_entries (List.map_id _)

theorem get?_map (f : ν → μ) (m : OrderedMap κ ν) (k : κ) :
    (m.map f).get? k = (m.get? k).map f := by
  unfold get? map
  dsimp only
  rw [List.find?_map, Option.map_map, Option.map_map]
  rfl

theorem map_congr {f g : ν → μ} (h : ∀ k v, m.get? k = some v → f v = g v) :
    m.map f = m.map g := by
  refine ext_entries (List.map_congr_left fun e he => ?_)
  rw [h e.1 e.2 (get?_eq_of_mem he)]

theorem map_insert (f : ν → μ) (m : OrderedMap κ ν) (k : κ) (v : ν) :
    (m.insert k v).map f = (m.map f).insert k (f v) := by
  have hkeys : (m.map f).entries.map Prod.fst = m.entries.map Prod.fst := keys_map f m
  refine ext_entries ?_
  show (insertEntries m.entries k v).map _ = insertEntries (m.map f).entries k (f v)
  unfold insertEntries
  rw [hkeys]
  by_cases hk : k ∈ m.entries.map Prod.fst
  · rw [if_pos hk, if_pos hk]
    show _ = (m.entries.map _).map _
    rw [List.map_map, List.map_map]
    refine List.map_congr_left fun e _ => ?_
    simp only [Function.comp_apply]
    split <;> rfl
  · rw [if_neg hk, if_neg hk, List.map_append]
    rfl

theorem map_erase (f : ν → μ) (m : OrderedMap κ ν) (k : κ) :
    (m.erase k).map f = (m.map f).erase k := by
  refine ext_entries ?_
  show (m.entries.filter _).map _ = (m.entries.map _).filter _
  rw [List.filter_map]
  rfl

theorem insert_insert (m : OrderedMap κ ν) (k : κ) (v w : ν) :
    (m.insert k v).insert k w = m.insert k w := by
  have hkeys := keys_insertEntries m.entries k v
  refine ext_entries ?_
  show insertEntries (insertEntries m.entries k v) k w = insertEntries m.entries k w
  have hmem : k ∈ (insertEntries m.entries k v).map Prod.fst := by
    rw [hkeys]
    split
    · assumption
    · exact List.mem_append_right _ (List.mem_singleton_self k)
  rw [insertEntries, if_pos hmem]
  unfold insertEntries
  by_cases hk : k ∈ m.entries.map Prod.fst
  · rw [if_pos hk, if_pos hk, List.map_map]
    refine List.map_congr_left fun e _ => ?_
    simp only [Function.comp_apply]
    split <;> simp_all
  · rw [if_neg hk, if_neg hk, List.map_append]
    refine congrArg₂ _ ?_ (by simp)
    conv_rhs => rw [← List.map_id m.entries]
    refine List.map_congr_left fun e he => if_neg fun hek => hk ?_
    exact List.mem_map.mpr ⟨e, he, hek⟩

/-- Of two functions that agree on all values but the one of a key, the map of one is that of the
other with one value replaced. -/
theorem map_insert_of_eq {f g : ν → μ} (hk : m.get? k = some v)
    (h : ∀ k' v', m.get? k' = some v' → k' ≠ k → g v' = f v') :
    m.map g = (m.map f).insert k (g v) := by
  refine ext_entries ?_
  show m.entries.map _ = insertEntries (m.map f).entries k (g v)
  have hmem : k ∈ (m.map f).entries.map Prod.fst := by
    show k ∈ (m.map f).keys
    rw [keys_map]
    exact List.mem_map.mpr ⟨(k, v), mem_entries_iff.mpr hk, rfl⟩
  unfold insertEntries
  rw [if_pos hmem]
  show _ = (m.entries.map _).map _
  rw [List.map_map]
  refine List.map_congr_left fun e he => ?_
  have hv := get?_eq_of_mem he
  simp only [Function.comp_apply]
  split
  · next hek =>
    rw [hek] at hv
    obtain rfl := Option.some.inj (hk.symm.trans hv)
    rw [hek]
  · next hek => rw [h e.1 e.2 hv hek]

end Metering.OrderedMap
