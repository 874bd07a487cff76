import Metering.Proofs.Concurrency.Recording

/-!
# Collecting

Each thing that the collecting thread does keeps the invariant.  Retiring an aggregator that nothing
refers to turns its values over to the collection; from then on only the collecting thread touches
it, whatever is put into the live map in its place.  Batching moves the values into the window, and
completing the cycle makes a block of what the window took.
-/

namespace Metering

open Fallible

namespace Ledger

variable {α : Type} {g : Ledger α} {l : LabelSet} {temporality : Temporality}

theorem contents_retire_live (g : Ledger α) (l : LabelSet) :
    (g.retire l).contents temporality (.live l) = [] := by
  simp [contents, retire]

theorem contents_retire_retired (g : Ledger α) (l : LabelSet) :
    (g.retire l).contents temporality (.retired l)
      = g.contents temporality (.retired l) ++ g.contents temporality (.live l) := by
  simp [contents, retire]

theorem contents_retire_of_ne {r : Role} (hl : r ≠ .live l) (hr : r ≠ .retired l) :
    (g.retire l).contents temporality r = g.contents temporality r := by
  cases r with
  | live l' =>
    have hne : l' ≠ l := fun he => hl (congrArg Role.live he)
    simp [contents, retire, hne]
  | retired l' =>
    have hne : l' ≠ l := fun he => hr (congrArg Role.retired he)
    simp [contents, retire, hne]
  | _ => rfl

theorem contents_take_retired (g : Ledger α) (l : LabelSet) :
    (g.take l).contents temporality (.retired l) = [] := by
  simp [contents, take]

theorem contents_take_window (g : Ledger α) (l : LabelSet) :
    (g.take l).contents temporality (.window l)
      = g.contents temporality (.window l) ++ g.contents temporality (.retired l) := by
  simp [contents, take]

theorem contents_take_of_ne {r : Role} (hr : r ≠ .retired l) (hw : r ≠ .window l) :
    (g.take l).contents temporality r = g.contents temporality r := by
  cases r with
  | retired l' =>
    have hne : l' ≠ l := fun he => hr (congrArg Role.retired he)
    simp [contents, take, hne]
  | window l' =>
    have hne : l' ≠ l := fun he => hw (congrArg Role.window he)
    simp [contents, take, hne]
  | _ => rfl

theorem contents_take_retire_live (g : Ledger α) (l : LabelSet) :
    ((g.retire l).take l).contents temporality (.live l) = [] := by
  simp [contents, retire, take]

theorem contents_take_retire_window (g : Ledger α) (l : LabelSet) :
    ((g.retire l).take l).contents temporality (.window l)
      = g.contents temporality (.window l)
        ++ (g.contents temporality (.retired l) ++ g.contents temporality (.live l)) := by
  simp [contents, retire, take]

theorem contents_close_cumulative (g : Ledger α) (r : Role) :
    g.close.contents .cumulative r = g.contents .cumulative r := by
  cases r with
  | window l => simp [contents, close, Temporality.before]
  | _ => rfl

theorem contents_close_delta {r : Role} (h : ∀ l, r ≠ .window l) :
    g.close.contents .delta r = g.contents .delta r := by
  cases r with
  | window l => exact absurd rfl (h l)
  | _ => rfl

end Ledger

/-- The role after the window has started over: what was in it is nobody's from then on. -/
def Role.leaveWindow : Role → Role
  | .window _ => .foreign
  | r => r

namespace Role

theorem leaveWindow_eq_iff {r s : Role} (hf : s ≠ .foreign) (hw : ∀ l, s ≠ .window l) :
    r.leaveWindow = s ↔ r = s := by
  cases r with
  | window l => exact iff_of_false hf.symm (hw l).symm
  | _ => rfl

theorem leaveWindow_ne_window (r : Role) (l : LabelSet) : r.leaveWindow ≠ .window l := by
  cases r <;> exact nofun

theorem leaveWindow_eq_self {r : Role} (h : r.leaveWindow ≠ .foreign) : r.leaveWindow = r := by
  cases r with
  | window l => exact absurd rfl h
  | _ => rfl

end Role

/-- A collection goes on without retiring anything: the entries before it become fewer at most. -/
theorem Mapped.proceed {role : AggregatorId → Role} {live : OrderedMap LabelSet AggregatorId}
    {held : List (LabelSet × AggregatorId)} {c c' : Collector} (h : Mapped role live held c)
    (hretired : c'.retired? = c.retired?) (hrest : c'.rest.Sublist c.rest)
    (htried : ∀ {l i rest}, c' = .tried l i false rest → role i = .live l)
    (hremoved : ∀ {l i rest}, c' = .removed l i rest → live.get? l ≠ some i) :
    Mapped role live held c' :=
  { h with
    retired_iff := by
      intro l i
      rw [hretired]
      exact h.retired_iff
    tried := htried
    removed := hremoved
    rest := fun hi => h.rest (hrest.subset hi)
    rest_nodup := (hrest.map Prod.fst).nodup h.rest_nodup }

/-- The retired aggregator gets another role, and the collection goes on to the next entry. -/
theorem Mapped.finish {role : AggregatorId → Role} {live : OrderedMap LabelSet AggregatorId}
    {held : List (LabelSet × AggregatorId)} {l : LabelSet} {i : AggregatorId}
    {rest : List (LabelSet × AggregatorId)} (h : Mapped role live held (.removed l i rest))
    {new : Role} (hl : ∀ l', .live l' ≠ new) (hr : ∀ l', .retired l' ≠ new) :
    Mapped (Function.update role i new) live held (.draining rest) := by
  have hi : role i = .retired l := h.retired_iff.mp rfl
  have hlive : ∀ j l', Function.update role i new j = .live l' ↔ role j = .live l' :=
    fun j l' => update_iff hi nofun (hl l')
  have honly : ∀ {j l'}, role j = .retired l' → l' = l ∧ j = i := by
    intro j l' hj
    obtain ⟨rfl, rfl⟩ := Prod.mk.inj (Option.some.inj (h.retired_iff.mpr hj))
    exact ⟨rfl, rfl⟩
  constructor
  case live_of_role =>
    intro j l' hj
    exact h.live_of_role ((hlive j l').mp hj)
  case role_of_live =>
    intro l' j hj
    refine Or.inl ((hlive j l').mpr ((h.role_of_live hj).resolve_right fun hret => ?_))
    -- the only retired aggregator has been removed from the live map
    obtain ⟨rfl, rfl⟩ := honly hret
    exact h.removed rfl hj
  case holders =>
    intro l' j hj
    exact (hlive j l').mpr (h.holders hj)
  case retired_iff =>
    intro l' j
    refine iff_of_false nofun fun hj => ?_
    by_cases hji : j = i
    · rw [hji, Function.update_self] at hj
      exact hr l' hj.symm
    · rw [Function.update_of_ne hji] at hj
      exact hji (honly hj).2
  case tried => exact nofun
  case removed => exact nofun
  case rest =>
    intro l' j hj
    exact (hlive j l').mpr (h.rest hj)
  case rest_nodup => exact h.rest_nodup

/-- The next aggregator of the snapshot is retired; it stays in the live map until the next
step. -/
theorem Mapped.retire {role : AggregatorId → Role} {live : OrderedMap LabelSet AggregatorId}
    {held : List (LabelSet × AggregatorId)} {l : LabelSet} {i : AggregatorId}
    {rest : List (LabelSet × AggregatorId)} (h : Mapped role live held (.draining ((l, i) :: rest)))
    (hfree : (l, i) ∉ held) :
    Mapped (Function.update role i (.retired l)) live held (.tried l i true rest) := by
  have hi : role i = .live l := h.rest List.mem_cons_self
  have hnone : ∀ j l', role j ≠ .retired l' := by
    intro j l' hj
    cases h.retired_iff.mpr hj
  obtain ⟨hfirst, hnodup⟩ := List.nodup_cons.mp h.rest_nodup
  have hlive : ∀ j l', Function.update role i (.retired l) j = .live l'
      ↔ role j = .live l' ∧ j ≠ i := by
    intro j l'
    by_cases hj : j = i
    · subst hj
      simp
    · simp [hj]
  constructor
  case live_of_role =>
    intro j l' hj
    exact h.live_of_role ((hlive j l').mp hj).1
  case role_of_live =>
    intro l' j hj
    have hrole := (h.role_of_live hj).resolve_right (hnone j l')
    by_cases hji : j = i
    · subst hji
      rw [hi] at hrole
      rw [Function.update_self, Role.live.inj hrole]
      exact Or.inr rfl
    · exact Or.inl ((hlive j l').mpr ⟨hrole, hji⟩)
  case holders =>
    intro l' j hj
    refine (hlive j l').mpr ⟨h.holders hj, ?_⟩
    rintro rfl
    -- a reference that is held would have kept the aggregator from being retired
    obtain rfl := Role.live.inj (hi.symm.trans (h.holders hj))
    exact hfree hj
  case retired_iff =>
    intro l' j
    show some (l, i) = some (l', j) ↔ _
    by_cases hj : j = i
    · subst hj
      simp
    · rw [Function.update_of_ne hj]
      exact iff_of_false (by simp [Ne.symm hj]) (hnone j l')
  case tried => exact nofun
  case removed => exact nofun
  case rest =>
    intro l' j hj
    have hrole : role j = .live l' := h.rest (List.mem_cons_of_mem _ hj)
    refine (hlive j l').mpr ⟨hrole, ?_⟩
    rintro rfl
    -- the snapshot has each label set once
    obtain rfl := Role.live.inj (hi.symm.trans hrole)
    exact hfirst (List.mem_map.mpr ⟨_, hj, rfl⟩)
  case rest_nodup => exact hnodup

/-- A thread that has found the aggregator before it was retired will see that it is. -/
theorem Bound.retire {role : AggregatorId → Role} {bindings : List Binding} {p : Pool}
    (h : Bound role bindings p) {l : LabelSet} {i : AggregatorId} (hi : role i = .live l) :
    Bound (Function.update role i (.retired l)) bindings (p.setReferences i .retired) where
  candidates l' c := by
    have hcandidate : Function.update role i (.retired l) c = .candidate l'
        ↔ role c = .candidate l' := update_iff hi nofun nofun
    simp only [hcandidate]
    exact h.candidates l' c
  found {l' j} hj := by
    obtain ⟨hhas, hor⟩ := h.found hj
    refine ⟨Pool.has_setReferences.mpr hhas, ?_⟩
    by_cases hji : j = i
    · subst hji
      exact Or.inr (Pool.references_setReferences_self hhas)
    · rw [Function.update_of_ne hji, Pool.references_setReferences_of_ne hji]
      exact hor

/-- An aggregator enters the window for a label set that the window has nothing for. -/
theorem window_insert {role : AggregatorId → Role} {window : OrderedMap LabelSet AggregatorId}
    (hwindow : ∀ {l i}, window.get? l = some i ↔ role i = .window l) {l : LabelSet}
    (hl : window.get? l = none) {c : AggregatorId} (hc : ∀ l', role c ≠ .window l')
    {l' : LabelSet} {i : AggregatorId} :
    (window.insert l c).get? l' = some i ↔ Function.update role c (.window l) i = .window l' := by
  rw [OrderedMap.get?_insert]
  by_cases hi : i = c
  · subst hi
    rw [Function.update_self]
    split
    · next he => simp [he]
    · next he => simp [hwindow, hc, Ne.symm he]
  · rw [Function.update_of_ne hi]
    split
    · next he =>
      subst he
      refine iff_of_false (by simp [Ne.symm hi]) fun hrole => ?_
      rw [hwindow.mpr hrole] at hl
      cases hl
    · exact hwindow

namespace Sound

variable {α : Type} [Recordable α] {isTotal : α → List α → Prop} {role : AggregatorId → Role}
  {t : Threads} {g : Ledger α}

theorem not_retired (h : Sound isTotal role t g) (hc : t.collector.retired? = none)
    (i : AggregatorId) (l : LabelSet) : role i ≠ .retired l := by
  intro hi
  have hsome := h.mapped.retired_iff.mpr hi
  rw [hc] at hsome
  cases hsome

/-! ### Taking the snapshot -/

/-- **The snapshot** has the live aggregators only. -/
theorem snapshot (h : Sound isTotal role t g) (hc : t.collector = .idle) :
    Sound isTotal role { t with collector := .draining t.live.entries } g := by
  have hnone : t.collector.retired? = none := by rw [hc]; rfl
  exact { h with
    mapped := { h.mapped with
      retired_iff := by
        intro l i
        rw [← h.mapped.retired_iff, hnone]
        rfl
      tried := nofun
      removed := nofun
      rest := fun {l i} hi =>
        (h.mapped.role_of_live (OrderedMap.mem_entries_iff.mp hi)).resolve_right
          (h.not_retired hnone i l)
      rest_nodup := t.live.nodup } }

/-! ### Trying to retire -/

/-- An aggregator that nothing refers to is **retired**, and its values with it. -/
theorem retire (h : Sound isTotal role t g) {l : LabelSet} {i : AggregatorId}
    {rest : List (LabelSet × AggregatorId)} (hc : t.collector = .draining ((l, i) :: rest))
    (hfree : t.pool.references i = .held 0) :
    Sound isTotal (Function.update role i (.retired l)) { t with
      accumulation := { t.accumulation with pool := t.pool.setReferences i .retired }
      collector := .tried l i true rest } (g.retire l) := by
  have hmapped := h.mapped
  rw [hc] at hmapped
  have hi : role i = .live l := hmapped.rest List.mem_cons_self
  have hnone := h.not_retired (by rw [hc]; rfl)
  have hheld : (l, i) ∉ t.held :=
    List.count_eq_zero.mp (References.held.inj ((h.references_live hi).symm.trans hfree))
  refine h.change hi rfl rfl (hmapped.retire hheld) ?window (h.bound.retire hi) (fun _ => ?self)
    (fun j hj hfits => ?others) (g.contents_retire_live l)
    fun r hl hr _ => Ledger.contents_retire_of_ne hl hr
  case window => exact h.window_update hi (fun _ => nofun) fun _ => nofun
  case self =>
    have hfits := h.fits i (by simp [hi])
    refine ⟨Pool.has_setReferences.mpr hfits.has, Pool.references_setReferences_self hfits.has, ?_⟩
    show Aggregator.Holds _ _ (Pool.get (t.pool.setReferences i .retired) i) _
    -- nothing else is retired, so the values of the role are those of this aggregator
    rw [Pool.get_setReferences, Ledger.contents_retire_retired, h.vacant _ (hnone · l),
      List.nil_append, ← hi]
    exact hfits.holds
  case others =>
    exact hfits.congr (Pool.has_setReferences.mpr hfits.has) (Pool.cell_setReferences_of_ne hj)
      (fun _ => rfl)
      (Ledger.contents_retire_of_ne (fun hl => hj (h.mapped.unique hl hi)) (hnone j l))

/-- An aggregator that something refers to stays live. -/
theorem keep (h : Sound isTotal role t g) {l : LabelSet} {i : AggregatorId}
    {rest : List (LabelSet × AggregatorId)} (hc : t.collector = .draining ((l, i) :: rest)) :
    Sound isTotal role { t with collector := .tried l i false rest } g := by
  have hrest : t.collector.rest = (l, i) :: rest := by rw [hc]; rfl
  have hi : role i = .live l := h.mapped.rest (by rw [hrest]; exact List.mem_cons_self)
  refine { h with mapped := h.mapped.proceed ?_ ?_ ?_ nofun }
  · rw [hc]
    rfl
  · rw [hrest]
    exact List.sublist_cons_self _ _
  · intro l' i' rest' he
    obtain ⟨rfl, rfl, -, -⟩ := Collector.tried.inj he
    exact hi

/-! ### Removing -/

/-- A retired aggregator is **removed** from the live map, unless another one has taken its
place. -/
theorem remove (h : Sound isTotal role t g) {l : LabelSet} {i : AggregatorId}
    {rest : List (LabelSet × AggregatorId)} (hc : t.collector = .tried l i true rest) :
    Sound isTotal role { t with
      accumulation := if t.live.get? l = some i then
          { t.accumulation with live := t.live.erase l } else t.accumulation
      collector := .removed l i rest } g := by
  have hi : role i = .retired l := h.mapped.retired_iff.mp (by rw [hc]; rfl)
  have hremoved : ∀ {l' i' rest'}, Collector.removed l i rest = .removed l' i' rest' →
      l' = l ∧ i' = i := by
    intro l' i' rest' he
    obtain ⟨rfl, rfl, -⟩ := Collector.removed.inj he
    exact ⟨rfl, rfl⟩
  by_cases hl : t.live.get? l = some i
  · rw [if_pos hl]
    have hget : ∀ {l' j}, (t.live.erase l).get? l' = some j ↔ l' ≠ l ∧ t.live.get? l' = some j := by
      intro l' j
      rw [OrderedMap.get?_erase]
      split <;> simp_all
    exact { h with
      mapped :=
        { live_of_role := fun {j l'} hj => by
            refine hget.mpr ⟨?_, h.mapped.live_of_role hj⟩
            rintro rfl
            -- the entry that is removed is the retired aggregator's own
            have hji := Option.some.inj ((h.mapped.live_of_role hj).symm.trans hl)
            rw [hji, hi] at hj
            cases hj
          role_of_live := fun hj => h.mapped.role_of_live (hget.mp hj).2
          holders := h.mapped.holders
          retired_iff := by
            intro l' j
            rw [← h.mapped.retired_iff, hc]
            rfl
          tried := fun he => by cases he
          removed := fun he hj => by
            obtain ⟨rfl, rfl⟩ := hremoved he
            exact (hget.mp hj).1 rfl
          rest := fun hj => h.mapped.rest (by rw [hc]; exact hj)
          rest_nodup := by
            have hnodup := h.mapped.rest_nodup
            rwa [hc] at hnodup } }
  · rw [if_neg hl]
    refine { h with mapped := h.mapped.proceed ?_ ?_ (fun he => by cases he) ?_ }
    · rw [hc]
      rfl
    · rw [hc]
      exact List.Sublist.refl _
    · intro l' i' rest' he
      obtain ⟨rfl, rfl⟩ := hremoved he
      exact hl

/-! ### Batching -/

theorem not_window (h : Sound isTotal role t g) {l : LabelSet}
    (hl : t.stream.window.get? l = none) (i : AggregatorId) : role i ≠ .window l := by
  intro hi
  rw [h.window_iff.mpr hi] at hl
  cases hl

/-- A new aggregator enters the window for a label set that it has nothing for. -/
theorem enter (hadd : AddsUp isTotal) (h : Sound isTotal role t g) {l : LabelSet}
    (hl : t.stream.window.get? l = none) :
    Sound isTotal (Function.update role t.pool.next (.window l)) { t with
      accumulation :=
        { pool := t.pool.add t.stream.freshAggregator
          stream := { t.stream with window := t.stream.window.insert l t.pool.next }
          live := t.live } } g := by
  have hnext := h.foreign_next
  refine h.change hnext rfl rfl ?mapped ?window ?bound (fun _ => ?self) (fun i hi hfits => ?others)
    rfl fun _ _ _ _ => rfl
  case mapped =>
    exact h.mapped.congr (fun _ _ => update_iff hnext nofun nofun)
      fun _ _ => update_iff hnext nofun nofun
  case window =>
    exact window_insert h.window_iff hl fun l' => by
      rw [hnext]
      exact nofun
  case bound =>
    refine h.bound.congr (fun _ _ => update_iff hnext nofun nofun)
      (fun _ _ => update_iff hnext nofun nofun)
      (fun hi => Pool.has_add.mpr (Or.inl hi)) fun hi href => ?_
    exact (congrArg Cell.references (Pool.cell_add_of_has hi)).trans href
  case self =>
    refine ⟨Pool.has_add.mpr (Or.inr rfl), trivial, ?_⟩
    rw [h.vacant _ (h.not_window hl)]
    exact h.holds_fresh hadd
  case others =>
    exact hfits.congr (Pool.has_add.mpr (Or.inl hfits.has)) (Pool.cell_add_of_has hfits.has)
      (fun _ => rfl) rfl

/-- What a live aggregator holds moves into the window. -/
theorem pour_live (h : Sound isTotal role t g) {l : LabelSet} {i j : AggregatorId}
    {rest : List (LabelSet × AggregatorId)} {q : Pool}
    (hc : t.collector = .tried l i false rest) (hj : role j = .window l)
    (hspares : t.pool.Spares q fun k => k = i ∨ k = j)
    (hreferences : ∀ k, q.references k = t.pool.references k)
    (hi' : Aggregator.Holds isTotal t.stream.shape (q.get i) [])
    (hj' : Aggregator.Holds isTotal t.stream.shape (q.get j)
      (g.contents t.stream.temporality (.window l) ++ g.contents t.stream.temporality (.live l))) :
    Sound isTotal role { t with
      accumulation := { t.accumulation with pool := q }
      collector := .draining rest } ((g.retire l).take l) := by
  have hi : role i = .live l := h.mapped.tried hc
  have hnone := h.not_retired (by rw [hc]; rfl)
  constructor
  case valueType => exact h.valueType
  case unfailing => exact h.unfailing
  case mapped =>
    refine h.mapped.proceed ?_ ?_ nofun nofun
    · rw [hc]
      rfl
    · rw [hc]
      exact List.Sublist.refl _
  case window_iff => exact h.window_iff
  case bound =>
    exact h.bound.congr (fun _ _ => Iff.rfl) (fun _ _ => Iff.rfl) hspares.has
      fun _ href => (hreferences _).trans href
  case fits =>
    intro k hk
    have hfits := h.fits k hk
    refine ⟨hspares.has hfits.has, ?_, ?_⟩
    · show Role.Allows t.held k (q.references k) (role k)
      rw [hreferences]
      exact hfits.references
    show Aggregator.Holds isTotal t.stream.shape (q.get k)
      (((g.retire l).take l).contents t.stream.temporality (role k))
    by_cases hki : k = i
    · -- the live aggregator starts over
      subst hki
      rw [hi, Ledger.contents_take_retire_live]
      exact hi'
    by_cases hkj : k = j
    · -- nothing else was on its way into the window
      subst hkj
      rw [hj, Ledger.contents_take_retire_window, h.vacant _ (hnone · l), List.nil_append]
      exact hj'
    · rw [hspares.get hfits.has (not_or.mpr ⟨hki, hkj⟩),
        Ledger.contents_take_of_ne (hnone k l) fun hw => hkj (h.window_unique hw hj),
        Ledger.contents_retire_of_ne (fun hl => hki (h.mapped.unique hl hi)) (hnone k l)]
      exact hfits.holds
  case vacant =>
    intro r hr
    by_cases hrr : r = .retired l
    · rw [hrr]
      exact (g.retire l).contents_take_retired l
    have hrw : r ≠ .window l := by
      rintro rfl
      exact hr j hj
    have hrl : r ≠ .live l := by
      rintro rfl
      exact hr i hi
    rw [Ledger.contents_take_of_ne hrr hrw, Ledger.contents_retire_of_ne hrl hrr]
    exact h.vacant r hr

theorem only_retired (h : Sound isTotal role t g) {l l' : LabelSet} {i j : AggregatorId}
    {rest : List (LabelSet × AggregatorId)} (hc : t.collector = .removed l i rest)
    (hj : role j = .retired l') : j = i := by
  have hsome := h.mapped.retired_iff.mpr hj
  rw [hc] at hsome
  exact (Prod.mk.inj (Option.some.inj hsome)).2.symm

/-- What a retired aggregator holds moves into the window, and the aggregator is given up. -/
theorem pour_retired (h : Sound isTotal role t g) {l : LabelSet} {i j : AggregatorId}
    {rest : List (LabelSet × AggregatorId)} {q : Pool}
    (hc : t.collector = .removed l i rest) (hj : role j = .window l)
    (hspares : t.pool.Spares q fun k => k = i ∨ k = j)
    (hreferences : ∀ k, q.references k = t.pool.references k)
    (hj' : Aggregator.Holds isTotal t.stream.shape (q.get j)
      (g.contents t.stream.temporality (.window l)
        ++ g.contents t.stream.temporality (.retired l))) :
    Sound isTotal (Function.update role i .foreign) { t with
      accumulation := { t.accumulation with pool := q }
      collector := .draining rest } (g.take l) := by
  have hmapped := h.mapped
  rw [hc] at hmapped
  have hi : role i = .retired l := hmapped.retired_iff.mp rfl
  refine h.change hi rfl rfl (hmapped.finish (fun _ => nofun) fun _ => nofun) ?window ?bound
    (fun hf => absurd rfl hf) (fun k hk hfits => ?others) (g.contents_take_retired l)
    fun r hr _ hnobody => Ledger.contents_take_of_ne hr fun hw => hnobody j (hj.trans hw.symm)
  case window => exact h.window_update hi (fun _ => nofun) fun _ => nofun
  case bound =>
    exact h.bound.congr (fun _ _ => update_iff hi nofun nofun)
      (fun _ _ => update_iff hi nofun nofun) hspares.has fun _ href => (hreferences _).trans href
  case others =>
    refine ⟨hspares.has hfits.has, ?_, ?_⟩
    · show Role.Allows t.held k (q.references k) (role k)
      rw [hreferences]
      exact hfits.references
    show Aggregator.Holds isTotal t.stream.shape (q.get k) _
    by_cases hkj : k = j
    · subst hkj
      rw [hj, Ledger.contents_take_window]
      exact hj'
    · rw [hspares.get hfits.has (not_or.mpr ⟨hk, hkj⟩),
        Ledger.contents_take_of_ne (fun hr => hk (h.only_retired hc hr))
          fun hw => hkj (h.window_unique hw hj)]
      exact hfits.holds

/-- A retired aggregator is adopted by a window that has nothing for its label set. -/
theorem adopt (h : Sound isTotal role t g) {l : LabelSet} {i : AggregatorId}
    {rest : List (LabelSet × AggregatorId)} (hc : t.collector = .removed l i rest)
    (hl : t.stream.window.get? l = none) :
    Sound isTotal (Function.update role i (.window l)) { t with
      accumulation := { t.accumulation with
        stream := { t.stream with window := t.stream.window.insert l i } }
      collector := .draining rest } (g.take l) := by
  have hmapped := h.mapped
  rw [hc] at hmapped
  have hi : role i = .retired l := hmapped.retired_iff.mp rfl
  refine h.change hi rfl rfl (hmapped.finish (fun _ => nofun) fun _ => nofun) ?window ?bound
    (fun _ => ?self) (fun k hk hfits => ?others) (g.contents_take_retired l)
    fun r hr hw _ => Ledger.contents_take_of_ne hr hw
  case window =>
    exact window_insert h.window_iff hl fun l' => by
      rw [hi]
      exact nofun
  case bound =>
    exact h.bound.congr (fun _ _ => update_iff hi nofun nofun)
      (fun _ _ => update_iff hi nofun nofun) id fun _ href => href
  case self =>
    have hfits := h.fits i (by simp [hi])
    refine ⟨hfits.has, trivial, ?_⟩
    show Aggregator.Holds isTotal t.stream.shape (t.pool.get i) _
    rw [Ledger.contents_take_window, h.vacant _ (h.not_window hl), List.nil_append, ← hi]
    exact hfits.holds
  case others =>
    exact hfits.congr hfits.has rfl (fun _ => rfl)
      (Ledger.contents_take_of_ne (fun hr => hk (h.only_retired hc hr)) (h.not_window hl k))

/-! ### Ending the cycle -/

/-- **The end of a cycle** under cumulative temporality leaves the window as it is. -/
theorem close_cumulative (h : Sound isTotal role t g) (hc : t.collector = .draining [])
    (htemp : t.stream.temporality = .cumulative) :
    Sound isTotal role { t with collector := .idle } g.close := by
  have hmapped : Mapped role t.live t.held .idle :=
    h.mapped.proceed (by rw [hc]; rfl) (by rw [hc]; exact .refl _) nofun nofun
  refine { h with mapped := hmapped, fits := ?_, vacant := ?_ }
  · intro i hi
    show Fits isTotal t.stream.shape t.held (g.close.contents t.stream.temporality (role i)) i
      (role i) t.pool
    rw [htemp, g.contents_close_cumulative, ← htemp]
    exact h.fits i hi
  · intro r hr
    show g.close.contents t.stream.temporality r = []
    rw [htemp, g.contents_close_cumulative, ← htemp]
    exact h.vacant r hr

/-- **The end of a cycle** under delta temporality starts over with an empty window. -/
theorem close_delta (h : Sound isTotal role t g) (hc : t.collector = .draining [])
    (htemp : t.stream.temporality = .delta) (time : Int) :
    Sound isTotal (fun i => (role i).leaveWindow) { t with
      accumulation := { t.accumulation with
        stream := { t.stream with start := time, window := OrderedMap.empty } }
      collector := .idle } g.close := by
  have hmapped : Mapped role t.live t.held .idle :=
    h.mapped.proceed (by rw [hc]; rfl) (by rw [hc]; exact .refl _) nofun nofun
  have hlive : ∀ i l, (role i).leaveWindow = .live l ↔ role i = .live l :=
    fun i l => Role.leaveWindow_eq_iff nofun nofun
  constructor
  case valueType => exact h.valueType
  case unfailing => exact h.unfailing
  case mapped => exact hmapped.congr hlive fun i l => Role.leaveWindow_eq_iff nofun nofun
  case window_iff =>
    intro l i
    exact iff_of_false nofun ((role i).leaveWindow_ne_window l)
  case bound =>
    exact h.bound.congr hlive (fun i l => Role.leaveWindow_eq_iff nofun nofun) id
      fun _ href => href
  case fits =>
    intro i hi
    have hrole : (role i).leaveWindow = role i := Role.leaveWindow_eq_self hi
    -- only what is in the window says something about the blocks
    have hcontents : g.close.contents t.stream.temporality (role i)
        = g.contents t.stream.temporality (role i) := by
      rw [htemp]
      exact Ledger.contents_close_delta fun l hl => by
        rw [← hrole] at hl
        exact (role i).leaveWindow_ne_window l hl
    show Fits isTotal t.stream.shape t.held (g.close.contents t.stream.temporality _) i _ t.pool
    rw [hrole] at hi ⊢
    rw [hcontents]
    exact h.fits i hi
  case vacant =>
    intro r hr
    show g.close.contents t.stream.temporality r = []
    rw [htemp]
    by_cases hw : ∃ l, r = .window l
    · obtain ⟨l, rfl⟩ := hw
      rfl
    rw [Ledger.contents_close_delta fun l hl => hw ⟨l, hl⟩, ← htemp]
    by_cases hf : r = .foreign
    · rw [hf]
      rfl
    · exact h.vacant r fun i hi =>
        hr i ((Role.leaveWindow_eq_iff hf fun l hl => hw ⟨l, hl⟩).mpr hi)

end Sound

end Metering
