import Metering.Proofs.Fallible
import Metering.Proofs.Concurrency.Roles

/-!
# Binding, recording and releasing

Each thing that a recording thread does keeps the invariant.  A thread that finds a live aggregator
takes a reference to it; otherwise it makes a candidate, which becomes the live aggregator of its
label set if there still is none under the lock, and is given up if there is one.  A candidate has
recorded nothing, so no value is lost with it.
-/

namespace Metering

open Fallible

/-! ### The operations -/

namespace Accumulation

variable {a : Accumulation} {l : LabelSet} {i c : AggregatorId}

theorem acquireLive?_eq_none (h : a.acquireLive? l = none) :
    ∀ i, a.live.get? l = some i → a.pool.references i = .retired := by
  intro i hi
  unfold acquireLive? at h
  rw [hi] at h
  exact Pool.acquire?_eq_none (Option.map_eq_none_iff.mp h)

theorem acquireLive?_eq_some {a' : Accumulation} (h : a.acquireLive? l = some (i, a')) :
    a.live.get? l = some i ∧ ∃ n, a.pool.references i = .held n ∧
      a' = { a with pool := a.pool.setReferences i (.held (n + 1)) } := by
  unfold acquireLive? at h
  cases hl : a.live.get? l with
  | none =>
    rw [hl] at h
    cases h
  | some j =>
    rw [hl] at h
    obtain ⟨p, hp, he⟩ := Option.map_eq_some_iff.mp h
    obtain ⟨n, hn, rfl⟩ := Pool.acquire?_eq_some hp
    obtain ⟨rfl, rfl⟩ := Prod.mk.inj he
    exact ⟨rfl, n, hn, rfl⟩

theorem candidate_eq (a : Accumulation) :
    candidate a = (.ok a.pool.next, { a with
      pool := (a.pool.add a.stream.freshAggregator).setReferences a.pool.next (.held 1) }) := by
  have hcell := a.pool.cell_add_next a.stream.freshAggregator
  have hacquire : (a.pool.add a.stream.freshAggregator).acquire? a.pool.next
      = some ((a.pool.add a.stream.freshAggregator).setReferences a.pool.next (.held 1)) := by
    rw [Pool.acquire?, Pool.references, hcell]
    rfl
  show (Except.ok a.pool.next, { a with
    pool := ((a.pool.add a.stream.freshAggregator).acquire? a.pool.next).getD _ }) = _
  rw [hacquire]
  rfl

theorem settle_of_none (h : a.acquireLive? l = none) :
    settle l c a = (.ok c, { a with live := a.live.insert l c }) := by
  unfold settle
  simp only [bind_apply, get_apply, h, set_apply, pure_apply]

theorem settle_of_some {a' : Accumulation} {w : PooledStream}
    (h : a.acquireLive? l = some (i, a')) (hm : a'.toPooledStream.move c i = (.ok (), w)) :
    settle l c a
      = (.ok i, { a' with toPooledStream := { w with pool := w.pool.release c } }) := by
  unfold settle
  simp only [bind_apply, get_apply, h, set_apply, pure_apply, onStream, hm, modify_apply]

theorem record_of_ok {s : Scalar} {p : Pool} (h : a.pool.record i s = .ok p) :
    record i s a = (.ok (), { a with pool := p }) := by
  unfold record
  simp only [bind_apply, get_apply, h, set_apply]

theorem record_of_error {s : Scalar} {e : RecordError} (h : a.pool.record i s = .error e) :
    record i s a = (.error (.record e), a) := by
  unfold record
  simp only [bind_apply, get_apply, h, throw_apply]

end Accumulation

theorem PooledStream.move_of_ok {w : PooledStream} {source target : AggregatorId} {p : Pool}
    (h : w.pool.move source target = .ok p) :
    w.move source target = (.ok (), { w with pool := p }) := by
  unfold PooledStream.move
  rw [h]

/-! ### What the ledger says -/

namespace Ledger

variable {α : Type} {g : Ledger α} {l : LabelSet} {temporality : Temporality}

theorem contents_record_self (g : Ledger α) (l : LabelSet) (v : α) :
    (g.record l v).contents temporality (.live l) = g.contents temporality (.live l) ++ [v] := by
  simp [contents, record]

theorem contents_record_of_ne {r : Role} (v : α) (h : r ≠ .live l) :
    (g.record l v).contents temporality r = g.contents temporality r := by
  cases r with
  | live l' =>
    have hl : l' ≠ l := fun he => h (congrArg Role.live he)
    simp [contents, record, hl]
  | _ => rfl

end Ledger

/-! ### The maps and the threads when a thread settles -/

/-- A thread makes a candidate of an aggregator that was not there yet. -/
theorem Bound.prepare {role : AggregatorId → Role} {bindings : List Binding} {p q : Pool}
    (h : Bound role bindings p) (hnext : role p.next = .foreign)
    (hspares : p.Spares q (· = p.next)) {l : LabelSet} :
    Bound (Function.update role p.next (.candidate l)) (.prepared l p.next :: bindings) q := by
  constructor
  case candidates =>
    intro l' c
    by_cases hc : c = p.next
    · subst hc
      have hnone : bindings.count (.prepared l' p.next) = 0 := by
        rw [h.candidates, hnext, if_neg nofun]
      rw [List.count_cons, hnone, Function.update_self]
      simp
    · rw [List.count_cons_of_ne (by simp [Ne.symm hc]), Function.update_of_ne hc]
      exact h.candidates l' c
  case found =>
    intro l' i hi
    have hi : .looked l' (some i) ∈ bindings := by simpa using hi
    -- nobody has found an aggregator that was not there yet
    obtain ⟨hhas, hor⟩ := h.found hi
    have hlive : Function.update role p.next (.candidate l) i = .live l' ↔ role i = .live l' :=
      update_iff hnext nofun nofun
    refine ⟨hspares.has hhas, hor.imp hlive.mpr fun href => ?_⟩
    exact (hspares.references hhas hhas.ne_next).trans href

/-- A candidate becomes the live aggregator of a label set that has none, and its thread refers to
it. -/
theorem Mapped.place {role : AggregatorId → Role} {live : OrderedMap LabelSet AggregatorId}
    {held : List (LabelSet × AggregatorId)} {collector : Collector}
    (h : Mapped role live held collector) {l : LabelSet} {c : AggregatorId}
    (hc : role c = .candidate l) (hfree : ∀ i, role i ≠ .live l) :
    Mapped (Function.update role c (.live l)) (live.insert l c) ((l, c) :: held) collector := by
  have hlive : ∀ i l', Function.update role c (.live l) i = .live l'
      ↔ role i = .live l' ∨ (i = c ∧ l' = l) := by
    intro i l'
    by_cases hi : i = c
    · subst hi
      simp [hc, eq_comm]
    · simp [hi]
  have hretired : ∀ i l', Function.update role c (.live l) i = .retired l'
      ↔ role i = .retired l' := fun i l' => update_iff hc nofun nofun
  have hget : ∀ {l' i}, (live.insert l c).get? l' = some i
      ↔ (l' = l ∧ i = c) ∨ (l' ≠ l ∧ live.get? l' = some i) := by
    intro l' i
    rw [OrderedMap.get?_insert]
    split <;> simp_all [eq_comm]
  constructor
  case live_of_role =>
    intro i l' hi
    refine hget.mpr ?_
    rcases (hlive i l').mp hi with hi | ⟨rfl, rfl⟩
    · have hl : l' ≠ l := fun he => hfree i (he ▸ hi)
      exact Or.inr ⟨hl, h.live_of_role hi⟩
    · exact Or.inl ⟨rfl, rfl⟩
  case role_of_live =>
    intro l' i hi
    rcases hget.mp hi with ⟨rfl, rfl⟩ | ⟨-, hi⟩
    · exact Or.inl ((hlive i l').mpr (Or.inr ⟨rfl, rfl⟩))
    · exact (h.role_of_live hi).imp (fun hi => (hlive i l').mpr (Or.inl hi)) (hretired i l').mpr
  case holders =>
    intro l' i hi
    rcases List.mem_cons.mp hi with he | hi
    · obtain ⟨rfl, rfl⟩ := Prod.mk.inj he
      exact (hlive i l').mpr (Or.inr ⟨rfl, rfl⟩)
    · exact (hlive i l').mpr (Or.inl (h.holders hi))
  case retired_iff =>
    intro l' i
    exact h.retired_iff.trans (hretired i l').symm
  case tried =>
    intro l' i rest hi
    exact (hlive i l').mpr (Or.inl (h.tried hi))
  case removed =>
    intro l' i rest hcollector hi
    rcases hget.mp hi with ⟨rfl, rfl⟩ | ⟨-, hi⟩
    · -- what has been removed was retired, and was nobody's candidate
      have hret : role i = .retired l' := h.retired_iff.mp (by rw [hcollector]; rfl)
      rw [hc] at hret
      cases hret
    · exact h.removed hcollector hi
  case rest =>
    intro l' i hi
    exact (hlive i l').mpr (Or.inl (h.rest hi))
  case rest_nodup => exact h.rest_nodup

namespace Sound

variable {α : Type} [Recordable α] {isTotal : α → List α → Prop} {role : AggregatorId → Role}
  {t : Threads} {g : Ledger α}

theorem references_live_ne (h : Sound isTotal role t g) {i j : AggregatorId} {l : LabelSet}
    (hi : role i = .live l) (hj : j = i) : t.pool.references j ≠ .retired := by
  rw [hj, h.references_live hi]
  exact nofun

/-- Retired aggregators stay retired when only others are touched. -/
theorem bound_spares (h : Sound isTotal role t g) {touched : AggregatorId → Prop} {q : Pool}
    (hq : t.pool.Spares q touched) (ht : ∀ i, touched i → t.pool.references i ≠ .retired) :
    Bound role t.bindings q :=
  h.bound.congr (fun _ _ => Iff.rfl) (fun _ _ => Iff.rfl) hq.has fun hi href => by
    rwa [hq.references hi fun htouched => ht _ htouched href]

/-! ### Looking up -/

/-- **Looking up** changes no aggregator. -/
theorem look (h : Sound isTotal role t g) (l : LabelSet) :
    Sound isTotal role (t.step (.look l)) g :=
  { h with
    bound :=
      { candidates := fun l' c => by
          show (Binding.looked l _ :: t.bindings).count (.prepared l' c) = _
          rw [List.count_cons_of_ne (by simp), h.bound.candidates]
        found := fun {l' i} hi => by
          rcases List.mem_cons.mp hi with he | hi
          · obtain ⟨rfl, he⟩ := Binding.looked.inj he
            -- the entry that is found may be one that the collection is about to remove
            rcases h.mapped.role_of_live he.symm with hr | hr
            · exact ⟨h.has (by simp [hr]), Or.inl hr⟩
            · exact ⟨h.has (by simp [hr]), Or.inr (h.references_retired hr)⟩
          · exact h.bound.found hi } }

/-- A thread goes on from what it has found. -/
theorem erase_looked (h : Sound isTotal role t g) (l : LabelSet) (found : Option AggregatorId) :
    Sound isTotal role { t with bindings := t.bindings.erase (.looked l found) } g :=
  { h with bound := h.bound.erase_looked l found }

/-! ### References -/

/-- Other references to a live aggregator are held, and its count says how many. -/
theorem refer (h : Sound isTotal role t g) {i : AggregatorId} {l : LabelSet} (hi : role i = .live l)
    (held : List (LabelSet × AggregatorId)) (hheld : ∀ {l' j}, (l', j) ∈ held → role j = .live l')
    (hcount : ∀ l' j, j ≠ i → held.count (l', j) = t.held.count (l', j)) :
    Sound isTotal role { t with
      accumulation := { t.accumulation with
        pool := t.pool.setReferences i (.held (held.count (l, i))) }
      held := held } g := by
  constructor
  case valueType => exact h.valueType
  case unfailing => exact h.unfailing
  case mapped => exact { h.mapped with holders := hheld }
  case window_iff => exact h.window_iff
  case bound => exact h.bound_spares (.setReferences _ i _) fun j => h.references_live_ne hi
  case fits =>
    intro j hj
    have hfits := h.fits j hj
    by_cases hji : j = i
    · subst hji
      refine ⟨Pool.has_setReferences.mpr hfits.has, ?_, ?_⟩
      · rw [hi]
        exact Pool.references_setReferences_self hfits.has
      · show Aggregator.Holds _ _ (Pool.get (t.pool.setReferences j _) j) _
        rw [Pool.get_setReferences]
        exact hfits.holds
    · exact hfits.congr (Pool.has_setReferences.mpr hfits.has)
        (Pool.cell_setReferences_of_ne hji) (fun l' => hcount l' j hji) rfl
  case vacant => exact h.vacant

/-- One more reference to a live aggregator. -/
theorem acquire (h : Sound isTotal role t g) {i : AggregatorId} {l : LabelSet}
    (hi : role i = .live l) {n : Nat} (hn : t.pool.references i = .held n) :
    Sound isTotal role { t with
      accumulation := { t.accumulation with pool := t.pool.setReferences i (.held (n + 1)) }
      held := (l, i) :: t.held } g := by
  have hmore := h.refer hi ((l, i) :: t.held)
    (fun {l' j} hj => by
      rcases List.mem_cons.mp hj with he | hj
      · obtain ⟨rfl, rfl⟩ := Prod.mk.inj he
        exact hi
      · exact h.mapped.holders hj)
    (fun l' j hji => List.count_cons_of_ne fun he => hji (Prod.mk.inj he).2.symm)
  rwa [List.count_cons_self, ← References.held.inj (hn.symm.trans (h.references_live hi))] at hmore

/-- **Releasing** gives one reference back. -/
theorem release (h : Sound isTotal role t g) (l : LabelSet) (i : AggregatorId) :
    Sound isTotal role (t.step (.release l i)) g ∧
      Advances role role t.accumulation (t.step (.release l i)).accumulation := by
  by_cases hheld : (l, i) ∈ t.held
  swap
  · unfold Threads.step
    simp only [if_neg hheld]
    exact ⟨h, .refl role _⟩
  have hi := h.mapped.holders hheld
  have hless := h.refer hi (t.held.erase (l, i))
    (fun hj => h.mapped.holders (List.mem_of_mem_erase hj))
    (fun l' j hji => List.count_erase_of_ne fun he => hji (Prod.mk.inj he).2)
  have hrelease : (Accumulation.release i t.accumulation).2 = { t.accumulation with
      pool := t.pool.setReferences i (.held ((t.held.erase (l, i)).count (l, i))) } := by
    have href : (t.pool.references i).release = .held ((t.held.erase (l, i)).count (l, i)) := by
      rw [h.references_live hi, List.count_erase_self]
      rfl
    rw [← href]
    rfl
  rw [Threads.step_release hheld, hrelease]
  exact ⟨hless, .of_spares (.setReferences _ i _) (fun _ => plays hi nofun) rfl⟩

/-! ### Recording -/

/-- One more value in a live aggregator. -/
theorem push (h : Sound isTotal role t g) {i : AggregatorId} {l : LabelSet} (hi : role i = .live l)
    {a : Aggregator} {v : α} {entries : List (LabelSet × Scalar)}
    (ha : Aggregator.Holds isTotal t.stream.shape a
      (g.contents t.stream.temporality (.live l) ++ [v])) :
    Sound isTotal role { t with
      accumulation := { t.accumulation with pool := t.pool.set i a }
      recorded := entries } (g.record l v) := by
  constructor
  case valueType => exact h.valueType
  case unfailing => exact h.unfailing
  case mapped => exact h.mapped
  case window_iff => exact h.window_iff
  case bound => exact h.bound_spares (.set _ i _) fun j => h.references_live_ne hi
  case fits =>
    intro j hj
    have hfits := h.fits j hj
    by_cases hji : j = i
    · subst hji
      refine ⟨Pool.has_set.mpr hfits.has, ?_, ?_⟩
      · show Role.Allows t.held j (Pool.references (t.pool.set j a) j) (role j)
        rw [Pool.references_set]
        exact hfits.references
      · show Aggregator.Holds _ _ (Pool.get (t.pool.set j a) j) _
        rw [Pool.get_set_self hfits.has, hi, Ledger.contents_record_self]
        exact ha
    · have hne : role j ≠ .live l := fun hl => hji (h.mapped.unique hl hi)
      exact hfits.congr (Pool.has_set.mpr hfits.has) (Pool.cell_set_of_ne hji) (fun _ => rfl)
        (Ledger.contents_record_of_ne v hne)
  case vacant =>
    intro r hr
    have hne : r ≠ .live l := fun he => hr i (hi.trans he.symm)
    rw [Ledger.contents_record_of_ne v hne]
    exact h.vacant r hr

/-- **Recording** appends the value to those of the label set, unless it is refused. -/
theorem record (hadd : AddsUp isTotal) (h : Sound isTotal role t g) (l : LabelSet)
    (i : AggregatorId) (value : Scalar) :
    Sound isTotal role (t.step (.record l i value)) (g.follow t (.record l i value)) ∧
      Advances role role t.accumulation (t.step (.record l i value)).accumulation := by
  unfold Threads.step Ledger.follow
  by_cases hheld : (l, i) ∈ t.held
  swap
  · simp only [if_neg hheld]
    exact ⟨h, .refl role _⟩
  simp only [if_pos hheld]
  cases hp : t.pool.record i value with
  | error e =>
    rw [Accumulation.record_of_error hp]
    exact ⟨h, .refl role _⟩
  | ok p =>
    have hi := h.mapped.holders hheld
    obtain ⟨a, ha, rfl⟩ := Pool.record_eq_ok hp
    obtain ⟨v, hv, hholds⟩ := (h.holds hi nofun).record hadd ha
    rw [Accumulation.record_of_ok hp]
    simp only [hv]
    exact ⟨h.push hi hholds, .of_spares (.set _ i a) (fun _ => plays hi nofun) rfl⟩

/-! ### Candidates -/

/-- A new aggregator holds nothing. -/
theorem holds_fresh (hadd : AddsUp isTotal) (h : Sound isTotal role t g) :
    Aggregator.Holds isTotal t.stream.shape
      (Pool.get (t.pool.add t.stream.freshAggregator) t.pool.next) [] := by
  have hfresh : Pool.get (t.pool.add t.stream.freshAggregator) t.pool.next
      = Aggregator.fresh t.stream.shape (Recordable.valueType α) := by
    rw [Pool.get_add_next, ← h.valueType]
    rfl
  rw [hfresh]
  exact Aggregator.Holds.fresh hadd t.stream.shape

/-- A new aggregator for a thread that has found none to refer to. -/
theorem prepare (hadd : AddsUp isTotal) (h : Sound isTotal role t g) (l : LabelSet) :
    Sound isTotal (Function.update role t.pool.next (.candidate l)) { t with
      accumulation := { t.accumulation with
        pool := (t.pool.add t.stream.freshAggregator).setReferences t.pool.next (.held 1) }
      bindings := .prepared l t.pool.next :: t.bindings } g := by
  have hnext := h.foreign_next
  have hspares : t.pool.Spares
      ((t.pool.add t.stream.freshAggregator).setReferences t.pool.next (.held 1))
      (· = t.pool.next) := Pool.Spares.add.trans (.setReferences _ _ _)
  refine h.change hnext rfl rfl ?mapped ?window (h.bound.prepare hnext hspares) (fun _ => ?self)
    (fun j hj hfits => ?others) rfl fun _ _ _ _ => rfl
  case mapped =>
    exact h.mapped.congr (fun _ _ => update_iff hnext nofun nofun)
      fun _ _ => update_iff hnext nofun nofun
  case window => exact h.window_update hnext (fun _ => nofun) fun _ => nofun
  case self =>
    -- the new aggregator has one reference, and nothing in it
    have hhas : (t.pool.add t.stream.freshAggregator).Has t.pool.next :=
      Pool.has_add.mpr (Or.inr rfl)
    refine ⟨Pool.has_setReferences.mpr hhas, Pool.references_setReferences_self hhas, ?_⟩
    show Aggregator.Holds _ _ (Pool.get (Pool.setReferences _ _ _) _) []
    rw [Pool.get_setReferences]
    exact h.holds_fresh hadd
  case others =>
    exact hfits.congr (hspares.has hfits.has) (hspares.cell hfits.has hj) (fun _ => rfl) rfl

/-- A candidate takes the place of its label set when there is no live aggregator that can be
referred to. -/
theorem place (h : Sound isTotal role t g) {l : LabelSet} {c : AggregatorId}
    (hc : .prepared l c ∈ t.bindings)
    (hnone : ∀ i, t.live.get? l = some i → t.pool.references i = .retired) :
    Sound isTotal (Function.update role c (.live l)) { t with
      accumulation := { t.accumulation with live := t.live.insert l c }
      bindings := t.bindings.erase (.prepared l c)
      held := (l, c) :: t.held } g := by
  have hrole := h.bound.candidate_iff.mp hc
  -- a live aggregator could be referred to
  have hfree : ∀ i, role i ≠ .live l := by
    intro i hi
    have href := hnone i (h.mapped.live_of_role hi)
    rw [h.references_live hi] at href
    cases href
  refine h.change hrole rfl rfl (h.mapped.place hrole hfree) ?window
    (h.bound.erase_prepared hrole fun _ => nofun) (fun _ => ?self) (fun j hj hfits => ?others) rfl
    fun _ _ _ _ => rfl
  case window => exact h.window_update hrole (fun _ => nofun) fun _ => nofun
  case self =>
    have hfits := h.fits c (by simp [hrole])
    -- the reference of its own thread is the only one
    have hnot : (l, c) ∉ t.held := by
      intro hheld
      have hlive := h.mapped.holders hheld
      rw [hrole] at hlive
      cases hlive
    rw [hrole] at hfits
    refine ⟨hfits.has, ?_, ?_⟩
    · show _ = References.held (List.count _ (_ :: _))
      rw [List.count_cons_self, List.count_eq_zero.mpr hnot]
      exact hfits.references
    · rw [h.vacant (.live l) hfree]
      exact hfits.holds
  case others =>
    exact hfits.congr hfits.has rfl
      (fun l' => List.count_cons_of_ne fun he => hj (Prod.mk.inj he).2.symm) rfl

/-- A candidate is given up for the live aggregator of its label set. -/
theorem join (h : Sound isTotal role t g) {l : LabelSet} {i c : AggregatorId} {q : Pool}
    (hc : .prepared l c ∈ t.bindings) (hi : role i = .live l)
    (hspares : t.pool.Spares q fun j => j = c ∨ j = i)
    (hi' : q.references i = t.pool.references i)
    (hholds : Aggregator.Holds isTotal t.stream.shape (q.get i)
      (g.contents t.stream.temporality (.live l))) :
    Sound isTotal (Function.update role c .foreign) { t with
      accumulation := { t.accumulation with pool := q }
      bindings := t.bindings.erase (.prepared l c) } g := by
  have hrole := h.bound.candidate_iff.mp hc
  have htouched : ∀ k, (k = c ∨ k = i) → t.pool.references k ≠ .retired := by
    rintro k (rfl | rfl)
    · have href := (h.fits k (by simp [hrole])).references
      rw [hrole] at href
      rw [href]
      exact nofun
    · exact h.references_live_ne hi rfl
  refine h.change hrole rfl rfl ?mapped ?window
    ((h.bound_spares hspares htouched).erase_prepared hrole fun _ => nofun)
    (fun hf => absurd rfl hf) (fun j hj hfits => ?others) rfl fun _ _ _ _ => rfl
  case mapped =>
    exact h.mapped.congr (fun _ _ => update_iff hrole nofun nofun)
      fun _ _ => update_iff hrole nofun nofun
  case window => exact h.window_update hrole (fun _ => nofun) fun _ => nofun
  case others =>
    by_cases hji : j = i
    · -- it was added to, but what it holds is said by the same list
      subst hji
      refine ⟨hspares.has hfits.has, ?_, ?_⟩
      · show Role.Allows t.held j (q.references j) (role j)
        rw [hi']
        exact hfits.references
      · rw [hi]
        exact hholds
    · exact hfits.congr (hspares.has hfits.has)
        (hspares.cell hfits.has (not_or.mpr ⟨hj, hji⟩)) (fun _ => rfl) rfl

/-! ### Moving -/

/-- **Moving** an aggregator into one of another role: what the role of the first has goes to the
second, after what that had already. -/
theorem move (hadd : AddsUp isTotal) (h : Sound isTotal role t g) {i j : AggregatorId}
    {source target : Role} (hi : role i = source) (hj : role j = target)
    (hs : source ≠ .foreign) (ht : target ≠ .foreign) (hne : source ≠ target) :
    ∃ q, t.pool.move i j = .ok q ∧
      Aggregator.Holds isTotal t.stream.shape (q.get i) [] ∧
      Aggregator.Holds isTotal t.stream.shape (q.get j)
        (g.contents t.stream.temporality target ++ g.contents t.stream.temporality source) ∧
      (∀ k, q.references k = t.pool.references k) ∧
      (t.pool.Spares q fun k => k = i ∨ k = j) ∧ ∀ k, k = i ∨ k = j → role k ≠ .foreign := by
  have hsource := h.holds hi hs
  have htarget := h.holds hj ht
  have herror := hsource.mergeError? htarget t.stream.shape.alike_refl
  obtain ⟨q, hmove, hqi, hqj, hreferences, hspares⟩ := Pool.move_of_ne (ne_of_role_ne hi hj hne)
    (h.has (hi ▸ hs)) (h.has (hj ▸ ht)) herror
  refine ⟨q, hmove, ?_, ?_, hreferences, hspares, fun k hk => hk.elim (plays hi hs) (plays hj ht)⟩
  · rw [hqi]
    exact hsource.emptied hadd
  · rw [hqj]
    exact htarget.absorb hadd hsource t.stream.shape.alike_refl

/-! ### Binding -/

/-- **The first half of binding** takes a reference to what was found if that is still live, and
makes a candidate if not. -/
theorem advance_looked (hadd : AddsUp isTotal) (h : Sound isTotal role t g) {l : LabelSet}
    {found : Option AggregatorId} (hb : ∀ i, found = some i → .looked l (some i) ∈ t.bindings) :
    (∃ i a, (Binding.looked l found).advance t.accumulation = (.ok (.inr i), a) ∧
      Sound isTotal role { t with accumulation := a, held := (l, i) :: t.held } g ∧
      Advances role role t.accumulation a) ∨
    (∃ c a role', (Binding.looked l found).advance t.accumulation
        = (.ok (.inl (.prepared l c)), a) ∧
      Sound isTotal role' { t with accumulation := a, bindings := .prepared l c :: t.bindings } g ∧
      Advances role role' t.accumulation a) := by
  cases hf : found.bind fun i => (t.pool.acquire? i).map fun p => (i, p) with
  | some x =>
    obtain ⟨i, hi, hx⟩ := Option.bind_eq_some_iff.mp hf
    obtain ⟨p, hp, rfl⟩ := Option.map_eq_some_iff.mp hx
    obtain ⟨n, hn, rfl⟩ := Pool.acquire?_eq_some hp
    -- a retired aggregator would not have given a reference
    have hrole : role i = .live l := by
      rcases (h.bound.found (hb i hi)).2 with hrole | href
      · exact hrole
      · rw [hn] at href
        cases href
    refine Or.inl ⟨i, _, ?_, h.acquire hrole hn, ?_⟩
    · unfold Binding.advance
      have hf' : (found.bind fun i => (t.accumulation.pool.acquire? i).map fun p => (i, p))
        = some _ := hf
      simp only [bind_apply, get_apply, hf', set_apply, pure_apply]
    · exact .of_spares (.setReferences _ i _) (fun _ => plays hrole nofun) rfl
  | none =>
    refine Or.inr ⟨t.pool.next, _, _, ?_, h.prepare hadd l, ?_⟩
    · unfold Binding.advance
      have hf' : (found.bind fun i => (t.accumulation.pool.acquire? i).map fun p => (i, p))
        = none := hf
      simp only [bind_apply, get_apply, hf', Accumulation.candidate_eq, pure_apply]
      rfl
    · refine ⟨?_, fun {i} hhas hi => ?_, rfl⟩
      · refine (Pool.Spares.add.trans (.setReferences _ _ _)).mono fun hhas hi => ?_
        exact absurd (hi ▸ hhas) t.pool.not_has_next
      · have hne : i ≠ t.pool.next := hhas.ne_next
        rw [Function.update_of_ne hne, hi]

/-- **The second half of binding** ends with a reference to the live aggregator of the label set,
which is the candidate if there was none. -/
theorem advance_prepared (hadd : AddsUp isTotal) (h : Sound isTotal role t g) {l : LabelSet}
    {c : AggregatorId} (hc : .prepared l c ∈ t.bindings) :
    ∃ i a role', Accumulation.settle l c t.accumulation = (.ok i, a) ∧
      Sound isTotal role' { t with
        accumulation := a
        bindings := t.bindings.erase (.prepared l c)
        held := (l, i) :: t.held } g ∧
      Advances role role' t.accumulation a := by
  have hrole := h.bound.candidate_iff.mp hc
  cases hl : t.accumulation.acquireLive? l with
  | none =>
    refine ⟨c, _, _, Accumulation.settle_of_none hl,
      h.place hc (Accumulation.acquireLive?_eq_none hl), ⟨.refl _, fun _ hi => ?_, rfl⟩⟩
    exact update_foreign hrole nofun hi
  | some x =>
    obtain ⟨i, a⟩ := x
    obtain ⟨hget, n, hn, rfl⟩ := Accumulation.acquireLive?_eq_some hl
    -- nor would a retired one that is still in the live map
    have hi : role i = .live l := by
      rcases h.mapped.role_of_live hget with hi | hi
      · exact hi
      · have href := h.references_retired hi
        rw [show t.pool.references i = _ from hn] at href
        cases href
    have hic : i ≠ c := ne_of_role_ne hi hrole nofun
    have h1 := h.acquire hi hn
    obtain ⟨q, hmove, -, htarget, hreferences, hmoved, hplays⟩ :=
      h1.move hadd hrole hi nofun nofun nofun
    have hspares : (t.pool.setReferences i (.held (n + 1))).Spares (q.release c)
        fun j => j = c ∨ j = i :=
      hmoved.trans ((Pool.Spares.setReferences _ c _).mono fun _ => Or.inl)
    have href : (q.release c).references i
        = (t.pool.setReferences i (.held (n + 1))).references i := by
      unfold Pool.release
      rw [Pool.references_setReferences_of_ne hic]
      exact hreferences i
    have hholds : Aggregator.Holds isTotal t.stream.shape ((q.release c).get i)
        (g.contents t.stream.temporality (.live l)) := by
      unfold Pool.release
      rw [Pool.get_setReferences]
      -- the candidate holds nothing, so the live aggregator holds what it held before
      rwa [show g.contents _ (.candidate l) = [] from rfl, List.append_nil] at htarget
    refine ⟨i, _, _, Accumulation.settle_of_some hl (PooledStream.move_of_ok hmove),
      h1.join hc hi hspares href hholds, ⟨?_, fun {j} _ hj => ?_, rfl⟩⟩
    · exact Pool.Spares.mono (((Pool.Spares.setReferences _ i _).mono fun _ => Or.inr).trans
        hspares) fun _ hk => hplays _ hk
    · exact update_foreign hrole nofun hj

/-- **Binding** goes on by one step. -/
theorem bind (hadd : AddsUp isTotal) (h : Sound isTotal role t g) (b : Binding) :
    ∃ role', Sound isTotal role' (t.step (.bind b)) g ∧
      Advances role role' t.accumulation (t.step (.bind b)).accumulation := by
  by_cases hb : b ∈ t.bindings
  swap
  · unfold Threads.step
    simp only [if_neg hb]
    exact ⟨role, h, .refl role _⟩
  cases b with
  | looked l found =>
    have hfound : ∀ i, found = some i → .looked l (some i) ∈ t.bindings := by
      rintro i rfl
      exact hb
    rcases h.advance_looked hadd hfound with ⟨i, a, he, hs, hadv⟩ | ⟨c, a, role', he, hs, hadv⟩
    · rw [Threads.step_bind_done hb he]
      exact ⟨role, hs.erase_looked l found, hadv⟩
    · have herase : (Binding.prepared l c :: t.bindings).erase (.looked l found)
          = .prepared l c :: t.bindings.erase (.looked l found) :=
        List.erase_cons_tail (by simp)
      have hs' := hs.erase_looked l found
      rw [herase] at hs'
      rw [Threads.step_bind_on hb he]
      exact ⟨role', hs', hadv⟩
  | prepared l c =>
    obtain ⟨i, a, role', he, hs, hadv⟩ := h.advance_prepared hadd hb
    have he' : (Binding.prepared l c).advance t.accumulation = (.ok (.inr i), a) := by
      unfold Binding.advance
      simp only [bind_apply, he, pure_apply]
    rw [Threads.step_bind_done hb he']
    exact ⟨role', hs, hadv⟩

end Sound

end Metering
