import Metering.Proofs.Pipeline.Uses

/-!
# Systems that cannot be told apart

Two systems are twins if all their instruments have the same outlook, and the second one has the
handles of the first, perhaps under other references.  If the same is done in both they stay twins,
and each of their collections gives the same points (`Twins.samePoints`).

The second system may have one handle more than the first, which may be released at any time
(`Twins.release`).  They are twins then after any run of uses (`Twins.run`).
-/

namespace Metering

open Fallible SystemM

variable {σ : Type}

/-! ### One handle more -/

/-- The reference of a component in a table that has one more component at `n`. -/
def Ref.past {c : Component} (n q : Ref c) : Ref c :=
  if q.index < n.index then q else ⟨q.index + 1⟩

namespace Ref

variable {c : Component} {n q q' : Ref c}

theorem past_ne (n q : Ref c) : n.past q ≠ n := by
  obtain ⟨n⟩ := n
  obtain ⟨q⟩ := q
  unfold past
  dsimp only
  split <;> rw [ne_eq, Ref.mk.injEq] <;> omega

theorem past_inj : n.past q = n.past q' ↔ q = q' := by
  obtain ⟨n⟩ := n
  obtain ⟨q⟩ := q
  obtain ⟨q'⟩ := q'
  unfold past
  dsimp only
  split <;> split <;> simp only [Ref.mk.injEq] <;> omega

end Ref

/-- What can be told from a handle: its instrument, and whether it is released. -/
def Handle.grip (x : Handle) : Ref .instrument × Bool := (x.instrument, x.released)

/-- The second table has the handles of the first one under other references, and the references
that are not in use yet correspond to each other; and they are bound to the same label sets. -/
structure Aligned (f : Ref .handle → Ref .handle) (t t' : Table .handle Handle)
    (bound bound' : List (Ref .handle × LabelSet)) : Prop where
  handles : ∀ q, (t'.get? (f q)).map Handle.grip = (t.get? q).map Handle.grip
  labels : ∀ {q l}, (q, l) ∈ bound → (f q, l) ∈ bound'
  inj : ∀ {q q'}, f q = f q' ↔ q = q'
  unused : ∀ k, f ⟨t.next.index + k⟩ = ⟨t'.next.index + k⟩

namespace Aligned

variable {f : Ref .handle → Ref .handle} {q : Ref .handle} {t t' : Table .handle Handle}
  {bound bound' : List (Ref .handle × LabelSet)} {x x' y y' : Handle}

theorem next (h : Aligned f t t' bound bound') : f t.next = t'.next := h.unused 0

/-- A table with itself. -/
theorem refl (t : Table .handle Handle) (bound : List (Ref .handle × LabelSet)) :
    Aligned id t t bound bound := ⟨fun _ => rfl, id, Iff.rfl, fun _ => rfl⟩

/-- A table with a new handle. -/
theorem start {s : System σ} (h : Handled s bound) (x : Handle) (l? : Option LabelSet) :
    Aligned s.handles.next.past s.handles (s.handles.add x) bound
      ((l?.map (s.handles.next, ·)).toList ++ bound) := by
  have hold : ∀ {q x}, s.handles.get? q = some x → s.handles.next.past q = q := fun hq =>
    if_pos (Array.getElem?_eq_some_iff.mp hq).1
  constructor
  case handles =>
    intro q
    rw [Table.get?_add, if_neg (Ref.past_ne _ q)]
    cases hq : s.handles.get? q with
    | some y => rw [hold hq, hq]
    | none =>
      have hsize : s.handles.next.index ≤ q.index := Array.getElem?_eq_none_iff.mp hq
      unfold Ref.past
      rw [if_neg (Nat.not_lt.mpr hsize)]
      exact congrArg _ (Array.getElem?_eq_none_iff.mpr (Nat.le_succ_of_le hsize))
  case labels =>
    intro q l hl
    obtain ⟨y, hy⟩ := h.present _ hl
    rw [hold hy]
    exact List.mem_append_right _ hl
  case inj => exact Ref.past_inj
  case unused =>
    intro k
    have hsize : (s.handles.add x).next.index = s.handles.next.index + 1 := Array.size_push x
    rw [hsize, Nat.add_right_comm]
    exact if_neg (Nat.not_lt.mpr (Nat.le_add_right _ k))

/-- A new handle in both tables. -/
theorem add (h : Aligned f t t' bound bound') (hx : x'.grip = x.grip) (l? : Option LabelSet) :
    Aligned f (t.add x) (t'.add x') ((l?.map (t.next, ·)).toList ++ bound)
      ((l?.map (t'.next, ·)).toList ++ bound') := by
  have hnext := h.next
  have hsize : ∀ (t : Table .handle Handle) x, (t.add x).next.index = t.next.index + 1 :=
    fun t x => Array.size_push x
  constructor
  case handles =>
    intro q
    rw [Table.get?_add, Table.get?_add, ← hnext]
    simp only [h.inj]
    split
    · exact congrArg some hx
    · exact h.handles q
  case labels =>
    intro q l hl
    cases l? with
    | none => exact h.labels hl
    | some l' =>
      rcases List.mem_cons.mp hl with he | hl
      · obtain ⟨rfl, rfl⟩ := Prod.mk.inj he
        rw [hnext]
        exact List.mem_cons_self
      · exact List.mem_cons_of_mem _ (h.labels hl)
  case inj => exact h.inj
  case unused =>
    intro k
    rw [hsize, hsize, Nat.add_assoc, Nat.add_assoc]
    exact h.unused (1 + k)

/-- The handles of one reference change in both tables. -/
theorem set (h : Aligned f t t' bound bound') (hx : t.get? q = some x)
    (hx' : t'.get? (f q) = some x') (hy : y'.grip = y.grip) :
    Aligned f (t.set q y) (t'.set (f q) y') bound bound' := by
  have hsize : ∀ (t : Table .handle Handle) q y, (t.set q y).next.index = t.next.index :=
    fun _ _ _ => Array.size_setIfInBounds
  refine ⟨fun p => ?_, h.labels, h.inj, fun k => ?_⟩
  · rw [Table.get?_set _ hx, Table.get?_set _ hx']
    simp only [h.inj]
    split
    · exact congrArg some hy
    · exact h.handles p
  · rw [hsize, hsize]
    exact h.unused k

/-- A handle that only the second table has changes. -/
theorem set_foreign (h : Aligned f t t' bound bound') {n : Ref .handle} (hn : ∀ q, f q ≠ n)
    (hx' : t'.get? n = some x') : Aligned f t (t'.set n y') bound bound' := by
  refine ⟨fun p => ?_, h.labels, h.inj, fun k => ?_⟩
  · rw [Table.get?_set _ hx', if_neg (hn p)]
    exact h.handles p
  · rw [show (t'.set n y').next.index = t'.next.index from Array.size_setIfInBounds]
    exact h.unused k

/-- The handle of the second table for one of the first. -/
theorem get? (h : Aligned f t t' bound bound') (hx : t.get? q = some x) :
    ∃ x', t'.get? (f q) = some x' ∧ x'.instrument = x.instrument ∧
      x'.released = x.released := by
  have hgrip := h.handles q
  rw [hx, Option.map_some, Option.map_eq_some_iff] at hgrip
  obtain ⟨x', hx', hgrip⟩ := hgrip
  exact ⟨x', hx', Prod.mk.inj hgrip⟩

/-- A handle of the second table is missing or released if that of the first is. -/
theorem closed (h : Aligned f t t' bound bound') (hx : ∀ x ∈ t.get? q, x.released = true) :
    ∀ x' ∈ t'.get? (f q), x'.released = true := by
  intro x' hx'
  have hgrip := h.handles q
  rw [hx', Option.map_some, eq_comm, Option.map_eq_some_iff] at hgrip
  obtain ⟨x, hx₀, hgrip⟩ := hgrip
  rw [← (Prod.mk.inj hgrip).2]
  exact hx x hx₀

end Aligned

/-! ### Twins -/

/-- The two systems cannot be told apart by collecting instruments; observers that are collected
have callbacks that only ever observe. -/
inductive Twins (f : Ref .handle → Ref .handle) (collected : Ref .instrument → Prop)
    (s s' : System σ) : Prop
  | of {bound bound' : List (Ref .handle × LabelSet)}
      {role role' : Ref .instrument → AggregatorId → Role} (orderly : Orderly s bound role)
      (orderly' : Orderly s' bound' role') (outlook : ∀ r, s'.outlook? r = s.outlook? r)
      (calm : ∀ r, collected r → ∀ P ∈ s.portrait? r, P.IsCalm)
      (clocks : s'.clocks = s.clocks) (aligned : Aligned f s.handles s'.handles bound bound')

/-- The effect on a portrait keeps apart only what can be told apart. -/
structure Portrait.Respects (f : Portrait σ → Portrait σ) : Prop where
  outlook : ∀ {P P'}, P.outlook = P'.outlook → (f P).outlook = (f P').outlook
  calm : ∀ {P}, P.IsCalm → (f P).IsCalm

namespace Portrait

theorem noted_respects (l : LabelSet) (v : Scalar) :
    Respects (σ := σ) (Portrait.noted l · v) where
  outlook h := outlook_touched (Cell.aggregator_recorded · v) h l
  calm h := h.touched l _

theorem told_respects (labels : LabelArgument) (v : Scalar) :
    Respects (σ := σ) (Portrait.told labels v) where
  outlook h := by
    unfold told
    cases LabelSet.create labels with
    | ok l => exact (noted_respects l v).outlook h
    | error e => exact h
  calm h := by
    unfold told
    cases LabelSet.create labels with
    | ok l => exact (noted_respects l v).calm h
    | error e => exact h

theorem collected_respects (time : Int) :
    Respects (σ := σ) fun P => (P.collected time).2 where
  outlook h := outlook_collected h time
  calm h := h.collected time

end Portrait

namespace System

variable {s s' : System σ} {r : Ref .instrument}

/-- Portraits with the same outlook. -/
theorem portrait?_of_outlook? (h : s'.outlook? r = s.outlook? r) :
    (s.portrait? r = none ∧ s'.portrait? r = none) ∨
      ∃ P P', s.portrait? r = some P ∧ s'.portrait? r = some P' ∧ P'.outlook = P.outlook := by
  unfold outlook? at h
  cases hP : s.portrait? r with
  | none =>
    rw [hP, Option.map_none, Option.map_eq_none_iff] at h
    exact .inl ⟨rfl, h⟩
  | some P =>
    rw [hP, Option.map_some, Option.map_eq_some_iff] at h
    obtain ⟨P', hP', h⟩ := h
    exact .inr ⟨P, P', rfl, hP', h⟩

theorem calm_of_outlook? (h : s'.outlook? r = s.outlook? r)
    (hcalm : ∀ P ∈ s.portrait? r, P.IsCalm) : ∀ P ∈ s'.portrait? r, P.IsCalm := by
  intro P' hP'
  obtain ⟨-, hnone⟩ | ⟨P, P'', hP, hP'', houtlook⟩ := portrait?_of_outlook? h
  · rw [hnone] at hP'
    exact absurd hP' (Option.not_mem_none P')
  · obtain rfl := Option.some.inj (hP''.symm.trans hP')
    exact (hcalm P hP).of_outlook houtlook.symm

/-- If the instrument of a handle records, so does one with the same outlook. -/
theorem Labels.of_outlook? {bound bound' : List (Ref .handle × LabelSet)} {q q' : Ref .handle}
    {l : LabelSet} (h : s.Labels bound q r l) (houtlook : s'.outlook? r = s.outlook? r)
    (hbound : (q, l) ∈ bound → (q', l) ∈ bound') : s'.Labels bound' q' r l := by
  intro P' hP' live hlive
  obtain ⟨-, hnone⟩ | ⟨P, P'', hP, hP'', houtlook⟩ := portrait?_of_outlook? houtlook
  · rw [hnone] at hP'
    exact absurd hP' (Option.not_mem_none P')
  · obtain rfl := Option.some.inj (hP''.symm.trans hP')
    rw [Portrait.instrument_of_outlook houtlook] at hlive
    exact hbound (h P hP live hlive)

/-- Handles of instruments with the same outlook are bound alike. -/
theorem binding?_of_outlook? (h : s'.outlook? r = s.outlook? r) (labels : LabelArgument) :
    (s'.portrait? r).bind (Portrait.binding? labels)
      = (s.portrait? r).bind (Portrait.binding? labels) := by
  obtain ⟨hP, hP'⟩ | ⟨P, P', hP, hP', houtlook⟩ := portrait?_of_outlook? h
  · rw [hP, hP']
  · rw [hP, hP', Option.bind_some, Option.bind_some]
    unfold Portrait.binding?
    rw [Portrait.instrument_of_outlook houtlook]

end System

namespace Twins

variable {f : Ref .handle → Ref .handle} {collected : Ref .instrument → Prop}
  {s s' s₁ s₁' : System σ} {bound bound' bound₁ bound₁' : List (Ref .handle × LabelSet)}
  {role role' role₁ role₁' : Ref .instrument → AggregatorId → Role} {r : Ref .instrument}

/-- Two systems are twins again after an action on one instrument in each. -/
theorem acted (orderly : Orderly s bound role) (orderly' : Orderly s' bound' role')
    (houtlook : ∀ r, s'.outlook? r = s.outlook? r)
    (hcalm : ∀ r, collected r → ∀ P ∈ s.portrait? r, P.IsCalm) (hclocks : s'.clocks = s.clocks)
    (hacted : Acted s s₁ bound bound₁ role role₁ r)
    (hacted' : Acted s' s₁' bound' bound₁' role' role₁' r)
    (hr : s₁'.outlook? r = s₁.outlook? r) (hcalmr : collected r → ∀ P ∈ s₁.portrait? r, P.IsCalm)
    (haligned : Aligned f s₁.handles s₁'.handles bound₁ bound₁') : Twins f collected s₁ s₁' := by
  refine .of hacted.orderly hacted'.orderly (fun q => ?_) (fun q hcollected => ?_) ?_ haligned
  · by_cases hq : q = r
    · rw [hq, hr]
    · have hsame := houtlook q
      unfold System.outlook? at *
      rw [orderly.portrait_of_ne hacted.changed hq, orderly'.portrait_of_ne hacted'.changed hq,
        hsame]
  · by_cases hq : q = r
    · subst hq
      exact hcalmr hcollected
    · rw [orderly.portrait_of_ne hacted.changed hq]
      exact hcalm q hcollected
  · rw [hacted.changed.rest.clocks, hacted'.changed.rest.clocks, hclocks]

/-- Two systems are twins again after an action that had the same effect in each. -/
theorem worked (orderly : Orderly s bound role) (orderly' : Orderly s' bound' role')
    (houtlook : ∀ r, s'.outlook? r = s.outlook? r)
    (hcalm : ∀ r, collected r → ∀ P ∈ s.portrait? r, P.IsCalm) (hclocks : s'.clocks = s.clocks)
    {effect : Portrait σ → Portrait σ} (heffect : Portrait.Respects effect)
    (hacted : Acted s s₁ bound bound₁ role role₁ r)
    (hacted' : Acted s' s₁' bound' bound₁' role' role₁' r)
    (hr : s₁.portrait? r = (s.portrait? r).map effect)
    (hr' : s₁'.portrait? r = (s'.portrait? r).map effect)
    (haligned : Aligned f s₁.handles s₁'.handles bound₁ bound₁') : Twins f collected s₁ s₁' := by
  refine acted orderly orderly' houtlook hcalm hclocks hacted hacted' ?_ (fun hcollected => ?_)
    haligned
  · unfold System.outlook?
    rw [hr, hr']
    obtain ⟨hP, hP'⟩ | ⟨P, P', hP, hP', hsame⟩ := System.portrait?_of_outlook? (houtlook r)
    · rw [hP, hP']
    · rw [hP, hP']
      exact congrArg some (heffect.outlook hsame)
  · intro P hP
    rw [hr] at hP
    obtain ⟨P₀, hP₀, rfl⟩ := Option.map_eq_some_iff.mp hP
    exact heffect.calm (hcalm r hcollected P₀ hP₀)

/-! ### Doing the same in both -/

theorem record (h : Twins f collected s s') (r : Ref .instrument) (labels : LabelArgument)
    (v : Scalar) :
    Twins f collected (recordInstrument r v labels s).2 (recordInstrument r v labels s').2 := by
  obtain ⟨orderly, orderly', houtlook, hcalm, hclocks, haligned⟩ := h
  obtain ⟨s₁, role₁, rfl, hacted, hhandles, hr⟩ := orderly.recordAt r labels v
  obtain ⟨s₁', role₁', rfl, hacted', hhandles', hr'⟩ := orderly'.recordAt r labels v
  refine worked orderly orderly' houtlook hcalm hclocks (Portrait.told_respects labels v) hacted
    hacted' hr hr' ?_
  rw [hhandles, hhandles']
  exact haligned

theorem bind (h : Twins f collected s s') (r : Ref .instrument) (labels : LabelArgument) :
    Twins f collected (bindHandle r labels s).2 (bindHandle r labels s').2 := by
  obtain ⟨orderly, orderly', houtlook, hcalm, hclocks, haligned⟩ := h
  obtain ⟨s₁, bound₁, role₁, rfl, hacted, hr, hbound⟩ := orderly.bindAt r labels
  obtain ⟨s₁', bound₁', role₁', rfl, hacted', hr', hbound'⟩ := orderly'.bindAt r labels
  rw [System.binding?_of_outlook? (houtlook r)] at hbound'
  refine acted orderly orderly' houtlook hcalm hclocks hacted hacted' ?_
    (fun hcollected => System.calm_of_outlook? hr (hcalm r hcollected)) ?_
  · rw [hr, hr', houtlook]
  · cases hbinding : (s.portrait? r).bind (Portrait.binding? labels) with
    | none =>
      rw [hbinding] at hbound hbound'
      obtain ⟨hhandles, rfl⟩ := hbound
      obtain ⟨hhandles', rfl⟩ := hbound'
      rw [hhandles, hhandles']
      exact haligned
    | some l? =>
      rw [hbinding] at hbound hbound'
      obtain ⟨rfl, -, x, hhandles, hx, ho⟩ := hbound
      obtain ⟨rfl, -, x', hhandles', hx', ho'⟩ := hbound'
      rw [hhandles, hhandles']
      refine haligned.add ?_ l?
      unfold Handle.grip
      rw [hx, hx', ho, ho']

theorem recordOn (h : Twins f collected s s') (q : Ref .handle) (v : Scalar) :
    Twins f collected (recordHandle q v s).2 (recordHandle (f q) v s').2 := by
  obtain ⟨orderly, orderly', houtlook, hcalm, hclocks, haligned⟩ := h
  obtain ⟨x, hx, ho⟩ | hclosed := open_or_closed s q
  · obtain ⟨x', hx', hinstrument, ho'⟩ := haligned.get? hx
    obtain ⟨l, hl⟩ := orderly.exists_labels hx
    obtain ⟨s₁, role₁, rfl, hacted, hhandles, hr, -⟩ := orderly.recordOnAt hx ho hl v
    have hl' := hl.of_outlook? (houtlook _) haligned.labels
    rw [← hinstrument] at hl'
    obtain ⟨s₁', role₁', rfl, hacted', hhandles', hr', -⟩ :=
      orderly'.recordOnAt hx' (ho'.trans ho) hl' v
    rw [hinstrument] at hacted' hr'
    refine worked orderly orderly' houtlook hcalm hclocks (Portrait.noted_respects l v) hacted
      hacted' hr hr' ?_
    rw [hhandles, hhandles']
    exact haligned
  · obtain ⟨log, happly⟩ := recordHandle_of_closed hclosed v
    obtain ⟨log', happly'⟩ := recordHandle_of_closed (haligned.closed hclosed) v
    rw [happly, happly']
    exact .of (orderly.logged log) (orderly'.logged log') houtlook hcalm hclocks haligned

theorem releaseSame (h : Twins f collected s s') (q : Ref .handle) :
    Twins f collected (releaseHandle q s).2 (releaseHandle (f q) s').2 := by
  obtain ⟨orderly, orderly', houtlook, hcalm, hclocks, haligned⟩ := h
  obtain ⟨x, hx, ho⟩ | hclosed := open_or_closed s q
  · obtain ⟨x', hx', hinstrument, ho'⟩ := haligned.get? hx
    obtain ⟨s₁, role₁, rfl, hacted, hhandles, hr⟩ := orderly.releaseAt hx ho
    obtain ⟨s₁', role₁', rfl, hacted', hhandles', hr'⟩ := orderly'.releaseAt hx' (ho'.trans ho)
    rw [hinstrument] at hacted' hr'
    refine acted orderly orderly' houtlook hcalm hclocks hacted hacted' ?_
      (fun hcollected => System.calm_of_outlook? hr (hcalm _ hcollected)) ?_
    · rw [hr, hr', houtlook]
    · rw [hhandles, hhandles']
      refine haligned.set hx hx' ?_
      unfold Handle.grip
      rw [hinstrument]
  · obtain ⟨log, happly⟩ := releaseHandle_of_closed hclosed
    obtain ⟨log', happly'⟩ := releaseHandle_of_closed (haligned.closed hclosed)
    rw [happly, happly']
    exact .of (orderly.logged log) (orderly'.logged log') houtlook hcalm hclocks haligned

theorem collect (h : Twins f collected s s') {r : Ref .instrument} (hr : collected r) (time : Int)
    (perform : σ → SystemM σ Unit) :
    Twins f collected (collectInstrument perform r (some time) s).2
      (collectInstrument perform r (some time) s').2 := by
  obtain ⟨orderly, orderly', houtlook, hcalm, hclocks, haligned⟩ := h
  obtain ⟨s₁, role₁, rfl, hacted, hhandles, hleft, -⟩ :=
    orderly.collectAt (hcalm r hr) time perform
  obtain ⟨s₁', role₁', rfl, hacted', hhandles', hleft', -⟩ :=
    orderly'.collectAt (System.calm_of_outlook? (houtlook r) (hcalm r hr)) time perform
  refine worked orderly orderly' houtlook hcalm hclocks (Portrait.collected_respects time) hacted
    hacted' hleft hleft' ?_
  rw [hhandles, hhandles']
  exact haligned

/-- **A handle that only the second one has** may be released. -/
theorem release {n : Ref .handle} (h : Twins n.past collected s s') :
    Twins n.past collected s (releaseHandle n s').2 := by
  obtain ⟨orderly, orderly', houtlook, hcalm, hclocks, haligned⟩ := h
  obtain ⟨x', hx', ho'⟩ | hclosed := open_or_closed s' n
  · obtain ⟨s₁', role₁', rfl, hacted', hhandles', hr'⟩ := orderly'.releaseAt hx' ho'
    refine acted orderly orderly' houtlook hcalm hclocks (orderly.unchanged _) hacted'
      (hr'.trans (houtlook _)) (hcalm _) ?_
    rw [hhandles']
    exact haligned.set_foreign (Ref.past_ne n) hx'
  · obtain ⟨log', happly'⟩ := releaseHandle_of_closed hclosed
    rw [happly']
    exact .of orderly (orderly'.logged log') houtlook hcalm hclocks haligned

/-- **Collections** of both give the same points. -/
theorem samePoints (h : Twins f collected s s') {r : Ref .instrument} (hr : collected r)
    (time : Int) (perform : σ → SystemM σ Unit) :
    SamePoints (collectInstrument perform r (some time) s).1
      (collectInstrument perform r (some time) s').1 := by
  obtain ⟨orderly, orderly', houtlook, hcalm, hclocks, haligned⟩ := h
  obtain ⟨-, -, -, -, -, -, hresult⟩ := orderly.collectAt (hcalm r hr) time perform
  obtain ⟨-, -, -, -, -, -, hresult'⟩ :=
    orderly'.collectAt (System.calm_of_outlook? (houtlook r) (hcalm r hr)) time perform
  obtain ⟨hP, hP'⟩ | ⟨P, P', hP, hP', hsame⟩ := System.portrait?_of_outlook? (houtlook r)
  · have hnone : ∀ s : System σ, s.portrait? r = none →
        (collectInstrument perform r (some time) s).1 = .error (.unusable "instrument") := by
      intro s hs
      unfold collectInstrument instrument
      simp only [bind_apply, get_apply, demand_apply, Option.map_eq_none_iff.mp hs]
    rw [hnone s hP, hnone s' hP']
    exact .refl _
  · rw [hresult P hP, hresult' P' hP']
    exact Portrait.collected_samePoints hsame.symm time

end Twins

/-! ### Runs -/

/-- The same use where there is one handle more. -/
def InstrumentUse.past (n : Ref .handle) : InstrumentUse → InstrumentUse
  | .recordOn q v => .recordOn (n.past q) v
  | .release q => .release (n.past q)
  | u => u

/-- The second run does what the first one does, where there is one handle more, and may release
that one at any time. -/
inductive InstrumentUse.Follows (n : Ref .handle) : List InstrumentUse → List InstrumentUse → Prop
  | nil : Follows n [] []
  | use (u : InstrumentUse) {us us' : List InstrumentUse} (h : Follows n us us') :
    Follows n (u :: us) (u.past n :: us')
  | release {us us' : List InstrumentUse} (h : Follows n us us') : Follows n us (.release n :: us')

namespace Twins

variable {n : Ref .handle} {s s' : System σ}

/-- **The same use** of both. -/
theorem use (h : Twins n.past (fun _ => True) s s') (perform : σ → SystemM σ Unit)
    (u : InstrumentUse) :
    Twins n.past (fun _ => True) (s.use perform u) (s'.use perform (u.past n)) := by
  cases u with
  | record r labels v => exact h.record r labels v
  | bind r labels => exact h.bind r labels
  | recordOn q v => exact h.recordOn q v
  | release q => exact h.releaseSame q
  | collect r time => exact h.collect trivial time perform

/-- **A run of uses** of both. -/
theorem run (h : Twins n.past (fun _ => True) s s') (perform : σ → SystemM σ Unit)
    {us us' : List InstrumentUse} (hfollows : InstrumentUse.Follows n us us') :
    Twins n.past (fun _ => True) (us.foldl (System.use perform) s)
      (us'.foldl (System.use perform) s') := by
  induction hfollows generalizing s s' with
  | nil => exact h
  | use u _ ih => exact ih (h.use perform u)
  | release _ ih => exact ih h.release

end Twins

end Metering
