import Metering.Proofs.Pipeline.Providers
import Metering.Proofs.Pipeline.Registering
import Metering.Proofs.Pipeline.Uses

/-!
# Instruments that have been replaced

An instrument is retired once no meter has it any more: another one has got its name
(`System.Registry.retired`) and taken over its place (`System.Enlists.instrumentsIn`).  It stays so
for good (`System.Evolves.retired`), and no collection of a meter or a provider has anything to do
with it: neither with what it holds nor with its callback (`InOrder.unseen`).
-/

namespace Metering

open Fallible SystemM

variable {σ : Type}

namespace System

variable {R : Portrait σ → Portrait σ → Prop} {s s' : System σ} {m : Ref .meter}
  {r : Ref .instrument}

/-! ### What a request replaces -/

/-- The instrument is there, but no meter has it. -/
structure Retired (s : System σ) (r : Ref .instrument) : Prop where
  there : ∃ i, s.instruments.get? r = some i
  replaced : ∀ m name, s.current? m name ≠ some r

/-- **What is retired** stays so, whatever a program does. -/
theorem Evolves.retired (h : s.Evolves R s') (hr : s.Retired r) : s'.Retired r := by
  obtain ⟨i, hi⟩ := hr.there
  constructor
  case there =>
    obtain ⟨i', hi', -⟩ := h.retains r i hi
    exact ⟨i', hi'⟩
  case replaced =>
    intro m name hcurrent
    obtain hbefore | hnew := h.neverReturns m name r hcurrent
    · exact hr.replaced m name hbefore
    · rw [hnew] at hi
      cases hi

/-- No meter collects what is retired. -/
theorem Retired.not_mem (h : s.Retired r) (m : Ref .meter) : r ∉ s.instrumentsIn m := by
  intro hr
  obtain ⟨y, name, hy, hname⟩ := mem_instrumentsIn.mp hr
  exact h.replaced m name ((current?_of_get? hy name).trans hname)

/-- **What a request replaces** is retired. -/
theorem Registry.retired (h : s.Registry) {q : InstrumentRequest σ}
    {outcome : Except Failure (Ref .instrument) × System σ} (hq : Registration s m q outcome)
    {name : String} (hr : s.current? m name = some r)
    (hne : outcome.2.current? m name ≠ some r) : outcome.2.Retired r := by
  have hcurrent : ∀ {m' name'}, s.current? m' name' = some r →
      ∃ y i, s.meters.get? m' = some y ∧ y.instruments.get? name' = some r ∧
        s.instruments.get? r = some i ∧ i.descriptor.name = name' := by
    intro m' name' hr'
    obtain ⟨y, hy, hname⟩ := Option.bind_eq_some_iff.mp hr'
    obtain ⟨i, hi, hdescriptor⟩ := h.instrument hy hname
    exact ⟨y, i, hy, hname, hi, hdescriptor⟩
  cases hq with
  | refused => exact absurd hr hne
  | again =>
    refine absurd ?_ hne
    dsimp only
    split <;> exact hr
  | @made d y a i s' valid other meter stance enlists =>
    -- only the name that was asked for has another instrument now
    dsimp only at hne ⊢
    obtain ⟨y', j, hy', hname, hj, hjname⟩ := hcurrent hr
    rw [enlists.current? meter] at hne
    have hd : name = d.name := by
      by_contra hd
      rw [if_neg fun hand => hd hand.2] at hne
      exact hne hr
    constructor
    case there =>
      rw [enlists.instruments]
      exact ⟨j, Table.get?_add_of_some _ hj⟩
    case replaced =>
      intro m' name' hr'
      rw [enlists.current? meter] at hr'
      split at hr'
      · rw [← Option.some.inj hr', Table.get?_next] at hj
        cases hj
      · next hnot =>
        -- it had no other name
        obtain ⟨z, k, hz, hname', hk, hkname⟩ := hcurrent hr'
        obtain rfl := Option.some.inj (hj.symm.trans hk)
        exact hnot ⟨h.once hy' hname hz hname', hkname.symm.trans (hjname.trans hd)⟩

/-- **A new instrument** takes over the place of the one that had its name, or comes last. -/
theorem Enlists.instrumentsIn {y : Meter} {a : Stance} {d : Descriptor}
    {callback : Option (Callback σ)} {i : Instrument σ} (h : s.Enlists s' m y a d callback i)
    (hs : s.Registry) (hy : s.meters.get? m = some y) :
    s'.instrumentsIn m = match s.current? m d.name with
      | some r => (s.instrumentsIn m).map fun r' => if r' = r then s.instruments.next else r'
      | none => s.instrumentsIn m ++ [s.instruments.next] := by
  have hbefore : s.instrumentsIn m = y.instruments.values := by
    unfold System.instrumentsIn
    rw [hy]
  have hafter : s'.instrumentsIn m
      = (y.instruments.insert d.name s.instruments.next).values := by
    unfold System.instrumentsIn
    rw [h.meters, Table.get?_set_self _ hy]
  rw [hbefore, hafter, current?_of_get? hy]
  cases hr : y.instruments.get? d.name with
  | none => exact OrderedMap.values_insert_of_none hr
  | some r =>
    -- an instrument has one name only, so no other place is replaced
    refine OrderedMap.values_insert_of_some hr fun hname => ?_
    obtain ⟨j, hj, hdescriptor⟩ := hs.instrument hy hr
    obtain ⟨k, hk, hdescriptor'⟩ := hs.instrument hy hname
    obtain rfl := Option.some.inj (hj.symm.trans hk)
    exact hdescriptor'.symm.trans hdescriptor

/-! ### Systems that differ in one instrument -/

/-- Two systems agree in all that collections depend on, but for one instrument. -/
structure AgreesBut (r : Ref .instrument) (s s' : System σ) : Prop where
  portraits : ∀ r', r' ≠ r → s'.portrait? r' = s.portrait? r'
  meters : s'.meters = s.meters
  providers : s'.providers = s.providers
  clocks : s'.clocks = s.clocks

/-- What a callback does next is part of the portrait of its instrument. -/
theorem IsQuietAt.of_portrait (h : s.IsQuietAt r) (hp : s'.portrait? r = s.portrait? r) :
    s'.IsQuietAt r := by
  obtain ⟨i, hi, hquiet⟩ := h
  rw [portrait?_of_get? hi] at hp
  obtain ⟨i', hi', hportrait⟩ := Option.map_eq_some_iff.mp hp
  have hbare : i'.bare = i.bare := congrArg Portrait.instrument hportrait
  have hcallback : i'.callback = i.callback := (congrArg Instrument.callback hbare :)
  refine ⟨i', hi', fun hacc => ?_⟩
  have haccumulator : i'.accumulator.bare = i.accumulator.bare :=
    (congrArg Instrument.accumulator hbare :)
  rw [hacc] at haccumulator
  rw [hcallback]
  refine hquiet ?_
  cases hacc' : i.accumulator with
  | asynchronous => rfl
  | synchronous live => rw [hacc'] at haccumulator; cases haccumulator
  | discarding a => rw [hacc'] at haccumulator; cases haccumulator

end System

/-- An action on an instrument changes nothing else. -/
theorem Orderly.agreesBut {s s' : System σ} {bound bound' : List (Ref .handle × LabelSet)}
    {role role' : Ref .instrument → AggregatorId → Role} {r : Ref .instrument}
    (h : Orderly s bound role) (ha : Acted s s' bound bound' role role' r) :
    System.AgreesBut r s s' where
  portraits _ hr := h.portrait_of_ne ha.changed hr
  meters := ha.changed.rest.meters
  providers := ha.changed.rest.providers
  clocks := ha.changed.rest.clocks

/-! ### Collections -/

/-- No collection of a meter or a provider has anything to do with an instrument. -/
structure System.Unseen (perform : σ → SystemM σ Unit) (s : System σ) (r : Ref .instrument) :
    Prop where
  /-- A meter collects other instruments. -/
  meter : ∀ m y time, s.meters.get? m = some y → r ∉ s.instrumentsIn m ∧
    collectMeter perform m time s = collectInstruments perform time (s.instrumentsIn m) s
  /-- A provider collects other instruments, whatever their callbacks do meanwhile. -/
  provider : ∀ q x, s.providers.get? q = some x → x.isShutDown = false → ∃ rs time, r ∉ rs ∧
    collectProvider perform q s = collectInstruments perform (some time) rs s
  /-- What a provider reports does not depend on what the instrument is and holds. -/
  ignored : ∀ q x, s.providers.get? q = some x → (∀ r' ∈ s.instrumentsOf x, s.IsQuietAt r') →
    ∀ s', s.AgreesBut r s' → InOrder s' s' →
      (collectProvider perform q s').1 = (collectProvider perform q s).1
  /-- It does not depend on later measurements either. -/
  recorded : ∀ q x, s.providers.get? q = some x → (∀ r' ∈ s.instrumentsOf x, s.IsQuietAt r') →
    ∀ v labels, (collectProvider perform q (recordInstrument r v labels s).2).1
      = (collectProvider perform q s).1
  /-- A collection of a provider leaves the instrument as it is, its callback included. -/
  untouched : ∀ q x, s.providers.get? q = some x → (∀ r' ∈ s.instrumentsOf x, s.IsQuietAt r') →
    (collectProvider perform q s).2.portrait? r = s.portrait? r

namespace InOrder

variable {since s s' : System σ} {perform : σ → SystemM σ Unit} {r : Ref .instrument}
  {q : Ref .provider} {x : Provider}

theorem collectMeter_apply {m : Ref .meter} {y : Meter} (hy : s.meters.get? m = some y)
    (time : Option Int) :
    SystemM.collectMeter perform m time s
      = SystemM.collectInstruments perform time (s.instrumentsIn m) s := by
  unfold SystemM.collectMeter meter System.instrumentsIn
  simp only [bind_apply, get_apply, demand_apply, hy]

/-- Collecting meters is collecting instruments that are not retired. -/
theorem collectMeters_avoids (h : InOrder since s)
    (hperform : ∀ since step, Keeps (InOrder since) (perform step)) (hr : s.Retired r)
    {ms : List (Ref .meter)} (hms : ∀ m ∈ ms, ∃ y, s.meters.get? m = some y) (time : Option Int) :
    ∃ rs, r ∉ rs ∧ SystemM.collectMeters perform time ms s
      = SystemM.collectInstruments perform time rs s := by
  -- on the meters, for any system in which the instrument is retired
  induction ms generalizing s with
  | nil => exact ⟨[], List.not_mem_nil, rfl⟩
  | cons m ms ih =>
    obtain ⟨y, hy⟩ := hms m List.mem_cons_self
    have hkept := Keeps.collectInstruments (collectInstrument hperform) time (s.instrumentsIn m) s
      h.here
    unfold SystemM.collectMeters
    rw [bind_apply, collectMeter_apply hy]
    rcases hcollect : SystemM.collectInstruments perform time (s.instrumentsIn m) s
      with ⟨e | metrics, s₁⟩ <;> rw [hcollect] at hkept
    · exact ⟨_, hr.not_mem m, hcollect.symm⟩
    · -- the other meters are collected as the callbacks have left them
      obtain ⟨rs, hnot, happly⟩ := ih (h.after hkept) (hkept.evolves.retired hr) fun m' hm' => by
        obtain ⟨y', hy'⟩ := hms m' (List.mem_cons_of_mem _ hm')
        obtain ⟨events, he⟩ := hkept.evolves.registered m' y' hy'
        obtain ⟨y'', hy'', -⟩ := he.exists_meter hy'
        exact ⟨y'', hy''⟩
      refine ⟨s.instrumentsIn m ++ rs, fun hmem => ?_, ?_⟩
      · exact (List.mem_append.mp hmem).elim (hr.not_mem m) hnot
      · rw [collectInstruments_append, bind_apply, hcollect]
        dsimp only
        rw [bind_apply, bind_apply, happly]

/-- **What is retired** is not seen by any collection. -/
theorem unseen (h : InOrder since s)
    (hperform : ∀ since step, Keeps (InOrder since) (perform step)) (hr : s.Retired r) :
    s.Unseen perform r := by
  have hnot : ∀ x : Provider, r ∉ s.instrumentsOf x := by
    intro x hmem
    obtain ⟨m, -, hm⟩ := List.mem_flatMap.mp hmem
    exact hr.not_mem m hm
  have hignored : ∀ q x, s.providers.get? q = some x →
      (∀ r' ∈ s.instrumentsOf x, s.IsQuietAt r') → ∀ s', s.AgreesBut r s' → InOrder s' s' →
        (SystemM.collectProvider perform q s').1 = (SystemM.collectProvider perform q s).1 := by
    intro q x hx hquiet s' hs' h'
    have hx' : s'.providers.get? q = some x := by rw [hs'.providers, hx]
    have hsame : ∀ r' ∈ s.instrumentsOf x, s'.portrait? r' = s.portrait? r' := fun r' hr' =>
      hs'.portraits r' fun he => hnot x (he ▸ hr')
    have hof : s'.instrumentsOf x = s.instrumentsOf x := by
      unfold System.instrumentsOf System.instrumentsIn
      rw [hs'.meters]
    cases hdown : x.isShutDown with
    | true => rw [collectProvider_of_shutDown hx hdown, collectProvider_of_shutDown hx' hdown]
    | false =>
      obtain ⟨c, result, t, hc, happly, hgathered⟩ :=
        h.collectProvider_gathers hx hdown hquiet perform
      obtain ⟨c', result', t', hc', happly', hgathered'⟩ :=
        h'.collectProvider_gathers hx' hdown
          (fun r' hr' => (hquiet r' (hof ▸ hr')).of_portrait (hsame r' (hof ▸ hr'))) perform
      -- at the same time, the same instruments contribute the same shares
      rw [hs'.clocks, hc] at hc'
      obtain rfl := Option.some.inj hc'
      rw [happly, happly', hgathered.shares, hgathered'.shares, hof]
      exact joined_congr fun r' hr' => System.share_congr (hsame r' hr') c.now
  constructor
  case meter => exact fun m y time hy => ⟨hr.not_mem m, collectMeter_apply hy time⟩
  case provider =>
    intro q x hx hopen
    obtain ⟨c, hc⟩ := h.registry.clock hx
    have hmeters : ∀ m ∈ x.meters.values, ∃ y, s.meters.get? m = some y := fun m =>
      h.exists_meter hx
    obtain ⟨rs, hrs, happly⟩ := h.collectMeters_avoids hperform hr hmeters (some c.now)
    refine ⟨rs, c.now, hrs, ?_⟩
    rw [← happly]
    unfold SystemM.collectProvider SystemM.provider now SystemM.clock
    simp only [bind_apply, get_apply, demand_apply, hx, hopen, hc, pure_apply,
      if_neg Bool.false_ne_true]
  case ignored => exact hignored
  case recorded =>
    intro q x hx hquiet v labels
    obtain ⟨bound, role, horderly⟩ := h.orderly
    obtain ⟨s', role', happly, hacted, -⟩ := horderly.recordAt r labels v
    have hkept := InOrderBy.recordInstrument r v labels s h.here
    rw [happly] at hkept ⊢
    exact hignored q x hx hquiet s' (horderly.agreesBut hacted) hkept.here
  case untouched =>
    intro q x hx hquiet
    cases hdown : x.isShutDown with
    | true =>
      rw [collectProvider_of_shutDown hx hdown]
      rfl
    | false =>
      obtain ⟨c, result, t, hc, happly, hgathered⟩ :=
        h.collectProvider_gathers hx hdown hquiet perform
      rw [happly, hgathered.portraits,
        if_neg fun hmem => hnot x (System.reached_subset hmem)]

end InOrder

end Metering
