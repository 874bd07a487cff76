import Metering.Proofs.Pipeline.Evolution

/-!
# Systems in order, and what keeps them so

`Registry` says of a system that its providers, meters and instruments refer to what is there, and
that no instrument is in two places.  `InOrderBy` joins it with the order of the instruments.  It
also says that the system has evolved from an earlier one: so an observer is still one when its
callback comes to an end.  `InOrder`, by which windows climb, is what every system satisfies that a
program can reach.

Nothing of it depends on exporters, readers, sinks, the environment or the log (`System.OfCore`).
Here are the ways in which it is kept; most steps of a program use one of them.
-/

namespace Metering

open Fallible SystemM

variable {σ : Type}

namespace System

/-- The providers, meters and instruments of a system refer to what is there, and no instrument is
in two meters. -/
structure Registry (s : System σ) : Prop where
  named : ∀ {id c}, s.names.get? id = some (.component .clock c) → ∃ x, s.clocks.get? c = some x
  clock : ∀ {q x}, s.providers.get? q = some x → ∃ c, s.clocks.get? x.clock = some c
  meter : ∀ {q x key m}, s.providers.get? q = some x → x.meters.get? key = some m →
    ∃ y, s.meters.get? m = some y ∧ y.provider = q ∧ (y.library.name, y.library.version) = key
  owner : ∀ {m y}, s.meters.get? m = some y → ∃ x, s.providers.get? y.provider = some x
  instrument : ∀ {m y name r}, s.meters.get? m = some y → y.instruments.get? name = some r →
    ∃ i, s.instruments.get? r = some i ∧ i.descriptor.name = name
  once : ∀ {m y name m' y' name' r}, s.meters.get? m = some y →
    y.instruments.get? name = some r → s.meters.get? m' = some y' →
    y'.instruments.get? name' = some r → m' = m

/-- Two systems differ only in exporters, readers, sinks, the environment and the log. -/
structure SameCore (s s' : System σ) : Prop extends s.SameRest s' where
  instruments : s'.instruments = s.instruments
  handles : s'.handles = s.handles
  pool : s'.pool = s.pool

/-- A property of systems that does not depend on exporters, readers, sinks, the environment or the
log. -/
def OfCore (I : System σ → Prop) : Prop := ∀ {s s'}, s.SameCore s' → I s → I s'

variable {s s' : System σ}

theorem Registry.keep (h : s.Registry)
    (hn : ∀ {id c}, s'.names.get? id = some (.component .clock c) →
      s.names.get? id = some (.component .clock c))
    (hc : s.KeepsClocks s') (hm : s'.meters = s.meters) (hp : s'.providers = s.providers)
    (hi : s.Retains s') : s'.Registry where
  named hid := by
    obtain ⟨x, hx⟩ := h.named (hn hid)
    exact hc hx
  clock hx := by
    rw [hp] at hx
    obtain ⟨c, hx⟩ := h.clock hx
    exact hc hx
  meter hx hk := by
    rw [hp] at hx
    rw [hm]
    exact h.meter hx hk
  owner hy := by
    rw [hm] at hy
    rw [hp]
    exact h.owner hy
  instrument hy hr := by
    rw [hm] at hy
    obtain ⟨i, hi', hname⟩ := h.instrument hy hr
    obtain ⟨i', hi'', hdesign⟩ := hi _ _ hi'
    exact ⟨i', hi'', by rw [Instrument.descriptor_of_design hdesign, hname]⟩
  once hy hr hy' hr' := by
    rw [hm] at hy hy'
    exact h.once hy hr hy' hr'

/-- A provider may be changed in all that the registry does not speak of. -/
theorem Registry.setProvider (h : s.Registry) {q : Ref .provider} {x x' : Provider}
    (hx : s.providers.get? q = some x) (hc : x'.clock = x.clock) (hm : x'.meters = x.meters) :
    ({ s with providers := s.providers.set q x' } : System σ).Registry where
  named := h.named
  clock {q' y} hy := by
    change (s.providers.set q x').get? q' = some y at hy
    rw [Table.get?_set _ hx] at hy
    split at hy
    · obtain rfl := Option.some.inj hy
      rw [hc]
      exact h.clock hx
    · exact h.clock hy
  meter {q' y key m} hy hk := by
    change (s.providers.set q x').get? q' = some y at hy
    rw [Table.get?_set _ hx] at hy
    split at hy
    · next hq =>
      obtain rfl := Option.some.inj hy
      rw [hm] at hk
      rw [hq]
      exact h.meter hx hk
    · exact h.meter hy hk
  owner {m y} hy := by
    obtain ⟨z, hz⟩ := h.owner hy
    change ∃ z, (s.providers.set q x').get? y.provider = some z
    rw [Table.get?_set _ hx]
    split
    · exact ⟨_, rfl⟩
    · exact ⟨z, hz⟩
  instrument := h.instrument
  once := h.once

end System

/-- A system is in order, and has evolved from an earlier one such that a relation lasts. -/
structure InOrderBy (R : Portrait σ → Portrait σ → Prop) (since s : System σ) : Prop where
  orderly : ∃ bound role, Orderly s bound role
  registry : s.Registry
  evolves : since.Evolves R s

/-- A system is in order, and has evolved from an earlier one such that windows climb. -/
abbrev InOrder (since : System σ) : System σ → Prop := InOrderBy Portrait.Climbs since

namespace InOrderBy

variable {R : Portrait σ → Portrait σ → Prop} {since s s' : System σ}

theorem retains (h : InOrderBy R since s) : since.Retains s := h.evolves.retains

variable [Portrait.Lasting R]

theorem here (h : InOrderBy R since s) : InOrderBy R s s := ⟨h.orderly, h.registry, .refl s⟩

/-- What has come about from a system in order has kept what that one had kept. -/
theorem after (h : InOrderBy R since s) (h' : InOrderBy R s s') : InOrderBy R since s' :=
  ⟨h'.orderly, h'.registry, h.evolves.trans h'.evolves⟩

/-- **An action** on an instrument keeps a system in order. -/
theorem acted (h : InOrderBy R since s) {bound bound' : List (Ref .handle × LabelSet)}
    {role role' : Ref .instrument → AggregatorId → Role} {r : Ref .instrument}
    (horderly : Orderly s bound role) (ha : Acted s s' bound bound' role role' r)
    (hr : s.LastsAt R s' r) : InOrderBy R since s' where
  orderly := ⟨_, _, ha.orderly⟩
  registry := by
    have hrest := ha.changed.rest
    refine h.registry.keep (fun hid => ?_) hrest.keepsClocks hrest.meters hrest.providers
      ha.retains
    rwa [hrest.names] at hid
  evolves := h.evolves.trans (horderly.evolves ha hr)

/-- What leaves the instruments, the meters and the providers alone keeps a system in order. -/
theorem beside (h : InOrderBy R since s) (hi : s'.instruments = s.instruments)
    (hm : s'.meters = s.meters) (hp : s'.providers = s.providers) (hc : s.KeepsClocks s')
    (hn : ∀ {id c}, s'.names.get? id = some (.component .clock c) →
      ∃ x, s'.clocks.get? c = some x)
    (hsame : ∀ r, s'.portrait? r = s.portrait? r)
    (horderly : ∃ bound role, Orderly s' bound role) : InOrderBy R since s' where
  orderly := horderly
  registry := by
    have hkept : ({ s' with names := s.names } : System σ).Registry :=
      h.registry.keep id hc hm hp (System.retains_of_eq hi)
    exact { hkept with named := hn }
  evolves := h.evolves.trans (System.evolves_of_eq hi hm hp hsame)

theorem ofCore : System.OfCore (InOrderBy R since) := by
  intro s s' hcore h
  obtain ⟨bound, role, horderly⟩ := h.orderly
  refine h.beside hcore.instruments hcore.meters hcore.providers hcore.keepsClocks (fun hid => ?_)
    (fun r => ?_) ⟨bound, role, ?_⟩
  · rw [hcore.names] at hid
    rw [hcore.clocks]
    exact h.registry.named hid
  · unfold System.portrait?
    rw [hcore.instruments, hcore.pool]
  · refine horderly.beside hcore.instruments hcore.handles hcore.keepsClocks ?_ fun hj => ?_
    · rw [hcore.pool]
      exact .refl _
    · rw [hcore.pool]
      exact horderly.outside (hcore.exposes hj)

theorem logged (h : InOrderBy R since s) (log : List LogEntry) :
    InOrderBy R since { s with log := log } :=
  ofCore (s := s) ⟨⟨rfl, rfl, rfl, rfl, rfl, rfl⟩, rfl, rfl, rfl⟩ h

/-- Time passes on a clock. -/
theorem setClock (h : InOrderBy R since s) {q : Ref .clock} {c : Clock}
    (hc : s.clocks.get? q = some c) (c' : Clock) :
    InOrderBy R since { s with clocks := s.clocks.set q c' } := by
  obtain ⟨bound, role, horderly⟩ := h.orderly
  refine h.beside rfl rfl rfl (System.keepsClocks_set hc c') (fun hid => ?_) (fun _ => rfl)
    ⟨bound, role, horderly.beside rfl rfl (System.keepsClocks_set hc c') (.refl _) fun hj =>
      horderly.outside (hj.congr rfl rfl rfl)⟩
  obtain ⟨x, hx⟩ := h.registry.named hid
  exact System.keepsClocks_set hc c' hx

/-- **A provider** that may stand to new instruments in another way, and is changed in all that the
registry does not speak of, keeps a system in order. -/
theorem setProvider (h : InOrderBy R since s) {q : Ref .provider} {x x' : Provider}
    (hx : s.providers.get? q = some x) (hc : x'.clock = x.clock) (hm : x'.meters = x.meters)
    (hturns : x.stance.Turns x'.stance) :
    InOrderBy R since { s with providers := s.providers.set q x' } where
  orderly := by
    obtain ⟨bound, role, horderly⟩ := h.orderly
    exact ⟨bound, role, horderly.beside rfl rfl (fun hc => ⟨_, hc⟩) (.refl _) fun hj =>
      horderly.outside (hj.congr rfl rfl rfl)⟩
  registry := h.registry.setProvider hx hc hm
  evolves := by
    refine h.evolves.trans ⟨System.retains_of_eq rfl, fun _ => System.lastsAt_of_eq rfl,
      System.neverReturns_of_eq rfl, fun m y hy => ?_⟩
    obtain ⟨z, hz⟩ := h.registry.owner hy
    have hbefore := System.stance?_of_get? hy hz
    have hafter : System.stance? { s with providers := s.providers.set q x' } m
        = ((s.providers.set q x').get? y.provider).map Provider.stance := by
      unfold System.stance?
      rw [hy]
      rfl
    rw [Table.get?_set _ hx] at hafter
    split at hafter
    · next hq =>
      rw [hq] at hz
      obtain rfl := Option.some.inj (hx.symm.trans hz)
      exact System.registered_of_turn rfl (System.retains_of_eq rfl) hbefore hafter hturns
    · rw [hz] at hafter
      exact System.registered_of_turn rfl (System.retains_of_eq rfl) hbefore hafter .same

/-! ### Instruments at work -/

theorem recordInstrument (r : Ref .instrument) (v : Scalar) (labels : LabelArgument) :
    Keeps (InOrderBy R since) (SystemM.recordInstrument (σ := σ) r v labels) := by
  intro s h
  obtain ⟨bound, role, horderly⟩ := h.orderly
  cases hi : s.instruments.get? r with
  | none =>
    unfold SystemM.recordInstrument instrument
    simp only [bind_apply, get_apply, demand_apply, hi]
    exact h
  | some i =>
    cases horderly.steady hi with
    | recording accumulator processor =>
      cases hl : LabelSet.create labels with
      | ok l =>
        obtain ⟨s', role', happly, hacted, -, hleft⟩ :=
          horderly.record hi accumulator processor hl v
        rw [happly]
        exact h.acted horderly hacted (System.lastsAt_of_window hi hleft rfl rfl)
      | error e =>
        rw [(horderly.mislabelled hi accumulator processor hl v).1]
        exact h
    | observing accumulator processor =>
      unfold SystemM.recordInstrument onAccumulation instrument
      simp only [bind_apply, get_apply, demand_apply, hi, accumulator, throw_apply]
      exact h
    | discarding accumulator =>
      obtain ⟨s', happly, hacted, -, hleft⟩ := horderly.recordDiscarding hi accumulator labels v
      rw [happly]
      exact h.acted horderly hacted (System.lastsAt_of_eq hleft)

/-- What binding a handle gives is a handle of the instrument. -/
theorem bindHandle (r : Ref .instrument) (labels : LabelArgument) :
    Keeps (InOrderBy R since) (SystemM.bindHandle (σ := σ) r labels) := by
  intro s h
  obtain ⟨bound, role, horderly⟩ := h.orderly
  cases hi : s.instruments.get? r with
  | none =>
    unfold SystemM.bindHandle instrument
    simp only [bind_apply, get_apply, demand_apply, hi]
    exact h
  | some i =>
    cases horderly.steady hi with
    | recording accumulator processor =>
      cases hl : LabelSet.create labels with
      | ok l =>
        obtain ⟨x, s', role', happly, hacted, -, -, -, hleft⟩ :=
          horderly.bind hi accumulator processor hl
        rw [happly]
        exact h.acted horderly hacted (System.lastsAt_of_window hi hleft rfl rfl)
      | error e =>
        rw [(horderly.mislabelled hi accumulator processor hl (.text "")).2]
        exact h
    | observing accumulator processor =>
      unfold SystemM.bindHandle bindInstrument onAccumulation instrument
      simp only [bind_apply, get_apply, demand_apply, hi, accumulator, throw_apply]
      exact h
    | discarding accumulator =>
      obtain ⟨x, s', happly, hacted, -, -, -, hleft⟩ :=
        horderly.bindDiscarding hi accumulator labels
      rw [happly]
      exact h.acted horderly hacted (System.lastsAt_of_eq hleft)

theorem recordHandle (q : Ref .handle) (v : Scalar) :
    Keeps (InOrderBy R since) (SystemM.recordHandle (σ := σ) q v) := by
  intro s h
  obtain ⟨bound, role, horderly⟩ := h.orderly
  obtain ⟨x, hx, ho⟩ | hclosed := open_or_closed s q
  · obtain ⟨i, hi, howned⟩ := horderly.owned hx
    cases horderly.steady hi with
    | recording accumulator processor =>
      rw [accumulator] at howned
      obtain ⟨l, hl⟩ := howned
      obtain ⟨s', role', happly, hacted, -, hleft⟩ :=
        horderly.recordOn hi accumulator processor hl hx rfl ho v
      rw [happly]
      exact h.acted horderly hacted (System.lastsAt_of_window hi hleft rfl rfl)
    | observing accumulator =>
      rw [accumulator] at howned
      exact howned.elim
    | discarding accumulator =>
      obtain ⟨s', happly, hacted, -, hleft⟩ :=
        horderly.recordOnDiscarding hi accumulator hx rfl ho v
      rw [happly]
      exact h.acted horderly hacted (System.lastsAt_of_eq hleft)
  · obtain ⟨log, happly⟩ := recordHandle_of_closed hclosed v
    rw [happly]
    exact h.logged log

theorem releaseHandle (q : Ref .handle) :
    Keeps (InOrderBy R since) (SystemM.releaseHandle (σ := σ) q) := by
  intro s h
  obtain ⟨bound, role, horderly⟩ := h.orderly
  obtain ⟨x, hx, ho⟩ | hclosed := open_or_closed s q
  · obtain ⟨i, hi, howned⟩ := horderly.owned hx
    cases horderly.steady hi with
    | recording accumulator processor =>
      rw [accumulator] at howned
      obtain ⟨l, hl⟩ := howned
      obtain ⟨s', role', happly, hacted, -, hleft⟩ :=
        horderly.release hi accumulator processor hl hx rfl ho
      rw [happly]
      exact h.acted horderly hacted (System.lastsAt_of_window hi hleft rfl rfl)
    | observing accumulator =>
      rw [accumulator] at howned
      exact howned.elim
    | discarding accumulator =>
      obtain ⟨s', happly, hacted, -, hleft⟩ :=
        horderly.releaseDiscarding hi accumulator hx rfl ho
      rw [happly]
      exact h.acted horderly hacted (System.lastsAt_of_eq hleft)
  · obtain ⟨log, happly⟩ := releaseHandle_of_closed hclosed
    rw [happly]
    exact h.logged log

/-- Giving an instrument another callback. -/
theorem setCallback (h : InOrderBy R since s) {r : Ref .instrument} {i : Instrument σ}
    (hi : s.instruments.get? r = some i) (callback : Option (Callback σ)) :
    InOrderBy R since
      { s with instruments := s.instruments.set r { i with callback := callback } } := by
  obtain ⟨bound, role, horderly⟩ := h.orderly
  exact h.acted horderly (horderly.setCallback hi callback)
    (System.lastsAt_of_window hi (System.portrait?_of_get? (Table.get?_set_self _ hi)) rfl rfl)

end InOrderBy

end Metering
