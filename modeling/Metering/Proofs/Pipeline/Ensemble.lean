import Metering.Proofs.Instruments.Working

/-!
# Several instruments over one pool

The instruments of a system share its pool, so work on one of them could disturb another.  An
`Account` says that an instrument is in order: its threads are sound, its books are kept, and no
collection of it is under way.  An `Ensemble` says so of all instruments at once, and that they keep
apart: an aggregator that plays a role for one is foreign to all others.

The ensemble also compares the accounts with what happened in the system: what was recorded into
which instrument, and which metrics came out.  `Ensemble.work` is the one place where it is shown
that work on one instrument leaves the others alone.
-/

namespace Metering

open Fallible SystemM

variable {σ : Type}

/-! ### When others work -/

namespace System

variable {s s' : System σ} {r : Ref .instrument} {a : Accumulation}

theorem accumulation?_congr (hi : s'.instruments = s.instruments) (hp : s'.pool = s.pool)
    (r : Ref .instrument) : s'.accumulation? r = s.accumulation? r := by
  unfold accumulation?
  rw [hi, hp]

end System

/-- One system comes from another by work on one instrument. -/
structure WorkedOn (s s' : System σ) (r : Ref .instrument) (t t' : Threads) : Prop where
  before : s.accumulation? r = some t.accumulation
  instruments : s'.instruments = (s.withAccumulation r t'.accumulation).instruments
  pool : s'.pool = t'.pool
  stream : t.stream.Continues t'.stream

namespace WorkedOn

variable {s s' : System σ} {r r' : Ref .instrument} {t t' : Threads} {b : Accumulation}

theorem self (h : WorkedOn s s' r t t') : s'.accumulation? r = some t'.accumulation := by
  rw [System.accumulation?_congr h.instruments h.pool]
  exact System.accumulation?_withAccumulation_self h.before t'.accumulation

theorem other (h : WorkedOn s s' r t t') (hr : r' ≠ r) :
    s'.accumulation? r' = (s.accumulation? r').map fun a => { a with pool := t'.pool } := by
  rw [System.accumulation?_congr h.instruments h.pool]
  exact System.accumulation?_withAccumulation_of_ne hr t'.accumulation

/-- An instrument that is there afterwards was there before. -/
theorem back (h : WorkedOn s s' r t t') (hb : s'.accumulation? r' = some b) :
    ∃ a, s.accumulation? r' = some a ∧ b.stream.origin = a.stream.origin := by
  by_cases hr : r' = r
  · subst hr
    obtain rfl := Option.some.inj (h.self.symm.trans hb)
    exact ⟨_, h.before, h.stream.origin⟩
  · rw [h.other hr] at hb
    obtain ⟨a, ha, rfl⟩ := Option.map_eq_some_iff.mp hb
    exact ⟨a, ha, rfl⟩

/-- An instrument that was there before is there afterwards. -/
theorem forth (h : WorkedOn s s' r t t') (hb : s.accumulation? r' = some b) :
    ∃ a, s'.accumulation? r' = some a ∧ b.stream.origin = a.stream.origin := by
  by_cases hr : r' = r
  · subst hr
    obtain rfl := Option.some.inj (h.before.symm.trans hb)
    exact ⟨_, h.self, h.stream.origin.symm⟩
  · refine ⟨{ b with pool := t'.pool }, ?_, rfl⟩
    rw [h.other hr, hb]
    rfl

end WorkedOn

/-! ### Accounts -/

/-- What was recorded into an instrument. -/
def notes (recorded : List (Ref .instrument × LabelSet × Scalar)) (r : Ref .instrument) :
    List (LabelSet × Scalar) :=
  recorded.filterMap fun m => if m.1 = r then some m.2 else none

theorem notes_append_self (recorded : List (Ref .instrument × LabelSet × Scalar))
    (r : Ref .instrument) (entries : List (LabelSet × Scalar)) :
    notes (recorded ++ entries.map (Prod.mk r)) r = notes recorded r ++ entries := by
  unfold notes
  rw [List.filterMap_append, List.filterMap_map]
  simp

theorem notes_append_of_ne (recorded : List (Ref .instrument × LabelSet × Scalar))
    {r r' : Ref .instrument} (h : r' ≠ r) (entries : List (LabelSet × Scalar)) :
    notes (recorded ++ entries.map (Prod.mk r)) r' = notes recorded r' := by
  unfold notes
  rw [List.filterMap_append, List.filterMap_map]
  simp [Ne.symm h]

/-- An instrument is in order. -/
structure Account (s : System σ) (bound : List (Ref .handle × LabelSet)) (r : Ref .instrument)
    (role : AggregatorId → Role) (t : Threads) (g : Ledger Int) : Prop where
  tracks : Tracks s r bound t
  sound : Sound IsSum role t g
  booked : Booked IsSum t g
  idle : t.collector = .idle

namespace Account

variable {s s' : System σ} {bound bound' : List (Ref .handle × LabelSet)} {r : Ref .instrument}
  {role : AggregatorId → Role} {t : Threads} {g : Ledger Int}

/-- Work on other instruments leaves an account in order. -/
theorem elsewhere (h : Account s bound r role t g) {p : Pool}
    (hs : s'.accumulation? r = some { t.accumulation with pool := p })
    (hheld : (s'.heldOn r bound').Perm (s.heldOn r bound))
    (hp : t.pool.Spares p fun i => role i = .foreign) :
    Account s' bound' r role { t with accumulation := { t.accumulation with pool := p } } g where
  tracks := ⟨hs, h.tracks.bindings, h.tracks.held.trans hheld.symm⟩
  sound := h.sound.elsewhere h.tracks.bindings hp
  booked := h.booked.congr rfl rfl rfl rfl rfl h.booked.idle
  idle := h.idle

/-- A run that ends between collections leaves an account in order. -/
theorem run (h : Account s bound r role t g) {events : List Event}
    (ht : Tracks s' r bound' (t.run events)) (hidle : (t.run events).collector = .idle) :
    ∃ role', Account s' bound' r role' (t.run events) (g.after t events) ∧
      Advances role role' t.accumulation (t.run events).accumulation := by
  obtain ⟨role', hsound, hadv⟩ := h.sound.run addsUp_isSum events
  exact ⟨role', ⟨ht, hsound, h.booked.run addsUp_isSum h.sound events, hidle⟩, hadv⟩

end Account

/-! ### Ensembles -/

/-- All instruments of a system are in order and keep apart.  What was recorded and which metrics
came out is as their accounts say, and the live aggregators of a settled instrument hold nothing. -/
structure Ensemble (s : System σ) (bound : List (Ref .handle × LabelSet))
    (role : Ref .instrument → AggregatorId → Role)
    (recorded : List (Ref .instrument × LabelSet × Scalar)) (out : List Metric)
    (settled : Ref .instrument → Prop) : Prop where
  accounts : ∀ {r a}, s.accumulation? r = some a → ∃ t g, Account s bound r (role r) t g ∧
    t.recorded = notes recorded r ∧
    t.reports.flatten = out.filter (fun m => m.origin = a.stream.origin) ∧
    (settled r → ∀ l, g.live l = [])
  apart : ∀ {r r' a a'}, s.accumulation? r = some a → s.accumulation? r' = some a' → r ≠ r' →
    ∀ i, role r i ≠ .foreign → role r' i = .foreign
  /-- Metrics of different instruments can be told apart. -/
  distinct : ∀ {r r' a a'}, s.accumulation? r = some a → s.accumulation? r' = some a' →
    a.stream.origin = a'.stream.origin → r = r'
  /-- Every metric that came out is one of an instrument. -/
  known : ∀ m ∈ out, ∃ r a, s.accumulation? r = some a ∧ m.origin = a.stream.origin
  /-- Everything was recorded into an instrument. -/
  targets : ∀ e ∈ recorded, ∃ a, s.accumulation? e.1 = some a
  handled : Handled s bound
  /-- Every handle was bound, and is one of an instrument. -/
  owned : ∀ {h x}, s.handles.get? h = some x →
    (∃ l, (h, l) ∈ bound) ∧ ∃ a, s.accumulation? x.instrument = some a

namespace Ensemble

variable {s s' : System σ} {bound bound' : List (Ref .handle × LabelSet)}
  {role : Ref .instrument → AggregatorId → Role}
  {recorded : List (Ref .instrument × LabelSet × Scalar)} {out : List Metric}
  {settled settled' : Ref .instrument → Prop}

/-- The account of an instrument is over its accumulation. -/
theorem account (h : Ensemble s bound role recorded out settled) {r : Ref .instrument}
    {a : Accumulation} (ha : s.accumulation? r = some a) :
    ∃ t g, t.accumulation = a ∧ Account s bound r (role r) t g ∧ t.recorded = notes recorded r ∧
      t.reports.flatten = out.filter (fun m => m.origin = a.stream.origin) ∧
      (settled r → ∀ l, g.live l = []) := by
  obtain ⟨t, g, hacc, hrest⟩ := h.accounts ha
  exact ⟨t, g, Option.some.inj (hacc.tracks.accumulation.symm.trans ha), hacc, hrest⟩

/-- Only the instruments, the handles and the pool matter. -/
theorem congr (h : Ensemble s bound role recorded out settled)
    (hi : s'.instruments = s.instruments) (hp : s'.pool = s.pool) (hh : s'.handles = s.handles)
    (hsettled : ∀ r, settled' r → settled r) : Ensemble s' bound role recorded out settled' := by
  have hacc := System.accumulation?_congr hi hp
  constructor
  case accounts =>
    intro r a ha
    rw [hacc] at ha
    obtain ⟨t, g, haccount, hnotes, hout, hlive⟩ := h.accounts ha
    refine ⟨t, g, { haccount with tracks := ?_ }, hnotes, hout, fun hr => hlive (hsettled r hr)⟩
    exact haccount.tracks.of_handles ((hacc r).trans haccount.tracks.accumulation) rfl rfl hh
  case apart =>
    intro r r' a a' ha ha'
    rw [hacc] at ha ha'
    exact h.apart ha ha'
  case distinct =>
    intro r r' a a' ha ha'
    rw [hacc] at ha ha'
    exact h.distinct ha ha'
  case known =>
    simp only [hacc]
    exact h.known
  case targets =>
    simp only [hacc]
    exact h.targets
  case handled => exact h.handled.congr hh
  case owned =>
    simp only [hacc, hh]
    exact h.owned

/-- What work on one instrument touches is foreign to the others. -/
theorem foreign_of_work (h : Ensemble s bound role recorded out settled) {r r' : Ref .instrument}
    {t t' : Threads} {g : Ledger Int} {role₁ : AggregatorId → Role} {b : Accumulation}
    (hacc : Account s bound r (role r) t g)
    (hadv : Advances (role r) role₁ t.accumulation t'.accumulation) (hr : r' ≠ r)
    (hb : s.accumulation? r' = some b) {i : AggregatorId} (hi : role₁ i ≠ .foreign) :
    role r' i = .foreign := by
  have ha := hacc.tracks.accumulation
  by_cases hhas : t.pool.Has i
  · have hwas : role r i ≠ .foreign := fun hf => hi (hadv.foreign hhas hf)
    exact h.apart ha hb (Ne.symm hr) i hwas
  · -- it is new, so it plays no role for anybody else
    by_contra hne
    obtain ⟨t₂, g₂, rfl, hacc₂, -⟩ := h.account hb
    have hhas₂ : t₂.accumulation.pool.Has i := hacc₂.sound.has hne
    rw [System.accumulation?_pool hb, ← System.accumulation?_pool ha] at hhas₂
    exact hhas hhas₂

/-- The account of another instrument after work on one. -/
theorem account_other (h : Ensemble s bound role recorded out settled) {r r' : Ref .instrument}
    {t t' : Threads} {g : Ledger Int} {role₁ : AggregatorId → Role} {b : Accumulation}
    {entries : List (LabelSet × Scalar)} {more : List Metric}
    (hacc : Account s bound r (role r) t g) (hw : WorkedOn s s' r t t')
    (hadv : Advances (role r) role₁ t.accumulation t'.accumulation)
    (horigin : ∀ m ∈ more, m.origin = t.stream.origin) (hr : r' ≠ r)
    (hheld : (s'.heldOn r' bound').Perm (s.heldOn r' bound))
    (hb : s'.accumulation? r' = some b) :
    ∃ t₂ g₂, Account s' bound' r' (role r') t₂ g₂ ∧
      t₂.recorded = notes (recorded ++ entries.map (Prod.mk r)) r' ∧
      t₂.reports.flatten = (out ++ more).filter (fun m => m.origin = b.stream.origin) ∧
      (settled r' → ∀ l, g₂.live l = []) := by
  have ha := hacc.tracks.accumulation
  have hb' := hb
  rw [hw.other hr] at hb'
  obtain ⟨b, hc, rfl⟩ := Option.map_eq_some_iff.mp hb'
  obtain ⟨t₂, g₂, rfl, hacc₂, hnotes, hout, hlive⟩ := h.account hc
  -- the pool is shared, so what the work touches is seen by the other one too
  have hspares : t₂.pool.Spares t'.pool fun i => role r' i = .foreign := by
    have hpool : t₂.pool = t.pool :=
      (System.accumulation?_pool hc).trans (System.accumulation?_pool ha).symm
    rw [hpool]
    exact hadv.spares.mono fun {i} _ hi => h.apart ha hc (Ne.symm hr) i hi
  -- and none of the new metrics is from it
  have hnone : more.filter (fun m => m.origin = t₂.stream.origin) = [] := by
    rw [List.filter_eq_nil_iff]
    intro m hm
    rw [decide_eq_true_eq]
    intro ho
    exact hr (h.distinct hc ha (ho.symm.trans (horigin m hm)))
  refine ⟨_, g₂, hacc₂.elsewhere hb hheld hspares, ?_, ?_, hlive⟩
  · rw [notes_append_of_ne _ hr]
    exact hnotes
  · rw [List.filter_append]
    show t₂.reports.flatten = _ ++ more.filter (fun m => m.origin = t₂.stream.origin)
    rw [hnone, List.append_nil]
    exact hout

/-- **Work** on one instrument, which may record and report, leaves all others in order. -/
theorem work (h : Ensemble s bound role recorded out settled) {r : Ref .instrument}
    {t t' : Threads} {g g' : Ledger Int} {role₁ : AggregatorId → Role}
    {entries : List (LabelSet × Scalar)} {reports : List (List Metric)}
    (hacc : Account s bound r (role r) t g) (hnotes : t.recorded = notes recorded r)
    (hout : t.reports.flatten = out.filter (fun m => m.origin = t.stream.origin))
    (hw : WorkedOn s s' r t t') (hacc' : Account s' bound' r role₁ t' g')
    (hadv : Advances (role r) role₁ t.accumulation t'.accumulation)
    (hrecorded : t'.recorded = t.recorded ++ entries)
    (hreports : t'.reports = t.reports ++ reports)
    (horigin : ∀ m ∈ reports.flatten, m.origin = t.stream.origin)
    (hhandled : Handled s' bound')
    (howned : ∀ {h x}, s'.handles.get? h = some x →
      (∃ l, (h, l) ∈ bound') ∧ ∃ a, s.accumulation? x.instrument = some a)
    (hheld : ∀ r', r' ≠ r → (s'.heldOn r' bound').Perm (s.heldOn r' bound))
    (hself : settled' r → ∀ l, g'.live l = [])
    (hothers : ∀ r', r' ≠ r → settled' r' → settled r') :
    Ensemble s' bound' (Function.update role r role₁) (recorded ++ entries.map (Prod.mk r))
      (out ++ reports.flatten) settled' := by
  have hsame : t'.stream.origin = t.stream.origin := hw.stream.origin
  constructor
  case accounts =>
    intro r' b hb
    by_cases hr : r' = r
    · subst hr
      obtain rfl := Option.some.inj (hw.self.symm.trans hb)
      rw [Function.update_self]
      refine ⟨t', g', hacc', ?_, ?_, hself⟩
      · rw [hrecorded, hnotes, notes_append_self]
      · show _ = (out ++ reports.flatten).filter (fun m => m.origin = t'.stream.origin)
        -- all that is reported has the one origin, so the filter keeps it whole
        have hall : reports.flatten.filter (fun m => m.origin = t.stream.origin)
            = reports.flatten :=
          List.filter_eq_self.mpr fun m hm => decide_eq_true (horigin m hm)
        rw [hsame, hreports, List.flatten_append, List.filter_append, hout, hall]
    · rw [Function.update_of_ne hr]
      obtain ⟨t₂, g₂, hacc₂, hnotes₂, hout₂, hlive₂⟩ :=
        h.account_other hacc hw hadv horigin hr (hheld r' hr) hb
      exact ⟨t₂, g₂, hacc₂, hnotes₂, hout₂, fun hset => hlive₂ (hothers r' hr hset)⟩
  case apart =>
    intro r₁ r₂ b₁ b₂ hb₁ hb₂ hne i hrole
    obtain ⟨c₁, hc₁, -⟩ := hw.back hb₁
    obtain ⟨c₂, hc₂, -⟩ := hw.back hb₂
    -- what the work touched was its own or is new, so it is nobody else's
    exact apart_update hne (fun hr => h.foreign_of_work hacc hadv hr hc₁)
      (fun hr => h.foreign_of_work hacc hadv hr hc₂) (h.apart hc₁ hc₂ hne i) hrole
  case distinct =>
    intro r₁ r₂ b₁ b₂ hb₁ hb₂ heq
    obtain ⟨c₁, hc₁, ho₁⟩ := hw.back hb₁
    obtain ⟨c₂, hc₂, ho₂⟩ := hw.back hb₂
    exact h.distinct hc₁ hc₂ (ho₁.symm.trans (heq.trans ho₂))
  case known =>
    intro m hm
    rcases List.mem_append.mp hm with hm | hm
    · obtain ⟨r', b, hb, ho⟩ := h.known m hm
      obtain ⟨b', hb', ho'⟩ := hw.forth hb
      exact ⟨r', b', hb', ho.trans ho'⟩
    · exact ⟨r, _, hw.self, (horigin m hm).trans hsame.symm⟩
  case targets =>
    intro e he
    rcases List.mem_append.mp he with he | he
    · obtain ⟨b, hb⟩ := h.targets e he
      obtain ⟨b', hb', -⟩ := hw.forth hb
      exact ⟨b', hb'⟩
    · obtain ⟨entry, -, rfl⟩ := List.mem_map.mp he
      exact ⟨_, hw.self⟩
  case handled => exact hhandled
  case owned =>
    intro q x hx
    obtain ⟨hl, b, hb⟩ := howned hx
    obtain ⟨b', hb', -⟩ := hw.forth hb
    exact ⟨hl, b', hb'⟩

end Ensemble

end Metering
