import Metering.Proofs.Instruments.Working

/-!
# One live aggregator for each label set

A program uses one synchronous instrument: it records, binds handles, records on them and releases
them, also several times, while a collecting thread goes on step by step (`Use`, `Usage.step`).
`Usage.Kept` is what every use keeps; it says that there are threads which the system tracks and
which are sound.  `live_map_authoritative` draws from it what a user of the instrument sees: an
unreleased handle refers to the live aggregator of its label set, references are counted by
unreleased handles, and a collection leaves the label sets that have one.
-/

namespace Metering

open Fallible SystemM

/-- What a program does with one synchronous instrument. -/
inductive Use where
  /-- Records a measurement. -/
  | add (value : Scalar) (labels : LabelArgument)
  /-- Binds a handle. -/
  | bind (labels : LabelArgument)
  /-- Records on a handle. -/
  | record (h : Ref .handle) (value : Scalar)
  /-- Releases a handle, perhaps not for the first time. -/
  | release (h : Ref .handle)
  /-- The collecting thread goes on, or begins with the next collection. -/
  | collect (time : Int)
  /-- A collection takes place at once, except that other threads add measurements whenever it has
  tried to retire an aggregator.  It waits for one that is under way. -/
  | collectDuring (plan : AggregatorId → List (LabelArgument × Scalar)) (time : Int)

/-- A system in which an instrument is used. -/
structure Usage (σ : Type) where
  system : System σ
  /-- The handles that were bound, with their label sets, newest first. -/
  bound : List (Ref .handle × LabelSet) := []
  collector : Collector := .idle

variable {σ : Type}

namespace Usage

/-- The system after the instrument was used. -/
def step (r : Ref .instrument) (u : Usage σ) : Use → Usage σ
  | .add value labels => { u with system := (recordInstrument r value labels u.system).2 }
  | .bind labels =>
    match bindHandle r labels u.system, LabelSet.create labels with
    | (.ok h, s), .ok l => { u with system := s, bound := (h, l) :: u.bound }
    | (_, s), _ => { u with system := s }
  | .record h value =>
    if h ∈ u.bound.map Prod.fst then { u with system := (recordHandle h value u.system).2 } else u
  | .release h =>
    if h ∈ u.bound.map Prod.fst then { u with system := (releaseHandle h u.system).2 } else u
  | .collect time =>
    match onAccumulation r (u.collector.advance time) u.system with
    | (.ok (c, _), s) => { u with system := s, collector := c }
    | (.error _, s) => { u with system := s, collector := .idle }
  | .collectDuring plan time =>
    match u.collector with
    | .idle =>
      { u with
        system :=
          (onAccumulation r (Accumulation.collect (Threads.addsDuring plan) time) u.system).2 }
    | _ => u

/-- The system after the instrument was used several times. -/
def run (r : Ref .instrument) (u : Usage σ) (uses : List Use) : Usage σ := uses.foldl (step r) u

/-- The handles that were bound and not released, and refer to an aggregator. -/
def holders (u : Usage σ) (r : Ref .instrument) (i : AggregatorId) :
    List (Ref .handle × LabelSet) :=
  u.bound.filter fun b => u.system.reference? r b.1 = some i

end Usage

/-- A synchronous instrument that does not discard, as it is when it is made. -/
structure Unused (s : System σ) (r : Ref .instrument) : Prop where
  instrument : ∃ i p c, s.instruments.get? r = some i ∧
    i.accumulator = .synchronous OrderedMap.empty ∧ i.processor = some p ∧
    p.stream.window = OrderedMap.empty ∧ s.clocks.get? p.clock = some c
  handles : ∀ h x, s.handles.get? h = some x → x.instrument ≠ r

/-- The live map of an instrument in use has one authoritative aggregator for each label set. -/
structure Usage.Authoritative (u : Usage σ) (r : Ref .instrument) (a : Accumulation) : Prop where
  /-- A handle that is not released refers to the live aggregator of its label set. -/
  live_of_bound : ∀ h l, (h, l) ∈ u.bound → ∃ x, u.system.handles.get? h = some x ∧
    x.instrument = r ∧ (x.released = false → a.live.get? l = some x.aggregator)
  /-- The references to a live aggregator are as many as the handles that refer to it. -/
  references_eq : ∀ l i, a.live.get? l = some i → a.pool.references i ≠ .retired →
    a.pool.references i = .held (u.holders r i).length
  /-- No aggregator is live and in the window at once. -/
  not_window : ∀ l l' i, a.live.get? l = some i → a.stream.window.get? l' ≠ some i
  /-- Between collections no aggregator in the live map is retired. -/
  not_retired : u.collector = .idle → ∀ l i, a.live.get? l = some i →
    a.pool.references i ≠ .retired
  /-- A collection that takes place at once leaves in the live map just the label sets of the
  handles that are not released. -/
  collected : u.collector = .idle → ∀ (perform : σ → SystemM σ Unit) (time : Option Int),
    ∃ metrics s b, collectInstrument perform r time u.system = (.ok metrics, s) ∧
      s.accumulation? r = some b ∧ s.handles = u.system.handles ∧
      ∀ l, l ∈ b.live.keys ↔ ∃ h x, (h, l) ∈ u.bound ∧ s.handles.get? h = some x ∧
        x.released = false

section

variable {α : Type} [Recordable α] {isTotal : α → List α → Prop} {r : Ref .instrument}
  {u : Usage σ}

/-- What every use of an instrument keeps. -/
structure Usage.Kept (isTotal : α → List α → Prop) (r : Ref .instrument) (u : Usage σ) :
    Prop where
  threads : ∃ role t g, Sound isTotal role t g ∧ Tracks u.system r u.bound t ∧
    t.collector = u.collector
  handled : Handled u.system u.bound
  owned : ∀ b ∈ u.bound, ∀ x, u.system.handles.get? b.1 = some x → x.instrument = r
  timed : u.system.Timed r

namespace Usage.Kept

/-- The threads of an instrument that nobody has used yet. -/
theorem start {s : System σ} (hs : Unused s r) (isTotal : α → List α → Prop)
    (hv : ∀ a, s.accumulation? r = some a →
      a.stream.descriptor.valueType = Recordable.valueType α) :
    Usage.Kept isTotal r { system := s } := by
  obtain ⟨i, p, c, hi, hl, hp, hwindow, hc⟩ := hs.instrument
  have hacc : s.accumulation? r
      = some { pool := s.pool, stream := p.stream, live := OrderedMap.empty } := by
    unfold System.accumulation? Instrument.accumulation?
    rw [hi, Option.bind_some, hl, hp]
  have hstart : (Threads.start s.pool p.stream).accumulation
      = { pool := s.pool, stream := p.stream, live := OrderedMap.empty } := by
    unfold Threads.start
    rw [← hwindow]
  constructor
  case threads =>
    refine ⟨_, _, _, sound_start isTotal s.pool (hv _ hacc), ?_, rfl⟩
    exact ⟨by rw [hstart]; exact hacc, rfl, List.Perm.refl _⟩
  case handled => exact ⟨List.nodup_nil, nofun⟩
  case owned => exact nofun
  case timed => exact ⟨i, p, c, hi, hp, hc⟩

/-- A system that did what its threads did keeps what there is to keep. -/
theorem of_did (hadd : AddsUp isTotal) (hu : u.Kept isTotal r) {s : System σ}
    {bound : List (Ref .handle × LabelSet)} {role : AggregatorId → Role} {t t' : Threads}
    {g : Ledger α} {entries : List (LabelSet × Scalar)} (h : Sound isTotal role t g)
    (hc : t.collector = u.collector) (hdid : Did u.system s r u.bound bound t t' entries)
    (hhandled : Handled s bound)
    (howned : ∀ b ∈ bound, ∀ x, s.handles.get? b.1 = some x → x.instrument = r) :
    Usage.Kept isTotal r { u with system := s, bound := bound } where
  threads := by
    obtain ⟨events, hrun⟩ := hdid.run
    obtain ⟨role', h', -⟩ := h.run hadd events
    rw [hrun] at h'
    exact ⟨role', t', _, h', hdid.tracks, hdid.collector.trans hc⟩
  handled := hhandled
  owned := howned
  timed := by
    obtain ⟨i, p, c, hi, hp, hclock⟩ := hu.timed.withAccumulation t'.accumulation
    have hframe := hdid.frame
    refine ⟨i, p, c, ?_, hp, ?_⟩
    · show s.instruments.get? r = some i
      rw [hframe]
      exact hi
    · show s.clocks.get? p.clock = some c
      rw [hframe]
      exact hclock

/-- An operation that leaves the handles alone keeps what there is to keep. -/
theorem of_did_handles (hadd : AddsUp isTotal) (hu : u.Kept isTotal r) {s : System σ}
    {role : AggregatorId → Role} {t t' : Threads} {g : Ledger α}
    {entries : List (LabelSet × Scalar)} (h : Sound isTotal role t g)
    (hc : t.collector = u.collector) (hdid : Did u.system s r u.bound u.bound t t' entries)
    (hs : s.handles = u.system.handles) : Usage.Kept isTotal r { u with system := s } := by
  refine hu.of_did hadd h hc hdid (hu.handled.congr hs) ?_
  rw [hs]
  exact hu.owned

/-- A collection that leaves the handles alone keeps what there is to keep. -/
theorem of_run (hu : u.Kept isTotal r) {role : AggregatorId → Role} {t t' : Threads} {g : Ledger α}
    (h : Sound isTotal role t' g) (ht : Tracks u.system r u.bound t) (hb : t'.bindings = t.bindings)
    (hheld : t'.held = t.held) :
    Usage.Kept isTotal r
      { u with system := u.system.withAccumulation r t'.accumulation, collector := t'.collector }
    where
  threads :=
    ⟨role, t', g, h, ht.of_handles (System.accumulation?_withAccumulation_self ht.accumulation _)
      hb hheld rfl, rfl⟩
  handled := hu.handled.congr rfl
  owned := hu.owned
  timed := hu.timed.withAccumulation _

/-! ### Single uses -/

/-- **Recording** a measurement. -/
theorem add (hadd : AddsUp isTotal) (hu : u.Kept isTotal r) (value : Scalar)
    (labels : LabelArgument) : (u.step r (.add value labels)).Kept isTotal r := by
  obtain ⟨role, t, g, h, ht, hc⟩ := hu.threads
  obtain ⟨t', entries, hdid, -, -⟩ := ht.record hadd h value labels
  refine hu.of_did_handles hadd h hc hdid ?_
  rw [recordInstrument_apply ht.accumulation]
  rfl

/-- **Binding** a handle. -/
theorem bind (hadd : AddsUp isTotal) (hu : u.Kept isTotal r) (labels : LabelArgument) :
    (u.step r (.bind labels)).Kept isTotal r := by
  obtain ⟨role, t, g, h, ht, hc⟩ := hu.threads
  unfold Usage.step
  dsimp only
  cases hl : LabelSet.create labels with
  | error e =>
    rw [bindHandle_of_error ht.accumulation hl]
    exact hu
  | ok l =>
    obtain ⟨t', x, hok, hhandles, hx, -, hdid⟩ := ht.bind hadd h hu.handled hl
    rcases hbind : bindHandle r labels u.system with ⟨_ | q, s⟩
    · rw [hbind] at hok
      cases hok
    · rw [hbind] at hok hhandles hdid
      obtain rfl : q = u.system.handles.next := Except.ok.inj hok
      refine hu.of_did hadd h hc hdid (hu.handled.add hhandles l) fun b hb y hy => ?_
      -- the new handle is one of the instrument, as all others are
      rw [hhandles, Table.get?_add] at hy
      split at hy
      · obtain rfl := Option.some.inj hy
        exact hx
      · next hne =>
        rcases List.mem_cons.mp hb with rfl | hb
        · exact absurd rfl hne
        · exact hu.owned b hb y hy

/-- **Recording** on a handle. -/
theorem record (hadd : AddsUp isTotal) (hu : u.Kept isTotal r) (q : Ref .handle)
    (value : Scalar) : (u.step r (.record q value)).Kept isTotal r := by
  obtain ⟨role, t, g, h, ht, hc⟩ := hu.threads
  unfold Usage.step
  dsimp only
  split
  swap
  · exact hu
  next hmem =>
    obtain ⟨⟨q, l⟩, hl, rfl⟩ := List.mem_map.mp hmem
    obtain ⟨x, hx⟩ := hu.handled.present _ hl
    dsimp only at hx ⊢
    cases ho : x.released with
    | true =>
      obtain ⟨entries, hrecord⟩ := recordHandle_of_released hx ho value
      rw [hrecord]
      exact hu.of_did_handles hadd h hc (ht.did_log _) rfl
    | false =>
      obtain ⟨t', entries, hdid, -, -⟩ := ht.recordOn hl hx (hu.owned _ hl x hx) ho value
      refine hu.of_did_handles hadd h hc hdid ?_
      rw [recordHandle_of_open hx ho, recordInto_apply]
      split <;> rfl

/-- **Releasing** a handle. -/
theorem release (hadd : AddsUp isTotal) (hu : u.Kept isTotal r) (q : Ref .handle) :
    (u.step r (.release q)).Kept isTotal r := by
  obtain ⟨role, t, g, h, ht, hc⟩ := hu.threads
  unfold Usage.step
  dsimp only
  split
  swap
  · exact hu
  next hmem =>
    obtain ⟨⟨q, l⟩, hl, rfl⟩ := List.mem_map.mp hmem
    obtain ⟨x, hx⟩ := hu.handled.present _ hl
    dsimp only at hx ⊢
    cases ho : x.released with
    | true =>
      -- a second release takes no reference away
      obtain ⟨entries, hrelease⟩ := releaseHandle_of_released hx ho
      rw [hrelease]
      exact hu.of_did_handles hadd h hc (ht.did_log _) rfl
    | false =>
      obtain ⟨t', hdid⟩ := ht.release hu.handled hl hx (hu.owned _ hl x hx) ho
      have hs : (releaseHandle q u.system).2.handles
          = u.system.handles.set q { x with released := true } := by
        rw [releaseHandle_of_open hx ho]
      refine hu.of_did hadd h hc hdid (hu.handled.set hx hs) fun b hb y hy => ?_
      rw [hs, Table.get?_set _ hx] at hy
      split at hy
      · obtain rfl := Option.some.inj hy
        exact hu.owned _ hl x hx
      · exact hu.owned b hb y hy

/-- **Collecting** goes on by one step. -/
theorem collect (hadd : AddsUp isTotal) (hu : u.Kept isTotal r) (time : Int) :
    (u.step r (.collect time)).Kept isTotal r := by
  obtain ⟨role, t, g, h, ht, hc⟩ := hu.threads
  obtain ⟨role', h', -⟩ := h.collect hadd time
  unfold Usage.step
  dsimp only
  rw [onAccumulation_apply ht.accumulation, ← hc]
  obtain ⟨c, report, a, ha⟩ := h.advance_ok hadd time
  rw [Threads.step_collect ha] at h'
  rw [ha]
  exact hu.of_run h' ht rfl rfl

/-- **Collecting** at once, while other threads add measurements. -/
theorem collectDuring (hadd : AddsUp isTotal) (hu : u.Kept isTotal r)
    (plan : AggregatorId → List (LabelArgument × Scalar)) (time : Int) :
    (u.step r (.collectDuring plan time)).Kept isTotal r := by
  obtain ⟨role, t, g, h, ht, hc⟩ := hu.threads
  unfold Usage.step
  dsimp only
  split
  swap
  · exact hu
  next hidle =>
    obtain ⟨metrics, a, entries, events, hcollect, -, -, hrun⟩ :=
      Threads.run_collect hadd (Threads.isRun_addsDuring hadd plan) h (hc.trans hidle) time
    obtain ⟨role', h', -⟩ := h.run hadd (.collect time :: events)
    rw [hrun] at h'
    rw [onAccumulation_apply ht.accumulation, hcollect]
    have hkept := hu.of_run h' ht rfl rfl
    rwa [show { t with accumulation := a, .. : Threads }.collector = u.collector from hc] at hkept

/-! ### Runs -/

/-- **Any use** of the instrument keeps what there is to keep. -/
theorem step (hadd : AddsUp isTotal) (hu : u.Kept isTotal r) (use : Use) :
    (u.step r use).Kept isTotal r := by
  cases use with
  | add value labels => exact hu.add hadd value labels
  | bind labels => exact hu.bind hadd labels
  | record q value => exact hu.record hadd q value
  | release q => exact hu.release hadd q
  | collect time => exact hu.collect hadd time
  | collectDuring plan time => exact hu.collectDuring hadd plan time

/-- **Any run** of uses keeps what there is to keep. -/
theorem run (hadd : AddsUp isTotal) (hu : u.Kept isTotal r) (uses : List Use) :
    (u.run r uses).Kept isTotal r := by
  induction uses generalizing u with
  | nil => exact hu
  | cons use uses ih => exact ih (hu.step hadd use)

/-! ### What a user sees -/

/-- **One authority**: an unreleased handle refers to the live aggregator of its label set. -/
theorem live_of_bound {role : AggregatorId → Role} {t : Threads} {g : Ledger α}
    (hu : u.Kept isTotal r) (h : Sound isTotal role t g) (ht : Tracks u.system r u.bound t)
    {q : Ref .handle} {l : LabelSet} (hl : (q, l) ∈ u.bound) :
    ∃ x, u.system.handles.get? q = some x ∧ x.instrument = r ∧
      (x.released = false → t.live.get? l = some x.aggregator) := by
  obtain ⟨x, hx⟩ := hu.handled.present _ hl
  have hr := hu.owned _ hl x hx
  refine ⟨x, hx, hr, fun ho => ?_⟩
  exact h.mapped.live_of_role (h.mapped.holders (ht.mem_held hl hx hr ho))

/-- **References** to a live aggregator are counted by the handles that are not released. -/
theorem references_eq {role : AggregatorId → Role} {t : Threads} {g : Ledger α}
    (h : Sound isTotal role t g) (ht : Tracks u.system r u.bound t) {l : LabelSet}
    {i : AggregatorId} (hl : t.live.get? l = some i) (hi : t.pool.references i ≠ .retired) :
    t.pool.references i = .held (u.holders r i).length := by
  have hrole : role i = .live l :=
    (h.mapped.role_of_live hl).resolve_right fun hr => hi (h.references_retired hr)
  rw [h.references_live hrole, ht.held.count_eq]
  unfold Usage.holders
  rw [System.count_heldOn]
  intro l' hmem
  -- an aggregator is live for one label set only
  rw [← ht.held.mem_iff] at hmem
  exact (Role.live.inj (hrole.symm.trans (h.mapped.holders hmem))).symm

/-- **Live or in the window**, but not both. -/
theorem not_window {role : AggregatorId → Role} {t : Threads} {g : Ledger α}
    (h : Sound isTotal role t g) {l l' : LabelSet} {i : AggregatorId}
    (hl : t.live.get? l = some i) : t.stream.window.get? l' ≠ some i := by
  intro hw
  have hwindow := h.window_iff.mp hw
  rcases h.mapped.role_of_live hl with hr | hr
  · rw [hr] at hwindow
    cases hwindow
  · rw [hr] at hwindow
    cases hwindow

/-- **Between collections** no aggregator in the live map is retired. -/
theorem not_retired {role : AggregatorId → Role} {t : Threads} {g : Ledger α}
    (h : Sound isTotal role t g) (hc : t.collector = .idle) {l : LabelSet} {i : AggregatorId}
    (hl : t.live.get? l = some i) : t.pool.references i ≠ .retired := by
  rcases h.mapped.role_of_live hl with hr | hr
  · exact h.references_live_ne hr rfl
  · have hretired := h.mapped.retired_iff.mpr hr
    rw [hc] at hretired
    cases hretired

/-- **After a collection** that nobody interfered with, the live map has the label sets of the
handles that are not released. -/
theorem collected (hadd : AddsUp isTotal) (hu : u.Kept isTotal r) {role : AggregatorId → Role}
    {t : Threads} {g : Ledger α} (h : Sound isTotal role t g) (ht : Tracks u.system r u.bound t)
    (hc : t.collector = .idle) (perform : σ → SystemM σ Unit) (time : Option Int) :
    ∃ metrics a, collectInstrument perform r time u.system
        = (.ok metrics, u.system.withAccumulation r a) ∧
      ∀ l, l ∈ a.live.keys ↔ ∃ q x, (q, l) ∈ u.bound ∧ u.system.handles.get? q = some x ∧
        x.released = false := by
  obtain ⟨metrics, a, events, hcollect, -, hrun, -, hswept⟩ :=
    ht.collect hadd h hc (fun _ => hu.timed) perform
  obtain ⟨role', h', -⟩ := h.run hadd events
  rw [hrun] at h' hswept
  refine ⟨metrics, a, hcollect, fun l => ?_⟩
  constructor
  · intro hmem
    obtain ⟨i, hi⟩ : ∃ i, a.live.get? l = some i := by
      cases hget : a.live.get? l with
      | some i => exact ⟨i, rfl⟩
      | none => exact absurd hmem ((a.live.get?_eq_none_iff l).mp hget)
    have hheld : (l, i) ∈ t.held := hswept.held hc hi
    rw [ht.held.mem_iff, System.mem_heldOn] at hheld
    obtain ⟨q, hq, href⟩ := hheld
    obtain ⟨x, hx, -, ho, -⟩ := System.reference?_eq_some.mp href
    exact ⟨q, x, hq, hx, ho⟩
  · rintro ⟨q, x, hq, hx, ho⟩
    have hheld := ht.mem_held hq hx (hu.owned _ hq x hx) ho
    have hlive : a.live.get? l = some x.aggregator :=
      h'.mapped.live_of_role (h'.mapped.holders hheld)
    by_contra hmem
    rw [(a.live.get?_eq_none_iff l).mpr hmem] at hlive
    cases hlive

theorem authoritative (hadd : AddsUp isTotal) (hu : u.Kept isTotal r) :
    ∃ a, u.system.accumulation? r = some a ∧ u.Authoritative r a := by
  obtain ⟨role, t, g, h, ht, hc⟩ := hu.threads
  refine ⟨t.accumulation, ht.accumulation, ?_⟩
  constructor
  case live_of_bound => exact fun q l hl => hu.live_of_bound h ht hl
  case references_eq => exact fun l i hl hi => references_eq h ht hl hi
  case not_window => exact fun l l' i hl => not_window h hl
  case not_retired => exact fun hidle l i hl => not_retired h (hc.trans hidle) hl
  case collected =>
    intro hidle perform time
    obtain ⟨metrics, a, hcollect, hkeys⟩ :=
      hu.collected hadd h ht (hc.trans hidle) perform time
    exact ⟨metrics, _, a, hcollect, System.accumulation?_withAccumulation_self ht.accumulation a,
      rfl, hkeys⟩

end Usage.Kept

end

/-- **Authority of the live map**: however an instrument is used from when it is made, at every
moment its live map has one authoritative aggregator for each label set. -/
theorem live_map_authoritative {s : System σ} {r : Ref .instrument} (hs : Unused s r)
    (uses : List Use) :
    let u := Usage.run r { system := s } uses
    ∃ a, u.system.accumulation? r = some a ∧ u.Authoritative r a := by
  intro u
  obtain ⟨i, p, c, hi, hl, hp, -, -⟩ := hs.instrument
  have hacc : ∀ a, s.accumulation? r = some a →
      a.stream.descriptor.valueType = p.stream.descriptor.valueType := by
    intro a ha
    unfold System.accumulation? Instrument.accumulation? at ha
    rw [hi, Option.bind_some, hl, hp] at ha
    obtain rfl := Option.some.inj ha
    rfl
  cases hv : p.stream.descriptor.valueType with
  | long =>
    have hstart := Usage.Kept.start hs IsSum fun a ha => (hacc a ha).trans hv
    exact (hstart.run addsUp_isSum uses).authoritative addsUp_isSum
  | double =>
    have hstart := Usage.Kept.start hs AnyTotal fun a ha => (hacc a ha).trans hv
    exact (hstart.run addsUp_anyTotal uses).authoritative addsUp_anyTotal

/-- Two handles are bound to one label set, and one of them is released twice before a collection:
the other one still holds its reference to the live aggregator. -/
theorem live_map_authoritative_of_second_release :
    let stream : Stream :=
      { descriptor := ⟨"requests", some "", some "1", .counter, .long⟩
        aggregation := .sum
        temporality := .delta
        resource := Resource.empty
        library := ⟨some "server", none⟩
        start := 0
        window := OrderedMap.empty }
    let s : System Unit :=
      { (System.empty : System Unit) with
        clocks := Table.empty.add (.manual 0)
        instruments := Table.empty.add
          ⟨stream.descriptor, .synchronous OrderedMap.empty, some ⟨stream, ⟨0⟩⟩, none⟩ }
    let l := LabelSet.empty
    let u := Usage.run ⟨0⟩ { system := s }
      [.bind (.set l), .bind (.set l), .release ⟨0⟩, .release ⟨0⟩, .collectDuring (fun _ => []) 1]
    ∃ a, u.system.accumulation? ⟨0⟩ = some a ∧ a.live.get? l = some ⟨0⟩ ∧
      a.pool.references ⟨0⟩ = .held 1 := by
  intro stream s l u
  have hs : Unused s ⟨0⟩ := ⟨⟨_, _, _, rfl, rfl, rfl, rfl, rfl⟩, fun h x hx => by
    simp [s, System.empty, Table.get?, Table.empty] at hx⟩
  obtain ⟨a, ha, hu⟩ : ∃ a, u.system.accumulation? ⟨0⟩ = some a ∧ u.Authoritative ⟨0⟩ a :=
    live_map_authoritative hs _
  have hbound : (⟨1⟩, l) ∈ u.bound := by decide +kernel
  have hopen : (u.system.handles.get? ⟨1⟩).map (fun x => (x.released, x.aggregator))
      = some (false, ⟨0⟩) := by decide +kernel
  have hholders : (u.holders ⟨0⟩ ⟨0⟩).length = 1 := by decide +kernel
  have hidle : u.collector = .idle := by decide +kernel
  clear_value u
  obtain ⟨x, hx, -, hlive⟩ := hu.live_of_bound ⟨1⟩ l hbound
  rw [hx] at hopen
  obtain ⟨ho, hi⟩ := Prod.mk.inj (Option.some.inj hopen)
  have hl := hlive ho
  rw [hi] at hl
  refine ⟨a, ha, hl, ?_⟩
  rw [hu.references_eq l ⟨0⟩ hl (hu.not_retired hidle l ⟨0⟩ hl), hholders]

end Metering
