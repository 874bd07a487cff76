import Metering.Proofs.Pipeline.Ensemble
import Metering.System.Reader

/-!
# How a pipeline is wired

A `Pipeline` is a provider with one periodic reader, whose exporter keeps its metrics in memory.
`Wired` says how the three refer to each other while the pipeline runs, and `Registered` that every
instrument is to be found under its name in the meter of its library.  Both are kept by whatever
changes only the work of the parts, and not the parts themselves (`System.SameParts`).
-/

namespace Metering

variable {σ : Type}

/-! ### The same parts -/

/-- An instrument that records, with its descriptor and the library that it is for. -/
def System.Makes (s : System σ) (r : Ref .instrument) (d : Descriptor) (library : Library) : Prop :=
  ∃ i a, s.instruments.get? r = some i ∧ i.accumulation? s.pool = some a ∧ i.descriptor = d ∧
    a.stream.descriptor = d ∧ a.stream.library = library

namespace System.Makes

variable {s s' : System σ} {r r' : Ref .instrument} {d : Descriptor} {library : Library}

theorem accumulation? (h : s.Makes r d library) :
    ∃ a, s.accumulation? r = some a ∧ a.stream.descriptor = d ∧ a.stream.library = library := by
  obtain ⟨i, a, hi, ha, -, hd, hl⟩ := h
  refine ⟨a, ?_, hd, hl⟩
  unfold System.accumulation?
  rw [hi, Option.bind_some, ha]

theorem congr (h : s.Makes r d library) (hi : s'.instruments = s.instruments) :
    s'.Makes r d library := by
  obtain ⟨i, a, hget, ha, hdi, hd, hl⟩ := h
  refine ⟨i, { a with pool := s'.pool }, by rw [hi, hget], ?_, hdi, hd, hl⟩
  rw [i.accumulation?_pool s.pool, ha]
  rfl

/-- Work on an instrument does not change what it is. -/
theorem withAccumulation (h : s.Makes r' d library) {a b : Accumulation}
    (ha : s.accumulation? r = some a) (hab : a.stream.Continues b.stream) :
    (s.withAccumulation r b).Makes r' d library := by
  obtain ⟨j, hj, hacc⟩ := Option.bind_eq_some_iff.mp ha
  have hget : ∀ q, (s.withAccumulation r b).instruments.get? q
      = if q = r then some (j.withAccumulation b) else s.instruments.get? q := by
    intro q
    unfold System.withAccumulation
    rw [hj]
    exact Table.get?_set _ hj q
  obtain ⟨i, c, hi, hc, hdi, hd, hl⟩ := h
  by_cases hr : r' = r
  · -- only the start and the window of its stream may be different
    subst hr
    obtain rfl := Option.some.inj (hj.symm.trans hi)
    obtain rfl := Option.some.inj (hacc.symm.trans hc)
    refine ⟨_, b, by rw [hget, if_pos rfl], Instrument.accumulation?_withAccumulation hacc b, ?_,
      ?_, ?_⟩
    · rw [Instrument.descriptor_withAccumulation, hdi]
    · rw [hab]
      exact hd
    · rw [hab]
      exact hl
  · refine ⟨i, { c with pool := b.pool }, by rw [hget, if_neg hr, hi], ?_, hdi, hd, hl⟩
    show i.accumulation? b.pool = _
    rw [i.accumulation?_pool s.pool, hc]
    rfl

end System.Makes

/-- The two systems have the same parts, which may have worked in between. -/
structure System.SameParts (s s' : System σ) : Prop where
  clocks : s'.clocks = s.clocks
  meters : s'.meters = s.meters
  providers : s'.providers = s.providers
  exporters : s'.exporters = s.exporters
  readers : s'.readers = s.readers
  there : ∀ r, (s'.instruments.get? r).isSome = (s.instruments.get? r).isSome
  makes : ∀ {r d library}, s.Makes r d library → s'.Makes r d library

namespace System.SameParts

variable {s s' s'' : System σ}

theorem refl (s : System σ) : s.SameParts s := ⟨rfl, rfl, rfl, rfl, rfl, fun _ => rfl, id⟩

theorem trans (h : s.SameParts s') (h' : s'.SameParts s'') : s.SameParts s'' where
  clocks := h'.clocks.trans h.clocks
  meters := h'.meters.trans h.meters
  providers := h'.providers.trans h.providers
  exporters := h'.exporters.trans h.exporters
  readers := h'.readers.trans h.readers
  there r := (h'.there r).trans (h.there r)
  makes hr := h'.makes (h.makes hr)

/-- Work on an instrument leaves the parts as they are. -/
theorem withAccumulation {r : Ref .instrument} {a b : Accumulation}
    (ha : s.accumulation? r = some a) (hab : a.stream.Continues b.stream) :
    s.SameParts (s.withAccumulation r b) where
  clocks := rfl
  meters := rfl
  providers := rfl
  exporters := rfl
  readers := rfl
  there q := by
    obtain ⟨i, hi, -⟩ := Option.bind_eq_some_iff.mp ha
    unfold System.withAccumulation
    rw [hi]
    show ((s.instruments.set r _).get? q).isSome = _
    rw [Table.get?_set _ hi]
    split
    · next hq => rw [hq, hi]; rfl
    · rfl
  makes h := h.withAccumulation ha hab

/-- What an operation on one instrument did leaves the parts as they are. -/
theorem of_did {r : Ref .instrument} {bound bound' : List (Ref .handle × LabelSet)}
    {t t' : Threads} {entries : List (LabelSet × Scalar)} (ht : Tracks s r bound t)
    (hdid : Did s s' r bound bound' t t' entries)
    (hstream : t.stream.Continues t'.stream) : s.SameParts s' := by
  have hframe := hdid.frame
  have hwork := withAccumulation ht.accumulation hstream
  rw [hframe]
  exact { hwork with makes := fun hr => (hwork.makes hr).congr rfl }

end System.SameParts

/-! ### The wiring -/

/-- A provider with one periodic reader and its exporter. -/
structure Pipeline where
  exporter : Ref .exporter
  reader : Ref .reader
  provider : Ref .provider
deriving DecidableEq

/-- A schedule exports to the exporter, and can wait for it. -/
structure Schedule.Serves (x : Schedule) (e : Ref .exporter) : Prop where
  exporter : x.exporter = e
  timeout : ∃ cap, Delivery.seconds? x.timeout = some cap

/-- A reader with the schedule has not been shut down, and no interval is in progress. -/
structure Schedule.Going (x : Schedule) : Prop where
  inProgress : x.inProgress = false
  isShutDown : x.isShutDown = false

/-- The parts of a pipeline refer to each other, and its provider and its exporter have not been
stopped. -/
structure Wired (P : Pipeline) (schedule : Schedule) (s : System σ) (finished : List Metric) :
    Prop where
  provider : ∃ x c, s.providers.get? P.provider = some x ∧ x.disabled = false ∧
    x.isShutDown = false ∧ x.readers = [P.reader] ∧ s.clocks.get? x.clock = some c
  reader : ∃ x, s.readers.get? P.reader = some x ∧ x.provider = some P.provider ∧
    x.mode = .periodic schedule
  serves : schedule.Serves P.exporter
  exporter : s.exporters.get? P.exporter = some (.memory finished false)

/-- Every meter is one of the provider, under its library, and every instrument one of a meter,
under its name.  The descriptors are those that were planned. -/
structure Registered (P : Pipeline) (plan : Ref .meter → String → Descriptor) (s : System σ) :
    Prop where
  meters : ∀ {x}, s.providers.get? P.provider = some x → ∀ {key m}, x.meters.get? key = some m ↔
    ∃ y, s.meters.get? m = some y ∧ y.library = ⟨key.1, key.2⟩
  provider : ∀ {m y}, s.meters.get? m = some y → y.provider = P.provider
  makes : ∀ {m y name r}, s.meters.get? m = some y → y.instruments.get? name = some r →
    (plan m name).name = name ∧ s.Makes r (plan m name) y.library
  instruments : ∀ {r i}, s.instruments.get? r = some i → ∃ m y name, s.meters.get? m = some y ∧
    y.instruments.get? name = some r

namespace Wired

variable {P : Pipeline} {schedule : Schedule} {s s' : System σ} {finished : List Metric}

/-- The provider may change, and clocks may be moved. -/
theorem transport (h : Wired P schedule s finished)
    (hp : ∀ {x}, s.providers.get? P.provider = some x → ∃ y, s'.providers.get? P.provider = some y ∧
      y.disabled = x.disabled ∧ y.isShutDown = x.isShutDown ∧ y.readers = x.readers ∧
      y.clock = x.clock)
    (hc : ∀ {q c}, s.clocks.get? q = some c → ∃ c', s'.clocks.get? q = some c')
    (hr : s'.readers = s.readers) (he : s'.exporters = s.exporters) :
    Wired P schedule s' finished where
  provider := by
    obtain ⟨x, c, hx, hdisabled, hopen, hreaders, hclock⟩ := h.provider
    obtain ⟨y, hy, hyd, hyo, hyr, hyc⟩ := hp hx
    obtain ⟨c', hc'⟩ := hc hclock
    exact ⟨y, c', hy, hyd.trans hdisabled, hyo.trans hopen, hyr.trans hreaders, by rwa [hyc]⟩
  reader := by
    rw [hr]
    exact h.reader
  serves := h.serves
  exporter := by
    rw [he]
    exact h.exporter

theorem sameParts (h : Wired P schedule s finished) (hs : s.SameParts s') :
    Wired P schedule s' finished := by
  refine h.transport (fun {x} hx => ⟨x, ?_, rfl, rfl, rfl, rfl⟩) (fun {q c} hc => ⟨c, ?_⟩)
    hs.readers hs.exporters
  · rw [hs.providers]
    exact hx
  · rw [hs.clocks]
    exact hc

end Wired

namespace Registered

variable {P : Pipeline} {plan : Ref .meter → String → Descriptor} {s s' : System σ}

/-- Only the meters, the provider and the instruments matter. -/
theorem transport (h : Registered P plan s) (hm : s'.meters = s.meters)
    (hp : ∀ {y}, s'.providers.get? P.provider = some y →
      ∃ x, s.providers.get? P.provider = some x ∧ y.meters = x.meters)
    (ht : ∀ r, (s'.instruments.get? r).isSome = (s.instruments.get? r).isSome)
    (hmakes : ∀ {r d library}, s.Makes r d library → s'.Makes r d library) :
    Registered P plan s' where
  meters hy := by
    obtain ⟨x, hx, hmeters⟩ := hp hy
    rw [hmeters, hm]
    exact h.meters hx
  provider hy := by
    rw [hm] at hy
    exact h.provider hy
  makes hy hr := by
    rw [hm] at hy
    obtain ⟨hname, hmake⟩ := h.makes hy hr
    exact ⟨hname, hmakes hmake⟩
  instruments {r i} hi := by
    have hsome : (s.instruments.get? r).isSome = true := by
      rw [← ht, hi]
      rfl
    obtain ⟨j, hj⟩ := Option.isSome_iff_exists.mp hsome
    rw [hm]
    exact h.instruments hj

theorem congr (h : Registered P plan s) (hm : s'.meters = s.meters)
    (hp : s'.providers = s.providers) (hi : s'.instruments = s.instruments) :
    Registered P plan s' := by
  refine h.transport hm (fun hy => ⟨_, ?_, rfl⟩) (fun _ => by rw [hi]) fun hmakes => hmakes.congr hi
  rw [← hp]
  exact hy

theorem sameParts (h : Registered P plan s) (hs : s.SameParts s') : Registered P plan s' := by
  refine h.transport hs.meters (fun hy => ⟨_, ?_, rfl⟩) hs.there hs.makes
  rw [← hs.providers]
  exact hy

/-- Every instrument records. -/
theorem accumulation? (h : Registered P plan s) {r : Ref .instrument} {i : Instrument σ}
    (hi : s.instruments.get? r = some i) : ∃ a, s.accumulation? r = some a := by
  obtain ⟨m, y, name, hy, hr⟩ := h.instruments hi
  obtain ⟨-, hmake⟩ := h.makes hy hr
  obtain ⟨a, ha, -⟩ := hmake.accumulation?
  exact ⟨a, ha⟩

/-- Only the instrument of a name of a library has its origin. -/
theorem of_origin (h : Registered P plan s) {m : Ref .meter} {y : Meter} {name : String}
    {r : Ref .instrument} {a : Accumulation} (hy : s.meters.get? m = some y)
    (ha : s.accumulation? r = some a) (ho : a.stream.origin = (y.library, name))
    {x : Provider} (hx : s.providers.get? P.provider = some x) :
    y.instruments.get? name = some r := by
  obtain ⟨i, hi, -⟩ := Option.bind_eq_some_iff.mp ha
  obtain ⟨m', y', name', hy', hr⟩ := h.instruments hi
  obtain ⟨hname, hmakes⟩ := h.makes hy' hr
  obtain ⟨b, hb, hd, hl⟩ := hmakes.accumulation?
  obtain rfl := Option.some.inj (ha.symm.trans hb)
  obtain ⟨hlibrary, hd'⟩ := Prod.mk.inj ho
  -- the two meters are for the same library, and so are the same
  have hkey : x.meters.get? (y.library.name, y.library.version) = some m :=
    (h.meters hx).mpr ⟨y, hy, rfl⟩
  have hkey' : x.meters.get? (y.library.name, y.library.version) = some m' :=
    (h.meters hx).mpr ⟨y', hy', hl.symm.trans hlibrary⟩
  obtain rfl := Option.some.inj (hkey.symm.trans hkey')
  obtain rfl := Option.some.inj (hy.symm.trans hy')
  rw [hd, hname] at hd'
  rw [← hd']
  exact hr

end Registered

/-! ### The whole pipeline -/

/-- A pipeline that has not been stopped is in order. -/
structure Running (P : Pipeline) (schedule : Schedule) (plan : Ref .meter → String → Descriptor)
    (s : System σ) (bound : List (Ref .handle × LabelSet))
    (recorded : List (Ref .instrument × LabelSet × Scalar)) (finished : List Metric) : Prop where
  wired : Wired P schedule s finished
  registered : Registered P plan s
  ensemble : ∃ role, Ensemble s bound role recorded finished fun _ => False

end Metering
