import Metering.Proofs.Pipeline.Wiring

/-!
# Making the parts of a pipeline

While a pipeline is running, its provider hands out meters, the meters make instruments, views are
added and the clocks are moved.  None of it disturbs what has been recorded or exported: an
instrument that is made has recorded and reported nothing, and nothing of any other is its.
-/

namespace Metering

open Fallible SystemM

variable {σ : Type}

/-! ### One more instrument -/

namespace System

variable {s s' : System σ} {i : Instrument σ}

theorem accumulation?_add (hi : s'.instruments = s.instruments.add i) (hp : s'.pool = s.pool)
    (r : Ref .instrument) : s'.accumulation? r
      = if r = s.instruments.next then i.accumulation? s.pool else s.accumulation? r := by
  unfold accumulation?
  rw [hi, hp, Table.get?_add]
  split <;> rfl

/-- What has an accumulation is not the next instrument. -/
theorem ne_next_of_accumulation? {r : Ref .instrument} {a : Accumulation}
    (ha : s.accumulation? r = some a) : r ≠ s.instruments.next := by
  rintro rfl
  unfold accumulation? at ha
  rw [Table.get?_next] at ha
  cases ha

theorem accumulation?_add_of_some (hi : s'.instruments = s.instruments.add i)
    (hp : s'.pool = s.pool) {r : Ref .instrument} {a : Accumulation}
    (ha : s.accumulation? r = some a) : s'.accumulation? r = some a := by
  rw [accumulation?_add hi hp, if_neg (ne_next_of_accumulation? ha), ha]

theorem Makes.add {r : Ref .instrument} {d : Descriptor} {library : Library}
    (h : s.Makes r d library) (hi : s'.instruments = s.instruments.add i)
    (hp : s'.pool = s.pool) : s'.Makes r d library := by
  obtain ⟨j, a, hj, hrest⟩ := h
  refine ⟨j, a, ?_, by rwa [hp]⟩
  rw [hi]
  exact Table.get?_add_of_some i hj

end System

namespace Ensemble

variable {s s' : System σ} {bound : List (Ref .handle × LabelSet)}
  {role : Ref .instrument → AggregatorId → Role}
  {recorded : List (Ref .instrument × LabelSet × Scalar)} {out : List Metric}
  {settled : Ref .instrument → Prop} {i : Instrument σ} {w : Stream}

/-- Nothing was done yet with an instrument that is made. -/
theorem account_next (h : Ensemble s bound role recorded out settled)
    (hh : s'.handles = s.handles) (hlong : w.descriptor.valueType = .long)
    (hfresh : ∀ {r a}, s.accumulation? r = some a → a.stream.origin ≠ w.origin)
    (ha : s'.accumulation? s.instruments.next = some (Threads.start s.pool w).accumulation) :
    Account s' bound s.instruments.next (fun _ => .foreign) (Threads.start s.pool w) Ledger.empty ∧
      notes recorded s.instruments.next = [] ∧
      out.filter (fun m => m.origin = w.origin) = [] := by
  -- every handle is one of an instrument that was there before
  have hheld : s'.heldOn s.instruments.next bound = [] := by
    refine System.heldOn_eq_nil fun hx => ?_
    rw [hh] at hx
    obtain ⟨-, b, hb⟩ := h.owned hx
    exact System.ne_next_of_accumulation? hb
  refine ⟨⟨⟨ha, rfl, ?_⟩, sound_start IsSum s.pool hlong, Booked.start IsSum s.pool w, rfl⟩, ?_, ?_⟩
  · rw [hheld]
    exact List.Perm.nil
  · refine List.filterMap_eq_nil_iff.mpr fun e he => ?_
    obtain ⟨a, hea⟩ := h.targets e he
    exact if_neg (System.ne_next_of_accumulation? hea)
  · refine List.filter_eq_nil_iff.mpr fun m hm => ?_
    obtain ⟨r, a, hra, ho⟩ := h.known m hm
    rw [decide_eq_true_eq, ho]
    exact hfresh hra

/-- **Making** an instrument of an origin of its own. -/
theorem add (h : Ensemble s bound role recorded out settled)
    (hi : s'.instruments = s.instruments.add i) (hp : s'.pool = s.pool)
    (hh : s'.handles = s.handles)
    (ha : i.accumulation? s.pool = some (Threads.start s.pool w).accumulation)
    (hlong : w.descriptor.valueType = .long)
    (hfresh : ∀ {r a}, s.accumulation? r = some a → a.stream.origin ≠ w.origin) :
    Ensemble s' bound (Function.update role s.instruments.next fun _ => .foreign) recorded out
      fun _ => False := by
  have hacc := System.accumulation?_add hi hp
  have hsome := fun {r a} => System.accumulation?_add_of_some (r := r) (a := a) hi hp
  have hnext : s'.accumulation? s.instruments.next
      = some (Threads.start s.pool w).accumulation := by
    rw [hacc, if_pos rfl, ha]
  -- what is there now is the new instrument, or was there before
  have hback : ∀ {r a}, s'.accumulation? r = some a →
      (r = s.instruments.next ∧ a = (Threads.start s.pool w).accumulation) ∨
      (r ≠ s.instruments.next ∧ s.accumulation? r = some a) := by
    intro r a hr
    by_cases hn : r = s.instruments.next
    · subst hn
      exact Or.inl ⟨rfl, Option.some.inj (hr.symm.trans hnext)⟩
    · rw [hacc, if_neg hn] at hr
      exact Or.inr ⟨hn, hr⟩
  constructor
  case accounts =>
    intro r a hr
    rcases hback hr with ⟨rfl, rfl⟩ | ⟨hn, hr⟩
    · obtain ⟨haccount, hnotes, hout⟩ := h.account_next hh hlong hfresh hnext
      rw [Function.update_self]
      refine ⟨_, _, haccount, hnotes.symm, ?_, False.elim⟩
      exact hout.symm
    · obtain ⟨t, g, haccount, hnotes, hout, -⟩ := h.accounts hr
      rw [Function.update_of_ne hn]
      refine ⟨t, g, { haccount with tracks := ?_ }, hnotes, hout, False.elim⟩
      exact haccount.tracks.of_handles (hsome haccount.tracks.accumulation) rfl rfl hh
  case apart =>
    intro r r' a a' hr hr' hne j hj
    rcases hback hr with ⟨rfl, -⟩ | ⟨hn, hr⟩
    · rw [Function.update_self] at hj
      exact absurd rfl hj
    rw [Function.update_of_ne hn] at hj
    rcases hback hr' with ⟨rfl, -⟩ | ⟨hn', hr'⟩
    · rw [Function.update_self]
    · rw [Function.update_of_ne hn']
      exact h.apart hr hr' hne j hj
  case distinct =>
    intro r r' a a' hr hr' ho
    rcases hback hr with ⟨rfl, rfl⟩ | ⟨-, hr⟩ <;> rcases hback hr' with ⟨rfl, rfl⟩ | ⟨-, hr'⟩
    · rfl
    · exact absurd ho.symm (hfresh hr')
    · exact absurd ho (hfresh hr)
    · exact h.distinct hr hr' ho
  case known =>
    intro m hm
    obtain ⟨r, a, hr, ho⟩ := h.known m hm
    exact ⟨r, a, hsome hr, ho⟩
  case targets =>
    intro e he
    obtain ⟨a, hr⟩ := h.targets e he
    exact ⟨a, hsome hr⟩
  case handled => exact h.handled.congr hh
  case owned =>
    intro q x hx
    rw [hh] at hx
    obtain ⟨hl, a, hr⟩ := h.owned hx
    exact ⟨hl, a, hsome hr⟩

end Ensemble

/-! ### Meters, views and clocks -/

namespace Registered

variable {P : Pipeline} {plan : Ref .meter → String → Descriptor} {s s' : System σ} {x : Provider}
  {key : Option String × Option String}

/-- **A new meter** of a library that had none. -/
theorem addMeter (h : Registered P plan s) (hx : s.providers.get? P.provider = some x)
    (hnone : x.meters.get? key = none)
    (hm : s'.meters = s.meters.add ⟨⟨key.1, key.2⟩, P.provider, OrderedMap.empty⟩)
    (hp : s'.providers = s.providers.set P.provider
      { x with meters := x.meters.insert key s.meters.next })
    (hi : s'.instruments = s.instruments) : Registered P plan s' := by
  have hget := fun q => Table.get?_add s.meters ⟨⟨key.1, key.2⟩, P.provider, OrderedMap.empty⟩ q
  rw [← hm] at hget
  constructor
  case meters =>
    intro y hy key' m
    rw [hp, Table.get?_set_self _ hx] at hy
    obtain rfl := Option.some.inj hy
    rw [OrderedMap.get?_insert, hget]
    by_cases hn : m = s.meters.next
    · subst hn
      rw [if_pos rfl]
      -- no library had the next meter
      have hold : x.meters.get? key' ≠ some s.meters.next := by
        intro hk
        obtain ⟨y, hy, -⟩ := (h.meters hx).mp hk
        rw [Table.get?_next] at hy
        cases hy
      constructor
      · intro hk
        split at hk
        · next he =>
          subst he
          exact ⟨_, rfl, rfl⟩
        · exact absurd hk hold
      · rintro ⟨y, hy, hl⟩
        obtain rfl := Option.some.inj hy
        obtain ⟨h₁, h₂⟩ := Library.mk.inj hl
        rw [if_pos (Prod.ext h₁.symm h₂.symm)]
    · rw [if_neg hn, ← h.meters hx]
      split
      · next he =>
        subst he
        rw [hnone]
        exact iff_of_false (fun hk => hn (Option.some.inj hk).symm) (by simp)
      · rfl
  case provider =>
    intro m y hy
    rw [hget] at hy
    split at hy
    · obtain rfl := Option.some.inj hy
      rfl
    · exact h.provider hy
  case makes =>
    intro m y name r hy hr
    rw [hget] at hy
    split at hy
    · obtain rfl := Option.some.inj hy
      cases hr
    · obtain ⟨hname, hmakes⟩ := h.makes hy hr
      exact ⟨hname, hmakes.congr hi⟩
  case instruments =>
    intro r i hri
    rw [hi] at hri
    obtain ⟨m, y, name, hy, hr⟩ := h.instruments hri
    refine ⟨m, y, name, ?_, hr⟩
    rw [hm]
    exact Table.get?_add_of_some _ hy

end Registered

namespace SystemM

/-- Moves a clock. -/
def moveClock (r : Ref .clock) (f : Clock → Clock) : SystemM σ Unit := do
  let c ← clock r
  modify fun s => { s with clocks := s.clocks.set r (f c) }

theorem requestMeter_apply {s : System σ} {r : Ref .provider} {x : Provider}
    (hx : s.providers.get? r = some x) (name version : Option String) :
    ∃ log, requestMeter r name version s = match x.meters.get? (name, version) with
      | some m => (.ok m, { s with log := log })
      | none => (.ok s.meters.next, { s with
          log := log
          meters := s.meters.add ⟨⟨name, version⟩, r, OrderedMap.empty⟩
          providers := s.providers.set r
            { x with meters := x.meters.insert (name, version) s.meters.next } }) := by
  unfold requestMeter provider report setProvider
  split
  · refine ⟨s.log ++ [.warning "Meter name cannot be None or empty."], ?_⟩
    simp only [bind_apply, get_apply, demand_apply, modify_apply, hx]
    cases x.meters.get? (name, version) <;> rfl
  · refine ⟨s.log, ?_⟩
    simp only [bind_apply, get_apply, demand_apply, hx]
    cases x.meters.get? (name, version) <;> rfl

end SystemM

namespace Running

variable {P : Pipeline} {schedule : Schedule} {plan : Ref .meter → String → Descriptor}
  {s : System σ} {bound : List (Ref .handle × LabelSet)}
  {recorded : List (Ref .instrument × LabelSet × Scalar)} {finished : List Metric}

theorem congr_log (h : Running P schedule plan s bound recorded finished) (log : List LogEntry) :
    Running P schedule plan { s with log := log } bound recorded finished where
  wired := ⟨h.wired.provider, h.wired.reader, h.wired.serves, h.wired.exporter⟩
  registered := h.registered.congr rfl rfl rfl
  ensemble := by
    obtain ⟨role, hens⟩ := h.ensemble
    exact ⟨role, hens.congr rfl rfl rfl fun _ => id⟩

/-- **Asking for a meter** gives the one that is there, or makes it. -/
theorem requestMeter (h : Running P schedule plan s bound recorded finished)
    (name version : Option String) :
    Running P schedule plan (SystemM.requestMeter P.provider name version s).2 bound recorded
      finished := by
  obtain ⟨x, c, hx, -⟩ := h.wired.provider
  obtain ⟨log, happly⟩ := requestMeter_apply hx name version
  rw [happly]
  cases hm : x.meters.get? (name, version) with
  | some m => exact h.congr_log log
  | none =>
    obtain ⟨role, hens⟩ := h.ensemble
    refine ⟨h.wired.transport ?_ (fun hc => ⟨_, hc⟩) rfl rfl,
      h.registered.addMeter hx hm rfl rfl rfl, role, hens.congr rfl rfl rfl fun _ => id⟩
    intro x' hx'
    obtain rfl := Option.some.inj (hx.symm.trans hx')
    exact ⟨_, Table.get?_set_self _ hx, rfl, rfl, rfl, rfl⟩

/-- **Adding a view** concerns only instruments that are made later. -/
theorem addView (h : Running P schedule plan s bound recorded finished) (v : View) :
    Running P schedule plan (SystemM.addView P.provider v s).2 bound recorded finished := by
  obtain ⟨x, c, hx, -⟩ := h.wired.provider
  obtain ⟨role, hens⟩ := h.ensemble
  unfold SystemM.addView provider setProvider report
  simp only [bind_apply, get_apply, demand_apply, hx, modify_apply]
  refine ⟨h.wired.transport ?_ (fun hc => ⟨_, hc⟩) rfl rfl, h.registered.transport rfl ?_
    (fun _ => rfl) fun hmakes => hmakes.congr rfl, role, hens.congr rfl rfl rfl fun _ => id⟩
  · intro x' hx'
    obtain rfl := Option.some.inj (hx.symm.trans hx')
    exact ⟨_, Table.get?_set_self _ hx, rfl, rfl, rfl, rfl⟩
  · intro y hy
    refine ⟨x, hx, ?_⟩
    change (s.providers.set P.provider { x with chooser := x.chooser.add v }).get? P.provider
      = some y at hy
    rw [Table.get?_set_self _ hx] at hy
    obtain rfl := Option.some.inj hy
    rfl

/-- **Moving a clock** concerns only the times of points. -/
theorem moveClock (h : Running P schedule plan s bound recorded finished) (q : Ref .clock)
    (f : Clock → Clock) :
    Running P schedule plan (SystemM.moveClock q f s).2 bound recorded finished := by
  obtain ⟨role, hens⟩ := h.ensemble
  unfold SystemM.moveClock clock
  simp only [bind_apply, get_apply, demand_apply]
  cases hq : s.clocks.get? q with
  | none => exact h
  | some c =>
    refine ⟨h.wired.transport (fun hx => ⟨_, hx, rfl, rfl, rfl, rfl⟩) ?_ rfl rfl,
      h.registered.congr rfl rfl rfl, role, hens.congr rfl rfl rfl fun _ => id⟩
    intro q' c' hq'
    show ∃ c'', (s.clocks.set q (f c)).get? q' = some c''
    rw [Table.get?_set _ hq]
    split
    · exact ⟨_, rfl⟩
    · exact ⟨_, hq'⟩

end Running

/-! ### Instruments -/

/-- What the meters have after one of them got an instrument is the new one, or they had it
before. -/
theorem System.meter_instrument_of_insert {s s' : System σ} {m m' : Ref .meter} {y y' : Meter}
    {name name' : String} {r r' : Ref .instrument} (hy : s.meters.get? m = some y)
    (hm : s'.meters = s.meters.set m { y with instruments := y.instruments.insert name r })
    (hy' : s'.meters.get? m' = some y') (hr : y'.instruments.get? name' = some r') :
    (m' = m ∧ name' = name ∧ r' = r ∧ y'.library = y.library) ∨
    ∃ z, s.meters.get? m' = some z ∧ z.library = y'.library ∧
      z.instruments.get? name' = some r' := by
  rw [hm, Table.get?_set _ hy] at hy'
  split at hy'
  · next hm' =>
    obtain rfl := Option.some.inj hy'
    change (y.instruments.insert name r).get? name' = some r' at hr
    rw [OrderedMap.get?_insert] at hr
    split at hr
    · next hname => exact Or.inl ⟨hm', hname, (Option.some.inj hr).symm, rfl⟩
    · exact Or.inr ⟨y, by rw [hm', hy], rfl, hr⟩
  · exact Or.inr ⟨y', hy', rfl, hr⟩

namespace Registered

variable {P : Pipeline} {plan : Ref .meter → String → Descriptor} {s s' : System σ}

/-- **A new instrument** of a name that a meter had no instrument of. -/
theorem addInstrument (h : Registered P plan s) {m : Ref .meter} {y : Meter} {d : Descriptor}
    {i : Instrument σ} (hy : s.meters.get? m = some y) (hnone : y.instruments.get? d.name = none)
    (hplan : plan m d.name = d)
    (hm : s'.meters = s.meters.set m
      { y with instruments := y.instruments.insert d.name s.instruments.next })
    (hi : s'.instruments = s.instruments.add i) (hp : s'.pool = s.pool)
    (hproviders : s'.providers = s.providers)
    (hmakes : s'.Makes s.instruments.next d y.library) : Registered P plan s' := by
  have hget := Table.get?_set { y with
    instruments := y.instruments.insert d.name s.instruments.next } hy
  rw [← hm] at hget
  constructor
  case meters =>
    intro x hx key m'
    rw [hproviders] at hx
    rw [h.meters hx, hget]
    split
    · next hm' =>
      subst hm'
      rw [hy]
      constructor
      · rintro ⟨y', hy', hl⟩
        obtain rfl := Option.some.inj hy'
        exact ⟨_, rfl, hl⟩
      · rintro ⟨y', hy', hl⟩
        obtain rfl := Option.some.inj hy'
        exact ⟨_, rfl, hl⟩
    · rfl
  case provider =>
    intro m' y' hy'
    rw [hget] at hy'
    split at hy'
    · obtain rfl := Option.some.inj hy'
      exact h.provider (y := y) hy
    · exact h.provider hy'
  case makes =>
    intro m' y' name r hy' hr
    rcases System.meter_instrument_of_insert hy hm hy' hr with
      ⟨rfl, rfl, rfl, hlibrary⟩ | ⟨z, hz, hlibrary, hr⟩
    · rw [hplan, hlibrary]
      exact ⟨rfl, hmakes⟩
    · -- an instrument that was there before records as before
      obtain ⟨hname, hkept⟩ := h.makes hz hr
      rw [← hlibrary]
      exact ⟨hname, hkept.add hi hp⟩
  case instruments =>
    intro r j hj
    rw [hi, Table.get?_add] at hj
    split at hj
    · next hr =>
      subst hr
      refine ⟨m, _, d.name, by rw [hget, if_pos rfl], ?_⟩
      exact OrderedMap.get?_insert_self _ _ _
    · obtain ⟨m', y', name, hy', hr⟩ := h.instruments hj
      by_cases hm' : m' = m
      · subst hm'
        obtain rfl := Option.some.inj (hy.symm.trans hy')
        refine ⟨m', _, name, by rw [hget, if_pos rfl], ?_⟩
        -- it is not forgotten, since there was none of the new name
        have hne : name ≠ d.name := by
          rintro rfl
          rw [hnone] at hr
          cases hr
        exact (OrderedMap.get?_insert_of_ne _ _ hne).trans hr
      · exact ⟨m', y', name, by rw [hget, if_neg hm', hy'], hr⟩

end Registered

/-- What is asked for is a synchronous instrument of long values. -/
structure InstrumentRequest.IsLong (q : InstrumentRequest σ) : Prop where
  synchronous : q.kind.isSynchronous = true
  long : ∀ {d}, q.descriptor = .ok d → d.valueType = .long
  silent : q.callback = none

theorem InstrumentRequest.kind_of_descriptor {q : InstrumentRequest σ} {d : Descriptor}
    (h : q.descriptor = .ok d) : d.kind = q.kind := by
  unfold InstrumentRequest.descriptor at h
  dsimp only at h
  split at h
  · cases h
  · unfold Descriptor.create at h
    split at h
    · cases h
    · cases h
      rfl

/-- The stream of a new instrument of a provider. -/
def Provider.stream (x : Provider) (library : Library) (d : Descriptor) (start : Int) : Stream :=
  { descriptor := d
    aggregation := (x.chooser.choose d).aggregation
    temporality := (x.chooser.choose d).temporality
    resource := x.resource
    library := library
    start := start
    window := OrderedMap.empty }

namespace SystemM

theorem newAccumulator_apply {s : System σ} {x : Provider} {c : Clock} {d : Descriptor}
    (hdisabled : x.disabled = false) (hopen : x.isShutDown = false)
    (hc : s.clocks.get? x.clock = some c) (hd : d.kind.isSynchronous = true) (library : Library) :
    newAccumulator x library d s
      = (.ok (.synchronous OrderedMap.empty, some ⟨x.stream library d c.now, x.clock⟩), s) := by
  unfold newAccumulator now clock
  rw [hdisabled, hopen, hd, Bool.or_self, if_neg Bool.false_ne_true]
  simp only [bind_apply, get_apply, demand_apply, hc, pure_apply]
  rfl

theorem makeInstrument_apply {s : System σ} {m : Ref .meter} {y : Meter} {x : Provider} {c : Clock}
    {d : Descriptor} (hy : s.meters.get? m = some y) (hx : s.providers.get? y.provider = some x)
    (hdisabled : x.disabled = false) (hopen : x.isShutDown = false)
    (hc : s.clocks.get? x.clock = some c) (hd : d.kind.isSynchronous = true) :
    makeInstrument m d none s = (.ok s.instruments.next, { s with
      instruments := s.instruments.add ⟨d, .synchronous OrderedMap.empty,
        some ⟨x.stream y.library d c.now, x.clock⟩, none⟩
      meters := s.meters.set m
        { y with instruments := y.instruments.insert d.name s.instruments.next } }) := by
  unfold makeInstrument meter provider setMeter
  simp only [bind_apply, get_apply, demand_apply, modify_apply, pure_apply, hy, hx,
    newAccumulator_apply hdisabled hopen hc hd]

end SystemM

namespace Running

variable {P : Pipeline} {schedule : Schedule} {plan : Ref .meter → String → Descriptor}
  {s : System σ} {bound : List (Ref .handle × LabelSet)}
  {recorded : List (Ref .instrument × LabelSet × Scalar)} {finished : List Metric}

/-- **Making an instrument** of a name that the meter has none of. -/
theorem makeInstrument (h : Running P schedule plan s bound recorded finished) {m : Ref .meter}
    {y : Meter} {d : Descriptor} (hy : s.meters.get? m = some y)
    (hnone : y.instruments.get? d.name = none)
    (hplan : plan m d.name = d) (hsync : d.kind.isSynchronous = true)
    (hlong : d.valueType = .long) :
    Running P schedule plan (SystemM.makeInstrument m d none s).2 bound recorded finished := by
  obtain ⟨x, c, hx, hdisabled, hopen, hreaders, hc⟩ := h.wired.provider
  obtain ⟨role, hens⟩ := h.ensemble
  -- an instrument of the same origin would be one of the meter under the same name
  have hfresh : ∀ {r a}, s.accumulation? r = some a →
      a.stream.origin ≠ (x.stream y.library d c.now).origin := by
    intro r a ha ho
    have hr : y.instruments.get? d.name = some r := h.registered.of_origin hy ha ho hx
    rw [hnone] at hr
    cases hr
  rw [makeInstrument_apply hy (by rw [h.registered.provider hy]; exact hx) hdisabled hopen hc hsync]
  refine ⟨h.wired.transport (fun hx => ⟨_, hx, rfl, rfl, rfl, rfl⟩) (fun hc => ⟨_, hc⟩) rfl rfl, ?_,
    _, hens.add (w := x.stream y.library d c.now) rfl rfl rfl rfl hlong hfresh⟩
  refine h.registered.addInstrument hy hnone hplan rfl rfl rfl rfl ?_
  exact ⟨_, _, Table.get?_add_next _ _, rfl, rfl, rfl, rfl⟩

/-- **Asking for an instrument** gives the one that is there, or makes it. -/
theorem requestInstrument (h : Running P schedule plan s bound recorded finished) {m : Ref .meter}
    {q : InstrumentRequest σ} (hq : q.IsLong)
    (hplan : ∀ d, q.descriptor = .ok d → plan m d.name = d) :
    Running P schedule plan (SystemM.requestInstrument m q s).2 bound recorded finished := by
  unfold SystemM.requestInstrument meter instrument
  simp only [bind_apply, ofExcept_apply]
  cases hd : q.descriptor with
  | error e => exact h
  | ok d =>
    simp only [Except.mapError, get_apply, demand_apply]
    cases hy : s.meters.get? m with
    | none => exact h
    | some y =>
      dsimp only
      cases hr : y.instruments.get? d.name with
      | none =>
        dsimp only
        rw [hq.silent]
        refine h.makeInstrument hy hr (hplan d hd) ?_ (hq.long hd)
        rw [InstrumentRequest.kind_of_descriptor hd]
        exact hq.synchronous
      | some r =>
        -- what is there under the name has the descriptor that was planned
        obtain ⟨-, i, a, hi, -, hdescriptor, -⟩ := h.registered.makes hy hr
        rw [hplan d hd] at hdescriptor
        simp only [bind_apply, get_apply, demand_apply, hi, hdescriptor, if_pos, hq.silent]
        exact h

end Running

end Metering
