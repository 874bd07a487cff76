import Metering.Proofs.Pipeline.Collecting
import Metering.Proofs.Pipeline.Making
import Metering.Proofs.Pipeline.Using

/-!
# Making the parts of systems in order

Making an instrument, a meter or a provider, adding a view and naming what was made keep a system in
order.  A new instrument has no aggregators yet, or a new one if it discards, and so takes nothing
from the others; it enters one meter only, perhaps in the place of another instrument.
-/

namespace Metering

open Fallible SystemM

variable {σ : Type}

namespace Orderly

variable {s s' : System σ} {bound : List (Ref .handle × LabelSet)}
  {role : Ref .instrument → AggregatorId → Role} {i : Instrument σ}

/-- No handle is one of an instrument that is not there yet. -/
theorem heldOn_next (h : Orderly s bound role) (hh : s'.handles = s.handles) :
    s'.heldOn s.instruments.next bound = [] := by
  refine System.heldOn_eq_nil fun hx hr => ?_
  rw [hh] at hx
  obtain ⟨i, hi, -⟩ := h.owned hx
  rw [hr, Table.get?_next] at hi
  cases hi

/-- **A new instrument** in order, whose aggregators are new too. -/
theorem add (h : Orderly s bound role) (hi : s'.instruments = s.instruments.add i)
    (hh : s'.handles = s.handles) (hc : s.KeepsClocks s')
    (hp : s.pool.Spares s'.pool fun _ => False) {role₁ : AggregatorId → Role}
    (hs : Steady s' bound s.instruments.next role₁ i)
    (hnew : ∀ {j}, role₁ j ≠ .foreign → ¬ s.pool.Has j)
    (he : ∀ {j}, s'.Exposes j → s.Exposes j) :
    Orderly s' bound (Function.update role s.instruments.next role₁) := by
  have hget := Table.get?_add s.instruments i
  rw [← hi] at hget
  -- what is new plays no role for what was there before
  have hothers : ∀ {r j}, role₁ j ≠ .foreign → role r j = .foreign := by
    intro r j hj
    by_contra hne
    exact hnew hj (h.has hne)
  constructor
  case steady =>
    intro r x hx
    rw [hget] at hx
    split at hx
    · next hr =>
      obtain rfl := Option.some.inj hx
      rw [hr, Function.update_self]
      exact hs
    · next hr =>
      rw [Function.update_of_ne hr]
      refine (h.steady hx).elsewhere hx (by rw [hget, if_neg hr, hx]) hc (List.Perm.of_eq ?_)
        (hp.mono fun _ => False.elim)
      exact System.heldOn_congr fun b _ => System.reference?_congr hh b.1
  case vacant =>
    intro r hx j
    rw [hget] at hx
    split at hx
    · cases hx
    · next hr =>
      rw [Function.update_of_ne hr]
      exact h.vacant hx j
  case apart =>
    intro r₁ r₂ hne j hj
    exact apart_update hne.symm (fun _ => hothers) (fun _ => hothers) (h.apart hne) hj
  case outside =>
    intro j hj
    obtain ⟨hhas, hall⟩ := h.outside (he hj)
    refine ⟨hp.has hhas, fun r => ?_⟩
    by_cases hr : r = s.instruments.next
    · rw [hr, Function.update_self]
      by_contra hf
      exact hnew hf hhas
    · rw [Function.update_of_ne hr]
      exact hall r
  case handled => exact h.handled.congr hh
  case owned =>
    intro q x hx
    rw [hh] at hx
    obtain ⟨i', hi', hmatch⟩ := h.owned hx
    refine ⟨i', ?_, hmatch⟩
    rw [hi]
    exact Table.get?_add_of_some _ hi'

end Orderly

namespace System

variable {s s' : System σ}

/-- **A new instrument** under a name of a meter, perhaps in the place of another. -/
theorem Registry.addInstrument (h : s.Registry) {m : Ref .meter} {y : Meter} {i : Instrument σ}
    (hy : s.meters.get? m = some y) (hi : s'.instruments = s.instruments.add i)
    (hm : s'.meters = s.meters.set m
      { y with instruments := y.instruments.insert i.descriptor.name s.instruments.next })
    (hp : s'.providers = s.providers) (hn : s'.names = s.names) (hc : s'.clocks = s.clocks) :
    s'.Registry := by
  have hget := Table.get?_set { y with
    instruments := y.instruments.insert i.descriptor.name s.instruments.next } hy
  rw [← hm] at hget
  -- what a meter has is new, or it had it before
  have hback : ∀ {m' y' name r}, s'.meters.get? m' = some y' → y'.instruments.get? name = some r →
      (m' = m ∧ name = i.descriptor.name ∧ r = s.instruments.next) ∨
      ∃ y'', s.meters.get? m' = some y'' ∧ y''.instruments.get? name = some r := by
    intro m' y' name r hy' hr
    rcases meter_instrument_of_insert hy hm hy' hr with ⟨hm', hname, hr', -⟩ | ⟨z, hz, -, hr⟩
    · exact Or.inl ⟨hm', hname, hr'⟩
    · exact Or.inr ⟨z, hz, hr⟩
  have hold : ∀ {m' y' name}, s.meters.get? m' = some y' →
      y'.instruments.get? name ≠ some s.instruments.next := by
    intro m' y' name hy' hr
    obtain ⟨j, hj, -⟩ := h.instrument hy' hr
    rw [Table.get?_next] at hj
    cases hj
  constructor
  case named =>
    intro id c hid
    rw [hn] at hid
    rw [hc]
    exact h.named hid
  case clock =>
    intro q x hx
    rw [hp] at hx
    rw [hc]
    exact h.clock hx
  case meter =>
    intro q x key m' hx hk
    rw [hp] at hx
    obtain ⟨y', hy', hprovider, hkey⟩ := h.meter hx hk
    rw [hget]
    split
    · next hm' =>
      rw [hm', hy] at hy'
      obtain rfl := Option.some.inj hy'
      exact ⟨_, rfl, hprovider, hkey⟩
    · exact ⟨y', hy', hprovider, hkey⟩
  case owner =>
    intro m' y' hy'
    rw [hp]
    rw [hget] at hy'
    split at hy'
    · obtain rfl := Option.some.inj hy'
      exact h.owner (y := y) hy
    · exact h.owner hy'
  case instrument =>
    intro m' y' name r hy' hr
    rcases hback hy' hr with ⟨-, rfl, rfl⟩ | ⟨y'', hy'', hr''⟩
    · exact ⟨i, by rw [hi]; exact Table.get?_add_next _ _, rfl⟩
    · obtain ⟨j, hj, hname⟩ := h.instrument hy'' hr''
      exact ⟨j, by rw [hi]; exact Table.get?_add_of_some _ hj, hname⟩
  case once =>
    intro m₁ y₁ name₁ m₂ y₂ name₂ r hy₁ hr₁ hy₂ hr₂
    rcases hback hy₁ hr₁ with ⟨rfl, -, rfl⟩ | ⟨z₁, hz₁, hs₁⟩ <;>
      rcases hback hy₂ hr₂ with ⟨rfl, -, hr⟩ | ⟨z₂, hz₂, hs₂⟩
    · rfl
    · exact absurd hs₂ (hold hz₂)
    · exact absurd (hr ▸ hs₁) (hold hz₁)
    · exact h.once hz₁ hs₁ hz₂ hs₂

/-- **A new meter** of a provider. -/
theorem Registry.addMeter (h : s.Registry) {q : Ref .provider} {x : Provider}
    {key : Option String × Option String} (hx : s.providers.get? q = some x)
    (hm : s'.meters = s.meters.add ⟨⟨key.1, key.2⟩, q, OrderedMap.empty⟩)
    (hp : s'.providers = s.providers.set q
      { x with meters := x.meters.insert key s.meters.next })
    (hi : s'.instruments = s.instruments) (hn : s'.names = s.names) (hc : s'.clocks = s.clocks) :
    s'.Registry := by
  have hget := Table.get?_add s.meters ⟨⟨key.1, key.2⟩, q, OrderedMap.empty⟩
  rw [← hm] at hget
  -- the new meter has no instruments
  have hback : ∀ {m y name r}, s'.meters.get? m = some y → y.instruments.get? name = some r →
      s.meters.get? m = some y := by
    intro m y name r hy hr
    rw [hget] at hy
    split at hy
    · obtain rfl := Option.some.inj hy
      cases hr
    · exact hy
  constructor
  case named =>
    intro id c hid
    rw [hn] at hid
    rw [hc]
    exact h.named hid
  case clock =>
    intro q' x' hx'
    rw [hp, Table.get?_set _ hx] at hx'
    rw [hc]
    split at hx'
    · obtain rfl := Option.some.inj hx'
      exact h.clock (x := x) hx
    · exact h.clock hx'
  case meter =>
    intro q' x' key' m hx' hk
    have hkept : ∀ {q' x'}, s.providers.get? q' = some x' → x'.meters.get? key' = some m →
        ∃ y, s'.meters.get? m = some y ∧ y.provider = q' ∧
          (y.library.name, y.library.version) = key' := by
      intro q' x' hx' hk
      obtain ⟨y, hy, hrest⟩ := h.meter hx' hk
      exact ⟨y, by rw [hm]; exact Table.get?_add_of_some _ hy, hrest⟩
    rw [hp, Table.get?_set _ hx] at hx'
    split at hx'
    · next hq =>
      obtain rfl := Option.some.inj hx'
      change (x.meters.insert key s.meters.next).get? key' = some m at hk
      rw [OrderedMap.get?_insert] at hk
      split at hk
      · next hkey =>
        obtain rfl := Option.some.inj hk
        exact ⟨_, by rw [hget, if_pos rfl], hq.symm, hkey.symm⟩
      · rw [hq]
        exact hkept hx hk
    · exact hkept hx' hk
  case owner =>
    intro m y hy
    have hthere : ∀ {q'} {z : Provider}, s.providers.get? q' = some z →
        ∃ z', s'.providers.get? q' = some z' := by
      intro q' z hz
      rw [hp, Table.get?_set _ hx]
      split
      · exact ⟨_, rfl⟩
      · exact ⟨z, hz⟩
    rw [hget] at hy
    split at hy
    · obtain rfl := Option.some.inj hy
      exact hthere hx
    · obtain ⟨z, hz⟩ := h.owner hy
      exact hthere hz
  case instrument =>
    intro m y name r hy hr
    obtain ⟨j, hj, hname⟩ := h.instrument (hback hy hr) hr
    exact ⟨j, by rw [hi, hj], hname⟩
  case once =>
    intro m₁ y₁ name₁ m₂ y₂ name₂ r hy₁ hr₁ hy₂ hr₂
    exact h.once (hback hy₁ hr₁) hr₁ (hback hy₂ hr₂) hr₂

/-- **A new meter** of a provider has nothing to do with the other ones. -/
theorem Registry.evolves_addMeter {R : Portrait σ → Portrait σ → Prop} [Portrait.Lasting R]
    (h : s.Registry) {q : Ref .provider} {x : Provider} {key : Option String × Option String}
    (hx : s.providers.get? q = some x)
    (hm : s'.meters = s.meters.add ⟨⟨key.1, key.2⟩, q, OrderedMap.empty⟩)
    (hp : s'.providers = s.providers.set q
      { x with meters := x.meters.insert key s.meters.next })
    (hi : s'.instruments = s.instruments) (hpool : s'.pool = s.pool) : s.Evolves R s' where
  retains := retains_of_eq hi
  lasts r := by
    refine lastsAt_of_eq ?_
    unfold portrait?
    rw [hi, hpool]
  neverReturns m name r hr := by
    unfold current? at hr ⊢
    rw [hm, Table.get?_add] at hr
    split at hr
    · cases hr
    · exact Or.inl hr
  registered m y hy := by
    obtain ⟨z, hz⟩ := h.owner hy
    have hmeter : s'.meters.get? m = s.meters.get? m := by
      rw [hy, hm]
      exact Table.get?_add_of_some _ hy
    refine ⟨[], .aside hmeter (retains_of_eq hi) ?_⟩
    unfold stance?
    rw [hmeter, hy, Option.bind_some, Option.bind_some, hp, Table.get?_set _ hx]
    split
    · next hq =>
      rw [hq, hx]
      rfl
    · rfl

end System

namespace SystemM

/-- An idle provider makes accumulators that discard. -/
theorem newAccumulator_of_idle {x : Provider} (hidle : x.stance.isIdle = true) (library : Library)
    (d : Descriptor) (s : System σ) :
    newAccumulator x library d s = (.ok (.discarding s.pool.next, none),
      { s with pool := s.pool.add (Aggregator.fresh .discard d.valueType) }) := by
  have hdiscards : (x.disabled || x.isShutDown) = true := hidle
  unfold newAccumulator
  rw [if_pos hdiscards]
  rfl

/-- A provider that is not idle reads its clock. -/
theorem newAccumulator_of_clock {x : Provider} (hidle : x.stance.isIdle = false) {s : System σ}
    {c : Clock} (hc : s.clocks.get? x.clock = some c) (library : Library) (d : Descriptor) :
    newAccumulator x library d s
      = (.ok (if d.kind.isSynchronous then .synchronous OrderedMap.empty else .asynchronous,
          some ⟨x.stream library d c.now, x.clock⟩), s) := by
  have hrecords : (x.disabled || x.isShutDown) = false := hidle
  unfold newAccumulator now clock
  rw [hrecords, if_neg Bool.false_ne_true]
  simp only [bind_apply, get_apply, demand_apply, hc]
  rfl

/-- A provider makes accumulators that discard, or needs its clock. -/
theorem newAccumulator_outcome (x : Provider) (library : Library) (d : Descriptor) (s : System σ) :
    newAccumulator x library d s = (.ok (.discarding s.pool.next, none),
        { s with pool := s.pool.add (Aggregator.fresh .discard d.valueType) }) ∨
      (∃ e, newAccumulator x library d s = (.error e, s)) ∨
      ∃ c, s.clocks.get? x.clock = some c ∧ newAccumulator x library d s
        = (.ok (if d.kind.isSynchronous then .synchronous OrderedMap.empty else .asynchronous,
            some ⟨x.stream library d c.now, x.clock⟩), s) := by
  cases hidle : x.stance.isIdle with
  | true => exact Or.inl (newAccumulator_of_idle hidle library d s)
  | false =>
    cases hc : s.clocks.get? x.clock with
    | some c => exact Or.inr (Or.inr ⟨c, rfl, newAccumulator_of_clock hidle hc library d⟩)
    | none =>
      have hrecords : (x.disabled || x.isShutDown) = false := hidle
      unfold newAccumulator now clock
      rw [hrecords, if_neg Bool.false_ne_true]
      simp only [bind_apply, get_apply, demand_apply, hc]
      exact Or.inr (Or.inl ⟨_, rfl⟩)

end SystemM

/-- The system with a new instrument under its name of a meter. -/
def System.enlist (s : System σ) (m : Ref .meter) (y : Meter) (i : Instrument σ) (pool : Pool) :
    System σ :=
  { s with
    pool := pool
    instruments := s.instruments.add i
    meters := s.meters.set m
      { y with instruments := y.instruments.insert i.descriptor.name s.instruments.next } }

namespace InOrderBy

variable {R : Portrait σ → Portrait σ → Prop} {since s s' : System σ}

/-- Every meter follows some register. -/
theorem exists_follows (h : InOrderBy R since s) {m : Ref .meter} {y : Meter}
    (hy : s.meters.get? m = some y) : ∃ R, s.Follows m R := by
  obtain ⟨x, hx⟩ := h.registry.owner hy
  let other : Entry := ⟨⟨"", none, none, .counter, .long⟩, none⟩
  refine ⟨⟨x.stance, y.instruments.map fun r => (s.entry? r).getD other⟩, ⟨y, hy, ?_⟩,
    System.stance?_of_get? hy hx⟩
  refine OrderedMap.ext_entries ?_
  show _ = (y.instruments.entries.map _).map _
  rw [List.map_map]
  refine List.map_congr_left fun e he => ?_
  obtain ⟨i, hi, -⟩ := h.registry.instrument hy (OrderedMap.mem_entries_iff.mp he)
  unfold System.entry?
  simp only [Function.comp_apply]
  rw [hi]
  rfl

/-- The provider of a meter registers a view. -/
theorem registered_addView (h : InOrderBy R since s) {m : Ref .meter} {y : Meter}
    (hy : s.meters.get? m = some y) (v : View) :
    System.Registered m s [.view v] (SystemM.addView y.provider v s).2 := by
  obtain ⟨x, hx⟩ := h.registry.owner hy
  unfold SystemM.addView SystemM.provider SystemM.setProvider SystemM.report
  simp only [bind_apply, get_apply, demand_apply, hx, modify_apply]
  apply System.Registered.viewed v (a := x.stance)
  case meter => rfl
  case retains => exact System.retains_of_eq rfl
  case before => exact System.stance?_of_get? hy hx
  case after =>
    rw [← Provider.stance_addView]
    exact System.stance?_of_get? hy (Table.get?_set_self _ hx)

variable [Portrait.Lasting R]

/-! ### Instruments -/

/-- **A new instrument** of a meter, with aggregators of its own. -/
theorem enlist (h : InOrderBy R since s) {m : Ref .meter} {y : Meter} {i : Instrument σ}
    {q : InstrumentRequest σ} {a : Stance} (hy : s.meters.get? m = some y)
    (ha : s.stance? m = some a) (hq : q.descriptor = .ok i.descriptor)
    (hother : s.described? m i.descriptor.name ≠ some i.descriptor)
    (hentry : i.entry = a.entry i.descriptor) (hcallback : i.callback = q.callback) {pool : Pool}
    (hempty : i.contents pool = ⟨OrderedMap.empty, OrderedMap.empty⟩)
    (hp : s.pool.Spares pool fun _ => False) (role₁ : AggregatorId → Role)
    (hnew : ∀ {j}, role₁ j ≠ .foreign → ¬ s.pool.Has j)
    (hs : ∀ {bound s'}, s'.clocks = s.clocks → s'.pool = pool →
      s'.instruments = s.instruments.add i → s'.heldOn s.instruments.next bound = [] →
      Steady s' bound s.instruments.next role₁ i) :
    InOrderBy R since (s.enlist m y i pool) ∧
      s.Enlists (s.enlist m y i pool) m y a i.descriptor q.callback i := by
  obtain ⟨bound, role, horderly⟩ := h.orderly
  have henlists : s.Enlists (s.enlist m y i pool) m y a i.descriptor q.callback i := by
    constructor
    case instruments => rfl
    case meters => rfl
    case providers => rfl
    case others =>
      intro r hr
      have hget : (s.enlist m y i pool).instruments.get? r = s.instruments.get? r :=
        (Table.get?_add s.instruments i r).trans (if_neg hr)
      cases hx : s.instruments.get? r with
      | some x => exact horderly.portrait_elsewhere hx (hget.trans hx) (hp.mono fun _ => False.elim)
      | none =>
        unfold System.portrait?
        rw [hget, hx]
        rfl
    case entry => exact hentry
    case callback => exact hcallback
    case empty => exact hempty
  refine ⟨⟨⟨bound, Function.update role s.instruments.next role₁, ?_⟩, ?_, ?_⟩, henlists⟩
  · apply horderly.add
    case hi => rfl
    case hh => rfl
    case hc => exact fun hc => ⟨_, hc⟩
    case hp => exact hp
    case hs => exact hs rfl rfl rfl (horderly.heldOn_next rfl)
    case hnew => exact hnew
    case he => exact fun hj => hj.congr rfl rfl rfl
  · exact h.registry.addInstrument hy rfl rfl rfl rfl rfl
  · exact h.evolves.trans (henlists.evolves hq hother hy ha)

/-- **Making** an instrument of a meter, for a request of another one than it has. -/
theorem makeInstrument (h : InOrderBy R since s) {m : Ref .meter} {y : Meter}
    {q : InstrumentRequest σ} {d : Descriptor} (hy : s.meters.get? m = some y)
    (hq : q.descriptor = .ok d) (hother : s.described? m d.name ≠ some d) :
    ∃ a i s', SystemM.makeInstrument m d q.callback s = (.ok s.instruments.next, s') ∧
      InOrderBy R since s' ∧ s.stance? m = some a ∧ s.Enlists s' m y a d q.callback i := by
  obtain ⟨x, hx⟩ := h.registry.owner hy
  obtain ⟨c, hc⟩ := h.registry.clock hx
  have ha := System.stance?_of_get? hy hx
  unfold SystemM.makeInstrument SystemM.meter SystemM.provider setMeter
  simp only [bind_apply, get_apply, demand_apply, hy, hx]
  cases hidle : x.stance.isIdle with
  | true =>
    -- the instrument discards, into a new aggregator
    rw [SystemM.newAccumulator_of_idle hidle]
    let i : Instrument σ := ⟨d, .discarding s.pool.next, none, q.callback⟩
    let role₁ : AggregatorId → Role :=
      fun j => if j = s.pool.next then .live LabelSet.empty else .foreign
    have hrole : ∀ j, role₁ j ≠ .foreign ↔ j = s.pool.next := by
      intro j
      by_cases hj : j = s.pool.next
      · simp [role₁, hj]
      · simp [role₁, hj]
    have hentry : i.entry = x.stance.entry d := by
      unfold Stance.entry
      rw [if_pos hidle]
      rfl
    obtain ⟨hkept, henlists⟩ := h.enlist hy ha hq hother hentry rfl rfl
      (.add (a := Aggregator.fresh .discard d.valueType)) role₁
      (fun hj hhas => s.pool.not_has_next ((hrole _).mp hj ▸ hhas)) fun _ hp _ _ =>
        .discarding rfl rfl (by rw [hp]; exact Pool.has_add.mpr (Or.inr rfl))
          (by rw [hp, Pool.get_add_next]) hrole
    exact ⟨_, i, _, rfl, hkept, ha, henlists⟩
  | false =>
    -- it has no aggregators yet
    rw [SystemM.newAccumulator_of_clock hidle hc]
    let p : Processor := ⟨x.stream y.library d c.now, x.clock⟩
    have hentry : Entry.mk d (some (x.chooser.choose d)) = x.stance.entry d := by
      unfold Stance.entry
      rw [hidle, if_neg Bool.false_ne_true]
      rfl
    cases hd : d.kind.isSynchronous with
    | true =>
      let i : Instrument σ := ⟨d, .synchronous OrderedMap.empty, some p, q.callback⟩
      obtain ⟨hkept, henlists⟩ := h.enlist (i := i) hy ha hq hother hentry rfl rfl (.refl s.pool)
        (fun _ => .foreign) (fun hj => absurd rfl hj) fun hclocks hp hi hheld => by
          refine .recording (p := p) rfl rfl hd rfl (by rw [hclocks]; exact hc)
            (Records.start (w := p.stream) ?_ hheld)
          rw [System.accumulation?_of_get? (by rw [hi]; exact Table.get?_add_next _ _), hp]
          rfl
      exact ⟨_, i, _, rfl, hkept, ha, henlists⟩
    | false =>
      let i : Instrument σ := ⟨d, .asynchronous, some p, q.callback⟩
      obtain ⟨hkept, henlists⟩ := h.enlist (i := i) hy ha hq hother hentry rfl rfl (.refl s.pool)
        (fun _ => .foreign) (fun hj => absurd rfl hj) fun hclocks hp _ _ =>
          .observing (p := p) rfl rfl hd rfl (by rw [hclocks]; exact hc) (Observes.start _ rfl)
      exact ⟨_, i, _, rfl, hkept, ha, henlists⟩

/-- **Asking for an instrument** gives the one that is there, or makes it. -/
theorem registration (h : InOrderBy R since s) {m : Ref .meter} {y : Meter}
    (hy : s.meters.get? m = some y) (q : InstrumentRequest σ) :
    Registration s m q (SystemM.requestInstrument m q s) ∧
      InOrderBy R since (SystemM.requestInstrument m q s).2 := by
  unfold SystemM.requestInstrument SystemM.meter
  rw [bind_apply, ofExcept_apply]
  cases hq : q.descriptor with
  | error e => exact ⟨.refused hq, h⟩
  | ok d =>
    rw [show (Except.ok d).mapError Failure.descriptor = .ok d from rfl]
    simp only [bind_apply, get_apply, demand_apply, hy]
    have hcurrent := System.current?_of_get? hy d.name
    cases hr : y.instruments.get? d.name with
    | none =>
      rw [hr] at hcurrent
      -- a name that is not taken describes nothing
      have hother : s.described? m d.name ≠ some d := by
        unfold System.described?
        rw [hcurrent]
        intro he
        cases he
      obtain ⟨a, i, s', happly, hkept, ha, henlists⟩ := h.makeInstrument hy hq hother
      dsimp only
      rw [happly]
      exact ⟨.made hq hother hy ha henlists, hkept⟩
    | some r =>
      rw [hr] at hcurrent
      obtain ⟨i, hi, -⟩ := h.registry.instrument hy hr
      have hdescribed := System.described?_of_get? hcurrent hi
      dsimp only
      rw [bind_apply, instrument_apply hi]
      dsimp only
      -- the name is taken: by the same instrument, which is given again, or by another one, which
      -- is replaced after an entry in the log
      by_cases hd : i.descriptor = d
      · rw [if_pos hd]
        have hagain := Registration.again hq hcurrent hi hd
        cases hcallback : q.callback.isSome with
        | true =>
          rw [if_pos hcallback] at hagain
          exact ⟨hagain, h.setCallback hi q.callback⟩
        | false =>
          rw [hcallback] at hagain
          exact ⟨hagain, h⟩
      · rw [if_neg hd]
        have hother : s.described? m d.name ≠ some d := by
          rw [hdescribed]
          exact fun he => hd (Option.some.inj he)
        obtain ⟨a, i', s', happly, hkept, ha, henlists⟩ :=
          (h.logged (s.log ++ _)).makeInstrument hy hq hother
        unfold SystemM.report
        rw [bind_apply, modify_apply]
        dsimp only
        rw [happly]
        exact ⟨.made hq hother hy ha henlists.of_logged, hkept⟩

/-- **Asking for an instrument** keeps a system in order. -/
theorem requestInstrument (m : Ref .meter) (q : InstrumentRequest σ) :
    Keeps (InOrderBy R since) (SystemM.requestInstrument m q) := by
  intro s h
  cases hy : s.meters.get? m with
  | some y => exact (h.registration hy q).2
  | none =>
    unfold SystemM.requestInstrument SystemM.meter
    rw [bind_apply, ofExcept_apply]
    cases q.descriptor with
    | error e => exact h
    | ok d =>
      rw [show (Except.ok d).mapError Failure.descriptor = .ok d from rfl]
      simp only [bind_apply, get_apply, demand_apply, hy]
      exact h

/-- **A batch**. -/
theorem recordBatch (labels : LabelArgument) (ms : List (BatchTarget × Scalar)) :
    Keeps (InOrderBy R since) (SystemM.recordBatch labels ms) :=
  .recordBatch recordInstrument labels ms

/-! ### Meters, views and providers -/

/-- **Asking for a meter** gives the one that is there, or makes it. -/
theorem requestMeter (q : Ref .provider) (name version : Option String) :
    Keeps (InOrderBy R since) (SystemM.requestMeter q name version) := by
  intro s h
  cases hx : s.providers.get? q with
  | none =>
    unfold SystemM.requestMeter SystemM.provider SystemM.report
    split <;> simp only [bind_apply, get_apply, demand_apply, modify_apply, hx]
    · exact h.logged _
    · exact h
  | some x =>
    obtain ⟨log, happly⟩ := requestMeter_apply hx name version
    rw [happly]
    cases x.meters.get? (name, version) with
    | some m => exact h.logged log
    | none =>
      obtain ⟨bound, role, horderly⟩ := h.orderly
      refine ⟨⟨bound, role, ?_⟩, ?_, ?_⟩
      · exact horderly.beside rfl rfl (fun hc => ⟨_, hc⟩) (.refl _) fun hj =>
          horderly.outside (hj.congr rfl rfl rfl)
      · exact h.registry.addMeter hx rfl rfl rfl rfl rfl
      · exact h.evolves.trans (h.registry.evolves_addMeter hx rfl rfl rfl rfl)

/-- **Adding a view**. -/
theorem addView (q : Ref .provider) (v : View) :
    Keeps (InOrderBy R since) (SystemM.addView q v) := by
  intro s h
  unfold SystemM.addView SystemM.provider SystemM.setProvider SystemM.report
  simp only [bind_apply, get_apply, demand_apply]
  cases hx : s.providers.get? q with
  | none => exact h
  | some x =>
    have hadded : InOrderBy R since { s with
        providers := s.providers.set q { x with chooser := x.chooser.add v } } :=
      h.setProvider hx rfl rfl (x.stance_addView v ▸ .view v)
    exact hadded.logged _

/-- **A new provider** with a clock that is there. -/
theorem addProvider (h : InOrderBy R since s) {x : Provider} {c : Clock}
    (hc : s.clocks.get? x.clock = some c) (hm : x.meters = OrderedMap.empty) :
    InOrderBy R since { s with providers := s.providers.add x } where
  orderly := by
    obtain ⟨bound, role, horderly⟩ := h.orderly
    exact ⟨bound, role, horderly.beside rfl rfl (fun hc => ⟨_, hc⟩) (.refl _) fun hj =>
      horderly.outside (hj.congr rfl rfl rfl)⟩
  registry :=
    { h.registry with
      clock := by
        intro q y hy
        change (s.providers.add x).get? q = some y at hy
        rw [Table.get?_add] at hy
        split at hy
        · obtain rfl := Option.some.inj hy
          exact ⟨c, hc⟩
        · exact h.registry.clock hy
      meter := by
        intro q y key m hy hk
        change (s.providers.add x).get? q = some y at hy
        rw [Table.get?_add] at hy
        split at hy
        · obtain rfl := Option.some.inj hy
          rw [hm] at hk
          cases hk
        · exact h.registry.meter hy hk
      owner := by
        intro m y hy
        obtain ⟨z, hz⟩ := h.registry.owner hy
        exact ⟨z, Table.get?_add_of_some _ hz⟩ }
  evolves := by
    refine h.evolves.trans ⟨System.retains_of_eq rfl, fun _ => System.lastsAt_of_eq rfl,
      System.neverReturns_of_eq rfl, fun m y hy => ⟨[], .aside rfl (System.retains_of_eq rfl) ?_⟩⟩
    obtain ⟨z, hz⟩ := h.registry.owner hy
    unfold System.stance?
    dsimp only
    rw [hy, Option.bind_some, Option.bind_some, hz, Table.get?_add_of_some _ hz]

theorem newProvider (h : InOrderBy R since s) (resource : Resource) {clock : Ref .clock} {c : Clock}
    (hc : s.clocks.get? clock = some c) (disabled : Option Bool) (readers : List (Ref .reader)) :
    InOrderBy R since (SystemM.newProvider resource clock disabled readers s).2 := by
  unfold SystemM.newProvider
  rw [bind_apply, get_apply]
  dsimp only
  rw [bind_apply, set_apply]
  refine Keeps.bind (Keeps.component _ fun s => s.clocks.get? clock) (fun c =>
    (Keeps.forM (fun q => ?_) readers).bind fun _ => .pure _) _ (h.addProvider hc rfl)
  exact (Keeps.component _ fun s => s.readers.get? q).bind fun x => ofCore.setReader q _

end InOrderBy

end Metering
