import Metering.Proofs.Pipeline.Sweep

/-!
# Collecting a provider

A provider collects the instruments of all its meters at one time, in the order in which they were
first made.  Its result is that of their own collections one after the other
(`InOrder.collectProvider_apply`): an observer whose callback is missing or fails gives nothing and
disturbs nobody.  Only an observer that has observed what it cannot record ends the collection, and
then the instruments before it have given what they held to nobody.
-/

namespace Metering

open Fallible SystemM

variable {σ : Type}

namespace System

/-- The instruments that a meter has, in the order in which their names were first used. -/
def instrumentsIn (s : System σ) (m : Ref .meter) : List (Ref .instrument) :=
  match s.meters.get? m with
  | some y => y.instruments.values
  | none => []

/-- The instruments of all meters of a provider. -/
def instrumentsOf (s : System σ) (x : Provider) : List (Ref .instrument) :=
  x.meters.values.flatMap s.instrumentsIn

/-- An observer has no callback, or its next call fails. -/
def IsSilentAt (s : System σ) (r : Ref .instrument) : Prop :=
  ∃ i, s.instruments.get? r = some i ∧ i.accumulator = .asynchronous ∧
    ∀ c ∈ i.callback, ∃ e, c.outcome i.descriptor.valueType = .error e

/-- The next call of the callback of an observer succeeds, and observes a number that the observer
cannot record. -/
def OverreachesAt (s : System σ) (r : Ref .instrument) : Prop :=
  ∃ i p c values, s.instruments.get? r = some i ∧ i.accumulator = .asynchronous ∧
    i.processor = some p ∧ i.callback = some c ∧
    c.outcome i.descriptor.valueType = .ok values ∧ ∃ v ∈ values, p.stream.CannotRecord v.2

variable {s : System σ} {r : Ref .instrument} {x : Provider}

theorem mem_instrumentsIn {m : Ref .meter} : r ∈ s.instrumentsIn m ↔
    ∃ y name, s.meters.get? m = some y ∧ y.instruments.get? name = some r := by
  unfold instrumentsIn
  cases hy : s.meters.get? m with
  | none => exact iff_of_false List.not_mem_nil fun ⟨y, name, hm, _⟩ => nomatch hm
  | some y =>
    rw [OrderedMap.mem_values_iff]
    constructor
    · exact fun ⟨name, hname⟩ => ⟨y, name, rfl, hname⟩
    · rintro ⟨y', name, hm, hname⟩
      obtain rfl := Option.some.inj hm
      exact ⟨name, hname⟩

/-- No instrument of a provider is collected twice. -/
theorem Registry.nodup_instrumentsOf (h : s.Registry) {q : Ref .provider}
    (hx : s.providers.get? q = some x) : (s.instrumentsOf x).Nodup := by
  have hmeters : x.meters.values.Nodup := by
    refine OrderedMap.nodup_values fun hk hk' => ?_
    obtain ⟨y, hy, -, hkey⟩ := h.meter hx hk
    obtain ⟨y', hy', -, hkey'⟩ := h.meter hx hk'
    obtain rfl := Option.some.inj (hy.symm.trans hy')
    exact hkey.symm.trans hkey'
  refine List.nodup_flatMap.mpr ⟨fun m _ => ?_, hmeters.imp fun hne => ?_⟩
  · unfold instrumentsIn
    cases hy : s.meters.get? m with
    | none => exact List.nodup_nil
    | some y =>
      refine OrderedMap.nodup_values fun hr hr' => ?_
      obtain ⟨i, hi, hname⟩ := h.instrument hy hr
      obtain ⟨i', hi', hname'⟩ := h.instrument hy hr'
      obtain rfl := Option.some.inj (hi.symm.trans hi')
      exact hname.symm.trans hname'
  · intro r hr hr'
    obtain ⟨y, name, hy, hname⟩ := mem_instrumentsIn.mp hr
    obtain ⟨y', name', hy', hname'⟩ := mem_instrumentsIn.mp hr'
    exact hne (h.once hy' hname' hy hname)

/-- An instrument of a provider is there. -/
theorem Registry.instrument_of_mem (h : s.Registry) (hr : r ∈ s.instrumentsOf x) :
    ∃ i, s.instruments.get? r = some i := by
  obtain ⟨m, -, hr⟩ := List.mem_flatMap.mp hr
  obtain ⟨y, name, hy, hname⟩ := mem_instrumentsIn.mp hr
  obtain ⟨i, hi, -⟩ := h.instrument hy hname
  exact ⟨i, hi⟩

end System

/-! ### Meters one after the other -/

theorem SystemM.collectInstruments_cons (perform : σ → SystemM σ Unit) (time : Option Int)
    (r : Ref .instrument) (rs : List (Ref .instrument)) :
    collectInstruments perform time (r :: rs) = (do
      let first ← collectInstrument perform r time
      return first ++ (← collectInstruments perform time rs) : SystemM σ _) :=
  rfl

/-- A provider that was shut down collects nothing. -/
theorem SystemM.collectProvider_of_shutDown {perform : σ → SystemM σ Unit} {s : System σ}
    {q : Ref .provider} {x : Provider} (hx : s.providers.get? q = some x)
    (hdown : x.isShutDown = true) :
    collectProvider perform q s = (.ok [], { s with
      log := s.log ++ [.warning "Can't collect metrics, provider is shut down"] }) := by
  unfold collectProvider provider report
  simp only [bind_apply, get_apply, demand_apply, hx, hdown, if_pos, modify_apply, pure_apply]

/-- Collecting two lists of instruments one after the other. -/
theorem SystemM.collectInstruments_append (perform : σ → SystemM σ Unit) (time : Option Int)
    (rs rs' : List (Ref .instrument)) (s : System σ) :
    collectInstruments perform time (rs ++ rs') s = (do
      let first ← collectInstruments perform time rs
      return first ++ (← collectInstruments perform time rs') : SystemM σ _) s := by
  induction rs generalizing s with
  | nil =>
    show _ = (do return ([] ++ (← collectInstruments perform time rs')) : SystemM σ _) s
    rw [bind_apply, List.nil_append]
    rcases collectInstruments perform time rs' s with ⟨_ | _, s'⟩ <;> rfl
  | cons r rs ih =>
    rw [List.cons_append, collectInstruments_cons, collectInstruments_cons]
    simp only [bind_apply]
    rcases collectInstrument perform r time s with ⟨e | metrics, s₁⟩
    · rfl
    · dsimp only
      rw [ih s₁]
      simp only [bind_apply, pure_apply]
      rcases collectInstruments perform time rs s₁ with ⟨e | first, s₂⟩
      · rfl
      · dsimp only
        rcases collectInstruments perform time rs' s₂ with ⟨e | others, s₃⟩
        · rfl
        · dsimp only
          rw [List.append_assoc]

namespace Orderly

variable {s : System σ} {bound : List (Ref .handle × LabelSet)}
  {role : Ref .instrument → AggregatorId → Role}

/-- Meters are collected by collecting their instruments. -/
theorem collectMeters_apply (h : Orderly s bound role) {ms : List (Ref .meter)}
    (hms : ∀ m ∈ ms, ∃ y, s.meters.get? m = some y) (hnodup : (ms.flatMap s.instrumentsIn).Nodup)
    (hquiet : ∀ r ∈ ms.flatMap s.instrumentsIn, s.IsQuietAt r) (time : Int)
    (perform : σ → SystemM σ Unit) :
    collectMeters perform (some time) ms s
      = collectInstruments perform (some time) (ms.flatMap s.instrumentsIn) s := by
  induction ms generalizing s role with
  | nil => rfl
  | cons m ms ih =>
    obtain ⟨y, hy⟩ := hms m List.mem_cons_self
    have hin : s.instrumentsIn m = y.instruments.values := by
      unfold System.instrumentsIn
      rw [hy]
    rw [List.flatMap_cons] at *
    obtain ⟨hfirst, hothers, hdisjoint⟩ := List.nodup_append.mp hnodup
    obtain ⟨result, s₁, role₁, happly, horderly, hgathered⟩ :=
      h.sweep hfirst (fun r hr => hquiet r (List.mem_append_left _ hr)) time perform
    rw [collectInstruments_append, bind_apply, happly]
    unfold collectMeters collectMeter meter
    simp only [bind_apply, get_apply, demand_apply, hy]
    rw [← hin, happly]
    cases result with
    | error e => rfl
    | ok metrics =>
      -- the other meters have the same instruments as before
      have hsame : s₁.instrumentsIn = s.instrumentsIn := by
        funext m
        unfold System.instrumentsIn
        rw [hgathered.rest.meters]
      dsimp only
      rw [ih (s := s₁) horderly (fun m hm => ?_) (by rw [hsame]; exact hothers) fun r hr => ?_,
        hsame]
      · rw [hgathered.rest.meters]
        exact hms m (List.mem_cons_of_mem _ hm)
      · rw [hsame] at hr
        obtain ⟨i, hi, hc⟩ := hquiet r (List.mem_append_right _ hr)
        refine ⟨i, ?_, hc⟩
        rw [hgathered.others fun hmem => hdisjoint r hmem r hr rfl, hi]

end Orderly

/-! ### What a collection comes to -/

namespace Instrument

variable {i : Instrument σ}

theorem learned_eq_some_iff {values : List (LabelSet × Number)} : i.learned = some values ↔
    ∃ c, i.callback = some c ∧ c.outcome i.descriptor.valueType = .ok values := by
  unfold learned Callback.learned
  rw [Option.bind_eq_some_iff]
  refine exists_congr fun c => and_congr_right fun _ => ?_
  cases c.outcome i.descriptor.valueType with
  | error e => exact iff_of_false nofun nofun
  | ok _ => exact ⟨fun h => congrArg _ (Option.some.inj h), fun h => congrArg _ (Except.ok.inj h)⟩

theorem learned_eq_none_iff : i.learned = none ↔
    ∀ c ∈ i.callback, ∃ e, c.outcome i.descriptor.valueType = .error e := by
  unfold learned Callback.learned
  rw [Option.bind_eq_none_iff]
  refine forall₂_congr fun c _ => ?_
  cases c.outcome i.descriptor.valueType with
  | error e => exact iff_of_true rfl ⟨e, rfl⟩
  | ok _ => exact iff_of_false nofun fun ⟨_, he⟩ => nomatch he

/-- A report of an observer fails just if the observer cannot record something that it learns. -/
theorem report_fails_iff {p : Processor} (hd : p.stream.descriptor = i.descriptor)
    (window : OrderedMap LabelSet Aggregator) (time : Int) :
    (∃ e, p.stream.report window i.learned time = .error e) ↔
      ∃ values, i.learned = some values ∧ ∃ v ∈ values, p.stream.CannotRecord v.2 := by
  cases hlearned : i.learned with
  | none => exact iff_of_false (fun ⟨_, he⟩ => nomatch he) fun ⟨_, hv, _⟩ => nomatch hv
  | some values =>
    obtain ⟨c, -, ho⟩ := learned_eq_some_iff.mp hlearned
    obtain ⟨hchecked, -⟩ := Callback.outcome_checked ho
    rw [← hd] at hchecked
    have haccepted := Stream.refusalIn?_eq_none_iff hchecked
    have hsome : (∃ values', some values = some values' ∧
        ∃ v ∈ values', p.stream.CannotRecord v.2) ↔ ∃ v ∈ values, p.stream.CannotRecord v.2 :=
      ⟨fun ⟨_, he, hv⟩ => Option.some.inj he ▸ hv, fun hv => ⟨_, rfl, hv⟩⟩
    rw [hsome]
    unfold Stream.report
    dsimp only
    cases hr : p.stream.refusalIn? values with
    | none =>
      refine iff_of_false (fun ⟨_, he⟩ => nomatch he) ?_
      rintro ⟨v, hv, hcannot⟩
      exact haccepted.mp hr v hv hcannot
    | some e =>
      refine iff_of_true ⟨_, rfl⟩ ?_
      by_contra hnone
      have hall := haccepted.mpr fun v hv hcannot => hnone ⟨v, hv, hcannot⟩
      rw [hr] at hall
      cases hall

end Instrument

/-- A collection of an instrument fails just if it is an observer that overreaches, and gives
nothing if the callback of an observer fails. -/
theorem Orderly.share_observing {s : System σ} {bound : List (Ref .handle × LabelSet)}
    {role : Ref .instrument → AggregatorId → Role} (h : Orderly s bound role)
    {r : Ref .instrument} {i : Instrument σ} (hi : s.instruments.get? r = some i) (time : Int) :
    ((∃ e, s.share time r = .error e) ↔ s.OverreachesAt r) ∧
      (s.IsSilentAt r → s.share time r = .ok []) := by
  -- what the instrument says of itself, told of the instrument that was looked up
  have hover : s.OverreachesAt r ↔ i.accumulator = .asynchronous ∧ ∃ p values,
      i.processor = some p ∧ i.learned = some values ∧ ∃ v ∈ values, p.stream.CannotRecord v.2 := by
    constructor
    · rintro ⟨i', p, c, values, hi', hacc, hp, hc, ho, hv⟩
      obtain rfl := Option.some.inj (hi.symm.trans hi')
      exact ⟨hacc, p, values, hp, Instrument.learned_eq_some_iff.mpr ⟨c, hc, ho⟩, hv⟩
    · rintro ⟨hacc, p, values, hp, hlearned, hv⟩
      obtain ⟨c, hc, ho⟩ := Instrument.learned_eq_some_iff.mp hlearned
      exact ⟨i, p, c, values, hi, hacc, hp, hc, ho, hv⟩
  have hsilent : s.IsSilentAt r → i.accumulator = .asynchronous ∧ i.learned = none := by
    rintro ⟨i', hi', hacc, hfails⟩
    obtain rfl := Option.some.inj (hi.symm.trans hi')
    exact ⟨hacc, Instrument.learned_eq_none_iff.mpr hfails⟩
  unfold System.share
  rw [System.portrait?_of_get? hi, hover]
  dsimp only
  cases h.steady hi with
  | recording accumulator processor =>
    rw [Instrument.collected_recording accumulator processor, accumulator]
    rw [accumulator] at hsilent
    exact ⟨iff_of_false (fun ⟨_, he⟩ => nomatch he) (fun ⟨he, _⟩ => nomatch he),
      fun hs => nomatch (hsilent hs).1⟩
  | discarding accumulator =>
    rw [Instrument.collected_discarding accumulator, accumulator]
    exact ⟨iff_of_false (fun ⟨_, he⟩ => nomatch he) (fun ⟨he, _⟩ => nomatch he), fun _ => rfl⟩
  | @observing p c accumulator processor kind descriptor =>
    rw [Instrument.collected_observing accumulator processor]
    refine ⟨(Instrument.report_fails_iff descriptor _ time).trans ?_, fun hs => ?_⟩
    · constructor
      · exact fun ⟨values, hlearned, hv⟩ => ⟨accumulator, p, values, processor, hlearned, hv⟩
      · rintro ⟨-, p', values, hp', hlearned, hv⟩
        obtain rfl := Option.some.inj (processor.symm.trans hp')
        exact ⟨values, hlearned, hv⟩
    · show p.stream.report _ i.learned time = _
      rw [(hsilent hs).2]
      rfl

/-- What becomes of a collection of a provider at a time. -/
structure ProviderCollected (perform : σ → SystemM σ Unit) (s s' : System σ) (x : Provider)
    (time : Int) (result : Except Failure (List Metric)) : Prop where
  /-- The result is what the instruments would give each on its own, one after the other. -/
  shares : result
    = joined (fun r => (collectInstrument perform r (some time) s).1) (s.instrumentsOf x)
  /-- An observer whose callback is missing or fails gives nothing. -/
  silent : ∀ r ∈ s.instrumentsOf x, s.IsSilentAt r →
    (collectInstrument perform r (some time) s).1 = .ok []
  /-- An instrument fails just if it is an observer that overreaches. -/
  failing : ∀ r ∈ s.instrumentsOf x,
    (∃ e, (collectInstrument perform r (some time) s).1 = .error e) ↔ s.OverreachesAt r
  /-- If none of them does, each is left as its own collection would leave it. -/
  whole : (∀ r ∈ s.instrumentsOf x, ¬ s.OverreachesAt r) → (∃ metrics, result = .ok metrics) ∧
    ∀ r ∈ s.instrumentsOf x,
      s'.portrait? r = (collectInstrument perform r (some time) s).2.portrait? r
  /-- The first one that does tears the collection: those before it have given what they held to
  nobody, and those after it are not collected. -/
  torn : ∀ before r after, s.instrumentsOf x = before ++ r :: after →
    (∀ b ∈ before, ¬ s.OverreachesAt b) → s.OverreachesAt r →
    (∃ e, result = .error e) ∧
      (∀ b ∈ before ++ [r],
        s'.portrait? b = (collectInstrument perform b (some time) s).2.portrait? b) ∧
      ∀ a ∈ after, s'.portrait? a = s.portrait? a
  /-- Other instruments are not concerned. -/
  others : ∀ r, r ∉ s.instrumentsOf x → s'.portrait? r = s.portrait? r

namespace InOrder

variable {since s : System σ}

/-- The meters of a provider are there. -/
theorem exists_meter (h : InOrder since s) {q : Ref .provider} {x : Provider}
    (hx : s.providers.get? q = some x) {m : Ref .meter} (hm : m ∈ x.meters.values) :
    ∃ y, s.meters.get? m = some y := by
  obtain ⟨key, hkey⟩ := OrderedMap.mem_values_iff.mp hm
  obtain ⟨y, hy, -⟩ := h.registry.meter hx hkey
  exact ⟨y, hy⟩

/-- **Collecting a provider** is collecting all its instruments one after the other. -/
theorem collectProvider_gathers (h : InOrder since s) {q : Ref .provider} {x : Provider}
    (hx : s.providers.get? q = some x) (hopen : x.isShutDown = false)
    (hquiet : ∀ r ∈ s.instrumentsOf x, s.IsQuietAt r) (perform : σ → SystemM σ Unit) :
    ∃ c result s', s.clocks.get? x.clock = some c ∧
      SystemM.collectProvider perform q s = (result, s') ∧
      Gathered s s' c.now (s.instrumentsOf x) result := by
  obtain ⟨bound, role, horderly⟩ := h.orderly
  obtain ⟨c, hc⟩ := h.registry.clock hx
  have hnodup := h.registry.nodup_instrumentsOf hx
  obtain ⟨result, s', role', happly, -, hgathered⟩ := horderly.sweep hnodup hquiet c.now perform
  refine ⟨c, result, s', hc, ?_, hgathered⟩
  unfold SystemM.collectProvider provider now SystemM.clock
  simp only [bind_apply, get_apply, demand_apply, hx, hopen, hc, pure_apply,
    if_neg Bool.false_ne_true]
  rw [horderly.collectMeters_apply (fun m => h.exists_meter hx) hnodup hquiet]
  exact happly

/-- **Collecting a provider** whose instruments have callbacks that only observe. -/
theorem collectProvider_apply (h : InOrder since s) {q : Ref .provider} {x : Provider}
    (hx : s.providers.get? q = some x) (hopen : x.isShutDown = false)
    (hquiet : ∀ r ∈ s.instrumentsOf x, ∀ i, s.instruments.get? r = some i →
      ∀ c ∈ i.callback, c.IsQuiet) (perform : σ → SystemM σ Unit) :
    ∃ c result s', s.clocks.get? x.clock = some c ∧
      SystemM.collectProvider perform q s = (result, s') ∧
      ProviderCollected perform s s' x c.now result := by
  obtain ⟨bound, role, horderly⟩ := h.orderly
  have hthere : ∀ {r}, r ∈ s.instrumentsOf x → ∃ i, s.instruments.get? r = some i := fun hr =>
    h.registry.instrument_of_mem hr
  have hquietAt : ∀ r ∈ s.instrumentsOf x, s.IsQuietAt r := fun r hr => by
    obtain ⟨i, hi⟩ := hthere hr
    exact ⟨i, hi, fun _ => hquiet r hr i hi⟩
  have hnodup := h.registry.nodup_instrumentsOf hx
  obtain ⟨c, result, s', hc, happly, hgathered⟩ :=
    h.collectProvider_gathers hx hopen hquietAt perform
  -- collecting one instrument alone, in the state at the start, tells its share and what remains
  have hown : ∀ r ∈ s.instrumentsOf x,
      (SystemM.collectInstrument perform r (some c.now) s).1 = s.share c.now r ∧
      (SystemM.collectInstrument perform r (some c.now) s).2.portrait? r = s.remains c.now r := by
    intro r hr
    obtain ⟨s₁, role₁, hcollect, -, -, hleft⟩ := horderly.collected (hquietAt r hr) c.now perform
    rw [hcollect]
    exact ⟨rfl, hleft⟩
  have hfails : ∀ r ∈ s.instrumentsOf x,
      (∃ e, s.share c.now r = .error e) ↔ s.OverreachesAt r := fun r hr => by
    obtain ⟨i, hi⟩ := hthere hr
    exact (horderly.share_observing hi c.now).1
  have hgives : ∀ r ∈ s.instrumentsOf x, ¬ s.OverreachesAt r →
      ∃ metrics, s.share c.now r = .ok metrics := fun r hr hnot => by
    cases hshare : s.share c.now r with
    | error e => exact absurd ((hfails r hr).mp ⟨e, hshare⟩) hnot
    | ok metrics => exact ⟨metrics, rfl⟩
  refine ⟨c, result, s', hc, happly, ?_⟩
  constructor
  case shares =>
    rw [hgathered.shares]
    exact (joined_congr fun r hr => (hown r hr).1).symm
  case silent =>
    intro r hr hs
    obtain ⟨i, hi⟩ := hthere hr
    rw [(hown r hr).1]
    exact (horderly.share_observing hi c.now).2 hs
  case failing =>
    intro r hr
    rw [(hown r hr).1]
    exact hfails r hr
  case whole =>
    intro hnone
    obtain ⟨hresult, hleft⟩ := hgathered.whole fun r hr => hgives r hr (hnone r hr)
    exact ⟨hresult, fun r hr => (hleft r hr).trans (hown r hr).2.symm⟩
  case torn =>
    intro before r after heq hnone hover
    -- what comes after the torn instrument is not reached
    have hmem : ∀ b ∈ before ++ [r], b ∈ s.instrumentsOf x := by
      intro b hb
      rw [heq]
      rcases List.mem_append.mp hb with hb | hb
      · exact List.mem_append_left _ hb
      · exact List.mem_append_right _ (List.mem_singleton.mp hb ▸ List.mem_cons_self)
    obtain ⟨e, he⟩ := (hfails r (hmem r (by simp))).mpr hover
    rw [heq] at hgathered hnodup
    obtain ⟨hresult, hleft, hafter⟩ := hgathered.torn hnodup
      (fun b hb => hgives b (hmem b (List.mem_append_left _ hb)) (hnone b hb)) he
    exact ⟨⟨e, hresult⟩, fun b hb => (hleft b hb).trans (hown b (hmem b hb)).2.symm, hafter⟩
  case others =>
    intro r hr
    rw [hgathered.portraits, if_neg fun hmem => hr (System.reached_subset hmem)]

end InOrder

end Metering
