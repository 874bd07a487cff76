import Metering.Proofs.Aggregator.Family
import Metering.Proofs.Pipeline.Aside
import Metering.Session.Pipeline

/-!
# Steps keep systems in order

One lemma for each sort of steps says that such a step keeps a system in order, whatever its answer.
A step that collects does so if collecting an instrument does, and a step that calls back in another
way if the steps that its callback performs do.
-/

namespace Metering

open Fallible SystemM

variable {σ : Type} {R : Portrait σ → Portrait σ → Prop} {since : System σ}
  {perform : σ → SystemM σ Unit}

/-! ### Steps that collect -/

/-- The step collects an accumulator, and so may call back. -/
def AccumulatorStep.collects : AccumulatorStep σ → Bool
  | .collect _ _ _ _ => true
  | _ => false

/-- The step collects the provider. -/
def ProviderStep.collects : ProviderStep → Bool
  | .collect _ | .flush _ | .shutdown _ => true
  | _ => false

/-- The step collects the meter. -/
def MeterStep.collects : MeterStep σ → Bool
  | .collect _ _ => true
  | _ => false

/-- The step collects the instrument. -/
def InstrumentStep.collects : InstrumentStep σ → Bool
  | .collect _ _ => true
  | _ => false

/-- The step collects a provider for the exporter. -/
def ExporterStep.collects : ExporterStep → Bool
  | .send _ _ => true
  | _ => false

/-- The step collects the provider of the reader. -/
def ReaderStep.collects : ReaderStep → Bool
  | .collect _ | .flush _ | .shutdown _ | .tick _ => true
  | _ => false

/-- The step collects, and so may call back. -/
def Step.collects : Step → Bool
  | .accumulator x => x.collects
  | .provider x => x.collects
  | .meter x => x.collects
  | .instrument x => x.collects
  | .exporter x => x.collects
  | .reader x => x.collects
  | _ => false

/-! ### Names -/

namespace Fallible.Keeps

variable {I : System σ → Prop}

theorem find (c : Component) (id : String) : Keeps I (SystemM.find (σ := σ) c id) :=
  (component _ fun s => s.names.get? id).bind fun _ => demand _ _

theorem findAggregator (id : String) : Keeps I (SystemM.findAggregator (σ := σ) id) :=
  (component _ fun s => s.names.get? id).bind fun _ => demand _ _

theorem labelArgument (spec : LabelSpec) : Keeps I (SystemM.labelArgument (σ := σ) spec) :=
  ofExcept _

theorem labelSet (spec : LabelSpec) : Keeps I (SystemM.labelSet (σ := σ) spec) :=
  (labelArgument spec).bind fun _ => ofExcept _

theorem stateOf (i : AggregatorId) : Keeps I (Metering.stateOf (σ := σ) i) :=
  get.bind fun _ => .pure _

theorem describeAggregator (i : AggregatorId) :
    Keeps I (Metering.describeAggregator (σ := σ) i) :=
  get.bind fun _ => .pure _

theorem windowOf (r : Ref .processor) : Keeps I (Metering.windowOf (σ := σ) r) :=
  (component _ fun s => s.processors.get? r).bind fun _ => .pure _

theorem liveOf (r : Ref .accumulator) : Keeps I (Metering.liveOf (σ := σ) r) := by
  refine (component _ fun s => s.accumulators.get? r).bind fun a => ?_
  cases a.accumulator <;> exact .pure _

end Fallible.Keeps

theorem Entity.eq_of_ref? {c : Component} {e : Entity} {r : Ref c} (h : e.ref? c = some r) :
    e = .component c r := by
  cases e with
  | aggregator i => cases h
  | component c' r' =>
    by_cases hc : c' = c
    · obtain rfl := hc
      rw [Entity.ref?_component] at h
      rw [Option.some.inj h]
    · rw [Entity.ref?, dif_neg hc] at h
      cases h

theorem Entity.clock_inj {r r' : Ref .clock}
    (h : Entity.component .clock r = .component .clock r') : r = r' :=
  eq_of_heq (Entity.component.inj h).2

/-- A clock that has a name is there. -/
theorem InOrderBy.findClock {s : System σ} (h : InOrderBy R since s) (id : String) :
    Ends (InOrderBy R since) (fun c s => ∃ x, s.clocks.get? c = some x)
      (SystemM.find .clock id s) := by
  unfold SystemM.find named
  simp only [bind_apply, get_apply, demand_apply]
  cases he : s.names.get? id with
  | none => exact .of_error h _
  | some e =>
    dsimp only
    cases hr : e.ref? .clock with
    | none => exact .of_error h _
    | some c =>
      refine .of_ok h (h.registry.named (?_ : s.names.get? id = _))
      rw [he, Entity.eq_of_ref? hr]

variable [Portrait.Lasting R]

section

variable {reserved : AggregatorId → Prop} {base s : System σ}

/-- **Naming** what is no clock and no aggregator. -/
theorem Aside.nameOther (id : String) {c : Component} (hc : c ≠ .clock) (r : Ref c) :
    Keeps (Aside reserved base) (SystemM.name (σ := σ) id (.component c r)) :=
  fun _ h =>
    (h.named_ends id (fun he => absurd (Entity.component.inj he).1 hc) fun he => nomatch he).kept

/-- **Naming** an aggregator that may be used. -/
theorem Aside.nameAggregator (h : Aside reserved base s) (id : String) {i : AggregatorId}
    (hi : s.pool.Offers reserved i) :
    Ends (Aside reserved base) (fun _ s' => s'.pool = s.pool)
      (SystemM.name (σ := σ) id (.aggregator i) s) :=
  h.named_ends id nofun fun he => Entity.aggregator.inj he ▸ hi

theorem Aside.nameAggregatorAgain (h : Aside reserved base s) (id : String) {i : AggregatorId}
    (hi : s.pool.Offers reserved i) :
    Ends (Aside reserved base) anything (SystemM.nameAgain (σ := σ) id (.aggregator i) s) :=
  Ends.look Keeps.get h fun _ => (h.nameAggregator id hi).bind fun _ _ h _ => (Keeps.pure _).ends h

theorem InOrderBy.name (id : String) {c : Component} (hc : c ≠ .clock) (r : Ref c) :
    Keeps (InOrderBy R since) (SystemM.name id (.component c r)) :=
  .of_aside fun _ _ => Aside.nameOther id hc r

theorem InOrderBy.nameAgain (id : String) {c : Component} (hc : c ≠ .clock) (r : Ref c) :
    Keeps (InOrderBy R since) (SystemM.nameAgain id (.component c r)) :=
  Keeps.get.bind fun _ => (InOrderBy.name id hc r).bind fun _ => .pure _

end

/-! ### The environment, clocks and sinks -/

theorem EnvironmentStep.keeps (x : EnvironmentStep) :
    Keeps (InOrderBy R since) x.perform := by
  cases x with
  | assign name value =>
    refine Keeps.bind (InOrderBy.ofCore.modify fun s => ?_) fun _ => .pure _
    exact ⟨⟨rfl, rfl, rfl, rfl, rfl, rfl⟩, rfl, rfl, rfl⟩
  | readMillis name default =>
    exact Keeps.get.bind fun s => (InOrderBy.ofCore.report _).bind fun _ => .pure _
  | readDisabled => exact Keeps.get.bind fun s => .pure _

theorem ClockStep.keeps (x : ClockStep) : Keeps (InOrderBy R since) x.perform := by
  have hmove : ∀ id f, Keeps (InOrderBy R since) (moveClock id f) := by
    intro id f
    refine .of_aside fun reserved base => ?_
    refine (Keeps.find .clock id).bind fun r s h => ?_
    unfold clock
    simp only [bind_apply, get_apply, demand_apply]
    cases hr : s.clocks.get? r with
    | none => exact h
    | some c => exact h.setClock hr (f c)
  cases x with
  | create id start =>
    refine .of_aside fun reserved base s h => ?_
    refine Ends.carried ((h.newClock _).bind fun r s h hr => ?_)
    exact (h.named_ends id (fun he => Entity.clock_inj he ▸ hr) nofun).bind
      fun _ s h _ => (Keeps.pure _).ends h
  | set id time => exact hmove id _
  | advanceNanos id nanos => exact hmove id _
  | advanceMillis id millis => exact hmove id _

theorem SinkStep.keeps (x : SinkStep) : Keeps (InOrderBy R since) x.perform := by
  cases x with
  | create id valueType =>
    refine Keeps.get.bind fun s => Keeps.bind (InOrderBy.ofCore.modify fun s => ?_) fun _ =>
      (InOrderBy.name id (c := .sink) nofun _).bind fun _ => .pure _
    exact ⟨⟨rfl, rfl, rfl, rfl, rfl, rfl⟩, rfl, rfl, rfl⟩
  | observe id value labels =>
    refine (Keeps.find .sink id).bind fun r => (Keeps.labelArgument labels).bind fun l =>
      (Keeps.component _ fun s => s.sinks.get? r).bind fun x => (Keeps.ofExcept _).bind fun x =>
        Keeps.bind (InOrderBy.ofCore.modify fun s => ?_) fun _ => .pure _
    exact ⟨⟨rfl, rfl, rfl, rfl, rfl, rfl⟩, rfl, rfl, rfl⟩

/-! ### Aggregators -/

theorem AggregatorStep.keeps (x : AggregatorStep) :
    Keeps (InOrderBy R since) x.perform := by
  refine .of_aside fun reserved base s h => ?_
  -- all that a step works on is free, so no instrument has a part in it
  cases x with
  | create id shape valueType =>
    refine Ends.carried (Ends.look (Keeps.ofExcept _) h fun a => ?_)
    refine (h.newAggregator _).bind fun i s h hi => ?_
    exact (h.nameAggregator id hi).bind fun _ s h _ => (Keeps.describeAggregator i).ends h
  | record id valueType value =>
    refine Ends.carried ((h.findAggregator id).bind fun i s h hi => ?_)
    refine (h.changePool fun {q} hq => ?_).bind
      fun _ s h _ => (Keeps.stateOf i).ends h
    have hrecord : s.pool.record i value = .ok q := by
      cases valueType with
      | none => exact mapError_eq_ok hq
      | some v => exact record_of_recordAs (mapError_eq_ok hq)
    exact ⟨h.respects.record hi.free hrecord, Pool.has_record hrecord⟩
  | merge source target =>
    refine Ends.carried ((h.findAggregator source).bind fun i s h hi => ?_)
    refine (h.findAggregator target).bind fun j s h hj => ?_
    refine (h.changePool fun {q} hq => ?_).bind fun _ s h _ =>
      ((Keeps.stateOf i).bind fun _ => (Keeps.stateOf j).bind fun _ => .pure _).ends h
    have hmove : s.pool.move i j = .ok q := mapError_eq_ok hq
    exact ⟨h.respects.move hi.free hj.free hmove, (Pool.move_spares hmove).has⟩
  | point id start stop labels =>
    exact ((Keeps.findAggregator id).bind fun i => (Keeps.labelSet labels).bind fun l =>
      Keeps.get.bind fun s => .pure _) s h
  | acquire id =>
    refine Ends.carried ((h.findAggregator id).bind fun i s h hi => ?_)
    exact h.tryPool fun hq => ⟨h.respects.acquire hi.free hq, Pool.has_acquire hq⟩
  | release id =>
    refine Ends.carried ((h.findAggregator id).bind fun i s h hi => ?_)
    exact (h.releaseAggregator hi.free).bind fun _ s h _ => (Keeps.pure _).ends h
  | retire id =>
    refine Ends.carried ((h.findAggregator id).bind fun i s h hi => ?_)
    refine h.tryPool fun {q} hq => ⟨h.respects.retire hi.free hq, fun {j} hj => ?_⟩
    have hhas := s.pool.has_tryRetire (i := i) hj
    rw [hq] at hhas
    exact hhas

/-! ### Processors -/

theorem ProcessorStep.keeps (x : ProcessorStep) :
    Keeps (InOrderBy R since) x.perform := by
  refine .of_aside fun reserved base => ?_
  cases x with
  | create id request =>
    refine Keeps.bind ?_ fun r =>
      (Aside.nameOther id (c := .processor) nofun r).bind fun _ => .windowOf r
    refine (Keeps.ofExcept _).bind fun d => (Keeps.ofExcept _).bind fun a =>
      (Keeps.labelSet request.resource).bind fun labels =>
        (Keeps.find .clock request.clock).bind fun c =>
          ((Keeps.component _ fun s => s.clocks.get? c).bind fun c => .pure c.now).bind fun time =>
            Keeps.get.bind fun s => (Keeps.modify fun s h => ?_).bind fun _ => .pure _
    exact h.addProcessor rfl
  | createAggregator id aggregator =>
    refine (Keeps.find .processor id).bind fun r s h => ?_
    refine Ends.carried ((h.onProcessor r (fun i p => p.Offers reserved i)
      fun hw _ => ?_).bind fun i s h hi => ?_)
    · exact .of_ok hw.create.1 hw.create.2
    · exact (h.nameAggregator aggregator hi).bind fun _ s h _ => (Keeps.describeAggregator i).ends h
  | batch id labels aggregator unmapped =>
    refine (Keeps.find .processor id).bind fun r s h => ?_
    refine Ends.carried ((h.findAggregator aggregator).bind fun i s h hi => ?_)
    refine Ends.look (Keeps.labelSet labels) h fun l => ?_
    refine (h.onProcessor r (fun _ _ => True) fun hw hpool => ?_).bind fun _ s h _ => ?_
    · exact ⟨hw.batch (hpool ▸ hi) unmapped, fun _ _ => trivial⟩
    · exact ((Keeps.windowOf r).bind fun _ => (Keeps.stateOf i).bind fun _ => .pure _).ends h
  | complete id time =>
    refine (Keeps.find .processor id).bind fun r =>
      (Keeps.component _ fun s => s.processors.get? r).bind fun p =>
        (Keeps.timeOr p.clock time).bind fun time => Keeps.bind (fun s h => ?_) fun metrics =>
          (Keeps.windowOf r).bind fun _ => .pure _
    exact (h.onProcessor r (fun _ _ => True) fun hw _ => .of_ok (hw.skip time) trivial).kept
  | skip id time =>
    refine (Keeps.find .processor id).bind fun r =>
      (Keeps.component _ fun s => s.processors.get? r).bind fun p =>
        (Keeps.timeOr p.clock time).bind fun time => Keeps.bind (fun s h => ?_) fun _ =>
          Keeps.windowOf r
    exact (h.onProcessor r (fun _ _ => True) fun hw _ => .of_ok (hw.skip time) trivial).kept
  | inspect id => exact (Keeps.find .processor id).bind fun r => .windowOf r

/-! ### Accumulators -/

namespace Aside

variable {reserved : AggregatorId → Prop} {base s : System σ}

theorem newSharedAccumulator (h : Aside reserved base s) (id : String) {a : SharedAccumulator}
    (ha : ∀ {i}, a.accumulator.Uses i → s.pool.Offers reserved i) :
    Ends (Aside reserved base) anything (Metering.newSharedAccumulator id a s) :=
  ((Aside.nameOther id (c := .accumulator) nofun _).bind fun _ => .pure _).ends
    (h.addAccumulator ha)

/-- The aggregator that a discarding accumulator has may be used. -/
theorem discards (h : Aside reserved base s) {r : Ref .accumulator} {a : SharedAccumulator}
    (hr : s.accumulators.get? r = some a) {i : AggregatorId} (ha : a.accumulator = .discarding i) :
    s.pool.Offers reserved i :=
  h.outside (.accumulator hr (by rw [ha]; rfl))

/-- What a computation on an accumulation gives may be used. -/
theorem offeredBy (h : Aside reserved base s) (r : Ref .accumulator)
    {x : AccumulationM AggregatorId}
    (hx : ∀ {a : Accumulation} {base}, a.Confined reserved base → a.pool = s.pool →
      Ends (Accumulation.Confined reserved base) (Accumulation.offered reserved) (x a)) :
    Ends (Aside reserved base) (offered reserved) (Metering.onShared r x s) :=
  h.onShared r (fun i p => p.Offers reserved i) hx

end Aside

/-- **Collecting** an accumulator. -/
theorem collectShared_keeps (hperform : ∀ step, Keeps (InOrderBy R since) (perform step))
    (r : Ref .accumulator) (time : Option Int) (callback : Option (Callback σ))
    (interleaved : List InterleavedAdds) :
    Keeps (InOrderBy R since) (collectShared perform r time callback interleaved) := by
  refine (Keeps.component _ fun s => s.accumulators.get? r).bind fun a => ?_
  obtain ⟨accumulator, processor, v⟩ := a
  cases processor with
  | none => cases accumulator <;> exact .pure _
  | some q =>
    cases accumulator with
    | discarding i => exact .pure _
    | synchronous live =>
      refine Keeps.bind (Keeps.mapM (fun x => ?_) interleaved) fun others => ?_
      · exact (Keeps.labelSet x.after).bind fun _ => .pure _
      · refine Keeps.bind (Keeps.component _ fun s => s.processors.get? q) fun p =>
          Keeps.bind (Keeps.timeOr p.clock time) fun time => .of_aside fun reserved base s h => ?_
        exact (h.onShared r (fun _ _ => True) fun ha _ =>
          ha.collect (fun hb => interference_confined live others hb) time).kept
    | asynchronous =>
      refine Keeps.bind (Keeps.component _ fun s => s.processors.get? q) fun p => ?_
      refine Keeps.bind (InOrderBy.ofCore.callBack hperform _ _ _) fun observed =>
        Keeps.bind (Keeps.timeOr p.clock time) fun time => .of_aside fun reserved base s h => ?_
      exact (h.onProcessor q (fun _ _ => True) fun hw _ =>
        ⟨hw.close observed time, fun _ _ => trivial⟩).kept

theorem AccumulatorStep.keeps (x : AccumulatorStep σ)
    (hperform : x.collects = true → ∀ step, Keeps (InOrderBy R since) (perform step)) :
    Keeps (InOrderBy R since) (x.perform perform) := by
  cases x with
  | synchronous id processor =>
    refine (Keeps.find .processor processor).bind fun q =>
      (Keeps.component _ fun s => s.processors.get? q).bind fun p => .of_aside fun _ _ s h => ?_
    refine (h.newSharedAccumulator id fun hu => ?_).kept
    obtain ⟨l, hl⟩ := hu
    cases hl
  | asynchronous id processor =>
    refine (Keeps.find .processor processor).bind fun q =>
      (Keeps.component _ fun s => s.processors.get? q).bind fun p => .of_aside fun _ _ s h => ?_
    exact (h.newSharedAccumulator id (a := ⟨.asynchronous, _, _⟩) fun hu => hu.elim).kept
  | discarding id valueType =>
    refine .of_aside fun reserved base s h => ?_
    refine Ends.carried ((h.newAggregator _).bind fun i s h hi => ?_)
    exact h.newSharedAccumulator id fun hu => hu ▸ hi
  | bind id labels aggregator =>
    refine (Keeps.find .accumulator id).bind fun r => (Keeps.labelArgument labels).bind fun l =>
      .of_aside fun reserved base s h => ?_
    have hnamed : ∀ i s, Aside reserved base s → s.pool.Offers reserved i →
        Ends (Aside reserved base) anything ((do
          return Answer.several
            [← SystemM.nameAgain aggregator (.aggregator i), ← Metering.liveOf r]) s) := by
      intro i s h hi
      exact (h.nameAggregatorAgain aggregator hi).bind fun _ s h _ =>
        ((Keeps.liveOf r).bind fun _ => .pure _).ends h
    refine Ends.carried (Ends.component h fun a ha => ?_)
    have hbind := h.offeredBy r (x := Accumulation.bindArgument l) fun ha _ => ha.bindArgument l
    cases hacc : a.accumulator with
    | synchronous live => exact hbind.bind hnamed
    | asynchronous => exact hbind.bind hnamed
    | discarding i => exact hnamed i s h (h.discards ha hacc)
  | add id labels value =>
    refine (Keeps.find .accumulator id).bind fun r => (Keeps.labelArgument labels).bind fun l =>
      .of_aside fun reserved base s h => ?_
    refine Ends.carried (Ends.component h fun a ha => ?_)
    have hadd := h.onShared r (x := Accumulation.add l value) (fun _ _ => True)
      fun ha _ => ha.add l value
    have hlive : ∀ (_ : Unit) s, Aside reserved base s → True →
        Ends (Aside reserved base) anything (Metering.liveOf r s) :=
      fun _ s h _ => (Keeps.liveOf r).ends h
    cases hacc : a.accumulator with
    | synchronous live => exact hadd.bind hlive
    | asynchronous => exact hadd.bind hlive
    | discarding i =>
      exact (h.recordAndRelease (h.discards ha hacc).free value).bind hlive
  | collect id time callback interleaved =>
    exact (Keeps.find .accumulator id).bind fun r =>
      (collectShared_keeps (hperform rfl) r time callback interleaved).bind fun _ =>
        (Keeps.liveOf r).bind fun _ => .pure _
  | overtake id race =>
    refine (Keeps.find .accumulator id).bind fun r => (Keeps.labelArgument race.labels).bind
      fun l => .of_aside fun reserved base s h => ?_
    refine Ends.carried ((h.offeredBy r
      fun ha _ => ha.rival race.winner race.winnerRetired).bind fun rival s h hrival => ?_)
    refine Ends.look (Keeps.ofExcept _) h fun l => ?_
    -- the other thread's aggregator is still there after the bind
    refine (h.onShared r (fun i p => p.Offers reserved i ∧ p.Offers reserved rival)
      fun {a base} ha hpool => ?_).bind fun i s h hi => ?_
    · have hrival' : a.pool.Offers reserved rival := hpool ▸ hrival
      obtain ⟨hkept, hgood⟩ := ha.grows fun ha => ha.bindAgainst (l := l) hrival' race.candidate
      exact ⟨hkept, fun y hy => ⟨(hgood y hy).1, hrival'.mono (hgood y hy).2⟩⟩
    · refine (h.nameAggregator race.winnerName hi.2).bind fun _ s' h' hpool => ?_
      exact (h'.nameAggregatorAgain race.boundName (hpool ▸ hi.1)).bind fun _ s h _ =>
        ((Keeps.stateOf i).bind fun _ => (Keeps.liveOf r).bind fun _ => .pure _).ends h

/-! ### Providers and meters -/

theorem InOrderBy.newClock {s : System σ} (h : InOrderBy R since s) (c : Clock) :
    Ends (InOrderBy R since) (fun r s => ∃ x, s.clocks.get? r = some x) (SystemM.newClock c s) where
  kept := (Keeps.of_aside fun _ _ => .of_ends fun _ h => h.newClock c) s h
  good r hr := by
    obtain rfl := Except.ok.inj hr
    exact ⟨c, Table.get?_add_next _ _⟩

/-- Looking at the time of a clock. -/
theorem Fallible.Keeps.metricsOf {I : System σ → Prop} (r : Ref .provider)
    (metrics : List Metric) : Keeps I (Metering.metricsOf (σ := σ) r metrics) :=
  (component _ fun s => s.providers.get? r).bind fun p =>
    (component _ fun s => s.clocks.get? p.clock).bind fun _ => .pure _

theorem ProviderStep.keeps (x : ProviderStep)
    (hcollect : x.collects = true →
      ∀ r time, Keeps (InOrderBy R since) (collectInstrument perform r time)) :
    Keeps (InOrderBy R since) (x.perform perform) := by
  have hprovider : x.collects = true →
      ∀ r, Keeps (InOrderBy R since) (collectProvider perform r) := fun hx =>
    .collectProvider (hcollect hx) InOrderBy.ofCore.report
  cases x with
  | create id request =>
    refine (Keeps.labelSet request.resource).bind fun resource s h => ?_
    have hmade : ∀ c (s : System σ), InOrderBy R since s → (∃ x, s.clocks.get? c = some x) →
        Ends (InOrderBy R since) anything ((do
          let readers ← request.readers.mapM (SystemM.find .reader)
          SystemM.name id (.component .provider
            (← newProvider ⟨resource⟩ c request.disabled readers))
          return Answer.labels resource) s) := by
      intro c s h ⟨x, hx⟩
      refine Ends.look (Keeps.mapM (fun q => Keeps.find .reader q) _) h fun readers => ?_
      refine Ends.bind ⟨h.newProvider ⟨resource⟩ hx request.disabled readers, fun _ _ => trivial⟩
        fun r s h (_ : True) => ?_
      exact ((InOrderBy.name id (c := .provider) nofun r).bind fun _ => .pure _).ends h
    cases hc : request.clock with
    | some c => exact ((h.findClock c).bind hmade).kept
    | none => exact ((h.newClock .system).bind hmade).kept
  | addView id view =>
    exact (Keeps.find .provider id).bind fun r => (Keeps.ofExcept _).bind fun selector =>
      (Keeps.ofExcept _).bind fun aggregation => (InOrderBy.addView r _).bind fun _ => .pure _
  | requestMeter id meter library =>
    exact (Keeps.find .provider id).bind fun r => (InOrderBy.requestMeter r _ _).bind fun m =>
      (Keeps.component _ fun s => s.meters.get? m).bind fun y =>
        (InOrderBy.nameAgain meter (c := .meter) nofun m).bind fun _ => .pure _
  | collect id =>
    exact (Keeps.find .provider id).bind fun r => (hprovider rfl r).bind
      fun metrics => .metricsOf r _
  | flush id =>
    exact (Keeps.find .provider id).bind fun r =>
      (InOrderBy.ofCore.flushProvider (hprovider rfl) r).bind fun _ => .pure _
  | shutdown id =>
    exact (Keeps.find .provider id).bind fun r =>
      (InOrderBy.shutdownProvider (hprovider rfl) r).bind fun _ => .pure _

theorem MeterStep.keeps (x : MeterStep σ)
    (hcollect : x.collects = true →
      ∀ r time, Keeps (InOrderBy R since) (collectInstrument perform r time)) :
    Keeps (InOrderBy R since) (x.perform perform) := by
  cases x with
  | requestInstrument id name request =>
    exact (Keeps.find .meter id).bind fun m => (InOrderBy.requestInstrument m _).bind fun r =>
      (Keeps.component _ fun s => s.instruments.get? r).bind fun i =>
        (InOrderBy.nameAgain name (c := .instrument) nofun r).bind fun _ => .pure _
  | recordBatch id labels measurements =>
    refine (Keeps.find .meter id).bind fun m => (Keeps.labelArgument labels).bind fun l =>
      Keeps.bind (Keeps.mapM (fun x => ?_) measurements) fun targets =>
        (InOrderBy.recordBatch l targets).bind fun _ => .pure _
    refine Keeps.bind ?_ fun _ => .pure _
    cases x.1 with
    | instrument id => exact (Keeps.find .instrument id).bind fun _ => .pure _
    | other s => exact .pure _
  | collect id time =>
    exact (Keeps.find .meter id).bind fun m => (Keeps.collectMeter (hcollect rfl) m time).bind
      fun metrics => (Keeps.component _ fun s => s.meters.get? m).bind fun y => .metricsOf _ _

/-! ### Instruments and handles -/

theorem InstrumentStep.keeps (x : InstrumentStep σ)
    (hcollect : x.collects = true →
      ∀ r time, Keeps (InOrderBy R since) (collectInstrument perform r time)) :
    Keeps (InOrderBy R since) (x.perform perform) := by
  cases x with
  | record id value labels =>
    exact (Keeps.find .instrument id).bind fun r => (Keeps.labelArgument labels).bind fun l =>
      (InOrderBy.recordInstrument r value l).bind fun _ => .pure _
  | bind id labels handle =>
    exact (Keeps.find .instrument id).bind fun r => (Keeps.labelArgument labels).bind fun l =>
      (InOrderBy.bindHandle r l).bind fun q =>
        (InOrderBy.name handle (c := .handle) nofun q).bind fun _ =>
          (Keeps.component _ fun s => s.instruments.get? r).bind fun _ => .pure _
  | collect id time =>
    refine (Keeps.find .instrument id).bind fun r =>
      (hcollect rfl r time).bind fun metrics =>
        (Keeps.component _ fun s => s.instruments.get? r).bind fun i => ?_
    cases i.processor with
    | none => exact .pure _
    | some p => exact (Keeps.component _ fun s => s.clocks.get? p.clock).bind fun _ => .pure _
  | setCallback id callback =>
    refine (Keeps.find .instrument id).bind fun r s h => ?_
    refine Ends.carried (Ends.component h fun i hi => ?_)
    exact (Keeps.pure _).ends (h.setCallback hi callback)

theorem ExporterStep.keeps (x : ExporterStep)
    (hcollect : x.collects = true →
      ∀ r time, Keeps (InOrderBy R since) (collectInstrument perform r time)) :
    Keeps (InOrderBy R since) (x.perform perform) := by
  cases x with
  | create id exporter =>
    refine Keeps.get.bind fun s => Keeps.bind (InOrderBy.ofCore.modify fun s => ?_) fun _ =>
      (InOrderBy.name id (c := .exporter) nofun _).bind fun _ => .pure _
    exact ⟨⟨rfl, rfl, rfl, rfl, rfl, rfl⟩, rfl, rfl, rfl⟩
  | send id provider =>
    refine (Keeps.find .exporter id).bind fun r => (Keeps.find .provider provider).bind fun p =>
      (Keeps.collectProvider (hcollect rfl) InOrderBy.ofCore.report p).bind fun metrics =>
        (Keeps.component _ fun s => s.exporters.get? r).bind fun e => ?_
    dsimp only
    refine (InOrderBy.ofCore.setExporter r _).bind fun _ => ?_
    split
    · exact .throw _
    · exact .pure _
  | inspect id timed =>
    exact (Keeps.find .exporter id).bind fun r =>
      (Keeps.component _ fun s => s.exporters.get? r).bind fun _ => .pure _
  | clear id =>
    exact (Keeps.find .exporter id).bind fun r =>
      (Keeps.component _ fun s => s.exporters.get? r).bind fun e =>
        (InOrderBy.ofCore.setExporter r _).bind fun _ => .pure _
  | shutdown id =>
    exact (Keeps.find .exporter id).bind fun r =>
      (InOrderBy.ofCore.shutdownExporter r).bind fun _ => .pure _

theorem ReaderStep.keeps (x : ReaderStep)
    (hcollect : x.collects = true →
      ∀ r time, Keeps (InOrderBy R since) (collectInstrument perform r time)) :
    Keeps (InOrderBy R since) (x.perform perform) := by
  have hprovider : x.collects = true →
      ∀ r, Keeps (InOrderBy R since) (collectProvider perform r) := fun hx =>
    .collectProvider (hcollect hx) InOrderBy.ofCore.report
  have hadd : ∀ mode, Keeps (InOrderBy R since) (addReader mode) := fun mode =>
    Keeps.get.bind fun s => Keeps.bind (InOrderBy.ofCore.modify fun s =>
      ⟨⟨rfl, rfl, rfl, rfl, rfl, rfl⟩, rfl, rfl, rfl⟩) fun _ => .pure _
  have hmillis : ∀ name default n,
      Keeps (InOrderBy R since) (millisOr name default n) := by
    intro name default n
    cases n with
    | some n => exact .pure n
    | none => exact Keeps.get.bind fun s => (InOrderBy.ofCore.report _).bind fun _ => .pure _
  cases x with
  | onDemand id =>
    exact (hadd .onDemand).bind fun r =>
      (InOrderBy.name id (c := .reader) nofun r).bind fun _ => .pure _
  | periodic id exporter request =>
    have hmake : ∀ e, Keeps (InOrderBy R since)
        (newPeriodicReader (.infinity false) e request) := by
      refine fun e => (hmillis _ _ _).bind fun interval => (hmillis _ _ _).bind fun timeout => ?_
      dsimp only
      split
      · exact .throw _
      · exact (hadd _).bind fun _ => .pure _
    refine (Keeps.find .exporter exporter).bind fun e => (hmake e).bind fun (r, interval) => ?_
    dsimp only
    split
    · exact .throw _
    · exact (InOrderBy.name id (c := .reader) nofun r).bind fun _ => .pure _
  | collect id =>
    exact (Keeps.find .reader id).bind fun r => (InOrderBy.ofCore.collectReader (hprovider rfl) r).bind
      fun metrics => (Keeps.component _ fun s => s.readers.get? r).bind fun _ => .pure _
  | flush id =>
    exact (Keeps.find .reader id).bind fun r =>
      (InOrderBy.ofCore.flushReader (hprovider rfl) r).bind fun _ => .pure _
  | shutdown id =>
    exact (Keeps.find .reader id).bind fun r =>
      (InOrderBy.ofCore.shutdownReader (hprovider rfl) r).bind fun _ => .pure _
  | tick id =>
    exact (Keeps.find .reader id).bind fun r =>
      (InOrderBy.ofCore.tick (hprovider rfl) r).bind fun _ => .pure _

theorem HandleStep.keeps (x : HandleStep) : Keeps (InOrderBy R since) x.perform := by
  cases x with
  | record id value =>
    exact (Keeps.find .handle id).bind fun q =>
      (InOrderBy.recordHandle q value).bind fun _ => .pure _
  | release id =>
    exact (Keeps.find .handle id).bind fun q => (InOrderBy.releaseHandle q).bind fun _ => .pure _

end Metering
