import Metering.Proofs.Aggregator.Adoption
import Metering.Proofs.Concurrency.Roles

/-!
# What an accumulation holds

The aggregators of an accumulation are in a pool, and its maps know only their identifiers.
`Accumulation.contents` is what it holds without them: the aggregators of the window, and the live
ones with their references, each under its label set.  Two accumulations with the same contents
cannot be told apart by what they report, whatever identifiers they use and whatever else is in
their pools.

`Stream.Makes` says that an aggregator is one of a stream and has recorded some values of its type,
such as its shape admits.
Such aggregators merge with each other, and `Stream.Makes.fresh_absorb` says that adopting one is
the same as taking up what it holds.
-/

namespace Metering

/-! ### The aggregators of a stream -/

namespace Stream

/-- The aggregator is one of the stream and has recorded some values of its value type, which it
admits. -/
def Makes (s : Stream) (a : Aggregator) : Prop :=
  match s.descriptor.valueType with
  | .long => ∃ vs : List Int, s.shape.Admits vs ∧ Aggregator.Holds Totals.IsTotal s.shape a vs
  | .double =>
    ∃ vs : List Binary64, s.shape.Admits vs ∧ Aggregator.Holds Totals.IsTotal s.shape a vs

/-- The value type of a stream is that of a type of recorded values. -/
theorem exists_totals (s : Stream) : ∃ (α : Type) (_ : Totals α),
    s.descriptor.valueType = Recordable.valueType α ∧
    ∀ a, s.Makes a ↔
      ∃ vs : List α, s.shape.Admits vs ∧ Aggregator.Holds Totals.IsTotal s.shape a vs := by
  cases h : s.descriptor.valueType with
  | long =>
    refine ⟨Int, inferInstance, rfl, fun a => ?_⟩
    unfold Makes
    rw [h]
  | double =>
    refine ⟨Binary64, inferInstance, rfl, fun a => ?_⟩
    unfold Makes
    rw [h]

theorem Continues.makes {s s' : Stream} (h : s.Continues s') {a : Aggregator} :
    s'.Makes a ↔ s.Makes a := by
  rw [h]
  rfl

theorem Continues.freshAggregator {s s' : Stream} (h : s.Continues s') :
    s'.freshAggregator = s.freshAggregator := by
  rw [h]
  rfl

theorem Continues.descriptor {s s' : Stream} (h : s.Continues s') :
    s'.descriptor = s.descriptor := by
  rw [h]

theorem makes_fresh (s : Stream) : s.Makes s.freshAggregator := by
  obtain ⟨α, _, hv, hmakes⟩ := s.exists_totals
  refine (hmakes _).mpr ⟨[], .nil, ?_⟩
  have hfresh := Aggregator.Holds.fresh (Totals.addsUp (α := α)) s.shape
  rwa [← hv] at hfresh

namespace Makes

variable {s : Stream} {a b : Aggregator}

/-- **Adopting** an aggregator is the same as taking up what it holds. -/
theorem fresh_absorb (h : s.Makes a) : s.freshAggregator.absorb a = a := by
  obtain ⟨α, _, hv, hmakes⟩ := s.exists_totals
  obtain ⟨vs, -, hvs⟩ := (hmakes a).mp h
  have habsorb := hvs.fresh_absorb
  rwa [← hv] at habsorb

theorem emptied (h : s.Makes a) : a.emptied = s.freshAggregator := by
  obtain ⟨α, _, hv, hmakes⟩ := s.exists_totals
  obtain ⟨vs, -, hvs⟩ := (hmakes a).mp h
  rw [hvs.emptied_eq, ← hv]
  rfl

theorem absorb (h : s.Makes a) (h' : s.Makes b) : s.Makes (a.absorb b) := by
  obtain ⟨α, _, hv, hmakes⟩ := s.exists_totals
  obtain ⟨vs, hadmits, hvs⟩ := (hmakes a).mp h
  obtain ⟨ws, hadmits', hws⟩ := (hmakes b).mp h'
  exact (hmakes _).mpr ⟨_, hadmits.append hadmits',
    hvs.absorb Totals.addsUp hws (Shape.alike_refl _)⟩

theorem mergeError? (h : s.Makes a) (h' : s.Makes b) : a.mergeError? b = none := by
  obtain ⟨α, _, hv, hmakes⟩ := s.exists_totals
  obtain ⟨vs, -, hvs⟩ := (hmakes a).mp h
  obtain ⟨ws, -, hws⟩ := (hmakes b).mp h'
  exact hvs.mergeError? hws (Shape.alike_refl _)

end Makes

/-- Why the aggregators of the stream do not take a scalar, if so. -/
def refusal? (s : Stream) (x : Scalar) : Option RecordError :=
  s.shape.refusalOf? s.descriptor.valueType x

/-- **Recording** into an aggregator of the stream fails just if the stream refuses the scalar,
whatever has been recorded before. -/
theorem Makes.record_eq {s : Stream} {a : Aggregator} (h : s.Makes a) (x : Scalar) :
    match s.refusal? x with
    | some e => a.record x = .error e
    | none => ∃ b, a.record x = .ok b ∧ s.Makes b := by
  obtain ⟨α, _, hv, hmakes⟩ := s.exists_totals
  obtain ⟨vs, hadmits, hvs⟩ := (hmakes a).mp h
  have hrecord := hvs.record_verdict x
  rw [← hv] at hrecord
  unfold refusal?
  cases he : s.shape.refusalOf? s.descriptor.valueType x with
  | some e =>
    rw [he] at hrecord
    exact hrecord
  | none =>
    rw [he] at hrecord
    obtain ⟨b, v, hb, hv, hholds⟩ := hrecord
    exact ⟨b, hb, (hmakes b).mpr ⟨_, hadmits.append hv, hholds⟩⟩

end Stream

/-! ### Contents -/

/-- The aggregators of a window, and live aggregators with their references. -/
structure Contents where
  window : OrderedMap LabelSet Aggregator
  live : OrderedMap LabelSet Cell

namespace Stream

/-- The aggregators of the window. -/
def windowIn (s : Stream) (p : Pool) : OrderedMap LabelSet Aggregator := s.window.map p.get

/-- The window after what an aggregator holds was taken up under a label set. -/
def takeUp (s : Stream) (window : OrderedMap LabelSet Aggregator) (labels : LabelSet)
    (a : Aggregator) : OrderedMap LabelSet Aggregator :=
  window.insert labels (((window.get? labels).getD s.freshAggregator).absorb a)

/-- The window after it has ended. -/
def afterEnd (s : Stream) (window : OrderedMap LabelSet Aggregator) :
    OrderedMap LabelSet Aggregator :=
  match s.temporality with
  | .delta => OrderedMap.empty
  | .cumulative => window

/-- The metrics of a window that holds some aggregators. -/
def metricsOf (s : Stream) (window : OrderedMap LabelSet Aggregator) (time : Int) : List Metric :=
  match window.entries.filterMap fun e => e.2.point? s.start time e.1 with
  | [] => []
  | points =>
    [{ resource := s.resource
       library := s.library
       name := s.descriptor.name
       description := s.descriptor.description
       unit := s.aggregation.unit s.descriptor
       type := s.aggregation.metricType s.descriptor
       temporality := s.temporality
       points := points }]

theorem metrics_eq (s : Stream) (p : Pool) (time : Int) :
    s.metrics p time = s.metricsOf (s.windowIn p) time := by
  have hpoints : s.points p time
      = (s.windowIn p).entries.filterMap fun e => e.2.point? s.start time e.1 := by
    show _ = (s.window.entries.map _).filterMap _
    rw [List.filterMap_map]
    rfl
  unfold metrics metricsOf
  cases h : s.points p time <;> rw [h] at hpoints <;> rw [← hpoints]

theorem windowIn_endWindow (s : Stream) (p : Pool) (time : Int) :
    (s.endWindow time).windowIn p = s.afterEnd (s.windowIn p) := by
  unfold endWindow afterEnd windowIn
  cases s.temporality <;> rfl

/-- The window after the aggregator of a label set took up what another one held. -/
theorem windowIn_pour {s : Stream} {p q : Pool} {l : LabelSet} {j : AggregatorId} {x : Aggregator}
    (hj : s.window.get? l = some j) (hget : q.get j = (p.get j).absorb x)
    (hother : ∀ l' i, s.window.get? l' = some i → l' ≠ l → q.get i = p.get i) :
    s.windowIn q = s.takeUp (s.windowIn p) l x := by
  unfold windowIn takeUp
  rw [OrderedMap.get?_map, hj, Option.map_some, Option.getD_some, ← hget]
  exact OrderedMap.map_insert_of_eq hj hother

/-- The window after a label set has entered it that it had nothing for. -/
theorem windowIn_enter {s : Stream} {p q : Pool} {l : LabelSet} {i : AggregatorId} {x : Aggregator}
    (hl : s.window.get? l = none) (hget : q.get i = s.freshAggregator.absorb x)
    (hother : ∀ l' j, s.window.get? l' = some j → q.get j = p.get j) :
    ({ s with window := s.window.insert l i } : Stream).windowIn q
      = s.takeUp (s.windowIn p) l x := by
  unfold windowIn takeUp
  rw [OrderedMap.get?_map, hl, Option.map_none, Option.getD_none, OrderedMap.map_insert, hget,
    OrderedMap.map_congr hother]

namespace Continues

variable {s s' : Stream}

theorem takeUp (h : s.Continues s') : s'.takeUp = s.takeUp := by
  unfold Stream.takeUp
  rw [h.freshAggregator]

theorem afterEnd (h : s.Continues s') : s'.afterEnd = s.afterEnd := by
  unfold Stream.afterEnd
  rw [h.temporality]

theorem metricsOf (h : s.Continues s') (hstart : s'.start = s.start) :
    s'.metricsOf = s.metricsOf := by
  rw [h, hstart]
  rfl

theorem start_endWindow (h : s.Continues s') (hstart : s'.start = s.start) (time : Int) :
    (s'.endWindow time).start = (s.endWindow time).start := by
  unfold endWindow
  rw [h.temporality]
  cases s.temporality with
  | delta => rfl
  | cumulative => exact hstart

end Continues

end Stream

/-- What an accumulation holds, without the identifiers of its aggregators. -/
def Accumulation.contents (a : Accumulation) : Contents :=
  ⟨a.stream.windowIn a.pool, a.live.map a.pool.cell⟩

end Metering
