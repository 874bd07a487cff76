import Metering.Proofs.Instruments.Observing
import Metering.Proofs.Instruments.Records
import Mathlib.Algebra.Order.BigOperators.Group.List

/-!
# The types of aggregators and of points

An aggregation says twice what comes of an instrument: by the aggregators that it makes, and by the
type of the metric.  `Aggregation.pointClass_metricType` says that the two agree on the class of the
points, for every descriptor.

`Stream.Fills` says that everything that an accumulation holds is an aggregator of its stream; every
way of filling and draining a window keeps it.  So what is reported of the window is described by
the stream (`Stream.Fills.describes`): points of the class that the type of the metric asks for, the
boundaries of the aggregation, and no negative totals of a monotonic sum.

`Recording.wellTyped_run` says the same of threads: however many of them bind, record and collect
at once, no aggregator gets another type, and nothing fails.
-/

namespace Metering

/-! ### Classes of points -/

/-- The classes of points. -/
inductive PointClass where
  | long
  | double
  | summary
  | histogram
deriving DecidableEq, Repr

/-- The class of a point that is a single number of a value type. -/
def ValueType.pointClass : ValueType → PointClass
  | .long => .long
  | .double => .double

/-- The class of a point with a value. -/
def PointValue.pointClass : PointValue → PointClass
  | .number (.integer _) => .long
  | .number (.double _) => .double
  | .summary .. => .summary
  | .histogram .. => .histogram

/-- The class of the points that a type of metrics asks for. -/
def MetricType.pointClass : MetricType → PointClass
  | .sum _ v => v.pointClass
  | .gauge v => v.pointClass
  | .summary => .summary
  | .histogram => .histogram

/-- The class of the points of aggregators of a shape and a value type. -/
def Shape.pointClass (s : Shape) (v : ValueType) : PointClass :=
  match s with
  | .count => .long
  | .minMaxSumCount => .summary
  | .histogram _ => .histogram
  | _ => v.pointClass

/-- **The two ways** in which an aggregation says what comes of an instrument agree. -/
theorem Aggregation.pointClass_metricType (a : Aggregation) (d : Descriptor) :
    (a.metricType d).pointClass = (a.shape d).pointClass d.valueType := by
  cases a with
  | lastValue =>
    unfold metricType
    cases d.kind <;> rfl
  | _ => rfl

theorem Tally.pointClass_of_value? {α : Type} [Quantity α] {v : ValueType}
    (hv : ∀ n : α, (PointValue.number (Quantity.toNumber n)).pointClass = v.pointClass)
    {t : Tally α} {x : PointValue} (hx : t.value? = some x) :
    x.pointClass = t.shape.pointClass v := by
  unfold value? at hx
  split at hx
  · cases hx
  cases t with
  | discard => cases hx
  | sum | lastValue =>
    obtain ⟨n, -, rfl⟩ := Option.map_eq_some_iff.mp hx
    exact hv n
  | count | minMaxSumCount | histogram =>
    obtain rfl := Option.some.inj hx
    rfl

namespace Aggregator

/-- The points of an aggregator are of the class of its shape and its value type. -/
theorem pointClass_of_value? {a : Aggregator} {v : ValueType} (hv : a.valueType = .valueType v)
    {x : PointValue} (hx : a.value? = some x) : x.pointClass = a.shape.pointClass v := by
  cases a with
  | long t =>
    cases hv
    exact Tally.pointClass_of_value? (fun _ => rfl) hx
  | double t =>
    cases hv
    exact Tally.pointClass_of_value? (fun _ => rfl) hx
  | untyped => cases hx

/-- Only a histogram has points with boundaries, and they are its own. -/
theorem shape_of_histogram {a : Aggregator} {sum : Number} {b : Boundaries} {counts : List Nat}
    (hx : a.value? = some (.histogram sum b counts)) : a.shape = .histogram b := by
  have htally : ∀ {α : Type} [Quantity α] {t : Tally α},
      t.value? = some (.histogram sum b counts) → t.shape = .histogram b := by
    intro α _ t ht
    unfold Tally.value? at ht
    split at ht
    · cases ht
    cases t with
    | discard => cases ht
    | sum | lastValue =>
      obtain ⟨n, -, hn⟩ := Option.map_eq_some_iff.mp ht
      cases hn
    | count => cases ht
    | minMaxSumCount => cases ht
    | histogram =>
      cases ht
      rfl
  cases a with
  | long t => exact htally hx
  | double t => exact htally hx
  | untyped => cases hx

/-- The aggregators are of one class and one value type; sums of both are monotonic or of neither,
and histograms have the same boundaries. -/
structure SameType (a b : Aggregator) : Prop where
  shape : a.shape = b.shape
  valueType : a.valueType = b.valueType

namespace SameType

variable {a b c : Aggregator}

theorem symm (h : a.SameType b) : b.SameType a := ⟨h.shape.symm, h.valueType.symm⟩

theorem trans (h : a.SameType b) (h' : b.SameType c) : a.SameType c :=
  ⟨h.shape.trans h'.shape, h.valueType.trans h'.valueType⟩

/-- **Aggregators of one type** can be moved into each other. -/
theorem mergeError? (h : a.SameType b) : a.mergeError? b = none := by
  unfold Aggregator.mergeError? kind
  rw [h.shape, h.valueType]
  cases b.shape <;> simp [Boundaries.same_self]

end SameType

end Aggregator

/-! ### Aggregators of a stream -/

/-- What a monotonic sum admits adds up to no negative number. -/
theorem Shape.Admits.sum_nonneg {vs : List Int} (h : (Shape.sum true).Admits vs) : 0 ≤ vs.sum := by
  refine List.sum_nonneg fun v hv => ?_
  have hnot : (Number.integer v).isNegative = false := h rfl v hv
  unfold Number.isNegative at hnot
  rw [Number.lt_integer] at hnot
  exact not_lt.mp (of_decide_eq_false hnot)

namespace Stream

variable {s s' : Stream} {a : Aggregator}

theorem shape_freshAggregator (s : Stream) : s.freshAggregator.shape = s.shape := by
  obtain ⟨α, _, -, hmakes⟩ := s.exists_totals
  obtain ⟨vs, -, hvs⟩ := (hmakes _).mp s.makes_fresh
  exact hvs.shape

theorem valueType_freshAggregator (s : Stream) :
    s.freshAggregator.valueType = .valueType s.descriptor.valueType := by
  obtain ⟨α, _, hv, hmakes⟩ := s.exists_totals
  obtain ⟨vs, -, hvs⟩ := (hmakes _).mp s.makes_fresh
  rw [hvs.valueType, hv]

namespace Makes

/-- An aggregator of the stream is of the type of a new one. -/
theorem sameType (h : s.Makes a) : a.SameType s.freshAggregator := by
  obtain ⟨α, _, hv, hmakes⟩ := s.exists_totals
  obtain ⟨vs, -, hvs⟩ := (hmakes a).mp h
  constructor
  case shape => rw [hvs.shape, s.shape_freshAggregator]
  case valueType => rw [hvs.valueType, s.valueType_freshAggregator, hv]

/-- What is reported of an aggregator is of the class that the type of the metric asks for. -/
theorem pointClass_eq (h : s.Makes a) {x : PointValue} (hx : a.value? = some x) :
    x.pointClass = (s.aggregation.metricType s.descriptor).pointClass := by
  have hv := h.sameType.valueType.trans s.valueType_freshAggregator
  rw [Aggregator.pointClass_of_value? hv hx, h.sameType.shape, s.shape_freshAggregator,
    Aggregation.pointClass_metricType]
  rfl

/-- An aggregator of long values has a history. -/
theorem exists_longs (h : s.Makes a) (hlong : s.descriptor.valueType = .long) :
    ∃ vs : List Int, s.shape.Admits vs ∧ Aggregator.Holds IsSum s.shape a vs := by
  unfold Makes at h
  rw [hlong] at h
  exact h

/-- **A monotonic sum** of long values is not negative. -/
theorem nonnegative (h : s.Makes a) (hlong : s.descriptor.valueType = .long)
    (hsum : s.shape = .sum true) {x : PointValue} (hx : a.value? = some x) :
    ∃ n : Int, x = .number (.integer n) ∧ 0 ≤ n := by
  obtain ⟨vs, hadmits, hvs⟩ := h.exists_longs hlong
  rw [hsum] at hadmits hvs
  rw [Aggregator.value?_of_holds_long hvs] at hx
  unfold Shape.summary at hx
  split at hx
  · cases hx
  obtain rfl := Option.some.inj hx
  exact ⟨vs.sum, rfl, hadmits.sum_nonneg⟩

end Makes

/-! ### Metrics -/

/-- What holds of a metric that a stream reports. -/
structure Describes (s : Stream) (m : Metric) : Prop where
  resource : m.resource = s.resource
  library : m.library = s.library
  name : m.name = s.descriptor.name
  temporality : m.temporality = s.temporality
  type : m.type = s.aggregation.metricType s.descriptor
  /-- The points are of the class that the type asks for. -/
  classes : ∀ x ∈ m.points, x.value.pointClass = m.type.pointClass
  /-- A histogram has the boundaries of the aggregation. -/
  boundaries : ∀ x ∈ m.points, ∀ sum b counts, x.value = .histogram sum b counts →
    s.aggregation = .histogram b
  /-- A monotonic sum of long values is not negative. -/
  nonnegative : s.aggregation = .sum → m.type = .sum true .long →
    ∀ x ∈ m.points, ∃ n : Int, x.value = .number (.integer n) ∧ 0 ≤ n

theorem Continues.describes (h : s.Continues s') {m : Metric} (hm : s.Describes m) :
    s'.Describes m := by
  rw [h]
  exact ⟨hm.resource, hm.library, hm.name, hm.temporality, hm.type, hm.classes, hm.boundaries,
    hm.nonnegative⟩

theorem describes_metricsOf {window : OrderedMap LabelSet Aggregator}
    (h : ∀ {l a}, window.get? l = some a → s.Makes a) {time : Int} {m : Metric}
    (hm : m ∈ s.metricsOf window time) : s.Describes m := by
  -- every point is of an aggregator of the stream, so the metric has what all of these have
  have hpoint : ∀ x ∈ window.entries.filterMap fun e => e.2.point? s.start time e.1,
      ∃ a, s.Makes a ∧ a.value? = some x.value := by
    intro x hx
    obtain ⟨e, he, hx⟩ := List.mem_filterMap.mp hx
    obtain ⟨value, hvalue, rfl⟩ := Option.map_eq_some_iff.mp hx
    exact ⟨e.2, h (OrderedMap.get?_eq_of_mem he), hvalue⟩
  unfold metricsOf at hm
  cases hpoints : window.entries.filterMap fun e => e.2.point? s.start time e.1 with
  | nil =>
    rw [hpoints] at hm
    cases hm
  | cons x rest =>
    rw [hpoints] at hm hpoint
    obtain rfl := List.mem_singleton.mp hm
    constructor
    case resource | library | name | temporality | type => rfl
    case classes =>
      intro x hx
      obtain ⟨a, ha, hvalue⟩ := hpoint x hx
      exact ha.pointClass_eq hvalue
    case boundaries =>
      intro x hx sum b counts heq
      obtain ⟨a, ha, hvalue⟩ := hpoint x hx
      rw [heq] at hvalue
      have hshape : s.shape = .histogram b := by
        rw [← s.shape_freshAggregator, ← ha.sameType.shape, Aggregator.shape_of_histogram hvalue]
      unfold Stream.shape Aggregation.shape at hshape
      cases hagg : s.aggregation <;> rw [hagg] at hshape <;> cases hshape
      rfl
    case nonnegative =>
      intro hagg htype x hx
      obtain ⟨a, ha, hvalue⟩ := hpoint x hx
      dsimp only at htype
      rw [hagg] at htype
      obtain ⟨hmonotonic, hlong⟩ := MetricType.sum.inj htype
      refine ha.nonnegative hlong ?_ hvalue
      unfold Stream.shape Aggregation.shape
      rw [hagg, hmonotonic]

/-! ### Filling and draining -/

/-- Everything that the contents hold is an aggregator of the stream. -/
structure Fills (s : Stream) (c : Contents) : Prop where
  window : ∀ {l a}, c.window.get? l = some a → s.Makes a
  live : ∀ {l x}, c.live.get? l = some x → s.Makes x.aggregator

theorem makes_takeUp {window : OrderedMap LabelSet Aggregator}
    (h : ∀ {l a}, window.get? l = some a → s.Makes a) (ha : s.Makes a) {l l' : LabelSet}
    {b : Aggregator} (hb : (s.takeUp window l a).get? l' = some b) : s.Makes b := by
  unfold takeUp at hb
  rw [OrderedMap.get?_insert] at hb
  split at hb
  · obtain rfl := Option.some.inj hb
    refine Makes.absorb ?_ ha
    cases hl : window.get? l with
    | none => exact s.makes_fresh
    | some c => exact h hl
  · exact h hb

/-- What was observed is taken up as aggregators of the stream. -/
theorem makes_takeUpAll {values : List (LabelSet × Number)}
    (haccepted : ∀ v ∈ values, s.accepts v = true) {window : OrderedMap LabelSet Aggregator}
    (h : ∀ {l a}, window.get? l = some a → s.Makes a) {l : LabelSet} {b : Aggregator}
    (hb : (s.takeUpAll window values).get? l = some b) : s.Makes b := by
  induction values generalizing window with
  | nil => exact h hb
  | cons v values ih =>
    refine ih (fun v hv => haccepted v (List.mem_cons_of_mem _ hv)) (fun hl => ?_) hb
    have hv := Option.isNone_iff_eq_none.mp (haccepted v List.mem_cons_self)
    exact makes_takeUp h (single_of_accepted hv).2 hl

namespace Fills

variable {c : Contents}

theorem drainIn (h : s.Fills c) (l : LabelSet) : s.Fills (s.drainIn c l) := by
  unfold Stream.drainIn
  cases hl : c.live.get? l with
  | none => exact h
  | some x =>
    constructor
    case window => exact fun hb => makes_takeUp h.window (h.live hl) hb
    case live =>
      intro l' y hy
      dsimp only at hy
      split at hy
      · rw [OrderedMap.get?_erase] at hy
        split at hy
        · cases hy
        · exact h.live hy
      · rw [OrderedMap.get?_insert] at hy
        split at hy
        · obtain rfl := Option.some.inj hy
          exact s.makes_fresh
        · exact h.live hy

/-- **Draining** everything fills the window with aggregators of the stream. -/
theorem drainAllIn (h : s.Fills c) : s.Fills (s.drainAllIn c) := by
  unfold Stream.drainAllIn
  generalize c.live.keys = keys
  induction keys generalizing c with
  | nil => exact h
  | cons l keys ih => exact ih (h.drainIn l)

/-- What a collection of an instrument that records reports. -/
theorem describes (h : s.Fills c) {time : Int} {m : Metric}
    (hm : m ∈ s.metricsOf (s.drainAllIn c).window time) : s.Describes m :=
  describes_metricsOf h.drainAllIn.window hm

/-- What a collection of an observer reports. -/
theorem describes_report (h : s.Fills c) {observed : Option (List (LabelSet × Number))}
    {time : Int} {metrics : List Metric} (hr : s.report c.window observed time = .ok metrics)
    {m : Metric} (hm : m ∈ metrics) : s.Describes m := by
  unfold report at hr
  cases observed with
  | none =>
    obtain rfl := Except.ok.inj hr
    cases hm
  | some values =>
    dsimp only at hr
    cases hrefusal : s.refusalIn? values with
    | some e =>
      rw [hrefusal] at hr
      cases hr
    | none =>
      rw [hrefusal] at hr
      obtain rfl := Except.ok.inj hr
      refine describes_metricsOf (fun hb => makes_takeUpAll (fun v hv => ?_) h.window hb) hm
      have haccepted := takeWhile_accepts hrefusal
      rw [← haccepted] at hv
      exact List.mem_takeWhile_imp hv

end Fills

end Stream

/-! ### Instruments at rest -/

/-- What an accumulation at rest holds is its stream's. -/
theorem Rests.fills {role : AggregatorId → Role} {a : Accumulation} (h : Rests role a) :
    a.stream.Fills a.contents where
  window {l b} hb := by
    change (a.stream.window.map a.pool.get).get? l = some b at hb
    rw [OrderedMap.get?_map] at hb
    obtain ⟨i, hi, rfl⟩ := Option.map_eq_some_iff.mp hb
    exact h.makes (window_plays (h.window_iff.mp hi))
  live {l x} hx := by
    change (a.live.map a.pool.cell).get? l = some x at hx
    rw [OrderedMap.get?_map] at hx
    obtain ⟨i, hi, rfl⟩ := Option.map_eq_some_iff.mp hx
    exact h.makes (live_plays (h.live_iff.mp hi))

/-- What the window of an observer holds is its stream's. -/
theorem Observes.fills {p : Pool} {s : Stream} {role : AggregatorId → Role}
    (h : Observes p s role) : s.Fills ⟨s.windowIn p, OrderedMap.empty⟩ where
  window {l b} hb := by
    change (s.window.map p.get).get? l = some b at hb
    rw [OrderedMap.get?_map] at hb
    obtain ⟨i, hi, rfl⟩ := Option.map_eq_some_iff.mp hb
    exact h.makes (window_plays (h.window_iff.mp hi))
  live hx := nomatch hx

/-! ### Threads -/

/-- An aggregator is in the live map or in the window. -/
def Accumulation.Reaches (a : Accumulation) (i : AggregatorId) : Prop :=
  (∃ l, a.live.get? l = some i) ∨ ∃ l, a.stream.window.get? l = some i

/-- All aggregators that threads reach are of the type of their stream, what the threads have
reported is described by it, and no binding and no collection has failed. -/
structure Threads.WellTyped (t : Threads) : Prop where
  aggregators : ∀ i, t.accumulation.Reaches i →
    (t.pool.get i).SameType t.stream.freshAggregator
  reports : ∀ report ∈ t.reports, ∀ m ∈ report, t.stream.Describes m
  unfailing : t.failures = []

section

variable {α : Type} [Recordable α] {isTotal : α → List α → Prop} {role : AggregatorId → Role}
  {t : Threads} {g : Ledger α}

/-- What is reached plays a role. -/
theorem Sound.plays_of_reaches (h : Sound isTotal role t g) {i : AggregatorId}
    (hi : t.accumulation.Reaches i) : role i ≠ .foreign := by
  obtain ⟨l, hl⟩ | ⟨l, hl⟩ := hi
  · rcases h.mapped.role_of_live hl with hr | hr <;> rw [hr] <;> simp
  · exact window_plays (h.window_iff.mp hl)

/-- **One step** reports at most the metrics of the window. -/
theorem Threads.reports_step_cases (t : Threads) (e : Event) :
    (t.step e).reports = t.reports ∨ ∃ time, t.collector = .draining [] ∧
      (t.step e).reports = t.reports ++ [t.stream.metrics t.pool time] := by
  by_cases he : ∃ time, e = .collect time ∧ t.collector = .draining []
  · obtain ⟨time, rfl, hc⟩ := he
    refine Or.inr ⟨time, hc, ?_⟩
    rw [Threads.step_collect (by rw [hc]; exact Collector.advance_draining_nil)]
    rfl
  · left
    cases e with
    | collect time => exact Threads.reports_collect (fun hc => he ⟨time, rfl, hc⟩) time
    | _ => exact (Threads.reports_step _ fun _ => by simp).1

/-- **Any run** reports what its stream describes, as long as every aggregator that plays a role is
the stream's. -/
theorem Sound.describes_reports (hadd : AddsUp isTotal) (h : Sound isTotal role t g)
    (hg : g.Admitted t.stream.shape)
    (hmakes : ∀ {s b vs}, t.stream.Continues s → s.shape.Admits vs →
      Aggregator.Holds isTotal s.shape b vs → s.Makes b)
    (hreports : ∀ report ∈ t.reports, ∀ m ∈ report, t.stream.Describes m) (events : List Event) :
    ∀ report ∈ (t.run events).reports, ∀ m ∈ report, (t.run events).stream.Describes m := by
  induction events generalizing role t g with
  | nil => exact hreports
  | cons e events ih =>
    obtain ⟨role', h', hadv⟩ := h.step hadd e
    have hstream : t.stream.Continues (t.step e).stream := hadv.stream
    refine ih h' ((h.admitted_step hadd hg e).congr hstream.shape)
      (fun hs => hmakes (hstream.trans hs)) ?_
    intro report hreport m hm
    obtain hsame | ⟨time, hc, hmore⟩ := t.reports_step_cases e
    · rw [hsame] at hreport
      exact hstream.describes (hreports report hreport m hm)
    · rw [hmore] at hreport
      obtain hreport | hreport := List.mem_append.mp hreport
      · exact hstream.describes (hreports report hreport m hm)
      · obtain rfl := List.mem_singleton.mp hreport
        rw [Stream.metrics_eq] at hm
        have hrests := h.rests (by rw [hc]; rfl) hg (hmakes rfl)
        exact hstream.describes (Stream.describes_metricsOf hrests.fills.window hm)

end

/-- **Threads at work** on an instrument that records: whatever they do, in any order, no aggregator
gets another type, no merge and nothing else fails, and the stream describes every report. -/
theorem Recording.wellTyped_run {σ : Type} {α : Type} [Totals α] {s : System σ}
    {bound : List (Ref .handle × LabelSet)} {r : Ref .instrument} {role : AggregatorId → Role}
    {t : Threads} {g : Ledger α} (h : Recording s bound r role t g) (hnone : t.reports = [])
    (events : List Event) : (t.run events).WellTyped := by
  obtain ⟨role', hsound, hadv⟩ := h.sound.run Totals.addsUp events
  have hstream : t.stream.Continues (t.run events).stream := hadv.stream
  have hadmitted := (h.sound.admitted_run Totals.addsUp h.admitted events).congr hstream.shape
  constructor
  case aggregators =>
    intro i hi
    exact (h.makes hstream (hadmitted.contents _ _)
      (hsound.holds rfl (hsound.plays_of_reaches hi))).sameType
  case reports =>
    refine h.sound.describes_reports Totals.addsUp h.admitted h.makes (fun report hr => ?_) events
    rw [hnone] at hr
    cases hr
  case unfailing => exact hsound.unfailing

end Metering
