import Metering.Proofs.Aggregator.Combination
import Metering.Proofs.Processors.Histories

/-!
# Delta and cumulative temporality tell the same story

Two processors that differ in temporality only, and for which the same calls are made, see the same
events: what the caller keeps does not depend on the processor (`Bench.Works.events_eq`).  One
reports what has arrived since the last cycle, the other what has arrived at all.  Of long values an
aggregator is the history of what was recorded, so what is reported for a label set is the summary
of some histories one after the other (`Stream.pointsFor_metricsOf`), and the summaries of the
blocks combine into the summary of them all.

`temporalities_agree` is the main statement: after every cycle, the cumulative point of a label set
is the combination of its delta points.
-/

namespace Metering

open Fallible SystemM

variable {σ : Type}

/-! ### Histories of what has arrived -/

namespace Stream

/-- The values that the aggregators have recorded that have arrived for a label set. -/
def recorded (history : Aggregator → List Int) (xs : List Arrival) (l : LabelSet) : List Int :=
  (xs.filter (·.labels = l)).flatMap fun x => history x.aggregator

theorem recorded_concat (history : Aggregator → List Int) (xs : List Arrival) (x : Arrival)
    (l : LabelSet) : recorded history (xs ++ [x]) l
      = recorded history xs l ++ if x.labels = l then history x.aggregator else [] := by
  unfold recorded
  rw [List.filter_append, List.flatMap_append, List.filter_singleton]
  by_cases h : x.labels = l <;> simp [h]

variable {s : Stream} {history : Aggregator → List Int} {xs : List Arrival}

/-- What a window has for a label set is left of the histories of what has arrived for it. -/
theorem remembers_held (hxs : ∀ x ∈ xs, s.Makes x.aggregator)
    (hhistory : ∀ a, s.Makes a → Aggregator.Holds IsSum s.shape a (history a)) (l : LabelSet) :
    s.Remembers (s.held xs l) (recorded history xs l) := by
  induction xs using List.reverseRecOn with
  | nil => rfl
  | append_singleton xs x ih =>
    have ih := ih fun y hy => hxs y (List.mem_append_left _ hy)
    have hx := hxs x (List.mem_append_right _ (List.mem_singleton_self x))
    rw [held_concat, recorded_concat]
    by_cases hl : x.labels = l
    · rw [if_pos hl, if_pos hl, hx.joined_eq]
      exact ih.absorb hx (hhistory _ hx)
    · rw [if_neg hl, if_neg hl, List.append_nil]
      exact ih

end Stream

/-! ### The same calls -/

namespace ProcessorCall

/-- The call uses aggregators that the processor has made, and skips no cycle. -/
def Feeds : ProcessorCall → Prop
  | make .. | skip _ => False
  | _ => True

instance : DecidablePred Feeds := fun c => by
  cases c <;> first | exact isTrue trivial | exact isFalse id

theorem Feeds.fits {c : ProcessorCall} (h : c.Feeds) (s : Stream) : c.Fits s := by
  cases c <;> trivial

/-- All that the caller keeps is of the stream. -/
theorem Feeds.makes {c : ProcessorCall} (h : c.Feeds) {s : Stream}
    {states : Nat → Option Aggregator} (hstates : ∀ k, ∀ a ∈ states k, s.Makes a) :
    ∀ k, ∀ a ∈ c.follow s states k, s.Makes a := by
  -- every call changes the aggregator of one name at most
  have hupdate : ∀ {k : Nat} {x : Option Aggregator}, (∀ a ∈ x, s.Makes a) →
      ∀ k', ∀ a ∈ Function.update states k x k', s.Makes a := by
    intro k x hx k'
    by_cases hk : k' = k
    · rw [hk, Function.update_self]
      exact hx
    · rw [Function.update_of_ne hk]
      exact hstates k'
  cases c with
  | create k =>
    refine hupdate fun a ha => ?_
    obtain rfl := Option.some.inj ha
    exact s.makes_fresh
  | record k value =>
    refine hupdate fun a ha => ?_
    obtain ⟨b, hb, rfl⟩ := Option.map_eq_some_iff.mp ha
    have hb := hstates k b hb
    have hrecord := hb.record_eq value
    cases he : s.refusal? value with
    | some e =>
      rw [he] at hrecord
      dsimp only at hrecord
      rw [hrecord]
      exact hb
    | none =>
      rw [he] at hrecord
      obtain ⟨b', hb', hmakes⟩ := hrecord
      rw [hb']
      exact hmakes
  | batch l k unmapped =>
    refine hupdate fun a ha => ?_
    cases unmapped with
    | true => cases ha
    | false =>
      obtain ⟨b, hb, rfl⟩ := Option.map_eq_some_iff.mp ha
      rw [(hstates k b hb).emptied]
      exact s.makes_fresh
  | make | skip => cases h
  | complete | elapse => exact hstates

end ProcessorCall

namespace Bench

/-- What comes of the cycles that are completed, one after the other. -/
def reports (r : Ref .processor) (b : Bench σ) :
    List ProcessorCall → List (Except Failure (List Metric))
  | [] => []
  | .complete time :: rest =>
    ((ProcessorCall.complete time).step r b).1
      :: reports r ((ProcessorCall.complete time).step r b).2 rest
  | c :: rest => reports r (c.step r b).2 rest

theorem reports_append (r : Ref .processor) (b : Bench σ) (calls rest : List ProcessorCall) :
    b.reports r (calls ++ rest) = b.reports r calls ++ (b.after r calls).reports r rest := by
  induction calls generalizing b with
  | nil => rfl
  | cons c calls ih =>
    rw [List.cons_append, after_cons]
    cases c <;> simp only [reports, ih, List.cons_append]

namespace Works

variable {b b' : Bench σ} {r r' : Ref .processor} {p p' : Processor} {c : Clock}
  {keeper keeper' : AggregatorId → Keeper}

/-- **The same calls** make the same happen to two processors with the same aggregators and the same
clock. -/
theorem events_eq (h : b.Works r p c keeper) (h' : b'.Works r' p' c keeper')
    (hfresh : p'.stream.freshAggregator = p.stream.freshAggregator)
    (hstates : b'.states = b.states) (calls : List ProcessorCall)
    (hcalls : ∀ call ∈ calls, call.Feeds) :
    b'.events r' calls = b.events r calls ∧
      ∀ time, (b'.after r' calls).reading r' time = (b.after r calls).reading r time := by
  induction calls generalizing b b' p p' c keeper keeper' with
  | nil =>
    refine ⟨rfl, fun time => ?_⟩
    show b'.reading r' time = b.reading r time
    rw [h.reading_eq, h'.reading_eq]
  | cons call calls ih =>
    have hcall := hcalls call List.mem_cons_self
    obtain ⟨p₁, keeper₁, hafter⟩ := h.step call (hcall.fits _)
    obtain ⟨p₁', keeper₁', hafter'⟩ := h'.step call (hcall.fits _)
    have hevent : call.event? r' b' = call.event? r b := by
      cases call with
      | batch l k unmapped => rw [ProcessorCall.event?, ProcessorCall.event?, hstates]
      | complete time | skip time =>
        rw [ProcessorCall.event?, ProcessorCall.event?, h.reading_eq, h'.reading_eq]
      | _ => rfl
    have hfollow : call.follow p'.stream b'.states = call.follow p.stream b.states := by
      rw [hstates]
      cases call with
      | create k => rw [ProcessorCall.follow, ProcessorCall.follow, hfresh]
      | _ => rfl
    obtain ⟨hevents, hreading⟩ := ih hafter.works hafter'.works
      (by rw [hafter.continues.freshAggregator, hafter'.continues.freshAggregator, hfresh])
      (by rw [hafter.states, hafter'.states, hfollow])
      fun x hx => hcalls x (List.mem_cons_of_mem call hx)
    rw [Bench.events, Bench.events, hevent, hevents]
    exact ⟨rfl, hreading⟩

/-- All that arrives is of the stream. -/
theorem makes_of_arrived (h : b.Works r p c keeper)
    (hstates : ∀ k, ∀ a ∈ b.states k, p.stream.Makes a)
    (calls : List ProcessorCall) (hcalls : ∀ call ∈ calls, call.Feeds) (x : Arrival)
    (hx : .arrived x ∈ b.events r calls) : p.stream.Makes x.aggregator := by
  induction calls generalizing b p c keeper with
  | nil => cases hx
  | cons call calls ih =>
    have hcall := hcalls call List.mem_cons_self
    obtain ⟨p₁, keeper₁, hafter⟩ := h.step call (hcall.fits _)
    rcases List.mem_append.mp hx with hx | hx
    · have hx := Option.mem_toList.mp hx
      cases call with
      | batch l k unmapped =>
        obtain ⟨a, ha, heq⟩ := Option.map_eq_some_iff.mp hx
        obtain rfl := WindowEvent.arrived.inj heq
        exact hstates k a ha
      | _ => cases hx
    · refine hafter.continues.makes.mp (ih hafter.works ?_ (fun x hx =>
        hcalls x (List.mem_cons_of_mem call hx)) hx)
      intro k a ha
      rw [hafter.states] at ha
      exact hafter.continues.makes.mpr (hcall.makes hstates k a ha)

end Works

end Bench

/-! ### What is reported -/

/-- What a processor with delta temporality has reported of the histories of what has arrived.  The
blocks of a label set are the histories of the windows that have ended, and the last one is still
open. -/
structure Bench.Told (s : Stream) (history : Aggregator → List Int) (events : List WindowEvent)
    (reports : List (List Metric)) : Prop where
  first : ∀ report, reports.head? = some report →
    ∀ x ∈ report.flatMap Metric.points, x.start = s.start
  ended : reports = [] → events.filterMap WindowEvent.time? = []
  blocks : ∀ l, ∃ blocks : List (List Int),
    reports.flatMap (pointValues l)
      = blocks.flatMap (fun block => (s.shape.summary block).toList) ∧
    blocks.flatten ++ Stream.recorded history (Temporality.delta.arrivals events) l
      = Stream.recorded history (Temporality.cumulative.arrivals events) l

namespace Bench.Told

variable {s : Stream} {history : Aggregator → List Int} {events : List WindowEvent}
  {reports : List (List Metric)}

theorem start : Told s history [] [] where
  first _ := nofun
  ended _ := rfl
  blocks _ := ⟨[], rfl, rfl⟩

/-- What arrives lengthens the open block. -/
theorem arrived (h : Told s history events reports) (x : Arrival) :
    Told s history (events ++ [.arrived x]) reports where
  first := h.first
  ended hnone := by
    rw [List.filterMap_append, h.ended hnone]
    rfl
  blocks l := by
    obtain ⟨blocks, hreports, hblocks⟩ := h.blocks l
    refine ⟨blocks, hreports, ?_⟩
    rw [Temporality.arrivals_arrived, Temporality.arrivals_arrived, Stream.recorded_concat,
      Stream.recorded_concat, ← List.append_assoc, hblocks]

/-- The end of a cycle reports the open block and begins the next one. -/
theorem completed (h : Told s history events reports)
    (hdelta : s.temporality = .delta)
    (hmakes : ∀ x ∈ Temporality.delta.arrivals events, s.Makes x.aggregator)
    (hhistory : ∀ a, s.Makes a → Aggregator.Holds IsSum s.shape a (history a)) (time : Int) :
    Told s history (events ++ [.ended time]) (reports ++
      [({ s with start := s.temporality.startOf s.start events } : Stream).metricsOf
        (s.windowOf (Temporality.delta.arrivals events)) time]) where
  first report hfirst := by
    cases hreports : reports with
    | cons report' rest =>
      rw [hreports] at hfirst
      obtain rfl : report' = report := Option.some.inj hfirst
      exact h.first report' (by rw [hreports]; rfl)
    | nil =>
      -- no cycle has ended before, so the window is the first one
      rw [hreports] at hfirst
      obtain rfl := Option.some.inj hfirst
      have hstart : s.temporality.startOf s.start events = s.start := by
        rw [hdelta, Temporality.startOf, h.ended hreports]
        rfl
      intro x hx
      rw [hstart] at hx
      obtain ⟨m, hm, hx⟩ := List.mem_flatMap.mp hx
      exact ((s.reports_metricsOf (fun y hy => (hmakes y hy).kin) time).points m hm x hx).1
  ended hnone := absurd hnone (by simp)
  blocks l := by
    obtain ⟨blocks, hreports, hblocks⟩ := h.blocks l
    refine ⟨blocks ++ [Stream.recorded history (Temporality.delta.arrivals events) l], ?_, ?_⟩
    · rw [List.flatMap_append, hreports, List.flatMap_append, List.flatMap_singleton,
        List.flatMap_singleton, Stream.pointValues_metricsOf, Stream.get?_windowOf,
        (Stream.remembers_held hmakes hhistory l).value?_eq]
    · rw [Temporality.arrivals_ended_delta, Temporality.arrivals_ended_cumulative, ← hblocks,
        List.flatten_append, List.flatten_singleton]
      exact List.append_nil _

end Bench.Told

/-- **Cycles** under delta temporality all succeed, and report the blocks of the histories. -/
theorem Bench.Works.told {b : Bench σ} {r : Ref .processor} {p : Processor} {c : Clock}
    {keeper : AggregatorId → Keeper} (h : b.Works r p c keeper)
    (hempty : p.stream.window = OrderedMap.empty) (hdelta : p.stream.temporality = .delta)
    (hstates : ∀ k, ∀ a ∈ b.states k, p.stream.Makes a) {history : Aggregator → List Int}
    (hhistory : ∀ a, p.stream.Makes a → Aggregator.Holds IsSum p.stream.shape a (history a))
    (calls : List ProcessorCall) (hcalls : ∀ call ∈ calls, call.Feeds) :
    ∃ reports : List (List Metric), b.reports r calls = reports.map .ok ∧
      Told p.stream history (b.events r calls) reports := by
  -- by the last call, since what it reports depends on all that were made before
  induction calls using List.reverseRecOn with
  | nil => exact ⟨[], rfl, Told.start⟩
  | append_singleton calls call ih =>
    have hcalls' : ∀ x ∈ calls, x.Feeds := fun x hx => hcalls x (List.mem_append_left _ hx)
    have hcall := hcalls call (List.mem_append_right _ (List.mem_singleton_self call))
    obtain ⟨reports, hreports, htold⟩ := ih hcalls'
    have hevents : b.events r (calls ++ [call])
        = b.events r calls ++ (call.event? r (b.after r calls)).toList := by
      rw [Bench.events_append, Bench.events, Bench.events, List.append_nil]
    rw [Bench.reports_append, hreports, hevents]
    cases call with
    | create | record | elapse =>
      exact ⟨reports, List.append_nil _, by simpa [ProcessorCall.event?] using htold⟩
    | batch l k unmapped =>
      refine ⟨reports, List.append_nil _, ?_⟩
      rw [ProcessorCall.event?]
      cases (b.after r calls).states k with
      | none => simpa using htold
      | some a => exact htold.arrived _
    | complete time =>
      obtain ⟨hcomplete, -⟩ :=
        h.complete_after hempty calls (fun x hx => (hcalls' x hx).fits _) time
      rw [Bench.reports, Bench.reports, hcomplete, ← List.map_singleton, ← List.map_append]
      refine ⟨_, rfl, ?_⟩
      rw [hdelta, ← hdelta]
      have hmakes : ∀ x ∈ Temporality.delta.arrivals (b.events r calls),
          p.stream.Makes x.aggregator := fun x hx =>
        h.makes_of_arrived hstates calls hcalls' x (Temporality.mem_of_mem_arrivals hx)
      have hdone := htold.completed hdelta hmakes hhistory ((b.after r calls).reading r time)
      rw [← hdelta] at hdone
      exact hdone
    | make | skip => cases hcall

/-- What a processor with cumulative temporality reports, next to the reports of one with delta
temporality. -/
structure Shape.Retells (shape : Shape) (start stop : Int) (reports : List (List Metric))
    (metrics : List Metric) : Prop where
  /-- The first window of the reports has the same start. -/
  first : ∀ report, reports.head? = some report →
    ∀ x ∈ report.flatMap Metric.points, x.start = start
  /-- A label set has no point just if it has none in any of the reports. -/
  absent : ∀ l, pointsFor l metrics = [] ↔ ∀ report ∈ reports, pointsFor l report = []
  /-- Its point is the combination of its points in the reports. -/
  combined : ∀ l, pointsFor l metrics
    = ((shape.combined (reports.flatMap (pointValues l))).map (Point.mk start stop l)).toList

/-- **Delta and cumulative temporality tell the same story**: two processors of long values that
differ in temporality only, and for which the same calls are made, agree after every cycle. -/
theorem temporalities_agree {s s' s'' : System σ} {q : ProcessorRequest} {r r' : Ref .processor}
    {p : Processor} (hdelta : newProcessor { q with temporality := .delta } s = (.ok r, s'))
    (hcumulative : newProcessor { q with temporality := .cumulative } s = (.ok r', s''))
    (hp : s'.processors.get? r = some p) (hlong : p.stream.descriptor.valueType = .long)
    (calls : List ProcessorCall) (hcalls : ∀ call ∈ calls, call.Feeds) (time : Option Int) :
    let b := Bench.start s'
    let b' := Bench.start s''
    ∃ reports metrics, b.reports r (calls ++ [.complete time]) = reports.map .ok ∧
      ((ProcessorCall.complete time).step r' (b'.after r' calls)).1 = .ok metrics ∧
      p.stream.shape.Retells (b.reading r none) ((b.after r calls).reading r time) reports
        metrics := by
  intro b b'
  obtain ⟨p₀, c, hworks, hworks', hempty, hstart, htemp⟩ := newProcessor_under hdelta hcumulative
  obtain rfl := Option.some.inj (hworks.processor.symm.trans hp)
  have hnone : ∀ k, ∀ a ∈ b.states k, p₀.stream.Makes a := fun k a ha => by cases ha
  obtain ⟨history, hhistory⟩ := p₀.stream.exists_history hlong
  have hall : ∀ call ∈ calls ++ [.complete time], call.Feeds := by
    intro call hcall
    rcases List.mem_append.mp hcall with hcall | hcall
    · exact hcalls call hcall
    · obtain rfl := List.mem_singleton.mp hcall
      trivial
  obtain ⟨reports, hreports, htold⟩ := hworks.told hempty htemp hnone hhistory _ hall
  obtain ⟨hevents, hreading⟩ := hworks.events_eq hworks' rfl rfl calls hcalls
  have hmakes : ∀ x ∈ Temporality.cumulative.arrivals (b.events r calls),
      p₀.stream.Makes x.aggregator := fun x hx =>
    hworks.makes_of_arrived hnone calls hcalls x (Temporality.mem_of_mem_arrivals hx)
  -- the window that never ends has the whole history of each label set
  obtain ⟨metrics, hcomplete, hpoints⟩ : ∃ metrics,
      ((ProcessorCall.complete time).step r' (b'.after r' calls)).1 = .ok metrics ∧
      ∀ l, pointsFor l metrics = ((p₀.stream.shape.summary (Stream.recorded history
          (Temporality.cumulative.arrivals (b.events r calls)) l)).map
        (Point.mk p₀.stream.start ((b.after r calls).reading r time) l)).toList := by
    obtain ⟨hcomplete, -⟩ :=
      hworks'.complete_after hempty calls (fun x hx => (hcalls x hx).fits _) time
    rw [hevents, hreading] at hcomplete
    refine ⟨_, hcomplete, fun l => ?_⟩
    rw [Stream.pointsFor_metricsOf, Stream.get?_windowOf,
      ← (Stream.remembers_held hmakes hhistory l).value?_eq]
    rfl
  have hcombined : ∀ l, pointsFor l metrics
      = ((p₀.stream.shape.combined (reports.flatMap (pointValues l))).map
        (Point.mk p₀.stream.start ((b.after r calls).reading r time) l)).toList := by
    intro l
    obtain ⟨blocks, hblocks, hhistories⟩ := htold.blocks l
    rw [Bench.events_append, show (b.after r calls).events r [.complete time]
        = [.ended ((b.after r calls).reading r time)] from rfl,
      Temporality.arrivals_ended_delta, Temporality.arrivals_ended_cumulative] at hhistories
    rw [hpoints, hblocks, Shape.combined_summaries, ← hhistories]
    exact congrArg (fun vs => ((p₀.stream.shape.summary vs).map _).toList) (List.append_nil _)
  have hbegin : b.reading r none = p₀.stream.start := by
    rw [hworks.reading_eq, hstart]
    rfl
  rw [hbegin]
  refine ⟨reports, metrics, hreports, hcomplete, htold.first, fun l => ?_, hcombined⟩
  rw [hcombined, Option.toList_eq_nil_iff, Option.map_eq_none_iff, Shape.combined_eq_none_iff,
    List.flatMap_eq_nil_iff]
  exact forall₂_congr fun report _ => pointValues_eq_nil_iff

/-- Three are counted without labels in one cycle, and seven in the next one, in which an aggregator
that holds nothing is batched under a label. -/
def ProcessorCall.ofTwoCycles : List ProcessorCall :=
  [.create 0, .record 0 (.number (.integer 3)), .batch LabelSet.empty 0 false, .complete none,
    .record 0 (.number (.integer 7)), .batch LabelSet.empty 0 true, .create 1,
    .batch (LabelSet.empty.insert "k" "v") 1 true]

/-- The two counts are reported one after the other under delta temporality, and add up under
cumulative temporality. -/
theorem temporalities_agree_of_two_cycles : ∃ reports metrics,
    (Bench.start (System.ofCounter .delta)).reports ⟨0⟩
        (ProcessorCall.ofTwoCycles ++ [.complete (some 9)]) = reports.map .ok ∧
      ((ProcessorCall.complete (some 9)).step ⟨0⟩
        ((Bench.start (System.ofCounter .cumulative)).after ⟨0⟩ ProcessorCall.ofTwoCycles)).1
          = .ok metrics ∧
      (Shape.sum true).Retells 5 9 reports metrics ∧
      reports.map (pointValues LabelSet.empty)
        = [[.number (.integer 3)], [.number (.integer 7)]] ∧
      metrics.flatMap Metric.points = [⟨5, 9, LabelSet.empty, .number (.integer 10)⟩] := by
  have hdelta : newProcessor { ProcessorRequest.ofCounter .delta with temporality := .delta }
      System.ofClock = (.ok ⟨0⟩, System.ofCounter .delta) := rfl
  have hcumulative : newProcessor { ProcessorRequest.ofCounter .delta with
      temporality := .cumulative } System.ofClock = (.ok ⟨0⟩, System.ofCounter .cumulative) := rfl
  obtain ⟨p, hp, hlong, hshape⟩ : ∃ p, (System.ofCounter .delta).processors.get? ⟨0⟩ = some p ∧
      p.stream.descriptor.valueType = .long ∧ p.stream.shape = .sum true := by
    have hsome : ((System.ofCounter .delta).processors.get? ⟨0⟩).map
        (fun p => (p.stream.descriptor.valueType, p.stream.shape)) = some (.long, .sum true) := by
      decide +kernel
    obtain ⟨p, hp, heq⟩ := Option.map_eq_some_iff.mp hsome
    exact ⟨p, hp, Prod.mk.inj heq⟩
  obtain ⟨reports, metrics, hreports, hmetrics, hretells⟩ := temporalities_agree hdelta
    hcumulative hp hlong ProcessorCall.ofTwoCycles (by decide) (some 9)
  have hstart : (Bench.start (System.ofCounter .delta)).reading ⟨0⟩ none = 5 := by decide +kernel
  rw [hshape, hstart] at hretells
  refine ⟨reports, metrics, hreports, hmetrics, hretells, ?_, ?_⟩
  · have hall : ((Bench.start (System.ofCounter .delta)).reports ⟨0⟩
        (ProcessorCall.ofTwoCycles ++ [.complete (some 9)])).map
        (fun report => report.toOption.map (pointValues LabelSet.empty))
          = [some [.number (.integer 3)], some [.number (.integer 7)]] := by decide +kernel
    rw [hreports, List.map_map] at hall
    have hinj : Function.Injective (some : List PointValue → _) := Option.some_injective _
    refine List.map_injective_iff.mpr hinj ?_
    rw [List.map_map]
    exact hall
  · have hall : (((ProcessorCall.complete (some 9)).step ⟨0⟩
        ((Bench.start (System.ofCounter .cumulative)).after ⟨0⟩
          ProcessorCall.ofTwoCycles)).1.toOption.map fun m => m.flatMap Metric.points)
        = some [⟨5, 9, LabelSet.empty, .number (.integer 10)⟩] := by decide +kernel
    rw [hmetrics] at hall
    exact Option.some.inj hall

end Metering
