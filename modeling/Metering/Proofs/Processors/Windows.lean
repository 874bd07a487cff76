import Metering.Proofs.Concurrency.Conservation
import Metering.Proofs.Processors.Calls
import Mathlib.Data.List.DropRight

/-!
# Windows tile time

The window of a processor begins when the processor is made.  Under delta temporality it ends with
every cycle, completed or skipped, and the next one begins at that time; under cumulative
temporality it never ends.  `Temporality.startOf` and `Temporality.arrivals` read off the events
when the current window began and what has arrived in it, and `Stream.foldl_next` says that the
stream agrees.

A report has one point for each label set of the window that holds a measurement, in the order in
which they entered it.  `windows_tile` is the main statement: it says so of every cycle that any
caller completes.
-/

namespace Metering

open Fallible SystemM

variable {σ : Type}

/-! ### When a window began, and what is in it -/

namespace WindowEvent

/-- The time at which a cycle ended. -/
def time? : WindowEvent → Option Int
  | .arrived _ => none
  | .ended time => some time

/-- What has arrived. -/
def arrival? : WindowEvent → Option Arrival
  | .arrived x => some x
  | .ended _ => none

end WindowEvent

namespace Temporality

/-- When the current window began, in a processor made at a certain time: at the end of the last
cycle, if windows end. -/
def startOf (t : Temporality) (creation : Int) (events : List WindowEvent) : Int :=
  match t with
  | .delta => (events.filterMap WindowEvent.time?).getLast?.getD creation
  | .cumulative => creation

/-- What has arrived in the current window: since the end of the last cycle, if windows end. -/
def arrivals (t : Temporality) (events : List WindowEvent) : List Arrival :=
  match t with
  | .delta => (events.rtakeWhile fun e => e.time?.isNone).filterMap WindowEvent.arrival?
  | .cumulative => events.filterMap WindowEvent.arrival?

variable (t : Temporality) (creation : Int) (events : List WindowEvent) (x : Arrival) (time : Int)

theorem startOf_arrived :
    t.startOf creation (events ++ [.arrived x]) = t.startOf creation events := by
  cases t with
  | delta => simp [startOf, WindowEvent.time?]
  | cumulative => rfl

theorem arrivals_arrived : t.arrivals (events ++ [.arrived x]) = t.arrivals events ++ [x] := by
  cases t with
  | delta => simp [arrivals, WindowEvent.time?, WindowEvent.arrival?]
  | cumulative => simp [arrivals, WindowEvent.arrival?]

theorem startOf_ended_delta : delta.startOf creation (events ++ [.ended time]) = time := by
  simp [startOf, WindowEvent.time?]

theorem arrivals_ended_delta : delta.arrivals (events ++ [.ended time]) = [] := by
  simp [arrivals, WindowEvent.time?]

theorem arrivals_ended_cumulative :
    cumulative.arrivals (events ++ [.ended time]) = cumulative.arrivals events := by
  simp [arrivals, WindowEvent.arrival?]

variable {t events x} in
theorem mem_of_mem_arrivals (hx : x ∈ t.arrivals events) : .arrived x ∈ events := by
  have harrived : ∀ {es : List WindowEvent}, x ∈ es.filterMap WindowEvent.arrival? →
      .arrived x ∈ es := by
    intro es hx
    obtain ⟨e, he, hex⟩ := List.mem_filterMap.mp hx
    cases e with
    | arrived y =>
      obtain rfl := Option.some.inj hex
      exact he
    | ended time => cases hex
  cases t with
  | delta => exact (List.rtakeWhile_suffix _ _).subset (harrived hx)
  | cumulative => exact harrived hx

end Temporality

/-! ### The window of some arrivals -/

namespace Stream

/-- The window in which some aggregators have arrived one after the other. -/
def windowOf (s : Stream) (xs : List Arrival) : OrderedMap LabelSet Aggregator :=
  xs.foldl s.receive OrderedMap.empty

/-- What the window has for a label set: the first aggregator that arrived for it, with the later
ones taken up. -/
def held (s : Stream) (xs : List Arrival) (l : LabelSet) : Option Aggregator :=
  (xs.filter (·.labels = l)).foldl (fun known x => some (s.joined known x)) none

/-- **The window** of a stream is the one that its events say. -/
theorem foldl_next (s : Stream) (creation : Int) (events : List WindowEvent) :
    events.foldl s.next ⟨creation, OrderedMap.empty⟩
      = ⟨s.temporality.startOf creation events, s.windowOf (s.temporality.arrivals events)⟩ := by
  induction events using List.reverseRecOn with
  | nil => cases s.temporality <;> rfl
  | append_singleton events e ih =>
    rw [List.foldl_append, ih]
    cases e with
    | arrived x =>
      rw [Temporality.startOf_arrived, Temporality.arrivals_arrived, windowOf, windowOf,
        List.foldl_append]
      rfl
    | ended time =>
      show s.next _ (.ended time) = _
      unfold next
      cases s.temporality with
      | delta =>
        rw [Temporality.startOf_ended_delta, Temporality.arrivals_ended_delta]
        rfl
      | cumulative =>
        rw [Temporality.arrivals_ended_cumulative]
        rfl

variable {s : Stream} {xs : List Arrival} {l : LabelSet}

theorem held_concat (s : Stream) (xs : List Arrival) (x : Arrival) (l : LabelSet) :
    s.held (xs ++ [x]) l = if x.labels = l then some (s.joined (s.held xs l) x)
      else s.held xs l := by
  unfold held
  rw [List.filter_append, List.foldl_append, List.filter_singleton]
  by_cases h : x.labels = l <;> simp [h]

theorem get?_windowOf (s : Stream) (xs : List Arrival) (l : LabelSet) :
    (s.windowOf xs).get? l = s.held xs l := by
  induction xs using List.reverseRecOn with
  | nil => rfl
  | append_singleton xs x ih =>
    rw [windowOf, List.foldl_append]
    show (s.receive (s.windowOf xs) x).get? l = _
    rw [receive, OrderedMap.get?_insert, held_concat]
    by_cases h : x.labels = l
    · subst h
      rw [if_pos rfl, if_pos rfl, ih]
    · rw [if_neg (Ne.symm h), if_neg h, ih]

/-- Label sets enter the window in the order in which they arrive for the first time. -/
theorem keys_windowOf (s : Stream) (xs : List Arrival) :
    (s.windowOf xs).keys = (xs.map Arrival.labels).eraseDups := by
  induction xs using List.reverseRecOn with
  | nil => rfl
  | append_singleton xs x ih =>
    rw [windowOf, List.foldl_append]
    show (s.receive (s.windowOf xs) x).keys = _
    have hone : ([x.labels].removeAll (xs.map Arrival.labels)).eraseDups
        = if x.labels ∈ xs.map Arrival.labels then [] else [x.labels] := by
      rw [List.removeAll, List.filter_singleton]
      by_cases h : x.labels ∈ xs.map Arrival.labels
      · rw [if_pos h, List.elem_eq_true_of_mem h]
        rfl
      · rw [if_neg h, show List.elem x.labels (xs.map Arrival.labels) = false by simpa using h]
        rfl
    rw [receive, OrderedMap.keys_insert, ih, List.map_append, List.eraseDups_append,
      List.map_singleton, hone]
    simp only [List.mem_eraseDups]
    split
    · rw [List.append_nil]
    · rfl

/-- What the window has nothing for has not arrived. -/
theorem labels_ne_of_held (h : s.held xs l = none) : ∀ x ∈ xs, x.labels ≠ l := by
  intro x hx hl
  have hmem : x.labels ∈ (s.windowOf xs).keys := by
    rw [keys_windowOf, List.mem_eraseDups]
    exact List.mem_map_of_mem hx
  rw [← get?_windowOf, OrderedMap.get?_eq_none_iff, ← hl] at h
  exact h hmem

/-- What the window has is kin, and holds nothing just if nothing has arrived for its label set that
held something. -/
theorem held_kin (hxs : ∀ x ∈ xs, s.Kin x.aggregator) {a : Aggregator} (h : s.held xs l = some a) :
    s.Kin a ∧ (a.isEmpty = true ↔ ∀ x ∈ xs, x.labels = l → x.aggregator.isEmpty = true) := by
  induction xs using List.reverseRecOn generalizing a with
  | nil => cases h
  | append_singleton xs x ih =>
    have ih := fun {a} => ih (a := a) fun y hy => hxs y (List.mem_append_left _ hy)
    have hx := hxs x (List.mem_append_right _ (List.mem_singleton_self x))
    rw [held_concat] at h
    simp only [List.forall_mem_append, List.forall_mem_singleton]
    split at h
    · next hl =>
      obtain rfl := Option.some.inj h
      refine ⟨Kin.joined (fun a ha => (ih ha).1) hx, ?_⟩
      unfold joined
      cases hknown : s.held xs l with
      | some a =>
        dsimp only
        rw [(ih hknown).1.isEmpty_absorb hx, Bool.and_eq_true, (ih hknown).2]
        simp [hl]
      | none =>
        have hnone := labels_ne_of_held hknown
        -- it is adopted, or taken up by a new one, which adds nothing
        have hjoined : (if x.unmapped = true then x.aggregator
            else s.freshAggregator.absorb x.aggregator).isEmpty = x.aggregator.isEmpty := by
          split
          · rfl
          · rw [s.kin_freshAggregator.isEmpty_absorb hx, isEmpty_freshAggregator, Bool.true_and]
        dsimp only
        rw [hjoined]
        simp only [hl, true_implies, iff_and_self]
        exact fun _ y hy hyl => absurd hyl (hnone y hy)
    · next hl =>
      obtain ⟨hkin, hempty⟩ := ih h
      refine ⟨hkin, ?_⟩
      rw [hempty]
      simp [hl]

end Stream

/-! ### Reports -/

/-- The label sets for which something has arrived that holds a measurement, in the order in which
they have entered the window. -/
def measured (xs : List Arrival) : List LabelSet :=
  (xs.map Arrival.labels).eraseDups.filter fun l =>
    xs.any fun x => decide (x.labels = l) && !x.aggregator.isEmpty

theorem measured_eq_nil_iff {xs : List Arrival} :
    measured xs = [] ↔ ∀ x ∈ xs, x.aggregator.isEmpty = true := by
  unfold measured
  simp only [List.filter_eq_nil_iff, List.mem_eraseDups, List.mem_map, List.any_eq_true,
    Bool.and_eq_true, decide_eq_true_eq, Bool.not_eq_true', not_exists, not_and,
    Bool.not_eq_false]
  exact ⟨fun h x hx => h x.labels ⟨x, hx, rfl⟩ x hx rfl, fun h _ _ x hx _ => h x hx⟩

/-- What is reported, at a time, of a window that began at another and in which some aggregators
have arrived. -/
structure Stream.Reports (s : Stream) (start : Int) (xs : List Arrival) (time : Int)
    (metrics : List Metric) : Prop where
  /-- Nothing is reported just if no label set holds a measurement. -/
  silent : metrics = [] ↔ ∀ x ∈ xs, x.aggregator.isEmpty = true
  /-- Otherwise it is one metric, with a point for each label set that holds one. -/
  single : metrics ≠ [] → ∃ m, metrics = [m] ∧ m.points.map Point.labels = measured xs ∧
    (m.points.map Point.labels).Nodup
  /-- All points have the same start and end, and say what has arrived for their label set. -/
  points : ∀ m ∈ metrics, ∀ x ∈ m.points, x.start = start ∧ x.stop = time ∧
    ∃ a, s.held xs x.labels = some a ∧ a.value? = some x.value

namespace Stream

variable {s s' : Stream} {xs : List Arrival}

theorem Continues.held (h : s.Continues s') : s'.held = s.held := by
  rw [h]
  rfl

theorem Continues.windowOf (h : s.Continues s') : s'.windowOf = s.windowOf := by
  rw [h]
  rfl

theorem Continues.reports (h : s.Continues s') {start time : Int} {metrics : List Metric}
    (hreports : s'.Reports start xs time metrics) : s.Reports start xs time metrics where
  silent := hreports.silent
  single := hreports.single
  points := by
    rw [← h.held]
    exact hreports.points

/-- The label sets of the points are those that hold a measurement. -/
theorem labels_points (hxs : ∀ x ∈ xs, s.Kin x.aggregator) (start time : Int) :
    ((s.windowOf xs).entries.filterMap fun e => e.2.point? start time e.1).map Point.labels
      = measured xs := by
  rw [OrderedMap.map_filterMap_entries _ _ _ fun e b hb => by
    obtain ⟨value, -, rfl⟩ := Option.map_eq_some_iff.mp hb
    rfl]
  rw [keys_windowOf, measured]
  refine List.filter_congr fun l hl => ?_
  rw [get?_windowOf, Bool.eq_iff_iff]
  have hmem : l ∈ (s.windowOf xs).keys := by rwa [keys_windowOf]
  obtain ⟨a, ha⟩ : ∃ a, s.held xs l = some a := by
    rw [← Option.ne_none_iff_exists', ← get?_windowOf, ne_eq, OrderedMap.get?_eq_none_iff]
    exact not_not_intro hmem
  have hempty := (held_kin hxs ha).2
  rw [ha, Option.bind_some, Aggregator.point?, Option.isSome_map, Option.isSome_iff_ne_none, ne_eq,
    a.value?_eq_none_iff, hempty]
  simp

/-- **A report** of the window of some arrivals. -/
theorem reports_metricsOf (hxs : ∀ x ∈ xs, s.Kin x.aggregator) (time : Int) :
    s.Reports s.start xs time (s.metricsOf (s.windowOf xs) time) := by
  have hlabels := labels_points hxs s.start time
  have hpoint : ∀ x ∈ (s.windowOf xs).entries.filterMap fun e => e.2.point? s.start time e.1,
      x.start = s.start ∧ x.stop = time ∧
        ∃ a, s.held xs x.labels = some a ∧ a.value? = some x.value := by
    intro x hx
    obtain ⟨e, he, hx⟩ := List.mem_filterMap.mp hx
    obtain ⟨value, hvalue, rfl⟩ := Option.map_eq_some_iff.mp hx
    refine ⟨rfl, rfl, e.2, ?_, hvalue⟩
    rw [← get?_windowOf]
    exact OrderedMap.get?_eq_of_mem he
  have hnodup : (measured xs).Nodup := by
    unfold measured
    rw [← s.keys_windowOf]
    exact (s.windowOf xs).nodup.sublist List.filter_sublist
  unfold metricsOf
  cases hpoints : (s.windowOf xs).entries.filterMap fun e => e.2.point? s.start time e.1 with
  | nil =>
    rw [hpoints] at hlabels
    exact ⟨iff_of_true rfl (measured_eq_nil_iff.mp hlabels.symm), absurd rfl, nofun⟩
  | cons x rest =>
    rw [hpoints] at hlabels hpoint
    refine ⟨iff_of_false nofun fun hall => ?_, fun _ => ⟨_, rfl, hlabels, hlabels ▸ hnodup⟩, ?_⟩
    · rw [measured_eq_nil_iff.mpr hall] at hlabels
      cases hlabels
    · intro m hm
      obtain rfl := List.mem_singleton.mp hm
      exact hpoint

end Stream

/-! ### Cycles -/

/-- What a cycle reports that is completed after some calls, in terms of what they have done to the
window. -/
theorem Bench.Works.complete_after {b : Bench σ} {r : Ref .processor} {p : Processor} {c : Clock}
    {keeper : AggregatorId → Keeper} (h : b.Works r p c keeper)
    (hempty : p.stream.window = OrderedMap.empty) (calls : List ProcessorCall)
    (hcalls : ∀ call ∈ calls, call.Fits p.stream) (time : Option Int) :
    let past := b.events r calls
    ((ProcessorCall.complete time).step r (b.after r calls)).1
        = .ok (({ p.stream with
            start := p.stream.temporality.startOf p.stream.start past } : Stream).metricsOf
          (p.stream.windowOf (p.stream.temporality.arrivals past))
          ((b.after r calls).reading r time)) ∧
      ∀ x ∈ p.stream.temporality.arrivals past, p.stream.Kin x.aggregator := by
  obtain ⟨p', c', keeper', h', hcontinues, hwindow, hkin⟩ := h.after calls hcalls
  have hbegin : p.stream.windowState b.system.pool = ⟨p.stream.start, OrderedMap.empty⟩ := by
    unfold Stream.windowState Stream.windowIn
    rw [hempty]
    rfl
  rw [hbegin, Stream.foldl_next] at hwindow
  obtain ⟨hstart', hwindow'⟩ := WindowState.mk.inj hwindow
  refine ⟨?_, fun x hx => hkin x (Temporality.mem_of_mem_arrivals hx)⟩
  rw [h'.complete_result, hwindow', ← hstart']
  -- of a stream that goes on, the metrics depend on the start of the window only
  have hsame : ({ p.stream with start := p'.stream.start } : Stream).Continues p'.stream :=
    hcontinues
  rw [hsame.metricsOf rfl]

/-- **Windows tile time**: whatever the calls on a new processor have been, the next cycle that is
completed reports the current window, from its start to the time of the cycle. -/
theorem windows_tile {s s' : System σ} {q : ProcessorRequest} {r : Ref .processor} {p : Processor}
    (hnew : newProcessor q s = (.ok r, s')) (hp : s'.processors.get? r = some p)
    (calls : List ProcessorCall) (hcalls : ∀ call ∈ calls, call.Fits p.stream)
    (time : Option Int) :
    let b := Bench.start s'
    let past := b.events r calls
    ∃ metrics, ((ProcessorCall.complete time).step r (b.after r calls)).1 = .ok metrics ∧
      p.stream.Reports (p.stream.temporality.startOf (b.reading r none) past)
        (p.stream.temporality.arrivals past) ((b.after r calls).reading r time) metrics := by
  obtain ⟨p₀, c, hworks, hempty, hstart, -⟩ := newProcessor_works hnew
  obtain rfl := Option.some.inj (hworks.processor.symm.trans hp)
  obtain ⟨hcomplete, hkin⟩ := hworks.complete_after hempty calls hcalls time
  intro b past
  have hreading : b.reading r none = p₀.stream.start := by
    rw [hworks.reading_eq, hstart]
    rfl
  refine ⟨_, hcomplete, ?_⟩
  rw [hreading]
  have hcontinues : p₀.stream.Continues { p₀.stream with
      start := p₀.stream.temporality.startOf p₀.stream.start past } := rfl
  rw [← hcontinues.windowOf]
  exact hcontinues.reports
    (Stream.reports_metricsOf (fun x hx => hcontinues.kin.mpr (hkin x hx)) _)

/-- A system with a clock that shows the time 5. -/
def System.ofClock : System Unit :=
  { (System.empty : System Unit) with
    clocks := Table.empty.add (.manual 5)
    names := OrderedMap.empty.insert "clock" (.component .clock ⟨0⟩) }

/-- A request for the processor of a counter of requests. -/
def ProcessorRequest.ofCounter (temporality : Temporality) : ProcessorRequest :=
  { descriptor := ⟨.text "requests", .kind .counter, .valueType .long, some "", some "1"⟩
    aggregation := .sum
    temporality := temporality
    clock := "clock"
    resource := .absent
    library := ⟨some "server", none⟩ }

/-- The system after that request. -/
def System.ofCounter (temporality : Temporality) : System Unit :=
  (newProcessor (ProcessorRequest.ofCounter temporality) System.ofClock).2

theorem System.exists_ofCounter (temporality : Temporality) : ∃ p,
    (System.ofCounter temporality).processors.get? ⟨0⟩ = some p ∧
      p.stream.temporality = temporality := by
  have hsome : ((System.ofCounter temporality).processors.get? ⟨0⟩).map (·.stream.temporality)
      = some temporality := by
    cases temporality <;> decide +kernel
  obtain ⟨p, hp, htemp⟩ := Option.map_eq_some_iff.mp hsome
  exact ⟨p, hp, htemp⟩

/-- Three are counted without labels, and the cycle is skipped at a negative time.  Then seven are
counted, and an aggregator that holds nothing is batched under a label. -/
def ProcessorCall.ofSkippedCycle : List ProcessorCall :=
  [.create 0, .record 0 (.number (.integer 3)), .batch LabelSet.empty 0 false, .skip (some (-1)),
    .create 1, .record 0 (.number (.integer 7)), .batch LabelSet.empty 0 true,
    .batch (LabelSet.empty.insert "k" "v") 1 false, .elapse 4]

/-- After a skipped cycle the window begins at its end. -/
theorem windows_tile_of_skipped_cycle : ∃ p metrics,
    (System.ofCounter .delta).processors.get? ⟨0⟩ = some p ∧
    ((ProcessorCall.complete none).step ⟨0⟩
      ((Bench.start (System.ofCounter .delta)).after ⟨0⟩ ProcessorCall.ofSkippedCycle)).1
        = .ok metrics ∧
    p.stream.Reports (-1)
      [⟨LabelSet.empty, .long (.sum true (some 7)), true⟩,
        ⟨LabelSet.empty.insert "k" "v", .long (.sum true none), false⟩] 9 metrics := by
  obtain ⟨p, hp, hdelta⟩ := System.exists_ofCounter .delta
  have hfits : ∀ call ∈ ProcessorCall.ofSkippedCycle, call.Fits p.stream := by
    simp [ProcessorCall.ofSkippedCycle, ProcessorCall.Fits]
  have hnew : newProcessor (ProcessorRequest.ofCounter .delta) System.ofClock
      = (.ok ⟨0⟩, System.ofCounter .delta) := rfl
  obtain ⟨metrics, hcomplete, hreports⟩ :=
    windows_tile hnew hp ProcessorCall.ofSkippedCycle hfits none
  refine ⟨p, metrics, hp, hcomplete, ?_⟩
  have hstart : Temporality.delta.startOf ((Bench.start (System.ofCounter .delta)).reading ⟨0⟩ none)
      ((Bench.start (System.ofCounter .delta)).events ⟨0⟩ ProcessorCall.ofSkippedCycle) = -1 := by
    decide +kernel
  have harrivals : Temporality.delta.arrivals
      ((Bench.start (System.ofCounter .delta)).events ⟨0⟩ ProcessorCall.ofSkippedCycle)
        = [⟨LabelSet.empty, .long (.sum true (some 7)), true⟩,
          ⟨LabelSet.empty.insert "k" "v", .long (.sum true none), false⟩] := by
    decide +kernel
  have htime : ((Bench.start (System.ofCounter .delta)).after ⟨0⟩
      ProcessorCall.ofSkippedCycle).reading ⟨0⟩ none = 9 := by decide +kernel
  rw [hdelta, hstart, harrivals, htime] at hreports
  exact hreports

end Metering
