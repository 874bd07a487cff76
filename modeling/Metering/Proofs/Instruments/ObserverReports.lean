import Metering.Proofs.Instruments.Cycles
import Metering.Proofs.Instruments.Observations
import Metering.Proofs.Pipeline.Registering
import Metering.Proofs.Processors.Histories

/-!
# What an observer reports

An observer of long values is collected in rounds, in each of which it may have another callback.
The history of a label set has one value for each round of the current window that completed and
observed the label set: the last one observed for it.  `observer_tells_histories` is the main
statement: a round that completes reports the summary of each history that is not empty, and any
other round reports nothing and leaves no trace in a history.

The invariant is `Recounts`: what the window has for a label set is left of its history, and the
window began when the temporality says.
-/

namespace Metering

open Fallible SystemM

variable {σ : Type}

/-! ### Rounds and their histories -/

/-- The last long value that the next call observes for a label set. -/
def Callback.lastLong (c : Callback σ) (l : LabelSet) : Option Int :=
  match c.lastFor .long l with
  | some (.integer n) => some n
  | _ => none

/-- A round of collecting an observer: the callback that it has by then, the nanoseconds that have
passed on its clock, and the time of the end if it is not left to the clock. -/
structure Round (σ : Type) where
  callback : Option (Callback σ)
  elapsed : Int
  time : Option Int

namespace Round

/-- The callback of the round performs no steps. -/
def IsQuiet (x : Round σ) : Prop := ∀ c ∈ x.callback, c.IsQuiet

instance (x : Round σ) : Decidable x.IsQuiet :=
  inferInstanceAs (Decidable (∀ c ∈ x.callback, c.IsQuiet))

/-- The round has a callback, and it completes. -/
def Completes (x : Round σ) : Prop := ∃ c ∈ x.callback, c.Completes .long

instance (x : Round σ) : Decidable x.Completes :=
  inferInstanceAs (Decidable (∃ c ∈ x.callback, c.Completes .long))

/-- What a label set learns of the round: the last value observed for it, if the round completes. -/
def learned (x : Round σ) (l : LabelSet) : Option Int :=
  x.callback.bind fun c => if c.Completes .long then c.lastLong l else none

/-- What becomes of the round, for an instrument and its clock. -/
def perform (perform : σ → SystemM σ Unit) (r : Ref .instrument) (q : Ref .clock) (x : Round σ) :
    SystemM σ (List Metric) := do
  let c ← clock q
  modify fun s => { s with clocks := s.clocks.set q (c.advance x.elapsed) }
  let i ← instrument r
  setInstrument r { i with callback := x.callback }
  collectInstrument perform r x.time

/-- The system after several rounds. -/
def after (perform : σ → SystemM σ Unit) (r : Ref .instrument) (q : Ref .clock) (s : System σ)
    (rounds : List (Round σ)) : System σ :=
  rounds.foldl (fun s x => (x.perform perform r q s).2) s

/-- The clock after several rounds. -/
def clockAfter (c : Clock) (rounds : List (Round σ)) : Clock :=
  rounds.foldl (fun c x => c.advance x.elapsed) c

/-- When a round ends that begins with a clock. -/
def endsAt (c : Clock) (x : Round σ) : Int := x.time.getD (c.advance x.elapsed).now

/-- When several rounds end. -/
def ends (c : Clock) : List (Round σ) → List Int
  | [] => []
  | x :: rest => x.endsAt c :: ends (c.advance x.elapsed) rest

theorem clockAfter_concat (c : Clock) (rounds : List (Round σ)) (x : Round σ) :
    clockAfter c (rounds ++ [x]) = (clockAfter c rounds).advance x.elapsed := List.foldl_concat ..

theorem ends_concat (c : Clock) (rounds : List (Round σ)) (x : Round σ) :
    ends c (rounds ++ [x]) = ends c rounds ++ [x.endsAt (clockAfter c rounds)] := by
  induction rounds generalizing c with
  | nil => rfl
  | cons y rest ih => exact congrArg _ (ih (c.advance y.elapsed))

end Round

namespace Temporality

/-- The rounds before the next one that share its window: none, if windows end. -/
def sharing (t : Temporality) (rounds : List (Round σ)) : List (Round σ) :=
  match t with
  | .delta => []
  | .cumulative => rounds

/-- When the window of the next round begins: at the end of the round before, if windows end. -/
def beginsAt (t : Temporality) (creation : Int) (c : Clock) (rounds : List (Round σ)) : Int :=
  match t with
  | .delta => (Round.ends c rounds).getLast?.getD creation
  | .cumulative => creation

/-- The history of a label set at the end of a round: what it learns of the rounds of the window. -/
def history (t : Temporality) (rounds : List (Round σ)) (x : Round σ) (l : LabelSet) : List Int :=
  (t.sharing rounds ++ [x]).filterMap fun y => y.learned l

end Temporality

/-- What a round answers, after earlier rounds that began with a clock, if the stream is as it was
made. -/
structure Round.Tells (x : Round σ) (s : Stream) (c : Clock) (earlier : List (Round σ))
    (answer : Except Failure (List Metric)) : Prop where
  /-- A round whose callback is missing or fails reports nothing. -/
  silent : ¬ x.Completes → answer = .ok []
  /-- A round that completes reports just the label sets with a history, each with its summary. -/
  reported : x.Completes → ∃ metrics, answer = .ok metrics ∧ ∀ l,
    (pointsFor l metrics = [] ↔ s.temporality.history earlier x l = []) ∧
    pointsFor l metrics = ((s.shape.summary (s.temporality.history earlier x l)).map
      (Point.mk (s.temporality.beginsAt s.start c earlier)
        (x.endsAt (Round.clockAfter c earlier)) l)).toList

/-! ### What a callback leaves -/

namespace Callback

variable {c : Callback σ} {values : List (LabelSet × Number)}

/-- What a callback of long values comes to are the last long values that it observed. -/
theorem mem_outcome_long_iff (h : c.outcome .long = .ok values) {l : LabelSet} {m : Number} :
    (l, m) ∈ values ↔ ∃ n, m = .integer n ∧ c.lastLong l = some n := by
  have hlong : ∀ {m}, (l, m) ∈ values → ∃ n, m = .integer n := by
    intro m hm
    have hcheck := (outcome_checked h).1 (l, m) hm
    cases m with
    | integer n => exact ⟨n, rfl⟩
    | double x => cases hcheck
  unfold lastLong
  rw [mem_outcome_iff h]
  constructor
  · intro hm
    obtain ⟨n, rfl⟩ := hlong ((mem_outcome_iff h).mpr hm)
    exact ⟨n, rfl, by rw [hm]⟩
  · rintro ⟨n, rfl, hn⟩
    split at hn
    · next k hk =>
      obtain rfl := Option.some.inj hn
      exact hk
    · cases hn

end Callback

/-- Only the integer itself is measured as an integer in long values. -/
theorem ValueType.eq_of_check_long {x : Scalar} {n : Int}
    (h : (ValueType.long.check x).toOption = some (.integer n)) : x = .number (.integer n) := by
  change ((checkLong x).map Number.integer).toOption = _ at h
  unfold checkLong at h
  split at h
  · cases h
  · obtain rfl := Number.integer.inj (Option.some.inj h)
    rfl
  · cases h

namespace Round

variable {x : Round σ}

/-- A round that completes has learned the last values that its callback observed. -/
theorem of_completes (h : x.Completes) :
    ∃ (c : Callback σ) (values : List (LabelSet × Number)), c.outcome .long = .ok values ∧
      Callback.learned x.callback .long = some values ∧ ∀ l, x.learned l = c.lastLong l := by
  obtain ⟨c, hc, hcompletes⟩ := h
  have hvalues := Callback.outcome_eq_ok_iff.mpr ⟨hcompletes, rfl⟩
  refine ⟨c, _, hvalues, ?_, fun l => ?_⟩
  · rw [show x.callback = some c from hc]
    exact Callback.learned_of_ok hvalues
  · unfold learned
    rw [show x.callback = some c from hc, Option.bind_some, if_pos hcompletes]

/-- What is learned was observed. -/
theorem exists_observation {l : LabelSet} {n : Int} (h : x.learned l = some n) :
    ∃ c ∈ x.callback, ∃ o ∈ c.observations, o.1 = .number (.integer n) := by
  obtain ⟨c, hc, hlast⟩ := Option.bind_eq_some_iff.mp h
  refine ⟨c, hc, ?_⟩
  split at hlast
  · unfold Callback.lastLong at hlast
    split at hlast
    · next k hk =>
      obtain rfl := Option.some.inj hlast
      obtain ⟨v, hv, hvk⟩ := List.mem_map.mp (List.mem_of_getLast? hk)
      obtain ⟨o, ho, hread⟩ := List.mem_filterMap.mp (List.mem_filter.mp hv).1
      obtain ⟨m, hm, hlabels⟩ := Option.bind_eq_some_iff.mp hread
      obtain ⟨l', -, rfl⟩ := Option.map_eq_some_iff.mp hlabels
      obtain rfl : m = .integer k := hvk
      exact ⟨o, ho, ValueType.eq_of_check_long hm⟩
    · cases hlast
  · cases hlast

/-- If nothing else was observed, nothing else is learned. -/
theorem eq_of_learned {value : Int}
    (h : ∀ c ∈ x.callback, ∀ o ∈ c.observations, o.1 = .number (.integer value)) {l : LabelSet}
    {n : Int} (hn : x.learned l = some n) : n = value := by
  obtain ⟨c, hc, o, ho, hvalue⟩ := exists_observation hn
  exact Number.integer.inj (Scalar.number.inj (hvalue.symm.trans (h c hc o ho)))

theorem of_not_completes (h : ¬ x.Completes) :
    Callback.learned x.callback .long = none ∧ ∀ l, x.learned l = none := by
  unfold learned
  cases hc : x.callback with
  | none => exact ⟨rfl, fun _ => rfl⟩
  | some c =>
    have hcompletes : ¬ c.Completes .long := fun hcompletes => h ⟨c, hc, hcompletes⟩
    obtain ⟨e, he⟩ := Callback.outcome_of_not_completes hcompletes
    exact ⟨Callback.learned_of_error he, fun _ => if_neg hcompletes⟩

end Round

/-- A new aggregator of long values in which one was recorded has it as its history. -/
theorem Stream.holds_single {s : Stream} (hlong : s.descriptor.valueType = .long) {n : Int}
    (h : s.refusal? (.number (.integer n)) = none) :
    Aggregator.Holds IsSum s.shape (s.single (.number (.integer n))) [n] := by
  obtain ⟨hrecord, -⟩ := Stream.single_of_accepted h
  have hfresh : Aggregator.Holds IsSum s.shape s.freshAggregator ([] : List Int) := by
    have hholds := Aggregator.Holds.fresh addsUp_isSum s.shape
    unfold Stream.freshAggregator Aggregation.fresh
    rw [hlong]
    exact hholds
  obtain ⟨v, hv, hholds⟩ := hfresh.record addsUp_isSum hrecord
  obtain rfl := Except.ok.inj hv
  exact hholds

/-- **Taking up** what a callback of long values observed appends to the history of each label set
the value that it has learned, if any. -/
theorem Stream.TookUp.remembers {s : Stream} {window window' : OrderedMap LabelSet Aggregator}
    {c : Callback σ} {values : List (LabelSet × Number)} (h : s.TookUp window values window')
    (hlong : s.descriptor.valueType = .long) (hvalues : c.outcome .long = .ok values)
    (hrecords : ∀ v ∈ values, ¬ s.CannotRecord v.2) {l : LabelSet} {vs : List Int}
    (hl : s.Remembers (window.get? l) vs) :
    s.Remembers (window'.get? l) (vs ++ (c.lastLong l).toList) := by
  cases hlast : c.lastLong l with
  | none =>
    have hnot : l ∉ values.map Prod.fst := by
      intro hmem
      obtain ⟨⟨l', m⟩, hv, rfl⟩ := List.mem_map.mp hmem
      obtain ⟨n, -, hn⟩ := (Callback.mem_outcome_long_iff hvalues).mp hv
      rw [hlast] at hn
      cases hn
    rw [h.other l hnot, Option.toList_none, List.append_nil]
    exact hl
  | some n =>
    have hmem : (l, Number.integer n) ∈ values :=
      (Callback.mem_outcome_long_iff hvalues).mpr ⟨n, rfl, hlast⟩
    have hcheck : s.descriptor.valueType.check (.number (.integer n)) = .ok (.integer n) := by
      rw [hlong]
      rfl
    have hnone := (Stream.refusal?_eq_none_iff hcheck).mpr (hrecords (l, .integer n) hmem)
    rw [(h.observed l _ hmem).2]
    exact hl.absorb (Stream.single_of_accepted hnone).2 (Stream.holds_single hlong hnone)

/-- What the callback of a round observed can be **taken up**, and appends what the round has
learned to the history of each label set. -/
theorem Round.takeUpAll_remembers {s : Stream} {x : Round σ}
    (hlong : s.descriptor.valueType = .long)
    (hrecords : ∀ l n, x.learned l = some n → ¬ s.CannotRecord (.integer n))
    {window : OrderedMap LabelSet Aggregator} {history : LabelSet → List Int}
    (h : ∀ l, s.Remembers (window.get? l) (history l)) :
    s.refusalIn? ((Callback.learned x.callback .long).getD []) = none ∧
    ∀ l, s.Remembers
      ((s.takeUpAll window ((Callback.learned x.callback .long).getD [])).get? l)
      (history l ++ (x.learned l).toList) := by
  by_cases hx : x.Completes
  · obtain ⟨c, values, hvalues, hlearned, hlast⟩ := of_completes hx
    have hall : ∀ v ∈ values, ¬ s.CannotRecord v.2 := by
      rintro ⟨l, m⟩ hv
      obtain ⟨n, rfl, hn⟩ := (Callback.mem_outcome_long_iff hvalues).mp hv
      exact hrecords l n ((hlast l).trans hn)
    obtain ⟨hchecked, hnodup⟩ := Callback.outcome_checked hvalues
    rw [← hlong] at hchecked
    have haccepts := Stream.accepts_of_recordable hchecked hall
    rw [hlearned]
    refine ⟨(Stream.refusalIn?_eq_none_iff hchecked).mpr hall, fun l => ?_⟩
    rw [hlast]
    exact (s.tookUp_takeUpAll _ hnodup haccepts).remembers hlong hvalues hall (h l)
  · obtain ⟨hlearned, hnone⟩ := of_not_completes hx
    rw [hlearned]
    refine ⟨rfl, fun l => ?_⟩
    rw [hnone, Option.toList_none, List.append_nil]
    exact h l

/-! ### The invariant -/

/-- An observer with a callback, and its clock. -/
structure Watches (s : System σ) (r : Ref .instrument) (p : Processor)
    (callback : Option (Callback σ)) (c : Clock) : Prop where
  instrument : s.instruments.get? r
    = some ⟨p.stream.descriptor, .asynchronous, some p, callback⟩
  clock : s.clocks.get? p.clock = some c

/-- The system after a round of an observer has ended with a stream and a pool. -/
def System.observing (s : System σ) (r : Ref .instrument) (p : Processor) (c : Clock)
    (x : Round σ) (w : PooledStream) : System σ :=
  { s with
    pool := w.pool
    clocks := s.clocks.set p.clock (c.advance x.elapsed)
    instruments := s.instruments.set r ⟨p.stream.descriptor, .asynchronous,
      some { p with stream := w.stream }, x.callback.map Callback.next⟩
    log := s.log ++ Callback.entries p.stream.descriptor.name x.callback
      p.stream.descriptor.valueType }

namespace Watches

variable {s : System σ} {r : Ref .instrument} {p : Processor} {callback : Option (Callback σ)}
  {c : Clock} {x : Round σ}

/-- A round ends the window of the stream with what its callback has observed. -/
theorem perform_apply (h : Watches s r p callback c) (hx : x.IsQuiet)
    (perform : σ → SystemM σ Unit) :
    x.perform perform r p.clock s
      = ((({ pool := s.pool, stream := p.stream } : PooledStream).close
            (Callback.learned x.callback p.stream.descriptor.valueType) (x.endsAt c)).1,
          s.observing r p c x (({ pool := s.pool, stream := p.stream } : PooledStream).close
            (Callback.learned x.callback p.stream.descriptor.valueType) (x.endsAt c)).2) := by
  -- time passes, and the instrument gets the callback of the round
  let s₁ : System σ := { s with
    clocks := s.clocks.set p.clock (c.advance x.elapsed)
    instruments := s.instruments.set r
      ⟨p.stream.descriptor, .asynchronous, some p, x.callback⟩ }
  have hinstrument : s₁.instruments.get? r
      = some ⟨p.stream.descriptor, .asynchronous, some p, x.callback⟩ :=
    Table.get?_set_self _ h.instrument
  have hclock : s₁.clocks.get? p.clock = some (c.advance x.elapsed) :=
    Table.get?_set_self _ h.clock
  have htime : ∀ s' : System σ, s'.clocks = s₁.clocks →
      timeOr p.clock x.time s' = (.ok (x.endsAt c), s') := by
    intro s' hs'
    unfold Round.endsAt
    cases x.time with
    | some time => rfl
    | none =>
      unfold timeOr now SystemM.clock
      simp only [bind_apply, get_apply, demand_apply, hs', hclock, pure_apply, Option.getD_none]
  have hcollect := collectInstrument_of_observer hinstrument hx htime perform
  unfold Round.perform SystemM.clock SystemM.instrument
  simp only [bind_apply, get_apply, demand_apply, modify_apply, setInstrument, h.clock,
    h.instrument]
  rw [hcollect, Table.set_set]
  rfl

theorem observing (h : Watches s r p callback c) (x : Round σ) {w : PooledStream}
    (hw : p.stream.Continues w.stream) :
    Watches (s.observing r p c x w) r { p with stream := w.stream } (x.callback.map Callback.next)
      (c.advance x.elapsed) where
  instrument := by
    rw [show ({ p with stream := w.stream } : Processor).stream.descriptor = p.stream.descriptor
      from hw.descriptor]
    exact Table.get?_set_self _ h.instrument
  clock := Table.get?_set_self _ h.clock

end Watches

/-- After some rounds: the window began when it should, and what it has for a label set is left of
the history that the next round goes on with. -/
structure Recounts (p₀ : Processor) (c₀ : Clock) (rounds : List (Round σ)) (s : System σ)
    (r : Ref .instrument) (p : Processor) (callback : Option (Callback σ))
    (role : AggregatorId → Role) : Prop where
  watches : Watches s r p callback (Round.clockAfter c₀ rounds)
  continues : p₀.stream.Continues p.stream
  sameClock : p.clock = p₀.clock
  observes : Observes s.pool p.stream role
  start : p.stream.start = p₀.stream.temporality.beginsAt p₀.stream.start c₀ rounds
  remembers : ∀ l, p₀.stream.Remembers ((p.stream.windowIn s.pool).get? l)
    ((p₀.stream.temporality.sharing rounds).filterMap fun x => x.learned l)

namespace Recounts

variable {p₀ : Processor} {c₀ : Clock} {rounds : List (Round σ)} {s : System σ}
  {r : Ref .instrument} {p : Processor} {callback : Option (Callback σ)}
  {role : AggregatorId → Role} {x : Round σ}

/-- What the callback of a round observed can be taken up, and then the window holds the histories
of the round. -/
theorem takeUpAll (h : Recounts p₀ c₀ rounds s r p callback role)
    (hlong : p₀.stream.descriptor.valueType = .long)
    (hrecords : ∀ l n, x.learned l = some n → ¬ p₀.stream.CannotRecord (.integer n)) :
    p₀.stream.refusalIn? ((Callback.learned x.callback .long).getD []) = none ∧
    ∀ l, p₀.stream.Remembers ((p₀.stream.takeUpAll (p.stream.windowIn s.pool)
      ((Callback.learned x.callback .long).getD [])).get? l)
      (p₀.stream.temporality.history rounds x l) := by
  obtain ⟨hnone, hremembers⟩ := Round.takeUpAll_remembers hlong hrecords h.remembers
  refine ⟨hnone, fun l => ?_⟩
  have hhistory : p₀.stream.temporality.history rounds x l
      = ((p₀.stream.temporality.sharing rounds).filterMap fun y => y.learned l)
        ++ (x.learned l).toList := by
    unfold Temporality.history
    rw [List.filterMap_append]
    cases hl : x.learned l <;> simp [hl]
  rw [hhistory]
  exact hremembers l

/-- The next window begins when this one ends, if windows end. -/
theorem start_endWindow (h : Recounts p₀ c₀ rounds s r p callback role) (x : Round σ) :
    (p.stream.endWindow (x.endsAt (Round.clockAfter c₀ rounds))).start
      = p₀.stream.temporality.beginsAt p₀.stream.start c₀ (rounds ++ [x]) := by
  have hstart := h.start
  unfold Stream.endWindow
  rw [h.continues.temporality]
  cases ht : p₀.stream.temporality with
  | delta =>
    show _ = (Round.ends c₀ (rounds ++ [x])).getLast?.getD _
    rw [Round.ends_concat, List.getLast?_concat]
    rfl
  | cumulative =>
    rw [ht] at hstart
    exact hstart

/-- What the next window begins with are the histories that it goes on with. -/
theorem remembers_afterEnd {window : OrderedMap LabelSet Aggregator}
    (h : ∀ l, p₀.stream.Remembers (window.get? l) (p₀.stream.temporality.history rounds x l))
    (l : LabelSet) : p₀.stream.Remembers ((p₀.stream.afterEnd window).get? l)
      ((p₀.stream.temporality.sharing (rounds ++ [x])).filterMap fun y => y.learned l) := by
  unfold Stream.afterEnd
  unfold Temporality.history at h
  cases ht : p₀.stream.temporality with
  | delta => rfl
  | cumulative =>
    rw [ht] at h
    exact h l

/-- What is reported at the end of a round tells the histories. -/
theorem tells (h : Recounts p₀ c₀ rounds s r p callback role)
    (hlong : p₀.stream.descriptor.valueType = .long)
    (hrecords : ∀ l n, x.learned l = some n → ¬ p₀.stream.CannotRecord (.integer n)) :
    x.Tells p₀.stream c₀ rounds (p.stream.report (p.stream.windowIn s.pool)
      (Callback.learned x.callback .long) (x.endsAt (Round.clockAfter c₀ rounds))) := by
  constructor
  case silent =>
    intro hx
    obtain ⟨hlearned, -⟩ := Round.of_not_completes hx
    rw [hlearned]
    rfl
  case reported =>
    intro hx
    obtain ⟨hnone, hremembers⟩ := h.takeUpAll hlong hrecords
    obtain ⟨c, values, -, hlearned, -⟩ := Round.of_completes hx
    rw [hlearned, Option.getD_some] at hnone hremembers
    rw [hlearned]
    refine ⟨_, Stream.report_of_accepted (h.continues.refusalIn? ▸ hnone) _, fun l => ?_⟩
    have hpoints := p.stream.pointsFor_metricsOf
      (p.stream.takeUpAll (p.stream.windowIn s.pool) values)
      (x.endsAt (Round.clockAfter c₀ rounds)) l
    rw [h.continues.takeUpAll, (hremembers l).value?_eq, h.start] at hpoints
    rw [h.continues.takeUpAll, hpoints, and_iff_left rfl,
      ← Shape.summary_eq_none_iff p₀.stream.shape_ne_discard]
    cases p₀.stream.shape.summary (p₀.stream.temporality.history rounds x l) with
    | none => exact iff_of_true rfl rfl
    | some value => exact iff_of_false nofun nofun

/-- **A round** tells the histories of the label sets, and leaves them to the next one. -/
theorem perform (h : Recounts p₀ c₀ rounds s r p callback role)
    (hlong : p₀.stream.descriptor.valueType = .long) (hx : x.IsQuiet)
    (hrecords : ∀ l n, x.learned l = some n → ¬ p₀.stream.CannotRecord (.integer n))
    (perform : σ → SystemM σ Unit) :
    x.Tells p₀.stream c₀ rounds (x.perform perform r p₀.clock s).1 ∧
    ∃ p' callback' role', Recounts p₀ c₀ (rounds ++ [x]) (x.perform perform r p₀.clock s).2 r p'
      callback' role' := by
  obtain ⟨hnone, hremembers⟩ := h.takeUpAll hlong hrecords
  rw [← h.continues.refusalIn?] at hnone
  obtain ⟨w', role', hclose, hobs, hadv, hstart, hwindow⟩ := h.observes.close
    (w := { pool := s.pool, stream := p.stream }) (Callback.learned x.callback .long)
    (x.endsAt (Round.clockAfter c₀ rounds))
  have hstream : p.stream.Continues w'.stream := hadv.stream
  have happly := h.watches.perform_apply hx perform
  rw [h.continues.descriptor, hlong, hclose, h.sameClock] at happly
  rw [happly]
  refine ⟨h.tells hlong hrecords, { p with stream := w'.stream }, x.callback.map Callback.next,
    role', ?_⟩
  constructor
  case watches =>
    rw [Round.clockAfter_concat]
    exact h.watches.observing x hstream
  case continues => exact h.continues.trans hstream
  case sameClock => exact h.sameClock
  case observes => exact hobs
  case start =>
    rw [Stream.startAfterCycle_of_accepted hnone] at hstart
    exact hstart.trans (h.start_endWindow x)
  case remembers =>
    rw [Stream.afterCycle_of_accepted hnone] at hwindow
    show ∀ l, p₀.stream.Remembers ((w'.stream.windowIn w'.pool).get? l) _
    rw [hwindow, h.continues.afterEnd, h.continues.takeUpAll]
    exact remembers_afterEnd hremembers

/-- **Rounds** one after the other leave the histories to the next one. -/
theorem after {p₀ : Processor} {c₀ : Clock} {s₀ : System σ}
    (h : Recounts p₀ c₀ [] s₀ r p callback role) (hlong : p₀.stream.descriptor.valueType = .long)
    (perform : σ → SystemM σ Unit) (rounds : List (Round σ)) (hquiet : ∀ x ∈ rounds, x.IsQuiet)
    (hrecords : ∀ x ∈ rounds, ∀ l n, x.learned l = some n →
      ¬ p₀.stream.CannotRecord (.integer n)) :
    ∃ p' callback' role', Recounts p₀ c₀ rounds (Round.after perform r p₀.clock s₀ rounds) r p'
      callback' role' := by
  induction rounds using List.reverseRecOn with
  | nil => exact ⟨p, callback, role, h⟩
  | append_singleton rounds x ih =>
    have hx : x ∈ rounds ++ [x] := List.mem_append_right _ (List.mem_singleton_self x)
    obtain ⟨p', callback', role', h'⟩ := ih
      (fun y hy => hquiet y (List.mem_append_left _ hy))
      (fun y hy => hrecords y (List.mem_append_left _ hy))
    rw [Round.after, List.foldl_concat]
    exact (h'.perform hlong (hquiet x hx) (hrecords x hx) perform).2

end Recounts

/-! ### Whole runs -/

/-- **A new observer** of a provider that works has an empty window, which begins when its clock
says. -/
theorem Watches.of_makeInstrument {s s' : System σ} {m : Ref .meter} {d : Descriptor}
    {callback : Option (Callback σ)} {r : Ref .instrument} {p : Processor}
    (h : makeInstrument m d callback s = (.ok r, s')) (hd : d.kind.isSynchronous = false)
    (hp : (s'.instruments.get? r).bind Instrument.processor = some p) :
    ∃ c, Watches s' r p callback c ∧ p.stream.window = OrderedMap.empty ∧
      p.stream.descriptor = d ∧ p.stream.start = c.now := by
  unfold makeInstrument SystemM.meter SystemM.provider setMeter at h
  simp only [bind_apply, get_apply, demand_apply, modify_apply, pure_apply] at h
  cases hm : s.meters.get? m with
  | none =>
    rw [hm] at h
    cases h
  | some y =>
    simp only [hm] at h
    cases hx : s.providers.get? y.provider with
    | none =>
      rw [hx] at h
      cases h
    | some x =>
      simp only [hx] at h
      rcases newAccumulator_outcome x y.library d s with hnew | ⟨e, hnew⟩ | ⟨c, hc, hnew⟩
      case inr.inl =>
        rw [hnew] at h
        cases h
      all_goals
        simp only [hnew] at h
        obtain ⟨hr, rfl⟩ := Prod.mk.inj h
        obtain rfl := Except.ok.inj hr
      case inl =>
        -- an instrument that discards has no processor
        rw [show _ = some _ from Table.get?_add_next _ _] at hp
        cases hp
      case inr.inr =>
        have hget := s.instruments.get?_add_next ⟨d, .asynchronous,
          some ⟨x.stream y.library d c.now, x.clock⟩, callback⟩
        rw [hd, if_neg Bool.false_ne_true, hget] at hp
        obtain rfl := Option.some.inj hp
        refine ⟨c, ⟨?_, hc⟩, rfl, rfl, rfl⟩
        rw [hd, if_neg Bool.false_ne_true]
        exact hget

/-- **What an observer reports**: an observer of long values whose window is empty is collected in
rounds.  A round whose callback is missing or fails reports nothing.  One that completes reports the
label sets that have a history in its window, each with the summary of its history.  Label sets that
are given as mappings are the same in whatever order the keys stand. -/
theorem observer_tells_histories {s : System σ} {r : Ref .instrument} {p : Processor}
    {callback : Option (Callback σ)} {c : Clock} (h : Watches s r p callback c)
    (hnew : p.stream.window = OrderedMap.empty)
    (hlong : p.stream.descriptor.valueType = .long) (perform : σ → SystemM σ Unit)
    (rounds : List (Round σ)) (x : Round σ) (hquiet : ∀ y ∈ rounds ++ [x], y.IsQuiet)
    (hrecords : ∀ y ∈ rounds ++ [x], ∀ l n, y.learned l = some n →
      ¬ p.stream.CannotRecord (.integer n)) :
    x.Tells p.stream c rounds
        (x.perform perform r p.clock (Round.after perform r p.clock s rounds)).1 ∧
      ∀ ps ps' : List (String × String), ps.Perm ps' → (ps.map Prod.fst).Nodup →
        (LabelSpec.ofMapping ps).labels = (LabelSpec.ofMapping ps').labels := by
  have hx : x ∈ rounds ++ [x] := List.mem_append_right _ (List.mem_singleton_self x)
  have hstart : Recounts p c [] s r p callback fun _ => .foreign :=
    { watches := h
      continues := rfl
      sameClock := rfl
      observes := Observes.start s.pool hnew
      start := by cases p.stream.temporality <;> rfl
      remembers := fun l => by
        have hnone : (p.stream.windowIn s.pool).get? l = none := by
          unfold Stream.windowIn
          rw [hnew]
          rfl
        rw [hnone]
        cases p.stream.temporality <;> rfl }
  obtain ⟨p', callback', role', h'⟩ := hstart.after hlong perform rounds
    (fun y hy => hquiet y (List.mem_append_left _ hy))
    (fun y hy => hrecords y (List.mem_append_left _ hy))
  exact ⟨(h'.perform hlong (hquiet x hx) (hrecords x hx) perform).1,
    fun _ _ => LabelSpec.labels_ofMapping_perm⟩

/-- The stream of a new observer of long sums, which begins at the time 5. -/
def Stream.ofSumObserver : Stream :=
  { descriptor := ⟨"load", some "", some "1", .sumObserver, .long⟩
    aggregation := .sum
    temporality := .cumulative
    resource := Resource.empty
    library := ⟨some "server", none⟩
    start := 5
    window := OrderedMap.empty }

/-- A system with that observer, whose clock shows the time 5. -/
def System.ofSumObserver : System Unit :=
  { (System.empty : System Unit) with
    clocks := Table.empty.add (.manual 5)
    instruments := Table.empty.add
      ⟨Stream.ofSumObserver.descriptor, .asynchronous, some ⟨Stream.ofSumObserver, ⟨0⟩⟩, none⟩ }

/-- A round of ten nanoseconds in which a callback does what a script says. -/
def Round.ofScript (script : List (Action σ)) : Round σ :=
  { callback := some { cycles := [script], generates := false, calls := 0 }
    elapsed := 10
    time := none }

/-- Two values for one label set, whose keys are given in two orders; then a callback that fails
after a value, and a round without a callback. -/
def Round.ofFailures : List (Round Unit) :=
  [.ofScript [.observe (.number (.integer 1)) (.ofMapping [("a", "x"), ("b", "y")]),
      .observe (.number (.integer 2)) (.ofMapping [("b", "y"), ("a", "x")])],
    .ofScript [.observe (.number (.integer 7)) (.ofMapping [("a", "x"), ("b", "y")]),
      .raise (.raised .failedOperation "no load")],
    { callback := none, elapsed := 10, time := none }]

/-- Of three rounds the first one completed, so a label set that is observed again has the last
value of that round and the new one as its history. -/
theorem observer_tells_histories_of_failed_rounds :
    let x := Round.ofScript [.report (.number (.integer 5)) (.ofMapping [("a", "x"), ("b", "y")])]
    x.Tells Stream.ofSumObserver (.manual 5) Round.ofFailures
        (x.perform (fun _ => pure ()) ⟨0⟩ ⟨0⟩
          (Round.after (fun _ => pure ()) ⟨0⟩ ⟨0⟩ System.ofSumObserver Round.ofFailures)).1 ∧
      x.Completes ∧
      Stream.ofSumObserver.temporality.history Round.ofFailures x
        (LabelSet.ofPairs [("a", "x"), ("b", "y")]) = [2, 5] := by
  intro x
  have h : Watches System.ofSumObserver ⟨0⟩ ⟨Stream.ofSumObserver, ⟨0⟩⟩ none (.manual 5) :=
    ⟨rfl, rfl⟩
  have hvalues : ∀ y ∈ Round.ofFailures ++ [x], ∀ c ∈ y.callback, ∀ o ∈ c.observations,
      o.1 ∈ [1, 2, 7, 5].map fun n => Scalar.number (.integer n) := by decide +kernel
  have hrecords : ∀ y ∈ Round.ofFailures ++ [x], ∀ l n, y.learned l = some n →
      ¬ Stream.ofSumObserver.CannotRecord (.integer n) := by
    intro y hy l n hn
    obtain ⟨c, hc, o, ho, hon⟩ := Round.exists_observation hn
    have hmem := hvalues y hy c hc o ho
    rw [hon] at hmem
    have hpos : 0 ≤ n := by
      simp only [List.map_cons, List.map_nil, List.mem_cons, Scalar.number.injEq,
        Number.integer.injEq, List.not_mem_nil, or_false] at hmem
      omega
    rintro (⟨hdouble, -⟩ | ⟨-, hneg⟩)
    · cases hdouble
    · rw [Number.isNegative, Number.lt_integer, decide_eq_true_eq] at hneg
      omega
  refine ⟨(observer_tells_histories h rfl rfl (fun _ => pure ()) Round.ofFailures x
    (by decide +kernel) hrecords).1, by decide +kernel, by decide +kernel⟩

end Metering
