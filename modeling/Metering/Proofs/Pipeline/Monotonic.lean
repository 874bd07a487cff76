import Metering.Proofs.Instruments.ObserverReports
import Metering.Proofs.Pipeline.Aside
import Metering.Proofs.Pipeline.Providers

/-!
# Rounds of monotonic streams

An instrument whose stream is labelled monotonic is collected in rounds.  What a round reports is
the window that it leaves (`InOrder.reports`), so what is reported is upheld if the window climbs
from one round to the next (`InOrder.upheld`).  If the stream accrues, it does so whatever else
happens (`InOrder.carries`).  The last value of a sum observer is what the last round has learned
that observed the label set (`InOrder.round_of_lastValue`), and a collection of its provider is such
a round too, if it reaches the observer (`InOrder.collectProvider_of_lastValue`).
-/

namespace Metering

open Fallible SystemM

variable {σ : Type}

/-- What some metrics report of label sets, others report too, from the same start, and no value
has fallen. -/
def Upheld (ms ms' : List Metric) : Prop :=
  ∀ l, ∀ u ∈ pointsFor l ms, ∃ (stop m n : Int), u.value = .number (.integer m) ∧ m ≤ n ∧
    pointsFor l ms' = [⟨u.start, stop, l, .number (.integer n)⟩]

/-- The window of an instrument. -/
def System.windowAt (s : System σ) (r : Ref .instrument) : OrderedMap LabelSet Aggregator :=
  match s.portrait? r with
  | some P => P.contents.window
  | none => OrderedMap.empty

/-- What the window of an instrument tells of a label set. -/
def System.told (s : System σ) (r : Ref .instrument) (l : LabelSet) : Option PointValue :=
  ((s.windowAt r).get? l).bind Aggregator.value?

/-- What an instrument tells of a label set in another system it has told before, or the label set
has learned it. -/
def System.HasLearned (s s' : System σ) (r : Ref .instrument) (learned : LabelSet → Option Int) :
    Prop :=
  ∀ l, s'.told r l = s.told r l ∨
    ∃ n, learned l = some n ∧ s'.told r l = some (.number (.integer n))

/-- The callbacks of the instruments of a provider only observe. -/
def System.IsQuietFor (s : System σ) (q : Ref .provider) : Prop :=
  ∀ x, s.providers.get? q = some x → ∀ r ∈ s.instrumentsOf x, ∀ i,
    s.instruments.get? r = some i → ∀ c ∈ i.callback, c.IsQuiet

theorem System.hasLearned_of_told {s s' : System σ} {r : Ref .instrument}
    {learned : LabelSet → Option Int} (h : ∀ l, s'.told r l
      = ((learned l).map fun n => .number (.integer n)).or (s.told r l)) :
    s.HasLearned s' r learned := by
  intro l
  rw [h l]
  cases learned l with
  | none => exact .inl rfl
  | some n => exact .inr ⟨n, rfl, rfl⟩

theorem System.hasLearned_of_window {s s' : System σ} {r : Ref .instrument}
    (h : s'.windowAt r = s.windowAt r) (learned : LabelSet → Option Int) :
    s.HasLearned s' r learned := by
  intro l
  unfold told
  rw [h]
  exact .inl rfl

theorem System.windowAt_of_portrait {s : System σ} {r : Ref .instrument} {P : Portrait σ}
    (h : s.portrait? r = some P) : s.windowAt r = P.contents.window := by
  unfold windowAt
  rw [h]

namespace InOrder

variable {since s : System σ} {r : Ref .instrument} {i : Instrument σ} {p : Processor}
  {perform : σ → SystemM σ Unit}

/-- **Whatever happens**, an instrument whose window never ends keeps its stream, the start and the
clock, and its window climbs if it accrues. -/
theorem carries (h : InOrder since s) (hi : since.instruments.get? r = some i)
    (hp : i.processor = some p) (ht : p.stream.temporality = .cumulative) :
    ∃ i' p', s.instruments.get? r = some i' ∧ i'.processor = some p' ∧
      p.stream.Continues p'.stream ∧ p'.stream.start = p.stream.start ∧ p'.clock = p.clock ∧
      (p.stream.Accrues → (since.windowAt r).Climbs (s.windowAt r)) := by
  obtain ⟨i', hi', hdesign⟩ := h.retains r i hi
  obtain ⟨p', hp', hcontinues, hclock⟩ := Instrument.processor_of_design hdesign hp
  have hP := System.portrait?_of_get? hi
  have hP' := System.portrait?_of_get? hi'
  obtain ⟨P, hPs, hclimbs⟩ := h.evolves.lasts r _ hP
  obtain rfl := Option.some.inj (hP'.symm.trans hPs)
  obtain ⟨q, hq, -, hstart, hw⟩ := hclimbs _ (Instrument.bare_processor hp) ht
  rw [Instrument.bare_processor hp'] at hq
  obtain rfl := Option.some.inj hq
  refine ⟨i', p', hi', hp', hcontinues, hstart, hclock, fun haccrues => ?_⟩
  rw [System.windowAt_of_portrait hP, System.windowAt_of_portrait hP']
  exact hw haccrues

/-- What a window that never ends reports is what is left of it. -/
theorem reports (h : InOrder since s) (hi : since.instruments.get? r = some i)
    (hp : i.processor = some p) (ht : p.stream.temporality = .cumulative)
    {outcome : Except Failure (List Metric) × System σ} (hc : Collection s r outcome)
    {metrics : List Metric} (hm : outcome.1 = .ok metrics) (hne : metrics ≠ []) :
    ∃ stop, metrics = p.stream.metricsOf (outcome.2.windowAt r) stop := by
  cases hc with
  | missing => cases hm
  | discarded =>
    obtain rfl := Except.ok.inj hm
    exact absurd rfl hne
  | @recorded i' p' stop s' hi' hp' kind kept left =>
    obtain rfl := Except.ok.inj hm
    obtain ⟨j, q, hj, hq, hcontinues, hstart, -⟩ := h.carries hi hp ht
    obtain rfl := Option.some.inj (hi'.symm.trans hj)
    obtain rfl := Option.some.inj (hp'.symm.trans hq)
    refine ⟨stop, ?_⟩
    rw [System.windowAt_of_portrait left, hcontinues.metricsOf hstart]
    unfold Stream.endIn
    rw [Stream.afterEnd_cumulative (hcontinues.temporality.trans ht)]
  | @observed s₁ s' i' p' values stop called hi' hp' kept left quiet =>
    have h₁ : InOrder since s₁ := h.after called
    obtain ⟨j, q, hj, hq, hcontinues, hstart, -⟩ := h₁.carries hi hp ht
    obtain rfl := Option.some.inj (hi'.symm.trans hj)
    obtain rfl := Option.some.inj (hp'.symm.trans hq)
    refine ⟨stop, ?_⟩
    rw [System.windowAt_of_portrait left]
    dsimp only at hm ⊢
    cases values with
    | none =>
      obtain rfl := Except.ok.inj hm
      exact absurd rfl hne
    | some values =>
      -- a refused observation fails the collection, which then reports nothing
      cases hrefusal : p'.stream.refusalIn? values with
      | some e =>
        unfold Stream.report at hm
        dsimp only at hm
        rw [hrefusal] at hm
        cases hm
      | none =>
        rw [Stream.report_of_accepted hrefusal] at hm
        obtain rfl := Except.ok.inj hm
        rw [Stream.afterCycle_of_accepted hrefusal,
          Stream.afterEnd_cumulative (hcontinues.temporality.trans ht), hcontinues.metricsOf hstart]
        rfl

/-- **What is reported is upheld** by a later report if the window has climbed meanwhile. -/
theorem upheld (h : InOrder since s) {s' : System σ} (hi : since.instruments.get? r = some i)
    (hp : i.processor = some p) (hm : p.stream.IsMonotonic)
    (hw : (s.windowAt r).Climbs (s'.windowAt r)) (stop stop' : Int) :
    Upheld (p.stream.metricsOf (s.windowAt r) stop) (p.stream.metricsOf (s'.windowAt r) stop') := by
  intro l u hu
  rw [Stream.pointsFor_metricsOf] at hu
  obtain ⟨value, hvalue, rfl⟩ := Option.map_eq_some_iff.mp (Option.mem_toList.mp hu)
  obtain ⟨a, ha, hvalue'⟩ := Option.bind_eq_some_iff.mp hvalue
  -- it is an aggregator of the stream, and so tells an integer
  obtain ⟨j, q, hj, hq, hcontinues, -⟩ := h.carries hi hp hm.temporality
  obtain ⟨bound, role, horderly⟩ := h.orderly
  rw [System.windowAt_of_portrait (System.portrait?_of_get? hj)] at ha
  have hmakes := hcontinues.makes.mp ((horderly.fills hj hq).window ha)
  obtain ⟨m, rfl⟩ := hmakes.value?_of_isMonotonic hm hvalue'
  obtain ⟨n, hle, hn⟩ := hw l m hvalue
  refine ⟨stop', m, n, rfl, hle, ?_⟩
  rw [Stream.pointsFor_metricsOf, hn]
  rfl

/-- **A round** collects the instrument when time has passed and it has the callback of the round.
-/
theorem round (h : InOrder since s)
    (hperform : ∀ since step, Keeps (InOrder since) (perform step))
    (hi : s.instruments.get? r = some i) (hp : i.processor = some p) (x : Round σ) :
    ∃ s₁, InOrder s s₁ ∧ s₁.instruments.get? r = some { i with callback := x.callback } ∧
      s₁.windowAt r = s.windowAt r ∧ Collection s₁ r (x.perform perform r p.clock s) := by
  obtain ⟨bound, role, horderly⟩ := h.orderly
  obtain ⟨c, hc⟩ := horderly.clock_of_processor hi hp
  have h₁ := (h.here.setClock hc (c.advance x.elapsed)).setCallback hi x.callback
  have hi₁ : (s.instruments.set r { i with callback := x.callback }).get? r
      = some { i with callback := x.callback } := Table.get?_set_self _ hi
  refine ⟨_, h₁, hi₁, ?_, ?_⟩
  · rw [System.windowAt_of_portrait (System.portrait?_of_get? hi),
      System.windowAt_of_portrait (System.portrait?_of_get? hi₁)]
    rfl
  · have happly : x.perform perform r p.clock s
        = SystemM.collectInstrument perform r x.time { s with
          clocks := s.clocks.set p.clock (c.advance x.elapsed)
          instruments := s.instruments.set r { i with callback := x.callback } } := by
      unfold Round.perform SystemM.clock SystemM.instrument setInstrument
      simp only [bind_apply, get_apply, demand_apply, modify_apply, hc, hi]
    rw [happly]
    exact collection h₁ hperform r x.time

/-- **A round reports** what it leaves in a window that never ends. -/
theorem round_reports (h : InOrder since s)
    (hperform : ∀ since step, Keeps (InOrder since) (perform step))
    (hi : since.instruments.get? r = some i) (hp : i.processor = some p)
    (ht : p.stream.temporality = .cumulative) {x : Round σ} {metrics : List Metric}
    (hm : (x.perform perform r p.clock s).1 = .ok metrics) (hne : metrics ≠ []) :
    ∃ stop, metrics
      = p.stream.metricsOf ((x.perform perform r p.clock s).2.windowAt r) stop := by
  obtain ⟨j, q, hj, hq, -, -, hclock, -⟩ := h.carries hi hp ht
  obtain ⟨s₁, h₁, -, -, hc⟩ := h.round hperform hj hq x
  rw [hclock] at hc
  exact reports (h.after h₁) hi hp ht hc hm hne

/-- A round keeps a system in order, whatever becomes of it. -/
theorem performRound
    (hperform : ∀ since step, Keeps (InOrder since) (perform step)) (r : Ref .instrument)
    (q : Ref .clock) (x : Round σ) : Keeps (InOrder since) (x.perform perform r q) := by
  intro s h
  unfold Round.perform SystemM.clock SystemM.instrument setInstrument
  simp only [bind_apply, get_apply, demand_apply, modify_apply]
  cases hc : s.clocks.get? q with
  | none => exact h
  | some c =>
    dsimp only
    have h₁ := h.setClock hc (c.advance x.elapsed)
    cases hi : s.instruments.get? r with
    | none => exact h₁
    | some i => exact collectInstrument hperform r x.time _ (h₁.setCallback hi x.callback)

end InOrder

/-! ### Last values -/

namespace Round

variable {s : Stream} {x : Round σ} {w : OrderedMap LabelSet Aggregator}

/-- What is told of a label set after a round is what the round has learned of it, or else what was
told of it before. -/
theorem tells_of_lastValue (hlast : s.aggregation = .lastValue)
    (hlong : s.descriptor.valueType = .long) (hw : ∀ {l a}, w.get? l = some a → s.Makes a) :
    s.refusalIn? ((Callback.learned x.callback .long).getD []) = none ∧
    ∀ l, ((s.takeUpAll w ((Callback.learned x.callback .long).getD [])).get? l).bind
        Aggregator.value?
      = ((x.learned l).map fun n => .number (.integer n)).or
        ((w.get? l).bind Aggregator.value?) := by
  have hshape : s.shape = .lastValue := by
    unfold Stream.shape Aggregation.shape
    rw [hlast]
  have hrecords : ∀ l n, x.learned l = some n → ¬ s.CannotRecord (.integer n) := by
    rintro l n - (⟨hdouble, -⟩ | ⟨hsum, -⟩)
    · rw [hlong] at hdouble
      cases hdouble
    · rw [hshape] at hsum
      cases hsum
  -- each aggregator remembers some values, of which the last one is told
  have hhistory : ∀ l, ∃ vs, s.Remembers (w.get? l) vs := by
    intro l
    cases hl : w.get? l with
    | none => exact ⟨[], rfl⟩
    | some a =>
      obtain ⟨vs, -, hvs⟩ := (hw hl).exists_longs hlong
      exact ⟨vs, hvs⟩
  choose history hremembers using hhistory
  obtain ⟨hnone, htaken⟩ := takeUpAll_remembers (x := x) hlong hrecords hremembers
  refine ⟨hnone, fun l => ?_⟩
  rw [(htaken l).value?_eq, (hremembers l).value?_eq, hshape]
  cases x.learned l with
  | none =>
    rw [Option.toList_none, List.append_nil]
    rfl
  | some n =>
    unfold Shape.summary
    simp

end Round

namespace InOrder

variable {since s : System σ} {r : Ref .instrument} {i j : Instrument σ} {p : Processor}
  {perform : σ → SystemM σ Unit}

section

variable (h : InOrder since s) (hi : since.instruments.get? r = some i) (hp : i.processor = some p)
  (hm : p.stream.IsMonotonic) (hlast : p.stream.aggregation = .lastValue)
include h hi hp hm hlast

/-- **A collection** of a sum observer that reports its last values, with the callback of a round.
-/
theorem collection_of_lastValue {outcome : Except Failure (List Metric) × System σ}
    (hc : Collection s r outcome) (hj : s.instruments.get? r = some j) {x : Round σ}
    (hcallback : j.callback = x.callback) (hx : x.IsQuiet) (l : LabelSet) :
    outcome.2.told r l = ((x.learned l).map fun n => .number (.integer n)).or (s.told r l) := by
  obtain ⟨hkind, hlong⟩ := hm.of_lastValue hlast
  obtain ⟨j', q, hj', hq, hcontinues, -⟩ := h.carries hi hp hm.temporality
  obtain rfl := Option.some.inj (hj'.symm.trans hj)
  obtain ⟨bound, role, horderly⟩ := h.orderly
  have hdescriptor := (horderly.descriptor_eq hj hq).symm.trans hcontinues.descriptor
  -- a sum observer is there, does not discard and does not record
  cases hc with
  | missing hi₁ =>
    rw [hi₁] at hj
    cases hj
  | discarded hi₁ processor =>
    obtain rfl := Option.some.inj (hi₁.symm.trans hj)
    rw [hq] at processor
    cases processor
  | recorded hi₁ processor kind =>
    obtain rfl := Option.some.inj (hi₁.symm.trans hj)
    rw [hdescriptor, hkind] at kind
    cases kind
  | @observed s₂ s' i' p' values stop called hi' hp' kept left quiet =>
    obtain ⟨hvalues, hcontents⟩ := quiet _ hj (hcallback ▸ hx)
    rw [hdescriptor, hlong, hcallback] at hvalues
    obtain ⟨k, q', hk, hq', hcontinues', -⟩ := carries (h.after called) hi hp hm.temporality
    obtain rfl := Option.some.inj (hi'.symm.trans hk)
    obtain rfl := Option.some.inj (hp'.symm.trans hq')
    obtain ⟨bound', role', horderly'⟩ := called.orderly
    -- the callback has left the window as it was
    have hwindow : (i'.contents s₂.pool).window = s.windowAt r := by
      rw [hcontents, System.windowAt_of_portrait (System.portrait?_of_get? hj)]
    have hmakes : ∀ {l a}, (s.windowAt r).get? l = some a → p'.stream.Makes a := by
      rw [← hwindow]
      exact (horderly'.fills hi' hp').window
    obtain ⟨hnone, htells⟩ := Round.tells_of_lastValue (x := x)
      (by rw [hcontinues'.aggregation, hlast]) (by rw [hcontinues'.descriptor, hlong]) hmakes
    unfold System.told
    rw [System.windowAt_of_portrait left]
    dsimp only
    rw [hwindow, hvalues, Stream.afterCycle_of_accepted hnone,
      Stream.afterEnd_cumulative (hcontinues'.temporality.trans hm.temporality)]
    exact htells l

variable (hperform : ∀ since step, Keeps (InOrder since) (perform step))
include hperform

/-- **A round** of a sum observer that reports its last values. -/
theorem round_of_lastValue {x : Round σ} (hx : x.IsQuiet) (l : LabelSet) :
    (x.perform perform r p.clock s).2.told r l
      = ((x.learned l).map fun n => .number (.integer n)).or (s.told r l) := by
  obtain ⟨j, q, hj, hq, -, -, hclock, -⟩ := h.carries hi hp hm.temporality
  obtain ⟨s₁, h₁, hj₁, hwindow, hc⟩ := h.round hperform hj hq x
  rw [hclock] at hc
  have htold : s₁.told r l = s.told r l := by
    unfold System.told
    rw [hwindow]
  rw [← htold]
  exact collection_of_lastValue (h.after h₁) hi hp hm hlast hc hj₁ rfl hx l

/-- **A collection of a provider** teaches what the round of a sum observer with its own callback
would teach, if it reaches the instrument. -/
theorem collectProvider_of_lastValue {q : Ref .provider} (hj : s.instruments.get? r = some j)
    (hquiet : s.IsQuietFor q) :
    s.HasLearned (SystemM.collectProvider perform q s).2 r (Round.mk j.callback 0 none).learned := by
  cases hx : s.providers.get? q with
  | none =>
    unfold SystemM.collectProvider provider
    simp only [bind_apply, get_apply, demand_apply, hx]
    exact System.hasLearned_of_window rfl _
  | some x =>
  cases hopen : x.isShutDown with
  | true =>
    rw [collectProvider_of_shutDown hx hopen]
    exact System.hasLearned_of_window rfl _
  | false =>
    have hquietAt : ∀ r' ∈ s.instrumentsOf x, s.IsQuietAt r' := fun r' hr' => by
      obtain ⟨i', hi'⟩ := h.registry.instrument_of_mem hr'
      exact ⟨i', hi', fun _ => hquiet x hx r' hr' i' hi'⟩
    obtain ⟨c, result, s', -, happly, hgathered⟩ :=
      h.collectProvider_gathers hx hopen hquietAt perform
    rw [happly]
    have hportrait := hgathered.portraits r
    split at hportrait
    · next hreached =>
      -- what is left is what a collection of the instrument alone would leave
      have hr := System.reached_subset hreached
      obtain ⟨bound, role, horderly⟩ := h.orderly
      obtain ⟨s₁, -, hcollect, -, -, hleft⟩ := horderly.collected (hquietAt r hr) c.now perform
      have hc : Collection s r (SystemM.collectInstrument perform r (some c.now) s) :=
        h.collection hperform r (some c.now)
      rw [hcollect] at hc
      have hwindow : s'.windowAt r = s₁.windowAt r := by
        unfold System.windowAt
        rw [hportrait, hleft]
      have hown : (Round.mk j.callback 0 none).IsQuiet := hquiet x hx r hr j hj
      refine System.hasLearned_of_told fun l => ?_
      unfold System.told
      rw [hwindow]
      exact collection_of_lastValue h hi hp hm hlast hc hj rfl hown l
    · refine System.hasLearned_of_window ?_ _
      unfold System.windowAt
      rw [hportrait]

end

end InOrder

end Metering
