import Metering.Proofs.Processors.Windows

/-!
# Histories of long values

An aggregator of long values is what is left of the values that have been recorded into it, and what
a report says about a label set is the summary of these.  `Stream.Remembers` says so of what a
window has for a label set, which may be nothing, and `Stream.pointsFor_metricsOf` says what is
reported of it.
-/

namespace Metering

/-! ### Points for a label set -/

/-- The points for a label set. -/
def pointsFor (labels : LabelSet) (metrics : List Metric) : List Point :=
  (metrics.flatMap Metric.points).filter fun x => x.labels = labels

theorem pointValues_eq_nil_iff {labels : LabelSet} {metrics : List Metric} :
    pointValues labels metrics = [] ↔ pointsFor labels metrics = [] := List.map_eq_nil_iff

namespace Stream

/-- A report has one point at most for a label set, which is that of its aggregator. -/
theorem pointsFor_metricsOf (s : Stream) (window : OrderedMap LabelSet Aggregator) (time : Int)
    (l : LabelSet) :
    pointsFor l (s.metricsOf window time)
      = (((window.get? l).bind Aggregator.value?).map (Point.mk s.start time l)).toList := by
  have hkey : ∀ (e : LabelSet × Aggregator) (x : Point),
      e.2.point? s.start time e.1 = some x → x.labels = e.1 := by
    intro e x hx
    obtain ⟨value, -, rfl⟩ := Option.map_eq_some_iff.mp hx
    rfl
  have hpoints : (s.metricsOf window time).flatMap Metric.points
      = window.entries.filterMap fun e => e.2.point? s.start time e.1 := by
    unfold metricsOf
    cases window.entries.filterMap fun e => e.2.point? s.start time e.1 with
    | nil => rfl
    | cons => simp
  rw [pointsFor, hpoints, window.filterMap_entries _ _ hkey]
  cases window.get? l <;> rfl

theorem pointValues_metricsOf (s : Stream) (window : OrderedMap LabelSet Aggregator) (time : Int)
    (l : LabelSet) :
    pointValues l (s.metricsOf window time) = ((window.get? l).bind Aggregator.value?).toList := by
  show (pointsFor l _).map Point.value = _
  rw [pointsFor_metricsOf]
  cases (window.get? l).bind Aggregator.value? <;> rfl

/-! ### What is left of a history -/

/-- What a window has for a label set is left of some long values. -/
def Remembers (s : Stream) (known : Option Aggregator) (vs : List Int) : Prop :=
  match known with
  | none => vs = []
  | some a => Aggregator.Holds IsSum s.shape a vs

variable {s : Stream} {known : Option Aggregator} {a : Aggregator} {vs ws : List Int}

/-- What is said about a label set is the summary of its history. -/
theorem Remembers.value?_eq (h : s.Remembers known vs) :
    known.bind Aggregator.value? = s.shape.summary vs := by
  cases known with
  | none =>
    obtain rfl : vs = [] := h
    rfl
  | some a => exact Aggregator.value?_of_holds_long h

/-- Taking up an aggregator appends its history. -/
theorem Remembers.absorb (h : s.Remembers known vs) (ha : s.Makes a)
    (hws : Aggregator.Holds IsSum s.shape a ws) :
    s.Remembers (some ((known.getD s.freshAggregator).absorb a)) (vs ++ ws) := by
  cases known with
  | none =>
    obtain rfl : vs = [] := h
    rw [Option.getD_none, ha.fresh_absorb]
    exact hws
  | some b => exact Aggregator.Holds.absorb addsUp_isSum h hws (Shape.alike_refl s.shape)

/-- Adopting an aggregator of the stream is the same as taking it up. -/
theorem Makes.joined_eq {x : Arrival} (h : s.Makes x.aggregator) :
    s.joined known x = (known.getD s.freshAggregator).absorb x.aggregator := by
  unfold joined
  cases known with
  | some a => rfl
  | none =>
    dsimp only
    split
    · exact h.fresh_absorb.symm
    · rfl

/-- Every aggregator of a stream of long values has a history. -/
theorem exists_history (s : Stream) (hlong : s.descriptor.valueType = .long) :
    ∃ history : Aggregator → List Int, ∀ a, s.Makes a →
      Aggregator.Holds IsSum s.shape a (history a) := by
  classical
  have hmakes : ∀ a, ∃ vs : List Int, s.Makes a → Aggregator.Holds IsSum s.shape a vs := by
    intro a
    by_cases h : s.Makes a
    · have hvs := h
      unfold Makes at hvs
      rw [hlong] at hvs
      obtain ⟨vs, -, hvs⟩ := hvs
      exact ⟨vs, fun _ => hvs⟩
    · exact ⟨[], fun h' => absurd h' h⟩
  exact ⟨fun a => (hmakes a).choose, fun a => (hmakes a).choose_spec⟩

end Stream

end Metering
