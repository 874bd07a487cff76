import Metering.Proofs.Aggregator.Cells
import Metering.Proofs.Aggregator.History

/-!
# Aggregators of a value type

An aggregator is a tally of long values or one of doubles, and everything it does it does in the
same way for both.  `Recordable` is the common part: how scalars are read as values of the type, and
how a tally of the type is an aggregator.  `Aggregator.Holds` carries the history of the tally over
to the aggregator.

`Shape.Admits` is what a shape lets its aggregators record: a monotonic sum takes no negative
values.
-/

namespace Metering

/-- A type of recorded values, and its tallies as aggregators. -/
class Recordable (α : Type) extends Quantity α where
  valueType : ValueType
  /-- The aggregator with a tally. -/
  ofTally : Tally α → Aggregator
  /-- The value that is recorded for a scalar. -/
  read : Scalar → Except RecordError α
  fresh_eq : ∀ s, Aggregator.fresh s valueType = ofTally (Tally.fresh s)
  shape_eq : ∀ t, (ofTally t).shape = t.shape
  valueType_eq : ∀ t, (ofTally t).valueType = .valueType valueType
  value?_eq : ∀ t, (ofTally t).value? = t.value?
  emptied_eq : ∀ t, (ofTally t).emptied = ofTally t.emptied
  absorb_eq : ∀ t source, (ofTally t).absorb (ofTally source) = ofTally (t.absorb source)
  record_eq : ∀ t s, (ofTally t).record s
    = (read s).bind fun v => (Aggregator.pushChecked t v).map ofTally

instance : Recordable Int where
  valueType := .long
  ofTally := .long
  read := Aggregator.longValue
  fresh_eq _ := rfl
  shape_eq _ := rfl
  valueType_eq _ := rfl
  value?_eq _ := rfl
  emptied_eq _ := rfl
  absorb_eq _ _ := rfl
  record_eq t s := by
    show (do return Aggregator.long (← Aggregator.pushChecked t (← Aggregator.longValue s))) = _
    cases Aggregator.longValue s <;> rfl

instance : Recordable Binary64 where
  valueType := .double
  ofTally := .double
  read := Aggregator.doubleValue
  fresh_eq _ := rfl
  shape_eq _ := rfl
  valueType_eq _ := rfl
  value?_eq _ := rfl
  emptied_eq _ := rfl
  absorb_eq _ _ := rfl
  record_eq t s := by
    show (do return Aggregator.double (← Aggregator.pushChecked t (← Aggregator.doubleValue s))) = _
    cases Aggregator.doubleValue s <;> rfl

/-- The values are such as aggregators of the shape record: a monotonic sum has none that is
negative. -/
def Shape.Admits {α : Type} [Quantity α] (s : Shape) (vs : List α) : Prop :=
  s = .sum true → ∀ v ∈ vs, (Quantity.toNumber v).isNegative = false

namespace Shape.Admits

variable {α : Type} [Quantity α] {s : Shape} {vs ws : List α}

theorem nil : s.Admits ([] : List α) := fun _ => nofun

theorem append (h : s.Admits vs) (h' : s.Admits ws) : s.Admits (vs ++ ws) :=
  fun hs v hv => (List.mem_append.mp hv).elim (h hs v) (h' hs v)

theorem of_subset (h : s.Admits vs) (hsub : ws ⊆ vs) : s.Admits ws :=
  fun hs v hv => h hs v (hsub hv)

end Shape.Admits

namespace Aggregator

variable {α : Type} [Recordable α] {isTotal : α → List α → Prop} {a b : Aggregator}
  {s s' : Shape} {vs ws : List α}

/-- The aggregator has the shape and is what is left of the values recorded one after the other. -/
def Holds (isTotal : α → List α → Prop) (s : Shape) (a : Aggregator) (vs : List α) : Prop :=
  ∃ t : Tally α, a = Recordable.ofTally t ∧ t.shape = s ∧ t.Holds isTotal vs

namespace Holds

theorem fresh (hadd : AddsUp isTotal) (s : Shape) :
    Holds isTotal s (Aggregator.fresh s (Recordable.valueType α)) [] :=
  ⟨Tally.fresh s, Recordable.fresh_eq s, Tally.shape_fresh s, Tally.holds_fresh hadd s⟩

theorem shape (h : Holds isTotal s a vs) : a.shape = s := by
  obtain ⟨t, rfl, rfl, -⟩ := h
  exact Recordable.shape_eq t

theorem valueType (h : Holds isTotal s a vs) :
    a.valueType = .valueType (Recordable.valueType α) := by
  obtain ⟨t, rfl, -⟩ := h
  exact Recordable.valueType_eq t

theorem emptied (hadd : AddsUp isTotal) (h : Holds isTotal s a vs) :
    Holds isTotal s a.emptied [] := by
  obtain ⟨t, rfl, rfl, -⟩ := h
  exact ⟨t.emptied, Recordable.emptied_eq t, Tally.shape_fresh _, Tally.holds_fresh hadd _⟩

theorem absorb (hadd : AddsUp isTotal) (h : Holds isTotal s a vs) (h' : Holds isTotal s' b ws)
    (hs : s.Alike s') : Holds isTotal s (a.absorb b) (vs ++ ws) := by
  obtain ⟨t, rfl, rfl, ht⟩ := h
  obtain ⟨source, rfl, rfl, hsource⟩ := h'
  exact ⟨t.absorb source, Recordable.absorb_eq t source, Tally.shape_absorb t source,
    ht.absorb hadd hsource hs⟩

/-- A scalar that is recorded was read as a value, which now is the last one of the history. -/
theorem record (hadd : AddsUp isTotal) (h : Holds isTotal s a vs) {x : Scalar}
    (hr : a.record x = .ok b) :
    ∃ v, Recordable.read x = .ok v ∧ Holds isTotal s b (vs ++ [v]) := by
  obtain ⟨t, rfl, rfl, ht⟩ := h
  rw [Recordable.record_eq] at hr
  cases hx : (Recordable.read x : Except RecordError α) with
  | error e =>
    rw [hx] at hr
    cases hr
  | ok v =>
    rw [hx] at hr
    refine ⟨v, rfl, ?_⟩
    have hpush : (Aggregator.pushChecked t v).map Recordable.ofTally = .ok b := hr
    unfold pushChecked at hpush
    by_cases href : t.refuses v = true
    · rw [if_pos href] at hpush
      cases hpush
    · rw [if_neg href] at hpush
      obtain rfl := Except.ok.inj hpush
      exact ⟨t.push v, rfl, Tally.shape_push t v, ht.push hadd v⟩

/-- What is recorded is admitted. -/
theorem admits_of_record (h : Holds isTotal s a vs) {x : Scalar} (hr : a.record x = .ok b) {v : α}
    (hv : Recordable.read x = .ok v) : s.Admits [v] := by
  obtain ⟨t, rfl, rfl, -⟩ := h
  have hpush : (pushChecked t v).map Recordable.ofTally = .ok b := by
    rw [Recordable.record_eq, hv] at hr
    exact hr
  intro hs w hw
  obtain rfl := List.mem_singleton.mp hw
  cases t with
  | sum monotonic total =>
    obtain rfl : monotonic = true := Shape.sum.inj hs
    cases hn : (Quantity.toNumber w).isNegative with
    | false => rfl
    | true =>
      have hrefuses : (Tally.sum true total).refuses w = true := hn
      unfold pushChecked at hpush
      rw [if_pos hrefuses] at hpush
      cases hpush
  | _ => cases hs

/-- A scalar that can be read is recorded, except that a monotonic sum refuses negative values. -/
theorem record_of_read (h : Holds isTotal s a vs) {x : Scalar} {v : α}
    (hv : Recordable.read x = .ok v)
    (hs : s = .sum true → (Quantity.toNumber v).isNegative = false) :
    ∃ b, a.record x = .ok b := by
  obtain ⟨t, rfl, rfl, -⟩ := h
  have href : t.refuses v = false := by
    unfold Tally.refuses
    split
    · exact hs rfl
    · rfl
  refine ⟨Recordable.ofTally (t.push v), ?_⟩
  have hpush : Aggregator.pushChecked t v = .ok (t.push v) := by
    unfold Aggregator.pushChecked
    simp [href]
  rw [Recordable.record_eq, hv]
  show (Aggregator.pushChecked t v).map Recordable.ofTally = _
  rw [hpush]
  rfl

/-- A move within one kind and one value type, and between histograms with the same boundaries, is
not refused. -/
theorem mergeError? (h : Holds isTotal s a vs) (h' : Holds isTotal s' b ws) (hs : s'.Alike s) :
    a.mergeError? b = none := by
  have hk : a.kind = b.kind := by
    unfold Aggregator.kind
    rw [h.shape, h'.shape]
    cases s' <;> cases s <;> simp_all [Shape.Alike, Shape.kind]
  unfold Aggregator.mergeError?
  rw [hk, h.valueType, h'.valueType, h.shape, h'.shape]
  cases s' <;> cases s <;> simp_all [Shape.Alike, Shape.kind]

end Holds

theorem value?_of_holds_nil (h : Holds isTotal s a ([] : List α)) : a.value? = none := by
  obtain ⟨t, rfl, -, ht⟩ := h
  rw [Recordable.value?_eq, ht.value?_nil]

theorem value?_of_holds_long {vs : List Int} (h : Holds IsSum s a vs) :
    a.value? = s.summary vs := by
  obtain ⟨t, rfl, rfl, ht⟩ := h
  rw [Recordable.value?_eq, ht.value?_long]

theorem value?_of_holds_double {vs : List Binary64} (h : Holds AnyTotal s a vs) :
    s.Outlines vs a.value? := by
  obtain ⟨t, rfl, rfl, ht⟩ := h
  rw [Recordable.value?_eq]
  exact ht.value?_double

end Aggregator

end Metering
