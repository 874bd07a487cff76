import Metering.Proofs.Aggregator.Typed
import Metering.Proofs.Binary64

/-!
# Adopted aggregators and refused measurements

A window adopts an aggregator as it is when it has nothing for its label set yet, and otherwise
takes up what the aggregator holds.  Both come to the same: a fresh aggregator that takes up another
one of its kind is just like it (`Aggregator.Holds.fresh_absorb`).  For doubles that is so because a
running total is never a negative zero, which is what `Totals` asks of a notion of totals.

`Shape.refusal?` says which numbers an aggregator of a shape refuses although they are measurements
of its value type: integers that no double holds, and negative ones if it is a monotonic sum.
-/

namespace Metering

/-! ### Totals that take up zero -/

/-- The number that is recorded for one that is measured in a value type, if one can be. -/
def ValueType.recorded? : ValueType → Number → Option Number
  | .long, n => some n
  | .double, n => n.toBinary64?.map Number.double

/-- The recorded number has the sign of the measured one. -/
theorem ValueType.isNegative_of_recorded? {v : ValueType} {n m : Number}
    (h : v.recorded? n = some m) : m.isNegative = n.isNegative := by
  cases v with
  | long =>
    obtain rfl := Option.some.inj h
    rfl
  | double =>
    obtain ⟨x, hx, rfl⟩ := Option.map_eq_some_iff.mp h
    exact Number.isNegative_of_toBinary64? hx

/-- A type of recorded values with a notion of their totals that zero can be added to. -/
class Totals (α : Type) extends Recordable α where
  IsTotal : α → List α → Prop
  addsUp : AddsUp IsTotal
  eq_zero : ∀ {x}, IsTotal x [] → x = Quantity.zero
  zero_add : ∀ {x vs}, IsTotal x vs → Quantity.add Quantity.zero x = x
  read_error : ∀ {s e}, valueType.check s = .error e → read s = .error (.measurement e)
  read_none : ∀ {s n}, valueType.check s = .ok n → valueType.recorded? n = none →
    read s = .error .tooLarge
  read_some : ∀ {s n m}, valueType.check s = .ok n → valueType.recorded? n = some m →
    ∃ v, read s = .ok v ∧ Quantity.toNumber v = m

instance : Totals Int where
  IsTotal := IsSum
  addsUp := addsUp_isSum
  eq_zero h := h
  zero_add _ := Int.zero_add _
  read_error {s e} h := by
    change (checkLong s).map Number.integer = .error e at h
    show (checkLong s).mapError RecordError.measurement = _
    cases hs : checkLong s <;> rw [hs] at h <;> cases h
    rfl
  read_none _ h := by cases h
  read_some {s n m} h hm := by
    change (checkLong s).map Number.integer = .ok n at h
    obtain rfl := Option.some.inj hm
    cases hs : checkLong s <;> rw [hs] at h <;> cases h
    refine ⟨_, ?_, rfl⟩
    show (checkLong s).mapError RecordError.measurement = _
    rw [hs]
    rfl

/-- A total of doubles: zero for no values, and never a negative zero. -/
def IsPlain (x : Binary64) (vs : List Binary64) : Prop :=
  (vs = [] → x = Binary64.zero) ∧ Binary64.add Binary64.zero x = x

theorem addsUp_isPlain : AddsUp IsPlain where
  zero := ⟨fun _ => rfl, rfl⟩
  concat v h := ⟨fun he => absurd he (by simp), Binary64.zero_add_add h.2 v⟩
  append := by
    intro x y vs ws hx hy
    refine ⟨fun he => ?_, Binary64.zero_add_add hx.2 y⟩
    obtain ⟨hvs, hws⟩ := List.append_eq_nil_iff.mp he
    rw [hx.1 hvs, hy.1 hws]
    rfl

instance : Totals Binary64 where
  IsTotal := IsPlain
  addsUp := addsUp_isPlain
  eq_zero h := h.1 rfl
  zero_add h := h.2
  read_error {s e} h := by
    change checkDouble s = .error e at h
    show Aggregator.doubleValue s = _
    unfold Aggregator.doubleValue
    rw [h]
  read_none {s n} h hn := by
    change checkDouble s = .ok n at h
    show Aggregator.doubleValue s = _
    unfold Aggregator.doubleValue
    rw [h]
    dsimp only
    rw [Option.map_eq_none_iff.mp hn]
  read_some {s n m} h hm := by
    change checkDouble s = .ok n at h
    obtain ⟨x, hx, rfl⟩ := Option.map_eq_some_iff.mp hm
    refine ⟨x, ?_, rfl⟩
    show Aggregator.doubleValue s = _
    unfold Aggregator.doubleValue
    rw [h]
    dsimp only
    rw [hx]

/-! ### Taking up into a fresh one -/

/-- A tally of no values is a fresh one. -/
theorem Tally.eq_fresh {α : Type} [Totals α] {t : Tally α} (h : t.Holds Totals.IsTotal []) :
    t = Tally.fresh t.shape := by
  cases t with
  | discard => rfl
  | sum monotonic total =>
    cases total with
    | none => rfl
    | some x => exact absurd rfl h.1
  | count n =>
    obtain rfl : n = 0 := h
    rfl
  | lastValue v =>
    obtain rfl : v = none := h
    rfl
  | minMaxSumCount n x least greatest =>
    obtain ⟨rfl, hx, rfl, rfl⟩ := h
    obtain rfl := Totals.eq_zero hx
    rfl
  | histogram b x counts =>
    obtain ⟨hx, rfl⟩ := h
    obtain rfl := Totals.eq_zero hx
    rw [List.map_nil, b.bucketCounts_nil]
    rfl

/-- A fresh tally that takes up another one of its shape is just like it. -/
theorem Tally.fresh_absorb {α : Type} [Totals α] {t : Tally α} {vs : List α}
    (h : t.Holds Totals.IsTotal vs) : (Tally.fresh t.shape).absorb t = t := by
  by_cases hd : t.shape = .discard
  · cases t <;> simp_all [Tally.shape, Tally.fresh, Tally.absorb, Tally.isEmpty]
  unfold Tally.absorb
  by_cases he : t.isEmpty = true
  · -- nothing is taken up
    obtain rfl := (h.isEmpty_iff hd).mp he
    rw [if_pos he]
    exact (Tally.eq_fresh h).symm
  rw [if_neg he]
  cases t with
  | discard => exact absurd rfl hd
  | sum monotonic total =>
    cases total with
    | none => exact absurd rfl he
    | some x =>
      show Tally.sum monotonic (some (Quantity.add Quantity.zero x)) = _
      rw [Totals.zero_add h.2]
  | count n =>
    show Tally.count (0 + n) = _
    rw [Nat.zero_add]
  | lastValue v => rfl
  | minMaxSumCount n x least greatest =>
    obtain ⟨rfl, hx, rfl, rfl⟩ := h
    show Tally.minMaxSumCount (0 + _) (Quantity.add Quantity.zero x) (keepLeast (leastOf []) _)
      (keepGreatest (greatestOf []) _) = _
    rw [Nat.zero_add, Totals.zero_add hx, ← leastOf_append, ← greatestOf_append, List.nil_append]
  | histogram b x counts =>
    obtain ⟨hx, rfl⟩ := h
    show Tally.histogram b (Quantity.add Quantity.zero x)
      (List.zipWith (· + ·) (List.replicate (b.size + 1) 0) _) = _
    rw [Totals.zero_add hx, ← b.bucketCounts_nil, ← b.bucketCounts_append, List.nil_append]

/-! ### What is refused -/

/-- Why an aggregator of a shape does not take a number that is measured in a value type. -/
def Shape.refusal? (s : Shape) (v : ValueType) (n : Number) : Option RecordError :=
  match v.recorded? n with
  | none => some .tooLarge
  | some m => if s = .sum true ∧ m.isNegative = true then some (.negative m) else none

/-- Why an aggregator of a shape and a value type does not take a scalar, if so. -/
def Shape.refusalOf? (s : Shape) (v : ValueType) (x : Scalar) : Option RecordError :=
  match v.check x with
  | .error e => some (.measurement e)
  | .ok n => s.refusal? v n

namespace Aggregator.Holds

variable {α : Type} [Totals α] {a b : Aggregator} {s : Shape} {vs ws : List α}

theorem fresh_absorb (h : Holds Totals.IsTotal s a vs) :
    (Aggregator.fresh s (Recordable.valueType α)).absorb a = a := by
  obtain ⟨t, rfl, rfl, ht⟩ := h
  rw [Recordable.fresh_eq, Recordable.absorb_eq, Tally.fresh_absorb ht]

theorem emptied_eq (h : Holds Totals.IsTotal s a vs) :
    a.emptied = Aggregator.fresh s (Recordable.valueType α) := by
  obtain ⟨t, rfl, rfl, -⟩ := h
  rw [Recordable.emptied_eq, Recordable.fresh_eq]
  rfl

/-- What is no measurement of the value type is refused as such. -/
theorem record_of_check_error (h : Holds Totals.IsTotal s a vs) {x : Scalar} {e : MeasurementError}
    (hx : (Recordable.valueType α).check x = .error e) :
    a.record x = .error (.measurement e) := by
  obtain ⟨t, rfl, -, -⟩ := h
  rw [Recordable.record_eq, Totals.read_error hx]
  rfl

/-- A measurement that is refused is refused for the reason that `Shape.refusal?` gives. -/
theorem record_of_refusal (h : Holds Totals.IsTotal s a vs) {x : Scalar} {n : Number}
    (hx : (Recordable.valueType α).check x = .ok n) {e : RecordError}
    (he : s.refusal? (Recordable.valueType α) n = some e) : a.record x = .error e := by
  obtain ⟨t, rfl, rfl, -⟩ := h
  rw [Recordable.record_eq]
  unfold Shape.refusal? at he
  cases hm : (Recordable.valueType α).recorded? n with
  | none =>
    rw [hm] at he
    obtain rfl := Option.some.inj he
    rw [Totals.read_none hx hm]
    rfl
  | some m =>
    obtain ⟨v, hv, rfl⟩ := Totals.read_some hx hm
    simp only [hm] at he
    split at he
    · next hneg =>
      obtain rfl := Option.some.inj he
      have hrefuses : t.refuses v = true := by
        unfold Tally.refuses
        cases t <;> simp_all [Tally.shape]
      rw [hv]
      show (pushChecked t v).map Recordable.ofTally = _
      unfold pushChecked
      rw [if_pos hrefuses]
      rfl
    · cases he

/-- Any other measurement is recorded, as a value that the shape admits. -/
theorem record_of_accepted (h : Holds Totals.IsTotal s a vs) {x : Scalar} {n : Number}
    (hx : (Recordable.valueType α).check x = .ok n)
    (he : s.refusal? (Recordable.valueType α) n = none) :
    ∃ b v, a.record x = .ok b ∧ s.Admits [v] ∧ Holds Totals.IsTotal s b (vs ++ [v]) := by
  unfold Shape.refusal? at he
  cases hm : (Recordable.valueType α).recorded? n with
  | none =>
    rw [hm] at he
    cases he
  | some m =>
    obtain ⟨v, hv, rfl⟩ := Totals.read_some hx hm
    simp only [hm] at he
    split at he
    · cases he
    · next hneg =>
      obtain ⟨b, hb⟩ := h.record_of_read hv fun hs => by
        cases hn : (Quantity.toNumber v).isNegative with
        | false => rfl
        | true => exact absurd ⟨hs, hn⟩ hneg
      obtain ⟨v', hv', hholds⟩ := h.record Totals.addsUp hb
      exact ⟨b, v', hb, h.admits_of_record hb hv', hholds⟩

/-- **Recording** fails just if the scalar is refused, whatever has been recorded before. -/
theorem record_verdict (h : Holds Totals.IsTotal s a vs) (x : Scalar) :
    match s.refusalOf? (Recordable.valueType α) x with
    | some e => a.record x = .error e
    | none =>
      ∃ b v, a.record x = .ok b ∧ s.Admits [v] ∧ Holds Totals.IsTotal s b (vs ++ [v]) := by
  unfold Shape.refusalOf?
  cases hx : (Recordable.valueType α).check x with
  | error e => exact h.record_of_check_error hx
  | ok n =>
    dsimp only
    cases he : s.refusal? (Recordable.valueType α) n with
    | some e => exact h.record_of_refusal hx he
    | none => exact h.record_of_accepted hx he

/-- An aggregator that discards is always as new. -/
theorem eq_fresh_of_discard (h : Holds Totals.IsTotal .discard a vs) :
    a = Aggregator.fresh .discard (Recordable.valueType α) := by
  obtain ⟨t, rfl, hs, -⟩ := h
  rw [Recordable.fresh_eq]
  cases t with
  | discard => rfl
  | _ => cases hs

end Aggregator.Holds

/-- **An aggregator that discards** refuses what is no measurement, and stays as it is. -/
theorem Aggregator.record_discard (v : ValueType) (x : Scalar) :
    (Aggregator.fresh .discard v).record x
      = match Shape.discard.refusalOf? v x with
        | some e => .error e
        | none => .ok (Aggregator.fresh .discard v) := by
  -- both value types are types of recorded values
  have hall : ∀ (α : Type) [Totals α], (Aggregator.fresh .discard (Recordable.valueType α)).record x
      = match Shape.discard.refusalOf? (Recordable.valueType α) x with
        | some e => .error e
        | none => .ok (Aggregator.fresh .discard (Recordable.valueType α)) := by
    intro α _
    have hrecord := (Holds.fresh (Totals.addsUp (α := α)) .discard).record_verdict x
    cases he : Shape.discard.refusalOf? (Recordable.valueType α) x with
    | some e =>
      rw [he] at hrecord
      exact hrecord
    | none =>
      rw [he] at hrecord
      obtain ⟨b, w, hb, -, hholds⟩ := hrecord
      rw [hb, hholds.eq_fresh_of_discard]
  cases v with
  | long => exact hall Int
  | double => exact hall Binary64

end Metering
