import Metering.Aggregator.Pool
import Metering.Proofs.Aggregator.Buckets
import Metering.Proofs.Aggregator.Extremes
import Mathlib.Algebra.Ring.Int.Defs

/-!
# What a tally remembers of its history

`Tally.Holds` says that a tally is what is left of a list of recorded values: their number, the
last one, the extremes, the bucket counts, and a total.  What counts as a total is a parameter,
because only integers add up exactly: `AddsUp` lists what is needed of it.  Recording extends the
list by one value (`Holds.push`), and a merge appends the source's list (`Holds.absorb`), for all
five ways of aggregating.

`Shape.summary` and `Shape.Outlines` say what is reported of a list of long values and of doubles;
`Tally.Holds.value?_long` and `Tally.Holds.value?_double` say that a tally reports just that.
-/

namespace Metering

/-! ### Totals -/

/-- A notion of the total of a list of values that adding keeps to. -/
structure AddsUp {α : Type} [Quantity α] (isTotal : α → List α → Prop) : Prop where
  /-- Zero is the total of no values. -/
  zero : isTotal Quantity.zero []
  /-- Adding one value to a total is the total with that value. -/
  concat : ∀ {x vs} v, isTotal x vs → isTotal (Quantity.add x v) (vs ++ [v])
  /-- Adding two totals is the total of both lists. -/
  append : ∀ {x y vs ws}, isTotal x vs → isTotal y ws → isTotal (Quantity.add x y) (vs ++ ws)

/-- The exact total of integers. -/
def IsSum (x : Int) (vs : List Int) : Prop := x = vs.sum

theorem addsUp_isSum : AddsUp IsSum where
  zero := rfl
  concat v h := by
    unfold IsSum at *
    rw [List.sum_append, ← h, List.sum_singleton]
    rfl
  append hx hy := by
    unfold IsSum at *
    rw [List.sum_append, ← hx, ← hy]
    rfl

/-- Nothing is said about a total: floating sums depend on how they are bracketed. -/
def AnyTotal (_ : Binary64) (_ : List Binary64) : Prop := True

theorem addsUp_anyTotal : AddsUp AnyTotal where
  zero := trivial
  concat _ _ := trivial
  append _ _ := trivial

/-! ### Shapes that merge -/

/-- Tallies of the two shapes can be merged: they are of one kind, and histograms have the same
boundaries. -/
def Shape.Alike : Shape → Shape → Prop
  | .histogram b, .histogram b' => b.same b' = true
  | s, s' => s.kind = s'.kind

theorem Shape.alike_refl (s : Shape) : s.Alike s := by
  cases s with
  | histogram b => exact b.same_self
  | _ => rfl

/-! ### Histories -/

namespace Tally

variable {α : Type} [Quantity α] {isTotal : α → List α → Prop} {t source : Tally α}
  {vs ws : List α}

/-- The tally is what is left of the values recorded one after the other. -/
def Holds (isTotal : α → List α → Prop) (t : Tally α) (vs : List α) : Prop :=
  match t with
  | .discard => True
  | .sum _ none => vs = []
  | .sum _ (some x) => vs ≠ [] ∧ isTotal x vs
  | .count n => n = vs.length
  | .lastValue v => v = vs.getLast?
  | .minMaxSumCount n x least greatest =>
    n = vs.length ∧ isTotal x vs ∧ least = leastOf (vs.map Quantity.toNumber) ∧
      greatest = greatestOf (vs.map Quantity.toNumber)
  | .histogram b x counts =>
    isTotal x vs ∧ counts = b.bucketCounts (vs.map Quantity.toNumber)

theorem holds_fresh (hadd : AddsUp isTotal) (s : Shape) :
    (fresh s : Tally α).Holds isTotal [] := by
  cases s with
  | minMaxSumCount => exact ⟨rfl, hadd.zero, rfl, rfl⟩
  | histogram b => exact ⟨hadd.zero, b.bucketCounts_nil.symm⟩
  | _ => trivial

namespace Holds

/-- **Recording** one more value extends the history by it. -/
theorem push (hadd : AddsUp isTotal) (h : t.Holds isTotal vs) (v : α) :
    (t.push v).Holds isTotal (vs ++ [v]) := by
  cases t with
  | discard => trivial
  | sum monotonic total =>
    refine ⟨by simp, ?_⟩
    cases total with
    | none =>
      obtain rfl : vs = [] := h
      exact hadd.concat v hadd.zero
    | some x => exact hadd.concat v h.2
  | count n =>
    obtain rfl : n = vs.length := h
    simp [Tally.push, Holds]
  | lastValue w => simp [Tally.push, Holds]
  | minMaxSumCount n x least greatest =>
    obtain ⟨rfl, hx, rfl, rfl⟩ := h
    refine ⟨by simp, hadd.concat v hx, ?_, ?_⟩
    · rw [List.map_append, List.map_singleton, leastOf_concat]
    · rw [List.map_append, List.map_singleton, greatestOf_concat]
  | histogram b x counts =>
    obtain ⟨hx, rfl⟩ := h
    refine ⟨hadd.concat v hx, ?_⟩
    rw [List.map_append, List.map_singleton, b.bucketCounts_concat]

/-- A tally that does not discard is empty exactly when its history is. -/
theorem isEmpty_iff (h : t.Holds isTotal vs) (hd : t.shape ≠ .discard) :
    t.isEmpty = true ↔ vs = [] := by
  cases t with
  | discard => exact absurd rfl hd
  | sum monotonic total =>
    cases total with
    | none => exact iff_of_true rfl h
    | some x => simp [isEmpty, h.1]
  | count n =>
    obtain rfl : n = vs.length := h
    simp [isEmpty]
  | lastValue v =>
    obtain rfl : v = vs.getLast? := h
    simp [isEmpty]
  | minMaxSumCount n x least greatest =>
    obtain ⟨rfl, -⟩ := h
    simp [isEmpty]
  | histogram b x counts =>
    obtain ⟨-, rfl⟩ := h
    show (b.bucketCounts _).all (· == 0) = true ↔ _
    rw [b.all_bucketCounts_eq_zero_iff, List.map_eq_nil_iff]

/-- **Merging** appends the source's history to the target's. -/
theorem absorb (hadd : AddsUp isTotal) (ht : t.Holds isTotal vs) (hs : source.Holds isTotal ws)
    (ha : t.shape.Alike source.shape) : (t.absorb source).Holds isTotal (vs ++ ws) := by
  by_cases hd : source.shape = .discard
  · -- then both discard, and there is nothing to show
    have htd : t = .discard := by
      cases t <;> simp_all [Tally.shape, Shape.Alike, Shape.kind]
    subst htd
    unfold Tally.absorb
    split <;> trivial
  unfold Tally.absorb
  by_cases he : source.isEmpty = true
  · obtain rfl := (hs.isEmpty_iff hd).mp he
    rw [if_pos he, List.append_nil]
    exact ht
  rw [if_neg he]
  cases t with
  | discard => cases source <;> simp_all [Tally.shape, Shape.Alike, Shape.kind]
  | sum monotonic total =>
    cases source with
    | sum monotonic' total' =>
      cases total' with
      | none => exact absurd rfl he
      | some y =>
        refine ⟨by simp [hs.1], ?_⟩
        cases total with
        | none =>
          obtain rfl : vs = [] := ht
          exact hadd.append hadd.zero hs.2
        | some x => exact hadd.append ht.2 hs.2
    | _ => cases ha
  | count m =>
    cases source with
    | count n =>
      obtain rfl : m = vs.length := ht
      obtain rfl : n = ws.length := hs
      simp [Holds]
    | _ => cases ha
  | lastValue v =>
    cases source with
    | lastValue w =>
      obtain rfl : w = ws.getLast? := hs
      -- the source has recorded something, and that is later
      have hw : ws ≠ [] := by simpa [isEmpty] using he
      show ws.getLast? = (vs ++ ws).getLast?
      rw [List.getLast?_append_of_ne_nil _ hw]
    | _ => cases ha
  | minMaxSumCount m x least greatest =>
    cases source with
    | minMaxSumCount n y least' greatest' =>
      obtain ⟨rfl, hx, rfl, rfl⟩ := ht
      obtain ⟨rfl, hy, rfl, rfl⟩ := hs
      refine ⟨by simp, hadd.append hx hy, ?_, ?_⟩
      · rw [List.map_append, leastOf_append]
      · rw [List.map_append, greatestOf_append]
    | _ => cases ha
  | histogram b x counts =>
    cases source with
    | histogram b' y counts' =>
      obtain ⟨hx, rfl⟩ := ht
      obtain ⟨hy, rfl⟩ := hs
      refine ⟨hadd.append hx hy, ?_⟩
      -- the source counts by its own boundaries, which have the same buckets
      rw [List.map_append, b.bucketCounts_append,
        ← Boundaries.bucketCounts_of_same ha (ws.map Quantity.toNumber)]
    | _ => cases ha

end Holds

end Tally

/-! ### What is reported -/

/-- What an aggregator of a shape reports of long values recorded one after the other. -/
def Shape.summary (s : Shape) (vs : List Int) : Option PointValue :=
  if vs = [] then none
  else
    match s with
    | .discard => none
    | .sum _ => some (.number (.integer vs.sum))
    | .count => some (.number (.integer vs.length))
    | .lastValue => vs.getLast?.map fun v => .number (.integer v)
    | .minMaxSumCount => do
      return .summary vs.length (.integer vs.sum) (.integer (← vs.min?)) (.integer (← vs.max?))
    | .histogram b =>
      some (.histogram (.integer vs.sum) b (b.bucketCounts (vs.map Number.integer)))

/-- The value is what an aggregator of a shape reports of doubles recorded one after the other, of
which the sum may be any double. -/
def Shape.Outlines (s : Shape) (vs : List Binary64) (value : Option PointValue) : Prop :=
  if vs = [] then value = none
  else
    match s with
    | .discard => value = none
    | .sum _ => ∃ x, value = some (.number (.double x))
    | .count => value = some (.number (.integer vs.length))
    | .lastValue => value = vs.getLast?.map fun v => .number (.double v)
    | .minMaxSumCount =>
      ∃ x, value = some (.summary vs.length (.double x) (.double (Binary64.firstLeast vs))
        (.double (Binary64.firstGreatest vs)))
    | .histogram b =>
      ∃ x, value = some (.histogram (.double x) b (b.bucketCounts (vs.map Number.double)))

/-- How many recorded values a point says it stands for, if it says so. -/
def PointValue.count? : PointValue → Option Nat
  | .number _ => none
  | .summary n .. => some n
  | .histogram _ _ counts => some (totalCount counts)

/-- Values that are there have a least one and a greatest one. -/
theorem exists_extremes {vs : List Int} (hv : vs ≠ []) :
    ∃ least greatest, vs.min? = some least ∧ vs.max? = some greatest := by
  obtain ⟨least, hleast⟩ := Option.isSome_iff_exists.mp (List.isSome_min?_of_ne_nil hv)
  obtain ⟨greatest, hgreatest⟩ := Option.isSome_iff_exists.mp (List.isSome_max?_of_ne_nil hv)
  exact ⟨least, greatest, hleast, hgreatest⟩

namespace Shape

theorem summary_eq_none_iff {s : Shape} {vs : List Int} (hd : s ≠ .discard) :
    s.summary vs = none ↔ vs = [] := by
  unfold summary
  by_cases hv : vs = []
  · simp [hv]
  obtain ⟨least, greatest, hleast, hgreatest⟩ := exists_extremes hv
  rw [if_neg hv]
  cases s <;> simp_all

theorem outlines_none_iff {s : Shape} {vs : List Binary64} {value : Option PointValue}
    (hd : s ≠ .discard) (h : s.Outlines vs value) : value = none ↔ vs = [] := by
  unfold Outlines at h
  by_cases hv : vs = []
  · rw [if_pos hv] at h
    exact iff_of_true h hv
  rw [if_neg hv] at h
  cases s with
  | discard => exact absurd rfl hd
  | count => simp [h, hv]
  | lastValue => simp [h, hv]
  | sum | minMaxSumCount | histogram =>
    obtain ⟨x, rfl⟩ := h
    simp [hv]

theorem count_of_summary {s : Shape} {vs : List Int} {value : PointValue} {k : Nat}
    (h : s.summary vs = some value) (hk : value.count? = some k) : k = vs.length := by
  unfold summary at h
  by_cases hv : vs = []
  · simp [hv] at h
  rw [if_neg hv] at h
  obtain ⟨least, greatest, hleast, hgreatest⟩ := exists_extremes hv
  cases s with
  | discard => cases h
  | sum | count =>
    obtain rfl := Option.some.inj h
    cases hk
  | lastValue =>
    obtain ⟨v, -, rfl⟩ := Option.map_eq_some_iff.mp h
    cases hk
  | minMaxSumCount =>
    simp only [hleast, hgreatest] at h
    obtain rfl := Option.some.inj h
    exact (Option.some.inj hk).symm
  | histogram b =>
    obtain rfl := Option.some.inj h
    obtain rfl := Option.some.inj hk
    rw [b.totalCount_bucketCounts, List.length_map]

theorem count_of_outlines {s : Shape} {vs : List Binary64} {value : PointValue} {k : Nat}
    (h : s.Outlines vs (some value)) (hk : value.count? = some k) : k = vs.length := by
  unfold Outlines at h
  by_cases hv : vs = []
  · rw [if_pos hv] at h
    cases h
  rw [if_neg hv] at h
  cases s with
  | discard => cases h
  | sum =>
    obtain ⟨x, h⟩ := h
    obtain rfl := Option.some.inj h
    cases hk
  | count =>
    obtain rfl := Option.some.inj h
    cases hk
  | lastValue =>
    obtain ⟨v, -, rfl⟩ := Option.map_eq_some_iff.mp h.symm
    cases hk
  | minMaxSumCount =>
    obtain ⟨x, h⟩ := h
    obtain rfl := Option.some.inj h
    exact (Option.some.inj hk).symm
  | histogram b =>
    obtain ⟨x, h⟩ := h
    obtain rfl := Option.some.inj h
    obtain rfl := Option.some.inj hk
    rw [b.totalCount_bucketCounts, List.length_map]

end Shape

namespace Tally.Holds

theorem value?_nil {α : Type} [Quantity α] {isTotal : α → List α → Prop} {t : Tally α}
    (h : t.Holds isTotal []) : t.value? = none := by
  by_cases hd : t.shape = .discard
  · cases t <;> simp_all [Tally.shape, Tally.value?]
  · unfold Tally.value?
    rw [if_pos ((h.isEmpty_iff hd).mpr rfl)]

/-- A tally of long values reports the summary of its history. -/
theorem value?_long {t : Tally Int} {vs : List Int} (h : t.Holds IsSum vs) :
    t.value? = t.shape.summary vs := by
  by_cases hv : vs = []
  · subst hv
    rw [h.value?_nil]
    rfl
  by_cases hd : t.shape = .discard
  · cases t <;> simp_all [Tally.shape, Tally.value?, Shape.summary]
  unfold Tally.value? Shape.summary
  rw [if_neg (mt (h.isEmpty_iff hd).mp hv), if_neg hv]
  cases t with
  | discard => exact absurd rfl hd
  | sum monotonic total =>
    cases total with
    | none => exact absurd h hv
    | some x =>
      obtain rfl : x = vs.sum := h.2
      rfl
  | count n =>
    obtain rfl : n = vs.length := h
    rfl
  | lastValue v =>
    obtain rfl : v = vs.getLast? := h
    rfl
  | minMaxSumCount n x least greatest =>
    obtain ⟨rfl, rfl, rfl, rfl⟩ := h
    obtain ⟨least, greatest, hleast, hgreatest⟩ := exists_extremes hv
    have hl : leastOf (vs.map Quantity.toNumber) = .integer least := leastOf_integers hleast
    have hg : greatestOf (vs.map Quantity.toNumber) = .integer greatest :=
      greatestOf_integers hgreatest
    simp only [Tally.shape, hleast, hgreatest, hl, hg]
    rfl
  | histogram b x counts =>
    obtain ⟨rfl, rfl⟩ := h
    rfl

/-- A tally of doubles reports its history but for the sum. -/
theorem value?_double {t : Tally Binary64} {vs : List Binary64} (h : t.Holds AnyTotal vs) :
    t.shape.Outlines vs t.value? := by
  by_cases hv : vs = []
  · subst hv
    rw [h.value?_nil]
    rfl
  by_cases hd : t.shape = .discard
  · cases t <;> simp_all [Tally.shape, Tally.value?, Shape.Outlines]
  unfold Tally.value? Shape.Outlines
  rw [if_neg (mt (h.isEmpty_iff hd).mp hv), if_neg hv]
  cases t with
  | discard => exact absurd rfl hd
  | sum monotonic total =>
    cases total with
    | none => exact absurd h hv
    | some x => exact ⟨x, rfl⟩
  | count n =>
    obtain rfl : n = vs.length := h
    rfl
  | lastValue v =>
    obtain rfl : v = vs.getLast? := h
    rfl
  | minMaxSumCount n x least greatest =>
    obtain ⟨rfl, -, rfl, rfl⟩ := h
    refine ⟨x, ?_⟩
    rw [← leastOf_doubles, ← greatestOf_doubles]
    rfl
  | histogram b x counts =>
    obtain ⟨-, rfl⟩ := h
    exact ⟨x, rfl⟩

end Tally.Holds

end Metering
