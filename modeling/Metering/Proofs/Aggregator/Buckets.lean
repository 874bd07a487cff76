import Metering.Boundaries
import Metering.Point
import Mathlib.Data.List.Induction

/-!
# Counting by buckets

`bucketCounts b xs` has one entry for each bucket of the boundaries `b`: how many of the numbers
`xs` fall into it.  A histogram's counts follow it through one more number
(`bucketCounts_concat`) and through a merge (`bucketCounts_append`), and since every number falls
into exactly one bucket the counts add up to the number of numbers (`totalCount_bucketCounts`).
Boundaries that are equal number by number have the same buckets (`bucket_of_same`).
-/

namespace Metering.Boundaries

/-- How many of the numbers fall into each bucket. -/
def bucketCounts (b : Boundaries) (xs : List Number) : List Nat :=
  (List.range (b.size + 1)).map fun k => xs.countP fun x => b.bucket x = k

theorem length_bucketCounts (b : Boundaries) (xs : List Number) :
    (b.bucketCounts xs).length = b.size + 1 := by
  simp [bucketCounts]

theorem bucketCounts_nil (b : Boundaries) :
    b.bucketCounts [] = List.replicate (b.size + 1) 0 := by
  simp [bucketCounts, List.map_const']

theorem bucketCounts_append (b : Boundaries) (xs ys : List Number) :
    b.bucketCounts (xs ++ ys) = List.zipWith (· + ·) (b.bucketCounts xs) (b.bucketCounts ys) := by
  unfold bucketCounts
  rw [List.zipWith_map, List.zipWith_self]
  simp only [List.countP_append]

theorem bucketCounts_concat (b : Boundaries) (xs : List Number) (x : Number) :
    b.bucketCounts (xs ++ [x]) = (b.bucketCounts xs).modify (b.bucket x) (· + 1) := by
  apply List.ext_getElem
  · simp [length_bucketCounts]
  · intro k h _
    rw [List.getElem_modify]
    simp only [bucketCounts, List.getElem_map, List.getElem_range, List.countP_append,
      List.countP_singleton, decide_eq_true_eq]
    split <;> rfl

theorem totalCount_modify {counts : List Nat} {k : Nat} (hk : k < counts.length) :
    totalCount (counts.modify k (· + 1)) = totalCount counts + 1 := by
  induction counts generalizing k with
  | nil => cases hk
  | cons n counts ih =>
    cases k with
    | zero =>
      show n + 1 + totalCount counts = n + totalCount counts + 1
      omega
    | succ k =>
      have := ih (Nat.lt_of_succ_lt_succ hk)
      show n + totalCount (counts.modify k (· + 1)) = n + totalCount counts + 1
      omega

theorem totalCount_replicate_zero (n : Nat) : totalCount (List.replicate n 0) = 0 := by
  induction n with
  | zero => rfl
  | succ n ih => rw [List.replicate_succ, totalCount, List.foldr_cons, ← totalCount, ih]

/-- Every number is counted in exactly one bucket. -/
theorem totalCount_bucketCounts (b : Boundaries) (xs : List Number) :
    totalCount (b.bucketCounts xs) = xs.length := by
  induction xs using List.reverseRecOn with
  | nil => rw [bucketCounts_nil, totalCount_replicate_zero, List.length_nil]
  | append_singleton xs x ih =>
    have hk : b.bucket x < (b.bucketCounts xs).length := by
      rw [length_bucketCounts]
      exact Nat.lt_succ_of_le (b.bucket_le x)
    rw [bucketCounts_concat, totalCount_modify hk, ih, List.length_append, List.length_singleton]

theorem totalCount_eq_zero_iff {counts : List Nat} :
    totalCount counts = 0 ↔ counts.all (· == 0) = true := by
  induction counts with
  | nil => simp [totalCount]
  | cons n counts ih =>
    have hcons : totalCount (n :: counts) = n + totalCount counts := rfl
    rw [hcons, List.all_cons, Bool.and_eq_true, ← ih, beq_iff_eq, Nat.add_eq_zero_iff]

/-- All buckets are empty exactly when there are no numbers. -/
theorem all_bucketCounts_eq_zero_iff (b : Boundaries) (xs : List Number) :
    (b.bucketCounts xs).all (· == 0) = true ↔ xs = [] := by
  rw [← totalCount_eq_zero_iff, totalCount_bucketCounts, List.length_eq_zero_iff]

/-! ### Boundaries that have been checked -/

/-- What the check of boundaries has found. -/
theorem faultless_iff {values : List Binary64} : fault? values = none ↔
    values.any Binary64.isNaN = false ∧ notIncreasing? values = none ∧ endFault? values = none := by
  unfold fault?
  split
  · next h => simp [h]
  · next h =>
    split
    · next h' => simp [h']
    · next h' => simp [h, h']

theorem place?_ne_none (b : Boundaries) {x : Binary64} (hx : x ∈ b.values) : x.place? ≠ none := by
  intro hnone
  have hnan := (faultless_iff.mp b.faultless).1
  rw [List.any_eq_false] at hnan
  exact hnan x hx (by rw [(Binary64.place?_eq_none_iff x).mp hnone]; rfl)

/-! ### Boundaries that are equal number by number -/

theorem place?_eq_of_numericEq {x y : Binary64} (h : x.numericEq y = true) :
    x.place? = y.place? := by
  unfold Binary64.numericEq at h
  cases hx : x.place? <;> cases hy : y.place? <;> simp_all

theorem lt_of_numericEq {x y : Binary64} (h : x.numericEq y = true) (n : Number) :
    (Number.double x).lt n = (Number.double y).lt n := by
  have hp : (Number.double x).place? = (Number.double y).place? := place?_eq_of_numericEq h
  rw [Number.lt, Number.lt, hp]

theorem takeWhile_length_of_zip {xs ys : List Binary64} (n : Number)
    (hlen : xs.length = ys.length)
    (h : ((xs.zip ys).all fun p => p.1.numericEq p.2) = true) :
    (xs.takeWhile fun x => (Number.double x).lt n).length
      = (ys.takeWhile fun y => (Number.double y).lt n).length := by
  induction xs generalizing ys with
  | nil =>
    obtain rfl : ys = [] := List.eq_nil_of_length_eq_zero hlen.symm
    rfl
  | cons x xs ih =>
    cases ys with
    | nil => cases hlen
    | cons y ys =>
      rw [List.zip_cons_cons, List.all_cons, Bool.and_eq_true] at h
      rw [List.takeWhile_cons, List.takeWhile_cons, lt_of_numericEq h.1 n]
      cases (Number.double y).lt n with
      | false => rfl
      | true => simp [ih (Nat.succ.inj hlen) h.2]

theorem size_of_same {b b' : Boundaries} (h : b.same b' = true) : b.size = b'.size := by
  unfold same at h
  simp only [Bool.and_eq_true, decide_eq_true_eq] at h
  exact h.1

theorem bucket_of_same {b b' : Boundaries} (h : b.same b' = true) (n : Number) :
    b.bucket n = b'.bucket n := by
  have hsize := size_of_same h
  unfold same at h
  simp only [Bool.and_eq_true, decide_eq_true_eq] at h
  exact takeWhile_length_of_zip n hsize h.2

theorem bucketCounts_of_same {b b' : Boundaries} (h : b.same b' = true) (xs : List Number) :
    b.bucketCounts xs = b'.bucketCounts xs := by
  unfold bucketCounts
  rw [size_of_same h]
  simp only [bucket_of_same h]

/-- Boundaries are equal to themselves, since none of them is NaN. -/
theorem same_self (b : Boundaries) : b.same b = true := by
  have hnan := (faultless_iff.mp b.faultless).1
  -- number by number, whatever their order
  have hall : ∀ xs : List Binary64, xs.any Binary64.isNaN = false →
      ((xs.zip xs).all fun p => p.1.numericEq p.2) = true := by
    intro xs hxs
    induction xs with
    | nil => rfl
    | cons x xs ih =>
      rw [List.any_cons, Bool.or_eq_false_iff] at hxs
      rw [List.zip_cons_cons, List.all_cons, ih hxs.2, Bool.and_true]
      rcases x with _ | (_ | _) | _ <;> simp_all [Binary64.numericEq, Binary64.place?,
        Binary64.isNaN]
  simp [same, hall b.values hnan]

end Metering.Boundaries
