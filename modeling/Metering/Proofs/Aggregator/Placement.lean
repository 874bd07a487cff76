import Metering.Aggregation
import Metering.Proofs.Aggregator.Typed
import Metering.Proofs.Exact
import Metering.Proofs.Fallible

/-!
# The buckets of a histogram

Boundaries are finite (`Boundaries.isFinite`) and in strictly increasing order
(`Boundaries.increasing`), so a value is above those of an initial part of them.  The bucket that is
the length of this part takes the value and is the only one to do so (`Boundaries.bucket_eq_iff`),
and halving finds it (`Boundaries.search_eq_bucket`).

`bucket_placement` is the main statement.  It compares measurements with boundaries by their exact
values.
-/

namespace Metering

/-! ### Initial parts of a list -/

section

variable {β : Type} {P : β → Bool} {l : List β} {i : Nat}

/-- What holds of a member holds of all that come before it. -/
def Downward (P : β → Bool) (l : List β) : Prop := l.Pairwise fun a b => P b = true → P a = true

theorem Downward.lt_length_takeWhile_iff (h : Downward P l) (hi : i < l.length) :
    i < (l.takeWhile P).length ↔ P l[i] = true := by
  induction l generalizing i with
  | nil => cases hi
  | cons a l ih =>
    obtain ⟨ha, hl⟩ := List.pairwise_cons.mp h
    rw [List.takeWhile_cons]
    cases hP : P a with
    | true =>
      cases i with
      | zero => simp [hP]
      | succ i =>
        rw [if_pos rfl, List.length_cons, Nat.succ_lt_succ_iff, List.getElem_cons_succ]
        exact ih hl (Nat.lt_of_succ_lt_succ hi)
    | false =>
      rw [if_neg Bool.false_ne_true]
      refine iff_of_false (Nat.not_lt_zero i) fun hPi => ?_
      cases i with
      | zero => exact Bool.false_ne_true (hP.symm.trans hPi)
      | succ i =>
        have hPa := ha _ (List.getElem_mem (Nat.lt_of_succ_lt_succ hi)) hPi
        exact Bool.false_ne_true (hP.symm.trans hPa)

/-- The place in an interval at which something stops being true, by halving. -/
def bisect (below : Nat → Bool) (lo hi : Nat) : Nat :=
  if lo < hi then
    if below ((lo + hi) / 2) then bisect below ((lo + hi) / 2 + 1) hi
    else bisect below lo ((lo + hi) / 2)
  else lo
termination_by hi - lo

theorem bisect_eq {below : Nat → Bool} {k lo hi : Nat}
    (h : ∀ i, i < hi → (below i = true ↔ i < k)) (hlo : lo ≤ k) (hhi : k ≤ hi) :
    bisect below lo hi = k := by
  fun_induction bisect below lo hi with
  | case1 lo hi hlt hbelow ih =>
    have hmid := (h ((lo + hi) / 2) (by omega)).mp hbelow
    exact ih h hmid hhi
  | case2 lo hi hlt hbelow ih =>
    have hmid : ¬ (lo + hi) / 2 < k := fun hk => hbelow ((h _ (by omega)).mpr hk)
    exact ih (fun i hi => h i (by omega)) hlo (by omega)
  | case3 lo hi hlt => omega

end

namespace Boundaries

/-! ### The order of boundaries -/

theorem lt_of_ge_eq_false {x y : Binary64} (hx : x.place? ≠ none) (hy : y.place? ≠ none)
    (h : x.ge y = false) : x.lt y = true := by
  obtain ⟨p, hp⟩ := Option.ne_none_iff_exists'.mp hx
  obtain ⟨q, hq⟩ := Option.ne_none_iff_exists'.mp hy
  have hge : (q.lt p || decide (p = q)) = false := by
    unfold Binary64.ge Binary64.lt Binary64.numericEq at h
    rw [hp, hq] at h
    exact h
  rw [Bool.or_eq_false_iff, decide_eq_false_iff_not] at hge
  have hlt : p.lt q = true := by
    rcases Place.lt_trichotomy p q with hlt | heq | hgt
    · exact hlt
    · exact absurd heq hge.2
    · exact absurd hgt (Bool.eq_false_iff.mp hge.1)
  unfold Binary64.lt
  rw [hp, hq]
  exact hlt

theorem pairwise_of_notIncreasing? {values : List Binary64}
    (hplaced : ∀ x ∈ values, x.place? ≠ none) (h : notIncreasing? values = none) :
    values.Pairwise fun x y => x.lt y = true := by
  induction values with
  | nil => exact List.Pairwise.nil
  | cons x rest ih =>
    cases rest with
    | nil => exact List.pairwise_singleton _ _
    | cons y rest =>
      unfold notIncreasing? at h
      split at h
      · cases h
      · next hge =>
        have hrest := ih (fun z hz => hplaced z (List.mem_cons_of_mem x hz)) h
        have hxy : x.lt y = true := lt_of_ge_eq_false (hplaced x List.mem_cons_self)
          (hplaced y (List.mem_cons_of_mem x List.mem_cons_self)) (Bool.eq_false_iff.mpr hge)
        refine List.pairwise_cons.mpr ⟨fun z hz => ?_, hrest⟩
        rcases List.mem_cons.mp hz with rfl | hz
        · exact hxy
        · exact Binary64.lt_trans hxy ((List.pairwise_cons.mp hrest).1 z hz)

/-- **Boundaries increase.** -/
theorem increasing (b : Boundaries) : b.values.Pairwise fun x y => x.lt y = true :=
  pairwise_of_notIncreasing? (fun _ => b.place?_ne_none) (faultless_iff.mp b.faultless).2.1

theorem head_ne (b : Boundaries) : b.values.head? ≠ some (.infinity true) := by
  intro hhead
  have hend := (faultless_iff.mp b.faultless).2.2
  unfold endFault? at hend
  rw [if_pos hhead] at hend
  cases hend

theorem last_isFinite (b : Boundaries) {x : Binary64} (hx : b.values.getLast? = some x) :
    x.isFinite = true := by
  have hend := (faultless_iff.mp b.faultless).2.2
  unfold endFault? at hend
  rw [if_neg b.head_ne, hx, Option.any_some] at hend
  cases hfinite : x.isFinite with
  | true => rfl
  | false =>
    rw [hfinite] at hend
    cases hend

/-- **Boundaries are finite**: the ends are, and the others are between them. -/
theorem isFinite (b : Boundaries) {x : Binary64} (hx : x ∈ b.values) : x.isFinite = true := by
  obtain ⟨before, after, hvalues⟩ := List.append_of_mem hx
  have hincreasing := b.increasing
  rw [hvalues] at hincreasing
  cases x with
  | finite => rfl
  | nan => exact absurd rfl (b.place?_ne_none hx)
  | infinity negative =>
    cases negative with
    | true =>
      cases before with
      | nil => exact absurd (by rw [hvalues]; rfl) b.head_ne
      | cons y before =>
        -- nothing is below negative infinity
        have hlt := (List.pairwise_append.mp hincreasing).2.2 y List.mem_cons_self _
          List.mem_cons_self
        have hfalse : (Number.double y).lt negativeInfinity = false :=
          keepsBest_greatest.worst_beats
        exact absurd hlt (Bool.eq_false_iff.mp hfalse)
    | false =>
      cases after using List.reverseRec with
      | nil => exact b.last_isFinite (by rw [hvalues, List.getLast?_concat])
      | append_singleton after y =>
        -- nothing is above positive infinity
        have hlt := (List.pairwise_cons.mp (List.pairwise_append.mp hincreasing).2.1).1 y
          (List.mem_append_right after (List.mem_singleton_self y))
        have hfalse : positiveInfinity.lt (Number.double y) = false :=
          keepsBest_least.worst_beats
        exact absurd hlt (Bool.eq_false_iff.mp hfalse)

/-! ### Buckets -/

/-- What is below a number is below it with everything before. -/
theorem downward (b : Boundaries) (v : Number) :
    Downward (fun y => (Number.double y).lt v) b.values :=
  b.increasing.imp fun hxy hyv => Number.lt_trans hxy hyv

/-- The bucket of a number, found by halving. -/
def search (b : Boundaries) (v : Number) : Nat :=
  bisect (fun i => b.values[i]?.any fun y => (Number.double y).lt v) 0 b.size

/-- **Halving** finds the bucket of every number, NaN included. -/
theorem search_eq_bucket (b : Boundaries) (v : Number) : b.search v = b.bucket v := by
  refine bisect_eq (fun i hi => ?_) (Nat.zero_le _) (b.bucket_le v)
  have hi : i < b.values.length := hi
  rw [List.getElem?_eq_getElem hi, Option.any_some]
  exact ((b.downward v).lt_length_takeWhile_iff hi).symm

/-- The boundaries as rational numbers. -/
def points (b : Boundaries) : List ℚ := b.values.map Binary64.rational

/-- The exact value at the upper end of a bucket; the last one has none. -/
def upper? (b : Boundaries) (i : Nat) : Option Exact :=
  b.points[i]?.map Exact.ofRat

/-- The exact value at the lower end of a bucket; the first one has none. -/
def lower? (b : Boundaries) : Nat → Option Exact
  | 0 => none
  | i + 1 => b.upper? i

/-- The bucket takes the number: its exact value is above the lower end, and at most at the upper
one. -/
def Takes (b : Boundaries) (i : Nat) (v : Number) : Prop :=
  ∃ x ∈ v.toExact?, (∀ p ∈ b.lower? i, p < x) ∧ ∀ p ∈ b.upper? i, x ≤ p

instance (b : Boundaries) (i : Nat) (v : Number) : Decidable (b.Takes i v) :=
  match h : v.toExact? with
  | none => isFalse fun ⟨x, hx, _⟩ => by cases h.symm.trans hx
  | some x => decidable_of_iff ((∀ p ∈ b.lower? i, p < x) ∧ ∀ p ∈ b.upper? i, x ≤ p) <| by
    unfold Takes
    rw [h]
    simp

variable {b : Boundaries} {v : Number} {x : Exact} {i : Nat}

theorem upper?_of_lt (hi : i < b.values.length) :
    b.upper? i = (Number.double b.values[i]).toExact? := by
  have hpoints : b.points[i]? = some b.values[i].rational := by
    unfold points
    rw [List.getElem?_map, List.getElem?_eq_getElem hi, Option.map_some]
  unfold upper?
  rw [hpoints, Option.map_some]
  exact (Binary64.toExact?_of_isFinite (b.isFinite (List.getElem_mem hi))).symm

theorem upper?_of_le (hi : b.size ≤ i) : b.upper? i = none := by
  have hi : b.points.length ≤ i := by
    unfold points
    rwa [List.length_map]
  unfold upper?
  rw [List.getElem?_eq_none hi, Option.map_none]

theorem exists_upper? (b : Boundaries) (hi : i < b.size) : ∃ x, b.upper? i = some x := by
  have hfinite := b.isFinite (List.getElem_mem hi)
  exact ⟨_, (upper?_of_lt hi).trans (Binary64.toExact?_of_isFinite hfinite)⟩

/-- A number is beyond a bucket if it is above its upper end. -/
theorem lt_bucket_iff (hx : v.toExact? = some x) (hi : i < b.size) :
    i < b.bucket v ↔ ∀ p ∈ b.upper? i, p < x := by
  obtain ⟨q, hq⟩ := b.exists_upper? hi
  have hi : i < b.values.length := hi
  unfold bucket
  rw [(b.downward v).lt_length_takeWhile_iff hi, Number.lt_iff, ← upper?_of_lt hi, hx, hq]
  simp

/-- **The bucket of a number** is the one that takes it. -/
theorem bucket_eq_iff (hx : v.toExact? = some x) (hi : i ≤ b.size) :
    b.bucket v = i ↔ b.Takes i v := by
  have hupper : ¬ i < b.bucket v ↔ ∀ p ∈ b.upper? i, x ≤ p := by
    rcases Nat.lt_or_eq_of_le hi with hi | rfl
    · obtain ⟨q, hq⟩ := b.exists_upper? hi
      rw [lt_bucket_iff hx hi, hq]
      simp
    · refine iff_of_true (Nat.not_lt.mpr (b.bucket_le v)) fun p hp => ?_
      rw [upper?_of_le (Nat.le_refl _)] at hp
      cases hp
  have hlower : i ≤ b.bucket v ↔ ∀ p ∈ b.lower? i, p < x := by
    cases i with
    | zero => exact iff_of_true (Nat.zero_le _) fun p hp => by cases hp
    | succ i => exact lt_bucket_iff hx hi
  have htakes : b.Takes i v ↔ (∀ p ∈ b.lower? i, p < x) ∧ ∀ p ∈ b.upper? i, x ≤ p := by
    unfold Takes
    rw [hx]
    simp
  rw [htakes, ← hlower, ← hupper]
  omega

theorem exists_exact (hv : v ≠ .double .nan) : ∃ x, v.toExact? = some x :=
  Option.ne_none_iff_exists'.mp (mt Number.toExact?_eq_none_iff.mp hv)

/-- Every number but NaN is taken by exactly one bucket. -/
theorem existsUnique_takes (b : Boundaries) (hv : v ≠ .double .nan) :
    ∃! i, i ≤ b.size ∧ b.Takes i v := by
  obtain ⟨x, hx⟩ := exists_exact hv
  refine ⟨b.bucket v, ⟨b.bucket_le v, (bucket_eq_iff hx (b.bucket_le v)).mp rfl⟩, ?_⟩
  rintro i ⟨hi, htakes⟩
  exact ((bucket_eq_iff hx hi).mpr htakes).symm

/-- The boundaries are in strictly increasing order of their values. -/
theorem pairwise_points (b : Boundaries) : b.points.Pairwise (· < ·) := by
  refine List.pairwise_map.mpr (b.increasing.imp_of_mem ?_)
  intro x y hx hy hlt
  have hexact : ∀ {z}, z ∈ b.values → (Number.double z).toExact? = some (.ofRat z.rational) :=
    fun hz => Binary64.toExact?_of_isFinite (b.isFinite hz)
  rw [← Number.lt_double, Number.lt_iff, hexact hx, hexact hy] at hlt
  obtain ⟨_, _, hp, hq, hlt⟩ := hlt
  cases hp
  cases hq
  exact Exact.ofRat_lt_ofRat.mp hlt

/-- The numbers that a bucket counts are those that it takes, if none of them is NaN. -/
theorem getElem?_bucketCounts {vs : List Number} (hvs : ∀ v ∈ vs, v ≠ .double .nan)
    (hi : i ≤ b.size) : (b.bucketCounts vs)[i]? = some (vs.countP fun v => b.Takes i v) := by
  unfold bucketCounts
  rw [List.getElem?_map, List.getElem?_range (Nat.lt_succ_of_le hi), Option.map_some]
  refine congrArg some (List.countP_congr fun v hv => ?_)
  obtain ⟨x, hx⟩ := exists_exact (hvs v hv)
  rw [decide_eq_true_eq, decide_eq_true_eq, bucket_eq_iff hx hi]

end Boundaries

/-! ### Recording -/

namespace Aggregator

/-- The aggregator to which scalars are given one after the other; one that it refuses changes
nothing. -/
def recordAll (a : Aggregator) (xs : List Scalar) : Aggregator :=
  xs.foldl (fun a x => (a.record x).toOption.getD a) a

/-- The values among scalars that are measurements. -/
def measured (α : Type) [Recordable α] (xs : List Scalar) : List α :=
  xs.filterMap fun x => (Recordable.read x : Except RecordError α).toOption

theorem recordAll_concat (a : Aggregator) (xs : List Scalar) (x : Scalar) :
    a.recordAll (xs ++ [x]) = ((a.recordAll xs).record x).toOption.getD (a.recordAll xs) := by
  unfold recordAll
  rw [List.foldl_append]
  rfl

variable {α : Type} [Recordable α] {isTotal : α → List α → Prop} {a a' : Aggregator}
  {b : Boundaries} {vs : List α}

/-- A histogram records every measurement. -/
theorem exists_record_iff (h : Holds isTotal (.histogram b) a vs) (x : Scalar) :
    (∃ a', a.record x = .ok a') ↔ ∃ v : α, Recordable.read x = .ok v := by
  constructor
  · rintro ⟨a', ha'⟩
    obtain ⟨t, rfl, -⟩ := h
    rw [Recordable.record_eq] at ha'
    cases hx : (Recordable.read x : Except RecordError α) with
    | error e =>
      rw [hx] at ha'
      cases ha'
    | ok v => exact ⟨v, rfl⟩
  · rintro ⟨v, hv⟩
    exact h.record_of_read hv fun hs => by cases hs

/-- **Scalars** that are given to a histogram leave the measurements among them. -/
theorem holds_recordAll (hadd : AddsUp isTotal) (b : Boundaries) (xs : List Scalar) :
    Holds isTotal (.histogram b)
      ((fresh (.histogram b) (Recordable.valueType α)).recordAll xs) (measured α xs) := by
  induction xs using List.reverseRecOn with
  | nil => exact Holds.fresh hadd _
  | append_singleton xs x ih =>
    have hmeasured : measured α (xs ++ [x])
        = measured α xs ++ (Recordable.read x : Except RecordError α).toOption.toList := by
      unfold measured
      rw [List.filterMap_append]
      cases hx : (Recordable.read x : Except RecordError α).toOption <;> simp [hx]
    rw [recordAll_concat, hmeasured]
    cases hr : ((fresh (.histogram b) (Recordable.valueType α)).recordAll xs).record x with
    | ok a' =>
      obtain ⟨v, hv, hheld⟩ := ih.record hadd hr
      rw [hv]
      exact hheld
    | error e =>
      -- then the scalar is no measurement
      cases hx : (Recordable.read x : Except RecordError α) with
      | error e =>
        show Holds _ _ _ (measured α xs ++ [])
        rw [List.append_nil]
        exact ih
      | ok v =>
        obtain ⟨a', ha'⟩ := (exists_record_iff ih x).mpr ⟨v, hx⟩
        rw [hr] at ha'
        cases ha'

/-- The counts of a histogram. -/
def counts : Aggregator → List Nat
  | .long (.histogram _ _ counts) => counts
  | .double (.histogram _ _ counts) => counts
  | _ => []

theorem counts_of_holds {isTotal : Binary64 → List Binary64 → Prop} {vs : List Binary64}
    (h : Holds isTotal (.histogram b) a vs) : a.counts = b.bucketCounts (vs.map .double) := by
  obtain ⟨t, rfl, hshape, ht⟩ := h
  cases t with
  | histogram b' total counts =>
    obtain rfl : b' = b := Shape.histogram.inj hshape
    exact ht.2
  | _ => cases hshape

/-- Integers of any size are measured in long values, and nothing else is. -/
theorem read_long_iff {x : Scalar} {n : Int} :
    Recordable.read x = .ok n ↔ x = .number (.integer n) := by
  show longValue x = .ok n ↔ _
  rcases x with (m | y) | c | _ | t <;> simp [longValue, checkLong, Except.mapError]

/-- Numbers are measured in doubles, except integers that are too large for one. -/
theorem read_double_iff {x : Scalar} {y : Binary64} :
    Recordable.read x = .ok y ↔ ∃ n, x = .number n ∧ n.toBinary64? = some y := by
  show doubleValue x = .ok y ↔ _
  cases x with
  | number n =>
    unfold doubleValue checkDouble
    dsimp only
    cases hn : n.toBinary64? <;> simp [hn]
  | _ => simp [doubleValue, checkDouble]

end Aggregator

/-! ### Placement -/

namespace Boundaries

/-- The histogram to which scalars have been given one after the other. -/
def recorded (b : Boundaries) (v : ValueType) (xs : List Scalar) : Aggregator :=
  (Aggregator.fresh (.histogram b) v).recordAll xs

theorem holds_recorded_long (b : Boundaries) (xs : List Scalar) :
    Aggregator.Holds IsSum (.histogram b) (b.recorded .long xs) (Aggregator.measured Int xs) :=
  Aggregator.holds_recordAll addsUp_isSum b xs

theorem holds_recorded_double (b : Boundaries) (xs : List Scalar) :
    Aggregator.Holds AnyTotal (.histogram b) (b.recorded .double xs)
      (Aggregator.measured Binary64 xs) :=
  Aggregator.holds_recordAll addsUp_anyTotal b xs

/-- The value of a point counts some numbers, each in the bucket that takes it. -/
def Places (b : Boundaries) (vs : List Number) (value : PointValue) : Prop :=
  ∃ sum counts, value = .histogram sum b counts ∧ counts.length = b.size + 1 ∧
    (∀ i ≤ b.size, counts[i]? = some (vs.countP fun v => b.Takes i v)) ∧
    value.count? = some (totalCount counts) ∧ totalCount counts = vs.length

theorem places_bucketCounts (b : Boundaries) {vs : List Number} (hvs : ∀ v ∈ vs, v ≠ .double .nan)
    (sum : Number) : b.Places vs (.histogram sum b (b.bucketCounts vs)) :=
  ⟨sum, b.bucketCounts vs, rfl, b.length_bucketCounts vs,
    fun _ hi => getElem?_bucketCounts hvs hi, rfl, b.totalCount_bucketCounts vs⟩

theorem values_of_ofScalars {given : List Scalar} {b : Boundaries} (h : ofScalars given = .ok b) :
    given.mapM Scalar.toDouble = .ok b.values := by
  unfold ofScalars at h
  cases hd : given.mapM Scalar.toDouble with
  | error e =>
    rw [hd] at h
    cases h
  | ok doubles =>
    rw [hd] at h
    have hlist : (ofList doubles).mapError BoundaryArgumentError.boundary = .ok b := h
    rw [(ofList_eq_ok_iff.mp (Fallible.mapError_eq_ok hlist)).2]

/-- How a histogram with boundaries that are given as scalars places measurements. -/
structure Placement (given : List Scalar) (b : Boundaries) : Prop where
  /-- The boundaries are the doubles that the scalars stand for. -/
  values : given.mapM Scalar.toDouble = .ok b.values
  /-- They are finite. -/
  finite : ∀ y ∈ b.values, y.toExact? = some (.ofRat y.rational)
  /-- They increase. -/
  increasing : b.points.Pairwise (· < ·)
  /-- Halving finds the bucket of every number. -/
  search : ∀ v, b.search v = b.bucket v
  /-- Exactly one bucket takes a number that is not NaN. -/
  one : ∀ v, v ≠ .double .nan → ∃! i, i ≤ b.size ∧ b.Takes i v
  /-- Among long values integers are recorded, whatever their size. -/
  recorded_long : ∀ xs x, (∃ a, (b.recorded .long xs).record x = .ok a) ↔
    ∃ n : Int, x = .number (.integer n)
  /-- A point of long values counts those in each bucket. -/
  long : ∀ xs, Aggregator.measured Int xs ≠ [] → ∀ start stop labels, ∃ value,
    (b.recorded .long xs).point? start stop labels = some ⟨start, stop, labels, value⟩ ∧
      b.Places ((Aggregator.measured Int xs).map .integer) value
  /-- Among doubles numbers are recorded, except integers that are too large. -/
  recorded_double : ∀ xs x, (∃ a, (b.recorded .double xs).record x = .ok a) ↔
    ∃ y n, x = .number n ∧ n.toBinary64? = some y
  /-- A point of doubles counts those in each bucket. -/
  double : ∀ xs, Aggregator.measured Binary64 xs ≠ [] →
    (∀ y ∈ Aggregator.measured Binary64 xs, y ≠ .nan) → ∀ start stop labels, ∃ value,
    (b.recorded .double xs).point? start stop labels = some ⟨start, stop, labels, value⟩ ∧
      b.Places ((Aggregator.measured Binary64 xs).map .double) value
  /-- NaN adds one to one bucket, whatever has been recorded. -/
  nan : ∀ xs, ∃ a, (b.recorded .double xs).record (.number (.double .nan)) = .ok a ∧
    ∃ i < (b.recorded .double xs).counts.length,
      a.counts = (b.recorded .double xs).counts.modify i (· + 1)

/-- **Bucket placement.** -/
theorem bucket_placement (given : List Scalar) (b : Boundaries) (h : ofScalars given = .ok b) :
    Placement given b where
  values := values_of_ofScalars h
  finite _ hy := Binary64.toExact?_of_isFinite (b.isFinite hy)
  increasing := b.pairwise_points
  search := b.search_eq_bucket
  one _ hv := b.existsUnique_takes hv
  recorded_long xs x := by
    rw [Aggregator.exists_record_iff (b.holds_recorded_long xs)]
    exact exists_congr fun n => Aggregator.read_long_iff
  long xs hxs start stop labels := by
    have hvalue := Aggregator.value?_of_holds_long (b.holds_recorded_long xs)
    unfold Shape.summary at hvalue
    rw [if_neg hxs] at hvalue
    refine ⟨_, congrArg (Option.map _) hvalue, b.places_bucketCounts (fun v hv => ?_) _⟩
    obtain ⟨n, -, rfl⟩ := List.mem_map.mp hv
    exact fun heq => by cases heq
  recorded_double xs x := by
    rw [Aggregator.exists_record_iff (b.holds_recorded_double xs)]
    exact exists_congr fun y => Aggregator.read_double_iff
  double xs hxs hnan start stop labels := by
    have hvalue := Aggregator.value?_of_holds_double (b.holds_recorded_double xs)
    unfold Shape.Outlines at hvalue
    rw [if_neg hxs] at hvalue
    obtain ⟨sum, hvalue⟩ := hvalue
    refine ⟨_, congrArg (Option.map _) hvalue, b.places_bucketCounts (fun v hv => ?_) _⟩
    obtain ⟨y, hy, rfl⟩ := List.mem_map.mp hv
    exact fun heq => hnan y hy (Number.double.inj heq)
  nan xs := by
    have hheld := b.holds_recorded_double xs
    obtain ⟨a, ha⟩ := (Aggregator.exists_record_iff hheld (.number (.double .nan))).mpr
      ⟨.nan, Aggregator.read_double_iff.mpr ⟨.double .nan, rfl, rfl⟩⟩
    obtain ⟨y, -, hafter⟩ := hheld.record addsUp_anyTotal ha
    refine ⟨a, ha, b.bucket (.double y), ?_, ?_⟩
    · rw [Aggregator.counts_of_holds hheld, length_bucketCounts]
      exact Nat.lt_succ_of_le (b.bucket_le _)
    · rw [Aggregator.counts_of_holds hheld, Aggregator.counts_of_holds hafter, List.map_append,
        List.map_singleton, bucketCounts_concat]

/-- Zero, and the least integer above which doubles have gaps. -/
def upToGaps : Boundaries := ⟨[.ofInt 0, .ofInt (2 ^ 53)], by decide +kernel⟩

/-- Integers at and beside boundaries, of which one is no double. -/
def besideBoundaries : List Scalar := [0, 1, 2 ^ 53, 2 ^ 53 + 1].map fun n => .number (.integer n)

/-- An integer that is a boundary is in the bucket that ends there, and its successor is in the next
one, although no double is between them. -/
theorem bucket_placement_of_gap :
    ofScalars [.number (.integer 0), .number (.integer (2 ^ 53))] = .ok upToGaps ∧
      ∃ sum, (upToGaps.recorded .long besideBoundaries).point? 0 1 .empty
        = some ⟨0, 1, .empty, .histogram sum upToGaps [1, 2, 1]⟩ := by
  have hgiven : ofScalars [.number (.integer 0), .number (.integer (2 ^ 53))] = .ok upToGaps := by
    decide +kernel
  have h := bucket_placement _ _ hgiven
  obtain ⟨value, hpoint, sum, counts, rfl, hlength, hcounts, -⟩ :=
    h.long besideBoundaries (by decide) 0 1 .empty
  have htaken : (List.range 3).map (fun i => ((Aggregator.measured Int besideBoundaries).map
      Number.integer).countP fun v => upToGaps.Takes i v) = [1, 2, 1] := by
    decide +kernel
  have hcounts : counts = [1, 2, 1] := by
    rw [← htaken]
    refine List.ext_getElem? fun i => ?_
    by_cases hi : i < 3
    · rw [hcounts i (Nat.le_of_lt_succ hi), List.getElem?_map, List.getElem?_range hi,
        Option.map_some]
    · have hlength : counts.length = 3 := hlength
      rw [List.getElem?_eq_none (by omega), List.getElem?_eq_none (by simp; omega)]
  exact ⟨hgiven, sum, by rw [hpoint, hcounts]⟩

end Boundaries

end Metering
