import Metering.Proofs.Aggregator.History

/-!
# Combining points

A receiver of points that cover consecutive windows combines them into one: numbers add up, extremes
are compared, bucket counts add up, and of last values the later one stays.  The main statement is
`Shape.combined_summaries`: the points of consecutive blocks of values combine into the point of all
the values.
-/

namespace Metering

/-- The point of two consecutive windows of long values. -/
def Shape.combine (s : Shape) : PointValue → PointValue → PointValue
  | .number (.integer x), .number (.integer y) =>
    match s with
    | .lastValue => .number (.integer y)
    | _ => .number (.integer (x + y))
  | .summary m (.integer x) (.integer least) (.integer greatest),
      .summary n (.integer y) (.integer least') (.integer greatest') =>
    .summary (m + n) (.integer (x + y)) (.integer (min least least'))
      (.integer (max greatest greatest'))
  | .histogram (.integer x) b counts, .histogram (.integer y) _ counts' =>
    .histogram (.integer (x + y)) b (List.zipWith (· + ·) counts counts')
  | _, later => later

/-- What is known after one more point. -/
def Shape.combineNext (s : Shape) (known : Option PointValue) (next : PointValue) :
    Option PointValue :=
  match known with
  | none => some next
  | some value => some (s.combine value next)

/-- The points of consecutive windows combined, nothing if there are none. -/
def Shape.combined (s : Shape) (points : List PointValue) : Option PointValue :=
  points.foldl s.combineNext none

/-! ### Extremes of two lists -/

theorem min?_append {xs ys : List Int} {a b : Int} (hx : xs.min? = some a)
    (hy : ys.min? = some b) : (xs ++ ys).min? = some (min a b) := by
  cases xs with
  | nil => cases hx
  | cons x xs =>
    cases ys with
    | nil => cases hy
    | cons y ys =>
      rw [List.min?_cons'] at hx hy
      obtain rfl := Option.some.inj hx
      obtain rfl := Option.some.inj hy
      rw [List.cons_append, List.min?_cons', List.foldl_append, List.foldl_cons,
        List.foldl_assoc]

theorem max?_append {xs ys : List Int} {a b : Int} (hx : xs.max? = some a)
    (hy : ys.max? = some b) : (xs ++ ys).max? = some (max a b) := by
  cases xs with
  | nil => cases hx
  | cons x xs =>
    cases ys with
    | nil => cases hy
    | cons y ys =>
      rw [List.max?_cons'] at hx hy
      obtain rfl := Option.some.inj hx
      obtain rfl := Option.some.inj hy
      rw [List.cons_append, List.max?_cons', List.foldl_append, List.foldl_cons,
        List.foldl_assoc]

namespace Shape

theorem summary_discard (vs : List Int) : discard.summary vs = none := by
  unfold summary
  split <;> rfl

/-- Two points that are not empty combine into the point of both lists of values. -/
theorem combine_summary {s : Shape} {xs ys : List Int} {v w : PointValue}
    (hv : s.summary xs = some v) (hw : s.summary ys = some w) :
    s.summary (xs ++ ys) = some (s.combine v w) := by
  have hx : xs ≠ [] := by
    rintro rfl
    cases hv
  have hy : ys ≠ [] := by
    rintro rfl
    cases hw
  have hxy : xs ++ ys ≠ [] := List.append_ne_nil_of_left_ne_nil hx ys
  -- none of the three lists is empty, so each of the summaries is a point
  unfold summary at *
  rw [if_neg hx] at hv
  rw [if_neg hy] at hw
  rw [if_neg hxy]
  cases s with
  | discard => cases hv
  | sum monotonic =>
    obtain rfl := Option.some.inj hv
    obtain rfl := Option.some.inj hw
    rw [List.sum_append]
    rfl
  | count =>
    obtain rfl := Option.some.inj hv
    obtain rfl := Option.some.inj hw
    simp [combine]
  | lastValue =>
    obtain ⟨x, hlast, rfl⟩ := Option.map_eq_some_iff.mp hv
    obtain ⟨y, hlast', rfl⟩ := Option.map_eq_some_iff.mp hw
    rw [List.getLast?_append_of_ne_nil _ hy, hlast']
    rfl
  | minMaxSumCount =>
    obtain ⟨least, greatest, hleast, hgreatest⟩ := exists_extremes hx
    obtain ⟨least', greatest', hleast', hgreatest'⟩ := exists_extremes hy
    rw [hleast, hgreatest] at hv
    rw [hleast', hgreatest'] at hw
    obtain rfl := Option.some.inj hv
    obtain rfl := Option.some.inj hw
    rw [min?_append hleast hleast', max?_append hgreatest hgreatest', List.length_append,
      List.sum_append]
    rfl
  | histogram b =>
    obtain rfl := Option.some.inj hv
    obtain rfl := Option.some.inj hw
    dsimp only
    rw [List.sum_append, List.map_append, b.bucketCounts_append]
    rfl

/-- One more block of values. -/
theorem foldl_combineNext (s : Shape) (xs ys : List Int) :
    (s.summary ys).toList.foldl s.combineNext (s.summary xs) = s.summary (xs ++ ys) := by
  cases hw : s.summary ys with
  | none =>
    by_cases hs : s = .discard
    · subst hs
      rw [summary_discard, summary_discard]
      rfl
    · obtain rfl := (summary_eq_none_iff hs).mp hw
      rw [List.append_nil]
      rfl
  | some w =>
    cases hv : s.summary xs with
    | none =>
      by_cases hs : s = .discard
      · subst hs
        rw [summary_discard] at hw
        cases hw
      · obtain rfl := (summary_eq_none_iff hs).mp hv
        rw [List.nil_append, hw]
        rfl
    | some v => exact (combine_summary hv hw).symm

/-- **Combining** the points of consecutive blocks gives the point of all their values. -/
theorem combined_summaries (s : Shape) (blocks : List (List Int)) :
    s.combined (blocks.flatMap fun block => (s.summary block).toList)
      = s.summary blocks.flatten := by
  -- from the point of any values that are known already
  have hfrom : ∀ xs, (blocks.flatMap fun block => (s.summary block).toList).foldl s.combineNext
      (s.summary xs) = s.summary (xs ++ blocks.flatten) := by
    induction blocks with
    | nil =>
      intro xs
      rw [List.flatten_nil, List.append_nil]
      rfl
    | cons block blocks ih =>
      intro xs
      rw [List.flatMap_cons, List.foldl_append, s.foldl_combineNext, ih, List.flatten_cons,
        List.append_assoc]
  exact hfrom []

theorem foldl_combineNext_some (s : Shape) (value : PointValue) (points : List PointValue) :
    (points.foldl s.combineNext (some value)).isSome = true := by
  induction points generalizing value with
  | nil => rfl
  | cons x points ih => exact ih _

/-- Points combine into nothing just if there are none. -/
theorem combined_eq_none_iff (s : Shape) {points : List PointValue} :
    s.combined points = none ↔ points = [] := by
  cases points with
  | nil => exact iff_of_true rfl rfl
  | cons x points =>
    have hsome := s.foldl_combineNext_some x points
    refine iff_of_false (fun h => ?_) nofun
    change points.foldl s.combineNext (some x) = none at h
    rw [h] at hsome
    cases hsome

/-- The points of ever longer beginnings end with the point of all the values. -/
theorem getLast?_summaries (s : Shape) (blocks : List (List Int)) :
    ((List.range blocks.length).flatMap fun k =>
      (s.summary (blocks.take (k + 1)).flatten).toList).getLast? = s.summary blocks.flatten := by
  rcases List.eq_nil_or_concat blocks with rfl | ⟨earlier, block, rfl⟩
  · rfl
  rw [List.concat_eq_append, List.length_append, List.length_singleton, List.range_succ,
    List.flatMap_append, List.flatMap_singleton]
  have hall : (earlier ++ [block]).take (earlier.length + 1) = earlier ++ [block] :=
    List.take_of_length_le (by simp)
  rw [hall]
  cases hlast : s.summary (earlier ++ [block]).flatten with
  | some v => simp
  | none =>
    -- nothing is reported in the end, so nothing was ever recorded
    rw [Option.toList_none, List.append_nil, List.getLast?_eq_none_iff, List.flatMap_eq_nil_iff]
    intro k hk
    by_cases hs : s = .discard
    · rw [hs, summary_discard]
      rfl
    have hempty := (summary_eq_none_iff hs).mp hlast
    rw [List.flatten_eq_nil_iff] at hempty
    have hnone : ((earlier ++ [block]).take (k + 1)).flatten = [] :=
      List.flatten_eq_nil_iff.mpr fun b hb => hempty b (List.mem_of_mem_take hb)
    rw [hnone]
    rfl

end Shape

end Metering
