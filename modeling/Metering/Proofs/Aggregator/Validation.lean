import Metering.Proofs.Aggregator.Placement
import Metering.Query
import Metering.Session.Standalone

/-!
# Which doubles are boundaries

The check of a list of doubles looks for a NaN anywhere, then for the leftmost neighbours that do
not increase, and tests only the two ends for infinity.  That is enough: where all neighbours
increase, negative infinity can only be the first double (`Boundaries.head?_of_bottom_mem`) and
positive infinity only the last one.

`boundary_validation` is the main statement.  A list is accepted just if all of its doubles are
finite and each is less than those after it, by exact value, and it is kept as it is; otherwise the
message is the first objection there is (`Boundaries.Objection`).
-/

namespace Metering

namespace Binary64

variable {x y z : Binary64}

/-! ### The order of exact values -/

/-- The exact value of the first double is less than that of the second one.  NaN has none. -/
def Below (x y : Binary64) : Prop := ∃ p ∈ x.toExact?, ∃ q ∈ y.toExact?, p < q

theorem below_iff : x.Below y ↔ x.lt y = true := by
  rw [← Number.lt_double, Number.lt_iff]
  constructor
  · rintro ⟨p, hp, q, hq, hlt⟩
    exact ⟨p, q, hp, hq, hlt⟩
  · rintro ⟨p, q, hp, hq, hlt⟩
    exact ⟨p, hp, q, hq, hlt⟩

instance (x y : Binary64) : Decidable (x.Below y) := decidable_of_iff _ below_iff.symm

theorem Below.trans (hxy : x.Below y) (hyz : y.Below z) : x.Below z :=
  below_iff.mpr (lt_trans (below_iff.mp hxy) (below_iff.mp hyz))

theorem not_below_bottom (x : Binary64) : ¬ x.Below (.infinity true) := by
  rintro ⟨p, -, q, hq, hlt⟩
  obtain rfl : ⊥ = q := Option.some.inj hq
  exact not_lt_bot hlt

/-- Among doubles that have an exact value, a comparison by "at least" says that the first one is
not less. -/
theorem ge_iff (hx : x ≠ .nan) (hy : y ≠ .nan) : x.ge y = true ↔ ¬ x.Below y := by
  constructor
  · intro hge hbelow
    have hlt := below_iff.mp hbelow
    unfold ge at hge
    rcases Bool.or_eq_true_iff.mp hge with hyx | heq
    · have hxx := lt_trans hlt hyx
      rw [lt_irrefl] at hxx
      cases hxx
    · have hyy : y.lt y = true := by
        rw [← Number.lt_double] at hlt ⊢
        rwa [Boundaries.lt_of_numericEq heq] at hlt
      rw [lt_irrefl] at hyy
      cases hyy
  · intro hnot
    by_contra hge
    refine hnot (below_iff.mpr (Boundaries.lt_of_ge_eq_false ?_ ?_ (Bool.eq_false_iff.mpr hge)))
    · exact mt (place?_eq_none_iff x).mp hx
    · exact mt (place?_eq_none_iff y).mp hy

/-- What is neither finite nor NaN is infinite. -/
theorem eq_infinity_of_not_isFinite (hx : x ≠ .nan) (h : ¬ x.isFinite = true) :
    ∃ negative, x = .infinity negative := by
  cases x with
  | nan => exact absurd rfl hx
  | infinity negative => exact ⟨negative, rfl⟩
  | finite negative units => exact absurd rfl h

end Binary64

namespace Boundaries

open Binary64

variable {values : List Binary64}

/-! ### Neighbours -/

/-- Where every double is less than those after it, no neighbours are found that do not increase. -/
theorem notIncreasing?_eq_none (hnan : .nan ∉ values) (h : values.Pairwise Below) :
    notIncreasing? values = none := by
  induction values with
  | nil => rfl
  | cons x rest ih =>
    cases rest with
    | nil => rfl
    | cons y rest =>
      obtain ⟨hx, hrest⟩ := List.pairwise_cons.mp h
      have hxn : x ≠ .nan := fun he => hnan (he ▸ List.mem_cons_self)
      have hyn : y ≠ .nan := fun he => hnan (he ▸ List.mem_cons_of_mem x List.mem_cons_self)
      have hge : ¬ x.ge y = true := fun hge => (ge_iff hxn hyn).mp hge (hx y List.mem_cons_self)
      unfold notIncreasing?
      rw [if_neg hge]
      exact ih (fun hmem => hnan (List.mem_cons_of_mem x hmem)) hrest

/-- The neighbours are the leftmost ones of which the first is not less than the second: up to them
every double is less than those after it. -/
def LeftmostDrop (values : List Binary64) (p q : Binary64) : Prop :=
  ∃ before after, values = before ++ p :: q :: after ∧ (before ++ [p]).Pairwise Below ∧ ¬ p.Below q

/-- **The leftmost neighbours** that do not increase are found. -/
theorem leftmostDrop_of_notIncreasing? (hnan : .nan ∉ values) {p q : Binary64}
    (h : notIncreasing? values = some (p, q)) : LeftmostDrop values p q := by
  induction values with
  | nil => cases h
  | cons x rest ih =>
    cases rest with
    | nil => cases h
    | cons y rest =>
      have hxn : x ≠ .nan := fun he => hnan (he ▸ List.mem_cons_self)
      have hyn : y ≠ .nan := fun he => hnan (he ▸ List.mem_cons_of_mem x List.mem_cons_self)
      unfold notIncreasing? at h
      split at h
      · next hge =>
        obtain ⟨rfl, rfl⟩ := Prod.mk.inj (Option.some.inj h)
        exact ⟨[], rest, rfl, List.pairwise_singleton _ _, (ge_iff hxn hyn).mp hge⟩
      · next hge =>
        have hxy : x.Below y := by
          by_contra hnot
          exact hge ((ge_iff hxn hyn).mpr hnot)
        obtain ⟨before, after, hvalues, hbefore, hpq⟩ :=
          ih (fun hmem => hnan (List.mem_cons_of_mem x hmem)) h
        refine ⟨x :: before, after, by rw [hvalues, List.cons_append], ?_, hpq⟩
        rw [List.cons_append, List.pairwise_cons]
        refine ⟨fun z hz => ?_, hbefore⟩
        -- the second double of the list is the first one of what comes before the drop
        cases before with
        | nil =>
          obtain rfl := List.mem_singleton.mp hz
          obtain ⟨rfl, -⟩ := List.cons.inj hvalues
          exact hxy
        | cons w before =>
          obtain ⟨rfl, -⟩ := List.cons.inj hvalues
          rcases List.mem_cons.mp hz with rfl | hz
          · exact hxy
          · exact hxy.trans ((List.pairwise_cons.mp hbefore).1 z hz)

/-! ### Ends -/

/-- Nothing is below negative infinity, so it comes first. -/
theorem head?_of_bottom_mem (h : values.Pairwise Below) (hmem : .infinity true ∈ values) :
    values.head? = some (.infinity true) := by
  cases values with
  | nil => cases hmem
  | cons x rest =>
    rcases List.mem_cons.mp hmem with rfl | hmem
    · rfl
    · exact absurd ((List.pairwise_cons.mp h).1 _ hmem) (not_below_bottom x)

/-! ### Objections -/

/-- What a message objects to in a list of doubles.  An objection is made only where there is none
of those before it. -/
inductive Objection (values : List Binary64) : String → Prop where
  /-- There is a NaN. -/
  | nan : .nan ∈ values → Objection values "invalid bucket boundary: NaN"
  /-- Two neighbours do not increase. -/
  | notIncreasing {p q : Binary64} : .nan ∉ values → LeftmostDrop values p q →
      Objection values ("invalid bucket boundary: " ++ (p.text ++ " >= " ++ q.text))
  /-- There is negative infinity. -/
  | bottom : .nan ∉ values → values.Pairwise Below → .infinity true ∈ values →
      Objection values "invalid bucket boundary: -Inf"
  /-- There is positive infinity. -/
  | top : .nan ∉ values → values.Pairwise Below → .infinity true ∉ values →
      .infinity false ∈ values → Objection values "invalid bucket boundary: +Inf"

theorem any_isNaN_iff : values.any isNaN = true ↔ .nan ∈ values := by
  rw [List.any_eq_true]
  constructor
  · rintro ⟨x, hx, hnan⟩
    cases x with
    | nan => exact hx
    | infinity => cases hnan
    | finite => cases hnan
  · exact fun hmem => ⟨.nan, hmem, rfl⟩

/-- What is found at the ends is the objection to infinities anywhere. -/
theorem objection_of_endFault? (hnan : .nan ∉ values) (hincreasing : values.Pairwise Below)
    {e : BoundaryError} (h : endFault? values = some e) : Objection values e.message := by
  unfold endFault? at h
  split at h
  · next hhead =>
    obtain rfl := Option.some.inj h
    exact .bottom hnan hincreasing (List.mem_of_mem_head? hhead)
  · next hhead =>
    have hbottom : .infinity true ∉ values := mt (head?_of_bottom_mem hincreasing) hhead
    split at h
    swap
    · cases h
    next hlast =>
    obtain rfl := Option.some.inj h
    obtain ⟨x, hx, hfinite⟩ := (Option.any_eq_true _ _).mp hlast
    have hmem : x ∈ values := List.mem_of_getLast? hx
    obtain ⟨negative, rfl⟩ := eq_infinity_of_not_isFinite (x := x) (fun he => hnan (he ▸ hmem))
      (by simpa using hfinite)
    -- negative infinity would stand at the front too, where it was looked for first
    cases negative with
    | true => exact absurd hmem hbottom
    | false => exact .top hnan hincreasing hbottom hmem

/-- **What is wrong** with a list is the first objection to it. -/
theorem objection_of_fault? {e : BoundaryError} (h : fault? values = some e) :
    Objection values e.message := by
  unfold fault? at h
  split at h
  · next hany =>
    obtain rfl := Option.some.inj h
    exact .nan (any_isNaN_iff.mp hany)
  · next hany =>
    have hnan : .nan ∉ values := mt any_isNaN_iff.mpr hany
    cases hdrop : notIncreasing? values with
    | some pair =>
      simp only [hdrop] at h
      obtain rfl := Option.some.inj h
      exact .notIncreasing hnan (leftmostDrop_of_notIncreasing? hnan hdrop)
    | none =>
      simp only [hdrop] at h
      have hplaced : ∀ x ∈ values, x.place? ≠ none := fun x hx hnone =>
        hnan ((place?_eq_none_iff x).mp hnone ▸ hx)
      have hincreasing : values.Pairwise Below :=
        (pairwise_of_notIncreasing? hplaced hdrop).imp below_iff.mpr
      exact objection_of_endFault? hnan hincreasing h

/-- **Nothing is wrong** just with finite doubles in strictly increasing order. -/
theorem fault?_eq_none_iff :
    fault? values = none ↔ (∀ x ∈ values, x.isFinite = true) ∧ values.Pairwise Below := by
  constructor
  · intro h
    let b : Boundaries := ⟨values, h⟩
    exact ⟨fun x hx => b.isFinite hx, b.increasing.imp below_iff.mpr⟩
  · rintro ⟨hfinite, hincreasing⟩
    have hnan : .nan ∉ values := fun hmem => by cases hfinite _ hmem
    have hhead : values.head? ≠ some (.infinity true) := fun hhead => by
      cases hfinite _ (List.mem_of_mem_head? hhead)
    have hlast : ¬ (values.getLast?.any fun x => !x.isFinite) = true := by
      intro hany
      obtain ⟨x, hx, hnot⟩ := (Option.any_eq_true _ _).mp hany
      rw [hfinite x (List.mem_of_getLast? hx)] at hnot
      cases hnot
    refine faultless_iff.mpr ⟨?_, notIncreasing?_eq_none hnan hincreasing, ?_⟩
    · rw [← Bool.not_eq_true, any_isNaN_iff]
      exact hnan
    · unfold endFault?
      rw [if_neg hhead, if_neg hlast]

/-! ### Validation -/

/-- Doubles as a caller gives them. -/
def given (values : List Binary64) : List Scalar := values.map fun x => .number (.double x)

theorem mapM_toDouble_given (values : List Binary64) :
    (given values).mapM Scalar.toDouble = .ok values := by
  induction values with
  | nil => rfl
  | cons x rest ih =>
    have hx : Scalar.toDouble (.number (.double x)) = .ok x := rfl
    show (Scalar.number (.double x) :: given rest).mapM Scalar.toDouble = _
    rw [List.mapM_cons, ih, hx]
    rfl

theorem boundaries_given_of_none (h : fault? values = none) :
    Query.boundaries (given values) = .ok ⟨values, h⟩ := by
  have hlist : ofList values = .ok ⟨values, h⟩ := ofList_eq_ok_iff.mpr ⟨h, rfl⟩
  unfold Query.boundaries ofScalars
  rw [mapM_toDouble_given]
  show ((ofList values).mapError _).mapError _ = _
  rw [hlist]
  rfl

theorem boundaries_given_of_some {e : BoundaryError} (h : fault? values = some e) :
    Query.boundaries (given values) = .error (.boundaries (.boundary e)) := by
  have hlist : ofList values = .error e := by
    unfold ofList
    split
    · next h' => rw [Option.some.inj (h'.symm.trans h)]
    · next h' => cases h'.symm.trans h
  unfold Query.boundaries ofScalars
  rw [mapM_toDouble_given]
  show ((ofList values).mapError _).mapError _ = _
  rw [hlist]
  rfl

/-- An aggregation of a histogram takes the boundaries that are accepted, and is refused with
them. -/
theorem aggregation_eq (scalars : List Scalar) :
    Query.aggregation (.histogram (some scalars))
      = (Query.boundaries scalars).map Aggregation.histogram := by
  show ((ofScalars scalars).map Aggregation.histogram).mapError Failure.boundaries
    = ((ofScalars scalars).mapError Failure.boundaries).map Aggregation.histogram
  cases ofScalars scalars <;> rfl

/-- No aggregator is made where boundaries are refused, and nothing else changes. -/
theorem create_of_refused {scalars : List Scalar} {f : Failure}
    (h : Query.boundaries scalars = .error f) {σ : Type} (s : System σ) (id : String)
    (v : ValueType) :
    (AggregatorStep.create id (.histogram (some scalars)) v).perform s = (.error f, s) := by
  have hbuild : (ShapeSpec.histogram (some scalars)).build.mapError Failure.boundaries
      = .error f := by
    unfold Query.boundaries at h
    show ((ofScalars scalars).map Shape.histogram).mapError Failure.boundaries = _
    cases hs : ofScalars scalars with
    | ok b =>
      rw [hs] at h
      cases h
    | error e =>
      rw [hs] at h
      obtain rfl := Except.error.inj h
      rfl
  unfold AggregatorStep.perform
  simp only [hbuild, Fallible.bind_apply]
  rfl

/-- How a list of doubles is judged as boundaries. -/
structure Validation (values : List Binary64) : Prop where
  /-- Just finite doubles in strictly increasing order are accepted. -/
  accepted_iff : (∃ b, Query.boundaries (given values) = .ok b) ↔
    (∀ x ∈ values, x.isFinite = true) ∧ values.Pairwise Below
  /-- What is accepted is kept as it is. -/
  unchanged : ∀ b, Query.boundaries (given values) = .ok b → b.values = values
  /-- What is refused is an invalid value, and the message is the first objection to it. -/
  refused : ∀ f, Query.boundaries (given values) = .error f →
    f.category = .invalidValue ∧ Objection values f.message
  /-- An aggregation accepts and refuses the same. -/
  aggregation : Query.aggregation (.histogram (some (given values)))
    = (Query.boundaries (given values)).map Aggregation.histogram
  /-- Where boundaries are refused, no aggregator is made, and nothing else changes. -/
  nothing_made : ∀ f, Query.boundaries (given values) = .error f →
    ∀ (σ : Type) (s : System σ) (id : String) (v : ValueType),
      (AggregatorStep.create id (.histogram (some (given values))) v).perform s = (.error f, s)

/-- **Validation** of boundaries is exact, for any doubles. -/
theorem boundary_validation (values : List Binary64) : Validation values where
  accepted_iff := by
    rw [← fault?_eq_none_iff]
    constructor
    · rintro ⟨b, hb⟩
      cases hfault : fault? values with
      | none => rfl
      | some e =>
        rw [boundaries_given_of_some hfault] at hb
        cases hb
    · exact fun hnone => ⟨⟨values, hnone⟩, boundaries_given_of_none hnone⟩
  unchanged b hb := by
    have hdoubles := values_of_ofScalars (Fallible.mapError_eq_ok hb)
    rw [mapM_toDouble_given] at hdoubles
    exact (Except.ok.inj hdoubles).symm
  refused f hf := by
    cases hfault : fault? values with
    | none =>
      rw [boundaries_given_of_none hfault] at hf
      cases hf
    | some e =>
      rw [boundaries_given_of_some hfault] at hf
      obtain rfl := Except.error.inj hf
      exact ⟨rfl, objection_of_fault? hfault⟩
  aggregation := aggregation_eq (given values)
  nothing_made f hf σ s id v := create_of_refused hf s id v

/-- Neighbours that do not increase are told before an infinity that comes earlier. -/
example : (fault? [.infinity true, .infinity false, .ofInt 1]).map BoundaryError.message
    = some "invalid bucket boundary: inf >= 1.0" := by decide +kernel

end Boundaries

end Metering
