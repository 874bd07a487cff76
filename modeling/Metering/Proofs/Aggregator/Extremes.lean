import Metering.Aggregator.Tally
import Mathlib.Data.List.Basic
import Mathlib.Data.List.Find

/-!
# The least and the greatest of recorded values

A summary keeps the first of the extreme values it has seen, starting from an infinity that no
number loses to.  Two facts carry everything that is proved of summaries:

* `KeepsBest.foldl_keep`: what is kept of two lists after one another is what is kept of the two
  results, so summaries can be merged;
* `leastOf_integers` and `leastOf_doubles`, with their counterparts for the greatest, say what is
  kept in the usual words: the minimum of the integers, and of the doubles that are not NaN the
  first one that no other is below.
-/

namespace Metering

/-! ### Keeping the better of two numbers -/

/-- The first number unless the second one beats it. -/
def keep (beats : Number → Number → Bool) (a b : Number) : Number := if beats b a then b else a

/-- A strict order on the numbers that have a place.  NaN, which has none, beats nothing, and there
is one number that loses to every other. -/
structure KeepsBest (beats : Number → Number → Bool) (worst : Number) : Prop where
  /-- No number beats itself. -/
  irrefl : ∀ a, beats a a = false
  /-- Beating is transitive. -/
  trans : ∀ {a b c}, beats b a = true → beats c b = true → beats c a = true
  /-- So is not beating, as long as the number in the middle has a place. -/
  not_trans : ∀ {a b c}, b.place? ≠ none → beats b a = false → beats c b = false →
    beats c a = false
  /-- A number without a place beats nothing. -/
  unplaced : ∀ {a b}, b.place? = none → beats b a = false
  /-- The worst number has a place. -/
  worst_placed : worst.place? ≠ none
  /-- The worst number beats nothing. -/
  worst_beats : ∀ {a}, beats worst a = false
  /-- Every other number that has a place beats the worst one. -/
  beats_worst : ∀ {a}, a.place? ≠ none → a ≠ worst → beats a worst = true

/-- The first number with a place that nothing in the list beats; the worst one if there is
none. -/
def best (beats : Number → Number → Bool) (worst : Number) (xs : List Number) : Number :=
  (xs.find? fun x => x.place?.isSome && xs.all fun y => !beats y x).getD worst

namespace KeepsBest

variable {beats : Number → Number → Bool} {worst : Number}

theorem keep_of_unplaced (h : KeepsBest beats worst) {a b : Number} (hb : b.place? = none) :
    keep beats a b = a := by
  rw [keep, h.unplaced hb]
  rfl

theorem keep_worst (h : KeepsBest beats worst) {a : Number} (ha : a.place? ≠ none) :
    keep beats worst a = a := by
  by_cases hw : a = worst
  · rw [hw, keep, ite_self]
  · rw [keep, h.beats_worst ha hw]
    rfl

theorem keep_placed (h : KeepsBest beats worst) {a b : Number} (ha : a.place? ≠ none) :
    (keep beats a b).place? ≠ none := by
  by_cases hb : b.place? = none
  · rwa [h.keep_of_unplaced hb]
  · unfold keep
    split
    · exact hb
    · exact ha

theorem keep_assoc (h : KeepsBest beats worst) (a : Number) {b : Number} (hb : b.place? ≠ none)
    (c : Number) : keep beats (keep beats a b) c = keep beats a (keep beats b c) := by
  unfold keep
  cases hba : beats b a with
  | true =>
    cases hcb : beats c b with
    | true => simp [hcb, h.trans hba hcb]
    | false => simp [hcb, hba]
  | false =>
    cases hcb : beats c b with
    | true => simp
    | false => simp [hba, h.not_trans hb hba hcb]

theorem foldl_placed (h : KeepsBest beats worst) (xs : List Number) {a : Number}
    (ha : a.place? ≠ none) : (xs.foldl (keep beats) a).place? ≠ none := by
  induction xs generalizing a with
  | nil => exact ha
  | cons x xs ih => exact ih (h.keep_placed ha)

/-- **Merging**: going through a list from any number on keeps the better of that number and what
the list keeps by itself. -/
theorem foldl_keep (h : KeepsBest beats worst) (a : Number) (xs : List Number) :
    xs.foldl (keep beats) a = keep beats a (xs.foldl (keep beats) worst) := by
  induction xs generalizing a with
  | nil => simp [keep, h.worst_beats]
  | cons x xs ih =>
    rw [List.foldl_cons, List.foldl_cons, ih (keep beats a x), ih (keep beats worst x)]
    by_cases hx : x.place? = none
    · -- a number without a place is skipped on both sides
      rw [h.keep_of_unplaced hx, h.keep_of_unplaced hx,
        h.keep_worst (h.foldl_placed xs h.worst_placed)]
    · rw [h.keep_worst hx, h.keep_assoc a hx]

theorem foldl_eq_worst_or_mem (h : KeepsBest beats worst) (xs : List Number) :
    xs.foldl (keep beats) worst = worst ∨ xs.foldl (keep beats) worst ∈ xs := by
  induction xs with
  | nil => exact Or.inl rfl
  | cons x xs ih =>
    rw [List.foldl_cons, h.foldl_keep, keep]
    split
    · exact ih.imp_right (List.mem_cons_of_mem x)
    · by_cases hx : x.place? = none
      · exact Or.inl (h.keep_of_unplaced hx)
      · rw [h.keep_worst hx]
        exact Or.inr List.mem_cons_self

/-- Nothing in a list beats what is kept of it. -/
theorem foldl_unbeaten (h : KeepsBest beats worst) {xs : List Number} {y : Number} (hy : y ∈ xs) :
    beats y (xs.foldl (keep beats) worst) = false := by
  have hp := h.foldl_placed xs h.worst_placed
  induction xs with
  | nil => cases hy
  | cons x xs ih =>
    rw [List.foldl_cons, h.foldl_keep] at hp ⊢
    have hr := h.foldl_placed xs h.worst_placed
    by_cases hx : x.place? = none
    · rw [h.keep_of_unplaced hx, h.keep_worst hr]
      rcases List.mem_cons.mp hy with rfl | hy
      · exact h.unplaced hx
      · exact ih hy hr
    · rw [h.keep_worst hx, keep]
      cases hb : beats (xs.foldl (keep beats) worst) x with
      | true =>
        -- what the rest keeps beats the first number, so that does not beat it
        rw [if_pos rfl]
        rcases List.mem_cons.mp hy with rfl | hy
        · cases hyr : beats y (xs.foldl (keep beats) worst) with
          | false => rfl
          | true => rw [← h.trans hyr hb, h.irrefl]
        · exact ih hy hr
      | false =>
        -- the first number is kept, and the rest does not beat what it keeps by itself
        rw [if_neg Bool.false_ne_true]
        rcases List.mem_cons.mp hy with rfl | hy
        · exact h.irrefl y
        · exact h.not_trans hr hb (ih hy hr)

theorem foldl_eq_best (h : KeepsBest beats worst) (xs : List Number) :
    xs.foldl (keep beats) worst = best beats worst xs := by
  induction xs with
  | nil => rfl
  | cons x xs ih =>
    have hr := h.foldl_placed xs h.worst_placed
    rw [List.foldl_cons, h.foldl_keep]
    unfold best at ih ⊢
    rw [List.find?_cons]
    by_cases hx : x.place? = none
    · rw [h.keep_of_unplaced hx, h.keep_worst hr, ih]
      simp only [hx, Option.isSome_none, Bool.false_and, List.all_cons, h.unplaced hx,
        Bool.not_false, Bool.true_and]
    · rw [h.keep_worst hx, keep]
      cases hb : beats (xs.foldl (keep beats) worst) x with
      | true =>
        -- the rest keeps something that is in the rest and beats the first number
        have hmem : xs.foldl (keep beats) worst ∈ xs := by
          refine (h.foldl_eq_worst_or_mem xs).resolve_left fun hw => ?_
          rw [hw, h.worst_beats] at hb
          cases hb
        -- so looking for the first number that nothing beats skips the first one of all
        have hsame : ∀ z ∈ xs, (z.place?.isSome && (x :: xs).all fun y => !beats y z)
            = (z.place?.isSome && xs.all fun y => !beats y z) := by
          intro z _
          cases hall : xs.all fun y => !beats y z with
          | false => simp [hall]
          | true =>
            have hrz := List.all_eq_true.mp hall _ hmem
            cases hxz : beats x z with
            | false => simp [hall, hxz]
            | true => simp [h.trans hxz hb] at hrz
        have hfirst : (x.place?.isSome && (x :: xs).all fun y => !beats y x) = false := by
          have : (xs.all fun y => !beats y x) = false :=
            List.all_eq_false.mpr ⟨_, hmem, by simp [hb]⟩
          simp [this]
        rw [hfirst, if_pos rfl, ih]
        exact congrArg (Option.getD · worst) (List.find?_congr fun z hz => (hsame z hz).symm)
      | false =>
        -- nothing in the rest beats the first number, which is found at once
        have hall : ∀ y ∈ xs, beats y x = false := fun y hy =>
          h.not_trans hr hb (h.foldl_unbeaten hy)
        have hfirst : (x.place?.isSome && (x :: xs).all fun y => !beats y x) = true := by
          simp only [Bool.and_eq_true, List.all_cons, h.irrefl, Bool.not_false, Bool.true_and,
            List.all_eq_true, Bool.not_eq_true']
          exact ⟨Option.isSome_iff_ne_none.mpr hx, hall⟩
        rw [hfirst]
        rfl

end KeepsBest

/-! ### The two orders -/

namespace Place

theorem lt_of_not_lt_of_not_lt {a b c : Place} (hba : b.lt a = false) (hcb : c.lt b = false) :
    c.lt a = false := by
  cases a <;> cases b <;> cases c <;> simp_all [lt]
  omega

theorem not_lt_bottom (a : Place) : a.lt bottom = false := by
  cases a <;> rfl

theorem top_not_lt (a : Place) : top.lt a = false := by
  cases a <;> rfl

theorem lt_top {a : Place} (h : a ≠ top) : a.lt top = true := by
  cases a <;> simp_all [lt]

theorem bottom_lt {a : Place} (h : a ≠ bottom) : bottom.lt a = true := by
  cases a <;> simp_all [lt]

end Place

namespace Number

theorem place?_eq_top_iff {a : Number} : a.place? = some .top ↔ a = positiveInfinity := by
  constructor
  · rcases a with n | (_ | (_ | _) | _) <;> intro h <;> cases h
    rfl
  · rintro rfl
    rfl

theorem place?_eq_bottom_iff {a : Number} : a.place? = some .bottom ↔ a = negativeInfinity := by
  constructor
  · rcases a with n | (_ | (_ | _) | _) <;> intro h <;> cases h
    rfl
  · rintro rfl
    rfl

theorem lt_eq_true_iff {a b : Number} :
    a.lt b = true ↔ ∃ p q, a.place? = some p ∧ b.place? = some q ∧ p.lt q = true := by
  unfold lt
  cases a.place? <;> cases b.place? <;> simp

theorem lt_of_place? {a b : Number} {p q : Place} (ha : a.place? = some p)
    (hb : b.place? = some q) : a.lt b = p.lt q := by
  simp [lt, ha, hb]

theorem lt_of_unplaced_left {a b : Number} (h : a.place? = none) : a.lt b = false := by
  simp [lt, h]

theorem lt_of_unplaced_right {a b : Number} (h : b.place? = none) : a.lt b = false := by
  unfold lt
  rw [h]
  cases a.place? <;> rfl

theorem lt_irrefl (a : Number) : a.lt a = false := by
  unfold lt
  cases a.place? <;> simp [Place.lt_irrefl]

theorem lt_trans {a b c : Number} (hab : a.lt b = true) (hbc : b.lt c = true) :
    a.lt c = true := by
  obtain ⟨p, q, ha, hb, hpq⟩ := lt_eq_true_iff.mp hab
  obtain ⟨q', r, hb', hc, hqr⟩ := lt_eq_true_iff.mp hbc
  obtain rfl : q = q' := Option.some.inj (hb.symm.trans hb')
  exact lt_eq_true_iff.mpr ⟨p, r, ha, hc, Place.lt_trans hpq hqr⟩

theorem not_lt_trans {a b c : Number} (hb : b.place? ≠ none) (hba : b.lt a = false)
    (hcb : c.lt b = false) : c.lt a = false := by
  obtain ⟨q, hq⟩ := Option.ne_none_iff_exists'.mp hb
  cases ha : a.place? with
  | none => exact lt_of_unplaced_right ha
  | some p =>
    cases hc : c.place? with
    | none => exact lt_of_unplaced_left hc
    | some r =>
      rw [lt_of_place? hq ha] at hba
      rw [lt_of_place? hc hq] at hcb
      rw [lt_of_place? hc ha]
      exact Place.lt_of_not_lt_of_not_lt hba hcb

end Number

theorem keepLeast_eq_keep : keepLeast = keep fun b a => b.lt a := rfl

theorem keepGreatest_eq_keep : keepGreatest = keep fun b a => a.lt b := rfl

theorem keepsBest_least : KeepsBest (fun b a => b.lt a) positiveInfinity where
  irrefl := Number.lt_irrefl
  trans hba hcb := Number.lt_trans hcb hba
  not_trans := Number.not_lt_trans
  unplaced := Number.lt_of_unplaced_left
  worst_placed := by decide
  worst_beats := by
    intro a
    cases ha : a.place? with
    | none => exact Number.lt_of_unplaced_right ha
    | some p => rw [Number.lt_of_place? (Number.place?_eq_top_iff.mpr rfl) ha, Place.top_not_lt]
  beats_worst := by
    intro a ha hne
    obtain ⟨p, hp⟩ := Option.ne_none_iff_exists'.mp ha
    have hp' : p ≠ .top := fun h => hne (Number.place?_eq_top_iff.mp (h ▸ hp))
    rw [Number.lt_of_place? hp (Number.place?_eq_top_iff.mpr rfl), Place.lt_top hp']

theorem keepsBest_greatest : KeepsBest (fun b a => a.lt b) negativeInfinity where
  irrefl := Number.lt_irrefl
  trans hba hcb := Number.lt_trans hba hcb
  not_trans hb hba hcb := Number.not_lt_trans hb hcb hba
  unplaced := Number.lt_of_unplaced_right
  worst_placed := by decide
  worst_beats := by
    intro a
    cases ha : a.place? with
    | none => exact Number.lt_of_unplaced_left ha
    | some p =>
      rw [Number.lt_of_place? ha (Number.place?_eq_bottom_iff.mpr rfl), Place.not_lt_bottom]
  beats_worst := by
    intro a ha hne
    obtain ⟨p, hp⟩ := Option.ne_none_iff_exists'.mp ha
    have hp' : p ≠ .bottom := fun h => hne (Number.place?_eq_bottom_iff.mp (h ▸ hp))
    rw [Number.lt_of_place? (Number.place?_eq_bottom_iff.mpr rfl) hp, Place.bottom_lt hp']

/-! ### The extremes of a list -/

/-- What a summary keeps as the least of some numbers. -/
def leastOf (xs : List Number) : Number := xs.foldl keepLeast positiveInfinity

/-- What a summary keeps as the greatest of some numbers. -/
def greatestOf (xs : List Number) : Number := xs.foldl keepGreatest negativeInfinity

theorem leastOf_append (xs ys : List Number) :
    leastOf (xs ++ ys) = keepLeast (leastOf xs) (leastOf ys) := by
  unfold leastOf
  rw [List.foldl_append, keepLeast_eq_keep, keepsBest_least.foldl_keep]

theorem greatestOf_append (xs ys : List Number) :
    greatestOf (xs ++ ys) = keepGreatest (greatestOf xs) (greatestOf ys) := by
  unfold greatestOf
  rw [List.foldl_append, keepGreatest_eq_keep, keepsBest_greatest.foldl_keep]

theorem leastOf_concat (xs : List Number) (x : Number) :
    leastOf (xs ++ [x]) = keepLeast (leastOf xs) x := by
  rw [leastOf, List.foldl_append]
  rfl

theorem greatestOf_concat (xs : List Number) (x : Number) :
    greatestOf (xs ++ [x]) = keepGreatest (greatestOf xs) x := by
  rw [greatestOf, List.foldl_append]
  rfl

/-! ### In the usual words -/

theorem keepLeast_integer (a b : Int) :
    keepLeast (.integer a) (.integer b) = .integer (min a b) := by
  unfold keepLeast
  rw [Number.lt_integer]
  by_cases h : b < a
  · simp [h, Int.min_eq_right (Int.le_of_lt h)]
  · simp [h, Int.min_eq_left (Int.not_lt.mp h)]

theorem keepGreatest_integer (a b : Int) :
    keepGreatest (.integer a) (.integer b) = .integer (max a b) := by
  unfold keepGreatest
  rw [Number.lt_integer]
  by_cases h : a < b
  · simp [h, Int.max_eq_right (Int.le_of_lt h)]
  · simp [h, Int.max_eq_left (Int.not_lt.mp h)]

/-- The least of some integers is their minimum. -/
theorem leastOf_integers {vs : List Int} {m : Int} (h : vs.min? = some m) :
    leastOf (vs.map Number.integer) = .integer m := by
  cases vs with
  | nil => cases h
  | cons v vs =>
    rw [List.min?_cons'] at h
    obtain rfl := Option.some.inj h
    show (vs.map Number.integer).foldl keepLeast (.integer v) = _
    rw [List.foldl_map, List.foldl_hom Number.integer fun a b => keepLeast_integer a b]

/-- The greatest of some integers is their maximum. -/
theorem greatestOf_integers {vs : List Int} {m : Int} (h : vs.max? = some m) :
    greatestOf (vs.map Number.integer) = .integer m := by
  cases vs with
  | nil => cases h
  | cons v vs =>
    rw [List.max?_cons'] at h
    obtain rfl := Option.some.inj h
    show (vs.map Number.integer).foldl keepGreatest (.integer v) = _
    rw [List.foldl_map, List.foldl_hom Number.integer fun a b => keepGreatest_integer a b]

namespace Binary64

/-- Of some doubles that are not NaN the first one that no other is below; positive infinity if all
of them are NaN. -/
def firstLeast (xs : List Binary64) : Binary64 :=
  (xs.find? fun x => !x.isNaN && xs.all fun y => !y.lt x).getD (.infinity false)

/-- Of some doubles that are not NaN the first one that no other is above; negative infinity if all
of them are NaN. -/
def firstGreatest (xs : List Binary64) : Binary64 :=
  (xs.find? fun x => !x.isNaN && xs.all fun y => !x.lt y).getD (.infinity true)

theorem isSome_place? (x : Binary64) : x.place?.isSome = !x.isNaN := by
  rcases x with _ | (_ | _) | _ <;> rfl

end Binary64

theorem leastOf_doubles (xs : List Binary64) :
    leastOf (xs.map Number.double) = .double (Binary64.firstLeast xs) := by
  unfold leastOf
  rw [keepLeast_eq_keep, keepsBest_least.foldl_eq_best, best, List.find?_map]
  simp only [Function.comp_def, List.all_map, Number.lt_double, Number.place?,
    Binary64.isSome_place?, Binary64.firstLeast, positiveInfinity]
  cases xs.find? fun x => !x.isNaN && xs.all fun y => !y.lt x <;> rfl

theorem greatestOf_doubles (xs : List Binary64) :
    greatestOf (xs.map Number.double) = .double (Binary64.firstGreatest xs) := by
  unfold greatestOf
  rw [keepGreatest_eq_keep, keepsBest_greatest.foldl_eq_best, best, List.find?_map]
  simp only [Function.comp_def, List.all_map, Number.lt_double, Number.place?,
    Binary64.isSome_place?, Binary64.firstGreatest, negativeInfinity]
  cases xs.find? fun x => !x.isNaN && xs.all fun y => !x.lt y <;> rfl

example : Binary64.firstLeast [.nan, .finite true 0, .finite false 0] = .finite true 0 := by decide

end Metering
