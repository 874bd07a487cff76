import Metering.View
import Mathlib.Data.List.Induction
import Mathlib.Data.Set.Defs
import Mathlib.Logic.Equiv.Defs
import Mathlib.Order.Fin.Basic

/-!
# The view that decides

Views are added to a chooser one after the other, and the last one that covers an instrument
configures it (`Chooser.view?_eq_some_iff`).  A view covers the instruments of its kind whose
whole name is in the language of its pattern.  What the language of a written pattern is does not
matter here; all that is asked is that matching decides it (`Pattern.Decides`).

`views_take_precedence` is the main statement.  Besides the choice itself it says what one more view
changes, and that a sequence of views may be reordered as long as views that have an instrument in
common stay in their order.
-/

namespace Metering

/-! ### What a view covers -/

/-- Matching decides which names are in the language of a written pattern. -/
def Pattern.Decides (language : String → Set String) : Prop :=
  ∀ regex p, Pattern.parse regex = .ok p →
    ∀ name, p.matchesWhole name = true ↔ name ∈ language regex

/-- The selector is the one that is created for its kind and its written pattern. -/
def Selector.AsWritten (s : Selector) : Prop := Selector.create (.kind s.kind) s.regex = .ok s

theorem Selector.AsWritten.parse {s : Selector} (h : s.AsWritten) :
    Pattern.parse s.regex = .ok s.pattern := by
  unfold Selector.AsWritten Selector.create at h
  dsimp only at h
  cases hp : Pattern.parse s.regex with
  | error e =>
    rw [hp] at h
    cases h
  | ok p =>
    rw [hp] at h
    rw [← Except.ok.inj h]

namespace View

variable {language : String → Set String} {v w : View} {d : Descriptor}

/-- The instrument is of the kind of the view, and its whole name is in the language of the
pattern. -/
def Covers (language : String → Set String) (v : View) (d : Descriptor) : Prop :=
  d.kind = v.selector.kind ∧ d.name ∈ language v.selector.regex

/-- The views are for different kinds, or their patterns have no name in common. -/
def Apart (language : String → Set String) (v w : View) : Prop :=
  v.selector.kind ≠ w.selector.kind ∨
    ∀ name, name ∈ language v.selector.regex → name ∉ language w.selector.regex

theorem selects_iff (hlanguage : Pattern.Decides language) (hv : v.selector.AsWritten)
    (d : Descriptor) : v.selector.selects d = true ↔ v.Covers language d := by
  unfold Selector.selects Covers
  rw [Bool.and_eq_true, decide_eq_true_eq, hlanguage _ _ hv.parse]

/-- Views that are apart have no instrument in common. -/
theorem Apart.not_covers (h : v.Apart language w) (hv : v.Covers language d) :
    ¬ w.Covers language d := by
  intro hw
  rcases h with hkind | hname
  · exact hkind (hv.1.symm.trans hw.1)
  · exact hname d.name hv.2 hw.2

end View

/-! ### Views added one after the other -/

/-- What is found from the end of a list is at the last place of its kind. -/
theorem find?_reverse_eq_some_iff {α : Type} {p : α → Bool} {xs : List α} {x : α} :
    xs.reverse.find? p = some x ↔ ∃ i : Fin xs.length, xs[i] = x ∧ p xs[i] = true ∧
      ∀ j : Fin xs.length, i < j → p xs[j] = false := by
  simp only [List.find?_eq_some_iff_getElem, List.getElem_reverse, List.length_reverse,
    Bool.not_eq_true']
  constructor
  · rintro ⟨hx, k, hk, rfl, hlast⟩
    refine ⟨⟨xs.length - 1 - k, by omega⟩, rfl, hx, fun j hj => ?_⟩
    have hj : xs.length - 1 - k < j.val := hj
    have hplace : xs.length - 1 - (xs.length - 1 - j.val) = j.val := by omega
    have hfalse := hlast (xs.length - 1 - j.val) (by omega)
    simp only [hplace] at hfalse
    exact hfalse
  · rintro ⟨i, rfl, hx, hlast⟩
    have hplace : xs.length - 1 - (xs.length - 1 - i.val) = i.val := by omega
    refine ⟨hx, xs.length - 1 - i.val, by omega, by simp only [hplace]; rfl, fun k hk => ?_⟩
    exact hlast ⟨xs.length - 1 - k, by omega⟩ (Fin.lt_def.mpr (by dsimp only; omega))

namespace Chooser

/-- The chooser to which views have been added one after the other. -/
def ofViews (views : List View) : Chooser := views.foldl add empty

theorem ofViews_concat (views : List View) (v : View) :
    ofViews (views ++ [v]) = (ofViews views).add v := by
  unfold ofViews
  rw [List.foldl_append]
  rfl

/-- **The view of an instrument** is the last one that selects it. -/
theorem view?_ofViews (views : List View) (d : Descriptor) :
    (ofViews views).view? d = views.reverse.find? (·.selector.selects d) := by
  induction views using List.reverseRecOn with
  | nil => rfl
  | append_singleton views v ih =>
    rw [ofViews_concat, view?_add, ih, List.reverse_append, List.reverse_singleton,
      List.singleton_append, List.find?_cons]
    cases v.selector.selects d <;> rfl

theorem choose_of_view? {c : Chooser} {d : Descriptor} {v : View} (h : c.view? d = some v) :
    c.choose d = v.configuration := by
  unfold choose
  rw [h]

theorem choose_of_none {c : Chooser} {d : Descriptor} (h : c.view? d = none) :
    c.choose d = d.kind.configuration := by
  unfold choose
  rw [h]

variable {language : String → Set String} {views : List View} {d : Descriptor}

/-- The view at a place covers the instrument, and no later one does. -/
def Last (language : String → Set String) (views : List View) (d : Descriptor)
    (i : Fin views.length) : Prop :=
  views[i].Covers language d ∧ ∀ j : Fin views.length, i < j → ¬ views[j].Covers language d

theorem view?_eq_some_iff (hlanguage : Pattern.Decides language)
    (hviews : ∀ v ∈ views, v.selector.AsWritten) {v : View} :
    (ofViews views).view? d = some v ↔ ∃ i, views[i] = v ∧ Last language views d i := by
  have hselects : ∀ i : Fin views.length,
      views[i].selector.selects d = true ↔ views[i].Covers language d := fun i =>
    View.selects_iff hlanguage (hviews _ (List.getElem_mem i.isLt)) d
  rw [view?_ofViews, find?_reverse_eq_some_iff]
  simp only [Last, ← hselects, Bool.not_eq_true]

theorem view?_eq_none_iff (hlanguage : Pattern.Decides language)
    (hviews : ∀ v ∈ views, v.selector.AsWritten) :
    (ofViews views).view? d = none ↔ ∀ v ∈ views, ¬ v.Covers language d := by
  rw [view?_ofViews, List.find?_eq_none]
  simp only [List.mem_reverse]
  exact forall₂_congr fun v hv => not_congr (View.selects_iff hlanguage (hviews v hv) d)

/-! ### Other orders -/

/-- A sequence has the views of another one in an order in which only such views have changed places
as are apart. -/
structure Reordered (language : String → Set String) (views others : List View)
    (place : Fin views.length ≃ Fin others.length) : Prop where
  /-- Every view has a place in the other order. -/
  view : ∀ i, others[place i] = views[i]
  /-- What comes earlier there than here is apart from what it has passed. -/
  apart : ∀ i j, i < j → place j < place i → views[i].Apart language views[j]

namespace Reordered

variable {others : List View} {place : Fin views.length ≃ Fin others.length}

theorem mem (h : Reordered language views others place) {v : View} (hv : v ∈ others) :
    v ∈ views := by
  obtain ⟨k, hk, rfl⟩ := List.getElem_of_mem hv
  obtain ⟨i, hi⟩ := place.surjective ⟨k, hk⟩
  have hview := h.view i
  simp only [hi] at hview
  exact hview ▸ List.getElem_mem i.isLt

/-- The last view that covers an instrument is the same. -/
theorem last (h : Reordered language views others place) {i : Fin views.length}
    (hi : Last language views d i) : Last language others d (place i) := by
  refine ⟨by rw [h.view]; exact hi.1, fun k hk hcovers => ?_⟩
  obtain ⟨j, rfl⟩ := place.surjective k
  rw [h.view] at hcovers
  rcases lt_trichotomy i j with hij | rfl | hji
  · exact hi.2 j hij hcovers
  · exact lt_irrefl _ hk
  · -- then the two views have changed places, although both cover the instrument
    exact (h.apart j i hji hk).not_covers hcovers hi.1

end Reordered

/-! ### Precedence -/

/-- What a sequence of views decides. -/
structure Precedence (language : String → Set String) (views : List View) : Prop where
  /-- An instrument has the configuration of the last view that covers it, and that of its kind just
  if none does. -/
  choice : ∀ d, (∃ i, Last language views d i ∧ (ofViews views).view? d = some views[i] ∧
      (ofViews views).choose d = views[i].configuration) ∨
    ((∀ v ∈ views, ¬ v.Covers language d) ∧ (ofViews views).view? d = none ∧
      (ofViews views).choose d = d.kind.configuration)
  /-- One more view configures the instruments that it covers, and changes nothing for others. -/
  added : ∀ v : View, v.selector.AsWritten → ∀ d,
    (v.Covers language d → ((ofViews views).add v).choose d = v.configuration) ∧
    (¬ v.Covers language d → ((ofViews views).add v).choose d = (ofViews views).choose d)
  /-- The order matters only of views that are not apart. -/
  reordered : ∀ others place, Reordered language views others place →
    ∀ d, (ofViews others).choose d = (ofViews views).choose d

/-- **Views take precedence** over those that were added before them. -/
theorem views_take_precedence (language : String → Set String)
    (hlanguage : Pattern.Decides language) (views : List View)
    (hviews : ∀ v ∈ views, v.selector.AsWritten) : Precedence language views where
  choice d := by
    cases hview : (ofViews views).view? d with
    | some v =>
      obtain ⟨i, rfl, hlast⟩ := (view?_eq_some_iff hlanguage hviews).mp hview
      exact Or.inl ⟨i, hlast, rfl, choose_of_view? hview⟩
    | none =>
      exact Or.inr ⟨(view?_eq_none_iff hlanguage hviews).mp hview, rfl, choose_of_none hview⟩
  added v hv d := by
    have hselects := View.selects_iff hlanguage hv d
    unfold choose
    rw [view?_add]
    constructor
    · intro hcovers
      rw [if_pos (hselects.mpr hcovers)]
    · intro hcovers
      rw [if_neg (mt hselects.mp hcovers)]
  reordered others place h d := by
    have hothers : ∀ v ∈ others, v.selector.AsWritten := fun v hv => hviews v (h.mem hv)
    cases hview : (ofViews views).view? d with
    | some v =>
      obtain ⟨i, rfl, hlast⟩ := (view?_eq_some_iff hlanguage hviews).mp hview
      have hsame : (ofViews others).view? d = some views[i] :=
        (view?_eq_some_iff hlanguage hothers).mpr ⟨place i, h.view i, h.last hlast⟩
      rw [choose_of_view? hview, choose_of_view? hsame]
    | none =>
      have hnone := (view?_eq_none_iff hlanguage hviews).mp hview
      have hsame : (ofViews others).view? d = none :=
        (view?_eq_none_iff hlanguage hothers).mpr fun v hv => hnone v (h.mem hv)
      rw [choose_of_none hview, choose_of_none hsame]

/-- The names that are matched by the pattern that is written. -/
def matchedNames (regex : String) : Set String :=
  fun name => (Pattern.parse regex).toOption.any (·.matchesWhole name) = true

instance (regex name : String) : Decidable (name ∈ matchedNames regex) :=
  inferInstanceAs (Decidable (_ = true))

theorem decides_matchedNames : Pattern.Decides matchedNames := by
  intro regex p hp name
  show _ ↔ (Pattern.parse regex).toOption.any (·.matchesWhole name) = true
  rw [hp]
  exact Iff.rfl

/-- A view of counters whose names match a written pattern. -/
def counters (regex : String) (aggregation : Aggregation) : View :=
  ⟨⟨.counter, regex, (Pattern.parse regex).toOption.getD .empty⟩, ⟨aggregation, .delta⟩⟩

/-- A view of all counters, one of those of a server, and one of those with a name that begins like
theirs. -/
def overlapping : List View :=
  [counters ".*" .count, counters "http\\..*" .lastValue, counters "http" .minMaxSumCount]

/-- The later of two views decides although a third one matches the beginning of the name, and a
view of all counters decides if it is added once more. -/
theorem views_take_precedence_of_overlap :
    let d : Descriptor := ⟨"http.requests", some "", some "1", .counter, .long⟩
    Pattern.Decides matchedNames ∧ (∀ v ∈ overlapping, v.selector.AsWritten) ∧
      (ofViews overlapping).choose d = ⟨.lastValue, .delta⟩ ∧
      ((ofViews overlapping).add (counters ".*" .count)).choose d = ⟨.count, .delta⟩ := by
  intro d
  have hviews : ∀ v ∈ overlapping, v.selector.AsWritten := by
    unfold Selector.AsWritten
    decide +kernel
  have h := views_take_precedence matchedNames decides_matchedNames overlapping hviews
  have hlater : ∀ i, Last matchedNames overlapping d i →
      overlapping[i].configuration = ⟨.lastValue, .delta⟩ := by
    unfold Last View.Covers
    decide +kernel
  have hcovers : ¬ ∀ v ∈ overlapping, ¬ v.Covers matchedNames d := by
    unfold View.Covers
    decide +kernel
  refine ⟨decides_matchedNames, hviews, ?_, ?_⟩
  · rcases h.choice d with ⟨i, hlast, -, hchoose⟩ | ⟨hnone, -⟩
    · rw [hchoose, hlater i hlast]
    · exact absurd hnone hcovers
  · have hall : d.name ∈ matchedNames ".*" := by decide +kernel
    exact (h.added _ (hviews _ List.mem_cons_self) d).1 ⟨rfl, hall⟩

end Chooser

end Metering
