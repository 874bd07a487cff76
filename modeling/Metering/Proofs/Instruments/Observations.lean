import Metering.Proofs.Instruments.Callbacks
import Metering.Proofs.Labels.Mappings
import Metering.Proofs.Labels.Sorted

/-!
# What reaches the sink of a callback

A callback observes values as it runs, and it may report observations: one that generates them does
so as it runs, and any other hands them over at its end.  `Callback.observations` lists what reaches
the sink in this order.  The sink keeps the last value of each label set, which `Callback.lastFor`
reads off the list, and `Callback.outcome_eq_ok_iff` says that a callback comes to just that if it
raises nothing and all of its observations are good ones.

Labels given as a mapping count as the same label set in whatever order the keys stand
(`LabelSpec.labels_ofMapping_perm`).
-/

namespace Metering

variable {σ : Type}

/-! ### Labels in any order -/

namespace LabelSpec

/-- The label set that is described, if the description is a good one. -/
def labels (spec : LabelSpec) : Option LabelSet :=
  spec.argument.toOption.bind fun a => (LabelSet.create a).toOption

/-- A mapping of texts to texts, in the order in which its keys are given. -/
def ofMapping (ps : List (String × String)) : LabelSpec :=
  .pairs (ps.map fun p => (.text p.1, .text p.2))

theorem ofPairs_of_nodup {ps : List (String × String)} (h : (ps.map Prod.fst).Nodup) :
    Mapping.ofPairs (ps.map fun p => (.text p.1, .text p.2))
      = ⟨ps.map fun p => (.text p.1, .text p.2)⟩ := by
  refine Mapping.ofPairs_of_distinct (List.pairwise_map.mpr ((List.pairwise_map.mp h).imp ?_))
  intro p q hpq
  exact beq_eq_false_iff_ne.mpr hpq

theorem labels_ofMapping {ps : List (String × String)} (h : (ps.map Prod.fst).Nodup) :
    (ofMapping ps).labels
      = if ps.all fun p => !p.1.isEmpty then some (LabelSet.ofPairs ps) else none := by
  have hcheck : ∀ qs : List (String × String),
      (qs.map fun p => (Scalar.text p.1, Scalar.text p.2)).mapM LabelSet.checkPair
        = if qs.all fun p => !p.1.isEmpty then .ok qs else .error .emptyKey := by
    intro qs
    induction qs with
    | nil => rfl
    | cons p qs ih =>
      rw [List.map_cons, List.mapM_cons, ih, LabelSet.checkPair, List.all_cons]
      cases p.1.isEmpty with
      | true => rfl
      | false =>
        cases qs.all fun p => !p.1.isEmpty <;> rfl
  unfold labels ofMapping argument
  rw [ofPairs_of_nodup h]
  show (LabelSet.create _).toOption = _
  rw [LabelSet.create_eq_construct, LabelSet.construct, hcheck]
  split <;> rfl

/-- **A mapping** describes the same label set in whatever order its keys are given. -/
theorem labels_ofMapping_perm {ps ps' : List (String × String)} (h : ps.Perm ps')
    (hkeys : (ps.map Prod.fst).Nodup) : (ofMapping ps).labels = (ofMapping ps').labels := by
  have hkeys' : (ps'.map Prod.fst).Nodup := (h.map Prod.fst).nodup_iff.mp hkeys
  rw [labels_ofMapping hkeys, labels_ofMapping hkeys', LabelSet.ofPairs_perm h hkeys, h.all_eq]

end LabelSpec

/-! ### What a callback hands over -/

/-- The observation that an action makes as the callback runs. -/
def Action.atOnce? (generates : Bool) : Action σ → Option (Scalar × LabelSpec)
  | .observe value labels => some (value, labels)
  | .report value labels => if generates then some (value, labels) else none
  | .raise _ | .perform _ => none

/-- The observation that an action leaves to the end of the callback. -/
def Action.atEnd? (generates : Bool) : Action σ → Option (Scalar × LabelSpec)
  | .report value labels => if generates then none else some (value, labels)
  | .observe .. | .raise _ | .perform _ => none

/-- The action raises a failure. -/
def Action.Raises : Action σ → Prop
  | .raise _ => True
  | .observe .. | .report .. | .perform _ => False

instance (a : Action σ) : Decidable a.Raises :=
  match a with
  | .raise _ => .isTrue trivial
  | .observe .. | .report .. | .perform _ => .isFalse id

/-- The label set and the number of an observation, if it is a good one. -/
def ValueType.reading? (v : ValueType) (o : Scalar × LabelSpec) : Option (LabelSet × Number) :=
  (v.check o.1).toOption.bind fun n => o.2.labels.map fun l => (l, n)

/-- An observation whose labels cannot be built is no good one. -/
theorem ValueType.reading?_of_argument_error {v : ValueType} {value : Scalar} {labels : LabelSpec}
    {e : LabelError} (he : labels.argument = .error e) : v.reading? (value, labels) = none := by
  unfold ValueType.reading? LabelSpec.labels
  rw [he]
  exact Option.bind_eq_none_iff.mpr fun _ _ => rfl

namespace Callback

/-- What the next call observes, in the order in which it reaches the sink. -/
def observations (c : Callback σ) : List (Scalar × LabelSpec) :=
  c.script.filterMap (Action.atOnce? c.generates) ++ c.script.filterMap (Action.atEnd? c.generates)

/-- What the sink reads off the observations of the next call. -/
def readings (c : Callback σ) (v : ValueType) : List (LabelSet × Number) :=
  c.observations.filterMap v.reading?

/-- The next call raises nothing, and all that it observes is good. -/
def Completes (c : Callback σ) (v : ValueType) : Prop :=
  (∀ a ∈ c.script, ¬ a.Raises) ∧ ∀ o ∈ c.observations, (v.reading? o).isSome

instance (c : Callback σ) (v : ValueType) : Decidable (c.Completes v) :=
  inferInstanceAs (Decidable ((∀ a ∈ c.script, ¬ a.Raises) ∧
    ∀ o ∈ c.observations, (v.reading? o).isSome))

/-- The last value that the next call observes for a label set. -/
def lastFor (c : Callback σ) (v : ValueType) (l : LabelSet) : Option Number :=
  (((c.readings v).filter fun x => x.1 = l).map Prod.snd).getLast?

end Callback

/-! ### What the sink keeps -/

namespace Sink

variable {s s' : Sink}

/-- The sink after a reading. -/
def take (s : Sink) (x : LabelSet × Number) : Sink :=
  { s with observed := s.observed.insert x.1 x.2 }

/-- The sink after an observation, whose labels are built first. -/
def hear (s : Sink) (value : Scalar) (labels : LabelSpec) : Except Failure Sink :=
  match labels.argument.mapError Failure.labels with
  | .error e => .error e
  | .ok l => s.observe value l

theorem hear_of_argument {labels : LabelSpec} {l : LabelArgument} (hl : labels.argument = .ok l)
    (s : Sink) (value : Scalar) : s.hear value labels = s.observe value l := by
  unfold hear
  rw [hl]
  rfl

/-- A good observation is read, and no other one is. -/
theorem hear_eq_ok_iff {value : Scalar} {labels : LabelSpec} :
    s.hear value labels = .ok s' ↔
      ∃ x, s.valueType.reading? (value, labels) = some x ∧ s' = s.take x := by
  unfold hear observe ValueType.reading? LabelSpec.labels
  cases labels.argument with
  | error e =>
    refine iff_of_false nofun ?_
    rintro ⟨x, hx, -⟩
    cases hn : s.valueType.check value <;> rw [hn] at hx <;> cases hx
  | ok l =>
    simp only [Except.mapError, Except.toOption, Option.bind_some]
    cases s.valueType.check value with
    | error e => exact iff_of_false nofun nofun
    | ok n =>
      simp only [Option.bind_some]
      cases LabelSet.create l with
      | error e => exact iff_of_false nofun nofun
      | ok l =>
        constructor
        · intro h
          exact ⟨(l, n), rfl, (Except.ok.inj h).symm⟩
        · rintro ⟨x, hx, rfl⟩
          obtain rfl := Option.some.inj hx
          rfl

/-- The work after an observation goes on with the sink that has read it. -/
theorem hear_bind_eq_ok_iff {value : Scalar} {labels : LabelSpec} {f : Sink → Except Failure Sink} :
    (s.hear value labels).bind f = .ok s' ↔
      ∃ x, s.valueType.reading? (value, labels) = some x ∧ f (s.take x) = .ok s' := by
  constructor
  · intro h
    cases hs : s.hear value labels with
    | error e =>
      rw [hs] at h
      cases h
    | ok s₁ =>
      rw [hs] at h
      obtain ⟨x, hx, rfl⟩ := hear_eq_ok_iff.mp hs
      exact ⟨x, hx, h⟩
  · rintro ⟨x, hx, h⟩
    rw [hear_eq_ok_iff.mpr ⟨x, hx, rfl⟩]
    exact h

/-- All observations are good, and a sink has taken their readings one after the other. -/
def Hears (s : Sink) (os : List (Scalar × LabelSpec)) (s' : Sink) : Prop :=
  (∀ o ∈ os, (s.valueType.reading? o).isSome) ∧
    s' = (os.filterMap s.valueType.reading?).foldl take s

theorem hears_cons_iff {o : Scalar × LabelSpec} {os : List (Scalar × LabelSpec)} :
    s.Hears (o :: os) s' ↔ ∃ x, s.valueType.reading? o = some x ∧ (s.take x).Hears os s' := by
  unfold Hears
  rw [List.forall_mem_cons]
  constructor
  · rintro ⟨⟨ho, hos⟩, hs'⟩
    obtain ⟨x, hx⟩ := Option.isSome_iff_exists.mp ho
    rw [List.filterMap_cons_some hx] at hs'
    exact ⟨x, hx, hos, hs'⟩
  · rintro ⟨x, hx, hos, hs'⟩
    rw [List.filterMap_cons_some hx]
    exact ⟨⟨Option.isSome_iff_exists.mpr ⟨x, hx⟩, hos⟩, hs'⟩

/-- The reports that are left to the end are observations whose labels have been built. -/
def Left (os : List (Scalar × LabelSpec)) (reports : List (Scalar × LabelArgument)) : Prop :=
  List.Forall₂ (fun o r => o.1 = r.1 ∧ o.2.argument = .ok r.2) os reports

theorem observeAll_eq_ok_iff {os : List (Scalar × LabelSpec)}
    {reports : List (Scalar × LabelArgument)} (h : Left os reports) :
    s.observeAll reports = .ok s' ↔ s.Hears os s' := by
  induction h generalizing s with
  | nil => exact ⟨fun h => ⟨fun _ => nofun, (Except.ok.inj h).symm⟩, fun h => congrArg _ h.2.symm⟩
  | @cons o r os reports hr _ ih =>
    obtain ⟨value, labels⟩ := o
    obtain ⟨value', l⟩ := r
    obtain ⟨rfl, hl⟩ : value = value' ∧ labels.argument = .ok l := hr
    have hcons : s.observeAll ((value, l) :: reports)
        = (s.hear value labels).bind fun sink => sink.observeAll reports := by
      rw [observeAll, hear_of_argument hl]
      cases s.observe value l <;> rfl
    rw [hcons, hear_bind_eq_ok_iff, hears_cons_iff]
    simp only [ih]

theorem act_observe (generates : Bool) (value : Scalar) (labels : LabelSpec)
    (rest : List (Action σ)) (s : Sink) (reports : List (Scalar × LabelArgument)) :
    s.act generates (.observe value labels :: rest) reports
      = (s.hear value labels).bind fun sink => sink.act generates rest reports := by
  rw [act]
  unfold hear
  cases labels.argument.mapError Failure.labels with
  | error e => rfl
  | ok l =>
    dsimp only
    cases s.observe value l <;> rfl

/-- A callback that generates its reports observes them at once. -/
theorem act_report_generated (value : Scalar) (labels : LabelSpec) (rest : List (Action σ))
    (s : Sink) (reports : List (Scalar × LabelArgument)) :
    s.act true (.report value labels :: rest) reports
      = s.act true (.observe value labels :: rest) reports := by
  rw [act, act]
  cases labels.argument.mapError Failure.labels <;> rfl

/-- **A script** comes to the readings of its observations, those left to the end after the others,
if all of them are good and nothing is raised. -/
theorem act_eq_ok_iff {generates : Bool} {actions : List (Action σ)}
    {os : List (Scalar × LabelSpec)} {reports : List (Scalar × LabelArgument)}
    (h : Left os reports.reverse) :
    s.act generates actions reports = .ok s' ↔
      (∀ a ∈ actions, ¬ a.Raises) ∧
        s.Hears (actions.filterMap (Action.atOnce? generates) ++ os ++
          actions.filterMap (Action.atEnd? generates)) s' := by
  induction actions generalizing s os reports with
  | nil =>
    rw [act, observeAll_eq_ok_iff h]
    simp
  | cons a rest ih =>
    rw [List.forall_mem_cons]
    -- an observation that is made at once comes before those of the rest
    have hnow : ∀ value labels,
        ((s.hear value labels).bind fun sink => sink.act generates rest reports) = .ok s' ↔
          (∀ a ∈ rest, ¬ a.Raises) ∧
            s.Hears ((value, labels) :: rest.filterMap (Action.atOnce? generates) ++ os ++
              rest.filterMap (Action.atEnd? generates)) s' := by
      intro value labels
      rw [hear_bind_eq_ok_iff, List.cons_append, List.cons_append, hears_cons_iff]
      simp only [ih h]
      exact ⟨fun ⟨x, hx, hf, hs⟩ => ⟨hf, x, hx, hs⟩, fun ⟨hf, x, hx, hs⟩ => ⟨x, hx, hf, hs⟩⟩
    cases a with
    | observe value labels =>
      rw [act_observe, hnow, and_iff_right (show ¬ (Action.observe value labels).Raises from id)]
      rfl
    | report value labels =>
      rw [and_iff_right (show ¬ (Action.report value labels).Raises from id)]
      cases generates with
      | true =>
        rw [act_report_generated, act_observe, hnow]
        rfl
      | false =>
        rw [List.filterMap_cons_none
            (show Action.atOnce? false (.report value labels) = _ from rfl),
          List.filterMap_cons_some
            (show Action.atEnd? false (.report value labels) = _ from rfl), act]
        cases hl : labels.argument with
        | error e =>
          refine iff_of_false nofun fun hr => ?_
          have hgood := hr.2.1 (value, labels) (by simp)
          rw [ValueType.reading?_of_argument_error hl] at hgood
          cases hgood
        | ok l =>
          have hleft : Left (os ++ [(value, labels)]) ((value, l) :: reports).reverse := by
            rw [List.reverse_cons]
            exact List.rel_append h (.cons ⟨rfl, hl⟩ .nil)
          show s.act false rest ((value, l) :: reports) = .ok s' ↔ _
          rw [ih hleft]
          simp only [List.append_assoc, List.singleton_append]
    | raise f => exact iff_of_false nofun fun hr => hr.1.1 trivial
    | perform step =>
      rw [act, ih h, and_iff_right (show ¬ (Action.perform step).Raises from id)]
      rfl

/-- Of several readings for a label set the last one stays. -/
theorem get?_foldl_take (s : Sink) (xs : List (LabelSet × Number)) (l : LabelSet) :
    (xs.foldl take s).observed.get? l
      = ((xs.filter fun x => x.1 = l).map Prod.snd).getLast?.or (s.observed.get? l) := by
  induction xs using List.reverseRecOn with
  | nil => rfl
  | append_singleton xs x ih =>
    have hget : ((xs ++ [x]).foldl take s).observed.get? l
        = if l = x.1 then some x.2 else (xs.foldl take s).observed.get? l := by
      rw [List.foldl_concat]
      exact OrderedMap.get?_insert
    rw [hget, List.filter_append]
    by_cases hx : x.1 = l
    · have hlast : [x].filter (fun x => decide (x.1 = l)) = [x] := by simp [hx]
      rw [if_pos hx.symm, hlast, List.map_append, List.map_singleton, List.getLast?_concat]
      rfl
    · have hnone : [x].filter (fun x => decide (x.1 = l)) = [] := by simp [hx]
      rw [if_neg (Ne.symm hx), hnone, List.append_nil, ih]

end Sink

/-! ### What a callback comes to -/

namespace Callback

variable {c : Callback σ} {v : ValueType} {values : List (LabelSet × Number)}

/-- **A callback** comes to what its sink keeps of its readings, if it completes, and fails if it
does not. -/
theorem outcome_eq_ok_iff :
    c.outcome v = .ok values ↔
      c.Completes v ∧
        values = ((c.readings v).foldl Sink.take (Sink.empty v)).observed.entries := by
  have hact : ∀ sink, Sink.act c.generates c.script (Sink.empty v) [] = .ok sink ↔
      (∀ a ∈ c.script, ¬ a.Raises) ∧ (Sink.empty v).Hears c.observations sink := by
    intro sink
    have hleft : Sink.Left [] [].reverse := .nil
    rw [Sink.act_eq_ok_iff hleft, List.append_nil]
    rfl
  unfold outcome Completes
  constructor
  · intro h
    cases ha : Sink.act c.generates c.script (Sink.empty v) [] with
    | error e =>
      rw [ha] at h
      cases h
    | ok sink =>
      rw [ha] at h
      obtain rfl := Except.ok.inj h
      obtain ⟨hraise, hgood, hsink⟩ := (hact sink).mp ha
      exact ⟨⟨hraise, hgood⟩, congrArg (fun s : Sink => s.observed.entries) hsink⟩
  · rintro ⟨⟨hraise, hgood⟩, rfl⟩
    rw [(hact _).mpr ⟨hraise, hgood, rfl⟩]
    rfl

theorem outcome_of_not_completes (h : ¬ c.Completes v) : ∃ e, c.outcome v = .error e := by
  cases ho : c.outcome v with
  | error e => exact ⟨e, rfl⟩
  | ok values => exact absurd (outcome_eq_ok_iff.mp ho).1 h

/-- What a callback comes to has the last value that was observed for each label set. -/
theorem mem_outcome_iff (h : c.outcome v = .ok values) {l : LabelSet} {n : Number} :
    (l, n) ∈ values ↔ c.lastFor v l = some n := by
  obtain ⟨-, rfl⟩ := outcome_eq_ok_iff.mp h
  rw [OrderedMap.mem_entries_iff, Sink.get?_foldl_take]
  show (c.lastFor v l).or none = some n ↔ _
  rw [Option.or_none]

end Callback

end Metering
