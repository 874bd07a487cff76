import Metering.Proofs.Instruments.Accumulations
import Metering.Proofs.Instruments.Observing

/-!
# Callbacks that only observe

A callback is quiet when its script performs no step of the surrounding program: it observes,
reports and raises, and touches nothing but its sink.  What a quiet callback comes to does not
depend on the system (`Callback.outcome`), and calling it changes nothing but the log
(`SystemM.callBack_apply`).

Whatever it observes has been checked, so an integer that no double holds and a negative number for
a monotonic sum are all that a stream can still refuse (`Stream.refusalIn?_eq_none_iff`).
-/

namespace Metering

open Fallible SystemM

variable {σ : Type}

/-! ### What is observed -/

/-- The action performs no step of the surrounding program. -/
def Action.IsQuiet : Action σ → Prop
  | .perform _ => False
  | _ => True

instance (a : Action σ) : Decidable a.IsQuiet :=
  match a with
  | .perform _ => .isFalse id
  | .observe .. | .report .. | .raise _ => .isTrue trivial

/-- What the actions of a callback come to that performs no steps: a step counts for nothing. -/
def Sink.act (generates : Bool) :
    List (Action σ) → Sink → List (Scalar × LabelArgument) → Except Failure Sink
  | [], sink, reports => sink.observeAll reports.reverse
  | .observe value labels :: rest, sink, reports =>
    match labels.argument.mapError Failure.labels with
    | .error e => .error e
    | .ok l =>
      match sink.observe value l with
      | .error e => .error e
      | .ok sink => sink.act generates rest reports
  | .report value labels :: rest, sink, reports =>
    match labels.argument.mapError Failure.labels with
    | .error e => .error e
    | .ok l =>
      if generates then
        match sink.observe value l with
        | .error e => .error e
        | .ok sink => sink.act generates rest reports
      else sink.act generates rest ((value, l) :: reports)
  | .raise f :: _, _, _ => .error f
  | .perform _ :: rest, sink, reports => sink.act generates rest reports

namespace Callback

/-- The next call of the callback performs no steps. -/
def IsQuiet (c : Callback σ) : Prop := ∀ a ∈ c.script, a.IsQuiet

instance (c : Callback σ) : Decidable c.IsQuiet :=
  inferInstanceAs (Decidable (∀ a ∈ c.script, a.IsQuiet))

/-- Whatever comes next is one of the scripts. -/
theorem isQuiet_of_cycles {c : Callback σ} (h : ∀ actions ∈ c.cycles, ∀ a ∈ actions, a.IsQuiet) :
    c.IsQuiet := by
  unfold IsQuiet script
  split
  · next actions hc => exact h actions (List.mem_of_getElem? hc)
  · cases hlast : c.cycles.getLast? with
    | none => exact nofun
    | some actions => exact h actions (List.mem_of_getLast? hlast)

/-- What the next call of a quiet callback observes, or the failure that it ends with. -/
def outcome (c : Callback σ) (v : ValueType) : Except Failure (List (LabelSet × Number)) :=
  (Sink.act c.generates c.script (Sink.empty v) []).map fun sink => sink.observed.entries

/-- What an observer learns of the next call: nothing, if there is no callback or it fails. -/
def learned (c : Option (Callback σ)) (v : ValueType) : Option (List (LabelSet × Number)) :=
  c.bind fun c => (c.outcome v).toOption

/-- What is logged about the next call: the failure, if there is one. -/
def entries (name : String) (c : Option (Callback σ)) (v : ValueType) : List LogEntry :=
  match c with
  | none => []
  | some c =>
    match c.outcome v with
    | .error e => [.failed ("Callback of observer " ++ name ++ " failed") e]
    | .ok _ => []

variable {c : Callback σ} {v : ValueType}

theorem learned_of_ok {values : List (LabelSet × Number)} (h : c.outcome v = .ok values) :
    learned (some c) v = some values := by
  unfold learned
  rw [Option.bind_some, h]
  rfl

theorem learned_of_error {e : Failure} (h : c.outcome v = .error e) :
    learned (some c) v = none := by
  unfold learned
  rw [Option.bind_some, h]
  rfl

theorem entries_of_error {e : Failure} (h : c.outcome v = .error e) (name : String) :
    entries name (some c) v
      = [.failed ("Callback of observer " ++ name ++ " failed") e] := by
  unfold entries
  simp only [h]

end Callback

namespace SystemM

theorem runActions_apply (perform : σ → SystemM σ Unit) (generates : Bool)
    (actions : List (Action σ)) (hquiet : ∀ a ∈ actions, a.IsQuiet) (sink : Sink)
    (reports : List (Scalar × LabelArgument)) (s : System σ) :
    runActions perform generates actions sink reports s
      = (Sink.act generates actions sink reports, s) := by
  induction actions generalizing sink reports with
  | nil => exact ofExcept_apply _ s
  | cons a rest ih =>
    have ih := fun sink reports =>
      ih (fun a ha => hquiet a (List.mem_cons_of_mem _ ha)) sink reports
    -- either way of telling a value gives up where the labels or the sink refuse it
    cases a with
    | observe value labels =>
      unfold runActions Sink.act
      simp only [bind_apply, ofExcept_apply]
      cases labels.argument.mapError Failure.labels with
      | error e => rfl
      | ok l =>
        simp only
        cases sink.observe value l with
        | error e => rfl
        | ok sink => exact ih sink reports
    | report value labels =>
      unfold runActions Sink.act
      simp only [bind_apply, ofExcept_apply]
      cases labels.argument.mapError Failure.labels with
      | error e => rfl
      | ok l =>
        cases generates with
        | false => exact ih sink ((value, l) :: reports)
        | true =>
          simp only [if_true, bind_apply, ofExcept_apply]
          cases sink.observe value l with
          | error e => rfl
          | ok sink => exact ih sink reports
    | raise f => rfl
    | perform step => exact (hquiet _ List.mem_cons_self).elim

/-- **Calling** a quiet callback changes nothing but the log. -/
theorem callBack_apply (perform : σ → SystemM σ Unit) (name : String) (v : ValueType)
    (c : Option (Callback σ)) (hquiet : ∀ x ∈ c, x.IsQuiet) (s : System σ) :
    callBack perform name v c s
      = (.ok (Callback.learned c v), { s with log := s.log ++ Callback.entries name c v }) := by
  cases c with
  | none =>
    show (Except.ok none, s) = (Except.ok none, { s with log := s.log ++ [] })
    rw [List.append_nil]
  | some c =>
    have hrun := runActions_apply perform c.generates c.script (hquiet c rfl) (Sink.empty v) [] s
    unfold callBack attempt report Callback.learned Callback.entries Callback.outcome
    simp only [bind_apply, hrun, Option.bind_some]
    cases Sink.act c.generates c.script (Sink.empty v) [] with
    | error e => rfl
    | ok sink =>
      show (Except.ok (some sink.observed.entries), s)
        = (Except.ok _, { s with log := s.log ++ [] })
      rw [List.append_nil]
      rfl

/-- **Collecting** an observer whose callback is quiet ends its window with what was observed. -/
theorem collectInstrument_of_observer {s : System σ} {r : Ref .instrument} {d : Descriptor}
    {p : Processor} {callback : Option (Callback σ)}
    (hi : s.instruments.get? r = some ⟨d, .asynchronous, some p, callback⟩)
    (hquiet : ∀ c ∈ callback, c.IsQuiet) {time : Option Int} {stop : Int}
    (htime : ∀ s' : System σ, s'.clocks = s.clocks → timeOr p.clock time s' = (.ok stop, s'))
    (perform : σ → SystemM σ Unit) :
    let closed := ({ pool := s.pool, stream := p.stream } : PooledStream).close
      (Callback.learned callback d.valueType) stop
    collectInstrument perform r time s = (closed.1, { s with
      pool := closed.2.pool
      instruments := s.instruments.set r ⟨d, .asynchronous,
        some { p with stream := closed.2.stream }, callback.map Callback.next⟩
      log := s.log ++ Callback.entries d.name callback d.valueType }) := by
  have hset : ∀ i : Instrument σ, (s.instruments.set r i).get? r = some i := fun i =>
    Table.get?_set_self i hi
  unfold collectInstrument SystemM.instrument
  simp only [bind_apply, get_apply, demand_apply, hi, setInstrument, modify_apply, hset,
    callBack_apply perform _ _ _ hquiet, htime, withStream, set_apply, pure_apply, ofExcept_apply,
    Option.getD_some, Table.set_set]

end SystemM

/-! ### What was observed has been checked -/

/-- What is measured in a value type can be measured again. -/
theorem ValueType.check_idem {v : ValueType} {x : Scalar} {n : Number} (h : v.check x = .ok n) :
    v.check (.number n) = .ok n := by
  cases v with
  | double =>
    change checkDouble x = .ok n at h
    unfold checkDouble at h
    split at h
    · cases h
    · rfl
    · cases h
  | long =>
    change (checkLong x).map Number.integer = .ok n at h
    unfold checkLong at h
    split at h
    · cases h
    · obtain rfl := Except.ok.inj h
      rfl
    · cases h

namespace Sink

/-- Every value that the sink has is a measurement of its value type. -/
def Checked (s : Sink) : Prop :=
  ∀ v ∈ s.observed.entries, s.valueType.check (.number v.2) = .ok v.2

theorem checked_empty (v : ValueType) : (Sink.empty v).Checked := fun _ => nofun

variable {s s' : Sink}

theorem observe_checked {value : Scalar} {labels : LabelArgument} (h : s.Checked)
    (ho : s.observe value labels = .ok s') : s'.Checked ∧ s'.valueType = s.valueType := by
  unfold observe at ho
  cases hn : s.valueType.check value with
  | error e =>
    rw [hn] at ho
    cases ho
  | ok n =>
    rw [hn] at ho
    dsimp only at ho
    cases hl : LabelSet.create labels with
    | error e =>
      rw [hl] at ho
      cases ho
    | ok l =>
      rw [hl] at ho
      obtain rfl := Except.ok.inj ho
      refine ⟨fun v hv => ?_, rfl⟩
      have hget := OrderedMap.mem_entries_iff.mp hv
      change (s.observed.insert l n).get? v.1 = some v.2 at hget
      rw [OrderedMap.get?_insert] at hget
      split at hget
      · obtain rfl := Option.some.inj hget
        exact ValueType.check_idem hn
      · exact h v (OrderedMap.mem_entries_iff.mpr hget)

theorem observeAll_checked {reports : List (Scalar × LabelArgument)} (h : s.Checked)
    (ho : s.observeAll reports = .ok s') : s'.Checked ∧ s'.valueType = s.valueType := by
  induction reports generalizing s with
  | nil =>
    obtain rfl := Except.ok.inj ho
    exact ⟨h, rfl⟩
  | cons r rest ih =>
    obtain ⟨value, labels⟩ := r
    unfold observeAll at ho
    cases hs : s.observe value labels with
    | error e =>
      rw [hs] at ho
      cases ho
    | ok s₁ =>
      rw [hs] at ho
      obtain ⟨h₁, hv₁⟩ := observe_checked h hs
      obtain ⟨h', hv'⟩ := ih h₁ ho
      exact ⟨h', hv'.trans hv₁⟩

theorem act_checked {generates : Bool} {actions : List (Action σ)}
    {reports : List (Scalar × LabelArgument)} (h : s.Checked)
    (ha : s.act generates actions reports = .ok s') :
    s'.Checked ∧ s'.valueType = s.valueType := by
  induction actions generalizing s reports with
  | nil => exact observeAll_checked h ha
  | cons a rest ih =>
    -- observing at once is the same whether the action observes or reports
    have hobserve : ∀ {value l}, (match s.observe value l with
        | .error e => (.error e : Except Failure Sink)
        | .ok sink => sink.act generates rest reports) = .ok s' →
        s'.Checked ∧ s'.valueType = s.valueType := by
      intro value l ho
      cases hs : s.observe value l with
      | error e =>
        rw [hs] at ho
        cases ho
      | ok s₁ =>
        rw [hs] at ho
        obtain ⟨h₁, hv₁⟩ := observe_checked h hs
        obtain ⟨h', hv'⟩ := ih h₁ ho
        exact ⟨h', hv'.trans hv₁⟩
    cases a with
    | observe value labels =>
      unfold act at ha
      split at ha
      · cases ha
      · exact hobserve ha
    | report value labels =>
      unfold act at ha
      split at ha
      · cases ha
      · split at ha
        · exact hobserve ha
        · exact ih h ha
    | raise f => cases ha
    | perform step => exact ih h ha

end Sink

/-- What a callback observes are measurements, at most one for each label set. -/
theorem Callback.outcome_checked {c : Callback σ} {v : ValueType}
    {values : List (LabelSet × Number)} (h : c.outcome v = .ok values) :
    (∀ x ∈ values, v.check (.number x.2) = .ok x.2) ∧ (values.map Prod.fst).Nodup := by
  unfold outcome at h
  cases ha : Sink.act c.generates c.script (Sink.empty v) [] with
  | error e =>
    rw [ha] at h
    cases h
  | ok sink =>
    rw [ha] at h
    obtain rfl := Except.ok.inj h
    obtain ⟨hchecked, hv⟩ := Sink.act_checked (Sink.checked_empty v) ha
    refine ⟨fun x hx => ?_, sink.observed.nodup⟩
    have hx := hchecked x hx
    rwa [hv] at hx

/-! ### What can still be refused -/

/-- A stream cannot record a number: it records doubles and no double holds it, or it is a monotonic
sum and the number is negative. -/
def Stream.CannotRecord (s : Stream) (n : Number) : Prop :=
  (s.descriptor.valueType = .double ∧ n.toBinary64? = none) ∨
    (s.shape = .sum true ∧ n.isNegative = true)

/-- **Refused** is just what cannot be recorded, of what has been checked. -/
theorem Stream.refusal?_eq_none_iff {s : Stream} {n : Number}
    (h : s.descriptor.valueType.check (.number n) = .ok n) :
    s.refusal? (.number n) = none ↔ ¬ s.CannotRecord n := by
  unfold Stream.refusal? Stream.CannotRecord Shape.refusalOf? Shape.refusal?
  rw [h]
  dsimp only
  cases hm : s.descriptor.valueType.recorded? n with
  | none =>
    cases hv : s.descriptor.valueType with
    | long =>
      rw [hv] at hm
      cases hm
    | double =>
      rw [hv] at hm
      simp [Option.map_eq_none_iff.mp hm]
  | some m =>
    have hsome : ¬ (s.descriptor.valueType = .double ∧ n.toBinary64? = none) := by
      rintro ⟨hv, hn⟩
      rw [hv] at hm
      change n.toBinary64?.map Number.double = some m at hm
      rw [hn] at hm
      cases hm
    dsimp only
    rw [ValueType.isNegative_of_recorded? hm]
    split
    · next hneg => exact iff_of_false nofun fun hnot => hnot (Or.inr hneg)
    · next hneg => exact iff_of_true rfl fun hor => hor.elim hsome hneg

theorem Stream.refusalIn?_eq_none_iff {s : Stream} {values : List (LabelSet × Number)}
    (h : ∀ v ∈ values, s.descriptor.valueType.check (.number v.2) = .ok v.2) :
    s.refusalIn? values = none ↔ ∀ v ∈ values, ¬ s.CannotRecord v.2 := by
  unfold Stream.refusalIn?
  rw [List.findSome?_eq_none_iff]
  exact forall₂_congr fun v hv => Stream.refusal?_eq_none_iff (h v hv)

/-- Values that a stream can record are accepted. -/
theorem Stream.accepts_of_recordable {s : Stream} {values : List (LabelSet × Number)}
    (h : ∀ v ∈ values, s.descriptor.valueType.check (.number v.2) = .ok v.2)
    (hall : ∀ v ∈ values, ¬ s.CannotRecord v.2) : ∀ v ∈ values, s.accepts v = true :=
  fun v hv =>
    Option.isNone_iff_eq_none.mpr ((Stream.refusal?_eq_none_iff (h v hv)).mpr (hall v hv))

/-- The first value that a stream cannot record is the one that it refuses, and it takes up just
the values before that one. -/
theorem Stream.refuses_first {s : Stream} {before rest : List (LabelSet × Number)}
    {v : LabelSet × Number}
    (h : ∀ u ∈ before ++ v :: rest, s.descriptor.valueType.check (.number u.2) = .ok u.2)
    (hbefore : ∀ u ∈ before, ¬ s.CannotRecord u.2) (hv : s.CannotRecord v.2) :
    ∃ e, s.refusal? (.number v.2) = some e ∧ s.refusalIn? (before ++ v :: rest) = some e ∧
      (before ++ v :: rest).takeWhile s.accepts = before := by
  have hchecked : ∀ u ∈ before, s.descriptor.valueType.check (.number u.2) = .ok u.2 :=
    fun u hu => h u (List.mem_append_left _ hu)
  obtain ⟨e, he⟩ : ∃ e, s.refusal? (.number v.2) = some e := by
    rw [← Option.ne_none_iff_exists', ne_eq, Stream.refusal?_eq_none_iff (h v (by simp)), not_not]
    exact hv
  refine ⟨e, he, ?_, ?_⟩
  · have hnone := (Stream.refusalIn?_eq_none_iff hchecked).mpr hbefore
    unfold Stream.refusalIn? at *
    rw [List.findSome?_append, hnone, Option.none_or, List.findSome?_cons, he]
  · have hrefused : s.accepts v = false := by
      unfold Stream.accepts
      rw [he]
      rfl
    rw [List.takeWhile_append_of_pos (Stream.accepts_of_recordable hchecked hbefore),
      List.takeWhile_cons, hrefused]
    simp

end Metering
