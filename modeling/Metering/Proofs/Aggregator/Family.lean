import Metering.Proofs.Aggregator.Typed

/-!
# Families of aggregators

A family is a pool of fresh aggregators that can be moved into each other.  Its members are called
in any order: scalars are recorded, through any of the three ways to do so, and members are moved
into members, also into themselves.  `histories` gives each member a list of values: a record that
succeeds appends its value, and a move appends the source's list to the target's.

`points_of_histories` is the main statement: after any calls, each member reports just what its
list says.
-/

namespace Metering

variable {n : Nat}

/-- A call on a member of a family.  A record without a value type goes the way of the member's
own. -/
inductive Call (n : Nat) where
  | record (i : Fin n) (valueType : Option ValueType) (s : Scalar)
  | move (source target : Fin n)
deriving DecidableEq, Repr

/-- The identifier of a member. -/
def member (i : Fin n) : AggregatorId := ⟨i.val⟩

theorem member_ne {i j : Fin n} (h : i ≠ j) : member i ≠ member j := by
  intro he
  exact h (Fin.ext (AggregatorId.mk.inj he))

/-- The family of fresh aggregators of these shapes. -/
def family (shapes : Fin n → Shape) (v : ValueType) : Pool :=
  ⟨Array.ofFn fun i => ⟨Aggregator.fresh (shapes i) v, .held 0⟩⟩

namespace Call

/-- The pool after a call, unless it is refused. -/
def attempt : Call n → Pool → Option Pool
  | .record i none s, p => (p.record (member i) s).toOption
  | .record i (some v) s, p => (p.recordAs (member i) v s).toOption
  | .move source target, p => (p.move (member source) (member target)).toOption

/-- The pool after a call, which is the same if the call is refused. -/
def perform (c : Call n) (p : Pool) : Pool := (c.attempt p).getD p

/-- The histories after a call. -/
def follow {α : Type} [Recordable α] (c : Call n) (p : Pool) (h : Fin n → List α) :
    Fin n → List α :=
  match c with
  | .record i _ s =>
    match c.attempt p, (Recordable.read s : Except RecordError α) with
    | some _, .ok v => Function.update h i (h i ++ [v])
    | _, _ => h
  | .move source target =>
    if source = target then h
    else Function.update (Function.update h source []) target (h target ++ h source)

end Call

/-- A family after some calls. -/
def performAll (calls : List (Call n)) (p : Pool) : Pool := calls.foldl (fun p c => c.perform p) p

/-- The histories of a family after some calls. -/
def histories (α : Type) [Recordable α] (shapes : Fin n → Shape) (calls : List (Call n)) :
    Fin n → List α :=
  (calls.foldl (fun x c => (c.perform x.1, c.follow x.1 x.2))
    (family shapes (Recordable.valueType α), fun _ => [])).2

section

variable {α : Type} [Recordable α] {isTotal : α → List α → Prop} {shapes : Fin n → Shape}
  {p : Pool} {h : Fin n → List α}

/-- Every member of the family holds its history. -/
def Family (isTotal : α → List α → Prop) (shapes : Fin n → Shape) (p : Pool) (h : Fin n → List α) :
    Prop :=
  ∀ i, p.Has (member i) ∧ Aggregator.Holds isTotal (shapes i) (p.get (member i)) (h i)

theorem family_fresh (hadd : AddsUp isTotal) (shapes : Fin n → Shape) :
    Family isTotal shapes (family shapes (Recordable.valueType α)) fun _ => [] := by
  intro i
  have hhas : (family shapes (Recordable.valueType α)).Has (member i) := by
    simp [Pool.Has, family, member]
  refine ⟨hhas, ?_⟩
  have hget : (family shapes (Recordable.valueType α)).get (member i)
      = Aggregator.fresh (shapes i) (Recordable.valueType α) := by
    simp [Pool.get, Pool.cell, family, member]
  rw [hget]
  exact Aggregator.Holds.fresh hadd (shapes i)

/-- Another aggregator in the place of one member leaves the others alone. -/
theorem Family.set (hf : Family isTotal shapes p h) {i : Fin n} {a : Aggregator} {vs : List α}
    (ha : Aggregator.Holds isTotal (shapes i) a vs) :
    Family isTotal shapes (p.set (member i) a) (Function.update h i vs) := by
  intro j
  refine ⟨Pool.has_set.mpr (hf j).1, ?_⟩
  by_cases hij : j = i
  · subst hij
    rwa [Pool.get_set_self (hf j).1, Function.update_self]
  · rw [Pool.get_set_of_ne p a (member_ne (Ne.symm hij)), Function.update_of_ne hij]
    exact (hf j).2

theorem Family.record (hadd : AddsUp isTotal) (hf : Family isTotal shapes p h) {i : Fin n}
    {s : Scalar} {q : Pool} (hr : p.record (member i) s = .ok q) :
    ∃ v, Recordable.read s = .ok v
      ∧ Family isTotal shapes q (Function.update h i (h i ++ [v])) := by
  obtain ⟨a, ha, rfl⟩ := Pool.record_eq_ok hr
  obtain ⟨v, hv, hheld⟩ := (hf i).2.record hadd ha
  exact ⟨v, hv, hf.set hheld⟩

theorem record_of_recordAs {i : AggregatorId} {v : ValueType} {s : Scalar} {q : Pool}
    (hr : p.recordAs i v s = .ok q) : p.record i s = .ok q := by
  unfold Pool.recordAs Aggregator.recordAs at hr
  split at hr
  · exact hr
  · cases hr

theorem Family.move (hadd : AddsUp isTotal) (hf : Family isTotal shapes p h)
    (hs : ∀ i j, (shapes i).Alike (shapes j)) (source target : Fin n) :
    ∃ q, p.move (member source) (member target) = .ok q
      ∧ Family isTotal shapes q (Call.follow (.move source target) p h) := by
  have hok := Pool.move_eq ((hf source).2.mergeError? (hf target).2 (hs target source))
  refine ⟨_, hok, ?_⟩
  have hdrained := hf.set ((hf source).2.emptied hadd)
  have htarget := (hdrained target).2.absorb hadd (hf source).2 (hs target source)
  have hmoved := hdrained.set htarget
  show Family _ _ _ (if source = target then h else _)
  by_cases hst : source = target
  · -- a member moved into itself takes up again what it held
    subst hst
    rw [if_pos rfl]
    simpa using hmoved
  · rw [if_neg hst]
    rwa [Function.update_of_ne (Ne.symm hst)] at hmoved

theorem record_of_attempt {i : Fin n} {v : Option ValueType} {s : Scalar} {q : Pool}
    (hc : (Call.record i v s).attempt p = some q) : p.record (member i) s = .ok q := by
  cases v with
  | none =>
    cases hp : p.record (member i) s with
    | error e => simp [Call.attempt, hp, Except.toOption] at hc
    | ok q' => simpa [Call.attempt, hp, Except.toOption] using hc
  | some v =>
    cases hp : p.recordAs (member i) v s with
    | error e => simp [Call.attempt, hp, Except.toOption] at hc
    | ok q' =>
      rw [record_of_recordAs hp]
      simpa [Call.attempt, hp, Except.toOption] using hc

/-- **One call** keeps every member at its history. -/
theorem Family.perform (hadd : AddsUp isTotal) (hf : Family isTotal shapes p h)
    (hs : ∀ i j, (shapes i).Alike (shapes j)) (c : Call n) :
    Family isTotal shapes (c.perform p) (c.follow p h) := by
  cases c with
  | record i v s =>
    unfold Call.perform Call.follow
    cases hc : (Call.record i v s).attempt p with
    | none => exact hf
    | some q =>
      obtain ⟨x, hx, hq⟩ := hf.record hadd (record_of_attempt hc)
      simpa [hx] using hq
  | move source target =>
    obtain ⟨q, hq, hmoved⟩ := hf.move hadd hs source target
    have hperform : (Call.move source target).perform p = q := by
      simp [Call.perform, Call.attempt, hq, Except.toOption]
    rw [hperform]
    exact hmoved

/-- **All calls** keep every member at its history. -/
theorem family_performAll (hadd : AddsUp isTotal) (hs : ∀ i j, (shapes i).Alike (shapes j))
    (calls : List (Call n)) :
    Family isTotal shapes (performAll calls (family shapes (Recordable.valueType α)))
      (histories α shapes calls) := by
  have hrun : ∀ (calls : List (Call n)) (x : Pool × (Fin n → List α)),
      Family isTotal shapes x.1 x.2 →
        Family isTotal shapes (performAll calls x.1)
          (calls.foldl (fun x c => (c.perform x.1, c.follow x.1 x.2)) x).2 := by
    intro calls
    induction calls with
    | nil => exact fun x hx => hx
    | cons c calls ih =>
      intro x hx
      exact ih (c.perform x.1, c.follow x.1 x.2) (hx.perform hadd hs c)
  exact hrun calls (family shapes (Recordable.valueType α), fun _ => [])
    (family_fresh hadd shapes)

end

/-- The point of a member of a family after some calls. -/
def pointAfter (shapes : Fin n → Shape) (v : ValueType) (calls : List (Call n)) (i : Fin n)
    (start stop : Int) (labels : LabelSet) : Option Point :=
  ((performAll calls (family shapes v)).get (member i)).point? start stop labels

/-- **Points of histories**: after any calls on a family, a member has a point exactly when its
history is not empty.  Among long values the point is the summary of the history; among doubles it
is that too, but for the sum.  A count that comes with a point is the length of the history. -/
theorem points_of_histories (shapes : Fin n → Shape) (hd : ∀ i, shapes i ≠ .discard)
    (hs : ∀ i j, (shapes i).Alike (shapes j)) (calls : List (Call n)) (i : Fin n)
    (start stop : Int) (labels : LabelSet) :
    ((pointAfter shapes .long calls i start stop labels = none ↔
        histories Int shapes calls i = []) ∧
      pointAfter shapes .long calls i start stop labels
        = ((shapes i).summary (histories Int shapes calls i)).map (Point.mk start stop labels) ∧
      ∀ point k, pointAfter shapes .long calls i start stop labels = some point →
        point.value.count? = some k → k = (histories Int shapes calls i).length) ∧
    ((pointAfter shapes .double calls i start stop labels = none ↔
        histories Binary64 shapes calls i = []) ∧
      (∃ value, (shapes i).Outlines (histories Binary64 shapes calls i) value ∧
        pointAfter shapes .double calls i start stop labels
          = value.map (Point.mk start stop labels)) ∧
      ∀ point k, pointAfter shapes .double calls i start stop labels = some point →
        point.value.count? = some k → k = (histories Binary64 shapes calls i).length) := by
  have hlong := Aggregator.value?_of_holds_long (family_performAll addsUp_isSum hs calls i).2
  have hdouble :=
    Aggregator.value?_of_holds_double (family_performAll addsUp_anyTotal hs calls i).2
  refine ⟨⟨?_, congrArg (Option.map _) hlong, ?_⟩, ⟨?_, ⟨_, hdouble, rfl⟩, ?_⟩⟩
  · rw [← Shape.summary_eq_none_iff (hd i), ← hlong]
    exact Option.map_eq_none_iff
  · intro point k hp hk
    obtain ⟨value, hvalue, rfl⟩ := Option.map_eq_some_iff.mp hp
    exact Shape.count_of_summary (hlong.symm.trans hvalue) hk
  · rw [← Shape.outlines_none_iff (hd i) hdouble]
    exact Option.map_eq_none_iff
  · intro point k hp hk
    obtain ⟨value, hvalue, rfl⟩ := Option.map_eq_some_iff.mp hp
    have hv : (shapes i).Outlines (histories Binary64 shapes calls i) (some value) :=
      hvalue ▸ hdouble
    exact Shape.count_of_outlines hv hk

/-- The maximum and the number of values move from one member into another, where the values that
are recorded later join them; the emptied member has no point. -/
theorem points_of_moved_summary :
    let calls : List (Call 2) :=
      [.record 0 none (.number (.integer 7)), .record 0 none (.boolean true), .move 0 1,
        .record 1 (some .long) (.number (.integer (-2))), .move 1 1]
    pointAfter (fun _ => .minMaxSumCount) .long calls 0 0 1 .empty = none ∧
      pointAfter (fun _ => .minMaxSumCount) .long calls 1 0 1 .empty
        = some ⟨0, 1, .empty, .summary 2 (.integer 5) (.integer (-2)) (.integer 7)⟩ := by
  intro calls
  have h := points_of_histories (fun _ : Fin 2 => Shape.minMaxSumCount) (fun _ => by decide)
    (fun _ _ => rfl) calls
  have h0 : histories Int (fun _ : Fin 2 => Shape.minMaxSumCount) calls 0 = [] := by decide
  have h1 : histories Int (fun _ : Fin 2 => Shape.minMaxSumCount) calls 1 = [7, -2] := by decide
  refine ⟨(h 0 0 1 .empty).1.1.mpr h0, ?_⟩
  rw [(h 1 0 1 .empty).1.2.1, h1]
  rfl

end Metering
