import Metering.Proofs.Concurrency.Steps
import Metering.Proofs.Instruments.Contents
import Mathlib.Data.List.TakeWhile

/-!
# The window of an observer

At the end of its cycle an observer enters what its callback observed into the window, value by
value.  `Observes` is the invariant of such a window, and `Observes.gather` says what becomes of it:
if the stream refuses none of the values all of them are taken up, and otherwise the first refused
one ends the work with its failure, and only those before it are taken up.  `Observes.close` says so
of a whole cycle.
-/

namespace Metering

/-- The window of an observer: its aggregators are there, are the stream's, and each of them is in
one place. -/
structure Observes (p : Pool) (s : Stream) (role : AggregatorId → Role) : Prop where
  window_iff : ∀ {l i}, s.window.get? l = some i ↔ role i = .window l
  only : ∀ {i}, role i ≠ .foreign → ∃ l, role i = .window l
  has : ∀ {i}, role i ≠ .foreign → p.Has i
  makes : ∀ {i}, role i ≠ .foreign → s.Makes (p.get i)

/-- The accumulation of an observer, in which nothing is ever live. -/
def PooledStream.alone (w : PooledStream) : Accumulation :=
  { toPooledStream := w, live := OrderedMap.empty }

namespace Stream

/-- A new aggregator of the stream in which a scalar has been recorded. -/
def single (s : Stream) (x : Scalar) : Aggregator :=
  match s.freshAggregator.record x with
  | .ok a => a
  | .error _ => s.freshAggregator

/-- The window after observed values were taken up one after the other. -/
def takeUpAll (s : Stream) (window : OrderedMap LabelSet Aggregator)
    (values : List (LabelSet × Number)) : OrderedMap LabelSet Aggregator :=
  values.foldl (fun window v => s.takeUp window v.1 (s.single (.number v.2))) window

/-- The stream does not refuse an observed value. -/
def accepts (s : Stream) (v : LabelSet × Number) : Bool := (s.refusal? (.number v.2)).isNone

/-- Why the stream refuses the first of some observed values that it refuses. -/
def refusalIn? (s : Stream) (values : List (LabelSet × Number)) : Option RecordError :=
  values.findSome? fun v => s.refusal? (.number v.2)

variable {s s' : Stream}

theorem Continues.single (h : s.Continues s') : s'.single = s.single := by
  unfold Stream.single
  rw [h.freshAggregator]

theorem Continues.refusal? (h : s.Continues s') : s'.refusal? = s.refusal? := by
  unfold Stream.refusal?
  rw [h.descriptor, h.shape]

theorem Continues.accepts (h : s.Continues s') : s'.accepts = s.accepts := by
  unfold Stream.accepts
  rw [h.refusal?]

theorem Continues.refusalIn? (h : s.Continues s') : s'.refusalIn? = s.refusalIn? := by
  unfold Stream.refusalIn?
  rw [h.refusal?]

theorem takeWhile_accepts {values : List (LabelSet × Number)} (h : s.refusalIn? values = none) :
    values.takeWhile s.accepts = values := by
  refine List.takeWhile_eq_self_iff.mpr fun v hv => ?_
  unfold Stream.accepts
  rw [List.findSome?_eq_none_iff.mp h v hv]
  rfl

theorem Continues.takeUpAll (h : s.Continues s') : s'.takeUpAll = s.takeUpAll := by
  unfold Stream.takeUpAll
  rw [h.takeUp, h.single]

theorem single_of_accepted {x : Scalar} (h : s.refusal? x = none) :
    s.freshAggregator.record x = .ok (s.single x) ∧ s.Makes (s.single x) := by
  have hrecord := s.makes_fresh.record_eq x
  rw [h] at hrecord
  obtain ⟨a, ha, hmakes⟩ := hrecord
  have hsingle : s.single x = a := by
    unfold single
    rw [ha]
  rw [hsingle]
  exact ⟨ha, hmakes⟩

/-- The pool after a new aggregator was made in which a scalar has been recorded. -/
theorem exists_recorded (s : Stream) (p : Pool) {x : Scalar} (hx : s.refusal? x = none) :
    ∃ q, (p.add s.freshAggregator).record p.next x = .ok q ∧ q.Has p.next ∧
      q.get p.next = s.single x ∧ p.Spares q fun _ => False := by
  obtain ⟨hrecord, -⟩ := single_of_accepted hx
  have hhas : (p.add s.freshAggregator).Has p.next := Pool.has_add.mpr (Or.inr rfl)
  have hget : (p.add s.freshAggregator).get p.next = s.freshAggregator := by
    rw [Pool.get_add_next]
  refine ⟨(p.add s.freshAggregator).set p.next (s.single x), ?_, Pool.has_set.mpr hhas,
    Pool.get_set_self hhas, ?_⟩
  · unfold Pool.record
    rw [hget, hrecord]
    rfl
  · refine ⟨fun hi => Pool.has_set.mpr (Pool.has_add.mpr (Or.inl hi)), fun {i} hi _ => ?_⟩
    rw [Pool.cell_set_of_ne hi.ne_next, Pool.cell_add_of_has hi]

end Stream

/-- A value that the stream refuses ends the work. -/
theorem PooledStream.gather_cons_refused {w : PooledStream} {v : LabelSet × Number}
    (rest : List (LabelSet × Number)) {e : RecordError}
    (he : w.stream.refusal? (.number v.2) = some e) :
    w.gather (v :: rest)
      = (.error (.record e), { w with pool := w.pool.add w.stream.freshAggregator }) := by
  have hrecord := w.stream.makes_fresh.record_eq (.number v.2)
  rw [he] at hrecord
  have hpool : (w.pool.add w.stream.freshAggregator).record w.pool.next (.number v.2)
      = .error e := by
    unfold Pool.record
    rw [Pool.get_add_next, hrecord]
    rfl
  unfold PooledStream.gather PooledStream.create
  dsimp only
  rw [hpool]

namespace Observes

variable {p q : Pool} {s : Stream} {role : AggregatorId → Role} {w : PooledStream}

/-- A window that nothing has entered yet. -/
theorem start (p : Pool) (hs : s.window = OrderedMap.empty) :
    Observes p s fun _ => .foreign where
  window_iff := by
    intro l i
    rw [hs]
    exact iff_of_false nofun nofun
  only h := absurd rfl h
  has h := absurd rfl h
  makes h := absurd rfl h

/-- Work elsewhere in the pool changes nothing. -/
theorem elsewhere (h : Observes p s role) (hq : p.Spares q fun i => role i = .foreign) :
    Observes q s role where
  window_iff := h.window_iff
  only := h.only
  has hi := hq.has (h.has hi)
  makes hi := by
    rw [hq.get (h.has hi) hi]
    exact h.makes hi

theorem windowIn_elsewhere (h : Observes p s role) (hq : p.Spares q fun i => role i = .foreign) :
    s.windowIn q = s.windowIn p := by
  refine OrderedMap.map_congr fun l i hi => ?_
  have hrole := h.window_iff.mp hi
  exact hq.get (h.has (window_plays hrole)) (window_plays hrole)

/-- An aggregator that is new to the pool plays no role. -/
theorem foreign_next (h : Observes p s role) : role p.next = .foreign := by
  by_contra hne
  exact p.not_has_next (h.has hne)

/-! ### Observing one value -/

/-- **Taking up** the value of a label set that the window has an aggregator for. -/
theorem pour (h : Observes p s role) {l : LabelSet} {j : AggregatorId}
    (hj : s.window.get? l = some j) {x : Scalar} (hx : s.refusal? x = none)
    (hhas : q.Has p.next) (hget : q.get p.next = s.single x)
    (hspares : p.Spares q fun _ => False) :
    ∃ q', q.move p.next j = .ok q' ∧ Observes q' s role ∧
      p.Spares q' (fun i => role i ≠ .foreign) ∧
      s.windowIn q' = s.takeUp (s.windowIn p) l (s.single x) := by
  have hrole := h.window_iff.mp hj
  have hplays : role j ≠ .foreign := window_plays hrole
  have hne : p.next ≠ j := fun he => hplays (he ▸ h.foreign_next)
  have hjq : q.get j = p.get j :=
    hspares.get (h.has hplays) id
  have hmerge : (q.get p.next).mergeError? (q.get j) = none := by
    rw [hget, hjq]
    exact (Stream.single_of_accepted hx).2.mergeError? (h.makes hplays)
  obtain ⟨q', hmove, -, hget', -, hspares'⟩ :=
    Pool.move_of_ne hne hhas (hspares.has (h.has hplays)) hmerge
  rw [hget, hjq] at hget'
  -- the new aggregator was not there before, so only the one in the window is different
  have hall : p.Spares q' fun i => i = j :=
    { has := fun hi => hspares'.has (hspares.has hi)
      cell := fun {i} hi hij => by
        rw [hspares'.cell (hspares.has hi) (not_or.mpr ⟨hi.ne_next, hij⟩),
          hspares.cell hi id] }
  refine ⟨q', hmove, ?_, hall.mono fun _ hi => plays hrole (by simp) hi, ?_⟩
  · constructor
    case window_iff => exact h.window_iff
    case only => exact h.only
    case has => exact fun hi => hall.has (h.has hi)
    case makes =>
      intro i hi
      by_cases hij : i = j
      · rw [hij, hget']
        exact (h.makes hplays).absorb (Stream.single_of_accepted hx).2
      · rw [hall.get (h.has hi) hij]
        exact h.makes hi
  · refine Stream.windowIn_pour hj hget' fun l' i hi hl => ?_
    have hrole' := h.window_iff.mp hi
    refine hall.get (h.has (window_plays hrole')) fun hij => hl ?_
    rw [hij, hrole] at hrole'
    exact (Role.window.inj hrole').symm

/-- **Adopting** the value of a label set that the window has nothing for. -/
theorem adopt (h : Observes p s role) {l : LabelSet} (hl : s.window.get? l = none) {x : Scalar}
    (hx : s.refusal? x = none) (hhas : q.Has p.next) (hget : q.get p.next = s.single x)
    (hspares : p.Spares q fun _ => False) :
    Observes q { s with window := s.window.insert l p.next }
        (Function.update role p.next (.window l)) ∧
      ({ s with window := s.window.insert l p.next } : Stream).windowIn q
        = s.takeUp (s.windowIn p) l (s.single x) := by
  have hnext := h.foreign_next
  -- only the new aggregator plays a role that it did not play before
  have hother : ∀ {i}, i ≠ p.next → Function.update role p.next (.window l) i ≠ .foreign →
      role i ≠ .foreign := by
    intro i hi hrole
    rwa [Function.update_of_ne hi] at hrole
  constructor
  · constructor
    case window_iff =>
      intro l' i
      exact window_insert h.window_iff hl (by simp [hnext])
    case only =>
      intro i hi
      by_cases hin : i = p.next
      · exact ⟨l, by rw [hin, Function.update_self]⟩
      · rw [Function.update_of_ne hin]
        exact h.only (hother hin hi)
    case has =>
      intro i hi
      by_cases hin : i = p.next
      · rw [hin]
        exact hhas
      · exact hspares.has (h.has (hother hin hi))
    case makes =>
      intro i hi
      show s.Makes _
      by_cases hin : i = p.next
      · rw [hin, hget]
        exact (Stream.single_of_accepted hx).2
      · rw [hspares.get (h.has (hother hin hi)) id]
        exact h.makes (hother hin hi)
  · refine Stream.windowIn_enter hl ?_ fun l' i hi => ?_
    · rw [hget, (Stream.single_of_accepted hx).2.fresh_absorb]
    · have hrole := h.window_iff.mp hi
      exact hspares.get (h.has (window_plays hrole)) id

/-! ### Observing values -/

/-- A value that the stream accepts is taken up, and the work goes on. -/
theorem gather_cons_accepted (h : Observes w.pool w.stream role) {v : LabelSet × Number}
    (rest : List (LabelSet × Number)) (hv : w.stream.refusal? (.number v.2) = none) :
    ∃ (w' : PooledStream) (role' : AggregatorId → Role),
      w.gather (v :: rest) = w'.gather rest ∧ Observes w'.pool w'.stream role' ∧
      Advances role role' w.alone w'.alone ∧ w'.stream.start = w.stream.start ∧
      w'.stream.windowIn w'.pool
        = w.stream.takeUp (w.stream.windowIn w.pool) v.1 (w.stream.single (.number v.2)) := by
  obtain ⟨q, hrecord, hhas, hget, hspares⟩ := w.stream.exists_recorded w.pool hv
  have hgather : ∀ w' : PooledStream,
      ({ w with pool := q } : PooledStream).batch v.1 w.pool.next true = (.ok (), w') →
      w.gather (v :: rest) = w'.gather rest := by
    intro w' hbatch
    rw [PooledStream.gather]
    unfold PooledStream.create
    simp only [hrecord, hbatch]
  cases hl : w.stream.window.get? v.1 with
  | some j =>
    obtain ⟨q', hmove, hobs, hall, hwindow⟩ := h.pour hl hv hhas hget hspares
    refine ⟨{ w with pool := q' }, role, hgather _ ?_, hobs, ⟨hall, fun _ hf => hf, rfl⟩, rfl,
      hwindow⟩
    rw [PooledStream.batch_of_some (w := { w with pool := q }) hl,
      PooledStream.move_of_ok (w := { w with pool := q }) hmove]
  | none =>
    obtain ⟨hobs, hwindow⟩ := h.adopt hl hv hhas hget hspares
    have hbatch := PooledStream.batch_of_none_unmapped (w := { w with pool := q })
      (i := w.pool.next) hl
    refine ⟨_, _, hgather _ hbatch, hobs,
      ⟨hspares.mono fun _ => False.elim, fun {i} hi hf => ?_, rfl⟩, rfl, hwindow⟩
    have hne : i ≠ w.pool.next := hi.ne_next
    rw [Function.update_of_ne hne, hf]

/-- **Gathering** takes values up until the first one that the stream refuses, and fails with its
failure if there is one. -/
theorem gather (h : Observes w.pool w.stream role) (values : List (LabelSet × Number)) :
    ∃ (w' : PooledStream) (role' : AggregatorId → Role), w.gather values
        = (match w.stream.refusalIn? values with
          | some e => .error (.record e)
          | none => .ok (), w') ∧
      Observes w'.pool w'.stream role' ∧ Advances role role' w.alone w'.alone ∧
      w'.stream.start = w.stream.start ∧
      w'.stream.windowIn w'.pool = w.stream.takeUpAll (w.stream.windowIn w.pool)
        (values.takeWhile w.stream.accepts) := by
  induction values generalizing w role with
  | nil => exact ⟨w, role, rfl, h, .refl _ _, rfl, rfl⟩
  | cons v rest ih =>
    rw [Stream.refusalIn?, List.findSome?_cons, List.takeWhile_cons]
    cases hv : w.stream.refusal? (.number v.2) with
    | some e =>
      have haccepts : w.stream.accepts v = false := by simp [Stream.accepts, hv]
      rw [PooledStream.gather_cons_refused rest hv, if_neg (by simp [haccepts])]
      have hspares : w.pool.Spares (w.pool.add w.stream.freshAggregator)
          fun i => role i = .foreign := Pool.Spares.add
      exact ⟨_, role, rfl, h.elsewhere hspares, ⟨Pool.Spares.add, fun _ hf => hf, rfl⟩, rfl,
        h.windowIn_elsewhere hspares⟩
    | none =>
      have haccepts : w.stream.accepts v = true := by simp [Stream.accepts, hv]
      obtain ⟨w₁, role₁, hgather, h₁, hadv₁, hstart₁, hwindow₁⟩ := h.gather_cons_accepted rest hv
      obtain ⟨w', role', hgather', h', hadv', hstart', hwindow'⟩ := ih h₁
      have hstream : w.stream.Continues w₁.stream := hadv₁.stream
      rw [hstream.refusalIn?] at hgather'
      rw [hstream.accepts, hstream.takeUpAll, hwindow₁] at hwindow'
      rw [if_pos haccepts]
      exact ⟨w', role', hgather.trans hgather', h', hadv₁.trans hadv', hstart'.trans hstart₁,
        hwindow'⟩

/-! ### Whole cycles -/

/-- The end of a cycle lets go of the window, unless it never ends. -/
theorem skip (h : Observes w.pool w.stream role) (time : Int) :
    ∃ role', Observes (w.skip time).pool (w.skip time).stream role' ∧
      Advances role role' w.alone (w.skip time).alone := by
  have hcontinues := w.stream.continues_endWindow time
  cases htemp : w.stream.temporality with
  | cumulative =>
    refine ⟨role, ?_, ⟨.refl _, fun _ hf => hf, hcontinues⟩⟩
    show Observes w.pool (w.stream.endWindow time) role
    rw [Stream.endWindow_cumulative htemp]
    exact h
  | delta =>
    refine ⟨fun _ => .foreign, ?_, ⟨.refl _, fun _ _ => rfl, hcontinues⟩⟩
    refine start w.pool ?_
    show (w.stream.endWindow time).window = _
    rw [Stream.endWindow_delta htemp]

end Observes

/-- What an observer reports at the end of a cycle, for a stream whose window holds some
aggregators. -/
def Stream.report (s : Stream) (window : OrderedMap LabelSet Aggregator)
    (observed : Option (List (LabelSet × Number))) (time : Int) : Except Failure (List Metric) :=
  match observed with
  | none => .ok []
  | some values =>
    match s.refusalIn? values with
    | some e => .error (.record e)
    | none => .ok (s.metricsOf (s.takeUpAll window values) time)

/-- The window of an observer after a cycle: a refused value leaves it open, with the values before
it taken up. -/
def Stream.afterCycle (s : Stream) (window : OrderedMap LabelSet Aggregator)
    (observed : Option (List (LabelSet × Number))) : OrderedMap LabelSet Aggregator :=
  match observed with
  | none => s.afterEnd window
  | some values =>
    match s.refusalIn? values with
    | some _ => s.takeUpAll window (values.takeWhile s.accepts)
    | none => s.afterEnd (s.takeUpAll window values)

/-- The start of the window after a cycle. -/
def Stream.startAfterCycle (s : Stream) (observed : Option (List (LabelSet × Number)))
    (time : Int) : Int :=
  match s.refusalIn? (observed.getD []) with
  | some _ => s.start
  | none => (s.endWindow time).start

namespace Stream

variable {s : Stream} {window : OrderedMap LabelSet Aggregator}

theorem report_of_accepted {values : List (LabelSet × Number)} (h : s.refusalIn? values = none)
    (time : Int) : s.report window (some values) time
      = .ok (s.metricsOf (s.takeUpAll window values) time) := by
  unfold report
  dsimp only
  rw [h]

/-- Without a refused value the window ends, with all that was observed. -/
theorem afterCycle_of_accepted {observed : Option (List (LabelSet × Number))}
    (h : s.refusalIn? (observed.getD []) = none) :
    s.afterCycle window observed = s.afterEnd (s.takeUpAll window (observed.getD [])) := by
  unfold afterCycle
  cases observed with
  | none => rfl
  | some values =>
    rw [Option.getD_some] at h ⊢
    dsimp only
    rw [h]

theorem startAfterCycle_of_accepted {observed : Option (List (LabelSet × Number))}
    (h : s.refusalIn? (observed.getD []) = none) (time : Int) :
    s.startAfterCycle observed time = (s.endWindow time).start := by
  unfold startAfterCycle
  rw [h]

end Stream

namespace Stream.Continues

variable {s s' : Stream}

theorem report (h : s.Continues s') (hstart : s'.start = s.start) : s'.report = s.report := by
  unfold Stream.report
  rw [h.refusalIn?, h.takeUpAll, h.metricsOf hstart]

theorem afterCycle (h : s.Continues s') : s'.afterCycle = s.afterCycle := by
  unfold Stream.afterCycle
  rw [h.refusalIn?, h.takeUpAll, h.accepts, h.afterEnd]

theorem startAfterCycle (h : s.Continues s') (hstart : s'.start = s.start)
    (observed : Option (List (LabelSet × Number))) (time : Int) :
    s'.startAfterCycle observed time = s.startAfterCycle observed time := by
  unfold Stream.startAfterCycle
  rw [h.refusalIn?, hstart, h.start_endWindow hstart]

end Stream.Continues

/-- **A cycle** of an observer. -/
theorem Observes.close {w : PooledStream} {role : AggregatorId → Role}
    (h : Observes w.pool w.stream role) (observed : Option (List (LabelSet × Number)))
    (time : Int) :
    ∃ (w' : PooledStream) (role' : AggregatorId → Role), w.close observed time
        = (w.stream.report (w.stream.windowIn w.pool) observed time, w') ∧
      Observes w'.pool w'.stream role' ∧ Advances role role' w.alone w'.alone ∧
      w'.stream.start = w.stream.startAfterCycle observed time ∧
      w'.stream.windowIn w'.pool
        = w.stream.afterCycle (w.stream.windowIn w.pool) observed := by
  cases observed with
  | none =>
    obtain ⟨role', h', hadv⟩ := h.skip time
    exact ⟨w.skip time, role', rfl, h', hadv, rfl, w.stream.windowIn_endWindow w.pool time⟩
  | some values =>
    obtain ⟨w₁, role₁, hgather, h₁, hadv₁, hstart₁, hwindow₁⟩ := h.gather values
    unfold PooledStream.close Stream.report Stream.afterCycle Stream.startAfterCycle
    dsimp only [Option.getD_some]
    rw [hgather]
    cases hv : w.stream.refusalIn? values with
    | some e => exact ⟨w₁, role₁, rfl, h₁, hadv₁, hstart₁, hwindow₁⟩
    | none =>
      obtain ⟨role', h', hadv⟩ := h₁.skip time
      have hstream : w.stream.Continues w₁.stream := hadv₁.stream
      rw [Stream.takeWhile_accepts hv] at hwindow₁
      refine ⟨w₁.skip time, role', ?_, h', hadv₁.trans hadv, ?_, ?_⟩
      · show (Except.ok (w₁.stream.metrics w₁.pool time), w₁.skip time) = _
        rw [Stream.metrics_eq, hwindow₁, hstream.metricsOf hstart₁]
      · exact hstream.start_endWindow hstart₁ time
      · show (w₁.stream.endWindow time).windowIn w₁.pool = _
        rw [Stream.windowIn_endWindow, hwindow₁, hstream.afterEnd]

end Metering
