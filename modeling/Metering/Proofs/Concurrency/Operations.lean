import Metering.Proofs.Concurrency.Conservation

/-!
# Whole operations as runs

Binding, adding and collecting are runs of the steps of threads.  `Threads.run_bind` and
`Threads.run_add` are about operations that nobody interferes with; `Threads.run_collect` is about a
collection into which whole operations of other threads may come after every attempt to retire an
aggregator.  None of them fails unless a caller gives something that cannot be recorded.
-/

namespace Metering

open Fallible

theorem Accumulation.acquireLive?_eq (a : Accumulation) (l : LabelSet) :
    a.acquireLive? l
      = ((a.live.get? l).bind fun i => (a.pool.acquire? i).map fun p => (i, p)).map
          fun x => (x.1, { a with pool := x.2 }) := by
  unfold acquireLive?
  cases a.live.get? l with
  | none => rfl
  | some i =>
    show _ = ((a.pool.acquire? i).map _).map _
    rw [Option.map_map]
    rfl

namespace Threads

section

variable {α : Type} [Recordable α] {isTotal : α → List α → Prop} {role : AggregatorId → Role}
  {t : Threads} {g : Ledger α}

/-! ### Binding -/

/-- **Binding** is a run that ends with one more reference held. -/
theorem run_bind (hadd : AddsUp isTotal) (h : Sound isTotal role t g) (l : LabelSet) :
    ∃ i a events, Accumulation.bind l t.accumulation = (.ok i, a) ∧
      t.run events = { t with accumulation := a, held := (l, i) :: t.held } ∧
      g.after t events = g := by
  -- the operation and the thread look up the same, and the thread's entry comes and goes
  have hacquire := t.accumulation.acquireLive?_eq l
  have hlook : Binding.looked l (t.live.get? l) ∈ (t.step (.look l)).bindings :=
    List.mem_cons_self
  have herase : (t.step (.look l)).bindings.erase (.looked l (t.live.get? l)) = t.bindings :=
    List.erase_cons_head ..
  cases hf : (t.accumulation.live.get? l).bind fun i =>
      (t.accumulation.pool.acquire? i).map fun p => (i, p) with
  | some x =>
    obtain ⟨i, p⟩ := x
    rw [hf] at hacquire
    refine ⟨i, { t.accumulation with pool := p },
      [.look l, .bind (.looked l (t.live.get? l))], ?_, ?_, rfl⟩
    · unfold Accumulation.bind Accumulation.bindDuring
      simp only [bind_apply, get_apply, hacquire, Option.map_some, set_apply, pure_apply]
    · have hadvance : (Binding.looked l (t.live.get? l)).advance t.accumulation
          = (.ok (.inr i), { t.accumulation with pool := p }) := by
        unfold Binding.advance
        simp only [bind_apply, get_apply, hf, set_apply, pure_apply, live]
      show (t.step (.look l)).step (.bind _) = _
      rw [step_bind_done hlook hadvance, herase]
      rfl
  | none =>
    rw [hf] at hacquire
    obtain ⟨i, a, -, hsettle, -, -⟩ := (h.prepare hadd l).advance_prepared hadd List.mem_cons_self
    refine ⟨i, a, [.look l, .bind (.looked l (t.live.get? l)), .bind (.prepared l t.pool.next)],
      ?_, ?_, rfl⟩
    · unfold Accumulation.bind Accumulation.bindDuring
      simp only [bind_apply, get_apply, hacquire, Option.map_none, pure_apply,
        Accumulation.candidate_eq]
      exact hsettle
    · have hadvance : (Binding.looked l (t.live.get? l)).advance t.accumulation
          = (.ok (.inl (.prepared l t.pool.next)), { t.accumulation with
              pool := (t.pool.add t.stream.freshAggregator).setReferences t.pool.next
                (.held 1) }) := by
        unfold Binding.advance
        simp only [bind_apply, get_apply, hf, pure_apply, Accumulation.candidate_eq, live]
        rfl
      have hadvance' : ∀ {b : Accumulation}, Accumulation.settle l t.pool.next b = (.ok i, a) →
          (Binding.prepared l t.pool.next).advance b = (.ok (.inr i), a) := by
        intro b hb
        unfold Binding.advance
        simp only [bind_apply, hb, pure_apply]
      show ((t.step (.look l)).step (.bind _)).step (.bind _) = _
      rw [step_bind_on hlook hadvance, herase]
      refine (step_bind_done List.mem_cons_self (hadvance' hsettle)).trans ?_
      rw [List.erase_cons_head]
      rfl

/-! ### Adding -/

/-- **Adding** is a run after which nobody holds another reference than before.  It records the
value, unless the labels or the value are refused. -/
theorem run_add (hadd : AddsUp isTotal) (h : Sound isTotal role t g) (labels : LabelArgument)
    (value : Scalar) :
    ∃ entries events,
      t.run events = { t with
        accumulation := (Accumulation.add labels value t.accumulation).2
        recorded := t.recorded ++ entries } ∧
      ((Accumulation.add labels value t.accumulation).1 = .ok () →
        ∃ l, LabelSet.create labels = .ok l ∧ entries = [(l, value)]) ∧
      (∀ f, (Accumulation.add labels value t.accumulation).1 = .error f → entries = []) := by
  unfold Accumulation.add Accumulation.bindArgument
  cases hl : LabelSet.create labels with
  | error e =>
    refine ⟨[], [], ?_, ?_, fun _ _ => rfl⟩
    · simp only [bind_apply, throw_apply, List.append_nil]
      rfl
    · simp only [bind_apply, throw_apply]
      exact nofun
  | ok l =>
    obtain ⟨i, a, events, hbind, hrun, -⟩ := run_bind hadd h l
    -- the thread has the reference now; it records and releases it, whatever the recording gives
    have hheld : (l, i) ∈ (t.run events).held := by
      rw [hrun]
      exact List.mem_cons_self
    have hlast : t.run (events ++ [.record l i value, .release l i])
        = ((t.run events).step (.record l i value)).step (.release l i) := by
      rw [run_append]
      rfl
    simp only [bind_apply, hbind, tryCatch_apply]
    cases hp : a.pool.record i value with
    | ok p =>
      have hrecord := Accumulation.record_of_ok hp
      refine ⟨[(l, value)], events ++ [.record l i value, .release l i], ?_, ?_, ?_⟩
      · have hstep := step_record_ok hheld (by rw [hrun]; exact hrecord)
        rw [hlast, hstep, hrun]
        refine (step_release List.mem_cons_self).trans ?_
        simp only [hrecord, List.erase_cons_head]
      · intro _
        exact ⟨l, rfl, rfl⟩
      · intro f hf
        simp only [hrecord] at hf
        cases hf
    | error e =>
      have hrecord := Accumulation.record_of_error hp
      refine ⟨[], events ++ [.record l i value, .release l i], ?_, ?_, fun _ _ => rfl⟩
      · have hstep := step_record_error hheld (by rw [hrun]; exact hrecord)
        rw [hlast, hstep, hrun]
        refine (step_release List.mem_cons_self).trans ?_
        simp only [hrecord, List.erase_cons_head, List.append_nil]
        rfl
      · intro hok
        simp only [hrecord] at hok
        cases hok

/-- A value that can be read is **added**, except to a monotonic sum if it is negative. -/
theorem add_ok (hadd : AddsUp isTotal) (h : Sound isTotal role t g) {labels : LabelArgument}
    {l : LabelSet} (hl : LabelSet.create labels = .ok l) {value : Scalar} {v : α}
    (hv : Recordable.read value = .ok v)
    (hs : t.stream.shape = .sum true → (Quantity.toNumber v).isNegative = false) :
    (Accumulation.add labels value t.accumulation).1 = .ok () := by
  obtain ⟨i, a, events, hbind, hrun, -⟩ := run_bind hadd h l
  obtain ⟨role', h', hadv⟩ := h.run hadd events
  rw [hrun] at h' hadv
  -- what was bound is live, and aggregates as the stream did from the start
  have hi : role' i = .live l := h'.mapped.holders List.mem_cons_self
  have hshape : a.stream.shape = t.stream.shape := hadv.stream.shape
  obtain ⟨b, hb⟩ := (h'.holds hi nofun).record_of_read hv fun he => hs (hshape.symm.trans he)
  have hp : a.pool.record i value = .ok (a.pool.set i b) := by
    unfold Pool.record
    rw [show (a.pool.get i).record value = .ok b from hb]
    rfl
  unfold Accumulation.add Accumulation.bindArgument
  simp only [hl, bind_apply, hbind, tryCatch_apply, Accumulation.record_of_ok hp]
  rfl

/-! ### Collecting -/

variable {allowed : Event → Prop} {interfere : Accumulation.Interference}

/-- What others do at a moment of a collection is a run of allowed steps after which nobody is
binding who was not before, and the same references are held as before. -/
def IsRun (isTotal : α → List α → Prop) (allowed : Event → Prop)
    (interfere : Accumulation.Interference) : Prop :=
  ∀ i (role : AggregatorId → Role) (t : Threads) (g : Ledger α), Sound isTotal role t g →
    ∃ entries events, (∀ e ∈ events, allowed e) ∧ t.run events = { t with
      accumulation := interfere i t.accumulation
      recorded := t.recorded ++ entries }

theorem isRun_undisturbed : IsRun isTotal (fun _ => False) Accumulation.undisturbed := by
  intro i role t g _
  refine ⟨[], [], fun _ => nofun, ?_⟩
  rw [List.append_nil]
  rfl

/-- Other threads add measurements, depending on the aggregator that the collection has just tried
to retire. -/
def addsDuring (plan : AggregatorId → List (LabelArgument × Scalar)) : Accumulation.Interference :=
  fun i a => (plan i).foldl (fun a m => (Accumulation.add m.1 m.2 a).2) a

/-- **Adds of other threads** are runs. -/
theorem isRun_addsDuring (hadd : AddsUp isTotal)
    (plan : AggregatorId → List (LabelArgument × Scalar)) :
    IsRun isTotal (fun _ => True) (addsDuring plan) := by
  intro i role t g h
  unfold addsDuring
  induction plan i generalizing role t g with
  | nil =>
    refine ⟨[], [], fun _ => nofun, ?_⟩
    rw [List.append_nil]
    rfl
  | cons m ms ih =>
    obtain ⟨entries, events, hrun, -, -⟩ := run_add hadd h m.1 m.2
    obtain ⟨role', h', -⟩ := h.run hadd events
    obtain ⟨entries', events', -, hrun'⟩ := ih role' (t.run events) _ h'
    refine ⟨entries ++ entries', events ++ events', fun _ _ => trivial, ?_⟩
    rw [run_append, hrun', hrun, List.foldl_cons, List.append_assoc]

/-- What is left to do for a retired aggregator. -/
theorem finish_retired (hadd : AddsUp isTotal) (h : Sound isTotal role t g) {l : LabelSet}
    {i : AggregatorId} {rest : List (LabelSet × AggregatorId)}
    (hc : t.collector = .tried l i true rest) :
    ∃ a, Accumulation.onStream (·.batch l i true)
        (if t.live.get? l = some i then { t.accumulation with live := t.live.erase l }
          else t.accumulation) = (.ok (), a) ∧
      t.run [.collect 0, .collect 0]
        = { t with accumulation := a, collector := .draining rest } := by
  have hremove : t.step (.collect 0) = _ :=
    step_collect_silent (by rw [hc]; exact Collector.advance_tried_true)
  obtain ⟨w, -, hbatch, -, -⟩ := (h.remove hc).batch_retired hadd rfl
  refine ⟨{ (if t.live.get? l = some i then { t.accumulation with live := t.live.erase l }
    else t.accumulation) with toPooledStream := w }, ?_, ?_⟩
  · unfold Accumulation.onStream
    dsimp only at hbatch ⊢
    rw [hbatch]
  · show (t.step (.collect 0)).step (.collect 0) = _
    rw [hremove]
    exact step_collect_silent (Collector.advance_removed hbatch)

/-- What is left to do for an aggregator that stays live. -/
theorem finish_live (hadd : AddsUp isTotal) (h : Sound isTotal role t g) {l : LabelSet}
    {i : AggregatorId} {rest : List (LabelSet × AggregatorId)}
    (hc : t.collector = .tried l i false rest) :
    ∃ a, Accumulation.onStream (·.batch l i false) t.accumulation = (.ok (), a) ∧
      t.run [.collect 0] = { t with accumulation := a, collector := .draining rest } := by
  obtain ⟨w, -, hbatch, -, -⟩ := h.batch_live hadd hc
  refine ⟨{ t.accumulation with toPooledStream := w }, ?_,
    step_collect_silent (by rw [hc]; exact Collector.advance_tried_false hbatch)⟩
  unfold Accumulation.onStream
  dsimp only
  rw [hbatch]

/-- **Draining** one entry of the snapshot is a run. -/
theorem run_drain (hadd : AddsUp isTotal) (hi : IsRun isTotal allowed interfere)
    (h : Sound isTotal role t g) {l : LabelSet} {i : AggregatorId}
    {rest : List (LabelSet × AggregatorId)} (hc : t.collector = .draining ((l, i) :: rest)) :
    ∃ a entries events, Accumulation.drain interfere l i t.accumulation = (.ok (), a) ∧
      (∀ e ∈ events, allowed e ∨ e = .collect 0) ∧
      t.run events = { t with
        accumulation := a
        collector := .draining rest
        recorded := t.recorded ++ entries } := by
  have hretire : t.step (.collect 0) = _ :=
    step_collect_silent (by rw [hc]; exact Collector.advance_draining_cons)
  obtain ⟨role₁, h₁, -⟩ := h.collect hadd 0
  obtain ⟨entries, events, hallowed, hothers⟩ := hi i role₁ _ _ h₁
  obtain ⟨role₂, h₂, -⟩ := h₁.run hadd events
  have hrun : ∀ last, t.run ([.collect 0] ++ events ++ last)
      = ((t.step (.collect 0)).run events).run last := by
    intro last
    rw [run_append, run_append]
    rfl
  -- from here on only what the others have left counts
  generalize (t.step (.collect 0)).run events = t₂ at hothers h₂ hrun
  rw [hretire] at hothers
  have hevents : ∀ last, (∀ e ∈ last, e = Event.collect 0) →
      ∀ e ∈ [.collect 0] ++ events ++ last, allowed e ∨ e = .collect 0 := by
    intro last hlast e he
    simp only [List.mem_append, List.mem_singleton] at he
    obtain (he | he) | he := he
    · exact Or.inr he
    · exact Or.inl (hallowed e he)
    · exact Or.inr (hlast e he)
  unfold Accumulation.drain
  simp only [bind_apply, get_apply, set_apply]
  cases hu : (t.accumulation.pool.retire? i).isSome with
  | true =>
    obtain ⟨a, hdo, hlast⟩ := finish_retired hadd h₂ (by rw [hothers, hu])
    refine ⟨a, entries, [.collect 0] ++ events ++ [.collect 0, .collect 0], ?_,
      hevents _ (by simp), ?_⟩
    · rw [hothers] at hdo
      simp only [if_pos, bind_apply, modify_apply]
      exact hdo
    · rw [hrun, hlast, hothers]
  | false =>
    obtain ⟨a, hdo, hlast⟩ := finish_live hadd h₂ (by rw [hothers, hu])
    refine ⟨a, entries, [.collect 0] ++ events ++ [.collect 0], ?_, hevents _ (by simp), ?_⟩
    · rw [hothers] at hdo
      exact hdo
    · rw [hrun, hlast, hothers]

/-- **Draining** the rest of the snapshot is a run. -/
theorem run_drainAll (hadd : AddsUp isTotal) (hi : IsRun isTotal allowed interfere)
    (rest : List (LabelSet × AggregatorId)) (h : Sound isTotal role t g)
    (hc : t.collector = .draining rest) :
    ∃ a entries events,
      (rest.forM fun e => Accumulation.drain interfere e.1 e.2) t.accumulation = (.ok (), a) ∧
      (∀ e ∈ events, allowed e ∨ e = .collect 0) ∧
      t.run events = { t with
        accumulation := a
        collector := .draining []
        recorded := t.recorded ++ entries } := by
  induction rest generalizing role t g with
  | nil =>
    refine ⟨t.accumulation, [], [], rfl, fun _ => nofun, ?_⟩
    rw [List.append_nil, ← hc]
    rfl
  | cons e rest ih =>
    obtain ⟨l, i⟩ := e
    obtain ⟨a, entries, events, hdrain, hallowed, hrun⟩ := run_drain hadd hi h hc
    obtain ⟨role', h', -⟩ := h.run hadd events
    obtain ⟨a', entries', events', hrest, hallowed', hrun'⟩ := ih h' (by rw [hrun])
    refine ⟨a', entries ++ entries', events ++ events', ?_, ?_, ?_⟩
    · rw [hrun] at hrest
      show (Accumulation.drain interfere l i >>= fun _ => rest.forM _) t.accumulation = _
      rw [bind_apply, hdrain]
      exact hrest
    · intro e he
      exact (List.mem_append.mp he).elim (hallowed e) (hallowed' e)
    · rw [run_append, hrun', hrun, List.append_assoc]

/-- **Collecting** is a run that ends with one more report. -/
theorem run_collect (hadd : AddsUp isTotal) (hi : IsRun isTotal allowed interfere)
    (h : Sound isTotal role t g) (hc : t.collector = .idle) (time : Int) :
    ∃ metrics a entries events,
      Accumulation.collect interfere time t.accumulation = (.ok metrics, a) ∧
      (∀ m ∈ metrics, m.origin = t.stream.origin) ∧
      (∀ e ∈ events, allowed e ∨ ∃ time, e = .collect time) ∧
      t.run (.collect time :: events) = { t with
        accumulation := a
        recorded := t.recorded ++ entries
        reports := t.reports ++ [metrics] } := by
  -- a snapshot, then what the drain of its entries does, then the report
  have hsnapshot : t.step (.collect time) = _ :=
    step_collect_silent (by rw [hc]; exact Collector.advance_idle)
  obtain ⟨role₁, h₁, -⟩ := h.collect hadd time
  obtain ⟨a, entries, events, hdrain, hallowed, hrun⟩ :=
    run_drainAll hadd hi t.accumulation.live.entries h₁ (by rw [hsnapshot])
  obtain ⟨role₂, -, hadv⟩ := h₁.run hadd events
  rw [hrun] at hadv
  rw [hsnapshot] at hdrain hadv
  refine ⟨(a.toPooledStream.complete time).1,
    { a with toPooledStream := (a.toPooledStream.complete time).2 }, entries,
    events ++ [.collect time], ?_, ?_, ?_, ?_⟩
  · unfold Accumulation.collect Accumulation.onStream
    simp only [bind_apply, get_apply]
    dsimp only at hdrain
    rw [hdrain]
  · intro m hm
    exact (Stream.origin_of_mem hm).trans hadv.stream.origin
  · intro e he
    rcases List.mem_append.mp he with he | he
    · exact (hallowed e he).imp_right fun he => ⟨0, he⟩
    · exact Or.inr ⟨time, List.mem_singleton.mp he⟩
  · show (t.step (.collect time)).run (events ++ [.collect time]) = _
    rw [run_append, hrun, hsnapshot]
    refine (step_collect (t := { t with
      accumulation := a, collector := .draining [], recorded := t.recorded ++ entries })
      Collector.advance_draining_nil).trans ?_
    rw [← hc]
    rfl

end

end Threads

end Metering
