import Metering.Proofs.Concurrency.Sweeping
import Metering.Proofs.Instruments.Accumulations

/-!
# Instruments and handles at work

`Tracks` ties a system to the threads that work on one of its instruments, at a moment when nobody
is binding: the accumulation is that of the instrument, and the references that are held are those
of its handles.  Recording into the instrument, binding it, recording on a handle, releasing a
handle and collecting are runs of the threads, and keep the tie.
-/

namespace Metering

open Fallible SystemM

variable {σ : Type}

/-- The threads of an instrument in a system, when nobody is binding. -/
structure Tracks (s : System σ) (r : Ref .instrument) (bound : List (Ref .handle × LabelSet))
    (t : Threads) : Prop where
  accumulation : s.accumulation? r = some t.accumulation
  bindings : t.bindings = []
  held : t.held.Perm (s.heldOn r bound)

/-- The handles that were bound are all there, and listed once. -/
structure Handled (s : System σ) (bound : List (Ref .handle × LabelSet)) : Prop where
  nodup : (bound.map Prod.fst).Nodup
  present : ∀ b ∈ bound, ∃ x, s.handles.get? b.1 = some x

/-! ### What the operations compute -/

namespace SystemM

variable {s : System σ} {r : Ref .instrument} {a : Accumulation}

theorem instrument_of_accumulation? (h : s.accumulation? r = some a) :
    ∃ i live, instrument r s = (.ok i, s) ∧ i.accumulator = .synchronous live := by
  obtain ⟨i, hi, hacc⟩ := Option.bind_eq_some_iff.mp h
  obtain ⟨live, processor, hl, -, -⟩ := Instrument.accumulation?_eq_some hacc
  refine ⟨i, live, ?_, hl⟩
  unfold instrument
  simp only [bind_apply, get_apply, demand_apply, hi]

theorem recordInstrument_apply (h : s.accumulation? r = some a) (value : Scalar)
    (labels : LabelArgument) : recordInstrument r value labels s
      = ((Accumulation.add labels value a).1,
          s.withAccumulation r (Accumulation.add labels value a).2) := by
  obtain ⟨i, live, hi, hl⟩ := instrument_of_accumulation? h
  unfold recordInstrument
  simp only [bind_apply, hi, hl]
  exact onAccumulation_apply h _

theorem bindInstrument_apply (h : s.accumulation? r = some a) (labels : LabelArgument) :
    bindInstrument r labels s
      = ((Accumulation.bindArgument labels a).1,
          s.withAccumulation r (Accumulation.bindArgument labels a).2) := by
  obtain ⟨i, live, hi, hl⟩ := instrument_of_accumulation? h
  unfold bindInstrument
  simp only [bind_apply, hi, hl]
  exact onAccumulation_apply h _

theorem bindHandle_of_error (h : s.accumulation? r = some a) {labels : LabelArgument}
    {e : LabelError} (hl : LabelSet.create labels = .error e) :
    bindHandle r labels s = (.error (.labels e), s) := by
  obtain ⟨i, live, hi, -⟩ := instrument_of_accumulation? h
  have hbind : Accumulation.bindArgument labels a = (.error (.labels e), a) := by
    unfold Accumulation.bindArgument
    rw [hl]
    rfl
  unfold bindHandle
  simp only [bind_apply, hi, bindInstrument_apply h, hbind, System.withAccumulation_self h]

theorem bindHandle_of_ok (h : s.accumulation? r = some a) {labels : LabelArgument}
    {l : LabelSet} (hl : LabelSet.create labels = .ok l) {i : AggregatorId} {b : Accumulation}
    (hb : Accumulation.bind l a = (.ok i, b)) :
    ∃ name, bindHandle r labels s
      = (.ok s.handles.next, { s.withAccumulation r b with
          handles := s.handles.add ⟨r, name, i, false⟩ }) := by
  obtain ⟨x, live, hx, -⟩ := instrument_of_accumulation? h
  have hbind : Accumulation.bindArgument labels a = (.ok i, b) := by
    unfold Accumulation.bindArgument
    rw [hl]
    exact hb
  refine ⟨x.descriptor.name, ?_⟩
  unfold bindHandle
  simp only [bind_apply, hx, bindInstrument_apply h, hbind, get_apply, modify_apply, pure_apply]
  rfl

variable {h : Ref .handle} {x : Handle}

theorem recordInto_apply (i : AggregatorId) (value : Scalar) (s : System σ) :
    recordInto i value s = match s.pool.record i value with
      | .ok p => (.ok (), { s with pool := p })
      | .error e => (.error (.record e), s) := by
  unfold recordInto
  simp only [bind_apply, get_apply]
  cases s.pool.record i value <;> rfl

theorem recordHandle_of_none (hx : s.handles.get? h = none) (value : Scalar) :
    recordHandle h value s = (.error (.unusable "handle"), s) := by
  unfold recordHandle
  simp only [bind_apply, get_apply, demand_apply, hx]

theorem recordHandle_of_released (hx : s.handles.get? h = some x) (hr : x.released = true)
    (value : Scalar) : ∃ entries, recordHandle h value s
      = (.ok (), { s with log := s.log ++ entries }) := by
  unfold recordHandle
  simp only [bind_apply, get_apply, demand_apply, hx, hr, if_pos]
  exact ⟨_, rfl⟩

theorem recordHandle_of_open (hx : s.handles.get? h = some x) (hr : x.released = false)
    (value : Scalar) : recordHandle h value s = recordInto x.aggregator value s := by
  unfold recordHandle
  simp only [bind_apply, get_apply, demand_apply, hx, hr]
  rfl

theorem releaseHandle_of_none (hx : s.handles.get? h = none) :
    releaseHandle h s = (.error (.unusable "handle"), s) := by
  unfold releaseHandle
  simp only [bind_apply, get_apply, demand_apply, hx]

theorem releaseHandle_of_released (hx : s.handles.get? h = some x) (hr : x.released = true) :
    ∃ entries, releaseHandle h s = (.ok (), { s with log := s.log ++ entries }) := by
  unfold releaseHandle
  simp only [bind_apply, get_apply, demand_apply, hx, hr, if_pos]
  exact ⟨_, rfl⟩

theorem releaseHandle_of_open (hx : s.handles.get? h = some x) (hr : x.released = false) :
    releaseHandle h s = (.ok (), { s with
      handles := s.handles.set h { x with released := true }
      pool := s.pool.release x.aggregator }) := by
  unfold releaseHandle
  simp only [bind_apply, get_apply, demand_apply, hx, hr]
  rfl

/-- A handle is open, or it is missing or released. -/
theorem open_or_closed (s : System σ) (h : Ref .handle) :
    (∃ x, s.handles.get? h = some x ∧ x.released = false) ∨
      ∀ x ∈ s.handles.get? h, x.released = true := by
  cases hx : s.handles.get? h with
  | none => exact .inr fun x hx => absurd hx (Option.not_mem_none x)
  | some x =>
    cases hr : x.released with
    | false => exact .inl ⟨x, rfl, hr⟩
    | true =>
      refine .inr fun y hy => ?_
      obtain rfl := Option.some.inj hy
      exact hr

/-- **Recording** on a handle that is missing or released only adds to the log. -/
theorem recordHandle_of_closed (hx : ∀ x ∈ s.handles.get? h, x.released = true) (value : Scalar) :
    ∃ log, (recordHandle h value s).2 = { s with log := log } := by
  cases hget : s.handles.get? h with
  | none => exact ⟨s.log, by rw [recordHandle_of_none hget]⟩
  | some x =>
    obtain ⟨entries, happly⟩ := recordHandle_of_released hget (hx x hget) value
    exact ⟨_, by rw [happly]⟩

/-- **Releasing** a handle that is missing or released only adds to the log. -/
theorem releaseHandle_of_closed (hx : ∀ x ∈ s.handles.get? h, x.released = true) :
    ∃ log, (releaseHandle h s).2 = { s with log := log } := by
  cases hget : s.handles.get? h with
  | none => exact ⟨s.log, by rw [releaseHandle_of_none hget]⟩
  | some x =>
    obtain ⟨entries, happly⟩ := releaseHandle_of_released hget (hx x hget)
    exact ⟨_, by rw [happly]⟩

end SystemM

/-! ### References of handles -/

namespace System

variable {s s' : System σ} {r : Ref .instrument} {bound : List (Ref .handle × LabelSet)}

theorem reference?_eq_some {h : Ref .handle} {i : AggregatorId} :
    s.reference? r h = some i ↔ ∃ x, s.handles.get? h = some x ∧ x.instrument = r ∧
      x.released = false ∧ x.aggregator = i := by
  unfold reference?
  cases s.handles.get? h with
  | none => simp
  | some x =>
    dsimp only
    split
    · next hx => simp [hx]
    · next hx =>
      refine iff_of_false nofun ?_
      rintro ⟨y, he, hr, hf, -⟩
      obtain rfl := Option.some.inj he
      exact hx ⟨hr, hf⟩

/-- **Binding** adds one reference for the instrument that is bound, and none for others. -/
theorem heldOn_add (hb : Handled s bound) {x : Handle} (hs : s'.handles = s.handles.add x)
    (hx : x.released = false) (l : LabelSet) :
    s'.heldOn r ((s.handles.next, l) :: bound)
      = if x.instrument = r then (l, x.aggregator) :: s.heldOn r bound else s.heldOn r bound := by
  -- the new handle is none of those that were bound before
  have hold : s'.heldOn r bound = s.heldOn r bound := by
    refine heldOn_congr fun b hb' => ?_
    obtain ⟨y, hy⟩ := hb.present b hb'
    have hne : b.1 ≠ s.handles.next := by
      intro he
      rw [he, Table.get?_next] at hy
      cases hy
    unfold reference?
    rw [hs, Table.get?_add, if_neg hne]
  have hnew : s'.reference? r s.handles.next
      = if x.instrument = r then some x.aggregator else none := by
    unfold reference?
    rw [hs, Table.get?_add_next]
    dsimp only
    rw [hx]
    simp
  have hcons : s'.heldOn r ((s.handles.next, l) :: bound)
      = ((s'.reference? r s.handles.next).map fun i => (l, i)).toList ++ s'.heldOn r bound := by
    unfold heldOn
    rw [List.filterMap_cons]
    cases s'.reference? r s.handles.next <;> rfl
  rw [hcons, hnew, hold]
  split <;> rfl

/-- **Releasing** a handle gives back its reference, and no other. -/
theorem heldOn_set (hb : Handled s bound) {h : Ref .handle} {l : LabelSet} {x : Handle}
    (hl : (h, l) ∈ bound) (hx : s.handles.get? h = some x) (hr : x.released = false)
    (hs : s'.handles = s.handles.set h { x with released := true }) :
    (s'.heldOn r bound).Perm
      (if x.instrument = r then (s.heldOn r bound).erase (l, x.aggregator)
        else s.heldOn r bound) := by
  have hother : ∀ q, q ≠ h → s'.reference? r q = s.reference? r q := by
    intro q hq
    unfold reference?
    rw [hs, Table.get?_set _ hx, if_neg hq]
  have hgone : s'.reference? r h = none := by
    unfold reference?
    rw [hs, Table.get?_set_self _ hx]
    simp
  have hwas : s.reference? r h = if x.instrument = r then some x.aggregator else none := by
    unfold reference?
    rw [hx]
    simp [hr]
  -- only the entry of the released handle itself counts differently
  have hrest : s'.heldOn r (bound.erase (h, l)) = s.heldOn r (bound.erase (h, l)) := by
    refine heldOn_congr fun b hb' => hother _ fun he => ?_
    have hnodup := ((List.perm_cons_erase hl).map Prod.fst).nodup_iff.mp hb.nodup
    rw [List.map_cons, List.nodup_cons] at hnodup
    exact hnodup.1 (List.mem_map.mpr ⟨b, hb', he⟩)
  have hsplit : ∀ y : System σ, (y.heldOn r bound).Perm
      (((y.reference? r h).map fun i => (l, i)).toList ++ y.heldOn r (bound.erase (h, l))) := by
    intro y
    have hperm : (y.heldOn r bound).Perm (y.heldOn r ((h, l) :: bound.erase (h, l))) :=
      (List.perm_cons_erase hl).filterMap _
    refine hperm.trans (List.Perm.of_eq ?_)
    unfold heldOn
    rw [List.filterMap_cons]
    cases y.reference? r h <;> rfl
  have hnew := hsplit s'
  rw [hgone, hrest] at hnew
  have hold := hsplit s
  rw [hwas] at hold
  refine hnew.trans ?_
  by_cases hi : x.instrument = r
  · rw [if_pos hi] at hold ⊢
    refine ((hold.erase (l, x.aggregator)).trans ?_).symm
    exact List.Perm.of_eq (List.erase_cons_head ..)
  · rw [if_neg hi] at hold ⊢
    exact hold.symm

end System

namespace Handled

variable {s s' : System σ} {bound : List (Ref .handle × LabelSet)}

theorem congr (h : Handled s bound) (hs : s'.handles = s.handles) : Handled s' bound where
  nodup := h.nodup
  present := by
    rw [hs]
    exact h.present

theorem add (h : Handled s bound) {x : Handle} (hs : s'.handles = s.handles.add x)
    (l : LabelSet) : Handled s' ((s.handles.next, l) :: bound) where
  nodup := by
    rw [List.map_cons, List.nodup_cons]
    refine ⟨fun hmem => ?_, h.nodup⟩
    obtain ⟨b, hb, he⟩ := List.mem_map.mp hmem
    obtain ⟨y, hy⟩ := h.present b hb
    rw [he, Table.get?_next] at hy
    cases hy
  present b hb := by
    rw [hs, Table.get?_add]
    rcases List.mem_cons.mp hb with rfl | hb
    · exact ⟨x, if_pos rfl⟩
    · split
      · exact ⟨x, rfl⟩
      · exact h.present b hb

theorem set (h : Handled s bound) {q : Ref .handle} {x y : Handle}
    (hx : s.handles.get? q = some x) (hs : s'.handles = s.handles.set q y) : Handled s' bound where
  nodup := h.nodup
  present b hb := by
    rw [hs, Table.get?_set _ hx]
    split
    · exact ⟨y, rfl⟩
    · exact h.present b hb

end Handled

/-! ### Operations as runs -/

/-- The system did on one instrument what its threads did; some values were recorded, and nothing
was reported. -/
structure Did (s s' : System σ) (r : Ref .instrument) (bound bound' : List (Ref .handle × LabelSet))
    (t t' : Threads) (entries : List (LabelSet × Scalar)) : Prop where
  tracks : Tracks s' r bound' t'
  run : ∃ events, t.run events = t'
  collector : t'.collector = t.collector
  recorded : t'.recorded = t.recorded ++ entries
  reports : t'.reports = t.reports
  frame : s' = { s.withAccumulation r t'.accumulation with handles := s'.handles, log := s'.log }

namespace Tracks

variable {α : Type} [Recordable α] {isTotal : α → List α → Prop} {role : AggregatorId → Role}
  {t : Threads} {g : Ledger α} {s : System σ} {r : Ref .instrument}
  {bound : List (Ref .handle × LabelSet)}

/-- The handles of a system with other contents hold the same references. -/
theorem of_handles {s' : System σ} {t' : Threads} (ht : Tracks s r bound t)
    (hs : s'.accumulation? r = some t'.accumulation) (hb : t'.bindings = t.bindings)
    (hheld : t'.held = t.held) (hh : s'.handles = s.handles) : Tracks s' r bound t' where
  accumulation := hs
  bindings := hb.trans ht.bindings
  held := by
    rw [hheld, System.heldOn_congr fun b _ => System.reference?_congr hh b.1]
    exact ht.held

/-- Nothing was done but to add to the log. -/
theorem did_log (ht : Tracks s r bound t) (log : List LogEntry) :
    Did s { s with log := log } r bound bound t t [] where
  tracks := ht.of_handles ht.accumulation rfl rfl rfl
  run := ⟨[], rfl⟩
  collector := rfl
  recorded := (List.append_nil _).symm
  reports := rfl
  frame := by rw [System.withAccumulation_self ht.accumulation]

/-- A run after which the same references are held. -/
theorem did_run (ht : Tracks s r bound t) {events : List Event} {a : Accumulation}
    {entries : List (LabelSet × Scalar)}
    (hrun : t.run events = { t with accumulation := a, recorded := t.recorded ++ entries }) :
    Did s (s.withAccumulation r a) r bound bound t
      { t with accumulation := a, recorded := t.recorded ++ entries } entries where
  tracks := ht.of_handles (System.accumulation?_withAccumulation_self ht.accumulation a) rfl rfl rfl
  run := ⟨events, hrun⟩
  collector := rfl
  recorded := rfl
  reports := rfl
  frame := rfl

/-- **Recording** into the instrument. -/
theorem record (hadd : AddsUp isTotal) (h : Sound isTotal role t g) (ht : Tracks s r bound t)
    (value : Scalar) (labels : LabelArgument) :
    ∃ t' entries, Did s (recordInstrument r value labels s).2 r bound bound t t' entries ∧
      ((recordInstrument r value labels s).1 = .ok () →
        ∃ l, LabelSet.create labels = .ok l ∧ entries = [(l, value)]) ∧
      (∀ f, (recordInstrument r value labels s).1 = .error f → entries = []) := by
  obtain ⟨entries, events, hrun, hok, herror⟩ := Threads.run_add hadd h labels value
  rw [recordInstrument_apply ht.accumulation]
  exact ⟨_, entries, ht.did_run hrun, hok, herror⟩

/-- **Binding** a handle to labels that are accepted. -/
theorem bind (hadd : AddsUp isTotal) (h : Sound isTotal role t g) (ht : Tracks s r bound t)
    (hb : Handled s bound) {labels : LabelArgument} {l : LabelSet}
    (hl : LabelSet.create labels = .ok l) :
    ∃ t' x, (bindHandle r labels s).1 = .ok s.handles.next ∧
      (bindHandle r labels s).2.handles = s.handles.add x ∧ x.instrument = r ∧
      x.released = false ∧
      Did s (bindHandle r labels s).2 r bound ((s.handles.next, l) :: bound) t t' [] := by
  obtain ⟨i, a, events, hbind, hrun, -⟩ := Threads.run_bind hadd h l
  obtain ⟨name, hhandle⟩ := bindHandle_of_ok ht.accumulation hl hbind
  rw [hhandle]
  refine ⟨{ t with accumulation := a, held := (l, i) :: t.held }, ⟨r, name, i, false⟩, rfl, rfl,
    rfl, rfl, ?_⟩
  exact
    { tracks :=
        { accumulation := System.accumulation?_withAccumulation_self ht.accumulation a
          bindings := ht.bindings
          held := by
            rw [System.heldOn_add hb rfl rfl, if_pos rfl]
            exact ht.held.cons _ }
      run := ⟨events, hrun⟩
      collector := rfl
      recorded := (List.append_nil _).symm
      reports := rfl
      frame := rfl }

/-- What an open handle refers to is held. -/
theorem mem_held (ht : Tracks s r bound t) {q : Ref .handle} {l : LabelSet} {x : Handle}
    (hl : (q, l) ∈ bound) (hx : s.handles.get? q = some x) (hr : x.instrument = r)
    (ho : x.released = false) : (l, x.aggregator) ∈ t.held := by
  rw [ht.held.mem_iff, System.mem_heldOn]
  exact ⟨q, hl, System.reference?_eq_some.mpr ⟨x, hx, hr, ho, rfl⟩⟩

/-- **Recording** on a handle of the instrument that is not released. -/
theorem recordOn (ht : Tracks s r bound t) {q : Ref .handle} {l : LabelSet} {x : Handle}
    (hl : (q, l) ∈ bound) (hx : s.handles.get? q = some x) (hr : x.instrument = r)
    (ho : x.released = false) (value : Scalar) :
    ∃ t' entries, Did s (recordHandle q value s).2 r bound bound t t' entries ∧
      ((recordHandle q value s).1 = .ok () → entries = [(l, value)]) ∧
      (∀ f, (recordHandle q value s).1 = .error f → entries = []) := by
  have hpool := System.accumulation?_pool ht.accumulation
  rw [recordHandle_of_open hx ho, recordInto_apply]
  cases hp : s.pool.record x.aggregator value with
  | error e => exact ⟨t, [], ht.did_log s.log, nofun, fun _ _ => rfl⟩
  | ok p =>
    have hrun := Threads.step_record_ok (ht.mem_held hl hx hr ho)
      (Accumulation.record_of_ok (hpool ▸ hp))
    have hdid := ht.did_run (show t.run [.record l x.aggregator value] = _ from hrun)
    rw [System.withAccumulation_pool ht.accumulation] at hdid
    exact ⟨_, _, hdid, fun _ => rfl, nofun⟩

/-- **Releasing** a handle of the instrument that is not released. -/
theorem release (ht : Tracks s r bound t) (hb : Handled s bound) {q : Ref .handle} {l : LabelSet}
    {x : Handle} (hl : (q, l) ∈ bound) (hx : s.handles.get? q = some x) (hr : x.instrument = r)
    (ho : x.released = false) :
    ∃ t', Did s (releaseHandle q s).2 r bound bound t t' [] := by
  have hpool := System.accumulation?_pool ht.accumulation
  have hsystem := System.withAccumulation_pool ht.accumulation (s.pool.release x.aggregator)
  have hself := System.accumulation?_withAccumulation_self ht.accumulation
    { t.accumulation with pool := s.pool.release x.aggregator }
  rw [hsystem] at hself
  rw [releaseHandle_of_open hx ho]
  refine ⟨{ t with
    accumulation := { t.accumulation with pool := s.pool.release x.aggregator }
    held := t.held.erase (l, x.aggregator) }, ?_⟩
  constructor
  case tracks =>
    refine ⟨hself, ht.bindings, ?_⟩
    refine (ht.held.erase (l, x.aggregator)).trans
      (((System.heldOn_set (r := r) hb hl hx ho rfl).trans ?_).symm)
    rw [if_pos hr]
  case run =>
    refine ⟨[.release l x.aggregator], (Threads.step_release (ht.mem_held hl hx hr ho)).trans ?_⟩
    rw [← hpool]
    rfl
  case recorded => exact (List.append_nil _).symm
  case frame => rw [hsystem]
  all_goals rfl

end Tracks

/-! ### Collecting -/

/-- The clock that ends the cycles of an instrument by default is there. -/
def System.Timed (s : System σ) (r : Ref .instrument) : Prop :=
  ∃ i p c, s.instruments.get? r = some i ∧ i.processor = some p ∧ s.clocks.get? p.clock = some c

theorem System.Timed.withAccumulation {s : System σ} {r : Ref .instrument} (h : s.Timed r)
    (a : Accumulation) : (s.withAccumulation r a).Timed r := by
  obtain ⟨i, p, c, hi, hp, hc⟩ := h
  have hget : (s.withAccumulation r a).instruments.get? r = some (i.withAccumulation a) := by
    unfold System.withAccumulation
    rw [hi]
    exact Table.get?_set_self _ hi
  obtain ⟨p', hp', hclock⟩ : ∃ p', (i.withAccumulation a).processor = some p' ∧
      p'.clock = p.clock := by
    unfold Instrument.withAccumulation
    rw [hp]
    cases i.accumulator with
    | synchronous live => exact ⟨_, rfl, rfl⟩
    | asynchronous => exact ⟨p, hp, rfl⟩
    | discarding d => exact ⟨p, hp, rfl⟩
  refine ⟨_, p', c, hget, hp', ?_⟩
  rw [hclock]
  exact hc

theorem SystemM.collectInstrument_apply {s : System σ} {r : Ref .instrument} {a : Accumulation}
    (h : s.accumulation? r = some a) {time : Option Int} (ht : time = none → s.Timed r)
    (perform : σ → SystemM σ Unit) :
    ∃ stop, (∀ x ∈ time, stop = x) ∧ collectInstrument perform r time s
      = ((Accumulation.collect Accumulation.undisturbed stop a).1,
          s.withAccumulation r (Accumulation.collect Accumulation.undisturbed stop a).2) := by
  obtain ⟨i, hi, hacc⟩ := Option.bind_eq_some_iff.mp h
  obtain ⟨live, p, hl, hp, -⟩ := Instrument.accumulation?_eq_some hacc
  obtain ⟨stop, hgiven, hstop⟩ : ∃ stop, (∀ x ∈ time, stop = x) ∧
      timeOr p.clock time s = (.ok stop, s) := by
    cases time with
    | some stop => exact ⟨stop, fun _ hx => Option.some.inj hx, rfl⟩
    | none =>
      obtain ⟨i', p', c, hi', hp', hc⟩ := ht rfl
      obtain rfl := Option.some.inj (hi.symm.trans hi')
      obtain rfl := Option.some.inj (hp.symm.trans hp')
      refine ⟨c.now, fun _ => nofun, ?_⟩
      unfold timeOr now clock
      simp only [bind_apply, get_apply, demand_apply, hc, pure_apply]
  refine ⟨stop, hgiven, ?_⟩
  unfold collectInstrument instrument
  simp only [bind_apply, get_apply, demand_apply, hi, hl, hp, hstop]
  exact onAccumulation_apply h _

theorem Threads.recorded_run {t : Threads} {events : List Event}
    (h : ∀ e ∈ events, ∃ time, e = .collect time) : (t.run events).recorded = t.recorded := by
  induction events generalizing t with
  | nil => rfl
  | cons e events ih =>
    obtain ⟨time, rfl⟩ := h e List.mem_cons_self
    exact (ih fun e he => h e (List.mem_cons_of_mem _ he)).trans
      (recorded_step _ fun _ _ _ => nofun)

/-- **Collecting** an instrument, when nobody interferes: everything that live aggregators held is
reported, and those that nobody refers to are gone. -/
theorem Tracks.collect {α : Type} [Recordable α] {isTotal : α → List α → Prop}
    {role : AggregatorId → Role} {t : Threads} {g : Ledger α} {s : System σ} {r : Ref .instrument}
    {bound : List (Ref .handle × LabelSet)} (hadd : AddsUp isTotal) (h : Sound isTotal role t g)
    (ht : Tracks s r bound t) (hc : t.collector = .idle) {time : Option Int}
    (htime : time = none → s.Timed r) (perform : σ → SystemM σ Unit) :
    ∃ metrics a events,
      collectInstrument perform r time s = (.ok metrics, s.withAccumulation r a) ∧
      (∀ m ∈ metrics, m.origin = t.stream.origin) ∧
      t.run events = { t with accumulation := a, reports := t.reports ++ [metrics] } ∧
      Tracks (s.withAccumulation r a) r bound (t.run events) ∧
      Swept (t.run events) (g.after t events) := by
  obtain ⟨stop, -, hcollect⟩ := collectInstrument_apply ht.accumulation htime perform
  obtain ⟨metrics, a, entries, events, hmetrics, horigin, hevents, hrun⟩ :=
    Threads.run_collect hadd Threads.isRun_undisturbed h hc stop
  -- nobody interferes, so there are only steps of the collection, and those record nothing
  have hcollects : ∀ e ∈ events, ∃ time, e = .collect time := by
    intro e he
    exact (hevents e he).resolve_left id
  have hrecorded : t.recorded ++ entries = t.recorded := by
    have hall : ∀ e ∈ Event.collect stop :: events, ∃ time, e = .collect time := by
      intro e he
      exact (List.mem_cons.mp he).elim (fun he => ⟨stop, he⟩) (hcollects e)
    have hsame := Threads.recorded_run (t := t) hall
    rwa [hrun] at hsame
  rw [hrecorded] at hrun
  rw [hmetrics] at hcollect
  refine ⟨metrics, a, .collect stop :: events, hcollect, horigin, hrun, ?_,
    Swept.run hadd h (Or.inl hc) stop events hcollects⟩
  rw [hrun]
  exact ht.of_handles (System.accumulation?_withAccumulation_self ht.accumulation a) rfl rfl rfl

end Metering
