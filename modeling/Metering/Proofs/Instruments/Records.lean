import Metering.Proofs.Instruments.Effects
import Metering.Proofs.Instruments.Working

/-!
# Instruments that record

`Records` says that a synchronous instrument of a system is in order: its threads are sound,
whatever its value type is, and no collection of it is under way.  Every operation on the instrument
keeps it in order, leaves the aggregators of others alone, and acts on its contents as
`Metering.Proofs.Instruments.Effects` says.
-/

namespace Metering

open Fallible SystemM

variable {σ : Type}

/-- The threads of an instrument that records are sound, between collections. -/
structure Recording {α : Type} [Totals α] (s : System σ) (bound : List (Ref .handle × LabelSet))
    (r : Ref .instrument) (role : AggregatorId → Role) (t : Threads) (g : Ledger α) : Prop where
  tracks : Tracks s r bound t
  sound : Sound Totals.IsTotal role t g
  idle : t.collector = .idle
  admitted : g.Admitted t.stream.shape
  makes : ∀ {x b vs}, t.stream.Continues x → x.shape.Admits vs →
    Aggregator.Holds (Totals.IsTotal (α := α)) x.shape b vs → x.Makes b

/-- An instrument that records is in order. -/
def Records (s : System σ) (bound : List (Ref .handle × LabelSet)) (r : Ref .instrument)
    (role : AggregatorId → Role) : Prop :=
  ∃ (α : Type) (_ : Totals α) (t : Threads) (g : Ledger α), Recording s bound r role t g

/-- One system comes from another by an operation on an instrument that records. -/
structure Worked (s s' : System σ) (bound bound' : List (Ref .handle × LabelSet))
    (r : Ref .instrument) (role role' : AggregatorId → Role) (a a' : Accumulation) : Prop where
  before : s.accumulation? r = some a
  frame : s' = { s.withAccumulation r a' with handles := s'.handles, log := s'.log }
  records : Records s' bound' r role'
  advances : Advances role role' a a'

namespace Recording

variable {α : Type} [Totals α] {s s' : System σ} {bound bound' : List (Ref .handle × LabelSet)}
  {r : Ref .instrument} {role : AggregatorId → Role} {t t' : Threads} {g : Ledger α}

theorem rests (h : Recording s bound r role t g) : Rests role t.accumulation :=
  h.sound.rests (by rw [h.idle]; rfl) h.admitted (h.makes rfl)

/-- What an operation did leaves the instrument in order. -/
theorem worked (h : Recording s bound r role t g) {entries : List (LabelSet × Scalar)}
    (hdid : Did s s' r bound bound' t t' entries) {a' : Accumulation}
    (ha' : s'.accumulation? r = some a') :
    ∃ role', Worked s s' bound bound' r role role' t.accumulation a' := by
  obtain rfl := Option.some.inj (hdid.tracks.accumulation.symm.trans ha')
  obtain ⟨events, hrun⟩ := hdid.run
  obtain ⟨role', hsound, hadv⟩ := h.sound.run Totals.addsUp events
  have hadmitted := h.sound.admitted_run Totals.addsUp h.admitted events
  rw [hrun] at hsound hadv
  exact ⟨role', h.tracks.accumulation, hdid.frame,
    ⟨α, _, t', _, hdid.tracks, hsound, hdid.collector.trans h.idle,
      hadmitted.congr hadv.stream.shape, fun hx => h.makes (hadv.stream.trans hx)⟩, hadv⟩

end Recording

namespace Records

variable {s s' : System σ} {bound bound' : List (Ref .handle × LabelSet)} {r : Ref .instrument}
  {role : AggregatorId → Role} {a : Accumulation}

theorem accumulation? (h : Records s bound r role) : ∃ a, s.accumulation? r = some a := by
  obtain ⟨α, _, t, g, h⟩ := h
  exact ⟨_, h.tracks.accumulation⟩

theorem rests (h : Records s bound r role) (ha : s.accumulation? r = some a) : Rests role a := by
  obtain ⟨α, _, t, g, h⟩ := h
  obtain rfl := Option.some.inj (h.tracks.accumulation.symm.trans ha)
  exact h.rests

theorem has (h : Records s bound r role) {i : AggregatorId} (hi : role i ≠ .foreign) :
    s.pool.Has i := by
  obtain ⟨a, ha⟩ := h.accumulation?
  rw [← System.accumulation?_pool ha]
  exact (h.rests ha).has hi

/-- What an open handle refers to is live, and counted. -/
theorem live_of_handle (h : Records s bound r role) {q : Ref .handle} {l : LabelSet} {x : Handle}
    (hl : (q, l) ∈ bound) (hx : s.handles.get? q = some x) (hr : x.instrument = r)
    (ho : x.released = false) : role x.aggregator = .live l := by
  obtain ⟨α, _, t, g, h⟩ := h
  exact h.sound.mapped.holders (h.tracks.mem_held hl hx hr ho)

/-- Only the accumulation and the references of handles matter. -/
theorem congr (h : Records s bound r role) (ha : s'.accumulation? r = s.accumulation? r)
    (hheld : (s'.heldOn r bound').Perm (s.heldOn r bound)) : Records s' bound' r role := by
  obtain ⟨α, _, t, g, h⟩ := h
  exact ⟨α, _, t, g, ⟨ha.trans h.tracks.accumulation, h.tracks.bindings,
    h.tracks.held.trans hheld.symm⟩, h.sound, h.idle, h.admitted, h.makes⟩

/-- Work on other instruments leaves one in order. -/
theorem elsewhere (h : Records s bound r role) (ha : s.accumulation? r = some a)
    (ha' : s'.accumulation? r = some { a with pool := s'.pool })
    (hheld : (s'.heldOn r bound').Perm (s.heldOn r bound))
    (hp : s.pool.Spares s'.pool fun i => role i = .foreign) : Records s' bound' r role := by
  obtain ⟨α, _, t, g, h⟩ := h
  obtain rfl := Option.some.inj (h.tracks.accumulation.symm.trans ha)
  rw [← System.accumulation?_pool ha] at hp
  refine ⟨α, _, { t with accumulation := { t.accumulation with pool := s'.pool } }, g,
    ⟨ha', h.tracks.bindings, h.tracks.held.trans hheld.symm⟩, ?_, h.idle, h.admitted, h.makes⟩
  exact h.sound.elsewhere h.tracks.bindings hp

/-- A new instrument has recorded nothing. -/
theorem start {w : Stream}
    (ha : s.accumulation? r = some (Threads.start s.pool w).accumulation)
    (hheld : s.heldOn r bound = []) : Records s bound r fun _ => .foreign := by
  obtain ⟨α, _, hv, hmakes⟩ := w.exists_totals
  refine ⟨α, _, Threads.start s.pool w, Ledger.empty,
    ⟨ha, rfl, by rw [hheld]; exact List.Perm.nil⟩, sound_start _ s.pool hv, rfl,
    Ledger.admitted_empty, ?_⟩
  intro x b vs hx hvs hb
  have hcontinues : w.Continues x := by
    rw [Stream.Continues, hx]
    rfl
  rw [hcontinues.shape] at hvs hb
  exact hcontinues.makes.mpr ((hmakes b).mpr ⟨vs, hvs, hb⟩)

/-! ### Operations -/

/-- **Recording** into the instrument under labels that are accepted. -/
theorem record (h : Records s bound r role) (ha : s.accumulation? r = some a)
    {labels : LabelArgument} {l : LabelSet} (hl : LabelSet.create labels = .ok l) (v : Scalar) :
    ∃ a' role', recordInstrument r v labels s = (a.stream.verdict v, s.withAccumulation r a') ∧
      Worked s (s.withAccumulation r a') bound bound r role role' a a' ∧ a'.stream = a.stream ∧
      a'.contents = a.stream.touch l (Cell.recorded v) a.contents := by
  obtain ⟨α, _, t, g, h⟩ := h
  obtain rfl := Option.some.inj (h.tracks.accumulation.symm.trans ha)
  obtain ⟨a', hadd, hstream, hcontents⟩ :=
    h.sound.add Totals.addsUp (by rw [h.idle]; rfl) h.admitted h.makes hl v
  obtain ⟨t', entries, hdid, -, -⟩ := h.tracks.record Totals.addsUp h.sound v labels
  have happly := recordInstrument_apply ha v labels
  rw [hadd] at happly
  rw [happly] at hdid
  obtain ⟨role', hworked⟩ :=
    h.worked hdid (System.accumulation?_withAccumulation_self ha a')
  exact ⟨a', role', happly, hworked, hstream, hcontents⟩

/-- **Binding** a handle to labels that are accepted. -/
theorem bind (h : Records s bound r role) (ha : s.accumulation? r = some a)
    (hb : Handled s bound) {labels : LabelArgument} {l : LabelSet}
    (hl : LabelSet.create labels = .ok l) :
    ∃ x a' role' s', bindHandle r labels s = (.ok s.handles.next, s') ∧
      s'.handles = s.handles.add x ∧ x.instrument = r ∧ x.released = false ∧
      Worked s s' bound ((s.handles.next, l) :: bound) r role role' a a' ∧
      a'.stream = a.stream ∧ a'.contents = a.stream.touch l Cell.acquired a.contents := by
  obtain ⟨α, _, t, g, h⟩ := h
  obtain rfl := Option.some.inj (h.tracks.accumulation.symm.trans ha)
  obtain ⟨i, a', events, hbind, -, -⟩ := Threads.run_bind Totals.addsUp h.sound l
  obtain ⟨-, hstream, hcontents⟩ := h.rests.bind hbind
  obtain ⟨name, happly⟩ := bindHandle_of_ok ha hl hbind
  obtain ⟨t', x, -, hhandles, hx, ho, hdid⟩ := h.tracks.bind Totals.addsUp h.sound hb hl
  rw [happly] at hhandles hdid
  obtain ⟨role', hworked⟩ := h.worked hdid
    (System.accumulation?_withAccumulation_self ha a')
  exact ⟨x, a', role', _, happly, hhandles, hx, ho, hworked, hstream, hcontents⟩

/-- **Recording** on an open handle of the instrument. -/
theorem recordOn (h : Records s bound r role) (ha : s.accumulation? r = some a) {q : Ref .handle}
    {l : LabelSet} {x : Handle} (hl : (q, l) ∈ bound) (hx : s.handles.get? q = some x)
    (hr : x.instrument = r) (ho : x.released = false) (v : Scalar) :
    ∃ p role', recordHandle q v s = (a.stream.verdict v, { s with pool := p }) ∧
      Worked s { s with pool := p } bound bound r role role' a { a with pool := p } ∧
      ({ a with pool := p } : Accumulation).contents
        = a.stream.touch l (Cell.recorded v) a.contents := by
  have hi := h.live_of_handle hl hx hr ho
  obtain ⟨α, _, t, g, h⟩ := h
  obtain rfl := Option.some.inj (h.tracks.accumulation.symm.trans ha)
  have hpool : t.accumulation.pool = s.pool := System.accumulation?_pool ha
  obtain ⟨p, hrecord, -, hcontents⟩ := h.rests.record hi v
  have happly : recordHandle q v s = (t.accumulation.stream.verdict v, { s with pool := p }) := by
    rw [recordHandle_of_open hx ho, recordInto_apply, ← hpool]
    unfold Accumulation.record at hrecord
    simp only [bind_apply, get_apply] at hrecord
    cases hp : t.accumulation.pool.record x.aggregator v with
    | ok p' =>
      rw [hp] at hrecord
      obtain ⟨hverdict, hp'⟩ := Prod.mk.inj hrecord
      obtain rfl : p' = p := congrArg (fun b : Accumulation => b.pool) hp'
      rw [← hverdict]
    | error e =>
      rw [hp] at hrecord
      obtain ⟨hverdict, hp'⟩ := Prod.mk.inj hrecord
      obtain rfl : t.accumulation.pool = p := congrArg (fun b : Accumulation => b.pool) hp'
      rw [← hverdict, hpool]
  obtain ⟨t', entries, hdid, -, -⟩ := h.tracks.recordOn hl hx hr ho v
  rw [happly] at hdid
  have hself := System.accumulation?_withAccumulation_self ha { t.accumulation with pool := p }
  rw [System.withAccumulation_pool ha] at hself
  obtain ⟨role', hworked⟩ := h.worked hdid hself
  exact ⟨p, role', happly, hworked, hcontents⟩

/-- **Releasing** an open handle of the instrument. -/
theorem release (h : Records s bound r role) (ha : s.accumulation? r = some a)
    (hb : Handled s bound) {q : Ref .handle} {l : LabelSet} {x : Handle} (hl : (q, l) ∈ bound)
    (hx : s.handles.get? q = some x) (hr : x.instrument = r) (ho : x.released = false) :
    ∃ p role' s', releaseHandle q s = (.ok (), s') ∧
      s'.handles = s.handles.set q { x with released := true } ∧
      Worked s s' bound bound r role role' a { a with pool := p } ∧
      ({ a with pool := p } : Accumulation).contents
        = a.stream.touch l Cell.released a.contents := by
  have hi := h.live_of_handle hl hx hr ho
  obtain ⟨α, _, t, g, h⟩ := h
  obtain rfl := Option.some.inj (h.tracks.accumulation.symm.trans ha)
  have hpool : t.accumulation.pool = s.pool := System.accumulation?_pool ha
  have happly := releaseHandle_of_open hx ho
  rw [← hpool] at happly
  obtain ⟨t', hdid⟩ := h.tracks.release hb hl hx hr ho
  rw [happly] at hdid
  have hself := System.accumulation?_withAccumulation_self ha
    { t.accumulation with pool := t.accumulation.pool.release x.aggregator }
  rw [System.withAccumulation_pool ha] at hself
  obtain ⟨role', hworked⟩ := h.worked hdid hself
  exact ⟨_, role', _, happly, rfl, hworked, h.rests.release hi⟩

/-- **Collecting** the instrument at a time. -/
theorem collect (h : Records s bound r role) (ha : s.accumulation? r = some a) {time : Option Int}
    (ht : time = none → s.Timed r) (perform : σ → SystemM σ Unit) :
    ∃ stop a' role', (∀ x ∈ time, stop = x) ∧ collectInstrument perform r time s
        = (.ok (a.stream.metricsOf (a.stream.drainAllIn a.contents).window stop),
          s.withAccumulation r a') ∧
      Worked s (s.withAccumulation r a') bound bound r role role' a a' ∧
      a'.stream.start = (a.stream.endWindow stop).start ∧
      a'.contents = a.stream.endIn (a.stream.drainAllIn a.contents) := by
  obtain ⟨α, _, t, g, h⟩ := h
  obtain rfl := Option.some.inj (h.tracks.accumulation.symm.trans ha)
  obtain ⟨stop, hgiven, happly⟩ := collectInstrument_apply ha ht perform
  obtain ⟨a', hcollect, hstart, hcontents⟩ :=
    h.sound.collects Totals.addsUp h.idle h.admitted h.makes stop
  rw [hcollect] at happly
  obtain ⟨metrics, a'', events, happly', -, hrun, htracks, -⟩ :=
    h.tracks.collect Totals.addsUp h.sound h.idle ht perform
  -- both equations are about the same collection
  obtain rfl : a' = a'' := by
    have hsame := congrArg Prod.snd (happly.symm.trans happly')
    have hself := System.accumulation?_withAccumulation_self (r := r) ha a'
    rw [show s.withAccumulation r a' = s.withAccumulation r a'' from hsame,
      System.accumulation?_withAccumulation_self ha a''] at hself
    exact (Option.some.inj hself).symm
  obtain ⟨role', hsound, hadv⟩ := h.sound.run Totals.addsUp events
  have hadmitted := h.sound.admitted_run Totals.addsUp h.admitted events
  rw [hrun] at hsound hadv htracks
  exact ⟨stop, a', role', hgiven, happly, ⟨ha, rfl, ⟨α, _, _, _, htracks, hsound, h.idle,
    hadmitted.congr hadv.stream.shape, fun hx => h.makes (hadv.stream.trans hx)⟩, hadv⟩, hstart,
    hcontents⟩

end Records

end Metering
