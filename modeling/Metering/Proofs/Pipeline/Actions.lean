import Metering.Proofs.Pipeline.Portraits

/-!
# Actions on instruments

Everything that is done to one instrument of a system in order leaves the system in order and the
portraits of all other instruments as they are.  `Acted` says so, and each lemma adds what becomes
of the action and of the portrait of the instrument itself.
-/

namespace Metering

open Fallible SystemM

variable {σ : Type}

namespace Instrument

/-- How the aggregators of the instrument aggregate. -/
def shape (i : Instrument σ) : Shape :=
  match i.processor with
  | some p => p.stream.shape
  | none => .discard

/-- What becomes of recording a scalar into an aggregator of the instrument. -/
def verdict (i : Instrument σ) (v : Scalar) : Except Failure Unit :=
  match i.shape.refusalOf? i.descriptor.valueType v with
  | some e => .error (.record e)
  | none => .ok ()

/-- The instrument with another start of its window. -/
def restart (i : Instrument σ) (start : Int) : Instrument σ :=
  { i with
    processor := i.processor.map fun p => { p with stream := { p.stream with start := start } } }

variable {i : Instrument σ} {p : Processor}

theorem verdict_stream (hp : i.processor = some p) (hd : p.stream.descriptor = i.descriptor)
    (v : Scalar) : p.stream.verdict v = i.verdict v := by
  have hshape : i.shape = p.stream.shape := by
    unfold shape
    rw [hp]
  have hrefusal : p.stream.refusal? v = i.shape.refusalOf? i.descriptor.valueType v := by
    unfold Stream.refusal?
    rw [hshape, hd]
  unfold verdict Stream.verdict
  cases h : i.shape.refusalOf? i.descriptor.valueType v <;> rw [h] at hrefusal <;> rw [hrefusal]

theorem restart_self (hp : i.processor = some p) : i.restart p.stream.start = i := by
  unfold restart
  rw [hp]
  show { i with processor := some p } = i
  rw [← hp]

end Instrument

/-- One system comes from another by an action on one instrument. -/
structure Acted (s s' : System σ) (bound bound' : List (Ref .handle × LabelSet))
    (role role' : Ref .instrument → AggregatorId → Role) (r : Ref .instrument) : Prop where
  orderly : Orderly s' bound' role'
  changed : s.ChangedAt s' r (role r)
  retains : s.Retains s'

namespace Orderly

variable {s s' : System σ} {bound bound' : List (Ref .handle × LabelSet)}
  {role : Ref .instrument → AggregatorId → Role} {r : Ref .instrument} {i : Instrument σ}
  {a a' : Accumulation}

/-! ### Instruments that record -/

/-- What an operation did to an instrument that records. -/
theorem worked (h : Orderly s bound role) (hi : s.instruments.get? r = some i)
    {role₁ : AggregatorId → Role} (hw : Worked s s' bound bound' r (role r) role₁ a a')
    (hhandled : Handled s' bound')
    (howned : s.Retains s' → ∀ {q x}, s'.handles.get? q = some x → s'.Owns bound' q x)
    (hheld : ∀ {r'}, r' ≠ r → (s'.heldOn r' bound').Perm (s.heldOn r' bound)) :
    Acted s s' bound bound' role (Function.update role r role₁) r ∧
      s'.portrait? r = some ⟨(i.restart a'.stream.start).bare, a'.contents⟩ := by
  have ha := hw.before
  rw [System.accumulation?_of_get? hi] at ha
  obtain ⟨live, p, hlive, hp, rfl⟩ := Instrument.accumulation?_eq_some ha
  -- only the live map and the stream of the instrument are written back
  have hstream : p.stream.Continues a'.stream := hw.advances.stream
  let i' : Instrument σ := { i with
    accumulator := .synchronous a'.live
    processor := some { p with stream := a'.stream } }
  have hinstruments : s'.instruments = s.instruments.set r i' := by
    rw [hw.frame]
    unfold System.withAccumulation Instrument.withAccumulation
    rw [hi]
    dsimp only
    rw [hlive, hp]
  have hpool : s'.pool = a'.pool := by rw [hw.frame]; rfl
  have hi' : s'.instruments.get? r = some i' := by
    rw [hinstruments]
    exact Table.get?_set_self _ hi
  have hchanged : s.ChangedAt s' r (role r) := by
    constructor
    case others =>
      intro r' hr
      rw [hinstruments]
      exact Table.get?_set_of_ne _ _ (Ne.symm hr)
    case pool =>
      rw [hpool]
      exact hw.advances.spares
    case rest =>
      rw [hw.frame]
      exact ⟨rfl, rfl, rfl, rfl, rfl, rfl⟩
  have hretains : s.Retains s' := hchanged.retains hi hi' (by
    unfold Instrument.design
    simp only [i', hlive, hp, Accumulator.bare, Option.map_some]
    rw [Processor.design_of_continues hstream])
  refine ⟨⟨h.work hchanged hi' ?_ hw.advances.foreign hhandled (howned hretains) hheld, hchanged,
    hretains⟩, ?_⟩
  -- the other two kinds of instrument have no live map
  · cases h.steady hi with
    | recording accumulator processor kind descriptor clock records =>
      obtain rfl := Option.some.inj (hp.symm.trans processor)
      obtain ⟨c', clock'⟩ := hchanged.rest.keepsClocks clock
      refine .recording (i := i') rfl rfl kind ?_ clock' hw.records
      exact hstream.descriptor.trans descriptor
    | observing accumulator => rw [hlive] at accumulator; cases accumulator
    | discarding accumulator => rw [hlive] at accumulator; cases accumulator
  · rw [System.portrait?_of_get? hi', hpool]
    have hbare : i'.bare = (i.restart a'.stream.start).bare := by
      unfold Instrument.restart Instrument.bare Processor.bare
      simp only [Option.map_some, hp, i', hlive, Accumulator.bare]
      rw [hstream]
    rw [hbare]
    rfl

/-- What an operation did that no handle was concerned with. -/
theorem worked_of_handles (h : Orderly s bound role) (hi : s.instruments.get? r = some i)
    {role₁ : AggregatorId → Role} (hw : Worked s s' bound bound r (role r) role₁ a a')
    (hh : s'.handles = s.handles) :
    Acted s s' bound bound role (Function.update role r role₁) r ∧
      s'.portrait? r = some ⟨(i.restart a'.stream.start).bare, a'.contents⟩ := by
  refine h.worked hi hw (h.handled.congr hh) (fun hr q x hx => ?_) fun _ => List.Perm.of_eq ?_
  · rw [hh] at hx
    exact (h.owned hx).retain hr fun _ hb => hb
  · exact System.heldOn_congr fun b _ => System.reference?_congr hh b.1

/-- The accumulation of an instrument that records. -/
theorem recording (h : Orderly s bound role) (hi : s.instruments.get? r = some i)
    {live : OrderedMap LabelSet AggregatorId} (hacc : i.accumulator = .synchronous live)
    {p : Processor} (hp : i.processor = some p) :
    ∃ a, s.accumulation? r = some a ∧ Records s bound r (role r) ∧ a.stream = p.stream ∧
      a.contents = i.contents s.pool ∧ p.stream.descriptor = i.descriptor ∧ s.Timed r := by
  cases h.steady hi with
  | observing accumulator =>
    rw [hacc] at accumulator
    cases accumulator
  | discarding accumulator =>
    rw [hacc] at accumulator
    cases accumulator
  | recording accumulator processor kind descriptor clock records =>
    obtain rfl := Option.some.inj (hp.symm.trans processor)
    refine ⟨{ pool := s.pool, stream := p.stream, live := live }, ?_, records, rfl, ?_, descriptor,
      ⟨i, p, _, hi, hp, clock⟩⟩
    · rw [System.accumulation?_of_get? hi]
      unfold Instrument.accumulation?
      rw [hacc, hp]
    · unfold Instrument.contents
      rw [hacc, hp]
      rfl

/-- Nothing is done for labels that are refused. -/
theorem mislabelled (h : Orderly s bound role) (hi : s.instruments.get? r = some i)
    {live : OrderedMap LabelSet AggregatorId} (hacc : i.accumulator = .synchronous live)
    {p : Processor} (hp : i.processor = some p) {labels : LabelArgument} {e : LabelError}
    (hl : LabelSet.create labels = .error e) (v : Scalar) :
    recordInstrument r v labels s = (.error (.labels e), s) ∧
      bindHandle r labels s = (.error (.labels e), s) := by
  obtain ⟨a, ha, -⟩ := h.recording hi hacc hp
  refine ⟨?_, bindHandle_of_error ha hl⟩
  have hadd : Accumulation.add labels v a = (.error (.labels e), a) := by
    unfold Accumulation.add Accumulation.bindArgument
    rw [bind_apply, hl]
    rfl
  rw [recordInstrument_apply ha, hadd, System.withAccumulation_self ha]

/-- **Recording** into an instrument that records, under labels that are accepted. -/
theorem record (h : Orderly s bound role) (hi : s.instruments.get? r = some i)
    {live : OrderedMap LabelSet AggregatorId} (hacc : i.accumulator = .synchronous live)
    {p : Processor} (hp : i.processor = some p) {labels : LabelArgument} {l : LabelSet}
    (hl : LabelSet.create labels = .ok l) (v : Scalar) :
    ∃ s' role', recordInstrument r v labels s = (i.verdict v, s') ∧
      Acted s s' bound bound role role' r ∧ s'.handles = s.handles ∧
      s'.portrait? r = some ⟨i.bare, p.stream.touch l (Cell.recorded v) (i.contents s.pool)⟩ := by
  obtain ⟨a, ha, records, hstream, hsame, descriptor, htimed⟩ := h.recording hi hacc hp
  obtain ⟨a', role₁, happly, hw, hstream', hcontents⟩ := records.record ha hl v
  obtain ⟨hacted, hportrait⟩ := h.worked_of_handles hi hw rfl
  rw [hstream, Instrument.verdict_stream hp descriptor] at happly
  rw [hstream', hstream, Instrument.restart_self hp, hcontents, hstream, hsame]
    at hportrait
  exact ⟨_, _, happly, hacted, rfl, hportrait⟩

/-- **Binding** a handle of an instrument that records, to labels that are accepted. -/
theorem bind (h : Orderly s bound role) (hi : s.instruments.get? r = some i)
    {live : OrderedMap LabelSet AggregatorId} (hacc : i.accumulator = .synchronous live)
    {p : Processor} (hp : i.processor = some p) {labels : LabelArgument} {l : LabelSet}
    (hl : LabelSet.create labels = .ok l) :
    ∃ x s' role', bindHandle r labels s = (.ok s.handles.next, s') ∧
      Acted s s' bound ((s.handles.next, l) :: bound) role role' r ∧
      s'.handles = s.handles.add x ∧ x.instrument = r ∧ x.released = false ∧
      s'.portrait? r = some ⟨i.bare, p.stream.touch l Cell.acquired (i.contents s.pool)⟩ := by
  obtain ⟨a, ha, records, hstream, hsame, descriptor, htimed⟩ := h.recording hi hacc hp
  obtain ⟨x, a', role₁, s', happly, hhandles, hx, ho, hw, hstream', hcontents⟩ :=
    records.bind ha h.handled hl
  have howned : s.Retains s' → ∀ {q y}, s'.handles.get? q = some y →
      s'.Owns ((s.handles.next, l) :: bound) q y := by
    intro hr q y hy
    rw [hhandles, Table.get?_add] at hy
    split at hy
    · next hq =>
      obtain rfl := Option.some.inj hy
      obtain ⟨i', hi', hdesign⟩ := hr _ _ hi
      obtain ⟨live', hacc'⟩ := Instrument.synchronous_of_design hdesign hacc
      refine ⟨i', by rw [hx, hi'], ?_⟩
      rw [hacc']
      exact ⟨l, by rw [hq]; exact List.mem_cons_self⟩
    · exact (h.owned hy).retain hr (List.subset_cons_self ..)
  obtain ⟨hacted, hportrait⟩ := h.worked hi hw (h.handled.add hhandles l) howned
    (fun {r'} hr' => List.Perm.of_eq (by
      rw [System.heldOn_add h.handled hhandles ho l, hx, if_neg (Ne.symm hr')]))
  rw [hstream', hstream, Instrument.restart_self hp, hcontents, hstream, hsame]
    at hportrait
  exact ⟨x, s', _, happly, hacted, hhandles, hx, ho, hportrait⟩

/-- **Recording** on an open handle of an instrument that records. -/
theorem recordOn (h : Orderly s bound role) (hi : s.instruments.get? r = some i)
    {live : OrderedMap LabelSet AggregatorId} (hacc : i.accumulator = .synchronous live)
    {p : Processor} (hp : i.processor = some p) {q : Ref .handle} {l : LabelSet} {x : Handle}
    (hl : (q, l) ∈ bound) (hx : s.handles.get? q = some x) (hr : x.instrument = r)
    (ho : x.released = false) (v : Scalar) :
    ∃ s' role', recordHandle q v s = (i.verdict v, s') ∧
      Acted s s' bound bound role role' r ∧ s'.handles = s.handles ∧
      s'.portrait? r = some ⟨i.bare, p.stream.touch l (Cell.recorded v) (i.contents s.pool)⟩ := by
  obtain ⟨a, ha, records, hstream, hsame, descriptor, htimed⟩ := h.recording hi hacc hp
  obtain ⟨pool, role₁, happly, hw, hcontents⟩ := records.recordOn ha hl hx hr ho v
  obtain ⟨hacted, hportrait⟩ := h.worked_of_handles hi hw rfl
  rw [hstream, Instrument.verdict_stream hp descriptor] at happly
  rw [hcontents, hstream, Instrument.restart_self hp, hsame] at hportrait
  exact ⟨_, _, happly, hacted, rfl, hportrait⟩

/-- **Releasing** an open handle of an instrument that records. -/
theorem release (h : Orderly s bound role) (hi : s.instruments.get? r = some i)
    {live : OrderedMap LabelSet AggregatorId} (hacc : i.accumulator = .synchronous live)
    {p : Processor} (hp : i.processor = some p) {q : Ref .handle} {l : LabelSet} {x : Handle}
    (hl : (q, l) ∈ bound) (hx : s.handles.get? q = some x) (hr : x.instrument = r)
    (ho : x.released = false) :
    ∃ s' role', releaseHandle q s = (.ok (), s') ∧
      Acted s s' bound bound role role' r ∧
      s'.handles = s.handles.set q { x with released := true } ∧
      s'.portrait? r = some ⟨i.bare, p.stream.touch l Cell.released (i.contents s.pool)⟩ := by
  obtain ⟨a, ha, records, hstream, hsame, descriptor, htimed⟩ := h.recording hi hacc hp
  obtain ⟨pool, role₁, s', happly, hhandles, hw, hcontents⟩ :=
    records.release ha h.handled hl hx hr ho
  have howned : s.Retains s' → ∀ {q y}, s'.handles.get? q = some y → s'.Owns bound q y := by
    intro hretains q' y hy
    rw [hhandles, Table.get?_set _ hx] at hy
    split at hy
    · next hq =>
      obtain rfl := Option.some.inj hy
      rw [hq]
      exact (h.owned hx).retain hretains fun _ hb => hb
    · exact (h.owned hy).retain hretains fun _ hb => hb
  obtain ⟨hacted, hportrait⟩ := h.worked hi hw (h.handled.set hx hhandles) howned
    (fun {r'} hr' => by
      have hperm := System.heldOn_set (r := r') h.handled hl hx ho hhandles
      rwa [if_neg (by rw [hr]; exact Ne.symm hr')] at hperm)
  rw [hcontents, hstream, Instrument.restart_self hp, hsame] at hportrait
  exact ⟨s', _, happly, hacted, hhandles, hportrait⟩

/-- **Collecting** an instrument that records. -/
theorem collectRecording (h : Orderly s bound role) (hi : s.instruments.get? r = some i)
    {live : OrderedMap LabelSet AggregatorId} (hacc : i.accumulator = .synchronous live)
    {p : Processor} (hp : i.processor = some p) (time : Option Int)
    (perform : σ → SystemM σ Unit) :
    ∃ stop s' role', (∀ x ∈ time, stop = x) ∧ collectInstrument perform r time s
        = (.ok (p.stream.metricsOf (p.stream.drainAllIn (i.contents s.pool)).window stop), s') ∧
      Acted s s' bound bound role role' r ∧ s'.handles = s.handles ∧ s'.portrait? r
        = some ⟨(i.restart (p.stream.endWindow stop).start).bare,
            p.stream.endIn (p.stream.drainAllIn (i.contents s.pool))⟩ := by
  obtain ⟨a, ha, records, hstream, hsame, descriptor, htimed⟩ := h.recording hi hacc hp
  obtain ⟨stop, a', role₁, hgiven, happly, hw, hstart, hcontents⟩ :=
    records.collect ha (fun _ => htimed) perform
  obtain ⟨hacted, hportrait⟩ := h.worked_of_handles hi hw rfl
  rw [hstream, hsame] at happly
  rw [hcontents, hstart, hstream, hsame] at hportrait
  exact ⟨stop, _, _, hgiven, happly, hacted, rfl, hportrait⟩

/-! ### Instruments that discard -/

/-- What an operation did to an instrument that discards: its aggregator may be referred to
differently. -/
theorem discarded (h : Orderly s bound role) (s' : System σ)
    (hi : s.instruments.get? r = some i) {d : AggregatorId} (hacc : i.accumulator = .discarding d)
    (hinstruments : s'.instruments = s.instruments) (hrest : s.SameRest s')
    (hp : s.pool.Spares s'.pool (· = d)) (hget : s'.pool.get d = s.pool.get d)
    (hhandled : Handled s' bound)
    (howned : s.Retains s' → ∀ {q x}, s'.handles.get? q = some x → s'.Owns bound q x)
    (hheld : ∀ {r'}, r' ≠ r → s'.heldOn r' bound = s.heldOn r' bound) :
    Acted s s' bound bound role role r ∧ s'.portrait? r = s.portrait? r := by
  have hi' : s'.instruments.get? r = some i := by rw [hinstruments, hi]
  have hretains : s.Retains s' := System.retains_of_eq hinstruments
  cases h.steady hi with
  | recording accumulator =>
    rw [hacc] at accumulator
    cases accumulator
  | observing accumulator =>
    rw [hacc] at accumulator
    cases accumulator
  | discarding accumulator processor has get role_iff =>
    obtain rfl : d = _ := Accumulator.discarding.inj (hacc.symm.trans accumulator)
    have hchanged : s.ChangedAt s' r (role r) :=
      ⟨fun _ => by rw [hinstruments], hp.mono fun _ hj => (role_iff _).mpr hj, hrest⟩
    have horderly := h.work hchanged hi'
      (.discarding accumulator processor (hp.has has) (hget.trans get) role_iff)
      (fun _ hf => hf) hhandled (howned hretains) (fun hr => List.Perm.of_eq (hheld hr))
    rw [Function.update_eq_self] at horderly
    refine ⟨⟨horderly, hchanged, hretains⟩, ?_⟩
    rw [System.portrait?_of_get? hi', System.portrait?_of_get? hi]
    unfold Instrument.contents
    rw [processor, accumulator]

/-- What an operation did to an instrument that discards and that no handle was concerned with. -/
theorem discarded_of_handles (h : Orderly s bound role) (s' : System σ)
    (hi : s.instruments.get? r = some i) {d : AggregatorId} (hacc : i.accumulator = .discarding d)
    (hinstruments : s'.instruments = s.instruments) (hrest : s.SameRest s')
    (hp : s.pool.Spares s'.pool (· = d)) (hget : s'.pool.get d = s.pool.get d)
    (hh : s'.handles = s.handles) :
    Acted s s' bound bound role role r ∧ s'.portrait? r = s.portrait? r := by
  refine h.discarded s' hi hacc hinstruments hrest hp hget (h.handled.congr hh)
    (fun hr q x hx => ?_) fun _ => System.heldOn_congr fun b _ => System.reference?_congr hh b.1
  rw [hh] at hx
  exact (h.owned hx).retain hr fun _ hb => hb

/-- Recording into the aggregator of an instrument that discards. -/
theorem recordInto_discarding (h : Orderly s bound role) (hi : s.instruments.get? r = some i)
    {d : AggregatorId} (hacc : i.accumulator = .discarding d) (v : Scalar) :
    ∃ p, recordInto d v s = (i.verdict v, { s with pool := p }) ∧ s.pool.Spares p (· = d) ∧
      p.get d = s.pool.get d := by
  cases h.steady hi with
  | recording accumulator =>
    rw [hacc] at accumulator
    cases accumulator
  | observing accumulator =>
    rw [hacc] at accumulator
    cases accumulator
  | discarding accumulator processor has get role_iff =>
    obtain rfl : d = _ := Accumulator.discarding.inj (hacc.symm.trans accumulator)
    have hrecord := Aggregator.record_discard i.descriptor.valueType v
    rw [← get] at hrecord
    rw [recordInto_apply]
    unfold Pool.record Instrument.verdict Instrument.shape
    rw [hrecord, processor]
    dsimp only
    cases Shape.discard.refusalOf? i.descriptor.valueType v with
    | some e => exact ⟨s.pool, rfl, .refl _, rfl⟩
    | none => exact ⟨s.pool.set d (s.pool.get d), rfl, .set _ _ _, Pool.get_set_self has⟩

/-- **Recording** into an instrument that discards, which does not look at the labels. -/
theorem recordDiscarding (h : Orderly s bound role) (hi : s.instruments.get? r = some i)
    {d : AggregatorId} (hacc : i.accumulator = .discarding d) (labels : LabelArgument)
    (v : Scalar) :
    ∃ s', recordInstrument r v labels s = (i.verdict v, s') ∧
      Acted s s' bound bound role role r ∧ s'.handles = s.handles ∧
      s'.portrait? r = s.portrait? r := by
  obtain ⟨p, hrecord, hspares, hget⟩ := h.recordInto_discarding hi hacc v
  have happly : recordInstrument r v labels s
      = (i.verdict v, { s with pool := p.release d }) := by
    unfold recordInstrument instrument recordAndRelease releaseAggregator
    simp only [bind_apply, get_apply, demand_apply, hi, hacc, tryCatch_apply, hrecord, modify_apply,
      throw_apply]
    cases i.verdict v <;> rfl
  have hrelease : p.Spares (p.release d) (· = d) := .setReferences _ _ _
  obtain ⟨hacted, hportrait⟩ := h.discarded_of_handles { s with pool := p.release d } hi hacc
    rfl ⟨rfl, rfl, rfl, rfl, rfl, rfl⟩
    (hspares.trans hrelease) ((Pool.get_setReferences ..).trans hget) rfl
  exact ⟨_, happly, hacted, rfl, hportrait⟩

/-- **Binding** a handle of an instrument that discards, which does not look at the labels. -/
theorem bindDiscarding (h : Orderly s bound role) (hi : s.instruments.get? r = some i)
    {d : AggregatorId} (hacc : i.accumulator = .discarding d) (labels : LabelArgument) :
    ∃ x s', bindHandle r labels s = (.ok s.handles.next, s') ∧
      Acted s s' bound bound role role r ∧ s'.handles = s.handles.add x ∧ x.instrument = r ∧
      x.released = false ∧ s'.portrait? r = s.portrait? r := by
  let x : Handle := ⟨r, i.descriptor.name, d, false⟩
  have happly : bindHandle r labels s
      = (.ok s.handles.next, { s with handles := s.handles.add x }) := by
    unfold bindHandle bindInstrument instrument
    simp only [bind_apply, get_apply, demand_apply, hi, hacc, pure_apply, modify_apply]
    rfl
  have hnext : ∀ b ∈ bound, b.1 ≠ s.handles.next := by
    intro b hb hn
    obtain ⟨y, hy⟩ := h.handled.present b hb
    rw [hn, Table.get?_next] at hy
    cases hy
  have hget : ∀ q, ({ s with handles := s.handles.add x } : System σ).handles.get? q
      = if q = s.handles.next then some x else s.handles.get? q := Table.get?_add _ _
  obtain ⟨hacted, hportrait⟩ := h.discarded { s with handles := s.handles.add x } hi hacc
    rfl ⟨rfl, rfl, rfl, rfl, rfl, rfl⟩ (.refl _) rfl
    ⟨h.handled.nodup, fun b hb => by
      rw [hget, if_neg (hnext b hb)]
      exact h.handled.present b hb⟩
    (fun hr q y hy => by
      rw [hget] at hy
      split at hy
      · obtain rfl := Option.some.inj hy
        exact ⟨i, hi, by rw [hacc]⟩
      · exact (h.owned hy).retain hr fun _ hb => hb)
    (fun _ => System.heldOn_congr fun b hb => by
      unfold System.reference?
      rw [hget, if_neg (hnext b hb)])
  exact ⟨x, _, happly, hacted, rfl, rfl, rfl, hportrait⟩

/-- The aggregator of a handle of an instrument that discards. -/
theorem aggregator_discarding (h : Orderly s bound role) (hi : s.instruments.get? r = some i)
    {d : AggregatorId} (hacc : i.accumulator = .discarding d) {q : Ref .handle} {x : Handle}
    (hx : s.handles.get? q = some x) (hr : x.instrument = r) : x.aggregator = d := by
  obtain ⟨i', hi', hmatch⟩ := h.owned hx
  rw [hr, hi] at hi'
  obtain rfl := Option.some.inj hi'
  rw [hacc] at hmatch
  exact hmatch

/-- **Recording** on an open handle of an instrument that discards. -/
theorem recordOnDiscarding (h : Orderly s bound role) (hi : s.instruments.get? r = some i)
    {d : AggregatorId} (hacc : i.accumulator = .discarding d) {q : Ref .handle} {x : Handle}
    (hx : s.handles.get? q = some x) (hr : x.instrument = r) (ho : x.released = false)
    (v : Scalar) :
    ∃ s', recordHandle q v s = (i.verdict v, s') ∧ Acted s s' bound bound role role r ∧
      s'.handles = s.handles ∧ s'.portrait? r = s.portrait? r := by
  obtain ⟨p, hrecord, hspares, hget⟩ := h.recordInto_discarding hi hacc v
  obtain ⟨hacted, hportrait⟩ := h.discarded_of_handles { s with pool := p } hi hacc rfl
    ⟨rfl, rfl, rfl, rfl, rfl, rfl⟩ hspares hget rfl
  refine ⟨_, ?_, hacted, rfl, hportrait⟩
  rw [recordHandle_of_open hx ho, h.aggregator_discarding hi hacc hx hr, hrecord]

/-- **Releasing** an open handle of an instrument that discards. -/
theorem releaseDiscarding (h : Orderly s bound role) (hi : s.instruments.get? r = some i)
    {d : AggregatorId} (hacc : i.accumulator = .discarding d) {q : Ref .handle} {x : Handle}
    (hx : s.handles.get? q = some x) (hr : x.instrument = r) (ho : x.released = false) :
    ∃ s', releaseHandle q s = (.ok (), s') ∧ Acted s s' bound bound role role r ∧
      s'.handles = s.handles.set q { x with released := true } ∧
      s'.portrait? r = s.portrait? r := by
  have hd := h.aggregator_discarding hi hacc hx hr
  let s' : System σ := { s with
    handles := s.handles.set q { x with released := true }
    pool := s.pool.release x.aggregator }
  have hget : ∀ q', s'.handles.get? q'
      = if q' = q then some { x with released := true } else s.handles.get? q' :=
    Table.get?_set _ hx
  have hspares : s.pool.Spares s'.pool (· = d) := by
    rw [← hd]
    exact .setReferences _ _ _
  obtain ⟨hacted, hportrait⟩ := h.discarded s' hi hacc rfl ⟨rfl, rfl, rfl, rfl, rfl, rfl⟩
    hspares (Pool.get_setReferences ..) (h.handled.set hx rfl)
    (fun hr q' y hy => by
      rw [hget] at hy
      split at hy
      · next hq =>
        obtain rfl := Option.some.inj hy
        rw [hq]
        exact (h.owned hx).retain hr fun _ hb => hb
      · exact (h.owned hy).retain hr fun _ hb => hb)
    (fun {r'} hr' => System.heldOn_congr fun b _ => by
      -- the handle is none of another instrument, released or not
      unfold System.reference?
      rw [hget]
      by_cases hq : b.1 = q
      · have hother : ¬ (x.instrument = r' ∧ x.released = false) := by
          rw [hr]
          exact fun hand => hr' hand.1.symm
        rw [if_pos hq, hq, hx]
        dsimp only
        rw [if_neg hother, if_neg (by simp)]
      · rw [if_neg hq])
  exact ⟨s', releaseHandle_of_open hx ho, hacted, rfl, hportrait⟩

/-! ### Callbacks and observers -/

/-- **Giving** an instrument another callback. -/
theorem setCallback (h : Orderly s bound role) (hi : s.instruments.get? r = some i)
    (callback : Option (Callback σ)) :
    Acted s { s with instruments := s.instruments.set r { i with callback := callback } } bound
      bound role role r := by
  let s' : System σ := { s with instruments := s.instruments.set r { i with callback := callback } }
  have hi' : s'.instruments.get? r = some { i with callback := callback } :=
    Table.get?_set_self _ hi
  have hchanged : s.ChangedAt s' r (role r) :=
    ⟨fun hr => Table.get?_set_of_ne _ _ (Ne.symm hr), .refl _, ⟨rfl, rfl, rfl, rfl, rfl, rfl⟩⟩
  have hretains : s.Retains s' := hchanged.retains hi hi' rfl
  have horderly : Orderly s' bound (Function.update role r (role r)) :=
    h.work hchanged hi' ?_ (fun _ hf => hf) (h.handled.congr rfl)
      (fun hx => (h.owned hx).retain hretains fun _ hb => hb)
      (fun _ => List.Perm.of_eq (System.heldOn_congr fun b _ => System.reference?_congr rfl b.1))
  · rw [Function.update_eq_self] at horderly
    exact ⟨horderly, hchanged, hretains⟩
  · cases h.steady hi with
    | recording accumulator processor kind descriptor clock records =>
      refine .recording (i := { i with callback := callback }) accumulator processor kind descriptor
        clock (records.congr ?_ (List.Perm.of_eq ?_))
      · rw [System.accumulation?_of_get? hi, System.accumulation?_of_get? hi']
        rfl
      · exact System.heldOn_congr fun b _ => System.reference?_congr rfl b.1
    | observing accumulator processor kind descriptor clock observes =>
      exact .observing (i := { i with callback := callback }) accumulator processor kind descriptor
        clock observes
    | discarding accumulator processor has get role_iff =>
      exact .discarding (i := { i with callback := callback }) accumulator processor has get
        role_iff

/-- **The end of a cycle** of an observer, which may have got another callback. -/
theorem observed (h : Orderly s bound role) (hi : s.instruments.get? r = some i)
    (hacc : i.accumulator = .asynchronous) {p : Processor} (hp : i.processor = some p)
    (values : Option (List (LabelSet × Number))) (time : Int) (callback : Option (Callback σ))
    (log : List LogEntry) :
    ∃ w role', ({ pool := s.pool, stream := p.stream } : PooledStream).close values time
        = (p.stream.report (i.contents s.pool).window values time, w) ∧
      Acted s { s with
        pool := w.pool
        instruments := s.instruments.set r
          { i with callback := callback, processor := some { p with stream := w.stream } }
        log := log } bound bound role role' r ∧
      { i with callback := callback, processor := some { p with stream := w.stream } }.bare
        = ({ i with callback := callback }.restart
            (p.stream.startAfterCycle values time)).bare ∧
      w.stream.windowIn w.pool = p.stream.afterCycle (i.contents s.pool).window values := by
  -- only an observing instrument has an asynchronous accumulator and a processor
  cases h.steady hi with
  | recording accumulator =>
    rw [hacc] at accumulator
    cases accumulator
  | discarding accumulator =>
    rw [hacc] at accumulator
    cases accumulator
  | observing accumulator processor kind descriptor clock observes =>
    obtain rfl := Option.some.inj (hp.symm.trans processor)
    obtain ⟨w, role₁, hclose, hobserves, hadv, hstart, hwindow⟩ :=
      Observes.close (w := { pool := s.pool, stream := p.stream }) observes values time
    have hstream : p.stream.Continues w.stream := hadv.stream
    have hcontents : (i.contents s.pool).window = p.stream.windowIn s.pool := by
      unfold Instrument.contents
      rw [hp]
    rw [hcontents]
    let i' : Instrument σ :=
      { i with callback := callback, processor := some { p with stream := w.stream } }
    let s' : System σ := { s with
      pool := w.pool
      instruments := s.instruments.set r i'
      log := log }
    have hi' : s'.instruments.get? r = some i' := Table.get?_set_self _ hi
    have hchanged : s.ChangedAt s' r (role r) :=
      ⟨fun hr => Table.get?_set_of_ne _ _ (Ne.symm hr), hadv.spares,
        ⟨rfl, rfl, rfl, rfl, rfl, rfl⟩⟩
    have hretains : s.Retains s' := hchanged.retains hi hi' (by
      unfold Instrument.design
      simp only [i', hp, Option.map_some]
      rw [Processor.design_of_continues hstream])
    have hsteady : Steady s' bound r role₁ i' :=
      .observing accumulator rfl kind (hstream.descriptor.trans descriptor) clock hobserves
    refine ⟨w, _, hclose, ⟨h.work hchanged hi' hsteady hadv.foreign (h.handled.congr rfl)
      (fun hx => (h.owned hx).retain hretains fun _ hb => hb)
      (fun _ => List.Perm.of_eq (System.heldOn_congr fun b _ => System.reference?_congr rfl b.1)),
      hchanged, hretains⟩, ?_, hwindow⟩
    unfold Instrument.restart Instrument.bare Processor.bare
    simp only [Option.map_some, hp]
    rw [hstream, hstart]

end Orderly

end Metering
