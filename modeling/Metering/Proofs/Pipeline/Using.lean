import Metering.Proofs.Instruments.Keeping
import Metering.Proofs.Pipeline.Wiring

/-!
# Recording in a pipeline

Recording into an instrument, binding it, recording on a handle, releasing a handle and recording a
batch keep the ensemble of all instruments, and the parts of the system stay the same.  What such an
operation records is what it says it has recorded: if it fails, nothing.
-/

namespace Metering

open Fallible SystemM

variable {σ : Type}

/-- What an operation records into one instrument is written down. -/
structure Ensemble.Noted (s s' : System σ) (bound' : List (Ref .handle × LabelSet))
    (recorded : List (Ref .instrument × LabelSet × Scalar)) (out : List Metric) : Prop where
  ensemble : ∃ role, Ensemble s' bound' role recorded out fun _ => False
  parts : s.SameParts s'

namespace Ensemble

variable {s s' : System σ} {bound bound' : List (Ref .handle × LabelSet)}
  {role : Ref .instrument → AggregatorId → Role}
  {recorded : List (Ref .instrument × LabelSet × Scalar)} {out : List Metric}
  {settled : Ref .instrument → Prop} {r : Ref .instrument} {t t' : Threads} {g : Ledger Int}
  {entries : List (LabelSet × Scalar)}

/-- Nothing was done but to add to the log. -/
theorem noted_log (h : Ensemble s bound role recorded out settled) (log : List LogEntry) :
    Noted s { s with log := log } bound recorded out where
  ensemble := ⟨role, h.congr rfl rfl rfl fun _ => False.elim⟩
  parts := { System.SameParts.refl s with makes := fun hr => hr.congr rfl }

/-- Nothing was done. -/
theorem noted_refl (h : Ensemble s bound role recorded out settled) :
    Noted s s bound recorded out :=
  h.noted_log s.log

/-- **An operation** on one instrument. -/
theorem noted_did (h : Ensemble s bound role recorded out settled)
    (hacc : Account s bound r (role r) t g) (hnotes : t.recorded = notes recorded r)
    (hout : t.reports.flatten = out.filter (fun m => m.origin = t.stream.origin))
    (hdid : Did s s' r bound bound' t t' entries) (hhandled : Handled s' bound')
    (howned : ∀ {h x}, s'.handles.get? h = some x →
      (∃ l, (h, l) ∈ bound') ∧ ∃ a, s.accumulation? x.instrument = some a)
    (hheld : ∀ r', r' ≠ r → (s'.heldOn r' bound').Perm (s.heldOn r' bound)) :
    Noted s s' bound' (recorded ++ entries.map (Prod.mk r)) out := by
  obtain ⟨events, hrun⟩ := hdid.run
  have htracks : Tracks s' r bound' (t.run events) := by
    rw [hrun]
    exact hdid.tracks
  obtain ⟨role₁, hacc', hadv⟩ :=
    hacc.run htracks (by rw [hrun]; exact hdid.collector.trans hacc.idle)
  rw [hrun] at hacc' hadv
  have hframe := hdid.frame
  have hw : WorkedOn s s' r t t' :=
    { before := hacc.tracks.accumulation
      instruments := by rw [hframe]
      pool := by rw [hframe]; rfl
      stream := hadv.stream }
  have hwork : Ensemble s' bound' _ _ _ fun _ => False :=
    h.work hacc hnotes hout hw hacc' hadv hdid.recorded
      (hdid.reports.trans (List.append_nil _).symm) (fun _ => nofun) hhandled howned hheld
      False.elim fun _ _ => False.elim
  rw [List.flatten_nil, List.append_nil] at hwork
  exact ⟨⟨_, hwork⟩, .of_did hacc.tracks hdid hadv.stream⟩

/-- An operation on one instrument that leaves the handles alone. -/
theorem noted_did_handles (h : Ensemble s bound role recorded out settled)
    (hacc : Account s bound r (role r) t g) (hnotes : t.recorded = notes recorded r)
    (hout : t.reports.flatten = out.filter (fun m => m.origin = t.stream.origin))
    (hdid : Did s s' r bound bound t t' entries) (hs : s'.handles = s.handles) :
    Noted s s' bound (recorded ++ entries.map (Prod.mk r)) out := by
  refine h.noted_did hacc hnotes hout hdid (h.handled.congr hs) ?_ fun r' _ => ?_
  · rw [hs]
    exact h.owned
  · rw [System.heldOn_congr fun b _ => System.reference?_congr hs b.1]

/-! ### Single operations -/

/-- **Recording** into an instrument. -/
theorem record (h : Ensemble s bound role recorded out settled) {a : Accumulation}
    (ha : s.accumulation? r = some a) (value : Scalar) (labels : LabelArgument) :
    ∃ entries, Noted s (recordInstrument r value labels s).2 bound
        (recorded ++ entries.map (Prod.mk r)) out ∧
      ((recordInstrument r value labels s).1 = .ok () →
        ∃ l, LabelSet.create labels = .ok l ∧ entries = [(l, value)]) ∧
      (∀ f, (recordInstrument r value labels s).1 = .error f → entries = []) := by
  obtain ⟨t, g, rfl, hacc, hnotes, hout, -⟩ := h.account ha
  obtain ⟨t', entries, hdid, hok, herror⟩ := hacc.tracks.record addsUp_isSum hacc.sound value labels
  refine ⟨entries, h.noted_did_handles hacc hnotes hout hdid ?_, hok, herror⟩
  rw [recordInstrument_apply ha]
  rfl

/-- **Binding** an instrument. -/
theorem bind (h : Ensemble s bound role recorded out settled) {a : Accumulation}
    (ha : s.accumulation? r = some a) (labels : LabelArgument) :
    (∃ e, LabelSet.create labels = .error e ∧
      bindHandle r labels s = (.error (.labels e), s)) ∨
    ∃ l, LabelSet.create labels = .ok l ∧ (bindHandle r labels s).1 = .ok s.handles.next ∧
      Noted s (bindHandle r labels s).2 ((s.handles.next, l) :: bound) recorded out := by
  cases hl : LabelSet.create labels with
  | error e => exact Or.inl ⟨e, rfl, bindHandle_of_error ha hl⟩
  | ok l =>
    obtain ⟨t, g, rfl, hacc, hnotes, hout, -⟩ := h.account ha
    obtain ⟨t', x, hok, hs, hx, hopen, hdid⟩ :=
      hacc.tracks.bind addsUp_isSum hacc.sound h.handled hl
    have hnoted := h.noted_did hacc hnotes hout hdid (h.handled.add hs l) ?_ fun r' hr => ?_
    · rw [List.map_nil, List.append_nil] at hnoted
      exact Or.inr ⟨l, rfl, hok, hnoted⟩
    · intro q y hy
      rw [hs, Table.get?_add] at hy
      split at hy
      · next hq =>
        obtain rfl := Option.some.inj hy
        refine ⟨⟨l, ?_⟩, _, by rw [hx]; exact ha⟩
        rw [hq]
        exact List.mem_cons_self
      · obtain ⟨⟨l', hl'⟩, hinstrument⟩ := h.owned hy
        exact ⟨⟨l', List.mem_cons_of_mem _ hl'⟩, hinstrument⟩
    · rw [System.heldOn_add h.handled hs hopen, hx, if_neg (Ne.symm hr)]

/-- **Recording** on a handle that is not released. -/
theorem recordOn (h : Ensemble s bound role recorded out settled) {q : Ref .handle} {x : Handle}
    (hx : s.handles.get? q = some x) (ho : x.released = false) {l : LabelSet}
    (hl : (q, l) ∈ bound) (value : Scalar) :
    ∃ entries, Noted s (recordHandle q value s).2 bound
        (recorded ++ entries.map (Prod.mk x.instrument)) out ∧
      ((recordHandle q value s).1 = .ok () → entries = [(l, value)]) ∧
      (∀ f, (recordHandle q value s).1 = .error f → entries = []) := by
  obtain ⟨-, a, ha⟩ := h.owned hx
  obtain ⟨t, g, rfl, hacc, hnotes, hout, -⟩ := h.account ha
  obtain ⟨t', entries, hdid, hok, herror⟩ := hacc.tracks.recordOn hl hx rfl ho value
  refine ⟨entries, h.noted_did_handles hacc hnotes hout hdid ?_, hok, herror⟩
  rw [recordHandle_of_open hx ho, recordInto_apply]
  split <;> rfl

/-- **Releasing** a handle that is not released. -/
theorem release (h : Ensemble s bound role recorded out settled) {q : Ref .handle} {x : Handle}
    (hx : s.handles.get? q = some x) (ho : x.released = false) :
    Noted s (releaseHandle q s).2 bound recorded out := by
  obtain ⟨⟨l, hl⟩, a, ha⟩ := h.owned hx
  obtain ⟨t, g, rfl, hacc, hnotes, hout, -⟩ := h.account ha
  obtain ⟨t', hdid⟩ := hacc.tracks.release h.handled hl hx rfl ho
  have hs : (releaseHandle q s).2.handles = s.handles.set q { x with released := true } := by
    rw [releaseHandle_of_open hx ho]
  -- the handle stays where it was, and other instruments keep their references
  have hnoted := h.noted_did hacc hnotes hout hdid (h.handled.set hx hs) ?_ fun r' hr => ?_
  · rwa [List.map_nil, List.append_nil] at hnoted
  · intro q' y hy
    rw [hs, Table.get?_set _ hx] at hy
    split at hy
    · next hq =>
      obtain rfl := Option.some.inj hy
      rw [hq]
      exact ⟨⟨l, hl⟩, _, ha⟩
    · exact h.owned hy
  · have hperm := System.heldOn_set (r := r') h.handled hl hx ho hs
    rwa [if_neg (Ne.symm hr)] at hperm

end Ensemble

/-! ### Batches -/

/-- A measurement of a batch that can be recorded. -/
def System.Takes (s : System σ) : BatchTarget × Scalar → Prop
  | (.other _, _) => False
  | (.instrument r, value) => ∃ d library k, s.Makes r d library ∧ checkLong value = .ok k ∧
    (d.kind.isMonotonic = true → (Number.integer k).isNegative = false)

theorem System.Takes.sameParts {s s' : System σ} {m : BatchTarget × Scalar} (h : s.Takes m)
    (hs : s.SameParts s') : s'.Takes m := by
  obtain ⟨_ | _, value⟩ := m
  · obtain ⟨d, library, k, hmakes, hk⟩ := h
    exact ⟨d, library, k, hs.makes hmakes, hk⟩
  · exact h

/-- What a batch records. -/
def batchEntries (labels : LabelSet) (measurements : List (BatchTarget × Scalar)) :
    List (Ref .instrument × LabelSet × Scalar) :=
  measurements.filterMap fun m =>
    match m.1 with
    | .instrument r => some (r, labels, m.2)
    | .other _ => none

namespace SystemM

/-- What passes the check is a measurement of a synchronous instrument, in its value type, and not
negative if it is monotonic. -/
theorem checkMeasurement_ok {m : BatchTarget × Scalar} {s : System σ}
    (h : (checkMeasurement m s).1 = .ok ()) : ∃ r i n, m.1 = .instrument r ∧
      s.instruments.get? r = some i ∧ i.descriptor.valueType.check m.2 = .ok n ∧
      (i.descriptor.kind.isMonotonic = true → n.isNegative = false) := by
  obtain ⟨r | _, value⟩ := m
  swap
  · cases h
  unfold checkMeasurement instrument at h
  simp only [bind_apply, get_apply, demand_apply] at h
  cases hi : s.instruments.get? r with
  | none =>
    rw [hi] at h
    cases h
  | some i =>
    rw [hi] at h
    dsimp only at h
    split at h
    · cases h
    cases hn : i.descriptor.valueType.check value with
    | error e =>
      rw [hn] at h
      cases h
    | ok n =>
      refine ⟨r, i, n, rfl, hi, hn, fun hm => ?_⟩
      rw [hn] at h
      simp only [Except.mapError, bind_apply, ofExcept_apply, hm, Bool.true_and] at h
      cases hneg : n.isNegative with
      | false => rfl
      | true =>
        rw [hneg] at h
        cases h

/-- All measurements are checked, and nothing else happens. -/
theorem checkMeasurements_apply (ms : List (BatchTarget × Scalar)) (s : System σ) :
    ((ms.forM checkMeasurement) s).2 = s ∧
    (((ms.forM checkMeasurement) s).1 = .ok () → ∀ m ∈ ms, (checkMeasurement m s).1 = .ok ()) := by
  induction ms with
  | nil => exact ⟨rfl, fun _ _ => nofun⟩
  | cons m ms ih =>
    have hstate := checkMeasurement_state m s
    rw [forM_cons_apply]
    rcases hm : checkMeasurement m s with ⟨e | ⟨⟩, s'⟩
    all_goals
      rw [hm] at hstate
      obtain rfl : s' = s := hstate
    · exact ⟨rfl, nofun⟩
    · refine ⟨ih.1, fun hok m' hm' => ?_⟩
      rcases List.mem_cons.mp hm' with rfl | hmem
      · rw [hm]
      · exact ih.2 hok m' hmem

end SystemM

namespace Ensemble

variable {P : Pipeline} {plan : Ref .meter → String → Descriptor} {s : System σ}
  {bound : List (Ref .handle × LabelSet)} {role : Ref .instrument → AggregatorId → Role}
  {recorded : List (Ref .instrument × LabelSet × Scalar)} {out : List Metric}
  {settled : Ref .instrument → Prop}

/-- What passes the check can be recorded. -/
theorem takes (h : Ensemble s bound role recorded out settled) (hp : Registered P plan s)
    {m : BatchTarget × Scalar} (hm : (checkMeasurement m s).1 = .ok ()) : s.Takes m := by
  obtain ⟨r, i, n, hr, hi, hn, hneg⟩ := checkMeasurement_ok hm
  obtain ⟨m, value⟩ := m
  obtain rfl : m = .instrument r := hr
  obtain ⟨_, y, name, hy, hname⟩ := hp.instruments hi
  obtain ⟨-, hmakes⟩ := hp.makes hy hname
  obtain ⟨a, ha, hd, -⟩ := hmakes.accumulation?
  obtain ⟨t, g, rfl, hacc, -⟩ := h.account ha
  obtain ⟨j, b, hj, hb, hdj, hdb, hl⟩ := hmakes
  obtain rfl := Option.some.inj (hi.symm.trans hj)
  -- all instruments of a pipeline have long values
  have hlong : i.descriptor.valueType = .long := by
    rw [hdj, ← hd]
    exact hacc.sound.valueType
  rw [hlong] at hn
  cases hk : checkLong value with
  | error e =>
    unfold ValueType.check at hn
    dsimp only at hn
    rw [hk] at hn
    cases hn
  | ok k =>
    unfold ValueType.check at hn
    dsimp only at hn
    rw [hk] at hn
    obtain rfl := Except.ok.inj hn
    exact ⟨_, _, k, ⟨i, b, hi, hb, hdj, hdb, hl⟩, hk, by rwa [← hdj]⟩

/-- A measurement that can be recorded is **recorded**. -/
theorem recordMeasurement (h : Ensemble s bound role recorded out settled)
    {m : BatchTarget × Scalar} (hm : s.Takes m) (l : LabelSet) :
    (SystemM.recordMeasurement l m s).1 = .ok () ∧
      Noted s (SystemM.recordMeasurement l m s).2 bound (recorded ++ batchEntries l [m]) out := by
  obtain ⟨r | _, value⟩ := m
  swap
  · exact hm.elim
  obtain ⟨d, library, k, hmakes, hk, hneg⟩ := hm
  obtain ⟨a, ha, hd, -⟩ := hmakes.accumulation?
  obtain ⟨t, g, rfl, hacc, -⟩ := h.account ha
  have hread : Recordable.read value = .ok k := by
    show Aggregator.longValue value = _
    unfold Aggregator.longValue
    rw [hk]
    rfl
  -- the aggregator refuses nothing that the check did not refuse
  have hsum : t.stream.shape = .sum true → (Quantity.toNumber k).isNegative = false := by
    intro hs
    refine hneg ?_
    rw [← hd]
    show t.stream.descriptor.kind.isMonotonic = true
    unfold Stream.shape Aggregation.shape at hs
    cases hagg : t.stream.aggregation with
    | sum =>
      rw [hagg] at hs
      exact Shape.sum.inj hs
    | _ =>
      rw [hagg] at hs
      cases hs
  have hok : (recordInstrument r value (.set l) s).1 = .ok () := by
    rw [recordInstrument_apply ha]
    exact Threads.add_ok addsUp_isSum hacc.sound rfl hread hsum
  obtain ⟨entries, hnoted, hentries, -⟩ := h.record ha value (.set l)
  obtain ⟨l', hl', rfl⟩ := hentries hok
  obtain rfl := Except.ok.inj hl'
  exact ⟨hok, hnoted⟩

/-- Measurements that can be recorded are all **recorded**. -/
theorem recordMeasurements (ms : List (BatchTarget × Scalar)) (l : LabelSet)
    (h : Ensemble s bound role recorded out settled) (hms : ∀ m ∈ ms, s.Takes m) :
    ((ms.forM (SystemM.recordMeasurement l)) s).1 = .ok () ∧
      Noted s ((ms.forM (SystemM.recordMeasurement l)) s).2 bound
        (recorded ++ batchEntries l ms) out := by
  induction ms generalizing s role recorded settled with
  | nil =>
    rw [show batchEntries l [] = [] from rfl, List.append_nil]
    exact ⟨rfl, h.noted_refl⟩
  | cons m ms ih =>
    obtain ⟨hok, hnoted⟩ := h.recordMeasurement (hms m List.mem_cons_self) l
    have hcons : (m :: ms).forM (SystemM.recordMeasurement l) s
        = ms.forM (SystemM.recordMeasurement l) (SystemM.recordMeasurement l m s).2 := by
      rw [forM_cons_apply]
      rcases hm : SystemM.recordMeasurement l m s with ⟨_ | _, s'⟩
      · rw [hm] at hok
        cases hok
      · rfl
    obtain ⟨role', h'⟩ := hnoted.ensemble
    obtain ⟨hrest, hnoted'⟩ := ih h' fun m' hm' =>
      (hms m' (List.mem_cons_of_mem _ hm')).sameParts hnoted.parts
    have hentries : batchEntries l (m :: ms) = batchEntries l [m] ++ batchEntries l ms :=
      List.filterMap_append (l := [m])
    rw [hcons, hentries, ← List.append_assoc]
    exact ⟨hrest, hnoted'.ensemble, hnoted.parts.trans hnoted'.parts⟩

/-- **A batch** is recorded as a whole or not at all. -/
theorem recordBatch (h : Ensemble s bound role recorded out settled) (hp : Registered P plan s)
    (labels : LabelArgument) (ms : List (BatchTarget × Scalar)) :
    (∃ l, LabelSet.create labels = .ok l ∧ (SystemM.recordBatch labels ms s).1 = .ok () ∧
      Noted s (SystemM.recordBatch labels ms s).2 bound (recorded ++ batchEntries l ms) out) ∨
    ((∃ f, (SystemM.recordBatch labels ms s).1 = .error f) ∧
      (SystemM.recordBatch labels ms s).2 = s) := by
  unfold SystemM.recordBatch
  cases hl : LabelSet.create labels with
  | error e => exact Or.inr ⟨⟨_, rfl⟩, rfl⟩
  | ok l =>
    simp only [Except.mapError, bind_apply, ofExcept_apply]
    obtain ⟨hstate, hchecked⟩ := checkMeasurements_apply ms s
    rcases hc : ms.forM checkMeasurement s with ⟨e | ⟨⟩, s'⟩
    all_goals
      rw [hc] at hstate hchecked
      obtain rfl : s' = s := hstate
    · exact Or.inr ⟨⟨e, rfl⟩, rfl⟩
    · have hms := fun m hm => h.takes hp (hchecked rfl m hm)
      obtain ⟨hok, hnoted⟩ := h.recordMeasurements ms l hms
      exact Or.inl ⟨l, rfl, hok, hnoted⟩

end Ensemble

end Metering
