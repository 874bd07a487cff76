import Metering.Proofs.Concurrency.Steps

/-!
# Conservation of recorded values

`Booked` is the second invariant of threads over one accumulation: every recorded value is in the
ledger, and every report says just what the blocks say that it covers.  Together with the first one
it gives `Metering.recorded_values_conserved`: whatever the threads do, the values recorded for a
label set are the blocks that the collections took, one after the other, followed by what the live
aggregator still holds.

`Ledger.Admitted` says that a monotonic sum has recorded no negative values; `Sound.admitted_run`
keeps it.
-/

namespace Metering

open Fallible

/-! ### Reports -/

/-- What a report says about a label set. -/
def pointValues (labels : LabelSet) (metrics : List Metric) : List PointValue :=
  ((metrics.flatMap Metric.points).filter fun p => p.labels = labels).map Point.value

theorem Stream.flatMap_metrics (s : Stream) (p : Pool) (time : Int) :
    (s.metrics p time).flatMap Metric.points = s.points p time := by
  unfold Stream.metrics
  cases s.points p time with
  | nil => rfl
  | cons => simp

/-- Where a metric is from: the library and the name of its instrument. -/
def Metric.origin (m : Metric) : Library × String := (m.library, m.name)

/-- Where the metrics of a stream are from. -/
def Stream.origin (s : Stream) : Library × String := (s.library, s.descriptor.name)

theorem Stream.origin_of_mem {s : Stream} {p : Pool} {time : Int} {m : Metric}
    (h : m ∈ s.metrics p time) : m.origin = s.origin := by
  unfold metrics at h
  split at h
  · cases h
  · obtain rfl := List.mem_singleton.mp h
    rfl

theorem Stream.Continues.origin {s s' : Stream} (h : s.Continues s') : s'.origin = s.origin := by
  rw [h]
  rfl

/-- A report has one point at most for a label set, which comes from the window. -/
theorem pointValues_metrics (s : Stream) (p : Pool) (time : Int) (labels : LabelSet) :
    pointValues labels (s.metrics p time)
      = ((s.window.get? labels).bind fun i => (p.get i).value?).toList := by
  have hkey : ∀ (e : LabelSet × AggregatorId) (point : Point),
      (p.get e.2).point? s.start time e.1 = some point → point.labels = e.1 := by
    intro e point hp
    obtain ⟨value, -, rfl⟩ := Option.map_eq_some_iff.mp hp
    rfl
  unfold pointValues
  rw [s.flatMap_metrics, Stream.points, s.window.filterMap_entries _ _ hkey]
  cases s.window.get? labels with
  | none => rfl
  | some i =>
    show (((p.get i).value?.map (Point.mk s.start time labels)).toList).map Point.value = _
    cases hv : (p.get i).value? with
    | none => simp [hv]
    | some value => simp [hv]

/-- The values that the report of the given number covers, which ends the block of that number:
under delta temporality only this block, under cumulative temporality all blocks up to it. -/
def Temporality.covered {α : Type} (t : Temporality) (blocks : List (List α)) (k : Nat) : List α :=
  match t with
  | .delta => blocks.getD k []
  | .cumulative => (blocks.take (k + 1)).flatten

theorem Temporality.covered_concat_of_lt {α : Type} (t : Temporality) {blocks : List (List α)}
    {k : Nat} (hk : k < blocks.length) (block : List α) :
    t.covered (blocks ++ [block]) k = t.covered blocks k := by
  cases t with
  | delta => simp [covered, List.getD_eq_getElem?_getD, List.getElem?_append_left hk]
  | cumulative => rw [covered, covered, List.take_append_of_le_length hk]

theorem Temporality.covered_concat_length {α : Type} (t : Temporality) (blocks : List (List α))
    (block : List α) : t.covered (blocks ++ [block]) blocks.length = t.before blocks ++ block := by
  cases t with
  | delta => simp [covered, before, List.getD_eq_getElem?_getD]
  | cumulative =>
    rw [covered, List.take_of_length_le (by simp), List.flatten_append, List.flatten_singleton]
    rfl

theorem Temporality.covered_of_flatten_eq_nil {α : Type} (t : Temporality) {blocks : List (List α)}
    (h : blocks.flatten = []) (k : Nat) : t.covered blocks k = [] := by
  rw [List.flatten_eq_nil_iff] at h
  cases t with
  | delta =>
    show blocks.getD k [] = []
    rw [List.getD_eq_getElem?_getD]
    cases hk : blocks[k]? with
    | none => rfl
    | some block => exact h block (List.mem_of_getElem? hk)
  | cumulative => exact List.flatten_eq_nil_iff.mpr fun b hb => h b (List.mem_of_mem_take hb)

/-! ### What the steps write down -/

namespace Ledger

variable {α : Type}

theorem all_collect (g : Ledger α) (p : Pool) (c : Collector) : (g.collect p c).all = g.all := by
  rcases c with _ | (_ | ⟨e, rest⟩) | ⟨l, i, _ | _, rest⟩ | ⟨l, i, rest⟩
  case idle => rfl
  case draining.nil => exact g.all_close
  case draining.cons =>
    unfold collect
    dsimp only
    split
    · exact g.all_retire e.1
    · rfl
  case tried.false => exact ((g.retire l).all_take l).trans (g.all_retire l)
  case tried.true => rfl
  case removed => exact g.all_take l

theorem blocks_collect (g : Ledger α) (p : Pool) {c : Collector} (hc : c ≠ .draining []) :
    (g.collect p c).blocks = g.blocks := by
  rcases c with _ | (_ | ⟨e, rest⟩) | ⟨l, i, _ | _, rest⟩ | ⟨l, i, rest⟩
  case draining.nil => exact absurd rfl hc
  case draining.cons =>
    unfold collect
    dsimp only
    split <;> rfl
  all_goals rfl

end Ledger

namespace Threads

variable {t : Threads}

theorem recorded_step (e : Event) (he : ∀ l i value, e ≠ .record l i value) :
    (t.step e).recorded = t.recorded := by
  cases e with
  | record l i value => exact absurd rfl (he l i value)
  | look l => rfl
  | bind b =>
    unfold step
    dsimp only
    split
    · rcases b.advance t.accumulation with ⟨_ | _ | _, a⟩ <;> rfl
    · rfl
  | release l i =>
    unfold step
    dsimp only
    split <;> rfl
  | collect time =>
    unfold step
    dsimp only
    rcases t.collector.advance time t.accumulation with ⟨_ | _, a⟩ <;> rfl

theorem reports_step (e : Event) (he : ∀ time, e ≠ .collect time) :
    (t.step e).reports = t.reports ∧ (t.step e).collector = t.collector := by
  cases e with
  | collect time => exact absurd rfl (he time)
  | look l => exact ⟨rfl, rfl⟩
  | bind b =>
    unfold step
    dsimp only
    split
    · rcases b.advance t.accumulation with ⟨_ | _ | _, a⟩ <;> exact ⟨rfl, rfl⟩
    · exact ⟨rfl, rfl⟩
  | record l i value =>
    unfold step
    dsimp only
    split
    · rcases Accumulation.record i value t.accumulation with ⟨_ | _, a⟩ <;> exact ⟨rfl, rfl⟩
    · exact ⟨rfl, rfl⟩
  | release l i =>
    unfold step
    dsimp only
    split <;> exact ⟨rfl, rfl⟩

end Threads

/-- Only the end of a cycle reports, and ends the collection. -/
theorem Collector.report_of_advance {a a' : Accumulation} {c c' : Collector} {time : Int}
    {report : Option (List Metric)} (hc : c ≠ .draining [])
    (h : c.advance time a = (.ok (c', report), a')) : report = none ∧ c' ≠ .idle := by
  have hbatch : ∀ {l i unmapped rest}, (do
      Accumulation.onStream (·.batch l i unmapped)
      return (Collector.draining rest, none) : AccumulationM (Collector × Option (List Metric))) a
        = (.ok (c', report), a') → report = none ∧ c' ≠ .idle := by
    intro l i unmapped rest hb
    rw [bind_apply] at hb
    rcases hr : Accumulation.onStream (·.batch l i unmapped) a with ⟨_ | _, a''⟩
    · rw [hr] at hb
      cases hb
    · rw [hr] at hb
      cases hb
      exact ⟨rfl, nofun⟩
  rcases c with _ | (_ | ⟨e, rest⟩) | ⟨l, i, _ | _, rest⟩ | ⟨l, i, rest⟩
  case draining.nil => exact absurd rfl hc
  case tried.false => exact hbatch h
  case removed => exact hbatch h
  all_goals
    cases h
    exact ⟨rfl, nofun⟩

theorem Threads.reports_collect {t : Threads} (hc : t.collector ≠ .draining []) (time : Int) :
    (t.step (.collect time)).reports = t.reports := by
  unfold step
  dsimp only
  rcases ha : t.collector.advance time t.accumulation with ⟨f | ⟨c, report⟩, a⟩
  · rfl
  · obtain ⟨rfl, -⟩ := Collector.report_of_advance hc ha
    exact List.append_nil _

section

variable {α : Type} [Recordable α] {isTotal : α → List α → Prop} {role : AggregatorId → Role}
  {t t' : Threads} {g g' : Ledger α}

/-- Every recorded value is in the ledger, and the reports say what the blocks say. -/
structure Booked (isTotal : α → List α → Prop) (t : Threads) (g : Ledger α) : Prop where
  readable : ∀ m ∈ t.recorded, ∃ v : α, Recordable.read m.2 = .ok v
  recorded : ∀ l, t.recordedFor α l = g.all l
  /-- Between collections the window has nothing that is not in a block. -/
  idle : t.collector = .idle → ∀ l, g.taken l = []
  length : ∀ l, (g.blocks l).length = t.reports.length
  reports : ∀ l k report, t.reports[k]? = some report → ∃ a,
    Aggregator.Holds isTotal t.stream.shape a (t.stream.temporality.covered (g.blocks l) k) ∧
      pointValues l report = a.value?.toList

namespace Booked

/-- A step that neither records nor reports keeps the books. -/
theorem congr (h : Booked isTotal t g) (hrecorded : t'.recorded = t.recorded)
    (hreports : t'.reports = t.reports) (hs : t.stream.Continues t'.stream)
    (hall : g'.all = g.all) (hblocks : g'.blocks = g.blocks)
    (hidle : t'.collector = .idle → ∀ l, g'.taken l = []) : Booked isTotal t' g' where
  readable := by
    rw [hrecorded]
    exact h.readable
  recorded l := by
    rw [hall, ← h.recorded]
    unfold Threads.recordedFor
    rw [hrecorded]
  idle := hidle
  length l := by rw [hblocks, hreports, h.length]
  reports l k report hk := by
    rw [hreports] at hk
    rw [hblocks, hs]
    exact h.reports l k report hk

/-- **Recording** writes the value down. -/
theorem record (hadd : AddsUp isTotal) (h : Sound isTotal role t g) (hb : Booked isTotal t g)
    (l : LabelSet) (i : AggregatorId) (value : Scalar) :
    Booked isTotal (t.step (.record l i value)) (g.follow t (.record l i value)) := by
  unfold Threads.step Ledger.follow
  by_cases hheld : (l, i) ∈ t.held
  swap
  · simpa only [if_neg hheld] using hb
  simp only [if_pos hheld]
  cases hp : t.pool.record i value with
  | error e =>
    rw [Accumulation.record_of_error hp]
    exact hb
  | ok p =>
    have hi := h.mapped.holders hheld
    obtain ⟨a, ha, rfl⟩ := Pool.record_eq_ok hp
    obtain ⟨v, hv, -⟩ := (h.holds hi nofun).record hadd ha
    rw [Accumulation.record_of_ok hp]
    simp only [hv]
    refine { hb with readable := fun m hm => ?_, recorded := fun l' => ?_ }
    · rcases List.mem_append.mp hm with hm | hm
      · exact hb.readable m hm
      · obtain rfl := List.mem_singleton.mp hm
        exact ⟨v, hv⟩
    have hall := hb.recorded l'
    unfold Threads.recordedFor at hall ⊢
    rw [List.filterMap_append, hall, Ledger.all_record]
    by_cases hl : l' = l
    · subst hl
      simp [hv, Except.toOption]
    · simp [hl, Ne.symm hl]

/-- **The end of a cycle** writes the report down, and the block that it ends. -/
theorem close (hadd : AddsUp isTotal) (h : Sound isTotal role t g) (hb : Booked isTotal t g)
    (hc : t.collector = .draining []) (time : Int) :
    Booked isTotal (t.step (.collect time)) g.close := by
  rw [Threads.step_collect (by rw [hc]; exact Collector.advance_draining_nil)]
  constructor
  case readable => exact hb.readable
  case recorded =>
    intro l
    rw [Ledger.all_close]
    exact hb.recorded l
  case idle => exact fun _ _ => rfl
  case length =>
    intro l
    show (g.blocks l ++ [g.taken l]).length = (t.reports ++ [_]).length
    rw [List.length_append, List.length_append, hb.length l]
    rfl
  case reports =>
    intro l k report hk
    have hs := t.stream.continues_endWindow time
    show ∃ a, Aggregator.Holds isTotal (t.stream.endWindow time).shape a
      ((t.stream.endWindow time).temporality.covered (g.blocks l ++ [g.taken l]) k) ∧ _
    rw [hs.shape, hs.temporality]
    change (t.reports ++ [t.stream.metrics t.pool time])[k]? = some report at hk
    by_cases hlt : k < t.reports.length
    · -- an earlier report covers none of the new block
      rw [List.getElem?_append_left hlt] at hk
      rw [Temporality.covered_concat_of_lt _ (by rw [hb.length l]; exact hlt)]
      exact hb.reports l k report hk
    obtain rfl : k = (g.blocks l).length := by
      have hbound := (List.getElem?_eq_some_iff.mp hk).1
      rw [List.length_append, List.length_singleton] at hbound
      rw [hb.length l]
      omega
    rw [hb.length l, List.getElem?_concat_length] at hk
    obtain rfl := Option.some.inj hk
    rw [Temporality.covered_concat_length, pointValues_metrics]
    -- the new one has what is in the window, which is the new block and what is kept before it
    cases hw : t.stream.window.get? l with
    | some i => exact ⟨_, h.holds (h.window_iff.mp hw) nofun, rfl⟩
    | none =>
      have hempty : Aggregator.Holds isTotal t.stream.shape
          (Aggregator.fresh t.stream.shape (Recordable.valueType α)) [] :=
        Aggregator.Holds.fresh hadd t.stream.shape
      have hvacant : t.stream.temporality.before (g.blocks l) ++ g.taken l = [] :=
        h.vacant _ (h.not_window hw)
      rw [hvacant]
      refine ⟨_, hempty, ?_⟩
      rw [Aggregator.value?_of_holds_nil hempty]
      rfl

/-- **Collecting** goes on by one step. -/
theorem collect (hadd : AddsUp isTotal) (h : Sound isTotal role t g) (hb : Booked isTotal t g)
    (time : Int) : Booked isTotal (t.step (.collect time)) (g.follow t (.collect time)) := by
  by_cases hc : t.collector = .draining []
  · show Booked isTotal _ (g.collect t.pool t.collector)
    rw [hc]
    exact hb.close hadd h hc time
  · obtain ⟨role', -, hadv⟩ := h.collect hadd time
    obtain ⟨c, report, a, ha⟩ := h.advance_ok hadd time
    have hnot : (t.step (.collect time)).collector ≠ .idle := by
      rw [Threads.step_collect ha]
      exact (Collector.report_of_advance hc ha).2
    exact hb.congr (Threads.recorded_step _ fun _ _ _ => nofun) (Threads.reports_collect hc time)
      hadv.stream (g.all_collect t.pool t.collector) (g.blocks_collect t.pool hc)
      fun hidle => absurd hidle hnot

/-- **One step** of any thread keeps the books. -/
theorem step (hadd : AddsUp isTotal) (h : Sound isTotal role t g) (hb : Booked isTotal t g)
    (e : Event) : Booked isTotal (t.step e) (g.follow t e) := by
  obtain ⟨role', -, hadv⟩ := h.step hadd e
  cases e with
  | record l i value => exact hb.record hadd h l i value
  | collect time => exact hb.collect hadd h time
  | look l =>
    exact hb.congr rfl rfl rfl rfl rfl hb.idle
  | bind b =>
    obtain ⟨hreports, hcollector⟩ := Threads.reports_step (.bind b) fun _ => nofun
    exact hb.congr (Threads.recorded_step (.bind b) fun _ _ _ => nofun) hreports hadv.stream rfl rfl
      (by rw [hcollector]; exact hb.idle)
  | release l i =>
    obtain ⟨hreports, hcollector⟩ := Threads.reports_step (.release l i) fun _ => nofun
    exact hb.congr (Threads.recorded_step (.release l i) fun _ _ _ => nofun) hreports hadv.stream
      rfl rfl (by rw [hcollector]; exact hb.idle)

/-- **Any run** keeps the books. -/
theorem run (hadd : AddsUp isTotal) (h : Sound isTotal role t g) (hb : Booked isTotal t g)
    (events : List Event) : Booked isTotal (t.run events) (g.after t events) := by
  induction events generalizing role t g with
  | nil => exact hb
  | cons e events ih =>
    obtain ⟨role', hs, -⟩ := h.step hadd e
    exact ih hs (hb.step hadd h e)

theorem start (isTotal : α → List α → Prop) (p : Pool) (s : Stream) :
    Booked isTotal (Threads.start p s) Ledger.empty where
  readable := nofun
  recorded _ := rfl
  idle _ _ := rfl
  length _ := rfl
  reports := nofun

end Booked

end

/-! ### Admitted values -/

/-- The recorded values are such as the shape admits. -/
def Ledger.Admitted {α : Type} [Quantity α] (g : Ledger α) (s : Shape) : Prop :=
  ∀ l, s.Admits (g.all l)

theorem Ledger.admitted_empty {α : Type} [Quantity α] {s : Shape} :
    (Ledger.empty : Ledger α).Admitted s := fun _ => Shape.Admits.nil

namespace Ledger.Admitted

variable {α : Type} [Quantity α] {g g' : Ledger α} {s s' : Shape}

theorem congr (h : g.Admitted s) (hs : s' = s) : g.Admitted s' := hs ▸ h

theorem of_all (h : g.Admitted s) (hall : g'.all = g.all) : g'.Admitted s := fun l => by
  rw [hall]
  exact h l

theorem record (h : g.Admitted s) (l : LabelSet) {v : α} (hv : s.Admits [v]) :
    (g.record l v).Admitted s := by
  intro l'
  rw [all_record]
  split
  · exact (h l').append hv
  · exact h l'

/-- The values of a role are admitted. -/
theorem contents (h : g.Admitted s) (temporality : Temporality) (r : Role) :
    s.Admits (g.contents temporality r) := by
  cases r with
  | foreign => exact .nil
  | candidate => exact .nil
  | live l => exact (h l).of_subset (List.subset_append_right _ _)
  | retired l =>
    refine (h l).of_subset fun v hv => ?_
    exact List.mem_append_left _ (List.mem_append_right _ hv)
  | window l =>
    refine (h l).of_subset fun v hv => List.mem_append_left _ (List.mem_append_left _ ?_)
    refine (List.mem_append.mp hv).elim (fun hv => List.mem_append_left _ ?_)
      (List.mem_append_right _)
    cases temporality with
    | delta => cases hv
    | cumulative => exact hv

end Ledger.Admitted

namespace Sound

variable {α : Type} [Recordable α] {isTotal : α → List α → Prop} {role : AggregatorId → Role}
  {t : Threads} {g : Ledger α}

/-- **One step** of any thread records only what is admitted. -/
theorem admitted_step (hadd : AddsUp isTotal) (h : Sound isTotal role t g)
    (hg : g.Admitted t.stream.shape) (e : Event) : (g.follow t e).Admitted t.stream.shape := by
  cases e with
  | collect time => exact hg.of_all (g.all_collect t.pool t.collector)
  | record l i value =>
    unfold Ledger.follow
    by_cases hheld : (l, i) ∈ t.held
    swap
    · simpa only [if_neg hheld] using hg
    simp only [if_pos hheld]
    cases hp : t.pool.record i value with
    | error e =>
      rw [Accumulation.record_of_error hp]
      exact hg
    | ok p =>
      have hholds := h.holds (h.mapped.holders hheld) nofun
      obtain ⟨a, ha, rfl⟩ := Pool.record_eq_ok hp
      obtain ⟨v, hv, -⟩ := hholds.record hadd ha
      rw [Accumulation.record_of_ok hp]
      simp only [hv]
      exact hg.record l (hholds.admits_of_record ha hv)
  | _ => exact hg

/-- **Any run** records only what is admitted. -/
theorem admitted_run (hadd : AddsUp isTotal) (h : Sound isTotal role t g)
    (hg : g.Admitted t.stream.shape) (events : List Event) :
    (g.after t events).Admitted t.stream.shape := by
  induction events generalizing role t g with
  | nil => exact hg
  | cons e events ih =>
    obtain ⟨role', h', hadv⟩ := h.step hadd e
    have hshape : (t.step e).stream.shape = t.stream.shape := hadv.stream.shape
    exact (ih h' ((h.admitted_step hadd hg e).congr hshape)).congr hshape.symm

end Sound

/-! ### The main statement -/

/-- What the live aggregator of a label set says about its values.  An aggregator that a collection
has retired is on its way into the window, and is not the live one any more. -/
def Threads.liveValue? (t : Threads) (labels : LabelSet) : Option PointValue :=
  match t.live.get? labels with
  | none => none
  | some i => if t.pool.references i = .retired then none else (t.pool.get i).value?

theorem Sound.liveValue? {role : AggregatorId → Role} {t : Threads} {g : Ledger Int}
    (h : Sound IsSum role t g) (labels : LabelSet) :
    t.liveValue? labels = t.stream.shape.summary (g.live labels) := by
  have hnone : (∀ i, role i ≠ .live labels) → t.stream.shape.summary (g.live labels) = none := by
    intro hi
    have hlive : g.live labels = [] := h.vacant (.live labels) hi
    rw [hlive]
    rfl
  unfold Threads.liveValue?
  cases hl : t.live.get? labels with
  | none =>
    refine (hnone fun i hi => ?_).symm
    rw [h.mapped.live_of_role hi] at hl
    cases hl
  | some i =>
    dsimp only
    -- what the live map has may be on its way into the window already
    rcases h.mapped.role_of_live hl with hi | hi
    · rw [if_neg (h.references_live_ne hi rfl)]
      exact Aggregator.value?_of_holds_long (h.holds hi nofun)
    · rw [if_pos (h.references_retired hi)]
      refine (hnone fun j hj => ?_).symm
      have hji := Option.some.inj ((h.mapped.live_of_role hj).symm.trans hl)
      rw [hji, hi] at hj
      cases hj

/-- **Conservation**: whatever any threads do, in any order, with an accumulation of long values, no
binding and no collection fails, every measurement that was recorded has a long value, and for every
label set

* the recorded values, oldest first, are the blocks that the collections took, one after the other,
  then what the collection under way has taken, then what the live aggregator holds;
* what the live aggregator says is the summary of what it holds;
* there is one block for each report, and what a report says is the summary of its block, or, under
  cumulative temporality, of all blocks up to it. -/
theorem recorded_values_conserved (p : Pool) (s : Stream)
    (hs : s.descriptor.valueType = .long) (events : List Event) (labels : LabelSet) :
    let t := (Threads.start p s).run events
    let g := (Ledger.empty : Ledger Int).after (Threads.start p s) events
    t.failures = [] ∧
    (∀ m ∈ t.recorded, ∃ v : Int, Recordable.read m.2 = .ok v) ∧
    t.recordedFor Int labels
      = (g.blocks labels).flatten ++ (g.taken labels ++ g.retired labels) ++ g.live labels ∧
    (t.collector = .idle → g.taken labels ++ g.retired labels = []) ∧
    t.liveValue? labels = s.shape.summary (g.live labels) ∧
    (g.blocks labels).length = t.reports.length ∧
    ∀ k report, t.reports[k]? = some report → pointValues labels report
      = (s.shape.summary (s.temporality.covered (g.blocks labels) k)).toList := by
  intro t g
  have hsound := sound_start IsSum p hs
  obtain ⟨role, h, hadv⟩ := hsound.run addsUp_isSum events
  have hb := (Booked.start IsSum p s).run addsUp_isSum hsound events
  have hstart : s.Continues (Threads.start p s).stream := rfl
  have hstream : s.Continues t.stream := hstart.trans hadv.stream
  refine ⟨h.unfailing, hb.readable, ?_, fun hidle => ?_, ?_, hb.length labels,
    fun k report hk => ?_⟩
  · rw [hb.recorded labels, ← List.append_assoc]
    rfl
  · -- between collections no aggregator is retired
    have hnone : t.collector.retired? = none := by
      rw [hidle]
      rfl
    have hretired : g.retired labels = [] :=
      h.vacant (.retired labels) fun i => h.not_retired hnone i labels
    rw [hb.idle hidle labels, hretired]
    rfl
  · rw [← hstream.shape]
    exact h.liveValue? labels
  · obtain ⟨a, ha, hvalues⟩ := hb.reports labels k report hk
    rw [hvalues, Aggregator.value?_of_holds_long ha]
    show (t.stream.shape.summary (t.stream.temporality.covered _ k)).toList = _
    rw [hstream.shape, hstream.temporality]

/-- A thread binds the label set of an aggregator that has just been retired and records a four
before the collection goes on: the report has the three that was recorded before, and the new live
aggregator the four. -/
theorem recorded_values_conserved_of_late_binding :
    let s : Stream :=
      { descriptor := ⟨"requests", some "", some "1", .counter, .long⟩
        aggregation := .sum
        temporality := .delta
        resource := Resource.empty
        library := ⟨some "server", none⟩
        start := 0
        window := OrderedMap.empty }
    let l := LabelSet.empty
    let events : List Event :=
      [.look l, .bind (.looked l none), .bind (.prepared l ⟨0⟩),
        .record l ⟨0⟩ (.number (.integer 3)), .release l ⟨0⟩, .collect 1, .collect 1,
        .look l, .bind (.looked l (some ⟨0⟩)), .bind (.prepared l ⟨1⟩),
        .record l ⟨1⟩ (.number (.integer 4)), .collect 1, .collect 1, .collect 1]
    let t := (Threads.start Pool.empty s).run events
    t.failures = [] ∧ t.recordedFor Int l = [3] ++ [4] ∧
      t.liveValue? l = some (.number (.integer 4)) ∧
      t.reports.map (pointValues l) = [[.number (.integer 3)]] := by
  intro s l events t
  obtain ⟨hfailures, -, hrecorded, -, hlive, hlength, hreports⟩ :=
    recorded_values_conserved Pool.empty s rfl events l
  have hledger : let g := (Ledger.empty : Ledger Int).after (Threads.start Pool.empty s) events
      g.blocks l = [[3]] ∧ g.taken l = [] ∧ g.retired l = [] ∧ g.live l = [4] := by
    decide +kernel
  obtain ⟨hblocks, htaken, hretired, hheld⟩ := hledger
  rw [hblocks, htaken, hretired, hheld] at hrecorded
  rw [hheld] at hlive
  rw [hblocks] at hlength hreports
  obtain ⟨report, hreport⟩ := List.length_eq_one_iff.mp hlength.symm
  refine ⟨hfailures, hrecorded, hlive, ?_⟩
  have hvalues := hreports 0 report (by rw [hreport]; rfl)
  rw [show t.reports = [report] from hreport, List.map_singleton, hvalues]
  rfl

end Metering
