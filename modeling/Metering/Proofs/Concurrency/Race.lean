import Metering.Proofs.Aggregator.Typed
import Metering.Proofs.Concurrency.Recording
import Metering.Proofs.OrderedMap

/-!
# Two threads that bind one label set

A thread that binds looks its label set up without the lock, makes a candidate if there is nothing
to refer to, and looks up again under the lock.  In between another thread may have mapped an
aggregator of its own, and that one may even be retired again by then.

`bind_race_conserves` says who stays and with which values.  Whatever the two aggregators have
recorded, the one that stays has it all, in the order rival before candidate (`Race.Lost`), or else
the candidate stays and the retired one is left to the collection that retired it (`Race.Won`).

For long values an aggregator is determined by its history (`Aggregator.ofLongs`,
`Aggregator.Holds.eq_ofLongs`), so both outcomes are told by equations between cells.
-/

namespace Metering

open Fallible

/-! ### Aggregators of long values -/

/-- Tallies of one shape that are left of the same long values are the same. -/
theorem Tally.Holds.unique {t t' : Tally Int} {vs : List Int} (h : t.Holds IsSum vs)
    (h' : t'.Holds IsSum vs) (hs : t.shape = t'.shape) : t = t' := by
  cases t with
  | discard =>
    cases t' with
    | discard => rfl
    | _ => cases hs
  | sum monotonic total =>
    cases t' with
    | sum monotonic' total' =>
      obtain rfl : monotonic = monotonic' := Shape.sum.inj hs
      cases total with
      | none =>
        cases total' with
        | none => rfl
        | some y => exact absurd h h'.1
      | some x =>
        cases total' with
        | none => exact absurd h' h.1
        | some y =>
          have hxy : x = y := h.2.trans h'.2.symm
          rw [hxy]
    | _ => cases hs
  | count n =>
    cases t' with
    | count n' =>
      have hn : n = n' := h.trans h'.symm
      rw [hn]
    | _ => cases hs
  | lastValue v =>
    cases t' with
    | lastValue v' =>
      have hv : v = v' := h.trans h'.symm
      rw [hv]
    | _ => cases hs
  | minMaxSumCount n x least greatest =>
    cases t' with
    | minMaxSumCount n' x' least' greatest' =>
      obtain ⟨rfl, rfl, rfl, rfl⟩ := h
      obtain ⟨rfl, rfl, rfl, rfl⟩ := h'
      rfl
    | _ => cases hs
  | histogram b x counts =>
    cases t' with
    | histogram b' x' counts' =>
      obtain rfl : b = b' := Shape.histogram.inj hs
      obtain ⟨rfl, rfl⟩ := h
      obtain ⟨rfl, rfl⟩ := h'
      rfl
    | _ => cases hs

namespace Aggregator

variable {s : Shape} {a b : Aggregator} {vs ws : List Int}

/-- The aggregator of a shape after long values were recorded one after the other. -/
def ofLongs (s : Shape) (vs : List Int) : Aggregator := .long (vs.foldl Tally.push (Tally.fresh s))

theorem holds_ofLongs (s : Shape) (vs : List Int) : Holds IsSum s (ofLongs s vs) vs := by
  unfold ofLongs
  induction vs using List.reverseRecOn with
  | nil => exact Holds.fresh addsUp_isSum s
  | append_singleton vs v ih =>
    obtain ⟨t, ht, hs, hholds⟩ := ih
    obtain rfl := Aggregator.long.inj ht
    rw [List.foldl_concat]
    exact ⟨_, rfl, (Tally.shape_push _ v).trans hs, hholds.push addsUp_isSum v⟩

/-- An aggregator of long values is the one that its history makes. -/
theorem Holds.eq_ofLongs (h : Holds IsSum s a vs) : a = ofLongs s vs := by
  obtain ⟨t, rfl, rfl, ht⟩ := h
  obtain ⟨t', ht', hs, hholds⟩ := holds_ofLongs t.shape vs
  rw [ht', ht.unique hholds hs.symm]

/-- A value that the shape admits is recorded. -/
theorem record_ofLongs {v : Int} (hv : s.Admits [v]) :
    (ofLongs s vs).record (.number (.integer v)) = .ok (ofLongs s (vs ++ [v])) := by
  have hread : (Recordable.read (.number (.integer v)) : Except RecordError Int) = .ok v := rfl
  have hholds := holds_ofLongs s vs
  obtain ⟨b, hb⟩ := hholds.record_of_read hread fun hs => hv hs v (List.mem_singleton_self v)
  obtain ⟨v', hv', hlonger⟩ := hholds.record addsUp_isSum hb
  obtain rfl : v' = v := Except.ok.inj (hv'.symm.trans hread)
  rw [hb, hlonger.eq_ofLongs]

theorem absorb_ofLongs (s : Shape) (vs ws : List Int) :
    (ofLongs s vs).absorb (ofLongs s ws) = ofLongs s (vs ++ ws) :=
  ((holds_ofLongs s vs).absorb addsUp_isSum (holds_ofLongs s ws) s.alike_refl).eq_ofLongs

theorem emptied_ofLongs (s : Shape) (vs : List Int) : (ofLongs s vs).emptied = fresh s .long :=
  ((holds_ofLongs s vs).emptied addsUp_isSum).eq_ofLongs

theorem mergeError?_ofLongs (s : Shape) (vs ws : List Int) :
    (ofLongs s vs).mergeError? (ofLongs s ws) = none :=
  (holds_ofLongs s vs).mergeError? (holds_ofLongs s ws) s.alike_refl

theorem value?_ofLongs (s : Shape) (vs : List Int) : (ofLongs s vs).value? = s.summary vs :=
  value?_of_holds_long (holds_ofLongs s vs)

end Aggregator

/-! ### Cells of long values -/

namespace Pool

variable {p : Pool} {s : Shape} {i c w : AggregatorId} {vs ws cs : List Int} {r r' : References}

/-- An aggregator that does not discard is in the pool. -/
theorem has_of_cell (hs : s ≠ .discard) (h : p.cell i = ⟨.ofLongs s vs, r⟩) : p.Has i := by
  by_contra hnot
  have hnone : p.cells[i.index]? = none := Array.getElem?_eq_none (Nat.not_lt.mp hnot)
  have hshape : (p.cell i).aggregator.shape = s := by
    rw [h]
    exact (Aggregator.holds_ofLongs s vs).shape
  -- what is not in the pool reads as an aggregator that discards
  unfold cell at hshape
  rw [hnone] at hshape
  exact hs hshape.symm

theorem value?_of_cell (h : p.cell i = ⟨.ofLongs s vs, r⟩) : (p.get i).value? = s.summary vs := by
  unfold get
  rw [h, Aggregator.value?_ofLongs]

/-- **Moving** appends the history of the source to that of the target. -/
theorem move_ofLongs (hs : s ≠ .discard) (hne : c ≠ w) (hc : p.cell c = ⟨.ofLongs s cs, r⟩)
    (hw : p.cell w = ⟨.ofLongs s ws, r'⟩) :
    ∃ q, p.move c w = .ok q ∧ q.cell c = ⟨.fresh s .long, r⟩ ∧
      q.cell w = ⟨.ofLongs s (ws ++ cs), r'⟩ ∧ p.Spares q fun i => i = c ∨ i = w := by
  have hgetc : p.get c = .ofLongs s cs := congrArg Cell.aggregator hc
  have hgetw : p.get w = .ofLongs s ws := congrArg Cell.aggregator hw
  have hmerge : (p.get c).mergeError? (p.get w) = none := by
    rw [hgetc, hgetw]
    exact Aggregator.mergeError?_ofLongs s cs ws
  obtain ⟨q, hmove, hqc, hqw, hrefs, hspares⟩ :=
    move_of_ne hne (has_of_cell hs hc) (has_of_cell hs hw) hmerge
  rw [hgetc, Aggregator.emptied_ofLongs] at hqc
  rw [hgetc, hgetw, Aggregator.absorb_ofLongs] at hqw
  have hrefc : q.references c = r := (hrefs c).trans (congrArg Cell.references hc)
  have hrefw : q.references w = r' := (hrefs w).trans (congrArg Cell.references hw)
  refine ⟨q, hmove, ?_, ?_, hspares⟩
  · rw [← hqc, ← hrefc]
    rfl
  · rw [← hqw, ← hrefw]
    rfl

end Pool

/-! ### Lookups -/

namespace Accumulation

variable {a : Accumulation} {l : LabelSet} {i : AggregatorId}

theorem acquireLive?_of_held {n : Nat} (hl : a.live.get? l = some i)
    (hr : a.pool.references i = .held n) : a.acquireLive? l
      = some (i, { a with pool := a.pool.setReferences i (.held (n + 1)) }) := by
  simp [acquireLive?, Pool.acquire?, hl, hr, References.acquire?]

theorem acquireLive?_of_retired
    (h : ∀ i, a.live.get? l = some i → a.pool.references i = .retired) :
    a.acquireLive? l = none := by
  unfold acquireLive?
  cases hl : a.live.get? l with
  | none => rfl
  | some i => simp [Pool.acquire?, h i hl, References.acquire?]

end Accumulation

/-! ### The race -/

/-- What another thread has left when the candidate comes under the lock: its own aggregator, the
rival, is the one in the live map.  The rival and the candidate have recorded some long values
each, and nobody else refers to the candidate. -/
structure Race (s : Shape) (l : LabelSet) (w c : AggregatorId) (ws cs : List Int) (r : References)
    (a : Accumulation) : Prop where
  mapped : a.live.get? l = some w
  ne : w ≠ c
  rival : a.pool.cell w = ⟨.ofLongs s ws, r⟩
  candidate : a.pool.cell c = ⟨.ofLongs s cs, .held 1⟩

namespace Race

variable {s : Shape} {l : LabelSet} {w c : AggregatorId} {ws cs : List Int} {r : References}
  {a b : Accumulation} {n : Nat}

/-- The rival stays.  It has one more reference and also the values of the candidate, which is left
empty and without references. -/
structure Lost (s : Shape) (l : LabelSet) (w c : AggregatorId) (ws cs : List Int) (n : Nat)
    (a b : Accumulation) : Prop where
  rival : b.pool.cell w = ⟨.ofLongs s (ws ++ cs), .held (n + 1)⟩
  summary : (b.pool.get w).value? = s.summary (ws ++ cs)
  candidate : b.pool.cell c = ⟨.fresh s .long, .held 0⟩
  placed : b.live.get? l = some w
  /-- No entry of the live map changes. -/
  live : b.live = a.live
  stream : b.stream = a.stream
  spares : a.pool.Spares b.pool fun i => i = w ∨ i = c

/-- The candidate takes the place of the rival in the live map.  Both keep their values, and the
rival stays retired. -/
structure Won (s : Shape) (l : LabelSet) (w c : AggregatorId) (ws cs : List Int)
    (a b : Accumulation) : Prop where
  candidate : b.pool.cell c = ⟨.ofLongs s cs, .held 1⟩
  rival : b.pool.cell w = ⟨.ofLongs s ws, .retired⟩
  placed : b.live.get? l = some c
  /-- The label sets stay in their places. -/
  keys : b.live.keys = a.live.keys
  others : ∀ l', l' ≠ l → b.live.get? l' = a.live.get? l'
  stream : b.stream = a.stream
  pool : b.pool = a.pool

/-- A rival that can be referred to takes up what the candidate has recorded. -/
theorem settle_of_held (h : Race s l w c ws cs (.held n) a) (hs : s ≠ .discard) :
    ∃ b, Accumulation.settle l c a = (.ok w, b) ∧ Lost s l w c ws cs n a b := by
  -- the pool changes three times: a reference to the rival, the move, the candidate's reference
  let p := a.pool.setReferences w (.held (n + 1))
  have hacquire : a.acquireLive? l = some (w, { a with pool := p }) :=
    Accumulation.acquireLive?_of_held h.mapped (congrArg Cell.references h.rival)
  have hpw : p.cell w = ⟨.ofLongs s ws, .held (n + 1)⟩ := by
    rw [Pool.cell_setReferences_self (Pool.has_of_cell hs h.rival), Pool.get, h.rival]
  have hpc : p.cell c = ⟨.ofLongs s cs, .held 1⟩ := by
    rw [Pool.cell_setReferences_of_ne h.ne.symm, h.candidate]
  obtain ⟨q, hmove, hqc, hqw, hspares⟩ := Pool.move_ofLongs hs h.ne.symm hpc hpw
  have hqhas : q.Has c := hspares.has (Pool.has_of_cell hs hpc)
  have hrival : (q.release c).cell w = ⟨.ofLongs s (ws ++ cs), .held (n + 1)⟩ :=
    (Pool.cell_setReferences_of_ne h.ne).trans hqw
  have hcandidate : (q.release c).cell c = ⟨.fresh s .long, .held 0⟩ := by
    unfold Pool.release
    rw [Pool.cell_setReferences_self hqhas, Pool.get, Pool.references, hqc]
    rfl
  refine ⟨_, Accumulation.settle_of_some hacquire (PooledStream.move_of_ok hmove), ?_⟩
  constructor
  case rival => exact hrival
  case summary => exact Pool.value?_of_cell hrival
  case candidate => exact hcandidate
  case placed => exact h.mapped
  case live => rfl
  case stream => rfl
  case spares =>
    have hfirst : a.pool.Spares p fun i => i = w ∨ i = c :=
      (Pool.Spares.setReferences _ w _).mono fun _ hi => Or.inl hi
    have hlast : q.Spares (q.release c) fun i => i = w ∨ i = c :=
      (Pool.Spares.setReferences _ c _).mono fun _ hi => Or.inr hi
    exact (hfirst.trans (hspares.mono fun _ hi => hi.symm)).trans hlast

/-- The candidate takes the place of a rival that has been retired. -/
theorem settle_of_retired (h : Race s l w c ws cs .retired a) :
    ∃ b, Accumulation.settle l c a = (.ok c, b) ∧ Won s l w c ws cs a b := by
  have hrefw : a.pool.references w = .retired := congrArg Cell.references h.rival
  have hacquire : a.acquireLive? l = none := Accumulation.acquireLive?_of_retired fun i hi => by
    obtain rfl := Option.some.inj (h.mapped.symm.trans hi)
    exact hrefw
  have hmem : l ∈ a.live.keys := by
    by_contra hnot
    have hnone := (a.live.get?_eq_none_iff l).mpr hnot
    rw [h.mapped] at hnone
    cases hnone
  refine ⟨_, Accumulation.settle_of_none hacquire, ?_⟩
  constructor
  case candidate => exact h.candidate
  case rival => exact h.rival
  case placed => exact a.live.get?_insert_self l c
  case keys =>
    show (a.live.insert l c).keys = _
    rw [OrderedMap.keys_insert, if_pos hmem]
  case others => exact fun l' hl' => a.live.get?_insert_of_ne c hl'
  case stream => rfl
  case pool => rfl

end Race

/-! ### Races that take place -/

section

variable {s : Shape} {l : LabelSet} {w i : AggregatorId} {vs ws cs : List Int} {r : References}
  {a : Accumulation}

/-- **Recording** values that the shape admits appends them to the history. -/
theorem Accumulation.recordAll_ofLongs (hadmits : s.Admits ws) (hi : a.pool.Has i)
    (hcell : a.pool.cell i = ⟨.ofLongs s vs, r⟩) :
    ∃ p, recordAll i (ws.map fun v => .number (.integer v)) a = (.ok (), { a with pool := p }) ∧
      p.cell i = ⟨.ofLongs s (vs ++ ws), r⟩ ∧ a.pool.Spares p (· = i) := by
  induction ws generalizing a vs with
  | nil => exact ⟨a.pool, rfl, by rw [List.append_nil, hcell], .refl _⟩
  | cons v ws ih =>
    have hrecord : a.pool.record i (.number (.integer v))
        = .ok (a.pool.set i (.ofLongs s (vs ++ [v]))) := by
      have hadmit : s.Admits [v] := hadmits.of_subset (by simp)
      unfold Pool.record Pool.get
      rw [hcell, Aggregator.record_ofLongs hadmit]
      rfl
    have hnext : (a.pool.set i (.ofLongs s (vs ++ [v]))).cell i = ⟨.ofLongs s (vs ++ [v]), r⟩ := by
      rw [Pool.cell_set_self hi, Pool.references, hcell]
    obtain ⟨p, hall, hp, hspares⟩ := ih (a := { a with pool := a.pool.set i _ })
      (hadmits.of_subset (List.subset_cons_self v ws)) (Pool.has_set.mpr hi) hnext
    refine ⟨p, ?_, by rw [hp, List.append_assoc]; rfl, (Pool.Spares.set _ i _).trans hspares⟩
    show (Scalar.number (.integer v) :: _).forM (record i) a = _
    rw [forM_cons_apply, record_of_ok hrecord]
    exact hall

/-- Another thread maps an aggregator after the candidate has recorded some values. -/
def Accumulation.oppose (w : AggregatorId) (values : List Scalar) (l : LabelSet)
    (c : AggregatorId) : AccumulationM Unit := do
  recordAll c values
  mapLive l w

/-- A thread that maps an aggregator of the pool leaves a race, whatever that aggregator has
recorded and however many references it has. -/
theorem Race.exists_of_oppose (hv : a.stream.descriptor.valueType = .long)
    (hadmits : a.stream.shape.Admits cs) (hw : a.pool.Has w)
    (hrival : a.pool.cell w = ⟨.ofLongs a.stream.shape ws, r⟩) :
    ∃ b, Accumulation.oppose w (cs.map fun v => .number (.integer v)) l a.pool.next
        (Accumulation.candidate a).2 = (.ok (), b) ∧
      Race a.stream.shape l w a.pool.next ws cs r b ∧ b.live = a.live.insert l w := by
  have hhas : (a.pool.add a.stream.freshAggregator).Has a.pool.next :=
    Pool.has_add.mpr (Or.inr rfl)
  have hfresh : a.stream.freshAggregator = .ofLongs a.stream.shape [] := by
    show Aggregator.fresh a.stream.shape a.stream.descriptor.valueType = _
    rw [hv]
    rfl
  have hcandidate : (Accumulation.candidate a).2.pool.cell a.pool.next
      = ⟨.ofLongs a.stream.shape [], .held 1⟩ := by
    rw [Accumulation.candidate_eq, Pool.cell_setReferences_self hhas, Pool.get_add_next, hfresh]
  have hspares : a.pool.Spares (Accumulation.candidate a).2.pool (· = a.pool.next) := by
    rw [Accumulation.candidate_eq]
    exact Pool.Spares.add.trans (.setReferences _ _ _)
  obtain ⟨p, hrecord, hcell, hp⟩ := Accumulation.recordAll_ofLongs hadmits
    (a := (Accumulation.candidate a).2)
    (by rw [Accumulation.candidate_eq]; exact Pool.has_setReferences.mpr hhas) hcandidate
  have hothers : Accumulation.oppose w (cs.map fun v => .number (.integer v)) l a.pool.next
      (Accumulation.candidate a).2 = (.ok (), { (Accumulation.candidate a).2 with
        pool := p, live := (Accumulation.candidate a).2.live.insert l w }) := by
    unfold Accumulation.oppose
    rw [bind_apply, hrecord]
    rfl
  refine ⟨_, hothers, ?_, by rw [Accumulation.candidate_eq]⟩
  constructor
  case mapped => exact OrderedMap.get?_insert_self _ l w
  case ne => exact hw.ne_next
  case rival =>
    -- the rival is older than the candidate, so all that becomes of the candidate spares it
    show p.cell w = _
    rw [(hspares.trans hp).cell hw hw.ne_next, hrival]
  case candidate => exact hcell

end

/-! ### Binding -/

/-- **Binding** loses no value to a thread that binds the same label set.  It starts from any state
in which nothing under the label set can be referred to, and other threads may do anything between
the two lookups that leaves a race.  A rival that can be referred to stays, and otherwise the
candidate does. -/
theorem bind_race_conserves {a b : Accumulation} {l : LabelSet}
    {others : AggregatorId → AccumulationM Unit} {w : AggregatorId} {ws cs : List Int}
    {r : References} (hl : ∀ i, a.live.get? l = some i → a.pool.references i = .retired)
    (hothers : others a.pool.next (Accumulation.candidate a).2 = (.ok (), b))
    (h : Race a.stream.shape l w a.pool.next ws cs r b) :
    (∀ n, r = .held n → ∃ e, Accumulation.bindDuring others l a = (.ok w, e) ∧
      Race.Lost a.stream.shape l w a.pool.next ws cs n b e) ∧
    (r = .retired → ∃ e, Accumulation.bindDuring others l a = (.ok a.pool.next, e) ∧
      Race.Won a.stream.shape l w a.pool.next ws cs b e) := by
  -- the first lookup fails, so what is left to do is to settle in the state that the others leave
  have hsettle : Accumulation.bindDuring others l a = Accumulation.settle l a.pool.next b := by
    have hlookup := Accumulation.acquireLive?_of_retired hl
    have hcandidate : Accumulation.candidate a
        = (.ok a.pool.next, (Accumulation.candidate a).2) := by
      rw [Accumulation.candidate_eq]
    unfold Accumulation.bindDuring
    simp only [bind_apply, get_apply, hlookup]
    rw [hcandidate]
    simp only [hothers]
  rw [hsettle]
  constructor
  · rintro n rfl
    exact h.settle_of_held a.stream.shape_ne_discard
  · rintro rfl
    exact h.settle_of_retired

/-- Last values of two label sets.  The first aggregator has recorded a one and is in nobody's live
map yet, the second one is a retired one of the empty label set, and the third one is live. -/
def Accumulation.ofLastValues (r : References) : Accumulation where
  pool := ⟨#[⟨.ofLongs .lastValue [1], r⟩, ⟨.ofLongs .lastValue [5], .retired⟩,
    ⟨.ofLongs .lastValue [6], .held 0⟩]⟩
  stream :=
    { descriptor := ⟨"level", some "", some "1", .valueRecorder, .long⟩
      aggregation := .lastValue
      temporality := .delta
      resource := Resource.empty
      library := ⟨some "server", none⟩
      start := 0
      window := OrderedMap.empty }
  live := (OrderedMap.empty.insert .empty ⟨1⟩).insert (LabelSet.empty.insert "k" "v") ⟨2⟩

/-- The first aggregator is mapped while a candidate has recorded a four and a two.  If it has three
references it gets a fourth one and the two, which comes later than its one; if it is retired by
then, the candidate comes into its place, before the other label set. -/
theorem bind_race_conserves_of_last_values :
    let values := [Scalar.number (.integer 4), Scalar.number (.integer 2)]
    (∃ e, Accumulation.bindAgainst ⟨0⟩ values .empty (.ofLastValues (.held 3)) = (.ok ⟨0⟩, e) ∧
      e.pool.references ⟨0⟩ = .held 4 ∧ (e.pool.get ⟨0⟩).value? = some (.number (.integer 2)) ∧
      (e.pool.get ⟨3⟩).value? = none ∧ e.live.values = [⟨0⟩, ⟨2⟩]) ∧
    ∃ e, Accumulation.bindAgainst ⟨0⟩ values .empty (.ofLastValues .retired) = (.ok ⟨3⟩, e) ∧
      e.pool.references ⟨3⟩ = .held 1 ∧ (e.pool.get ⟨3⟩).value? = some (.number (.integer 2)) ∧
      (e.pool.get ⟨0⟩).value? = some (.number (.integer 1)) ∧ e.live.get? .empty = some ⟨3⟩ ∧
      e.live.keys = [.empty, LabelSet.empty.insert "k" "v"] := by
  intro values
  have hnotLive : ∀ r i, (Accumulation.ofLastValues r).live.get? .empty = some i →
      (Accumulation.ofLastValues r).pool.references i = .retired := by
    intro r i hi
    obtain rfl : ⟨1⟩ = i := Option.some.inj hi
    rfl
  have hrace : ∀ r, ∃ b, Accumulation.oppose ⟨0⟩ values .empty ⟨3⟩
        (Accumulation.candidate (.ofLastValues r)).2 = (.ok (), b) ∧
      Race .lastValue .empty ⟨0⟩ ⟨3⟩ [1] [4, 2] r b ∧
      b.live = (Accumulation.ofLastValues r).live.insert .empty ⟨0⟩ := fun r =>
    have hadmits : Shape.lastValue.Admits [(4 : Int), 2] := nofun
    have hhas : (Accumulation.ofLastValues r).pool.Has ⟨0⟩ := Nat.zero_lt_succ 2
    Race.exists_of_oppose (a := .ofLastValues r) rfl hadmits hhas rfl
  constructor
  · obtain ⟨b, hothers, hb, hlive⟩ := hrace (.held 3)
    obtain ⟨e, he, hlost⟩ := (bind_race_conserves (hnotLive _) hothers hb).1 3 rfl
    have hempty : (e.pool.get ⟨3⟩).value? = Shape.lastValue.summary [] :=
      Pool.value?_of_cell hlost.candidate
    refine ⟨e, he, congrArg Cell.references hlost.rival, hlost.summary, hempty, ?_⟩
    rw [hlost.live, hlive]
    rfl
  · obtain ⟨b, hothers, hb, hlive⟩ := hrace .retired
    obtain ⟨e, he, hwon⟩ := (bind_race_conserves (hnotLive _) hothers hb).2 rfl
    refine ⟨e, he, congrArg Cell.references hwon.candidate, Pool.value?_of_cell hwon.candidate,
      Pool.value?_of_cell hwon.rival, hwon.placed, ?_⟩
    rw [hwon.keys, hlive]
    rfl

end Metering
