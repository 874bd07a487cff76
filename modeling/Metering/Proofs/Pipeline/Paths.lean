import Metering.Proofs.Pipeline.Twins

/-!
# Three ways to record

A measurement can be recorded by the instrument itself, on a handle that is bound for it, or as a
batch of its own.  A handle always says what the instrument says, and once it has accepted the
measurement nothing tells the two systems apart (`Orderly.paths_twins`).  A batch checks the labels
and the sign of the value beforehand, which not every instrument does.  Where that makes no
difference it says the same as well, and what it accepts it records as the instrument does.
-/

namespace Metering

open Fallible SystemM

variable {σ : Type}

/-- Records a measurement on a handle that is bound for it. -/
def SystemM.recordBound (r : Ref .instrument) (labels : LabelArgument) (v : Scalar) :
    SystemM σ Unit := do
  let q ← bindHandle r labels
  recordHandle q v

namespace Instrument

/-- What a synchronous instrument says of a measurement.  One that discards does not look at the
labels. -/
def reply (i : Instrument σ) (labels : LabelArgument) (v : Scalar) : Except Failure Unit :=
  match i.accumulator, LabelSet.create labels with
  | .discarding _, _ => i.verdict v
  | _, .error e => .error (.labels e)
  | _, .ok _ => i.verdict v

/-- A batch looks at something that the instrument does not look at: at labels that an instrument
discards, or at the sign of a value for a monotonic instrument, which has no monotonic sums or finds
the value too large before that. -/
def Disputes (i : Instrument σ) (labels : LabelArgument) (v : Scalar) : Prop :=
  ((∃ a, i.accumulator = .discarding a) ∧ ∃ e, LabelSet.create labels = .error e) ∨
    ((∃ l, LabelSet.create labels = .ok l) ∧ i.descriptor.kind.isMonotonic = true ∧
      (∃ n, i.descriptor.valueType.check v = .ok n ∧ n.isNegative = true) ∧
      (i.Overflows v ∨ i.shape ≠ .sum true))

variable {i : Instrument σ} {labels : LabelArgument}

theorem reply_of_ok {l : LabelSet} (hl : LabelSet.create labels = .ok l) (v : Scalar) :
    i.reply labels v = i.verdict v := by
  unfold reply
  rw [hl]
  cases i.accumulator <;> rfl

theorem reply_of_error {e : LabelError} (hl : LabelSet.create labels = .error e)
    (hi : ∀ a, i.accumulator ≠ .discarding a) (v : Scalar) :
    i.reply labels v = .error (.labels e) := by
  unfold reply
  rw [hl]
  cases hacc : i.accumulator with
  | discarding a => exact absurd hacc (hi a)
  | synchronous live => rfl
  | asynchronous => rfl

theorem reply_discarding {a : AggregatorId} (hi : i.accumulator = .discarding a)
    (labels : LabelArgument) (v : Scalar) : i.reply labels v = i.verdict v := by
  unfold reply
  rw [hi]

/-- **A value that a batch looks at**, under labels that are accepted: unless it is disputed, the
instrument says the same of it. -/
theorem batchVerdict_agrees {l : LabelSet} (hl : LabelSet.create labels = .ok l)
    (hsync : i.descriptor.kind.isSynchronous = true) {v : Scalar} (h : ¬ i.Disputes labels v)
    {e : Failure} (he : i.batchVerdict v = .error e) :
    ∃ e', i.verdict v = .error e' ∧ e'.category = e.category := by
  unfold batchVerdict at he
  rw [if_pos hsync] at he
  cases hn : i.descriptor.valueType.check v with
  | error x =>
    rw [hn] at he
    obtain rfl := Except.error.inj he
    exact ⟨_, verdict_of_error hn, rfl⟩
  | ok n =>
    rw [hn] at he
    dsimp only at he
    split at he
    · next hneg =>
      obtain ⟨hm, hneg⟩ := Bool.and_eq_true_iff.mp hneg
      obtain rfl := Except.error.inj he
      -- not disputed, so the instrument sums up, and the value is not too large
      have hagree : ¬ (i.Overflows v ∨ i.shape ≠ .sum true) := fun hd =>
        h (.inr ⟨⟨l, hl⟩, hm, ⟨n, hn, hneg⟩, hd⟩)
      rw [not_or, not_not] at hagree
      obtain ⟨m, hverdict⟩ := (verdict_of_ok hn).2 hagree.1
      rw [if_pos ⟨hagree.2, hneg⟩] at hverdict
      exact ⟨_, hverdict, rfl⟩
    · cases he

end Instrument

/-- No callback of a system ever does anything but observe. -/
def System.IsCalm (s : System σ) : Prop :=
  ∀ r i, s.instruments.get? r = some i → ∀ c ∈ i.callback, ∀ actions ∈ c.cycles, ∀ a ∈ actions,
    a.IsQuiet

theorem System.IsCalm.portrait {s : System σ} (h : s.IsCalm) (r : Ref .instrument) :
    ∀ P ∈ s.portrait? r, P.IsCalm := by
  intro P hP
  obtain ⟨i, hi, rfl⟩ := Option.map_eq_some_iff.mp hP
  exact fun _ => h r i hi

namespace Portrait

variable {P : Portrait σ} {labels : LabelArgument} {l? : Option LabelSet}

/-- An instrument that records binds its handles to label sets. -/
theorem eq_some_of_binding? (hb : P.binding? labels = some l?)
    {live : OrderedMap LabelSet AggregatorId}
    (hacc : P.instrument.accumulator = .synchronous live) :
    ∃ l, LabelSet.create labels = .ok l ∧ l? = some l := by
  unfold binding? at hb
  rw [hacc] at hb
  obtain ⟨l, hl, rfl⟩ := Option.map_eq_some_iff.mp hb
  cases hc : LabelSet.create labels with
  | ok l' =>
    rw [hc] at hl
    obtain rfl := Option.some.inj hl
    exact ⟨l', rfl, rfl⟩
  | error e =>
    rw [hc] at hl
    cases hl

/-- Recording with labels is recording under the label set of a handle that is bound to them. -/
theorem told_of_binding? (hb : P.binding? labels = some l?) (v : Scalar) :
    P.told labels v = P.noted (l?.getD LabelSet.empty) v := by
  by_cases hacc : ∃ live, P.instrument.accumulator = .synchronous live
  · obtain ⟨live, hacc⟩ := hacc
    obtain ⟨l, hl, rfl⟩ := eq_some_of_binding? hb hacc
    unfold told
    rw [hl]
    rfl
  · rw [not_exists] at hacc
    rw [told_eq_self hacc, noted, touched_eq_self hacc]

end Portrait

namespace Orderly

variable {s : System σ} {bound : List (Ref .handle × LabelSet)}
  {role : Ref .instrument → AggregatorId → Role} {r : Ref .instrument} {i : Instrument σ}
  {labels : LabelArgument} {v : Scalar}

/-- **The instrument itself.** -/
theorem record_reply (h : Orderly s bound role) (hi : s.instruments.get? r = some i)
    (hsync : i.descriptor.kind.isSynchronous = true) :
    (recordInstrument r v labels s).1 = i.reply labels v := by
  cases h.steady hi with
  | recording accumulator processor =>
    cases hl : LabelSet.create labels with
    | ok l =>
      obtain ⟨s', role', happly, -⟩ := h.record hi accumulator processor hl v
      rw [happly, Instrument.reply_of_ok hl]
    | error e =>
      rw [(h.mislabelled hi accumulator processor hl v).1, Instrument.reply_of_error hl]
      rw [accumulator]
      exact nofun
  | observing _ _ kind =>
    rw [hsync] at kind
    cases kind
  | discarding accumulator =>
    obtain ⟨s', happly, -⟩ := h.recordDiscarding hi accumulator labels v
    rw [happly, Instrument.reply_discarding accumulator]

/-- **A handle that is bound for a measurement.** -/
theorem through (h : Orderly s bound role) {P : Portrait σ} (hP : s.portrait? r = some P)
    {l? : Option LabelSet} (hb : P.binding? labels = some l?) (v : Scalar) :
    ∃ s' bound' role', recordBound r labels v s = (P.instrument.verdict v, s') ∧
      Orderly s' bound' role' ∧ (∀ q ≠ r, s'.portrait? q = s.portrait? q) ∧
      s'.outlook? r = some (P.told labels v).outlook ∧ s'.clocks = s.clocks ∧
      Aligned s.handles.next.past s.handles s'.handles bound bound' := by
  obtain ⟨s₁, bound₁, role₁, hbind, hacted, hr, hbound⟩ := h.bindAt r labels
  rw [hP, Option.bind_some, hb] at hbound
  obtain ⟨rfl, hresult, x, hhandles, rfl, ho⟩ := hbound
  have hx : s₁.handles.get? s.handles.next = some x := by
    rw [hhandles, Table.get?_add_next]
  obtain ⟨hnone, -⟩ | ⟨P', P₁, hP', hP₁, houtlook⟩ := System.portrait?_of_outlook? hr
  · rw [hP] at hnone
    cases hnone
  obtain rfl := Option.some.inj (hP.symm.trans hP')
  -- binding may have made a live aggregator, but nothing that is seen of the instrument changes
  have hinstrument := Portrait.instrument_of_outlook houtlook
  have hl : s₁.Labels ((l?.map (s.handles.next, ·)).toList ++ bound) s.handles.next x.instrument
      (l?.getD LabelSet.empty) := by
    intro Q hQ live hlive
    obtain rfl := Option.some.inj (hP₁.symm.trans hQ)
    rw [hinstrument] at hlive
    obtain ⟨l, -, rfl⟩ := Portrait.eq_some_of_binding? hb hlive
    exact List.mem_cons_self
  obtain ⟨s₂, role₂, hrecord, hacted', hhandles', hnoted, hverdict⟩ :=
    hacted.orderly.recordOnAt hx ho hl v
  refine ⟨s₂, _, role₂, ?_, hacted'.orderly, fun q hq => ?_, ?_,
    (hacted.changed.rest.trans hacted'.changed.rest).clocks, ?_⟩
  · have happly : bindHandle x.instrument labels s = (.ok s.handles.next, s₁) :=
      Prod.ext hresult hbind
    unfold recordBound
    rw [bind_apply, happly]
    refine Prod.ext ?_ hrecord
    rw [← hinstrument]
    exact hverdict P₁ hP₁
  · rw [hacted.orderly.portrait_of_ne hacted'.changed hq, h.portrait_of_ne hacted.changed hq]
  · unfold System.outlook?
    rw [hnoted, hP₁, Portrait.told_of_binding? hb]
    exact congrArg some ((Portrait.noted_respects _ v).outlook houtlook)
  · rw [hhandles', hhandles]
    exact .start h.handled x l?

/-- **A handle** says what the instrument itself says. -/
theorem bound_reply (h : Orderly s bound role) (hi : s.instruments.get? r = some i)
    (hsync : i.descriptor.kind.isSynchronous = true) :
    (recordBound r labels v s).1 = i.reply labels v := by
  have hportrait := System.portrait?_of_get? hi
  have hthrough : ∀ l?, (Portrait.mk i.bare (i.contents s.pool)).binding? labels = some l? →
      (recordBound r labels v s).1 = i.verdict v := by
    intro l? hb
    obtain ⟨s', bound', role', happly, -⟩ := h.through hportrait hb v
    rw [happly]
    exact i.verdict_bare v
  cases h.steady hi with
  | recording accumulator processor =>
    cases hl : LabelSet.create labels with
    | ok l =>
      rw [Instrument.reply_of_ok hl]
      refine hthrough (some l) ?_
      unfold Portrait.binding?
      dsimp only
      rw [Instrument.bare_accumulator accumulator, hl]
      rfl
    | error e =>
      rw [Instrument.reply_of_error hl]
      · unfold recordBound
        rw [bind_apply, (h.mislabelled hi accumulator processor hl v).2]
      · simp [accumulator]
  | observing _ _ kind =>
    rw [hsync] at kind
    cases kind
  | discarding accumulator =>
    rw [Instrument.reply_discarding accumulator]
    refine hthrough none ?_
    unfold Portrait.binding?
    dsimp only
    rw [Instrument.bare_accumulator accumulator]
    rfl

/-- A measurement that is accepted could be recorded on a handle. -/
theorem exists_binding? (h : Orderly s bound role) (hi : s.instruments.get? r = some i)
    (hsync : i.descriptor.kind.isSynchronous = true) (hok : i.reply labels v = .ok ()) :
    ∃ l?, (Portrait.mk i.bare (i.contents s.pool)).binding? labels = some l? := by
  unfold Portrait.binding?
  dsimp only
  cases h.steady hi with
  | recording accumulator =>
    rw [Instrument.bare_accumulator accumulator]
    cases hl : LabelSet.create labels with
    | ok l => exact ⟨some l, rfl⟩
    | error e =>
      rw [Instrument.reply_of_error hl (by simp [accumulator])] at hok
      cases hok
  | observing _ _ kind =>
    rw [hsync] at kind
    cases kind
  | discarding accumulator =>
    rw [Instrument.bare_accumulator accumulator]
    exact ⟨none, rfl⟩

/-- **After a measurement that was accepted**, nothing tells whether it was recorded by the
instrument itself or on a handle. -/
theorem paths_twins (h : Orderly s bound role) (hi : s.instruments.get? r = some i)
    (hsync : i.descriptor.kind.isSynchronous = true) (hcalm : s.IsCalm)
    (hok : (recordInstrument r v labels s).1 = .ok ()) :
    Twins s.handles.next.past (fun _ => True) (recordInstrument r v labels s).2
      (recordBound r labels v s).2 := by
  have hportrait := System.portrait?_of_get? hi
  obtain ⟨l?, hb⟩ := h.exists_binding? hi hsync ((h.record_reply hi hsync).symm.trans hok)
  obtain ⟨s₁, role₁, hrecord, hacted, hhandles, hr⟩ := h.recordAt r labels v
  obtain ⟨s₁', bound', role', hbound, horderly', hothers, hr', hclocks, haligned⟩ :=
    h.through hportrait hb v
  rw [hrecord, hbound]
  -- only the outlook of the instrument itself has changed, and in the same way
  refine .of hacted.orderly horderly' (fun q => ?_) (fun q _ => ?_)
    (hclocks.trans hacted.changed.rest.clocks.symm) (by rw [hhandles]; exact haligned)
  · by_cases hq : q = r
    · rw [hq, hr']
      unfold System.outlook?
      rw [hr, hportrait]
      rfl
    · unfold System.outlook?
      rw [hothers q hq, h.portrait_of_ne hacted.changed hq]
  · by_cases hq : q = r
    · rw [hq, hr, hportrait]
      intro P hP
      obtain rfl := Option.some.inj hP
      exact (Portrait.told_respects labels v).calm (hcalm.portrait r _ hportrait)
    · rw [h.portrait_of_ne hacted.changed hq]
      exact hcalm.portrait q

end Orderly

/-- How the three ways of recording a measurement compare. -/
structure RecordingPaths (s : System σ) (r : Ref .instrument) (i : Instrument σ)
    (labels : LabelArgument) (v : Scalar) : Prop where
  /-- A handle says what the instrument itself says. -/
  handle : (recordBound r labels v s).1 = (recordInstrument r v labels s).1
  /-- Unless the measurement is disputed, so does a batch, up to the category of a failure. -/
  agree : ¬ i.Disputes labels v →
    (recordBatch labels [(.instrument r, v)] s).1.mapError Failure.category
      = (recordInstrument r v labels s).1.mapError Failure.category
  /-- A batch refuses negative values for a monotonic instrument.  The instrument finds some of them
  too large, and refuses the others if it sums up; else it records them. -/
  sign : ∀ l n, LabelSet.create labels = .ok l → i.descriptor.kind.isMonotonic = true →
    i.descriptor.valueType.check v = .ok n → n.isNegative = true →
    recordBatch labels [(.instrument r, v)] s
        = (.error (.batch (.negative i.descriptor.name n)), s) ∧
      (i.Overflows v → (recordInstrument r v labels s).1 = .error (.record .tooLarge)) ∧
      (¬ i.Overflows v → ∃ m, (recordInstrument r v labels s).1 =
        if i.shape = .sum true then .error (.record (.negative m)) else .ok ())
  /-- A batch refuses labels that an instrument discards without a look. -/
  discards : ∀ a e, i.accumulator = .discarding a → LabelSet.create labels = .error e →
    recordBatch labels [(.instrument r, v)] s = (.error (.labels e), s) ∧
      (recordInstrument r v labels s).1 = i.verdict v
  /-- What a batch accepts, it records as the instrument does. -/
  accepted : (recordBatch labels [(.instrument r, v)] s).1 = .ok () →
    recordBatch labels [(.instrument r, v)] s = recordInstrument r v labels s
  /-- What the instrument accepts leads to the same points on a handle, in every collection after
  any further uses; the handle may be released at any time. -/
  later : (recordInstrument r v labels s).1 = .ok () → s.IsCalm →
    ∀ (perform : σ → SystemM σ Unit) (us us' : List InstrumentUse),
      InstrumentUse.Follows s.handles.next us us' →
      ∀ (q : Ref .instrument) (time : Int),
        SamePoints
          (collectInstrument perform q (some time)
            (us.foldl (System.use perform) (recordInstrument r v labels s).2)).1
          (collectInstrument perform q (some time)
            (us'.foldl (System.use perform) (recordBound r labels v s).2)).1

/-- **The three ways of recording** a measurement with a synchronous instrument of a system in
order. -/
theorem InOrder.recordingPaths {since s : System σ}
    (h : InOrder since s) {r : Ref .instrument} {i : Instrument σ}
    (hi : s.instruments.get? r = some i) (hsync : i.descriptor.kind.isSynchronous = true)
    (labels : LabelArgument) (v : Scalar) : RecordingPaths s r i labels v := by
  obtain ⟨bound, role, horderly⟩ := h.orderly
  have hdirect : (SystemM.recordInstrument r v labels s).1 = i.reply labels v :=
    horderly.record_reply hi hsync
  have hbatch := SystemM.recordBatch_single hi labels v
  constructor
  case handle => rw [hdirect, horderly.bound_reply hi hsync]
  case agree =>
    intro hagree
    rw [hbatch]
    cases hl : LabelSet.create labels with
    | error e =>
      have hlooks : ∀ a, i.accumulator ≠ .discarding a := fun a ha =>
        hagree (.inl ⟨⟨a, ha⟩, e, hl⟩)
      rw [hdirect, Instrument.reply_of_error hl hlooks]
    | ok l =>
      dsimp only
      cases hv : i.batchVerdict v with
      | ok _ => rfl
      | error e =>
        -- the two checks differ, but fall into the same category where they should agree
        obtain ⟨e', hverdict, hcategory⟩ :=
          Instrument.batchVerdict_agrees hl hsync hagree hv
        rw [hdirect, Instrument.reply_of_ok hl, hverdict]
        exact congrArg Except.error hcategory.symm
  case sign =>
    intro l n hl hm hn hneg
    obtain ⟨hlarge, hfits⟩ := Instrument.verdict_of_ok hn
    rw [hbatch, hdirect, hl, Instrument.reply_of_ok hl]
    refine ⟨?_, hlarge, fun ho => ?_⟩
    · unfold Instrument.batchVerdict
      rw [if_pos hsync, hn]
      dsimp only
      rw [hm, hneg]
      rfl
    · obtain ⟨m, hverdict⟩ := hfits ho
      simp only [hneg, and_true] at hverdict
      exact ⟨m, hverdict⟩
  case discards =>
    intro a e ha hl
    rw [hbatch, hdirect, hl, Instrument.reply_discarding ha]
    exact ⟨rfl, rfl⟩
  case accepted =>
    intro hok
    rw [hbatch] at hok ⊢
    cases hl : LabelSet.create labels with
    | error e =>
      rw [hl] at hok
      cases hok
    | ok l =>
      rw [hl] at hok
      dsimp only at hok ⊢
      cases hv : i.batchVerdict v with
      | ok _ => rfl
      | error e =>
        rw [hv] at hok
        cases hok
  case later =>
    intro hok hcalm perform us us' hfollows q time
    exact ((horderly.paths_twins hi hsync hcalm hok).run perform hfollows).samePoints trivial time
      perform

end Metering
