import Metering.Proofs.Pipeline.Making
import Metering.Proofs.Pipeline.Paths

/-!
# Transcripts

The transcript of some calls has each of them with what became of it.  A measurement that is refused
may leave an aggregator behind that nothing was recorded into, but what the instrument holds stays
what it was (`Orderly.outlook_noted_of_error`), so nothing tells the system from one in which the
measurement was not even tried (`Twins.refused`).  Without the refused measurements the other calls
of a transcript have the same replies (`Twins.transcripts`).
-/

namespace Metering

open Fallible SystemM

variable {σ : Type}

/-! ### What instruments answer -/

/-- What an instrument holds has no say in its reply. -/
theorem Instrument.reply_bare (i : Instrument σ) (labels : LabelArgument) (v : Scalar) :
    i.bare.reply labels v = i.reply labels v := by
  unfold reply
  rw [i.verdict_bare, bare_accumulator rfl]
  cases i.accumulator <;> cases LabelSet.create labels <;> rfl

namespace Portrait

/-- What an instrument answers to a measurement. -/
def answer (labels : LabelArgument) (v : Scalar) (P : Portrait σ) : Except Failure Unit :=
  match P.instrument.accumulator with
  | .asynchronous => .error (.unusable P.instrument.descriptor.name)
  | _ => P.instrument.reply labels v

/-- What an instrument answers if it is asked for a handle and that one is next. -/
def handed (labels : LabelArgument) (next : Ref .handle) (P : Portrait σ) :
    Except Failure (Ref .handle) :=
  match P.instrument.accumulator with
  | .synchronous _ => ((LabelSet.create labels).mapError Failure.labels).map fun _ => next
  | .asynchronous => .error (.unusable P.instrument.descriptor.name)
  | .discarding _ => .ok next

end Portrait

/-! ### Measurements that are refused -/

theorem Aggregator.noted_of_error {a : Aggregator} {v : Scalar} {e : RecordError}
    (h : a.record v = .error e) : a.noted v = a := by
  unfold noted
  rw [h]

/-- **A refused measurement** leaves what the label sets hold as it was. -/
theorem Rests.holding_of_refused {role : AggregatorId → Role} {a : Accumulation}
    (h : Rests role a) {v : Scalar} {e : RecordError} (hv : a.stream.refusal? v = some e)
    (l : LabelSet) :
    a.stream.holding (a.stream.touch l (Cell.recorded v) a.contents)
      = a.stream.holding a.contents := by
  -- whether a value is refused depends on the stream alone, not on what an aggregator holds
  have hrefuses : ∀ {b : Aggregator}, a.stream.Makes b → b.noted v = b := by
    intro b hb
    have hrecord := hb.record_eq v
    rw [hv] at hrecord
    exact Aggregator.noted_of_error hrecord
  -- what the label set holds is the stream's, also if it is a new aggregator
  have hpending : a.stream.Makes (a.stream.holding a.contents l).pending := by
    show a.stream.Makes (((a.live.map a.pool.cell).get? l).getD a.stream.freshCell).aggregator
    rw [OrderedMap.get?_map]
    cases hl : a.live.get? l with
    | none => exact a.stream.makes_fresh
    | some i => exact h.makes (live_plays (h.live_iff.mp hl))
  rw [Stream.holding_touch (Cell.aggregator_recorded · v), hrefuses hpending]
  exact Function.update_eq_self l (a.stream.holding a.contents)

namespace Orderly

variable {s : System σ} {bound : List (Ref .handle × LabelSet)}
  {role : Ref .instrument → AggregatorId → Role} {r : Ref .instrument} {P : Portrait σ}

/-- **A measurement that an instrument refuses** leaves its outlook as it was. -/
theorem outlook_noted_of_error (h : Orderly s bound role) (hP : s.portrait? r = some P) {v : Scalar}
    {e : Failure} (hv : P.instrument.verdict v = .error e) (l : LabelSet) :
    (P.noted l v).outlook = P.outlook := by
  obtain ⟨i, hi, rfl⟩ := Option.map_eq_some_iff.mp hP
  change i.bare.verdict v = _ at hv
  rw [i.verdict_bare] at hv
  cases h.steady hi with
  | recording accumulator processor =>
    obtain ⟨a, ha, records, hstream, hsame, descriptor, -⟩ :=
      h.recording hi accumulator processor
    rw [← Instrument.verdict_stream processor descriptor, ← hstream] at hv
    unfold Stream.verdict at hv
    cases hrefusal : a.stream.refusal? v with
    | none =>
      rw [hrefusal] at hv
      cases hv
    | some x =>
      have hholding := (records.rests ha).holding_of_refused hrefusal l
      rw [hstream, hsame] at hholding
      rw [Portrait.noted, Instrument.touched_recording accumulator processor]
      exact Portrait.outlook_eq_iff.mpr (.inr ⟨_, _, Instrument.bare_accumulator accumulator,
        Instrument.bare_processor processor, rfl, hholding⟩)
  | observing accumulator =>
    rw [Portrait.noted,
      Portrait.touched_eq_self (Instrument.bare_ne_synchronous accumulator (by simp))]
  | discarding accumulator =>
    rw [Portrait.noted,
      Portrait.touched_eq_self (Instrument.bare_ne_synchronous accumulator (by simp))]

/-- **A measurement that is refused**, for its value or for its labels. -/
theorem outlook_told_of_error (h : Orderly s bound role) (hP : s.portrait? r = some P)
    {labels : LabelArgument} {v : Scalar} {e : Failure} (hv : P.answer labels v = .error e) :
    (P.told labels v).outlook = P.outlook := by
  unfold Portrait.answer at hv
  cases hacc : P.instrument.accumulator with
  | synchronous live =>
    unfold Portrait.told
    cases hl : LabelSet.create labels with
    | error _ => rfl
    | ok l =>
      rw [hacc] at hv
      exact h.outlook_noted_of_error hP ((Instrument.reply_of_ok hl v).symm.trans hv) l
  | asynchronous => rw [Portrait.told_eq_self (by simp [hacc])]
  | discarding a => rw [Portrait.told_eq_self (by simp [hacc])]

end Orderly

namespace System

/-- What an instrument answers, or why it does not. -/
def asked {α : Type} (s : System σ) (r : Ref .instrument) (f : Portrait σ → Except Failure α) :
    Except Failure α :=
  match s.portrait? r with
  | some P => f P
  | none => .error (.unusable "instrument")

/-- The time that is shown by the clock of an instrument. -/
def timeAt (s : System σ) (r : Ref .instrument) : Int :=
  match (s.portrait? r).bind (·.instrument.processor) |>.bind (s.clocks.get? ·.clock) with
  | some c => c.now
  | none => 0

end System

namespace Orderly

variable {s : System σ} {bound : List (Ref .handle × LabelSet)}
  {role : Ref .instrument → AggregatorId → Role}

/-- **The answer to a measurement.** -/
theorem record_answer (h : Orderly s bound role) (r : Ref .instrument) (labels : LabelArgument)
    (v : Scalar) :
    (recordInstrument r v labels s).1 = s.asked r (Portrait.answer labels v) := by
  unfold System.asked
  cases hi : s.instruments.get? r with
  | none =>
    rw [System.portrait?_of_none hi]
    unfold recordInstrument instrument
    simp only [bind_apply, get_apply, demand_apply, hi]
  | some i =>
    rw [System.portrait?_of_get? hi]
    show _ = Portrait.answer _ _ _
    unfold Portrait.answer
    cases h.steady hi with
    | recording accumulator _ kind =>
      dsimp only
      rw [h.record_reply hi kind, ← i.reply_bare, Instrument.bare_accumulator accumulator]
      rfl
    | observing accumulator =>
      dsimp only
      rw [Instrument.bare_accumulator accumulator]
      unfold recordInstrument onAccumulation
      simp only [bind_apply, instrument_apply hi, accumulator, throw_apply]
      rfl
    | discarding accumulator =>
      obtain ⟨s', happly, -⟩ := h.recordDiscarding hi accumulator labels v
      dsimp only
      rw [happly, Instrument.bare_accumulator accumulator, i.reply_bare,
        Instrument.reply_discarding accumulator]
      rfl

/-- **The answer to a request for a handle.** -/
theorem bind_answer (h : Orderly s bound role) (r : Ref .instrument) (labels : LabelArgument) :
    (bindHandle r labels s).1 = s.asked r (Portrait.handed labels s.handles.next) := by
  unfold System.asked
  cases hi : s.instruments.get? r with
  | none =>
    rw [System.portrait?_of_none hi]
    unfold bindHandle instrument
    simp only [bind_apply, get_apply, demand_apply, hi]
  | some i =>
    rw [System.portrait?_of_get? hi]
    show _ = Portrait.handed _ _ _
    unfold Portrait.handed
    dsimp only
    cases h.steady hi with
    | recording accumulator processor =>
      rw [Instrument.bare_accumulator accumulator]
      cases hl : LabelSet.create labels with
      | ok l =>
        obtain ⟨x, s', role', happly, -⟩ := h.bind hi accumulator processor hl
        rw [happly]
        rfl
      | error e =>
        rw [(h.mislabelled hi accumulator processor hl .absent).2]
        rfl
    | observing accumulator =>
      rw [Instrument.bare_accumulator accumulator]
      unfold bindHandle bindInstrument onAccumulation
      simp only [bind_apply, instrument_apply hi, accumulator, throw_apply]
      rfl
    | discarding accumulator =>
      obtain ⟨x, s', happly, -⟩ := h.bindDiscarding hi accumulator labels
      rw [happly, Instrument.bare_accumulator accumulator]
      rfl

/-- **A collection without a time** is one at the time that the clock shows. -/
theorem collect_now (h : Orderly s bound role) {r : Ref .instrument}
    (hcalm : ∀ P ∈ s.portrait? r, P.IsCalm) (perform : σ → SystemM σ Unit) :
    collectInstrument perform r none s = collectInstrument perform r (some (s.timeAt r)) s := by
  cases hi : s.instruments.get? r with
  | none =>
    unfold collectInstrument instrument
    simp only [bind_apply, get_apply, demand_apply, hi]
  | some i =>
    have hportrait := System.portrait?_of_get? hi
    -- the clock may be read late, so the statement is about every system with the same clocks
    have htime : ∀ {p : Processor} {c : Clock}, i.processor = some p →
        s.clocks.get? p.clock = some c → ∀ s' : System σ, s'.clocks = s.clocks →
          timeOr p.clock none s' = (.ok (s.timeAt r), s') := by
      intro p c hp hc s' hs'
      have hshown : s.timeAt r = c.now := by
        unfold System.timeAt
        rw [hportrait, Option.bind_some, Instrument.bare_processor hp, Option.bind_some]
        show (match s.clocks.get? p.clock with | some c => c.now | none => 0) = _
        rw [hc]
      unfold timeOr now clock
      simp only [bind_apply, get_apply, demand_apply, hs', hc, pure_apply, hshown]
    cases h.steady hi with
    | recording accumulator processor _ _ clock =>
      unfold collectInstrument
      simp only [bind_apply, instrument_apply hi, accumulator, processor,
        htime processor clock s rfl]
      rfl
    | discarding accumulator =>
      unfold collectInstrument
      simp only [bind_apply, instrument_apply hi, accumulator]
    | @observing p c accumulator processor _ _ clock =>
      have hacc := Instrument.bare_accumulator accumulator
      -- the clock is read after the callback, which does not move it
      have hquiet : ∀ c ∈ i.callback, c.IsQuiet := fun c hc =>
        Callback.isQuiet_of_cycles (hcalm _ hportrait hacc c hc)
      have hnow := htime processor clock
      obtain ⟨d, accumulator', processor', callback⟩ := i
      obtain rfl : accumulator' = .asynchronous := accumulator
      obtain rfl : processor' = some p := processor
      rw [collectInstrument_of_observer hi hquiet hnow perform,
        collectInstrument_of_observer hi hquiet (fun _ _ => rfl) perform]

end Orderly

/-! ### Twins -/

/-- A handle that is missing cannot be used; one that is released drops what is recorded on it. -/
theorem SystemM.recordHandle_result_of_closed {s : System σ} {q : Ref .handle}
    (hclosed : ∀ x ∈ s.handles.get? q, x.released = true) (v : Scalar) :
    (recordHandle q v s).1
      = if (s.handles.get? q).isSome then .ok () else .error (.unusable "handle") := by
  cases hx : s.handles.get? q with
  | none => rw [recordHandle_of_none hx]; rfl
  | some x =>
    obtain ⟨entries, happly⟩ := recordHandle_of_released hx (hclosed x hx) v
    rw [happly]
    rfl

theorem SystemM.releaseHandle_result {s : System σ} (q : Ref .handle) :
    (releaseHandle q s).1
      = if (s.handles.get? q).isSome then .ok () else .error (.unusable "handle") := by
  cases hx : s.handles.get? q with
  | none => rw [releaseHandle_of_none hx]; rfl
  | some x =>
    cases ho : x.released with
    | true =>
      obtain ⟨entries, happly⟩ := releaseHandle_of_released hx ho
      rw [happly]
      rfl
    | false =>
      rw [releaseHandle_of_open hx ho]
      rfl

theorem SystemM.moveClock_apply (c : Ref .clock) (move : Clock → Clock) (s : System σ) :
    SystemM.moveClock c move s = match s.clocks.get? c with
      | some x => (.ok (), { s with clocks := s.clocks.set c (move x) })
      | none => (.error (.unusable "clock"), s) := by
  unfold SystemM.moveClock clock
  simp only [bind_apply, get_apply, demand_apply, modify_apply]
  cases s.clocks.get? c <;> rfl

/-- A handle is in both tables or in none. -/
theorem Aligned.isSome {f : Ref .handle → Ref .handle} {t t' : Table .handle Handle}
    {bound bound' : List (Ref .handle × LabelSet)} (h : Aligned f t t' bound bound')
    (q : Ref .handle) : (t'.get? (f q)).isSome = (t.get? q).isSome := by
  rw [← Option.isSome_map (f := Handle.grip), h.handles, Option.isSome_map]

namespace Twins

variable {f : Ref .handle → Ref .handle} {collected : Ref .instrument → Prop} {s s' : System σ}

/-- Twins answer alike what depends on the instrument alone. -/
theorem asked {α : Type} (h : Twins f collected s s') (r : Ref .instrument)
    {g : Portrait σ → Except Failure α} (hg : ∀ {P P'}, P.instrument = P'.instrument → g P = g P') :
    s'.asked r g = s.asked r g := by
  obtain ⟨-, -, houtlook, -, -, -⟩ := h
  unfold System.asked
  obtain ⟨hP, hP'⟩ | ⟨P, P', hP, hP', hsame⟩ := System.portrait?_of_outlook? (houtlook r)
  · rw [hP, hP']
  · rw [hP, hP']
    exact hg (Portrait.instrument_of_outlook hsame)

theorem record_same (h : Twins f collected s s') (r : Ref .instrument) (labels : LabelArgument)
    (v : Scalar) : (recordInstrument r v labels s').1 = (recordInstrument r v labels s).1 := by
  have hasked := h.asked r (g := Portrait.answer labels v) fun hi => by
    unfold Portrait.answer
    rw [hi]
  obtain ⟨orderly, orderly', -, -, -, -⟩ := h
  rw [orderly.record_answer, orderly'.record_answer, hasked]

theorem bind_same (h : Twins id collected s s') (r : Ref .instrument) (labels : LabelArgument) :
    (bindHandle r labels s').1 = (bindHandle r labels s).1 := by
  have hasked := h.asked r (g := Portrait.handed labels s.handles.next) fun hi => by
    unfold Portrait.handed
    rw [hi]
  obtain ⟨orderly, orderly', -, -, -, haligned⟩ := h
  rw [orderly.bind_answer, orderly'.bind_answer, ← haligned.next, id_eq, hasked]

theorem recordOn_same (h : Twins f collected s s') (q : Ref .handle) (v : Scalar) :
    (recordHandle (f q) v s').1 = (recordHandle q v s).1 := by
  obtain ⟨orderly, orderly', houtlook, -, -, haligned⟩ := h
  -- a handle is open in both systems or in none
  obtain ⟨x, hx, ho⟩ | hclosed := open_or_closed s q
  · obtain ⟨x', hx', hinstrument, ho'⟩ := haligned.get? hx
    obtain ⟨l, hl⟩ := orderly.exists_labels hx
    have hl' := hl.of_outlook? (houtlook _) haligned.labels
    rw [← hinstrument] at hl'
    obtain ⟨-, -, -, -, -, -, hresult⟩ := orderly.recordOnAt hx ho hl v
    obtain ⟨-, -, -, -, -, -, hresult'⟩ := orderly'.recordOnAt hx' (ho'.trans ho) hl' v
    obtain ⟨i, hi, -⟩ := orderly.owned hx
    obtain ⟨hP, -⟩ | ⟨P, P', hP, hP', hsame⟩ := System.portrait?_of_outlook? (houtlook x.instrument)
    · rw [System.portrait?_of_get? hi] at hP
      cases hP
    · rw [hinstrument] at hresult'
      rw [hresult P hP, hresult' P' hP', Portrait.instrument_of_outlook hsame]
  · rw [recordHandle_result_of_closed hclosed,
      recordHandle_result_of_closed (haligned.closed hclosed), haligned.isSome]

theorem release_same (h : Twins f collected s s') (q : Ref .handle) :
    (releaseHandle (f q) s').1 = (releaseHandle q s).1 := by
  obtain ⟨-, -, -, -, -, haligned⟩ := h
  rw [releaseHandle_result, releaseHandle_result, haligned.isSome]

/-- The clocks of twins show the same times. -/
theorem timeAt (h : Twins f collected s s') (r : Ref .instrument) : s'.timeAt r = s.timeAt r := by
  obtain ⟨-, -, houtlook, -, hclocks, -⟩ := h
  unfold System.timeAt
  obtain ⟨hP, hP'⟩ | ⟨P, P', hP, hP', hsame⟩ := System.portrait?_of_outlook? (houtlook r)
  · rw [hP, hP']
    rfl
  · rw [hP, hP', Option.bind_some, Option.bind_some, Portrait.instrument_of_outlook hsame, hclocks]

/-- A collection without a time is one at a time, which is the same for both. -/
theorem collect_now (h : Twins f collected s s') {r : Ref .instrument} (hr : collected r)
    (perform : σ → SystemM σ Unit) :
    collectInstrument perform r none s = collectInstrument perform r (some (s.timeAt r)) s ∧
      collectInstrument perform r none s'
        = collectInstrument perform r (some (s.timeAt r)) s' := by
  have htime := h.timeAt r
  obtain ⟨orderly, orderly', houtlook, hcalm, -, -⟩ := h
  refine ⟨orderly.collect_now (hcalm r hr) perform, ?_⟩
  rw [← htime]
  exact orderly'.collect_now (System.calm_of_outlook? (houtlook r) (hcalm r hr)) perform

/-- **Moving a clock** of both. -/
theorem moveClock (h : Twins f collected s s') (c : Ref .clock) (move : Clock → Clock) :
    Twins f collected (SystemM.moveClock c move s).2 (SystemM.moveClock c move s').2 ∧
      (SystemM.moveClock c move s').1 = (SystemM.moveClock c move s).1 := by
  obtain ⟨orderly, orderly', houtlook, hcalm, hclocks, haligned⟩ := h
  have hset : ∀ {s : System σ} {bound role x}, Orderly s bound role → s.clocks.get? c = some x →
      Orderly { s with clocks := s.clocks.set c (move x) } bound role := fun h hx =>
    h.beside rfl rfl (System.keepsClocks_set hx _) (.refl _) fun he =>
      h.outside (he.congr rfl rfl rfl)
  rw [SystemM.moveClock_apply, SystemM.moveClock_apply]
  cases hx : s.clocks.get? c with
  | none =>
    rw [hclocks, hx]
    exact ⟨.of orderly orderly' houtlook hcalm hclocks haligned, rfl⟩
  | some x =>
    have hx' : s'.clocks.get? c = some x := by rw [hclocks, hx]
    rw [hx']
    exact ⟨.of (hset orderly hx) (hset orderly' hx') houtlook hcalm
      (congrArg (Table.set · c (move x)) hclocks) haligned, rfl⟩

/-- **A refused measurement** need not be tried in both. -/
theorem record_refused (h : Twins f collected s s') {r : Ref .instrument} {labels : LabelArgument}
    {v : Scalar} {e : Failure} (he : (recordInstrument r v labels s).1 = .error e) :
    Twins f collected (recordInstrument r v labels s).2 s' := by
  obtain ⟨orderly, orderly', houtlook, hcalm, hclocks, haligned⟩ := h
  rw [orderly.record_answer] at he
  obtain ⟨s₁, role₁, rfl, hacted, hhandles, hr⟩ := orderly.recordAt r labels v
  -- an action in one system, against none in the other
  refine acted orderly orderly' houtlook hcalm hclocks hacted (orderly'.unchanged r) ?_
    (fun hcollected P hP => ?_) (by rw [hhandles]; exact haligned)
  · rw [houtlook]
    unfold System.outlook? System.asked at *
    rw [hr]
    cases hP : s.portrait? r with
    | none => rfl
    | some P =>
      rw [hP] at he
      exact congrArg some (orderly.outlook_told_of_error hP he).symm
  · rw [hr] at hP
    obtain ⟨P₀, hP₀, rfl⟩ := Option.map_eq_some_iff.mp hP
    exact (Portrait.told_respects labels v).calm (hcalm r hcollected P₀ hP₀)

theorem recordOn_refused (h : Twins f collected s s') {q : Ref .handle} {v : Scalar} {e : Failure}
    (he : (recordHandle q v s).1 = .error e) : Twins f collected (recordHandle q v s).2 s' := by
  obtain ⟨orderly, orderly', houtlook, hcalm, hclocks, haligned⟩ := h
  obtain ⟨x, hx, ho⟩ | hclosed := open_or_closed s q
  · obtain ⟨l, hl⟩ := orderly.exists_labels hx
    obtain ⟨s₁, role₁, rfl, hacted, hhandles, hr, hresult⟩ := orderly.recordOnAt hx ho hl v
    refine acted orderly orderly' houtlook hcalm hclocks hacted (orderly'.unchanged _) ?_
      (fun hcollected P hP => ?_) (by rw [hhandles]; exact haligned)
    · rw [houtlook]
      unfold System.outlook?
      rw [hr]
      cases hP : s.portrait? x.instrument with
      | none => rfl
      | some P =>
        exact congrArg some
          (orderly.outlook_noted_of_error hP ((hresult P hP).symm.trans he) l).symm
    · rw [hr] at hP
      obtain ⟨P₀, hP₀, rfl⟩ := Option.map_eq_some_iff.mp hP
      exact (Portrait.noted_respects l v).calm (hcalm _ hcollected P₀ hP₀)
  · obtain ⟨log, happly⟩ := recordHandle_of_closed hclosed v
    rw [happly]
    exact .of (orderly.logged log) orderly' houtlook hcalm hclocks haligned

end Twins

/-! ### Transcripts -/

/-- Something that a program does with the instruments of a system, or with a clock. -/
inductive InstrumentCall where
  | use (u : InstrumentUse)
  /-- Collects an instrument at the time that its clock shows. -/
  | collectNow (r : Ref .instrument)
  | moveClock (c : Ref .clock) (move : Clock → Clock)

/-- What becomes of a call. -/
inductive Reply where
  | done (result : Except Failure Unit)
  | handed (result : Except Failure (Ref .handle))
  | collected (result : Except Failure (List Metric))

/-- The replies are the same, but for the order of points within a metric. -/
def Reply.Agrees : Reply → Reply → Prop
  | .collected x, .collected y => SamePoints x y
  | x, y => x = y

/-- The instrument that is collected, if one is. -/
def InstrumentCall.collects : InstrumentCall → Option (Ref .instrument)
  | .use (.collect r _) => some r
  | .collectNow r => some r
  | _ => none

/-- The call is a measurement that was refused. -/
def isRefusal : InstrumentCall × Reply → Bool
  | (.use (.record ..), .done (.error _)) => true
  | (.use (.recordOn ..), .done (.error _)) => true
  | _ => false

/-- The calls of a transcript that are no refused measurements, with what became of them. -/
def withoutRefusals (t : List (InstrumentCall × Reply)) : List (InstrumentCall × Reply) :=
  t.filter (!isRefusal ·)

namespace System

variable (perform : σ → SystemM σ Unit)

/-- What becomes of a call. -/
def reply (s : System σ) : InstrumentCall → Reply
  | .use (.record r labels v) => .done (recordInstrument r v labels s).1
  | .use (.bind r labels) => .handed (bindHandle r labels s).1
  | .use (.recordOn q v) => .done (recordHandle q v s).1
  | .use (.release q) => .done (releaseHandle q s).1
  | .use (.collect r time) => .collected (collectInstrument perform r (some time) s).1
  | .collectNow r => .collected (collectInstrument perform r none s).1
  | .moveClock c move => .done (SystemM.moveClock c move s).1

/-- The system after a call, whatever becomes of it. -/
def call (s : System σ) : InstrumentCall → System σ
  | .use u => s.use perform u
  | .collectNow r => (collectInstrument perform r none s).2
  | .moveClock c move => (SystemM.moveClock c move s).2

/-- What becomes of some calls, one after the other. -/
def transcript (s : System σ) : List InstrumentCall → List (InstrumentCall × Reply)
  | [] => []
  | c :: cs => (c, s.reply perform c) :: (s.call perform c).transcript cs

/-- An instrument is no observer, or its callback, if it has one, only ever observes. -/
def IsCalmAt (s : System σ) (r : Ref .instrument) : Prop :=
  ∀ i, s.instruments.get? r = some i → i.accumulator = .asynchronous →
    ∀ c ∈ i.callback, ∀ actions ∈ c.cycles, ∀ a ∈ actions, a.IsQuiet

theorem IsCalmAt.portrait {s : System σ} {r : Ref .instrument} (h : s.IsCalmAt r) :
    ∀ P ∈ s.portrait? r, P.IsCalm := by
  intro P hP
  obtain ⟨i, hi, rfl⟩ := Option.map_eq_some_iff.mp hP
  intro hacc
  refine h i hi ?_
  cases hacc' : i.accumulator with
  | asynchronous => rfl
  | synchronous live =>
    rw [Instrument.bare_accumulator hacc'] at hacc
    cases hacc
  | discarding a =>
    rw [Instrument.bare_accumulator hacc'] at hacc
    cases hacc

end System

namespace Twins

variable {collected : Ref .instrument → Prop} {s s' : System σ} {perform : σ → SystemM σ Unit}

/-- **The same call** of both. -/
theorem call (h : Twins id collected s s') {c : InstrumentCall}
    (hc : ∀ r ∈ c.collects, collected r) :
    Twins id collected (s.call perform c) (s'.call perform c) ∧
      (s.reply perform c).Agrees (s'.reply perform c) := by
  cases c with
  | use u =>
    cases u with
    | record r labels v =>
      exact ⟨h.record r labels v, congrArg Reply.done (h.record_same r labels v).symm⟩
    | bind r labels => exact ⟨h.bind r labels, congrArg Reply.handed (h.bind_same r labels).symm⟩
    | recordOn q v => exact ⟨h.recordOn q v, congrArg Reply.done (h.recordOn_same q v).symm⟩
    | release q => exact ⟨h.releaseSame q, congrArg Reply.done (h.release_same q).symm⟩
    | collect r time =>
      have hr := hc r rfl
      exact ⟨h.collect hr time perform, h.samePoints hr time perform⟩
  | collectNow r =>
    have hr := hc r rfl
    obtain ⟨hnow, hnow'⟩ := h.collect_now hr perform
    unfold System.call System.reply
    dsimp only
    rw [hnow, hnow']
    exact ⟨h.collect hr _ perform, h.samePoints hr _ perform⟩
  | moveClock c move =>
    obtain ⟨hmoved, hsame⟩ := h.moveClock c move
    exact ⟨hmoved, congrArg Reply.done hsame.symm⟩

/-- **A refused measurement** may be left out. -/
theorem refused (h : Twins id collected s s') {c : InstrumentCall}
    (hrefusal : isRefusal (c, s.reply perform c) = true) :
    Twins id collected (s.call perform c) s' := by
  cases c with
  | use u =>
    cases u with
    | record r labels v =>
      cases he : (recordInstrument r v labels s).1 with
      | error e => exact h.record_refused he
      | ok _ =>
        change isRefusal (_, .done (recordInstrument r v labels s).1) = true at hrefusal
        rw [he] at hrefusal
        cases hrefusal
    | recordOn q v =>
      cases he : (recordHandle q v s).1 with
      | error e => exact h.recordOn_refused he
      | ok _ =>
        change isRefusal (_, .done (recordHandle q v s).1) = true at hrefusal
        rw [he] at hrefusal
        cases hrefusal
    | bind r labels => cases hrefusal
    | release q => cases hrefusal
    | collect r time => cases hrefusal
  | collectNow r => cases hrefusal
  | moveClock c move => cases hrefusal

/-- **Transcripts** with and without the refused measurements. -/
theorem transcripts (h : Twins id collected s s') {cs : List InstrumentCall}
    (hcs : ∀ c ∈ cs, ∀ r ∈ c.collects, collected r) :
    List.Forall₂ (fun e e' => e'.1 = e.1 ∧ e.2.Agrees e'.2)
      (withoutRefusals (s.transcript perform cs))
      (s'.transcript perform ((withoutRefusals (s.transcript perform cs)).map Prod.fst)) := by
  -- on the calls, with twins that a refused call changes one of and any other call changes alike
  induction cs generalizing s s' with
  | nil => exact .nil
  | cons c cs ih =>
    have hrest : ∀ c ∈ cs, ∀ r ∈ c.collects, collected r := fun c hc =>
      hcs c (List.mem_cons_of_mem _ hc)
    have hcons : ∀ (s : System σ) cs, s.transcript perform (c :: cs)
        = (c, s.reply perform c) :: (s.call perform c).transcript perform cs := fun _ _ => rfl
    rw [hcons]
    unfold withoutRefusals at ih ⊢
    cases hrefusal : isRefusal (c, s.reply perform c) with
    | true =>
      rw [List.filter_cons_of_neg (by simp [hrefusal])]
      exact ih (h.refused hrefusal) hrest
    | false =>
      obtain ⟨hcalled, hagrees⟩ := h.call (hcs c List.mem_cons_self)
      rw [List.filter_cons_of_pos (by simp [hrefusal]), List.map_cons, hcons]
      exact .cons ⟨rfl, hagrees⟩ (ih hcalled hrest)

end Twins

/-- **Refused measurements leave no trace** in a system in order: without them, every other call has
the same reply. -/
theorem InOrder.refusals_traceless {since s : System σ}
    (h : InOrder since s) (perform : σ → SystemM σ Unit) {cs : List InstrumentCall}
    (hcalm : ∀ c ∈ cs, ∀ r ∈ c.collects, s.IsCalmAt r) :
    List.Forall₂ (fun e e' => e'.1 = e.1 ∧ e.2.Agrees e'.2)
      (withoutRefusals (s.transcript perform cs))
      (s.transcript perform ((withoutRefusals (s.transcript perform cs)).map Prod.fst)) := by
  obtain ⟨bound, role, horderly⟩ := h.orderly
  -- at first both twins are the system itself
  have htwins : Twins id s.IsCalmAt s s :=
    .of horderly horderly (fun _ => rfl) (fun _ hr => hr.portrait) rfl (.refl _ _)
  exact htwins.transcripts hcalm

end Metering
