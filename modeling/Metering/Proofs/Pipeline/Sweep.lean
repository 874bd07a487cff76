import Metering.Proofs.Instruments.Callbacks
import Metering.Proofs.Pipeline.Collecting

/-!
# Collecting instruments one after the other

What a collection of an instrument gives and leaves is a function of its portrait, as long as its
callback only observes (`Portrait.collected`).  Instruments in order keep apart, so each of several
instruments that are collected one after the other gives and leaves what it would alone, until one
of them fails (`Orderly.sweep`).
-/

namespace Metering

open Fallible SystemM

variable {σ : Type}

/-! ### One instrument -/

/-- The instrument after its callback was called. -/
def Instrument.called (i : Instrument σ) : Instrument σ :=
  { i with callback := i.callback.map Callback.next }

/-- What an observer learns of the next call of its callback. -/
def Instrument.learned (i : Instrument σ) : Option (List (LabelSet × Number)) :=
  Callback.learned i.callback i.descriptor.valueType

/-- What an instrument gives when it is collected at a time, and what it leaves. -/
def Portrait.collected (P : Portrait σ) (time : Int) : Except Failure (List Metric) × Portrait σ :=
  let i := P.instrument
  match i.accumulator, i.processor with
  | .synchronous _, some p =>
    let drained := p.stream.drainAllIn P.contents
    (.ok (p.stream.metricsOf drained.window time),
      ⟨i.restart (p.stream.endWindow time).start, p.stream.endIn drained⟩)
  | .asynchronous, some p =>
    (p.stream.report P.contents.window i.learned time,
      ⟨i.called.restart (p.stream.startAfterCycle i.learned time),
        { P.contents with window := p.stream.afterCycle P.contents.window i.learned }⟩)
  | _, _ => (.ok [], P)

namespace System

/-- If an instrument is an observer and has a callback, that one only observes when it is called
next. -/
def IsQuietAt (s : System σ) (r : Ref .instrument) : Prop :=
  ∃ i, s.instruments.get? r = some i ∧
    (i.accumulator = .asynchronous → ∀ c ∈ i.callback, c.IsQuiet)

/-- What an instrument gives when it is collected at a time. -/
def share (s : System σ) (time : Int) (r : Ref .instrument) : Except Failure (List Metric) :=
  match s.portrait? r with
  | some P => (P.collected time).1
  | none => .ok []

/-- What an instrument leaves when it is collected at a time. -/
def remains (s : System σ) (time : Int) (r : Ref .instrument) : Option (Portrait σ) :=
  (s.portrait? r).map fun P => (P.collected time).2

end System

namespace Instrument

theorem bare_restart (i : Instrument σ) (start : Int) :
    (i.restart start).bare = i.bare.restart start := by
  unfold bare restart Processor.bare
  cases i.processor <;> rfl

variable {i : Instrument σ} {p : Processor}

/-- Collecting the portrait of an instrument that records. -/
theorem collected_recording {live : OrderedMap LabelSet AggregatorId}
    (hacc : i.accumulator = .synchronous live) (hp : i.processor = some p) (c : Contents)
    (time : Int) :
    (Portrait.mk i.bare c).collected time
      = (.ok (p.stream.metricsOf (p.stream.drainAllIn c).window time),
          ⟨(i.restart (p.stream.endWindow time).start).bare,
            p.stream.endIn (p.stream.drainAllIn c)⟩) := by
  have hbare : p.stream.Continues p.bare.stream := rfl
  unfold Portrait.collected
  dsimp only
  rw [bare_accumulator hacc, bare_processor hp, bare_restart]
  dsimp only [Accumulator.bare]
  rw [hbare.drainAllIn, hbare.metricsOf rfl, hbare.endIn, hbare.start_endWindow rfl]

/-- Collecting the portrait of an observer. -/
theorem collected_observing (hacc : i.accumulator = .asynchronous) (hp : i.processor = some p)
    (c : Contents) (time : Int) :
    (Portrait.mk i.bare c).collected time
      = (p.stream.report c.window i.learned time,
          ⟨(i.called.restart (p.stream.startAfterCycle i.learned time)).bare,
            { c with window := p.stream.afterCycle c.window i.learned }⟩) := by
  have hbare : p.stream.Continues p.bare.stream := rfl
  unfold Portrait.collected
  dsimp only
  rw [bare_accumulator hacc, bare_processor hp, bare_restart]
  dsimp only [Accumulator.bare]
  rw [hbare.report rfl, hbare.afterCycle, hbare.startAfterCycle rfl]
  rfl

/-- Collecting the portrait of an instrument that discards. -/
theorem collected_discarding {a : AggregatorId} (hacc : i.accumulator = .discarding a)
    (c : Contents) (time : Int) :
    (Portrait.mk i.bare c).collected time = (.ok [], ⟨i.bare, c⟩) := by
  unfold Portrait.collected
  dsimp only
  rw [bare_accumulator hacc]
  rfl

end Instrument

/-- **Collecting** an instrument whose callback only observes. -/
theorem Orderly.collected {s : System σ} {bound : List (Ref .handle × LabelSet)}
    {role : Ref .instrument → AggregatorId → Role} (h : Orderly s bound role)
    {r : Ref .instrument} (hquiet : s.IsQuietAt r) (time : Int) (perform : σ → SystemM σ Unit) :
    ∃ s' role', collectInstrument perform r (some time) s = (s.share time r, s') ∧
      Acted s s' bound bound role role' r ∧ s'.handles = s.handles ∧
      s'.portrait? r = s.remains time r := by
  obtain ⟨i, hi, hquiet⟩ := hquiet
  unfold System.share System.remains
  rw [System.portrait?_of_get? hi, Option.map_some]
  dsimp only
  cases h.steady hi with
  | recording accumulator processor =>
    obtain ⟨stop, s', role', hstop, happly, hacted, hhandles, hportrait⟩ :=
      h.collectRecording hi accumulator processor (some time) perform
    obtain rfl := hstop time rfl
    rw [Instrument.collected_recording accumulator processor]
    exact ⟨s', role', happly, hacted, hhandles, hportrait⟩
  | discarding accumulator =>
    rw [Instrument.collected_discarding accumulator]
    obtain ⟨hacted, hportrait⟩ := h.discarded_of_handles s hi accumulator rfl
      ⟨rfl, rfl, rfl, rfl, rfl, rfl⟩ (.refl _) rfl rfl
    refine ⟨s, role, ?_, hacted, rfl, ?_⟩
    · unfold collectInstrument
      simp only [bind_apply, instrument_apply hi, accumulator, pure_apply]
    · rw [hportrait, System.portrait?_of_get? hi]
  | @observing p c accumulator processor =>
    rw [Instrument.collected_observing accumulator processor]
    obtain ⟨d, accumulator', processor', callback⟩ := i
    obtain rfl : accumulator' = .asynchronous := accumulator
    obtain rfl : processor' = some p := processor
    let i : Instrument σ := ⟨d, .asynchronous, some p, callback⟩
    -- the callback goes on to its next reply, and the log has what it said
    obtain ⟨w, role', hclose, hacted, hbare, hwindow⟩ := h.observed hi rfl rfl i.learned time
      (callback.map Callback.next) (s.log ++ Callback.entries d.name callback d.valueType)
    change PooledStream.close _ (Callback.learned callback d.valueType) _ = _ at hclose
    have htime : ∀ s' : System σ, s'.clocks = s.clocks →
        timeOr p.clock (some time) s' = (.ok time, s') := fun _ _ => rfl
    refine ⟨_, role', ?_, hacted, rfl, ?_⟩
    · rw [collectInstrument_of_observer hi (hquiet rfl) htime perform, hclose]
    · rw [System.portrait?_of_get? (Table.get?_set_self _ hi), hbare]
      unfold Instrument.contents
      dsimp only
      rw [hwindow]
      rfl

/-! ### Several instruments -/

namespace System

/-- The instruments that are reached when some are collected one after the other at a time: a
failure ends that. -/
def reached (s : System σ) (time : Int) : List (Ref .instrument) → List (Ref .instrument)
  | [] => []
  | r :: rest =>
    match s.share time r with
    | .ok _ => r :: s.reached time rest
    | .error _ => [r]

variable {s s' : System σ} {time : Int} {rs : List (Ref .instrument)} {r : Ref .instrument}

theorem reached_subset : s.reached time rs ⊆ rs := by
  induction rs with
  | nil => exact List.Subset.refl _
  | cons r rest ih =>
    unfold reached
    split
    · exact List.cons_subset_cons r ih
    · exact List.cons_subset_cons r (List.nil_subset _)

theorem reached_congr (h : ∀ r ∈ rs, s'.share time r = s.share time r) :
    s'.reached time rs = s.reached time rs := by
  induction rs with
  | nil => rfl
  | cons r rest ih =>
    unfold reached
    rw [h r List.mem_cons_self, ih fun r hr => h r (List.mem_cons_of_mem _ hr)]

/-- All instruments are reached if none fails. -/
theorem reached_of_ok (h : ∀ r ∈ rs, ∃ metrics, s.share time r = .ok metrics) :
    s.reached time rs = rs := by
  induction rs with
  | nil => rfl
  | cons r rest ih =>
    obtain ⟨metrics, hr⟩ := h r List.mem_cons_self
    unfold reached
    rw [hr]
    dsimp only
    rw [ih fun r hr => h r (List.mem_cons_of_mem _ hr)]

/-- The instruments after the first one that fails are not reached. -/
theorem reached_of_error {before after : List (Ref .instrument)} {e : Failure}
    (h : ∀ r ∈ before, ∃ metrics, s.share time r = .ok metrics) (hr : s.share time r = .error e) :
    s.reached time (before ++ r :: after) = before ++ [r] := by
  induction before with
  | nil =>
    show reached s time (r :: after) = [r]
    unfold reached
    rw [hr]
  | cons b before ih =>
    obtain ⟨metrics, hb⟩ := h b List.mem_cons_self
    show reached s time (b :: (before ++ r :: after)) = _
    unfold reached
    rw [hb]
    dsimp only
    rw [ih fun r hr => h r (List.mem_cons_of_mem _ hr)]
    rfl

end System

/-- The results of several computations in one list, or the first failure. -/
def joined {α β : Type} (f : α → Except Failure (List β)) (as : List α) : Except Failure (List β) :=
  (as.mapM f).map List.flatten

theorem joined_cons {α β : Type} (f : α → Except Failure (List β)) (a : α) (as : List α) :
    joined f (a :: as) = match f a with
      | .ok bs => (joined f as).map (bs ++ ·)
      | .error e => .error e := by
  unfold joined
  rw [List.mapM_cons]
  cases f a with
  | error e => rfl
  | ok bs => cases as.mapM f <;> rfl

theorem joined_congr {α β : Type} {f g : α → Except Failure (List β)} {as : List α}
    (h : ∀ a ∈ as, f a = g a) : joined f as = joined g as := by
  induction as with
  | nil => rfl
  | cons a as ih =>
    rw [joined_cons, joined_cons, h a List.mem_cons_self,
      ih fun a ha => h a (List.mem_cons_of_mem _ ha)]

theorem joined_of_ok {α β : Type} {f : α → Except Failure (List β)} {as : List α}
    (h : ∀ a ∈ as, ∃ bs, f a = .ok bs) : ∃ bs, joined f as = .ok bs := by
  induction as with
  | nil => exact ⟨_, rfl⟩
  | cons a as ih =>
    obtain ⟨bs, ha⟩ := h a List.mem_cons_self
    obtain ⟨bs', has⟩ := ih fun a ha => h a (List.mem_cons_of_mem _ ha)
    rw [joined_cons, ha, has]
    exact ⟨_, rfl⟩

theorem joined_of_error {α β : Type} {f : α → Except Failure (List β)} {before after : List α}
    {a : α} {e : Failure} (h : ∀ b ∈ before, ∃ bs, f b = .ok bs) (ha : f a = .error e) :
    joined f (before ++ a :: after) = .error e := by
  induction before with
  | nil => rw [List.nil_append, joined_cons, ha]
  | cons b before ih =>
    obtain ⟨bs, hb⟩ := h b List.mem_cons_self
    rw [List.cons_append, joined_cons, hb, ih fun b hb => h b (List.mem_cons_of_mem _ hb)]
    rfl

/-- What becomes of collecting some instruments one after the other at a time: each of them gives
and leaves what it would alone, until one fails. -/
structure Gathered (s s' : System σ) (time : Int) (rs : List (Ref .instrument))
    (result : Except Failure (List Metric)) : Prop where
  shares : result = joined (s.share time) rs
  portraits : ∀ r, s'.portrait? r
    = if r ∈ s.reached time rs then s.remains time r else s.portrait? r
  others : ∀ {r}, r ∉ rs → s'.instruments.get? r = s.instruments.get? r
  rest : s.SameRest s'

namespace Gathered

variable {s s' : System σ} {time : Int} {rs : List (Ref .instrument)}
  {result : Except Failure (List Metric)}

/-- When none of the instruments fails, each is left as its own collection would leave it. -/
theorem whole (h : Gathered s s' time rs result)
    (hok : ∀ r ∈ rs, ∃ metrics, s.share time r = .ok metrics) :
    (∃ metrics, result = .ok metrics) ∧ ∀ r ∈ rs, s'.portrait? r = s.remains time r := by
  refine ⟨?_, fun r hr => ?_⟩
  · rw [h.shares]
    exact joined_of_ok hok
  · rw [h.portraits, System.reached_of_ok hok, if_pos hr]

/-- The first instrument that fails tears the collection: those after it are not reached. -/
theorem torn {before after : List (Ref .instrument)} {r : Ref .instrument} {e : Failure}
    (h : Gathered s s' time (before ++ r :: after) result) (hnodup : (before ++ r :: after).Nodup)
    (hok : ∀ b ∈ before, ∃ metrics, s.share time b = .ok metrics)
    (he : s.share time r = .error e) :
    result = .error e ∧ (∀ b ∈ before ++ [r], s'.portrait? b = s.remains time b) ∧
      ∀ a ∈ after, s'.portrait? a = s.portrait? a := by
  have hreached : s.reached time (before ++ r :: after) = before ++ [r] :=
    System.reached_of_error hok he
  refine ⟨?_, fun b hb => ?_, fun a ha => ?_⟩
  · rw [h.shares]
    exact joined_of_error hok he
  · rw [h.portraits, hreached, if_pos hb]
  · rw [List.append_cons] at hnodup
    rw [h.portraits, hreached, if_neg fun hmem => (List.nodup_append.mp hnodup).2.2 a hmem a ha rfl]

end Gathered

theorem System.share_congr {s s' : System σ} {r : Ref .instrument}
    (h : s'.portrait? r = s.portrait? r) (time : Int) : s'.share time r = s.share time r := by
  unfold System.share
  rw [h]

namespace Orderly

variable {s : System σ} {bound : List (Ref .handle × LabelSet)}
  {role : Ref .instrument → AggregatorId → Role}

/-- **Collecting instruments one after the other**, whose callbacks only observe. -/
theorem sweep (h : Orderly s bound role) {rs : List (Ref .instrument)} (hnodup : rs.Nodup)
    (hquiet : ∀ r ∈ rs, s.IsQuietAt r) (time : Int) (perform : σ → SystemM σ Unit) :
    ∃ result s' role', collectInstruments perform (some time) rs s = (result, s') ∧
      Orderly s' bound role' ∧ Gathered s s' time rs result := by
  induction rs generalizing s role with
  | nil =>
    exact ⟨.ok [], s, role, rfl, h, rfl, fun _ => rfl, fun _ => rfl,
      ⟨rfl, rfl, rfl, rfl, rfl, rfl⟩⟩
  | cons r rest ih =>
    rw [List.nodup_cons] at hnodup
    obtain ⟨s₁, role₁, happly, hacted, -, hleft⟩ :=
      h.collected (hquiet r List.mem_cons_self) time perform
    have hchanged := hacted.changed
    have hother : ∀ {q}, q ≠ r → s₁.portrait? q = s.portrait? q := fun hq =>
      h.portrait_of_ne hchanged hq
    have hne : ∀ {q}, q ∈ rest → q ≠ r := by
      rintro q hq rfl
      exact hnodup.1 hq
    unfold collectInstruments
    rw [bind_apply, happly]
    cases hshare : s.share time r with
    | error e =>
      refine ⟨.error e, s₁, role₁, rfl, hacted.orderly, ?_, fun q => ?_, fun hq => ?_,
        hchanged.rest⟩
      · rw [joined_cons, hshare]
      · unfold System.reached
        rw [hshare]
        dsimp only
        by_cases hq : q = r
        · rw [hq, hleft, if_pos (List.mem_singleton.mpr rfl)]
        · rw [hother hq, if_neg (fun hmem => hq (List.mem_singleton.mp hmem))]
      · exact hchanged.others fun hqr => hq (hqr ▸ List.mem_cons_self)
    | ok metrics =>
      -- the others are as they were, and so give and leave the same as before
      have hrest : ∀ {q}, q ∈ rest → s₁.share time q = s.share time q := fun hq =>
        System.share_congr (hother (hne hq)) time
      obtain ⟨result, s', role', happly', horderly, hgathered⟩ := ih hacted.orderly hnodup.2
        fun q hq => by
          obtain ⟨i, hi, hc⟩ := hquiet q (List.mem_cons_of_mem _ hq)
          exact ⟨i, by rw [hchanged.others (hne hq), hi], hc⟩
      dsimp only
      rw [bind_apply, happly']
      refine ⟨result.map (metrics ++ ·), s', role', ?_, horderly, ?_, fun q => ?_, fun hq => ?_,
        hchanged.rest.trans hgathered.rest⟩
      · cases result <;> rfl
      · rw [joined_cons, hshare, hgathered.shares, joined_congr fun q hq => hrest hq]
      · unfold System.reached
        rw [hshare, hgathered.portraits, System.reached_congr fun q hq => hrest hq]
        dsimp only
        by_cases hq : q = r
        · have hnot : q ∉ s.reached time rest := fun hmem =>
            hnodup.1 (hq ▸ System.reached_subset hmem)
          rw [if_neg hnot, hq, hleft, if_pos List.mem_cons_self]
        · have hiff : q ∈ r :: s.reached time rest ↔ q ∈ s.reached time rest := by
            rw [List.mem_cons, or_iff_right hq]
          unfold System.remains
          rw [hother hq]
          exact (if_congr hiff rfl rfl).symm
      · rw [hgathered.others fun hmem => hq (List.mem_cons_of_mem _ hmem),
          hchanged.others fun hqr => hq (hqr ▸ List.mem_cons_self)]

end Orderly

end Metering
