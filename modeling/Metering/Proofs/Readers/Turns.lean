import Metering.Proofs.Delivery.Patience
import Metering.Proofs.Readers.Surroundings

/-!
# Turns of a periodic reader

A periodic reader is asked one thing after the other: to let an interval pass, to flush, to shut
down.  What it collects from and the exporter that it hands its batches to are its partners here,
and may be of any kind.  Every turn keeps a record of what has passed between the reader and its
partners.

`ExportRound` is all that collecting and exporting once can come to, and `Turn.Follows` all that a
turn can come to and the schedule that it leaves.  Everything else about turns is learned from
these.

A turn may never end, since nothing has to limit the attempts.  Then the reader has no more turns.
-/

namespace Metering

open Fallible

/-- What a periodic reader collects from and exports to: anything that has states. -/
structure Partners (κ : Type) where
  collect : κ → Except Failure (List Metric) × κ
  send : List Metric → κ → ExportOutcome × κ
  close : κ → Option Failure × κ
  /-- Where nothing limits the attempts, so many are followed after the first. -/
  watch : Nat

/-- What passes between a reader and its partners.  In the end it may be `unending`: the exporter is
offered the last batch again and again. -/
inductive Contact where
  | collected (result : Except Failure (List Metric))
  | sent (batch : List Metric) (outcome : ExportOutcome)
  | unending
  | closed (failure : Option Failure)
deriving DecidableEq

/-- What a computation comes to: its result and its traces. -/
structure Work (α : Type) where
  result : Except Failure α
  contacts : List Contact
  log : List LogEntry
  waits : List Number

/-- A reader among its partners, with the traces of what it has done so far. -/
structure Site (κ : Type) where
  state : κ
  schedule : Schedule
  contacts : List Contact
  log : List LogEntry
  waits : List Number

namespace Site

variable {κ α : Type}

/-- A reader that has not done anything yet. -/
def begin (state : κ) (c : Schedule) : Site κ := ⟨state, c, [], [], []⟩

/-- The site without any traces. -/
def clear (s : Site κ) : Site κ := { s with contacts := [], log := [], waits := [] }

/-- The site with the traces of a computation, and with the partners in another state. -/
def after (s : Site κ) (state : κ) (work : Work α) : Site κ :=
  { s with
    state := state
    contacts := s.contacts ++ work.contacts
    log := s.log ++ work.log
    waits := s.waits ++ work.waits }

end Site

namespace Partners

variable {κ : Type} (p : Partners κ)

/-- Offers a batch and keeps a record of it. -/
def sendNoted (batch : List Metric) (x : κ × List Contact) : ExportOutcome × κ × List Contact :=
  let (outcome, state) := p.send batch x.1
  (outcome, state, x.2 ++ [.sent batch outcome])

/-- The partners and the reader itself are all that surrounds the reader. -/
def surroundings : Surroundings (Site κ) where
  collect s :=
    let (result, state) := p.collect s.state
    (result, { s with state := state, contacts := s.contacts ++ [.collected result] })
  offer limit cap metrics s :=
    let (report, state, contacts) :=
      Delivery.offer p.sendNoted (fun _ => p.watch + 1) limit cap metrics (s.state, s.contacts)
    (report.answer,
      { s with
        state := state
        contacts := if report.ended then contacts else contacts ++ [.unending]
        log := s.log ++ report.log
        waits := s.waits ++ report.waits })
  close s :=
    let (failure, state) := p.close s.state
    (Exporter.closing () failure,
      { s with state := state, contacts := s.contacts ++ [.closed failure] })
  report entries := modify fun s => { s with log := s.log ++ entries }
  change f := modify fun s => { s with schedule := f s.schedule }

end Partners

/-- A turn of a reader: what it was asked, and what came of that. -/
structure Turn where
  call : ReaderCall
  work : Work Answer

/-- The turn never ends. -/
def Turn.IsUnending (t : Turn) : Prop := .unending ∈ t.work.contacts

instance (t : Turn) : Decidable t.IsUnending := inferInstanceAs (Decidable (_ ∈ _))

namespace Partners

variable {κ : Type} (p : Partners κ)

/-- A turn, and the site after it. -/
def turn (call : ReaderCall) (s : Site κ) : Turn × Site κ :=
  let (result, s) := p.surroundings.answer s.schedule call s.clear
  (⟨call, ⟨result, s.contacts, s.log, s.waits⟩⟩, s)

/-- One turn after the other, up to one that never ends. -/
def turns : List ReaderCall → Site κ → List Turn
  | [], _ => []
  | call :: calls, s =>
    let (t, s) := p.turn call s
    if t.IsUnending then [t] else t :: turns calls s

theorem turns_of_unending {call : ReaderCall} {s : Site κ} (h : (p.turn call s).1.IsUnending)
    (calls : List ReaderCall) : p.turns (call :: calls) s = [(p.turn call s).1] := if_pos h

theorem turns_of_ended {call : ReaderCall} {s : Site κ} (h : ¬ (p.turn call s).1.IsUnending)
    (calls : List ReaderCall) :
    p.turns (call :: calls) s = (p.turn call s).1 :: p.turns calls (p.turn call s).2 := if_neg h

/-- The turns are those that the reader is asked for, as far as they go. -/
theorem map_call_turns_prefix (calls : List ReaderCall) (s : Site κ) :
    (p.turns calls s).map Turn.call <+: calls := by
  induction calls generalizing s with
  | nil => exact List.prefix_rfl
  | cons call calls ih =>
    by_cases h : (p.turn call s).1.IsUnending
    · rw [p.turns_of_unending h]
      exact List.prefix_append [call] calls
    · rw [p.turns_of_ended h, List.map_cons]
      exact List.prefix_cons_inj call |>.mpr (ih _)

/-- **All turns** take place if each of them ends. -/
theorem map_call_turns {calls : List ReaderCall} {s : Site κ}
    (hended : ∀ t ∈ p.turns calls s, ¬ t.IsUnending) : (p.turns calls s).map Turn.call = calls := by
  induction calls generalizing s with
  | nil => rfl
  | cons call calls ih =>
    by_cases h : (p.turn call s).1.IsUnending
    · rw [p.turns_of_unending h] at hended
      exact absurd h (hended _ List.mem_cons_self)
    · rw [p.turns_of_ended h] at hended ⊢
      rw [List.map_cons, ih fun t ht => hended t (List.mem_cons_of_mem _ ht)]
      rfl

end Partners

/-! ### Collecting and exporting once -/

/-- All that collecting and exporting once can come to. -/
inductive ExportRound (timeout limit : Number) (watch : Nat) : Work Bool → Prop
  /-- The failure of a collection is reported. -/
  | failed (f : Failure) :
      ExportRound timeout limit watch ⟨.ok false, [.collected (.error f)],
        [.failed "Exception while collecting metrics" f], []⟩
  /-- There is nothing to export. -/
  | empty : ExportRound timeout limit watch ⟨.ok true, [.collected (.ok [])], [], []⟩
  /-- What was collected never gets to the exporter. -/
  | lost {batch : List Metric} (hbatch : batch ≠ []) (hcap : Delivery.seconds? timeout = none) :
      ExportRound timeout limit watch ⟨.error .tooLarge, [.collected (.ok batch)], [], []⟩
  /-- What was collected is offered to the exporter, again for as long as it asks for that. -/
  | offered {batch : List Metric} {cap : Binary64} {again : List ExportOutcome}
      {last : ExportOutcome} {report : Delivery.Report} (hbatch : batch ≠ [])
      (hcap : Delivery.seconds? timeout = some cap) (hagain : ∀ o ∈ again, o.asksAgain = true)
      (hlast : last.asksAgain = false ∨ Delivery.allowed? limit ≠ none)
      (hle : ∀ {bound}, Delivery.allowed? limit = some bound → again.length + 1 ≤ max 1 bound)
      (hreport : report = .told cap batch.length 0 again.length last) :
      ExportRound timeout limit watch
        ⟨.ok report.delivered, .collected (.ok batch) :: (again ++ [last]).map (.sent batch),
          report.log, report.waits⟩
  /-- Nothing limits the attempts, and the exporter never stops asking for another one. -/
  | unending {batch : List Metric} {cap : Binary64} {again : List ExportOutcome}
      {report : Delivery.Report} (hbatch : batch ≠ [])
      (hcap : Delivery.seconds? timeout = some cap) (hagain : ∀ o ∈ again, o.asksAgain = true)
      (hlimit : Delivery.allowed? limit = none) (hlength : again.length = watch + 1)
      (hreport : report = .following cap batch.length 0 again.length) :
      ExportRound timeout limit watch
        ⟨.error .endless, .collected (.ok batch) :: (again.map (.sent batch) ++ [.unending]),
          report.log, report.waits⟩

namespace Partners

variable {κ : Type} (p : Partners κ)

/-- What is kept of the attempts is what was offered and how it went. -/
theorem answers_sendNoted (batch : List Metric) (n : Nat) (state : κ) (contacts : List Contact) :
    Delivery.answers (p.sendNoted batch) n (state, contacts)
      = ((Delivery.answers (p.send batch) n state).1, (Delivery.answers (p.send batch) n state).2,
        contacts ++ (Delivery.answers (p.send batch) n state).1.map (.sent batch)) := by
  induction n generalizing state contacts with
  | zero => simp [Delivery.answers]
  | succ n ih =>
    have hfirst : p.sendNoted batch (state, contacts) = ((p.send batch state).1,
      (p.send batch state).2, contacts ++ [.sent batch (p.send batch state).1]) := rfl
    rw [Delivery.answers_succ, Delivery.answers_succ, hfirst, ih, List.append_assoc]
    rfl

/-- **Offering** a batch that was collected. -/
theorem offer_round (c : Schedule) {batch : List Metric} (hbatch : batch ≠ []) {cap : Binary64}
    (hcap : Delivery.seconds? c.timeout = some cap) (s : Site κ) :
    ∃ work state, ExportRound c.timeout c.attempts p.watch
        { work with contacts := .collected (.ok batch) :: work.contacts } ∧
      p.surroundings.offer c.attempts cap batch s = (work.result, s.after state work) := by
  -- offering is asked what it does, with an exporter that also notes what is sent
  obtain ⟨fuel, hfuel⟩ := Delivery.exists_followed c.attempts p.watch
  obtain ⟨again, last, report, ⟨state, contacts⟩, hle, hagain, hanswers, hending, hoffer⟩ :=
    Delivery.offer_told p.sendNoted (fun _ => p.watch + 1) (s.state, s.contacts) hfuel cap batch
  rw [answers_sendNoted] at hanswers
  obtain ⟨houtcomes, hstate⟩ := Prod.mk.inj hanswers
  obtain ⟨-, rfl⟩ := Prod.mk.inj hstate
  unfold Delivery.followed at hfuel
  have hbound : ∀ {bound}, Delivery.allowed? c.attempts = some bound →
      again.length + 1 ≤ max 1 bound := by
    intro bound hlimit
    rw [hlimit, Option.map_some, Option.getD_some] at hfuel
    omega
  dsimp only [surroundings]
  rw [hoffer, houtcomes]
  let told : Delivery.Report := .told cap batch.length 0 again.length last
  let work : Work Bool :=
    ⟨.ok told.delivered, (again ++ [last]).map (.sent batch), told.log, told.waits⟩
  cases hending with
  | final hfinal =>
    exact ⟨work, state, .offered hbatch hcap hagain (Or.inl hfinal) hbound rfl, rfl⟩
  | dropped _ _ hsome =>
    have hlimit : Delivery.allowed? c.attempts ≠ none := by
      intro hnone
      rw [hnone] at hsome
      cases hsome
    exact ⟨work, state, .offered hbatch hcap hagain (Or.inr hlimit) hbound rfl, rfl⟩
  | endless hlast hall hnone =>
    have hlimit : Delivery.allowed? c.attempts = none := Option.map_eq_none_iff.mp hnone
    have hlength : (again ++ [last]).length = p.watch + 1 := by
      rw [hlimit, Option.map_none, Option.getD_none] at hfuel
      rw [List.length_append, hall, List.length_singleton, hfuel]
    have hasked : ∀ o ∈ again ++ [last], o.asksAgain = true :=
      List.forall_mem_append.mpr ⟨hagain, List.forall_mem_singleton.mpr hlast⟩
    let report : Delivery.Report := .following cap batch.length 0 (again.length + 1)
    let work : Work Bool := ⟨.error .endless,
      (again ++ [last]).map (.sent batch) ++ [.unending], report.log, report.waits⟩
    have hreport : report = .following cap batch.length 0 (again ++ [last]).length := by
      rw [List.length_append]
      rfl
    have hcontacts : s.contacts ++ work.contacts
        = s.contacts ++ (again ++ [last]).map (.sent batch) ++ [.unending] :=
      (List.append_assoc ..).symm
    refine ⟨work, state, .unending hbatch hcap hasked hlimit hlength hreport, ?_⟩
    unfold Site.after
    rw [hcontacts]
    rfl

/-- **One round** of collecting and exporting. -/
theorem collectAndExport_round (c : Schedule) (s : Site κ) :
    ∃ work state, ExportRound c.timeout c.attempts p.watch work ∧
      p.surroundings.collectAndExport c s = (work.result, s.after state work) := by
  have hcollect : p.surroundings.collect s = ((p.collect s.state).1, { s with
      state := (p.collect s.state).2
      contacts := s.contacts ++ [.collected (p.collect s.state).1] }) := rfl
  unfold Surroundings.collectAndExport caught
  rw [bind_apply]
  dsimp only
  rw [hcollect]
  rcases p.collect s.state with ⟨f | batch, state⟩
  · refine ⟨_, state, .failed f, ?_⟩
    unfold Site.after
    rw [List.append_nil]
    rfl
  cases batch with
  | nil =>
    refine ⟨_, state, .empty, ?_⟩
    unfold Site.after
    rw [List.append_nil, List.append_nil]
    rfl
  | cons m ms =>
    dsimp only
    unfold Surroundings.exportMetrics
    cases hcap : Delivery.seconds? c.timeout with
    | none =>
      refine ⟨_, state, .lost (List.cons_ne_nil m ms) hcap, ?_⟩
      unfold Site.after
      rw [List.append_nil, List.append_nil]
      rfl
    | some cap =>
      obtain ⟨work, state', hround, hoffer⟩ := p.offer_round c (List.cons_ne_nil m ms) hcap
        { s with state := state, contacts := s.contacts ++ [.collected (.ok (m :: ms))] }
      refine ⟨_, state', hround, ?_⟩
      dsimp only
      rw [hoffer]
      unfold Site.after
      rw [List.append_assoc]
      rfl

end Partners

/-! ### Turns -/

/-- The traces of a computation, with another result. -/
def Work.answered {α β : Type} (work : Work α) (result : Except Failure β) : Work β :=
  { work with result := result }

/-- What a reader that has been stopped does: it does not turn to its partners. -/
def ReaderCall.idle : ReaderCall → Work Answer
  | .tick => ⟨.ok (.flag false), [], [], []⟩
  | .flush => ⟨.ok (.flag false), [], [.warning "Can't force flush, reader is shut down"], []⟩
  | .shutdown => ⟨.ok .nothing, [], [SystemM.alreadyShutDown], []⟩

/-- All that a turn can come to, and the schedule that it leaves. -/
inductive Turn.Follows (watch : Nat) (c : Schedule) : Turn → Schedule → Prop
  /-- The intervals have been stopped. -/
  | still (h : c.ticking = false) : Follows watch c ⟨.tick, ReaderCall.tick.idle⟩ c
  | ticked (h : c.ticking = true) {b : Bool} {work : Work Bool}
      (hround : ExportRound c.timeout c.attempts watch work) (hresult : work.result = .ok b) :
      Follows watch c ⟨.tick, work.answered (.ok (.flag true))⟩ c
  /-- A failure that is not caught ends the intervals. -/
  | ended (h : c.ticking = true) {f : Failure} {work : Work Bool}
      (hround : ExportRound c.timeout c.attempts watch work) (hresult : work.result = .error f) :
      Follows watch c ⟨.tick, work.answered (.error f)⟩ { c with ticking := false }
  | refused (h : c.isShutDown = true) : Follows watch c ⟨.flush, ReaderCall.flush.idle⟩ c
  | flushed (h : c.isShutDown = false) {work : Work Bool}
      (hround : ExportRound c.timeout c.attempts watch work) :
      Follows watch c ⟨.flush, work.answered (work.result.map .flag)⟩ c
  | repeated (h : c.isShutDown = true) : Follows watch c ⟨.shutdown, ReaderCall.shutdown.idle⟩ c
  /-- A failure that is not caught keeps the reader from being shut down. -/
  | torn (h : c.isShutDown = false) {f : Failure} {work : Work Bool}
      (hround : ExportRound c.timeout c.attempts watch work) (hresult : work.result = .error f) :
      Follows watch c ⟨.shutdown, work.answered (.error f)⟩ { c with ticking := false }
  /-- The exporter is shut down after the last export. -/
  | closed (h : c.isShutDown = false) {b : Bool} {work : Work Bool}
      (hround : ExportRound c.timeout c.attempts watch work) (hresult : work.result = .ok b)
      (failure : Option Failure) :
      Follows watch c
        ⟨.shutdown, { work.answered (Exporter.closing .nothing failure) with
          contacts := work.contacts ++ [.closed failure] }⟩
        { c with ticking := false, isShutDown := true }

namespace Partners

variable {κ : Type} (p : Partners κ)

theorem change_apply (f : Schedule → Schedule) (s : Site κ) :
    p.surroundings.change f s = (.ok (), { s with schedule := f s.schedule }) := rfl

theorem close_apply (s : Site κ) :
    p.surroundings.close s = (Exporter.closing () (p.close s.state).1, { s with
      state := (p.close s.state).2
      contacts := s.contacts ++ [.closed (p.close s.state).1] }) := rfl

/-- **A turn** when no interval is in progress. -/
theorem turn_follows {s : Site κ} (h : s.schedule.inProgress = false) (call : ReaderCall) :
    (p.turn call s).1.Follows p.watch s.schedule (p.turn call s).2.schedule := by
  obtain ⟨state, c, contacts, log, waits⟩ := s
  dsimp only at h
  cases call with
  | tick =>
    unfold turn Surroundings.answer Surroundings.tick Site.clear
    dsimp only
    cases hticking : c.ticking with
    | false => exact .still hticking
    | true =>
      obtain ⟨work, state', hround, happly⟩ := p.collectAndExport_round c
        { state := state, schedule := { c with inProgress := true }, contacts := [], log := []
          waits := [] }
      -- the round ran with the interval marked; taking the mark back gives the schedule again
      have hsame : ({ c with inProgress := false } : Schedule) = c := by rw [← h]
      rw [if_pos rfl]
      simp only [bind_apply, change_apply, caught, happly, Site.after, List.nil_append, hsame]
      rcases hresult : work.result with f | b
      · simp only [bind_apply, change_apply, throw_apply]
        exact .ended hticking hround hresult
      · exact .ticked hticking hround hresult
  | flush =>
    unfold turn Surroundings.answer Surroundings.flush Site.clear
    dsimp only
    cases hshut : c.isShutDown with
    | true => exact .refused hshut
    | false =>
      obtain ⟨work, state', hround, happly⟩ := p.collectAndExport_round c
        { state := state, schedule := c, contacts := [], log := [], waits := [] }
      rw [if_neg Bool.false_ne_true, bind_apply, happly]
      simp only [Site.after, List.nil_append]
      -- a flush passes on what the round gave, so both results are one case of `Follows`
      have hturn := Turn.Follows.flushed hshut hround
      rcases hresult : work.result with f | b
      · rw [hresult] at hturn
        exact hturn
      · rw [hresult] at hturn
        exact hturn
  | shutdown =>
    unfold turn Surroundings.answer Surroundings.shutdown Site.clear
    dsimp only
    cases hshut : c.isShutDown with
    | true => exact .repeated hshut
    | false =>
      obtain ⟨work, state', hround, happly⟩ := p.collectAndExport_round c
        { state := state, schedule := { c with ticking := false }, contacts := [], log := []
          waits := [] }
      rw [if_neg Bool.false_ne_true, h, if_neg Bool.false_ne_true]
      simp only [bind_apply, change_apply, happly, Site.after, List.nil_append, pure_apply]
      rcases hresult : work.result with f | b
      -- a round that is torn leaves the exporter open; only after a whole one is it closed
      · exact .torn hshut hround hresult
      · have hturn := Turn.Follows.closed hshut hround hresult (p.close state').1
        dsimp only
        rw [close_apply]
        rcases hfailure : (p.close state').1 with _ | f
        · rw [hfailure] at hturn
          exact hturn
        · rw [hfailure] at hturn
          exact hturn

end Partners

end Metering
