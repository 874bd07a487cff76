import Metering.Proofs.Readers.Starting
import Metering.Proofs.Readers.Turns
import Metering.Proofs.Session.Reachable

/-!
# Exports that run on their own

Nobody waits for the exports of a periodic reader, so nobody sees them fail.  Failures of a
collection and of the exporter are caught; what is not caught is that the longest delay, which may
be an integer of any size, is too large for a double.  Then each batch that is collected gets lost.
An interval that is too large, or too long to be waited for, ends the intervals before the first.

`background_export` says exactly when this happens, that otherwise every batch that was collected is
handed to the exporter, and which exports never end.
-/

namespace Metering

open Fallible SystemM

/-! ### Answers -/

namespace Contact

/-- How the exporter has answered, if it was offered something. -/
def outcome? : Contact → Option ExportOutcome
  | sent _ outcome => some outcome
  | collected _ | unending | closed _ => none

/-- All answers of the exporter. -/
def outcomes (contacts : List Contact) : List ExportOutcome := contacts.filterMap outcome?

theorem outcomes_collected (result : Except Failure (List Metric)) (contacts : List Contact) :
    outcomes (.collected result :: contacts) = outcomes contacts := rfl

theorem outcomes_sent (batch : List Metric) (answers : List ExportOutcome)
    (contacts : List Contact) :
    outcomes (answers.map (.sent batch) ++ contacts) = answers ++ outcomes contacts := by
  induction answers with
  | nil => rfl
  | cons answer answers ih =>
    rw [List.map_cons, List.cons_append, List.cons_append, ← ih]
    rfl

end Contact

/-! ### Rounds -/

namespace ExportRound

variable {timeout limit : Number} {watch : Nat} {work : Work Bool}

/-- **A round fails** exactly if it has collected a batch and the longest delay is too large, or if
it never ends. -/
theorem eq_error_iff (h : ExportRound timeout limit watch work) (f : Failure) :
    work.result = .error f ↔ (f = .tooLarge ∧ Delivery.seconds? timeout = none ∧
      ∃ batch, batch ≠ [] ∧ .collected (.ok batch) ∈ work.contacts) ∨
        (f = .endless ∧ .unending ∈ work.contacts) := by
  cases h with
  | failed e => simp
  | empty => simp
  | @lost batch hbatch hcap => simpa [hcap, eq_comm] using fun _ => hbatch
  | offered _ hcap => simp [hcap]
  | unending _ hcap => simp [hcap, eq_comm]

/-- **A round succeeds** exactly if there was nothing to export or the exporter has taken it. -/
theorem eq_true_iff (h : ExportRound timeout limit watch work) :
    work.result = .ok true ↔ .collected (.ok []) ∈ work.contacts ∨
      ∃ batch, .sent batch .success ∈ work.contacts := by
  cases h with
  | failed e => simp
  | empty => simp
  | lost hbatch => simpa using hbatch.symm
  | @offered batch cap again last report hbatch _ hagain _ _ hreport =>
    have hsuccess : .success ∉ again := fun hmem => by cases hagain _ hmem
    have hdelivered : report.delivered = true ↔ last = .success := by
      rw [hreport]
      exact decide_eq_true_iff
    simp [hdelivered, hbatch, hsuccess, eq_comm]
  | @unending batch cap again report hbatch _ hagain =>
    have hsuccess : .success ∉ again := fun hmem => by cases hagain _ hmem
    simp [hbatch, hsuccess, eq_comm]

/-- **A batch** that was collected is handed to the exporter unless the longest delay is too
large. -/
theorem sent_iff (h : ExportRound timeout limit watch work) {batch : List Metric}
    (hbatch : batch ≠ []) (hcollected : .collected (.ok batch) ∈ work.contacts) :
    (∃ outcome, .sent batch outcome ∈ work.contacts) ↔ Delivery.seconds? timeout ≠ none := by
  cases h with
  | failed e => simp at hcollected
  | empty => simp [hbatch] at hcollected
  | lost _ hcap => simp [hcap]
  | @offered own cap again last report _ hcap =>
    obtain rfl : batch = own := by simpa using hcollected
    simp only [hcap, ne_eq, reduceCtorEq, not_false_eq_true, iff_true]
    exact ⟨last, by simp⟩
  | @unending own cap again report _ hcap _ _ hlength =>
    obtain rfl : batch = own := by simpa using hcollected
    simp only [hcap, ne_eq, reduceCtorEq, not_false_eq_true, iff_true]
    obtain ⟨first, others, rfl⟩ := List.exists_cons_of_length_eq_add_one hlength
    exact ⟨first, by simp⟩

/-- The answers of the exporter that a round has waited for. -/
theorem outcomes_eq (h : ExportRound timeout limit watch work) :
    (.unending ∉ work.contacts ∧ Contact.outcomes work.contacts = []) ∨
      (.unending ∉ work.contacts ∧ ∃ again last, Contact.outcomes work.contacts = again ++ [last] ∧
        (last.asksAgain = false ∨ Delivery.allowed? limit ≠ none) ∧
        ∀ {bound}, Delivery.allowed? limit = some bound → again.length + 1 ≤ max 1 bound) ∨
      (.unending ∈ work.contacts ∧ Delivery.allowed? limit = none ∧
        (Contact.outcomes work.contacts).length = watch + 1 ∧
        ∀ o ∈ Contact.outcomes work.contacts, o.asksAgain = true) := by
  cases h with
  | failed e => exact Or.inl ⟨by simp, rfl⟩
  | empty => exact Or.inl ⟨by simp, rfl⟩
  | lost => exact Or.inl ⟨by simp, rfl⟩
  | @offered batch _ again last _ _ _ _ hlast hle =>
    refine Or.inr (Or.inl ⟨by simp, again, last, ?_, hlast, hle⟩)
    have hsent := Contact.outcomes_sent batch (again ++ [last]) []
    rw [List.append_nil] at hsent
    exact hsent.trans (List.append_nil _)
  | @unending batch _ again _ _ _ hagain hlimit hlength =>
    refine Or.inr (Or.inr ⟨by simp, hlimit, ?_⟩)
    have houtcomes : Contact.outcomes
        (.collected (.ok batch) :: (again.map (.sent batch) ++ [.unending])) = again := by
      rw [Contact.outcomes_collected, Contact.outcomes_sent]
      exact List.append_nil again
    rw [houtcomes]
    exact ⟨hlength, hagain⟩

/-- **Limited attempts** come to an end. -/
theorem length_le (h : ExportRound timeout limit watch work) {bound : Nat}
    (hlimit : Delivery.allowed? limit = some bound) :
    (Contact.outcomes work.contacts).length ≤ max 1 bound := by
  obtain ⟨-, hnil⟩ | ⟨-, again, last, houtcomes, -, hle⟩ | ⟨-, hnone, -⟩ := h.outcomes_eq
  · simp [hnil]
  · rw [houtcomes, List.length_append]
    exact hle hlimit
  · cases hnone.symm.trans hlimit

/-- **A round never ends** exactly if nothing limits the attempts and the exporter has asked for
another one for as long as it was watched. -/
theorem unending_iff (h : ExportRound timeout limit watch work) :
    .unending ∈ work.contacts ↔ Delivery.allowed? limit = none ∧
      (Contact.outcomes work.contacts).length = watch + 1 ∧
      ∀ o ∈ Contact.outcomes work.contacts, o.asksAgain = true := by
  obtain ⟨hended, hnil⟩ | ⟨hended, again, last, houtcomes, hlast, -⟩ | ⟨hmem, hnever⟩ :=
    h.outcomes_eq
  · simp [hended, hnil]
  · refine iff_of_false hended fun ⟨hlimit, _, hagain⟩ => ?_
    have hasked := hagain last (houtcomes ▸ by simp)
    obtain hfinal | hsome := hlast
    · cases hasked.symm.trans hfinal
    · exact hsome hlimit
  · exact iff_of_true hmem hnever

end ExportRound

/-! ### Turns -/

/-- The turn turns to what the reader collects from. -/
def Turn.Collects (t : Turn) : Prop := ∃ result, .collected result ∈ t.work.contacts

/-- What a turn comes to that nobody may see. -/
structure Turn.InBackground (timeout limit : Number) (watch : Nat) (t : Turn) : Prop where
  /-- It fails exactly if it has collected a batch and the longest delay is too large, or if it never
  ends. -/
  fails : ∀ f, t.work.result = .error f ↔ (f = .tooLarge ∧ Delivery.seconds? timeout = none ∧
    ∃ batch, batch ≠ [] ∧ .collected (.ok batch) ∈ t.work.contacts) ∨
      (f = .endless ∧ t.IsUnending)
  /-- A flush tells whether there was nothing to export or the exporter has taken it. -/
  flushed : t.call = .flush → (t.work.result = .ok (.flag true) ↔
    .collected (.ok []) ∈ t.work.contacts ∨ ∃ batch, .sent batch .success ∈ t.work.contacts)
  /-- A batch that was collected is handed to the exporter unless the longest delay is too large. -/
  handed : ∀ {batch}, batch ≠ [] → .collected (.ok batch) ∈ t.work.contacts →
    ((∃ outcome, .sent batch outcome ∈ t.work.contacts) ↔ Delivery.seconds? timeout ≠ none)
  /-- Limited attempts come to an end. -/
  limited : ∀ {bound}, Delivery.allowed? limit = some bound →
    (Contact.outcomes t.work.contacts).length ≤ max 1 bound
  /-- A turn never ends exactly if nothing limits the attempts, and the exporter has asked for
  another one for as long as it was watched. -/
  unending : t.IsUnending ↔ Delivery.allowed? limit = none ∧
    (Contact.outcomes t.work.contacts).length = watch + 1 ∧
    ∀ o ∈ Contact.outcomes t.work.contacts, o.asksAgain = true

/-- A turn is what its round is if it has the same failure and the same answer. -/
theorem ExportRound.inBackground {timeout limit : Number} {watch : Nat} {work : Work Bool}
    (h : ExportRound timeout limit watch work) {call : ReaderCall} {result : Except Failure Answer}
    (hfails : ∀ f, result = .error f ↔ work.result = .error f)
    (hflush : call = .flush → (result = .ok (.flag true) ↔ work.result = .ok true)) :
    Turn.InBackground timeout limit watch ⟨call, work.answered result⟩ where
  fails f := (hfails f).trans (h.eq_error_iff f)
  flushed hcall := (hflush hcall).trans h.eq_true_iff
  handed := h.sent_iff
  limited := h.length_le
  unending := h.unending_iff

theorem ExportRound.collects {timeout limit : Number} {watch : Nat} {work : Work Bool}
    (h : ExportRound timeout limit watch work) : ∃ result, .collected result ∈ work.contacts := by
  cases h <;> exact ⟨_, List.mem_cons_self⟩

/-- **Before the shutdown** a turn is in the background.  A flush collects, and so does an interval
as long as there are intervals.  The turn leaves the reader as it is but for the intervals, which
end with one of them that fails. -/
theorem Turn.Follows.inBackground {watch : Nat} {c c' : Schedule} {t : Turn}
    (h : t.Follows watch c c') (hopen : c.isShutDown = false) (hcall : t.call ≠ .shutdown) :
    t.InBackground c.timeout c.attempts watch ∧
      (t.Collects ↔ t.call = .flush ∨ c.ticking = true) ∧
      ∃ ticking, c' = { c with ticking := ticking } ∧
        (ticking = true ↔
          c.ticking = true ∧ (t.call = .tick → ∀ f, t.work.result ≠ .error f)) := by
  cases h with
  | still hstill =>
    refine ⟨?_, ?_, c.ticking, rfl, ?_⟩
    · constructor <;> simp [ReaderCall.idle, IsUnending, Contact.outcomes]
    · simp [hstill, Collects, ReaderCall.idle]
    · simp [hstill]
  | ticked hticking hround hresult =>
    refine ⟨hround.inBackground (fun f => ?_) (fun hflush => by cases hflush), ?_,
      c.ticking, rfl, ?_⟩
    · simp [hresult]
    · exact iff_of_true hround.collects (Or.inr hticking)
    · simp [Work.answered]
  | ended hticking hround hresult =>
    refine ⟨hround.inBackground (fun f => ?_) (fun hflush => by cases hflush), ?_, false, rfl, ?_⟩
    · simp [hresult]
    · exact iff_of_true hround.collects (Or.inr hticking)
    · simp [Work.answered]
  | refused h => cases hopen.symm.trans h
  | @flushed _ work hround =>
    refine ⟨hround.inBackground (fun f => ?_) fun _ => ?_, ?_, c.ticking, rfl, ?_⟩
    · cases work.result <;> simp [Except.map]
    · cases work.result <;> simp [Except.map]
    · exact iff_of_true hround.collects (Or.inl rfl)
    · simp
  | repeated => exact absurd rfl hcall
  | torn => exact absurd rfl hcall
  | closed => exact absurd rfl hcall

/-- The turns of a reader with the schedule that is never shut down. -/
structure Background (c : Schedule) (watch : Nat) (calls : List ReaderCall) (turns : List Turn) :
    Prop where
  /-- The turns are those that the reader is asked for, all of them if each of them ends. -/
  asked : turns.map Turn.call <+: calls
  calls : (∀ t ∈ turns, ¬ t.IsUnending) → turns.map Turn.call = calls
  turn : ∀ t ∈ turns, t.InBackground c.timeout c.attempts watch
  /-- A flush always collects.  An interval does so if the reader has intervals and none has failed
  before. -/
  collects : ∀ {before t after}, turns = before ++ t :: after → (t.Collects ↔ t.call = .flush ∨
    (c.ticking = true ∧ ∀ u ∈ before, u.call = .tick → ∀ f, u.work.result ≠ .error f))

/-- **All turns** before the shutdown are in the background. -/
theorem Partners.turns_inBackground {κ : Type} (p : Partners κ) {s : Site κ}
    (hidle : s.schedule.inProgress = false) (hopen : s.schedule.isShutDown = false)
    {calls : List ReaderCall} (hcalls : .shutdown ∉ calls) :
    Background s.schedule p.watch calls (p.turns calls s) := by
  induction calls generalizing s with
  | nil => exact ⟨List.prefix_rfl, fun _ => rfl, by simp [turns], by simp [turns]⟩
  | cons call calls ih =>
    obtain ⟨hcall, hcalls⟩ := not_or.mp (List.mem_cons.not.mp hcalls)
    obtain ⟨hturn, hcollects, ticking, hleft, hticking⟩ :=
      (p.turn_follows hidle call).inBackground hopen (Ne.symm hcall)
    -- the first turn, and after it the turns of a reader that may have no intervals any more
    have hsplit : ∃ rest, p.turns (call :: calls) s = (p.turn call s).1 :: rest ∧ (rest = [] ∨
        Background { s.schedule with ticking := ticking } p.watch calls rest) := by
      by_cases h : (p.turn call s).1.IsUnending
      · exact ⟨[], p.turns_of_unending h calls, Or.inl rfl⟩
      · refine ⟨_, p.turns_of_ended h calls, Or.inr ?_⟩
        have hrest := ih (s := (p.turn call s).2) (by rwa [hleft]) (by rwa [hleft]) hcalls
        rwa [hleft] at hrest
    obtain ⟨rest, hturns, hrest⟩ := hsplit
    refine ⟨p.map_call_turns_prefix _ s, p.map_call_turns, ?_, ?_⟩
    · rw [hturns]
      intro t ht
      obtain rfl | ht := List.mem_cons.mp ht
      · exact hturn
      · obtain rfl | hrest := hrest
        · cases ht
        · exact hrest.turn t ht
    · rw [hturns]
      intro before t after ht
      cases before with
      | nil =>
        obtain ⟨rfl, -⟩ := List.cons.inj ht
        simpa using hcollects
      | cons u before =>
        obtain ⟨rfl, htail⟩ := List.cons.inj ht
        obtain rfl | hrest := hrest
        · simp at htail
        · rw [hrest.collects htail, List.forall_mem_cons, ← and_assoc, ← hticking]

/-! ### Starting -/

/-- **Exports in the background**, of a reader whose numbers were accepted.  The reader is made, and
it has intervals unless they are too large for a double or longer than anything that can be waited
for.  Its turns are what they can be with its longest delay. -/
theorem background_export {σ : Type} {s : System σ} {q : ScheduleRequest} (longest : Binary64)
    (e : Ref .exporter) (haccepted : q.errorIn? s.environment = none) :
    let c := q.scheduleIn s.environment longest e
    (∃ log, newPeriodicReader longest e q s
      = (.ok (s.readers.next, q.intervalIn s.environment), { s with
          log := log
          readers := s.readers.add ⟨none, true, .periodic c⟩ })) ∧
      (c.ticking = true ↔ ∃ seconds,
        Delivery.seconds? (q.intervalIn s.environment) = some seconds ∧
          longest.lt seconds = false) ∧
      ∀ {κ : Type} (p : Partners κ) (state : κ) {calls : List ReaderCall}, .shutdown ∉ calls →
        Background c p.watch calls (p.turns calls (.begin state c)) := by
  intro c
  refine ⟨newPeriodicReader_of_accepted longest e haccepted, Schedule.begins_iff, ?_⟩
  exact fun p state _ hcalls => p.turns_inBackground (s := .begin state c) rfl rfl hcalls

/-- Partners that always have something to export, and always take it. -/
def Partners.busy : Partners Unit where
  collect k := (.ok Delivery.fiveRequests, k)
  send _ k := (.success, k)
  close k := (none, k)
  watch := 0

/-- A longest delay that no double holds, in milliseconds. -/
def ScheduleRequest.endless : ScheduleRequest where
  timeout := some (.integer (Nat.pow 10 400))

/-- The numbers are accepted, and the first flush fails. -/
theorem background_export_of_huge_timeout :
    let c := ScheduleRequest.endless.scheduleIn OrderedMap.empty (.ofInt 9223372036) ⟨0⟩
    ScheduleRequest.endless.errorIn? OrderedMap.empty = none ∧
      ∃ turns, Partners.busy.turns [.flush] (.begin () c) = turns ∧ Background c 0 [.flush] turns ∧
        ∃ t, turns = [t] ∧ t.work.result = .error .tooLarge := by
  intro c
  have haccepted : ScheduleRequest.endless.errorIn? OrderedMap.empty = none := by decide +kernel
  have hcap : Delivery.seconds? c.timeout = none := by decide +kernel
  have hflush : .shutdown ∉ [ReaderCall.flush] := by decide
  have hbackground : Background c 0 [.flush] (Partners.busy.turns [.flush] (.begin () c)) :=
    (background_export (s := (System.empty : System Unit)) (.ofInt 9223372036) ⟨0⟩ haccepted).2.2
      Partners.busy () hflush
  have hended : ¬ (Partners.busy.turn .flush (.begin () c)).1.IsUnending := by decide +kernel
  have hturns := Partners.busy.turns_of_ended hended []
  refine ⟨haccepted, _, rfl, hbackground, _, hturns, ?_⟩
  have hturn := hbackground.turn _ (hturns ▸ List.mem_cons_self)
  exact (hturn.fails .tooLarge).mpr
    (Or.inl ⟨rfl, hcap, Delivery.fiveRequests, by decide, by decide +kernel⟩)

/-- A value recorder that has recorded 3, and a reader that waits for 10^400 milliseconds at most.
-/
def Session.endlessDelays : List Step :=
  [.clock (.create "clock" (some 5)),
    .exporter (.create "exporter" (.scripted [.success] [] 0 none)),
    .reader (.periodic "reader" "exporter" .endless),
    .provider (.create "provider"
      { clock := some "clock", readers := ["reader"], resource := .absent, disabled := none }),
    .provider (.requestMeter "provider" "meter" ⟨some "server", none⟩),
    .meter (.requestInstrument "meter" "size"
      { kind := .valueRecorder, name := .text "size", valueType := some (.numberClass .long) }),
    .instrument (.record "size" (.number (.integer 3)) .absent)]

/-- **A lost batch**: there is something to export.  The flush fails, the exporter has got nothing,
and the next collection has nothing of what was recorded. -/
theorem background_export_lost :
    let s := Session.after 1 Session.endlessDelays
    let f := flushReader (fun _ => pure ()) ⟨0⟩ s
    (collectReader (fun _ => pure ()) ⟨0⟩ s).1.map (fun metrics => metrics.length) = .ok 1 ∧
      f.1 = .error .tooLarge ∧
      f.2.exporters.get? ⟨0⟩ = some (.scripted [.success] [] 0 none) ∧
      (collectReader (fun _ => pure ()) ⟨0⟩ f.2).1 = .ok [] := by
  decide +kernel

end Metering
