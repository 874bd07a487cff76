import Metering.Proofs.Readers.Turns

/-!
# From the first interval to the last

As long as a periodic reader has not been shut down every turn collects once, and hands on what it
has collected.  The first shutdown does so for the last time and then shuts the exporter down; after
that the reader does not turn to its partners any more.

What passes between the reader and its partners in all its turns is a `Journal`: rounds that begin
with a collection, and shutting the exporter down at the very end.

Two things may be different.  A reader without intervals does nothing when it is asked to let one
pass.  And where nothing limits the attempts the exporter may ask for more of them without end; the
journal ends there, and so does the life of the reader (`Lifecycle.unending`).
-/

namespace Metering

/-! ### Journals -/

/-- What follows a collection: the batch is handed to the exporter, at least once, unless there is
none. -/
inductive Contact.Handed : Except Failure (List Metric) → List Contact → Prop
  | failed (f : Failure) : Handed (.error f) []
  | empty : Handed (.ok []) []
  | batch {batch : List Metric} (hbatch : batch ≠ []) {outcomes : List ExportOutcome}
      (houtcomes : outcomes ≠ []) : Handed (.ok batch) (outcomes.map (.sent batch))

/-- Nothing comes after it. -/
def Contact.IsLast : Contact → Prop
  | closed _ | unending => True
  | collected _ | sent .. => False

/-- Rounds, each of which begins with a collection and hands on what there is, and at the end the
exporter may be shut down, or ask for more attempts without end. -/
inductive Journal : List Contact → Prop
  | nil : Journal []
  | round {result : Except Failure (List Metric)} {sends rest : List Contact}
      (h : Contact.Handed result sends) (hrest : Journal rest) :
      Journal (.collected result :: (sends ++ rest))
  | last {x : Contact} (h : x.IsLast) : Journal [x]

theorem Contact.Handed.exists_sent {result : Except Failure (List Metric)} {sends : List Contact}
    (h : Handed result sends) {x : Contact} (hx : x ∈ sends) :
    ∃ batch outcome, x = .sent batch outcome := by
  cases h with
  | failed f => cases hx
  | empty => cases hx
  | @batch batch _ outcomes _ =>
    obtain ⟨outcome, -, rfl⟩ := List.mem_map.mp hx
    exact ⟨batch, outcome, rfl⟩

namespace Journal

variable {before after rest : List Contact} {batch : List Metric} {outcome : ExportOutcome}

/-- An export is not the first contact. -/
theorem ne_sent (h : Journal rest) : rest ≠ .sent batch outcome :: after := by
  cases h with
  | nil => simp
  | round => simp
  | last hlast =>
    rintro hsent
    obtain ⟨rfl, -⟩ := List.cons.inj hsent
    exact hlast

/-- **From a collection** or from the end on a journal is one again. -/
theorem suffix {x : Contact} (h : Journal (before ++ x :: after))
    (hx : ∀ batch outcome, x ≠ .sent batch outcome) : Journal (x :: after) := by
  generalize hall : before ++ x :: after = all at h
  induction h generalizing before with
  | nil => simp at hall
  | last hlast =>
    obtain ⟨rfl, hsingle⟩ | ⟨-, hnil⟩ := List.append_eq_singleton_iff.mp hall
    · rw [hsingle]
      exact .last hlast
    · cases hnil
  | @round result sends rest hhanded hrest ih =>
    cases before with
    | nil =>
      rw [List.nil_append] at hall
      rw [hall]
      exact .round hhanded hrest
    | cons y before =>
      obtain ⟨-, hall⟩ := List.cons.inj hall
      obtain ⟨more, hsends, hafter⟩ | ⟨more, -, hrest'⟩ := List.append_eq_append_iff.mp hall
      · -- the contact would be among the exports
        cases more with
        | nil =>
          exact ih (show [] ++ x :: after = rest from hafter)
        | cons z more =>
          obtain ⟨rfl, -⟩ := List.cons.inj hafter
          obtain ⟨batch, outcome, hsent⟩ :=
            hhanded.exists_sent (hsends ▸ List.mem_append_right before List.mem_cons_self)
          exact absurd hsent (hx batch outcome)
      · exact ih hrest'.symm

/-- **Nothing follows** once the exporter has been shut down, or asks for attempts without end. -/
theorem eq_nil_of_isLast {x : Contact} (hx : x.IsLast) (h : Journal (before ++ x :: after)) :
    after = [] := by
  have hend := h.suffix fun _ _ hsent => by rwa [hsent] at hx
  cases hend with
  | round => exact hx.elim
  | last => rfl

/-- **A batch** that was collected is handed on before anything else happens. -/
theorem handed (h : Journal (before ++ .collected (.ok batch) :: after)) (hbatch : batch ≠ []) :
    ∃ (outcomes : List ExportOutcome) (rest : List Contact),
      outcomes ≠ [] ∧ after = outcomes.map (.sent batch) ++ rest ∧
      ∀ other outcome, rest.head? ≠ some (.sent other outcome) := by
  have hround := h.suffix (x := .collected (.ok batch)) (by simp)
  cases hround with
  | @round _ _ rest hhanded hrest =>
    cases hhanded with
    | empty => exact absurd rfl hbatch
    | @batch _ _ outcomes houtcomes =>
      refine ⟨outcomes, rest, houtcomes, rfl, fun other outcome hhead => ?_⟩
      obtain ⟨more, rfl⟩ := List.head?_eq_some_iff.mp hhead
      exact hrest.ne_sent rfl
  | last hlast => exact hlast.elim

/-- **An export** is one of the batch that was collected last, which is not empty. -/
theorem traced (h : Journal (before ++ .sent batch outcome :: after)) :
    batch ≠ [] ∧ ∃ (earlier : List Contact) (outcomes : List ExportOutcome),
      before = earlier ++ .collected (.ok batch) :: outcomes.map (.sent batch) := by
  generalize hall : before ++ .sent batch outcome :: after = all at h
  induction h generalizing before with
  | nil => simp at hall
  | last hlast =>
    obtain ⟨-, hsingle⟩ | ⟨-, hnil⟩ := List.append_eq_singleton_iff.mp hall
    · obtain ⟨rfl, -⟩ := List.cons.inj hsingle
      exact hlast.elim
    · cases hnil
  | @round result sends rest hhanded hrest ih =>
    cases before with
    | nil => cases hall
    | cons y before =>
      obtain ⟨rfl, htail⟩ := List.cons.inj hall
      obtain ⟨more, hsends, hafter⟩ | ⟨more, rfl, hrest'⟩ := List.append_eq_append_iff.mp htail
      · cases more with
        | nil => exact absurd hafter.symm hrest.ne_sent
        | cons z more =>
          obtain ⟨rfl, -⟩ := List.cons.inj hafter
          cases hhanded with
          | failed f => simp at hsends
          | empty => simp at hsends
          | @batch own hbatch outcomes _ =>
            obtain ⟨first, others, rfl, rfl, hothers⟩ := List.map_eq_append_iff.mp hsends
            obtain ⟨o, os, rfl, hsent, -⟩ := List.map_eq_cons_iff.mp hothers
            obtain ⟨rfl, -⟩ := Contact.sent.inj hsent
            exact ⟨hbatch, [], first, rfl⟩
      · obtain ⟨hbatch, earlier, outcomes, rfl⟩ := ih hrest'.symm
        refine ⟨hbatch, .collected result :: (sends ++ earlier), outcomes, ?_⟩
        rw [List.cons_append, List.append_assoc]

end Journal

/-! ### Phases -/

/-- A turn collects once and hands on what there is, and these contacts follow. -/
def Turn.Exports (t : Turn) (endings : List Contact) : Prop :=
  ∃ result sends, t.work.contacts = .collected result :: (sends ++ endings) ∧
    Contact.Handed result sends

/-- Whether a turn never ends shows in what comes after its round. -/
theorem Turn.Exports.isUnending_iff {t : Turn} {endings : List Contact} (h : t.Exports endings) :
    t.IsUnending ↔ .unending ∈ endings := by
  obtain ⟨result, sends, hcontacts, hhanded⟩ := h
  have hsends : .unending ∉ sends := by
    intro hmem
    obtain ⟨batch, outcome, hsent⟩ := hhanded.exists_sent hmem
    cases hsent
  unfold Turn.IsUnending
  rw [hcontacts]
  simp [hsends]

/-- A schedule after the reader has been shut down. -/
structure Schedule.Over (c : Schedule) : Prop where
  ticking : c.ticking = false
  inProgress : c.inProgress = false
  isShutDown : c.isShutDown = true

/-- The turns of a reader with the schedule: those before the first shutdown, the shutdown itself,
and those that come too late. -/
inductive Phases (c : Schedule) : List Turn → Prop
  | nil : Phases c []
  /-- A reader without intervals is asked to let one pass. -/
  | still {t : Turn} {ts : List Turn} (hcall : t.call = .tick) (hticking : c.ticking = false)
      (h : t.work = t.call.idle) (hrest : Phases c ts) : Phases c (t :: ts)
  | working {t : Turn} {ts : List Turn} (hcall : t.call ≠ .shutdown)
      (hticking : t.call = .tick → c.ticking = true) (h : t.Exports []) (hrest : Phases c ts) :
      Phases c (t :: ts)
  | unending {t : Turn} (hticking : t.call = .tick → c.ticking = true)
      (hlimit : Delivery.allowed? c.attempts = none) (h : t.Exports [.unending])
      (hresult : t.work.result = .error .endless) : Phases c [t]
  | closing {t : Turn} {ts : List Turn} (hcall : t.call = .shutdown) (failure : Option Failure)
      (h : t.Exports [.closed failure])
      (hresult : t.work.result = Exporter.closing .nothing failure)
      (hrest : ∀ u ∈ ts, u.work = u.call.idle) : Phases c (t :: ts)

namespace ExportRound

variable {timeout limit : Number} {watch : Nat} {work : Work Bool}
  (h : ExportRound timeout limit watch work)
include h

/-- A round that does not fail hands on what it has collected. -/
theorem handed_of_ok {b : Bool} (hok : work.result = .ok b) :
    ∃ result sends, work.contacts = .collected result :: sends ∧ Contact.Handed result sends := by
  cases h with
  | failed f => exact ⟨_, [], rfl, .failed f⟩
  | empty => exact ⟨_, [], rfl, .empty⟩
  | lost => cases hok
  | offered hbatch => exact ⟨_, _, rfl, .batch hbatch (by simp)⟩
  | unending => cases hok

theorem exports_of_ok {b : Bool} (hok : work.result = .ok b) (call : ReaderCall)
    (result : Except Failure Answer) : Turn.Exports ⟨call, work.answered result⟩ [] := by
  obtain ⟨collected, sends, hcontacts, hhanded⟩ := h.handed_of_ok hok
  refine ⟨collected, sends, ?_, hhanded⟩
  rw [List.append_nil]
  exact hcontacts

/-- If there is a longest delay a round fails only if it never ends.  Then nothing limits the
attempts, and the round still hands on what it has collected. -/
theorem exports_of_error {cap : Binary64} (hcap : Delivery.seconds? timeout = some cap)
    {f : Failure} (herror : work.result = .error f) :
    Delivery.allowed? limit = none ∧ f = .endless ∧ ∀ (call : ReaderCall)
      (result : Except Failure Answer), Turn.Exports ⟨call, work.answered result⟩ [.unending] := by
  cases h with
  | failed => cases herror
  | empty => cases herror
  | lost _ hnone => cases hcap.symm.trans hnone
  | offered => cases herror
  | unending hbatch _ _ hlimit hlength =>
    have hsome := List.ne_nil_of_length_eq_add_one hlength
    exact ⟨hlimit, (Except.error.inj herror).symm, fun _ _ => ⟨_, _, rfl, .batch hbatch hsome⟩⟩

end ExportRound

namespace Turn.Follows

variable {watch : Nat} {c c' : Schedule} {t : Turn}

/-- After the shutdown a turn does nothing, and leaves everything as it is. -/
theorem of_over (h : t.Follows watch c c') (hover : c.Over) :
    t.work = t.call.idle ∧ c' = c := by
  have hticking := hover.ticking
  have hshut := hover.isShutDown
  cases h with
  | still => exact ⟨rfl, rfl⟩
  | refused => exact ⟨rfl, rfl⟩
  | repeated => exact ⟨rfl, rfl⟩
  | ticked h => cases hticking.symm.trans h
  | ended h => cases hticking.symm.trans h
  | flushed h => cases hshut.symm.trans h
  | torn h => cases hshut.symm.trans h
  | closed h => cases hshut.symm.trans h

/-- Before the shutdown a turn exports, unless it is an interval of a reader that has none.  It
leaves the schedule as it is or ends it, or it never ends. -/
theorem of_going (h : t.Follows watch c c') (hgoing : c.Going) {cap : Binary64}
    (hcap : Delivery.seconds? c.timeout = some cap) :
    (t.call = .tick ∧ c.ticking = false ∧ t.work = t.call.idle ∧ c' = c) ∨
      (t.call ≠ .shutdown ∧ (t.call = .tick → c.ticking = true) ∧ t.Exports [] ∧ c' = c) ∨
      ((t.call = .tick → c.ticking = true) ∧ Delivery.allowed? c.attempts = none ∧
        t.Exports [.unending] ∧ t.work.result = .error .endless) ∨
      (t.call = .shutdown ∧ c'.Over ∧ ∃ failure, t.Exports [.closed failure] ∧
        t.work.result = Exporter.closing .nothing failure) := by
  have hshut := hgoing.isShutDown
  cases h with
  | still h => exact Or.inl ⟨rfl, h, rfl, rfl⟩
  | refused h => cases hshut.symm.trans h
  | repeated h => cases hshut.symm.trans h
  | ticked hticking hround hok =>
    exact Or.inr (Or.inl ⟨by simp, fun _ => hticking, hround.exports_of_ok hok _ _, rfl⟩)
  | ended hticking hround herror =>
    obtain ⟨hlimit, rfl, hexports⟩ := hround.exports_of_error hcap herror
    exact Or.inr (Or.inr (Or.inl ⟨fun _ => hticking, hlimit, hexports _ _, rfl⟩))
  | @flushed _ work hround =>
    cases hresult : work.result with
    | ok b =>
      exact Or.inr (Or.inl ⟨by simp, by simp, hround.exports_of_ok hresult _ _, rfl⟩)
    | error f =>
      obtain ⟨hlimit, rfl, hexports⟩ := hround.exports_of_error hcap hresult
      exact Or.inr (Or.inr (Or.inl ⟨by simp, hlimit, hexports _ _, rfl⟩))
  | torn _ hround herror =>
    obtain ⟨hlimit, rfl, hexports⟩ := hround.exports_of_error hcap herror
    exact Or.inr (Or.inr (Or.inl ⟨by simp, hlimit, hexports _ _, rfl⟩))
  | closed _ hround hok failure =>
    -- shutting the exporter down comes after what was handed on
    obtain ⟨result, sends, hcontacts, hhanded⟩ := hround.handed_of_ok hok
    refine Or.inr (Or.inr (Or.inr
      ⟨rfl, ⟨rfl, hgoing.inProgress, rfl⟩, failure, ⟨result, sends, ?_, hhanded⟩, rfl⟩))
    dsimp only
    rw [hcontacts]
    rfl

end Turn.Follows

theorem ReaderCall.contacts_idle (call : ReaderCall) : call.idle.contacts = [] := by
  cases call <;> rfl

/-- A turn that does nothing ends. -/
theorem Turn.not_isUnending_of_idle {t : Turn} (h : t.work = t.call.idle) : ¬ t.IsUnending := by
  unfold Turn.IsUnending
  rw [h, ReaderCall.contacts_idle]
  simp

namespace Partners

variable {κ : Type} (p : Partners κ) {s : Site κ}

theorem turns_of_over (hover : s.schedule.Over) (calls : List ReaderCall) :
    ∀ u ∈ p.turns calls s, u.work = u.call.idle := by
  induction calls generalizing s with
  | nil => simp [turns]
  | cons call calls ih =>
    obtain ⟨hidle, hsame⟩ := (p.turn_follows hover.inProgress call).of_over hover
    rw [p.turns_of_ended (Turn.not_isUnending_of_idle hidle)]
    intro u hu
    obtain rfl | hu := List.mem_cons.mp hu
    · exact hidle
    · have hover' : (p.turn call s).2.schedule.Over := by rw [hsame]; exact hover
      exact ih hover' u hu

/-- **One turn after the other** a reader goes through its phases. -/
theorem turns_phases (hgoing : s.schedule.Going) {cap : Binary64}
    (hcap : Delivery.seconds? s.schedule.timeout = some cap) (calls : List ReaderCall) :
    Phases s.schedule (p.turns calls s) := by
  induction calls generalizing s with
  | nil => exact .nil
  | cons call calls ih =>
    -- a turn that leaves the schedule as it is leaves everything for the next one
    have hnext : (p.turn call s).2.schedule = s.schedule →
        Phases s.schedule (p.turns calls (p.turn call s).2) := by
      intro hsame
      have hrest := ih (s := (p.turn call s).2) (by rwa [hsame]) (by rwa [hsame])
      rwa [hsame] at hrest
    obtain ⟨hcall, hticking, hidle, hsame⟩ | ⟨hcall, hticking, hexports, hsame⟩ |
      ⟨hticking, hlimit, hexports, hresult⟩ | ⟨hcall, hover, failure, hexports, hresult⟩ :=
        (p.turn_follows hgoing.inProgress call).of_going hgoing hcap
    · rw [p.turns_of_ended (Turn.not_isUnending_of_idle hidle)]
      exact .still hcall hticking hidle (hnext hsame)
    · rw [p.turns_of_ended (by simp [hexports.isUnending_iff])]
      exact .working hcall hticking hexports (hnext hsame)
    · rw [p.turns_of_unending (by simp [hexports.isUnending_iff])]
      exact .unending hticking hlimit hexports hresult
    · rw [p.turns_of_ended (by simp [hexports.isUnending_iff])]
      exact .closing hcall failure hexports hresult (p.turns_of_over hover calls)

end Partners

/-! ### Lifecycles -/

/-- What passes between a reader and its partners in its turns. -/
def Turn.journal (turns : List Turn) : List Contact := turns.flatMap (·.work.contacts)

/-- The life of a reader with the schedule that is asked one thing after the other. -/
structure Lifecycle (c : Schedule) (calls : List ReaderCall) (turns : List Turn) : Prop where
  /-- The turns are those that the reader is asked for, all of them if each of them ends. -/
  asked : turns.map Turn.call <+: calls
  calls : (∀ t ∈ turns, ¬ t.IsUnending) → turns.map Turn.call = calls
  /-- A turn that never ends is the last one.  It takes place before the first shutdown has ended,
  where nothing limits the attempts, and hands on what it has collected. -/
  unending : ∀ {before t after}, turns = before ++ t :: after → t.IsUnending →
    after = [] ∧ .shutdown ∉ before.map Turn.call ∧ Delivery.allowed? c.attempts = none ∧
      t.Exports [.unending] ∧ t.work.result = .error .endless
  /-- Until the first shutdown every turn collects once, and hands on what there is. -/
  exports : ∀ {before t after}, turns = before ++ t :: after →
    .shutdown ∉ before.map Turn.call → t.call ≠ .shutdown → (t.call = .tick → c.ticking = true) →
      ¬ t.IsUnending → t.Exports []
  /-- A reader without intervals does nothing when it is asked to let one pass. -/
  still : ∀ {t}, t ∈ turns → t.call = .tick → c.ticking = false → t.work = t.call.idle
  /-- The first shutdown does so for the last time, and then shuts the exporter down. -/
  closes : ∀ {before t after}, turns = before ++ t :: after →
    .shutdown ∉ before.map Turn.call → t.call = .shutdown → ¬ t.IsUnending →
      ∃ failure, t.Exports [.closed failure] ∧
        t.work.result = Exporter.closing .nothing failure
  /-- After the first shutdown nothing happens any more. -/
  idle : ∀ {before t after}, turns = before ++ t :: after →
    .shutdown ∈ before.map Turn.call → t.work = t.call.idle
  /-- The exporter is shut down at the very end. -/
  last : ∀ {before failure after},
    Turn.journal turns = before ++ .closed failure :: after → after = []
  /-- A batch that was collected is handed on before anything else happens. -/
  handed : ∀ {before batch after},
    Turn.journal turns = before ++ .collected (.ok batch) :: after → batch ≠ [] →
      ∃ (outcomes : List ExportOutcome) (rest : List Contact),
        outcomes ≠ [] ∧ after = outcomes.map (.sent batch) ++ rest ∧
        ∀ other outcome, rest.head? ≠ some (.sent other outcome)
  /-- An export is one of the batch that was collected last, which is not empty. -/
  traced : ∀ {before batch outcome after},
    Turn.journal turns = before ++ .sent batch outcome :: after →
      batch ≠ [] ∧ ∃ (earlier : List Contact) (outcomes : List ExportOutcome),
        before = earlier ++ .collected (.ok batch) :: outcomes.map (.sent batch)

namespace Phases

variable {c : Schedule} {turns : List Turn}

theorem journal (h : Phases c turns) : Journal (Turn.journal turns) := by
  unfold Turn.journal
  induction h with
  | nil => exact .nil
  | still _ _ hidle _ ih =>
    rw [List.flatMap_cons, hidle, ReaderCall.contacts_idle]
    exact ih
  | working _ _ hexports _ ih =>
    obtain ⟨result, sends, hcontacts, hhanded⟩ := hexports
    rw [List.flatMap_cons, hcontacts, List.append_nil]
    exact .round hhanded ih
  | unending _ _ hexports =>
    obtain ⟨result, sends, hcontacts, hhanded⟩ := hexports
    rw [List.flatMap_cons, hcontacts, List.flatMap_nil, List.append_nil]
    exact .round hhanded (.last trivial)
  | @closing t ts _ failure hexports _ hrest =>
    obtain ⟨result, sends, hcontacts, hhanded⟩ := hexports
    have hquiet : ts.flatMap (·.work.contacts) = [] := by
      rw [List.flatMap_eq_nil_iff]
      intro u hu
      rw [hrest u hu, ReaderCall.contacts_idle]
    rw [List.flatMap_cons, hcontacts, hquiet, List.append_nil]
    exact .round hhanded (.last trivial)

/-- Where a turn stands among the others. -/
theorem split {before after : List Turn} {t : Turn} (h : Phases c (before ++ t :: after)) :
    (.shutdown ∈ before.map Turn.call ∧ t.work = t.call.idle) ∨
      (.shutdown ∉ before.map Turn.call ∧ Phases c (t :: after)) := by
  induction before with
  | nil => exact Or.inr ⟨by simp, h⟩
  | cons u before ih =>
    have hlater : u.call ≠ .shutdown → Phases c (before ++ t :: after) →
        (.shutdown ∈ (u :: before).map Turn.call ∧ t.work = t.call.idle) ∨
          (.shutdown ∉ (u :: before).map Turn.call ∧ Phases c (t :: after)) := by
      intro hcall hrest
      rw [List.map_cons, List.mem_cons, not_or]
      obtain ⟨hmem, hidle⟩ | ⟨hmem, hphases⟩ := ih hrest
      · exact Or.inl ⟨Or.inr hmem, hidle⟩
      · exact Or.inr ⟨⟨Ne.symm hcall, hmem⟩, hphases⟩
    generalize hts : before ++ t :: after = ts at h hlater
    rw [List.cons_append, hts] at h
    cases h with
    | still hcall _ _ hrest => exact hlater (by simp [hcall]) hrest
    | working hcall _ _ hrest => exact hlater hcall hrest
    | unending => simp at hts
    | closing hcall _ _ _ hrest =>
      refine Or.inl ⟨?_, hrest t (hts ▸ by simp)⟩
      rw [List.map_cons, hcall]
      exact List.mem_cons_self

end Phases

/-- **The life of a periodic reader** whose delays are bounded, whatever it collects from and
whatever its exporter does. -/
theorem reader_lifecycle {κ : Type} (p : Partners κ) {s : Site κ} (hgoing : s.schedule.Going)
    {cap : Binary64} (hcap : Delivery.seconds? s.schedule.timeout = some cap)
    (calls : List ReaderCall) : Lifecycle s.schedule calls (p.turns calls s) := by
  have hphases := p.turns_phases hgoing hcap calls
  have hjournal := hphases.journal
  constructor
  case asked => exact p.map_call_turns_prefix calls s
  case calls => exact p.map_call_turns
  case unending =>
    intro before t after hturns hunending
    rw [hturns] at hphases
    obtain ⟨-, hidle⟩ | ⟨hmem, hrest⟩ := hphases.split
    · exact absurd hunending (Turn.not_isUnending_of_idle hidle)
    cases hrest with
    | still _ _ hidle => exact absurd hunending (Turn.not_isUnending_of_idle hidle)
    | working _ _ hexports => simp [hexports.isUnending_iff] at hunending
    | unending _ hlimit hexports hresult => exact ⟨rfl, hmem, hlimit, hexports, hresult⟩
    | closing _ _ hexports => simp [hexports.isUnending_iff] at hunending
  case exports =>
    intro before t after hturns hbefore hcall hticking hended
    rw [hturns] at hphases
    obtain ⟨hmem, -⟩ | ⟨-, hrest⟩ := hphases.split
    · exact absurd hmem hbefore
    cases hrest with
    | still htick hstill => cases hstill.symm.trans (hticking htick)
    | working _ _ hexports => exact hexports
    | unending _ _ hexports => simp [hexports.isUnending_iff] at hended
    | closing hshutdown => exact absurd hshutdown hcall
  case still =>
    intro t ht hcall hstill
    obtain ⟨before, after, hturns⟩ := List.append_of_mem ht
    rw [hturns] at hphases
    obtain ⟨-, hidle⟩ | ⟨-, hrest⟩ := hphases.split
    · exact hidle
    cases hrest with
    | still _ _ hidle => exact hidle
    | working _ hticking => cases hstill.symm.trans (hticking hcall)
    | unending hticking => cases hstill.symm.trans (hticking hcall)
    | closing hshutdown => cases hcall.symm.trans hshutdown
  case closes =>
    intro before t after hturns hbefore hcall hended
    rw [hturns] at hphases
    obtain ⟨hmem, -⟩ | ⟨-, hrest⟩ := hphases.split
    · exact absurd hmem hbefore
    cases hrest with
    | still htick => cases hcall.symm.trans htick
    | working hother => exact absurd hcall hother
    | unending _ _ hexports => simp [hexports.isUnending_iff] at hended
    | closing _ failure hexports hresult _ => exact ⟨failure, hexports, hresult⟩
  case idle =>
    intro before t after hturns hbefore
    rw [hturns] at hphases
    obtain ⟨-, hidle⟩ | ⟨hmem, -⟩ := hphases.split
    · exact hidle
    · exact absurd hbefore hmem
  case last =>
    intro before failure after hall
    rw [hall] at hjournal
    exact hjournal.eq_nil_of_isLast (x := .closed failure) trivial
  case handed =>
    intro before batch after hall hbatch
    rw [hall] at hjournal
    exact hjournal.handed hbatch
  case traced =>
    intro before batch outcome after hall
    rw [hall] at hjournal
    exact hjournal.traced

/-- Every other collection fails.  The exporter asks for another attempt twice, takes the batch
then, refuses whatever comes after it, and fails to shut down. -/
def Partners.wavering : Partners (Nat × Nat) where
  collect n :=
    (if n.1 % 2 = 0 then .ok Delivery.fiveRequests
      else .error (.raised .failedOperation "connection refused"), n.1 + 1, n.2)
  send _ n := (if n.2 < 2 then .retryable else if n.2 = 2 then .success else .rejected, n.1, n.2 + 1)
  close n := (some (.raised .failedOperation "exporter shutdown failed"), n)
  watch := 0

/-- A reader that exports every minute, and waits for three seconds at most. -/
def Schedule.everyMinute : Schedule where
  exporter := ⟨0⟩
  interval := .integer 60000
  timeout := .integer 3000
  attempts := .integer 5
  ticking := true
  inProgress := false
  isShutDown := false

/-- The last batch is refused, and the exporter fails to shut down. -/
theorem reader_lifecycle_of_failed_shutdown :
    Schedule.everyMinute.Going ∧
      (∃ cap, Delivery.seconds? Schedule.everyMinute.timeout = some cap) ∧
      ∃ turns, Partners.wavering.turns [.tick, .flush, .shutdown, .tick, .flush, .shutdown]
          (.begin (0, 0) .everyMinute) = turns ∧
        Lifecycle .everyMinute [.tick, .flush, .shutdown, .tick, .flush, .shutdown] turns ∧
        turns.map (·.work.contacts.length) = [4, 1, 3, 0, 0, 0] := by
  have hgoing : Schedule.everyMinute.Going := ⟨rfl, rfl⟩
  have hcap : Delivery.seconds? Schedule.everyMinute.timeout = some (Binary64.ofInt 3) := by
    decide +kernel
  refine ⟨hgoing, ⟨_, hcap⟩, _, rfl, ?_, ?_⟩
  · exact reader_lifecycle Partners.wavering (s := .begin (0, 0) .everyMinute) hgoing hcap _
  · decide +kernel

/-- Always asks for another attempt. -/
def Partners.insatiable : Partners Unit where
  collect k := (.ok Delivery.fiveRequests, k)
  send _ k := (.retryable, k)
  close k := (none, k)
  watch := 2

/-- Nothing limits the attempts, so the first flush never ends, and the shutdown is out of reach. -/
example : (Partners.insatiable.turns [.tick, .flush, .shutdown] (.begin ()
    { Schedule.everyMinute with attempts := .double (.infinity false), ticking := false })).map
      (fun t => (t.call, decide t.IsUnending)) = [(.tick, false), (.flush, true)] := by
  decide +kernel

end Metering
