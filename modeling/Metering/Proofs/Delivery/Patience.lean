import Metering.Proofs.Delivery.Attempts

/-!
# Deliveries that never end

Where nothing limits the attempts, an exporter may ask for more of them without end.  Such attempts
are followed for as long as somebody has the patience.  Attempts that end are reported in the same
way however long they are followed (`offer_of_ended`), and limited attempts always end
(`offer_ended_of_allowed`).

The exporters of this library are followed until their outcomes no longer change, and that is long
enough: if one of them still asks for more attempts then, it always will (`deliver_of_ended`).
-/

namespace Metering

namespace Delivery

variable {ε : Type}

theorem Report.answer_of_ended {r : Report} (h : r.ended = true) : r.answer = .ok r.delivered :=
  if_pos h

/-! ### Attempts -/

section

variable {send : ε → ExportOutcome × ε} {allowed : Option Nat} {cap : Binary64}
  {size fuel made : Nat} {e : ε}

/-- **More patience** makes no difference for attempts that have ended. -/
theorem attempt_of_ended (hended : (attempt send allowed cap size fuel made e).1.ended = true)
    {more : Nat} (hmore : fuel ≤ more) :
    attempt send allowed cap size more made e = attempt send allowed cap size fuel made e := by
  induction fuel generalizing made e more with
  | zero => cases hended
  | succ fuel ih =>
    obtain ⟨more, rfl⟩ : ∃ m, more = m + 1 := ⟨more - 1, by omega⟩
    cases hfirst : (send e).1.asksAgain with
    | false => rw [attempt_of_final hfirst, attempt_of_final hfirst]
    | true =>
      rw [attempt_of_again hfirst] at hended
      rw [attempt_of_again hfirst, attempt_of_again hfirst]
      split
      · rfl
      · next hless =>
        rw [if_neg hless] at hended
        rw [ih hended (by omega)]

/-- Attempts that nothing limits have not ended as long as every outcome asks for another one. -/
theorem attempt_unended_iff : (attempt send none cap size fuel made e).1.ended = false ↔
    ∀ o ∈ (answers send fuel e).1, o.asksAgain = true := by
  induction fuel generalizing made e with
  | zero => exact iff_of_true rfl (by simp [answers])
  | succ fuel ih =>
    rw [answers_succ, List.forall_mem_cons]
    cases hfirst : (send e).1.asksAgain with
    | false =>
      rw [attempt_of_final hfirst]
      simp [Report.told]
    | true =>
      rw [attempt_of_again hfirst, Option.any_none, if_neg Bool.false_ne_true]
      exact ih.trans (by simp)

end

/-! ### Offers -/

section

variable {send : List Metric → ε → ExportOutcome × ε} {patience : ε → Nat} {limit : Number}
  {cap : Binary64} {metrics : List Metric} {e : ε}

/-- **More patience** makes no difference for an offer that has ended. -/
theorem offer_of_ended (hended : (offer send patience limit cap metrics e).1.ended = true)
    (longer : ε → Nat) (hmore : patience e ≤ longer e) :
    offer send longer limit cap metrics e = offer send patience limit cap metrics e := by
  unfold offer at hended ⊢
  cases hlimit : allowed? limit with
  | some bound => rfl
  | none =>
    rw [hlimit] at hended
    exact attempt_of_ended hended hmore

/-- **Limited attempts** come to an end. -/
theorem offer_ended_of_allowed {bound : Nat} (hlimit : allowed? limit = some bound) :
    (offer send patience limit cap metrics e).1.ended = true := by
  have hfuel : followed limit (patience e) = (max 1 bound - 1) + 1 := by
    unfold followed
    rw [hlimit, Option.map_some, Option.getD_some]
    omega
  obtain ⟨again, last, report, e', -, -, -, hending, hoffer⟩ :=
    offer_told send patience e hfuel cap metrics
  rw [hoffer]
  cases hending with
  | final => rfl
  | dropped => rfl
  | endless _ _ hnone =>
    rw [hlimit] at hnone
    cases hnone

/-- **An offer has not ended** exactly if nothing limits the attempts and the exporter has asked for
another one as often as anybody had the patience. -/
theorem offer_unended_iff : (offer send patience limit cap metrics e).1.ended = false ↔
    allowed? limit = none ∧
      ∀ o ∈ (answers (send metrics) (patience e) e).1, o.asksAgain = true := by
  cases hlimit : allowed? limit with
  | some bound => simp [offer_ended_of_allowed hlimit]
  | none =>
    unfold offer
    rw [hlimit]
    simpa using attempt_unended_iff

end

end Delivery

/-! ### The exporters of this library -/

namespace Exporter

theorem answers_scripted (metrics : List Metric) (outcomes : List ExportOutcome) (n : Nat)
    (batches : List (List Metric)) (shutdowns : Nat) (failure : Option Failure) :
    (Delivery.answers (send metrics) n (.scripted outcomes batches shutdowns failure)).1
      = (List.range' batches.length n).map (outcomeAfter outcomes) := by
  induction n generalizing batches with
  | zero => rfl
  | succ n ih =>
    have hrest := ih (batches ++ [metrics])
    rw [List.length_append] at hrest
    rw [Delivery.answers_succ, List.range'_succ, List.map_cons]
    exact congrArg _ hrest

/-- After the whole script the outcomes no longer change. -/
theorem outcomeAfter_of_le {outcomes : List ExportOutcome} {j k : Nat} (hj : outcomes.length ≤ j)
    (hk : outcomes.length ≤ k) : outcomeAfter outcomes j = outcomeAfter outcomes k := by
  unfold outcomeAfter
  rw [List.getElem?_eq_none hj, List.getElem?_eq_none hk]

/-- **An exporter** that has asked for another attempt until its outcomes no longer change always
asks for another one. -/
theorem asksAgain_of_patience {e : Exporter} {metrics : List Metric}
    (h : ∀ o ∈ (Delivery.answers (send metrics) e.patience e).1, o.asksAgain = true) (n : Nat) :
    ∀ o ∈ (Delivery.answers (send metrics) n e).1, o.asksAgain = true := by
  cases e with
  | memory finished stopped =>
    -- the first outcome is final already
    cases stopped <;> cases h _ List.mem_cons_self
  | console format written => cases h _ List.mem_cons_self
  | scripted outcomes batches shutdowns failure =>
    rw [answers_scripted] at h ⊢
    simp only [List.forall_mem_map, List.mem_range'_1, patience] at h ⊢
    intro k hk
    by_cases hscript : k < batches.length + (outcomes.length + 1)
    · exact h k ⟨hk.1, hscript⟩
    · rw [outcomeAfter_of_le (k := batches.length + outcomes.length) (by omega) (by omega)]
      exact h _ ⟨by omega, by omega⟩

end Exporter

/-- **The patience of an exporter** is enough: a delivery that ends at all has ended by then. -/
theorem Delivery.deliver_of_ended {limit : Number} {cap : Binary64} {metrics : List Metric}
    {e : Exporter} {patience : Exporter → Nat}
    (hended : (offer Exporter.send patience limit cap metrics e).1.ended = true) :
    deliver limit cap metrics e = offer Exporter.send patience limit cap metrics e := by
  have hdelivered : (offer Exporter.send Exporter.patience limit cap metrics e).1.ended = true := by
    by_contra hunended
    obtain ⟨hlimit, hagain⟩ := offer_unended_iff.mp (Bool.eq_false_of_not_eq_true hunended)
    have hforever : (offer Exporter.send patience limit cap metrics e).1.ended = false :=
      offer_unended_iff.mpr ⟨hlimit, Exporter.asksAgain_of_patience hagain (patience e)⟩
    cases hended.symm.trans hforever
  rw [deliver_eq_offer]
  rcases Nat.le_total e.patience (patience e) with hle | hle
  · exact (offer_of_ended hdelivered patience hle).symm
  · exact offer_of_ended hended Exporter.patience hle

end Metering
