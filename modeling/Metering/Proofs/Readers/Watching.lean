import Metering.Proofs.Readers.Turns

/-!
# Watching a reader for longer

Attempts that nothing limits are watched for some time, and count as never ending if they have not
ended by then.  Whoever watches for longer sees the same turns up to the first that does not end,
and may see that turn end (`turns_of_patience`).  So the turns of a reader that always come to an
end do not depend on how long they are watched.
-/

namespace Metering

open Fallible

/-- The second computation does what the first one does, unless the first one never ends. -/
def Site.Extends {κ α : Type} (x x' : FallibleM (Site κ) α) : Prop :=
  ∀ s, .unending ∉ (x s).2.contacts → x' s = x s

/-- The reader is already in a turn that never ends. -/
def Site.IsLost {κ : Type} (s : Site κ) : Prop := .unending ∈ s.contacts

namespace Site.Extends

variable {κ α β : Type} {x x' : FallibleM (Site κ) α} {f f' : α → FallibleM (Site κ) β}

theorem refl (x : FallibleM (Site κ) α) : Extends x x := fun _ _ => rfl

theorem caught (h : Extends x x') : Extends (Fallible.caught x) (Fallible.caught x') := by
  intro s hs
  unfold Fallible.caught
  rw [h s hs]

/-- What follows does not find its way back from a turn that never ends. -/
theorem bind (h : Extends x x') (hf : ∀ a, Extends (f a) (f' a)) (hlost : ∀ a, Keeps IsLost (f a)) :
    Extends (x >>= f) (x' >>= f') := by
  intro s hs
  have hfirst : .unending ∉ (x s).2.contacts := by
    intro hmem
    refine hs ?_
    rw [bind_apply]
    rcases hx : x s with ⟨e | a, s₁⟩ <;> rw [hx] at hmem
    · exact hmem
    · exact hlost a s₁ hmem
  rw [bind_apply] at hs
  rw [bind_apply, bind_apply, h s hfirst]
  rcases hx : x s with ⟨e | a, s₁⟩
  · rfl
  · rw [hx] at hs
    exact hf a s₁ hs

end Site.Extends

namespace Partners

variable {κ : Type} (p : Partners κ)

/-- The same partners, of whom attempts without a limit are watched for so long. -/
def watching (n : Nat) : Partners κ := { p with watch := n }

theorem change_isLost (f : Schedule → Schedule) : Keeps Site.IsLost (p.surroundings.change f) :=
  fun _ hs => hs

theorem close_isLost : Keeps Site.IsLost p.surroundings.close :=
  fun _ hs => List.mem_append_left _ hs

theorem collectAndExport_isLost (c : Schedule) :
    Keeps Site.IsLost (p.surroundings.collectAndExport c) := by
  intro s hs
  obtain ⟨work, state, -, happly⟩ := p.collectAndExport_round c s
  rw [happly]
  exact List.mem_append_left _ hs

variable {p} {n : Nat} (hmore : p.watch ≤ n)
include hmore

theorem offer_extends (limit : Number) (cap : Binary64) (batch : List Metric) :
    Site.Extends (p.surroundings.offer limit cap batch)
      ((p.watching n).surroundings.offer limit cap batch) := by
  intro s hs
  have hended : (Delivery.offer p.sendNoted (fun _ => p.watch + 1) limit cap batch
      (s.state, s.contacts)).1.ended = true := by
    by_contra hunended
    refine hs ?_
    dsimp only [surroundings]
    rw [if_neg hunended]
    exact List.mem_append_right _ List.mem_cons_self
  have hsame := Delivery.offer_of_ended hended (fun _ => n + 1) (Nat.succ_le_succ hmore)
  dsimp only [surroundings]
  rw [← hsame]
  rfl

theorem collectAndExport_extends (c : Schedule) :
    Site.Extends (p.surroundings.collectAndExport c)
      ((p.watching n).surroundings.collectAndExport c) := by
  have hexport : ∀ batch, Site.Extends (p.surroundings.exportMetrics c batch)
      ((p.watching n).surroundings.exportMetrics c batch) := by
    intro batch
    unfold Surroundings.exportMetrics
    cases Delivery.seconds? c.timeout with
    | none => exact .refl _
    | some cap => exact offer_extends hmore _ cap batch
  have hcollect : caught (p.watching n).surroundings.collect = caught p.surroundings.collect := rfl
  intro s hs
  unfold Surroundings.collectAndExport at hs ⊢
  rw [bind_apply] at hs
  rw [bind_apply, bind_apply, hcollect]
  generalize caught p.surroundings.collect s = collected at hs ⊢
  obtain ⟨e | result, s₁⟩ := collected
  · rfl
  rcases result with f | _ | ⟨m, ms⟩
  · rfl
  · rfl
  · exact hexport (m :: ms) s₁ hs

/-- **More patience** makes no difference for a turn that ends. -/
theorem turn_of_patience {call : ReaderCall} {s : Site κ}
    (hended : ¬ (p.turn call s).1.IsUnending) : (p.watching n).turn call s = p.turn call s := by
  have hround := collectAndExport_extends hmore s.schedule
  have hanswer : Site.Extends (p.surroundings.answer s.schedule call)
      ((p.watching n).surroundings.answer s.schedule call) := by
    cases call with
    | tick =>
      refine .bind ?_ (fun _ => .refl _) (fun _ => .pure _)
      unfold Surroundings.tick
      split
      · refine .bind (.refl _) (fun _ => .bind hround.caught (fun _ => .refl _) fun result => ?_)
          fun _ => (p.collectAndExport_isLost s.schedule).caught.bind fun result => ?_
        -- after the round the interval ends in one way or the other
        all_goals
          refine (p.change_isLost _).bind fun _ => ?_
          cases result with
          | error f => exact (p.change_isLost _).bind fun _ => .throw f
          | ok b => exact .pure true
      · exact .refl _
    | flush =>
      refine .bind ?_ (fun _ => .refl _) (fun _ => .pure _)
      unfold Surroundings.flush
      split
      · exact .refl _
      · exact hround
    | shutdown =>
      refine .bind ?_ (fun _ => .refl _) (fun _ => .pure _)
      unfold Surroundings.shutdown
      split
      · exact .refl _
      · have hclose : ∀ f, Keeps Site.IsLost (do
            p.surroundings.change f
            p.surroundings.close) :=
          fun f => (p.change_isLost f).bind fun _ => p.close_isLost
        refine .bind (.refl _) (fun _ => ?_) fun _ => ?_
        · dsimp only
          split
          · exact .refl _
          · exact .bind hround (fun _ => .refl _) fun _ => hclose _
        · dsimp only
          split
          · exact (Keeps.throw _).bind fun _ =>
              (p.collectAndExport_isLost _).bind fun _ => hclose _
          · exact (p.collectAndExport_isLost _).bind fun _ => hclose _
  have hsame := hanswer s.clear hended
  unfold turn
  rw [hsame]

/-- **Whoever watches for longer** sees the same turns, if all of them end. -/
theorem turns_of_patience {calls : List ReaderCall} {s : Site κ}
    (hended : ∀ t ∈ p.turns calls s, ¬ t.IsUnending) :
    (p.watching n).turns calls s = p.turns calls s := by
  induction calls generalizing s with
  | nil => rfl
  | cons call calls ih =>
    by_cases h : (p.turn call s).1.IsUnending
    · rw [p.turns_of_unending h] at hended
      exact absurd h (hended _ List.mem_cons_self)
    · have hturn := turn_of_patience hmore h
      rw [p.turns_of_ended h] at hended
      rw [p.turns_of_ended h, turns_of_ended _ (by rwa [hturn]), hturn,
        ih fun t ht => hended t (List.mem_cons_of_mem _ ht)]

end Partners

end Metering
