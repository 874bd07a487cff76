import Metering.Proofs.Session.Steps
import Metering.Session.Run

/-!
# Reachable systems

A system is reachable if the steps of some program bring it about, whatever becomes of each of them:
a step that fails keeps what it has changed, and callbacks perform steps of their own while a step
is in progress.  Every reachable system is in order (`Reachable.inOrder`).  A step that collects
nothing leaves all windows as they are (`perform_rests`).
-/

namespace Metering

open Fallible

namespace System

/-- Nothing is out of order where nothing has been made. -/
theorem empty_inOrder {σ : Type} :
    InOrder System.empty (System.empty : System σ) where
  orderly := by
    refine ⟨[], fun _ _ => .foreign, ?_⟩
    constructor
    case steady => exact fun hi => nomatch hi
    case vacant => exact fun _ _ => rfl
    case apart => exact fun _ _ hi => absurd rfl hi
    case outside =>
      intro i hi
      cases hi with
      | named h => cases h
      | window hq => cases hq
      | accumulator hq => cases hq
    case handled => exact ⟨List.nodup_nil, fun b hb => nomatch hb⟩
    case owned => exact fun hx => nomatch hx
  registry := by
    constructor
    case named => exact fun hid => nomatch hid
    case clock => exact fun hx => nomatch hx
    case meter => exact fun hx => nomatch hx
    case owner => exact fun hy => nomatch hy
    case instrument => exact fun hy => nomatch hy
    case once => exact fun hy => nomatch hy
  evolves := .refl _

end System

namespace Session

/-- The system after the steps of a program, within which steps may nest to a given depth. -/
def after (depth : Nat) (steps : List Step) : System Step :=
  steps.foldl (fun s step => (advance depth step s).2) System.empty

/-- Some program brings the system about. -/
def Reachable (s : System Step) : Prop := ∃ depth steps, s = after depth steps

/-- How a callback performs a step, within which steps may nest to a given depth. -/
def nested (depth : Nat) (step : Step) : SystemM Step Unit := do
  let _ ← perform depth step

/-- A step keeps a system in order if, where it collects, collecting and calling back do so. -/
theorem perform_succ_keeps {R : Portrait Step → Portrait Step → Prop} [Portrait.Lasting R]
    {since : System Step} {depth : Nat} (step : Step)
    (hnested : step.collects = true → ∀ step, Keeps (InOrderBy R since) (nested depth step))
    (hcollect : step.collects = true → ∀ r time,
      Keeps (InOrderBy R since) (SystemM.collectInstrument (nested depth) r time)) :
    Keeps (InOrderBy R since) (perform (depth + 1) step) := by
  cases step with
  | environment x => exact x.keeps
  | clock x => exact x.keeps
  | aggregator x => exact x.keeps
  | processor x => exact x.keeps
  | accumulator x => exact x.keeps hnested
  | sink x => exact x.keeps
  | provider x => exact x.keeps hcollect
  | meter x => exact x.keeps hcollect
  | instrument x => exact x.keeps hcollect
  | handle x => exact x.keeps
  | exporter x => exact x.keeps hcollect
  | reader x => exact x.keeps hcollect

/-- **A step** keeps a system in order, whatever steps its callbacks perform. -/
theorem perform_keeps (depth : Nat) (step : Step) (since : System Step) :
    Keeps (InOrder since) (perform depth step) := by
  induction depth generalizing step since with
  | zero => exact .throw _
  | succ depth ih =>
    have hnested : ∀ since step, Keeps (InOrder since) (nested depth step) :=
      fun since step => (ih step since).bind fun _ => .pure _
    exact perform_succ_keeps step (fun _ => hnested since)
      fun _ => InOrder.collectInstrument hnested

/-- **A step that collects nothing** leaves processors and windows as they are. -/
theorem perform_rests (depth : Nat) {step : Step} (hstep : step.collects = false)
    (since : System Step) : Keeps (InOrderBy Portrait.Rests since) (perform depth step) := by
  cases depth with
  | zero => exact .throw _
  | succ depth =>
    have hnever : step.collects ≠ true := Bool.eq_false_iff.mp hstep
    exact perform_succ_keeps step (fun h => absurd h hnever) fun h => absurd h hnever

theorem nested_keeps (depth : Nat) (since : System Step) (step : Step) :
    Keeps (InOrder since) (nested depth step) :=
  (perform_keeps depth step since).bind fun _ => .pure _

theorem calm_inOrder {R : Portrait Step → Portrait Step → Prop} [Portrait.Lasting R]
    {since s : System Step} (h : InOrderBy R since s) : InOrderBy R since (calm s) :=
  InOrderBy.ofCore (s := s) ⟨⟨rfl, rfl, rfl, rfl, rfl, rfl⟩, rfl, rfl, rfl⟩ h

theorem advance_inOrder {since s : System Step} (h : InOrder since s) (depth : Nat)
    (step : Step) : InOrder since (advance depth step s).2 :=
  perform_keeps depth step since _ (calm_inOrder h)

/-- **Every reachable system is in order.** -/
theorem Reachable.inOrder {s : System Step} (h : Reachable s) : InOrder System.empty s := by
  obtain ⟨depth, steps, rfl⟩ := h
  unfold after
  have hrun : ∀ s : System Step, InOrder System.empty s →
      InOrder System.empty (steps.foldl (fun s step => (advance depth step s).2) s) := by
    induction steps with
    | nil => exact fun s hs => hs
    | cons step steps ih => exact fun s hs => ih _ (advance_inOrder hs depth step)
  exact hrun _ System.empty_inOrder

end Session

end Metering
