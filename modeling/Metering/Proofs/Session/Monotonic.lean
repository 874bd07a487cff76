import Metering.Proofs.Pipeline.Monotonic
import Metering.Proofs.Session.Reachable

/-!
# Monotonic streams in any reachable system

An instrument of a reachable system is watched, whose metric is labelled as a monotonic sum of long
values and never starts over.  Between two of its collections a program may do whatever it likes:
record, bind and release handles, collect, fail half way.  `monotonic_streams_climb` is the main
statement: what the first collection reports of a label set, the second one reports again, from the
same start, and with no lesser value.

A last value is whatever a sum observer has observed last, so there the values observed must not
fall (`Session.LastValuesRise`).  What is observed is known of rounds and of collections of a
provider, as long as callbacks only observe, and of steps that collect nothing; of any other step
the window has to tell (`Session.Episode.Learns`).
-/

namespace Metering

open Fallible SystemM

namespace Session

/-- Something that happens while an instrument is watched: a step of the program, or a round of
collecting the instrument. -/
inductive Episode where
  | step (x : Step)
  | round (x : Round Step)

namespace Episode

/-- The system after the episode. -/
def after (depth : Nat) (r : Ref .instrument) (q : Ref .clock) (s : System Step) :
    Episode → System Step
  | .step x => (advance depth x s).2
  | .round x => (x.perform (nested depth) r q s).2

/-- The system after several episodes. -/
def afterAll (depth : Nat) (r : Ref .instrument) (q : Ref .clock) (s : System Step)
    (episodes : List Episode) : System Step := episodes.foldl (after depth r q) s

variable {since s : System Step} {depth : Nat} {r : Ref .instrument} {q : Ref .clock}

theorem afterAll_append (episodes others : List Episode) :
    afterAll depth r q s (episodes ++ others)
      = afterAll depth r q (afterAll depth r q s episodes) others := List.foldl_append

/-- An episode keeps a system in order. -/
theorem after_inOrder (h : InOrder since s) (e : Episode) :
    InOrder since (e.after depth r q s) := by
  cases e with
  | step x => exact advance_inOrder h depth x
  | round x => exact InOrder.performRound (nested_keeps depth) r q x s h

/-- Episodes keep a system in order. -/
theorem inOrder (h : InOrder since s) (episodes : List Episode) :
    InOrder since (afterAll depth r q s episodes) := by
  induction episodes generalizing s with
  | nil => exact h
  | cons e episodes ih => exact ih (after_inOrder h e)

/-- What label sets learn of an episode that begins in a system: the last values that an instrument
observes for them. -/
inductive Learns (depth : Nat) (r : Ref .instrument) (q : Ref .clock) (s : System Step) :
    Episode → (LabelSet → Option Int) → Prop
  /-- In a round the callback observes, and does nothing else. -/
  | round {x : Round Step} (quiet : x.IsQuiet) : Learns depth r q s (.round x) x.learned
  /-- A step that collects nothing observes nothing. -/
  | idle {x : Step} (hx : x.collects = false) : Learns depth r q s (.step x) fun _ => none
  /-- A collection of a provider, whose instruments have callbacks that only observe, may reach the
  instrument, whose own callback observes then. -/
  | collection {id : String} {i : Instrument Step} (hi : s.instruments.get? r = some i)
      (quiet : ∀ p, s.names.get? id = some (.component .provider p) → s.IsQuietFor p) :
      Learns depth r q s (.step (.provider (.collect id))) (Round.mk i.callback 0 none).learned
  /-- Of any step the window may tell what was observed in it. -/
  | told {x : Step} {learned : LabelSet → Option Int}
      (hx : s.HasLearned (advance depth x s).2 r learned) : Learns depth r q s (.step x) learned

/-- What label sets learn of several episodes, of one after the other. -/
inductive LearnsAll (depth : Nat) (r : Ref .instrument) (q : Ref .clock) :
    System Step → List Episode → List (LabelSet → Option Int) → Prop
  | nil {s : System Step} : LearnsAll depth r q s [] []
  | cons {s : System Step} {e : Episode} {episodes : List Episode} {f : LabelSet → Option Int}
      {fs : List (LabelSet → Option Int)} (first : e.Learns depth r q s f)
      (rest : LearnsAll depth r q (e.after depth r q s) episodes fs) :
      LearnsAll depth r q s (e :: episodes) (f :: fs)

end Episode

/-- A step that collects nothing leaves all windows as they are. -/
theorem advance_windowAt {s : System Step} (hs : InOrder s s) (depth : Nat) {x : Step}
    (hx : x.collects = false) {r : Ref .instrument} {i : Instrument Step}
    (hi : s.instruments.get? r = some i) :
    (advance depth x s).2.windowAt r = s.windowAt r := by
  have hkept : InOrderBy Portrait.Rests s (advance depth x s).2 :=
    perform_rests depth hx s _ (calm_inOrder ⟨hs.orderly, hs.registry, .refl s⟩)
  have hP := System.portrait?_of_get? hi
  obtain ⟨P, hP', hrests⟩ := hkept.evolves.lasts r _ hP
  rw [System.windowAt_of_portrait hP', System.windowAt_of_portrait hP, hrests.window]

/-- No label set learns less of one episode than of the one before. -/
def NoLess (f g : LabelSet → Option Int) : Prop := ∀ l m n, f l = some m → g l = some n → m ≤ n

/-- The last values that an instrument observes do not fall: nothing has been observed at first, and
no label set ever learns less than before. -/
structure LastValuesRise (depth : Nat) (r : Ref .instrument) (q : Ref .clock) (s : System Step)
    (episodes : List Episode) : Prop where
  new : ∀ l, s.told r l = none
  rises : ∃ fs, Episode.LearnsAll depth r q s episodes fs ∧ fs.Pairwise NoLess

/-- In some episodes label sets learn ever greater values, and none that is less than what has been
told of it when they begin. -/
def Rising (depth : Nat) (r : Ref .instrument) (q : Ref .clock) (s : System Step)
    (episodes : List Episode) : Prop :=
  ∃ fs, Episode.LearnsAll depth r q s episodes fs ∧ fs.Pairwise NoLess ∧
    ∀ f ∈ fs, ∀ l m n, s.told r l = some (.number (.integer m)) → f l = some n → m ≤ n

theorem LastValuesRise.rising {depth : Nat} {r : Ref .instrument} {q : Ref .clock}
    {s : System Step} {episodes : List Episode} (h : LastValuesRise depth r q s episodes) :
    Rising depth r q s episodes := by
  obtain ⟨fs, hlearns, hrises⟩ := h.rises
  refine ⟨fs, hlearns, hrises, fun f _ l m n hm => ?_⟩
  rw [h.new l] at hm
  cases hm

section

variable {since s : System Step} {depth : Nat} {r : Ref .instrument} {i : Instrument Step}
  {p : Processor} (hs : InOrder since s) (hi : since.instruments.get? r = some i)
  (hp : i.processor = some p) (hm : p.stream.IsMonotonic)
  (hlast : p.stream.aggregation = .lastValue)
include hs hi hp hm hlast

/-- **A collection of a provider** as a step of a program. -/
theorem hasLearned_of_collection {id : String} {j : Instrument Step}
    (hj : s.instruments.get? r = some j)
    (hquiet : ∀ q, s.names.get? id = some (.component .provider q) → s.IsQuietFor q) :
    s.HasLearned (advance depth (.provider (.collect id)) s).2 r
      (Round.mk j.callback 0 none).learned := by
  let I : System Step → Prop := fun s' => s.HasLearned s' r (Round.mk j.callback 0 none).learned
  have hcalm : I (calm s) := System.hasLearned_of_window rfl _
  cases depth with
  | zero => exact hcalm
  | succ depth =>
    show I ((ProviderStep.collect id).perform (nested depth) (calm s)).2
    unfold ProviderStep.perform SystemM.find SystemM.named
    simp only [bind_apply, get_apply, demand_apply]
    cases hname : (calm s).names.get? id with
    | none => exact hcalm
    | some e =>
    dsimp only
    cases hq : e.ref? .provider with
    | none => exact hcalm
    | some q =>
    obtain rfl := Entity.eq_of_ref? hq
    have hcollect : I (collectProvider (nested depth) q (calm s)).2 :=
      InOrder.collectProvider_of_lastValue (calm_inOrder hs) hi hp hm hlast (nested_keeps depth) hj
        (hquiet q hname)
    dsimp only
    rcases hc : collectProvider (nested depth) q (calm s) with ⟨e | metrics, s'⟩ <;>
      rw [hc] at hcollect
    · exact hcollect
    · exact Keeps.metricsOf (I := I) q metrics s' hcollect

/-- **An episode** leaves what was told, or what is learned of it. -/
theorem Episode.Learns.hasLearned {e : Episode} {f : LabelSet → Option Int}
    (h : e.Learns depth r p.clock s f) : s.HasLearned (e.after depth r p.clock s) r f := by
  cases h with
  | round quiet =>
    exact System.hasLearned_of_told
      (hs.round_of_lastValue hi hp hm hlast (nested_keeps depth) quiet)
  | idle hx =>
    obtain ⟨j, -, hj, -⟩ := hs.carries hi hp hm.temporality
    exact System.hasLearned_of_window (advance_windowAt hs.here depth hx hj) _
  | collection hj quiet => exact hasLearned_of_collection hs hi hp hm hlast hj quiet
  | told hx => exact hx

/-- **An episode** of some that rise lets the window climb, and the others go on rising. -/
theorem Rising.cons {e : Episode} {episodes : List Episode}
    (h : Rising depth r p.clock s (e :: episodes)) :
    (s.windowAt r).Climbs ((e.after depth r p.clock s).windowAt r) ∧
      Rising depth r p.clock (e.after depth r p.clock s) episodes := by
  obtain ⟨fs, hlearns, hrises, habove⟩ := h
  cases hlearns with
  | @cons _ _ _ f fs first rest =>
  have htold := first.hasLearned hs hi hp hm hlast
  rw [List.pairwise_cons] at hrises
  refine ⟨fun l m hm' => ?_, fs, rest, hrises.2, fun g hg l m n hm' hn => ?_⟩
  · obtain hsame | ⟨n, hn, htells⟩ := htold l
    · exact ⟨m, le_rfl, hsame.trans hm'⟩
    · exact ⟨n, habove f List.mem_cons_self l m n hm' hn, htells⟩
  · obtain hsame | ⟨k, hk, htells⟩ := htold l
    · exact habove g (List.mem_cons_of_mem _ hg) l m n (hsame.symm.trans hm') hn
    · obtain rfl : k = m := by
        rw [htells] at hm'
        cases hm'
        rfl
      exact hrises.1 g hg l k n hk hn

/-- **Episodes** of some that rise let the window climb, and the others go on rising. -/
theorem Rising.append {episodes others : List Episode}
    (h : Rising depth r p.clock s (episodes ++ others)) :
    (s.windowAt r).Climbs ((Episode.afterAll depth r p.clock s episodes).windowAt r) ∧
      Rising depth r p.clock (Episode.afterAll depth r p.clock s episodes) others := by
  induction episodes generalizing s with
  | nil => exact ⟨.refl _, h⟩
  | cons e episodes ih =>
    obtain ⟨hfirst, hrest⟩ := h.cons hs hi hp hm hlast
    obtain ⟨hothers, hrising⟩ := ih (Episode.after_inOrder hs e) hrest
    exact ⟨hfirst.trans hothers, hrising⟩

theorem Rising.climbs {episodes : List Episode} (h : Rising depth r p.clock s episodes) :
    (s.windowAt r).Climbs ((Episode.afterAll depth r p.clock s episodes).windowAt r) := by
  rw [← List.append_nil episodes] at h
  exact (h.append hs hi hp hm hlast).1

end

end Session

/-- **Monotonic streams climb**: in any reachable system, whatever views have chosen its
aggregation, an instrument is collected twice whose metric is labelled as a monotonic sum of long
values and never starts over.  What the first collection reports is upheld by the second one, if
that reports anything, whatever a program and callbacks have done in between and before. -/
theorem monotonic_streams_climb {s : System Step} (hs : Session.Reachable s)
    {r : Ref .instrument} {i : Instrument Step} {p : Processor}
    (hi : s.instruments.get? r = some i) (hp : i.processor = some p) (hm : p.stream.IsMonotonic)
    (depth : Nat) (before between : List Session.Episode) (x y : Round Step)
    (hlast : p.stream.aggregation = .lastValue → Session.LastValuesRise depth r p.clock s
      (before ++ .round x :: (between ++ [.round y]))) :
    let s₁ := Session.Episode.afterAll depth r p.clock s before
    let s₂ := Session.Episode.afterAll depth r p.clock s₁ (.round x :: between)
    ∀ ms ms', (x.perform (Session.nested depth) r p.clock s₁).1 = .ok ms →
      (y.perform (Session.nested depth) r p.clock s₂).1 = .ok ms' → ms' ≠ [] → Upheld ms ms' := by
  intro s₁ s₂ ms ms' hms hms' hne
  have h₁ : InOrder s s₁ := Session.Episode.inOrder hs.inOrder.here before
  have h₂ : InOrder s s₂ := Session.Episode.inOrder h₁ (.round x :: between)
  let u₁ := (x.perform (Session.nested depth) r p.clock s₁).2
  let u₂ := (y.perform (Session.nested depth) r p.clock s₂).2
  have hu₁ : InOrder s u₁ := InOrder.performRound (Session.nested_keeps depth) r p.clock x s₁ h₁
  have hclimbs : (u₁.windowAt r).Climbs (u₂.windowAt r) := by
    by_cases hagg : p.stream.aggregation = .lastValue
    · have hrising := (hlast hagg).rising
      rw [List.append_cons] at hrising
      obtain ⟨-, hrest⟩ := hrising.append hs.inOrder.here hi hp hm hagg
      rw [Session.Episode.afterAll_append] at hrest
      have hclimbs := hrest.climbs hu₁ hi hp hm hagg
      rw [Session.Episode.afterAll_append] at hclimbs
      exact hclimbs
    · have hu₂ : InOrder u₁ u₂ := InOrder.performRound (Session.nested_keeps depth) r p.clock y s₂
        (Session.Episode.inOrder hu₁.here between)
      obtain ⟨j, q, hj, hq, hcontinues, -⟩ := hu₁.carries hi hp hm.temporality
      obtain ⟨-, -, -, -, -, -, -, hw⟩ :=
        hu₂.carries hj hq (hcontinues.temporality.trans hm.temporality)
      exact hw (hcontinues.accrues.mpr (hm.accrues hagg))
  by_cases hsome : ms = []
  · subst hsome
    exact fun _ _ hu => nomatch hu
  -- both rounds report what they leave in the window
  obtain ⟨stop, rfl⟩ :=
    h₁.round_reports (Session.nested_keeps depth) hi hp hm.temporality hms hsome
  obtain ⟨stop', rfl⟩ :=
    h₂.round_reports (Session.nested_keeps depth) hi hp hm.temporality hms' hne
  exact hu₁.upheld hi hp hm hclimbs stop stop'

/-- A sum observer that reports its last values, and a counter. -/
def Session.observedTotals : List Step :=
  [.clock (.create "clock" (some 5)),
    .provider (.create "provider"
      { clock := some "clock", readers := [], resource := .absent, disabled := none }),
    .provider (.addView "provider"
      { kind := .kind .sumObserver, aggregation := .lastValue, temporality := .cumulative }),
    .provider (.requestMeter "provider" "meter" ⟨some "server", none⟩),
    .meter (.requestInstrument "meter" "load" { kind := .sumObserver, name := .text "load" }),
    .meter (.requestInstrument "meter" "requests" { kind := .counter, name := .text "requests" })]

/-- A round with a value for one label set. -/
def Session.firstRound : Round Step :=
  .ofScript [.observe (.number (.integer 5)) (.ofMapping [("k", "v")])]

/-- A round that fails after a lesser value. -/
def Session.failedRound : Round Step :=
  .ofScript [.observe (.number (.integer 3)) (.ofMapping [("k", "v")]),
    .raise (.raised .failedOperation "no load")]

/-- A round with a greater value for another label set. -/
def Session.lastRound : Round Step :=
  .ofScript [.observe (.number (.integer 7)) (.ofMapping [("k", "w")])]

/-- A request is counted, the provider is collected, a round fails, and another one has no callback.
-/
def Session.interlude : List Session.Episode :=
  [.step (.instrument (.record "requests" (.number (.integer 1)) .absent)),
    .step (.provider (.collect "provider")),
    .round Session.failedRound,
    .round { callback := none, elapsed := 10, time := none }]

/-- Label sets learn nothing but the values that are given, which do not fall. -/
theorem Session.pairwise_noLess {es : List ((LabelSet → Option Int) × Int)}
    (h : ∀ e ∈ es, ∀ l n, e.1 l = some n → n = e.2) (hes : es.Pairwise fun e e' => e.2 ≤ e'.2) :
    (es.map Prod.fst).Pairwise Session.NoLess := by
  rw [List.pairwise_map]
  refine hes.imp_of_mem fun {e e'} he he' hle l m n hm hn => ?_
  rw [h e he l m hm, h e' he' l n hn]
  exact hle

/-- The callback of the first round is still there when the provider is collected, and observes what
it has observed before. -/
theorem Session.lastValuesRise_interlude :
    Session.LastValuesRise 1 ⟨0⟩ ⟨0⟩ (Session.after 1 Session.observedTotals)
      (.round Session.firstRound :: (Session.interlude ++ [.round Session.lastRound])) := by
  let s₁ := Session.Episode.afterAll 1 ⟨0⟩ ⟨0⟩ (Session.after 1 Session.observedTotals)
    (.round Session.firstRound :: Session.interlude.take 1)
  have hnew : ((Session.after 1 Session.observedTotals).windowAt ⟨0⟩).entries = [] := by
    decide +kernel
  have hkept : (s₁.instruments.get? ⟨0⟩).isSome = true := by decide +kernel
  have hown : ∀ i ∈ s₁.instruments.get? ⟨0⟩, ∀ c ∈ i.callback, ∀ o ∈ c.observations,
      o.1 = .number (.integer 5) := by
    decide +kernel
  have hquiet : ∀ i ∈ s₁.instruments.rows.toList, ∀ c ∈ i.callback, c.IsQuiet := by decide +kernel
  revert s₁ hnew
  generalize Session.after 1 Session.observedTotals = s
  intro s₁ hnew hkept hown hquiet
  obtain ⟨j, hj⟩ := Option.isSome_iff_exists.mp hkept
  constructor
  case new =>
    intro l
    unfold System.told
    rw [show s.windowAt ⟨0⟩ = OrderedMap.empty from OrderedMap.ext_entries hnew]
    rfl
  case rises =>
    have hprovider : ∀ q, s₁.IsQuietFor q := fun _ _ _ _ _ i hi =>
      hquiet i (Array.mem_toList_iff.mpr (Array.mem_of_getElem? hi))
    let es : List ((LabelSet → Option Int) × Int) :=
      [(Session.firstRound.learned, 5), (fun _ => none, 5),
        ((Round.mk j.callback 0 none).learned, 5), (Session.failedRound.learned, 5),
        (fun _ => none, 5), (Session.lastRound.learned, 7)]
    refine ⟨es.map Prod.fst, .cons (.round (by decide +kernel)) (.cons (.idle rfl)
      (.cons (.collection hj fun q _ => hprovider q) (.cons (.round (by decide +kernel))
        (.cons (.round (by decide)) (.cons (.round (by decide +kernel)) .nil))))),
      Session.pairwise_noLess ?_ (by simp [es])⟩
    simp only [es, List.forall_mem_cons, List.not_mem_nil, false_imp_iff, implies_true, and_true]
    refine ⟨fun l n => Round.eq_of_learned (by decide +kernel), nofun,
      fun l n => Round.eq_of_learned (hown j hj), fun l n hn => ?_, nofun,
      fun l n => Round.eq_of_learned (by decide +kernel)⟩
    rw [(Round.of_not_completes (by decide +kernel)).2] at hn
    cases hn

/-- What was observed once is upheld by a report of another label set, whatever has happened in
between. -/
theorem monotonic_streams_climb_of_last_values :
    let s := Session.after 1 Session.observedTotals
    let s₂ := Session.Episode.afterAll 1 ⟨0⟩ ⟨0⟩ s (.round Session.firstRound :: Session.interlude)
    ∃ ms ms', (Session.firstRound.perform (Session.nested 1) ⟨0⟩ ⟨0⟩ s).1 = .ok ms ∧
      (Session.lastRound.perform (Session.nested 1) ⟨0⟩ ⟨0⟩ s₂).1 = .ok ms' ∧ Upheld ms ms' ∧
      (ms'.flatMap Metric.points).map (fun u => (u.labels.pairs, u.value))
        = [([("k", "v")], .number (.integer 5)), ([("k", "w")], .number (.integer 7))] := by
  intro s s₂
  have hprocessor : ((s.instruments.get? ⟨0⟩).bind Instrument.processor).map
      (fun p => (p.stream.aggregation.metricType p.stream.descriptor, p.stream.temporality,
        p.clock)) = some (.sum true .long, .cumulative, ⟨0⟩) := by
    decide +kernel
  have hfirst : (Session.firstRound.perform (Session.nested 1) ⟨0⟩ ⟨0⟩ s).1.map (fun _ => ())
      = .ok () := by
    decide +kernel
  have hlast : (Session.lastRound.perform (Session.nested 1) ⟨0⟩ ⟨0⟩ s₂).1.map
      (fun ms => (ms.flatMap Metric.points).map fun u => (u.labels.pairs, u.value))
        = .ok [([("k", "v")], .number (.integer 5)), ([("k", "w")], .number (.integer 7))] := by
    decide +kernel
  have hs : Session.Reachable s := ⟨1, Session.observedTotals, rfl⟩
  have hrise : Session.LastValuesRise 1 ⟨0⟩ ⟨0⟩ s
      ([] ++ .round Session.firstRound :: (Session.interlude ++ [.round Session.lastRound])) :=
    Session.lastValuesRise_interlude
  clear_value s
  obtain ⟨p, hp, hdesign⟩ := Option.map_eq_some_iff.mp hprocessor
  obtain ⟨i, hi, hp⟩ := Option.bind_eq_some_iff.mp hp
  obtain ⟨htype, hdesign⟩ := Prod.mk.inj hdesign
  obtain ⟨htemporality, hclock⟩ := Prod.mk.inj hdesign
  obtain ⟨ms, hms, -⟩ := map_eq_ok hfirst
  obtain ⟨ms', hms', hpoints⟩ := map_eq_ok hlast
  have hne : ms' ≠ [] := by
    rintro rfl
    cases hpoints
  have hupheld := monotonic_streams_climb hs hi hp ⟨htype, htemporality⟩ 1 [] Session.interlude
    Session.firstRound Session.lastRound fun _ => hclock.symm ▸ hrise
  rw [hclock] at hupheld
  exact ⟨ms, ms', hms, hms', hupheld ms ms' hms hms' hne, hpoints⟩

end Metering
