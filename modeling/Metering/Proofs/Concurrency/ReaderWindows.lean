import Mathlib.Data.List.Pairwise
import Metering.Proofs.Concurrency.Readers

/-!
# The windows that readers report

A collection reads the clock long before it uses the time.  So the windows of an instrument follow
each other as the collections reach it, but they end at the times that the collections have read
(`Temporality.Windows`).  `Timely` is what all steps keep: all times are readings of a clock that
does not run backwards, and all windows lie between two of them.  `Metering.windows_follow_readings`
says so for all runs, and that no window runs backwards where the collections reach the instrument
in the order in which they have read the clock.  They do if the clock is not read while a collection
is under way (`Readers.inOrder_of_turns`), but not in general (`Metering.windows_run_backwards`).
-/

namespace Metering

open Fallible SystemM

variable {σ : Type}

/-! ### The windows of an instrument -/

/-- The points that a collection got from an instrument. -/
def Visit.points (v : Visit) : List Point := v.metrics.flatMap Metric.points

namespace Temporality

variable {t : Temporality} {born : Moment} {visits : List Visit} {v : Visit}

/-- When the window after some visits began: with the latest of them, or with the instrument if
there is none or windows do not end. -/
def began (t : Temporality) (born : Moment) (visits : List Visit) : Moment :=
  match t with
  | .delta => (visits.getLast?.map Visit.moment).getD born
  | .cumulative => born

theorem began_mem (t : Temporality) (born : Moment) (visits : List Visit) :
    t.began born visits ∈ born :: visits.map Visit.moment := by
  cases t with
  | cumulative => exact List.mem_cons_self
  | delta =>
    unfold began
    cases h : visits.getLast? with
    | none => exact List.mem_cons_self
    | some v => exact List.mem_cons_of_mem _ (List.mem_map_of_mem (List.mem_of_getLast? h))

theorem began_delta_concat (born : Moment) (visits : List Visit) (v : Visit) :
    Temporality.delta.began born (visits ++ [v]) = v.moment := by
  unfold began
  rw [List.getLast?_concat]
  rfl

/-- The latest visit is the latest one in time if the times do not run backwards. -/
theorem le_began_delta (hasc : (visits.map Visit.moment).Pairwise (·.time ≤ ·.time)) (born : Moment)
    (hv : v ∈ visits) : v.moment.time ≤ (Temporality.delta.began born visits).time := by
  rcases List.eq_nil_or_concat' visits with rfl | ⟨earlier, latest, rfl⟩
  · cases hv
  rw [began_delta_concat]
  rw [List.map_append, List.pairwise_append] at hasc
  rcases List.mem_append.mp hv with hv | hv
  · exact hasc.2.2 _ (List.mem_map_of_mem hv) _ List.mem_cons_self
  · obtain rfl := List.mem_singleton.mp hv
    exact le_rfl

/-- Each visit reports the window that began after the visits before it, up to its own moment. -/
def Windows (t : Temporality) (born : Moment) (visits : List Visit) : Prop :=
  ∀ earlier v later, visits = earlier ++ v :: later →
    Within (t.began born earlier).time v.moment.time v.metrics

namespace Windows

theorem concat (h : t.Windows born visits)
    (hv : Within (t.began born visits).time v.moment.time v.metrics) :
    t.Windows born (visits ++ [v]) := by
  intro earlier u later heq
  rcases List.eq_nil_or_concat' later with rfl | ⟨later, u', rfl⟩
  · obtain ⟨rfl, hu⟩ := List.append_inj' heq rfl
    obtain rfl := List.singleton_inj.mp hu
    exact hv
  · rw [← List.cons_append, ← List.append_assoc] at heq
    obtain ⟨rfl, -⟩ := List.append_inj' heq rfl
    exact h earlier u later rfl

theorem of_concat (h : t.Windows born (visits ++ [v])) : t.Windows born visits ∧
    Within (t.began born visits).time v.moment.time v.metrics := by
  refine ⟨fun earlier u later heq => h earlier u (later ++ [v]) ?_, h visits v [] rfl⟩
  rw [heq, List.append_assoc]
  rfl

/-- The points of a visit. -/
theorem exists_began (h : t.Windows born visits) (hv : v ∈ visits) :
    ∃ earlier later, visits = earlier ++ v :: later ∧
      ∀ x ∈ v.points, x.start = (t.began born earlier).time ∧ x.stop = v.moment.time := by
  obtain ⟨earlier, later, heq⟩ := List.append_of_mem hv
  refine ⟨earlier, later, heq, fun x hx => ?_⟩
  obtain ⟨m, hm, hx⟩ := List.mem_flatMap.mp hx
  exact h earlier v later heq m hm x hx

/-- **No window runs backwards** if the times of the visits do not. -/
theorem forward (h : t.Windows born visits)
    (hasc : (born :: visits.map Visit.moment).Pairwise (·.time ≤ ·.time)) :
    ∀ v ∈ visits, ∀ x ∈ v.points, x.start ≤ x.stop := by
  intro v hv x hx
  obtain ⟨earlier, later, rfl, hpoints⟩ := h.exists_began hv
  obtain ⟨hstart, hstop⟩ := hpoints x hx
  rw [List.map_append, ← List.cons_append, List.pairwise_append] at hasc
  rw [hstart, hstop]
  exact hasc.2.2 _ (t.began_mem born earlier) _ List.mem_cons_self

/-- **Windows that end do not overlap** if the times of the visits do not run backwards. -/
theorem apart (h : Temporality.delta.Windows born visits)
    (hasc : (visits.map Visit.moment).Pairwise (·.time ≤ ·.time)) :
    visits.Pairwise fun v v' => ∀ x ∈ v.points, ∀ x' ∈ v'.points, x.stop ≤ x'.start := by
  induction visits using List.reverseRecOn with
  | nil => exact .nil
  | append_singleton visits v' ih =>
    obtain ⟨hvisits, hv'⟩ := h.of_concat
    rw [List.map_append, List.pairwise_append] at hasc
    refine List.pairwise_append.mpr ⟨ih hvisits hasc.1, List.pairwise_singleton _ _, ?_⟩
    intro v hv u hu x hx x' hx'
    obtain rfl := List.mem_singleton.mp hu
    obtain ⟨earlier, later, -, hpoints⟩ := hvisits.exists_began hv
    obtain ⟨m, hm, hx'⟩ := List.mem_flatMap.mp hx'
    rw [(hpoints x hx).2, (hv' m hm x' hx').1]
    exact le_began_delta hasc.1 born hv

end Windows

end Temporality

/-! ### What all runs keep -/

namespace Moment

/-- The moment is one of those at which the clock was read. -/
def Among (m : Moment) (past : List Int) : Prop := past[m.place]? = some m.time

variable {m m' : Moment} {past : List Int}

theorem Among.concat (h : m.Among past) (time : Int) : m.Among (past ++ [time]) := by
  obtain ⟨hlt, -⟩ := List.getElem?_eq_some_iff.mp h
  show (past ++ [time])[m.place]? = _
  rw [List.getElem?_append_left hlt]
  exact h

theorem among_latest (past : List Int) (time : Int) :
    (⟨past.length, time⟩ : Moment).Among (past ++ [time]) := List.getElem?_concat_length

/-- On a clock that does not run backwards, later readings say later times. -/
theorem Among.time_le (h : m.Among past) (h' : m'.Among past) (hpast : past.Pairwise (· ≤ ·))
    (hle : m.place ≤ m'.place) : m.time ≤ m'.time := by
  obtain ⟨hlt, htime⟩ := List.getElem?_eq_some_iff.mp h
  obtain ⟨hlt', htime'⟩ := List.getElem?_eq_some_iff.mp h'
  rw [← htime, ← htime']
  have hfin : (⟨m.place, hlt⟩ : Fin past.length) ≤ ⟨m'.place, hlt'⟩ := hle
  exact hpast.rel_get_of_le hfin

end Moment

/-- What is known of an instrument that has been born and visited, by the span that it has now. -/
def Story (birth : Option Moment) (visits : List Visit) : Option (Option Span) → Prop
  | none => birth = none ∧ visits = []
  | some none => birth.isSome ∧ ∀ v ∈ visits, v.metrics = []
  | some (some w) => ∃ born, birth = some born ∧ w.temporality.Windows born visits ∧
    w.start = (w.temporality.began born visits).time

namespace Story

variable {s s' : System σ} {birth : Option Moment} {visits : List Visit}

/-- The next window begins where the visit ended this one, if windows end. -/
theorem start_next (w : Span) {born : Moment} (h : w.start = (w.temporality.began born visits).time)
    (v : Visit) : (w.next v.moment.time).start
      = ((w.next v.moment.time).temporality.began born (visits ++ [v])).time := by
  obtain ⟨t, start⟩ := w
  cases t with
  | delta =>
    show v.moment.time = (Temporality.delta.began born (visits ++ [v])).time
    rw [Temporality.began_delta_concat]
  | cumulative => exact h

/-- The story of an instrument goes on when it is visited. -/
theorem visited {v : Visit} (h : Story birth visits (s.spanAt v.instrument))
    (hv : s.Visited v.instrument v.moment.time (.ok v.metrics) s') :
    Story birth (visits ++ [v]) (s'.spanAt v.instrument) := by
  obtain ⟨o, hspan⟩ := hv.there v.metrics rfl
  rw [hspan] at h
  cases o with
  | none =>
    have hwindowless : ∀ w, s.spanAt v.instrument ≠ some (some w) := by
      intro w hw
      cases hspan.symm.trans hw
    obtain ⟨hsame, hnothing⟩ := hv.windowless hwindowless
    rw [hsame, hspan]
    refine ⟨h.1, fun u hu => ?_⟩
    rcases List.mem_append.mp hu with hu | hu
    · exact h.2 u hu
    · obtain rfl := List.mem_singleton.mp hu
      exact hnothing _ rfl
  | some w =>
    obtain ⟨born, hborn, hwindows, hstart⟩ := h
    obtain ⟨w', hspan', hwithin, rfl⟩ := hv.window w hspan
    rw [hspan']
    refine ⟨born, hborn, ?_, start_next w hstart v⟩
    rw [w.temporality_next]
    rw [hstart] at hwithin
    exact hwindows.concat hwithin

/-- The story of an instrument goes on, or begins, when instruments are asked for at a moment. -/
theorem founded {r : Ref .instrument} {m : Moment} (h : Story birth visits (s.spanAt r))
    (hs : s.Founds m.time s') :
    Story (birth.or ((s'.spanAt r).map fun _ => m)) visits (s'.spanAt r) := by
  rcases hs.span r with hspan | ⟨hspan, o, hspan', ho⟩
  · rw [hspan]
    rcases hr : s.spanAt r with _ | _ | w <;> rw [hr] at h
    · exact ⟨by rw [h.1]; rfl, h.2⟩
    · obtain ⟨born, hborn⟩ := Option.isSome_iff_exists.mp h.1
      exact ⟨by rw [hborn]; rfl, h.2⟩
    · obtain ⟨born, hborn, hrest⟩ := h
      exact ⟨born, by rw [hborn]; rfl, hrest⟩
  · rw [hspan] at h
    obtain ⟨rfl, rfl⟩ := h
    rw [hspan']
    cases o with
    | none => exact ⟨rfl, fun _ => nofun⟩
    | some w =>
      refine ⟨m, rfl, fun earlier v later heq => ?_, ?_⟩
      · cases earlier <;> cases heq
      · rw [ho w rfl]
        cases w.temporality <;> rfl

end Story

/-- The times that the readers know are what the clock has said, which does not run backwards, and
every window lies between two of them. -/
structure Timely (P : Ref .provider) (w : Readers σ) : Prop where
  clock : ∀ time ∈ w.system.timeOf? P, ∀ earlier ∈ w.past, earlier ≤ time
  past : w.past.Pairwise (· ≤ ·)
  sweeps : ∀ k, ∀ x ∈ w.sweeps k, x.moment.Among w.past
  births : ∀ r, ∀ m ∈ w.births r, m.Among w.past
  visits : ∀ v ∈ w.visits, v.moment.Among w.past
  stories : ∀ r, Story (w.births r) (w.visitsTo r) (w.system.spanAt r)

namespace Readers

theorem visitsTo_concat {w w' : Readers σ} {v : Visit} (h : w'.visits = w.visits ++ [v])
    (r : Ref .instrument) :
    w'.visitsTo r = w.visitsTo r ++ if v.instrument = r then [v] else [] := by
  unfold visitsTo
  rw [h, List.filter_append, List.filter_singleton]
  by_cases hr : v.instrument = r
  · rw [decide_eq_true hr, if_pos hr]
    rfl
  · rw [decide_eq_false hr, if_neg hr]
    rfl

end Readers

namespace Timely

variable {P : Ref .provider} {w w' : Readers σ} {s : System σ} {time : Int}

theorem start (hnew : s.instruments = Table.empty) : Timely P { system := s } where
  clock _ _ _ := nofun
  past := .nil
  sweeps _ _ := nofun
  births _ _ := nofun
  visits _ := nofun
  stories r := by
    have hspan : s.spanAt r = none := by
      unfold System.spanAt
      rw [hnew]
      rfl
    show Story none [] (s.spanAt r)
    rw [hspan]
    exact ⟨rfl, rfl⟩

theorem moment_among (h : Timely P w) {sweeps : Nat → Option Sweep} (hsweeps : w.GoOn sweeps) :
    ∀ k, ∀ y ∈ sweeps k, y.moment.Among w.past := by
  intro k y hy
  obtain ⟨x, hx, hmoment⟩ := hsweeps k y hy
  rw [hmoment]
  exact h.sweeps k x hx

/-- The clock is read. -/
theorem reading (h : Timely P w) (ht : w.system.timeOf? P = some time) :
    Timely P { w with past := w.past ++ [time] } where
  clock time' ht' earlier he := by
    obtain rfl := Option.some.inj (ht.symm.trans ht')
    rcases List.mem_append.mp he with he | he
    · exact h.clock time ht earlier he
    · exact (List.mem_singleton.mp he).le
  past := by
    refine List.pairwise_append.mpr ⟨h.past, List.pairwise_singleton _ _, fun a ha b hb => ?_⟩
    obtain rfl := List.mem_singleton.mp hb
    exact h.clock b ht a ha
  sweeps k x hx := (h.sweeps k x hx).concat time
  births r m hm := (h.births r m hm).concat time
  visits v hv := (h.visits v hv).concat time
  stories := h.stories

/-- **A step.** -/
theorem step {e : ReaderEvent σ} (h : Timely P w) (hw : Readers.Becomes P w e w') :
    Timely P w' := by
  -- a step reads the clock, or founds instruments, or visits one with the time its sweep has read
  cases hw with
  | same hs hsweeps =>
    exact { h with
      clock := fun time ht t ht' => by
        obtain ⟨earlier, he, hle⟩ := hs.clock time ht
        exact (h.clock earlier he t ht').trans hle
      sweeps := h.moment_among hsweeps
      stories := fun r => by
        show Story _ (w.visitsTo r) _
        rw [hs.span]
        exact h.stories r }
  | begins hk ht =>
    refine { h.reading ht with sweeps := fun j x hx => ?_ }
    rcases Readers.mem_update hx with ⟨-, hx⟩ | hx
    · obtain rfl := Option.some.inj hx
      exact Moment.among_latest w.past _
    · exact (h.sweeps j x hx).concat _
  | births ht hs =>
    have hread := h.reading ht
    refine { hread with
      clock := fun time' ht' => hread.clock time' (hs.timeOf? P ▸ ht')
      births := fun r b hb => ?_
      stories := fun r => (h.stories r).founded hs }
    rcases Option.or_eq_some_iff.mp hb with hb | ⟨-, hb⟩
    · exact hread.births r b hb
    · obtain ⟨-, -, rfl⟩ := Option.map_eq_some_iff.mp hb
      exact Moment.among_latest w.past _
  | visits hx hmoment hs hsweeps =>
    refine { h with
      clock := fun time ht => h.clock time (hs.timeOf? P ▸ ht)
      sweeps := h.moment_among hsweeps
      visits := fun u hu => ?_
      stories := fun r => ?_ }
    · rcases List.mem_append.mp hu with hu | hu
      · exact h.visits u hu
      · obtain rfl := List.mem_singleton.mp hu
        rw [hmoment]
        exact h.sweeps _ _ hx
    · have hstory := h.stories r
      rw [Readers.visitsTo_concat (w := w) rfl]
      -- only the story of the instrument that was visited goes on
      split
      · next hr =>
        subst hr
        exact hstory.visited hs
      · next hr =>
        rw [List.append_nil]
        show Story _ _ (System.spanAt _ r)
        rw [hs.others r (Ne.symm hr)]
        exact hstory

/-- **A run.** -/
theorem run [IsEmpty σ] (h : Timely P w) (perform : σ → SystemM σ Unit)
    (events : List (ReaderEvent σ)) : Timely P (w.run perform P events) := by
  induction events generalizing w with
  | nil => exact h
  | cons e events ih => exact ih (h.step (w.becomes_step perform P e))

end Timely

/-! ### Collections in turn -/

/-- The clock is read for a window: a collection begins, or an instrument is asked for. -/
def ReaderEvent.ReadsClock (w : Readers σ) : ReaderEvent σ → Prop
  | .collect k => w.sweeps k = none
  | .create _ _ => True
  | _ => False

namespace Readers

/-- The clock is not read for a window while a collection is under way. -/
def TakeTurns (perform : σ → SystemM σ Unit) (P : Ref .provider) (w : Readers σ) :
    List (ReaderEvent σ) → Prop
  | [] => True
  | e :: events =>
    (e.ReadsClock w → ∀ k, w.sweeps k = none) ∧ (w.step perform P e).TakeTurns perform P events

/-- An instrument was born and visited in the order in which the clock was read for it. -/
def InOrder (w : Readers σ) (r : Ref .instrument) : Prop :=
  ∀ born ∈ w.births r,
    (born :: (w.visitsTo r).map Visit.moment).Pairwise (·.place ≤ ·.place)

/-- Every collection under way has the latest reading, and all instruments are in order. -/
structure Ordered (w : Readers σ) : Prop where
  latest : ∀ k, ∀ x ∈ w.sweeps k, x.moment.place + 1 = w.past.length
  inOrder : ∀ r, w.InOrder r

end Readers

namespace Timely

variable {P : Ref .provider} {w w' : Readers σ} {r : Ref .instrument}

/-- An instrument that is not born has not been visited. -/
theorem visitsTo_of_unborn (h : Timely P w) (hr : w.births r = none) : w.visitsTo r = [] := by
  have hstory := h.stories r
  rw [hr] at hstory
  rcases hspan : w.system.spanAt r with _ | _ | span <;> rw [hspan] at hstory
  · exact hstory.2
  · cases hstory.1
  · obtain ⟨born, hborn, -⟩ := hstory
    cases hborn

/-- The moments of an instrument are in the past. -/
theorem among (h : Timely P w) {born : Moment} (hborn : w.births r = some born) :
    ∀ m ∈ born :: (w.visitsTo r).map Visit.moment, m.Among w.past := by
  intro m hm
  rcases List.mem_cons.mp hm with rfl | hm
  · exact h.births r _ hborn
  · obtain ⟨v, hv, rfl⟩ := List.mem_map.mp hm
    exact h.visits v (List.mem_of_mem_filter hv)

/-- **A step in turn** keeps the order. -/
theorem ordered {e : ReaderEvent σ} (h : Timely P w) (ho : w.Ordered)
    (hturn : e.ReadsClock w → ∀ k, w.sweeps k = none) (hw : Readers.Becomes P w e w') :
    w'.Ordered := by
  cases hw with
  | same hs hsweeps =>
    refine ⟨fun k y hy => ?_, ho.inOrder⟩
    obtain ⟨x, hx, hmoment⟩ := hsweeps k y hy
    rw [hmoment]
    exact ho.latest k x hx
  | begins hk ht =>
    refine ⟨fun j x hx => ?_, ho.inOrder⟩
    rcases Readers.mem_update hx with ⟨-, hx⟩ | hx
    · obtain rfl := Option.some.inj hx
      show w.past.length + 1 = (w.past ++ [_]).length
      rw [List.length_append]
      rfl
    · rw [hturn hk j] at hx
      cases hx
  | births ht hs =>
    refine ⟨fun j x hx => ?_, fun r born hborn => ?_⟩
    · rw [hturn trivial j] at hx
      cases hx
    · rcases Option.or_eq_some_iff.mp hborn with hborn | ⟨hnone, -⟩
      · exact ho.inOrder r born hborn
      · show List.Pairwise _ (born :: (w.visitsTo r).map Visit.moment)
        rw [h.visitsTo_of_unborn hnone]
        exact List.pairwise_singleton _ _
  | visits hx hmoment hs hsweeps =>
    refine ⟨fun k y hy => ?_, fun r born hborn => ?_⟩
    · obtain ⟨z, hz, hmoment⟩ := hsweeps k y hy
      rw [hmoment]
      exact ho.latest k z hz
    · have horder := ho.inOrder r born hborn
      rw [Readers.visitsTo_concat (w := w) rfl]
      split
      · rw [List.map_append, ← List.cons_append]
        refine List.pairwise_append.mpr ⟨horder, List.pairwise_singleton _ _, fun m hm u hu => ?_⟩
        obtain rfl := List.mem_singleton.mp hu
        -- nothing is later than the latest reading
        obtain ⟨hlt, -⟩ := List.getElem?_eq_some_iff.mp (h.among hborn m hm)
        have hlatest := ho.latest _ _ hx
        rw [hmoment]
        omega
      · rw [List.append_nil]
        exact horder

end Timely

/-- **Collections in turn**: as long as the clock is not read for a window while a collection is
under way, all instruments are visited in the order in which the clock was read. -/
theorem Readers.inOrder_of_turns [IsEmpty σ] {s : System σ} (hnew : s.instruments = Table.empty)
    (perform : σ → SystemM σ Unit) (P : Ref .provider) (events : List (ReaderEvent σ))
    (hturns : ({ system := s } : Readers σ).TakeTurns perform P events) (r : Ref .instrument) :
    (({ system := s } : Readers σ).run perform P events).InOrder r := by
  have hrun : ∀ w : Readers σ, Timely P w → w.Ordered → w.TakeTurns perform P events →
      (w.run perform P events).Ordered := by
    clear hturns
    induction events with
    | nil => exact fun _ _ ho _ => ho
    | cons e events ih =>
      intro w h ho hturns
      have hw := w.becomes_step perform P e
      exact ih _ (h.step hw) (h.ordered ho hturns.1 hw) hturns.2
  exact (hrun _ (.start hnew) ⟨fun _ _ => nofun, fun _ _ => nofun⟩ hturns).inOrder r

/-! ### Reported windows -/

/-- **Reported windows**: whatever readers do with a provider, and whenever its instruments are
made, every collection of an instrument reports the window that began with the collection of it
before, or with the instrument, and ends at the time that this collection has read.  So where the
collections reach an instrument in the order in which they have read the clock, no window runs
backwards, and windows that end do not overlap. -/
theorem windows_follow_readings [IsEmpty σ] {s : System σ} (hnew : s.instruments = Table.empty)
    (perform : σ → SystemM σ Unit) (P : Ref .provider) (events : List (ReaderEvent σ))
    (r : Ref .instrument) :
    let w := ({ system := s } : Readers σ).run perform P events
    (∀ v ∈ w.visitsTo r, v.metrics ≠ [] → ∃ span, w.system.spanAt r = some (some span)) ∧
    ∀ span, w.system.spanAt r = some (some span) → ∃ born, w.births r = some born ∧
      w.past.Pairwise (· ≤ ·) ∧
      (∀ m ∈ born :: (w.visitsTo r).map Visit.moment, m.Among w.past) ∧
      span.temporality.Windows born (w.visitsTo r) ∧
      (w.InOrder r →
        (∀ v ∈ w.visitsTo r, ∀ x ∈ v.points, x.start ≤ x.stop) ∧
        (span.temporality = .delta → (w.visitsTo r).Pairwise fun v v' =>
          ∀ x ∈ v.points, ∀ x' ∈ v'.points, x.stop ≤ x'.start)) := by
  intro w
  have h : Timely P w := (Timely.start hnew).run perform events
  have hstory := h.stories r
  constructor
  · intro v hv hmetrics
    rcases hspan : w.system.spanAt r with _ | _ | span <;> rw [hspan] at hstory
    · rw [hstory.2] at hv
      cases hv
    · exact absurd (hstory.2 v hv) hmetrics
    · exact ⟨span, rfl⟩
  · intro span hspan
    rw [hspan] at hstory
    obtain ⟨born, hborn, hwindows, -⟩ := hstory
    have hamong := h.among hborn
    refine ⟨born, hborn, h.past, hamong, hwindows, fun horder => ?_⟩
    have hasc : (born :: (w.visitsTo r).map Visit.moment).Pairwise (·.time ≤ ·.time) :=
      (horder born hborn).imp_of_mem fun hm hm' hle =>
        (hamong _ hm).time_le (hamong _ hm') h.past hle
    refine ⟨hwindows.forward hasc, fun hdelta => ?_⟩
    rw [hdelta] at hwindows
    exact hwindows.apart (List.pairwise_cons.mp hasc).2

/-- When the windows that were reported begin and end, visit by visit. -/
def Readers.bounds (w : Readers σ) (r : Ref .instrument) : List (List (Int × Int)) :=
  (w.visitsTo r).map fun v => v.points.map fun x => (x.start, x.stop)

/-- A system with a provider whose clock shows the time 5. -/
def System.ofProvider : System Empty :=
  { (System.empty : System Empty) with
    clocks := Table.empty.add (.manual 5)
    providers := Table.empty.add
      { resource := Resource.empty
        clock := ⟨0⟩
        chooser := Chooser.empty
        disabled := false
        isShutDown := false
        meters := OrderedMap.empty
        readers := [] } }

/-- A value recorder of long values is made, and a one is recorded. -/
def ReaderEvent.ofRecorder : List (ReaderEvent Empty) :=
  [.meter "server" none,
    .create ⟨0⟩ { kind := .valueRecorder, name := .text "size",
                  valueType := some (.numberClass .long) },
    .record ⟨0⟩ (.number (.integer 1)) .absent]

/-- Two collections overlap, but reach the instrument in the order in which they have read the
clock. -/
theorem windows_follow_readings_of_overlap :
    let events : List (ReaderEvent Empty) := ReaderEvent.ofRecorder ++
      [.pass 5, .collect 0, .pass 5, .collect 1, .collect 0, .collect 0, .collect 0,
        .record ⟨0⟩ (.number (.integer 2)) .absent, .collect 1, .collect 1, .collect 1]
    let w := ({ system := System.ofProvider } : Readers Empty).run (fun _ => pure ()) ⟨0⟩ events
    w.bounds ⟨0⟩ = [[(5, 10)], [(10, 15)]] ∧ w.InOrder ⟨0⟩ ∧
      (∀ v ∈ w.visitsTo ⟨0⟩, ∀ x ∈ v.points, x.start ≤ x.stop) ∧
      (w.visitsTo ⟨0⟩).Pairwise fun v v' =>
        ∀ x ∈ v.points, ∀ x' ∈ v'.points, x.stop ≤ x'.start := by
  intro events w
  have hspan : w.system.spanAt ⟨0⟩ = some (some ⟨.delta, 15⟩) := by decide +kernel
  have horder : w.InOrder ⟨0⟩ := by
    unfold Readers.InOrder
    decide +kernel
  obtain ⟨-, hwindows⟩ := windows_follow_readings (s := System.ofProvider) rfl (fun _ => pure ())
    ⟨0⟩ events ⟨0⟩
  obtain ⟨born, -, -, -, -, hordered⟩ := hwindows _ hspan
  obtain ⟨hforward, hapart⟩ := hordered horder
  exact ⟨by decide +kernel, horder, hforward, hapart rfl⟩

/-- **A window that runs backwards**: the collection that has read the clock first reaches the
instrument second.  Its window begins when the other one has ended and ends before that; and the
next window begins there, within the first one. -/
theorem windows_run_backwards :
    let events : List (ReaderEvent Empty) := ReaderEvent.ofRecorder ++
      [.collect 0, .pass 5, .collect 1, .collect 1, .collect 1, .collect 1,
        .record ⟨0⟩ (.number (.integer 2)) .absent, .collect 0, .collect 0, .collect 0,
        .record ⟨0⟩ (.number (.integer 3)) .absent, .collect 1, .pass 10, .collect 1, .collect 1,
        .collect 1, .collect 1]
    let w := ({ system := System.ofProvider } : Readers Empty).run (fun _ => pure ()) ⟨0⟩ events
    w.bounds ⟨0⟩ = [[(5, 10)], [(10, 5)], [(5, 20)]] ∧
      w.system.spanAt ⟨0⟩ = some (some ⟨.delta, 20⟩) ∧
      ¬ (∀ v ∈ w.visitsTo ⟨0⟩, ∀ x ∈ v.points, x.start ≤ x.stop) ∧
      ¬ (w.visitsTo ⟨0⟩).Pairwise fun v v' =>
        ∀ x ∈ v.points, ∀ x' ∈ v'.points, x.stop ≤ x'.start := by
  decide +kernel

end Metering
