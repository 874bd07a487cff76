import Metering.Proofs.Concurrency.Steps
import Metering.Proofs.Processors.Kin

/-!
# Who keeps an aggregator

The aggregators that a processor works with are kept by its window or by the caller that has made
them, and each of them by one alone.  `Custody` is this invariant, together with the fact that all
of them are kin.  Batching hands an aggregator over: one that is still live stays with the caller
and is emptied, one that is unmapped leaves the caller and is adopted by the window or forgotten.

`Custody.batch` says what becomes of the window, in terms of `Stream.receive`, and of the
aggregators that the caller keeps.
-/

namespace Metering

/-- An aggregator that is batched: its label set, its state, and whether the caller gives it up. -/
structure Arrival where
  labels : LabelSet
  aggregator : Aggregator
  unmapped : Bool
deriving DecidableEq, Repr

namespace Stream

/-- What the window has for a label set once an aggregator for it arrives. -/
def joined (s : Stream) (known : Option Aggregator) (x : Arrival) : Aggregator :=
  match known with
  | some a => a.absorb x.aggregator
  | none => if x.unmapped then x.aggregator else s.freshAggregator.absorb x.aggregator

/-- The window after an aggregator has arrived. -/
def receive (s : Stream) (window : OrderedMap LabelSet Aggregator) (x : Arrival) :
    OrderedMap LabelSet Aggregator :=
  window.insert x.labels (s.joined (window.get? x.labels) x)

variable {s : Stream} {a : Aggregator} {window : OrderedMap LabelSet Aggregator} {x : Arrival}

theorem receive_of_some (h : window.get? x.labels = some a) :
    s.receive window x = s.takeUp window x.labels x.aggregator := by
  unfold receive takeUp
  rw [h]
  rfl

theorem receive_of_live (h : x.unmapped = false) :
    s.receive window x = s.takeUp window x.labels x.aggregator := by
  unfold receive takeUp joined
  cases window.get? x.labels with
  | some a => rfl
  | none =>
    rw [h]
    rfl

theorem receive_of_none (h : window.get? x.labels = none) (hx : x.unmapped = true) :
    s.receive window x = window.insert x.labels x.aggregator := by
  unfold receive joined
  rw [h, hx]
  rfl

/-- What is taken up next to a fresh aggregator is as if nothing had been there. -/
theorem takeUp_insert_fresh (s : Stream) {window : OrderedMap LabelSet Aggregator} {l : LabelSet}
    (h : window.get? l = none) (a : Aggregator) :
    s.takeUp (window.insert l s.freshAggregator) l a = s.takeUp window l a := by
  unfold takeUp
  rw [OrderedMap.get?_insert_self, OrderedMap.insert_insert, h]
  rfl

theorem Kin.joined {known : Option Aggregator} (hknown : ∀ a ∈ known, s.Kin a)
    (hx : s.Kin x.aggregator) : s.Kin (s.joined known x) := by
  unfold Stream.joined
  cases known with
  | some a => exact (hknown a rfl).absorb hx
  | none =>
    dsimp only
    split
    · exact hx
    · exact s.kin_freshAggregator.absorb hx

end Stream

/-- Who keeps an aggregator. -/
inductive Keeper where
  | nobody
  /-- The caller, under one of its names. -/
  | caller (k : Nat)
  | window (labels : LabelSet)
deriving DecidableEq

/-- The aggregators of the window and of the caller are there and are kin, and each of them is kept
by one alone. -/
structure Custody (p : Pool) (s : Stream) (hand : Nat → Option AggregatorId)
    (keeper : AggregatorId → Keeper) : Prop where
  window_iff : ∀ {l i}, s.window.get? l = some i ↔ keeper i = .window l
  hand_iff : ∀ {k i}, hand k = some i ↔ keeper i = .caller k
  has : ∀ {i}, keeper i ≠ .nobody → p.Has i
  kin : ∀ {i}, keeper i ≠ .nobody → s.Kin (p.get i)

/-- The states of the aggregators that a caller keeps. -/
def Pool.states (p : Pool) (hand : Nat → Option AggregatorId) (k : Nat) : Option Aggregator :=
  (hand k).map p.get

theorem Pool.states_congr {p q : Pool} {hand : Nat → Option AggregatorId}
    (h : ∀ k i, hand k = some i → q.get i = p.get i) : q.states hand = p.states hand := by
  funext k
  unfold Pool.states
  cases hk : hand k with
  | none => rfl
  | some i => rw [Option.map_some, Option.map_some, h k i hk]

theorem Pool.states_update_none (p : Pool) (hand : Nat → Option AggregatorId) (k : Nat) :
    p.states (Function.update hand k none) = Function.update (p.states hand) k none := by
  funext k'
  unfold Pool.states
  by_cases hk : k' = k
  · rw [hk, Function.update_self, Function.update_self, Option.map_none]
  · rw [Function.update_of_ne hk, Function.update_of_ne hk]

/-- A name gets an aggregator, and those of the other names are as they were. -/
theorem Pool.states_update_some {p q : Pool} {hand : Nat → Option AggregatorId} {k : Nat}
    {i : AggregatorId} (h : ∀ k' j, k' ≠ k → hand k' = some j → q.get j = p.get j) :
    q.states (Function.update hand k (some i))
      = Function.update (p.states hand) k (some (q.get i)) := by
  funext k'
  unfold Pool.states
  by_cases hk : k' = k
  · rw [hk, Function.update_self, Function.update_self, Option.map_some]
  · rw [Function.update_of_ne hk, Function.update_of_ne hk]
    cases hk' : hand k' with
    | none => rfl
    | some j => rw [Option.map_some, Option.map_some, h k' j hk hk']

/-- What holds of all that is kept, and of one more aggregator, holds when that one is kept too. -/
theorem Keeper.kept_update {keeper : AggregatorId → Keeper} {i : AggregatorId} {keeper' : Keeper}
    {P : AggregatorId → Prop} (h : ∀ {j}, keeper j ≠ .nobody → P j) (hi : P i) {j : AggregatorId}
    (hj : Function.update keeper i keeper' j ≠ .nobody) : P j := by
  by_cases hji : j = i
  · rw [hji]
    exact hi
  · rw [Function.update_of_ne hji] at hj
    exact h hj

namespace Custody

variable {p q : Pool} {s : Stream} {hand : Nat → Option AggregatorId}
  {keeper : AggregatorId → Keeper} {i j : AggregatorId} {k k' : Nat} {l l' : LabelSet}

theorem start (p : Pool) (hs : s.window = OrderedMap.empty) :
    Custody p s (fun _ => none) fun _ => .nobody where
  window_iff := by
    intro l i
    rw [hs]
    exact iff_of_false nofun nofun
  hand_iff := iff_of_false nofun nofun
  has h := absurd rfl h
  kin h := absurd rfl h

theorem kept_window (h : Custody p s hand keeper) (hi : s.window.get? l = some i) :
    keeper i ≠ .nobody := by
  rw [h.window_iff.mp hi]
  exact nofun

theorem kept_hand (h : Custody p s hand keeper) (hi : hand k = some i) : keeper i ≠ .nobody := by
  rw [h.hand_iff.mp hi]
  exact nofun

/-- Two names are of two aggregators. -/
theorem hand_ne (h : Custody p s hand keeper) (hi : hand k = some i) (hj : hand k' = some j)
    (hk : k' ≠ k) : j ≠ i := by
  rintro rfl
  have hj' := h.hand_iff.mp hj
  rw [h.hand_iff.mp hi] at hj'
  exact hk (Keeper.caller.inj hj').symm

/-- Two label sets are of two aggregators. -/
theorem window_ne (h : Custody p s hand keeper) (hi : s.window.get? l = some i)
    (hj : s.window.get? l' = some j) (hl : l' ≠ l) : j ≠ i := by
  rintro rfl
  have hj' := h.window_iff.mp hj
  rw [h.window_iff.mp hi] at hj'
  exact hl (Keeper.window.inj hj').symm

/-- What the caller keeps is not in the window. -/
theorem hand_ne_window (h : Custody p s hand keeper) (hi : hand k = some i)
    (hj : s.window.get? l = some j) : i ≠ j := by
  rintro rfl
  have hj' := h.window_iff.mp hj
  rw [h.hand_iff.mp hi] at hj'
  cases hj'

theorem nobody_next (h : Custody p s hand keeper) : keeper p.next = .nobody := by
  by_contra hne
  exact p.not_has_next (h.has hne)

/-- What nobody keeps may change. -/
theorem elsewhere (h : Custody p s hand keeper) (hq : p.Spares q fun i => keeper i = .nobody) :
    Custody q s hand keeper where
  window_iff := h.window_iff
  hand_iff := h.hand_iff
  has hi := hq.has (h.has hi)
  kin hi := by
    rw [hq.get (h.has hi) hi]
    exact h.kin hi

/-- An aggregator may change as long as it stays kin. -/
theorem change (h : Custody p s hand keeper) (hhas : ∀ {i}, p.Has i → q.Has i)
    (hkin : ∀ i, keeper i ≠ .nobody → q.get i = p.get i ∨ s.Kin (q.get i)) :
    Custody q s hand keeper where
  window_iff := h.window_iff
  hand_iff := h.hand_iff
  has hi := hhas (h.has hi)
  kin {i} hi := by
    rcases hkin i hi with heq | hkin
    · rw [heq]
      exact h.kin hi
    · exact hkin

/-! ### What the caller keeps -/

/-- The caller forgets what it keeps under a name. -/
theorem drop (h : Custody p s hand keeper) (k : Nat) :
    Custody p s (Function.update hand k none)
      fun i => if keeper i = .caller k then .nobody else keeper i where
  window_iff {l i} := by
    rw [h.window_iff]
    split
    · next hi => exact iff_of_false (by rw [hi]; exact nofun) nofun
    · exact Iff.rfl
  hand_iff {k' i} := by
    by_cases hk : k' = k
    · subst hk
      rw [Function.update_self]
      split
      · exact iff_of_false nofun nofun
      · next hi => exact iff_of_false nofun hi
    · rw [Function.update_of_ne hk, h.hand_iff]
      split
      · next hi =>
        rw [hi]
        exact iff_of_false (fun he => hk (Keeper.caller.inj he).symm) nofun
      · exact Iff.rfl
  has {i} hi := h.has fun hn => hi (by simp [hn])
  kin {i} hi := h.kin fun hn => hi (by simp [hn])

/-- The caller keeps an aggregator under a name that it has used for nothing so far. -/
theorem keep (h : Custody p s hand keeper) (hk : hand k = none) (hi : keeper i = .nobody)
    (hhas : p.Has i) (hkin : s.Kin (p.get i)) :
    Custody p s (Function.update hand k (some i)) (Function.update keeper i (.caller k)) where
  window_iff {l j} := by
    rw [h.window_iff]
    by_cases hj : j = i
    · rw [hj, Function.update_self, hi]
      exact iff_of_false nofun nofun
    · rw [Function.update_of_ne hj]
  hand_iff {k' j} := by
    by_cases hj : j = i
    · rw [hj, Function.update_self]
      by_cases hk' : k' = k
      · rw [hk', Function.update_self]
        exact iff_of_true rfl rfl
      · rw [Function.update_of_ne hk', h.hand_iff, hi]
        exact iff_of_false nofun fun he => hk' (Keeper.caller.inj he).symm
    · rw [Function.update_of_ne hj]
      by_cases hk' : k' = k
      · rw [hk', Function.update_self, ← h.hand_iff, hk]
        exact iff_of_false (fun he => hj (Option.some.inj he).symm) nofun
      · rw [Function.update_of_ne hk', h.hand_iff]
  has := Keeper.kept_update (P := p.Has) h.has hhas
  kin := Keeper.kept_update (P := fun j => s.Kin (p.get j)) h.kin hkin

/-- The caller makes an aggregator, and forgets what had its name. -/
theorem make (h : Custody p s hand keeper) (k : Nat) {a : Aggregator} (ha : s.Kin a) :
    ∃ keeper', Custody (p.add a) s (Function.update hand k (some p.next)) keeper' ∧
      s.windowIn (p.add a) = s.windowIn p ∧
      (p.add a).states (Function.update hand k (some p.next))
        = Function.update (p.states hand) k (some a) := by
  have hget : (p.add a).get p.next = a := by rw [Pool.get_add_next]
  have hsame : ∀ {i}, p.Has i → (p.add a).get i = p.get i := fun hi => by
    rw [Pool.get_add_of_has hi]
  -- the name is freed first, since it may be of another aggregator
  have hdrop := (h.elsewhere (q := p.add a) Pool.Spares.add).drop k
  have hkeep := hdrop.keep (i := p.next) (Function.update_self ..)
    (by simp [h.nobody_next]) (Pool.has_add.mpr (Or.inr rfl)) (by rw [hget]; exact ha)
  rw [Function.update_idem] at hkeep
  refine ⟨_, hkeep, OrderedMap.map_congr fun l i hi => hsame (h.has (h.kept_window hi)), ?_⟩
  rw [Pool.states_update_some fun k' j _ hj => hsame (h.has (h.kept_hand hj)), hget]

/-- The caller changes one of its aggregators. -/
theorem set (h : Custody p s hand keeper) (hi : hand k = some i) {a : Aggregator} (ha : s.Kin a) :
    Custody (p.set i a) s hand keeper ∧ s.windowIn (p.set i a) = s.windowIn p ∧
      (p.set i a).states hand = Function.update (p.states hand) k (some a) := by
  have hkept := h.kept_hand hi
  have hself : (p.set i a).get i = a := Pool.get_set_self (h.has hkept)
  have hother : ∀ {j}, j ≠ i → (p.set i a).get j = p.get j := fun hj =>
    Pool.get_set_of_ne p a hj.symm
  refine ⟨h.change Pool.has_set.mpr fun j _ => ?_, OrderedMap.map_congr fun l j hj => ?_, ?_⟩
  · by_cases hj : j = i
    · rw [hj, hself]
      exact Or.inr ha
    · exact Or.inl (hother hj)
  · exact hother (h.hand_ne_window hi hj).symm
  · have hstates := Pool.states_update_some (p := p) (q := p.set i a) (i := i)
      fun k' j hk hj => hother (h.hand_ne hi hj hk)
    rwa [Function.update_eq_self_iff.mpr hi.symm, hself] at hstates

/-! ### Batching -/

/-- An aggregator enters the window that has nothing for its label set. -/
theorem enter (h : Custody p s hand keeper) (hl : s.window.get? l = none)
    (hi : keeper i = .nobody) (hhas : p.Has i) (hkin : s.Kin (p.get i)) :
    Custody p { s with window := s.window.insert l i } hand
      (Function.update keeper i (.window l)) where
  window_iff {l' j} := by
    rw [OrderedMap.get?_insert]
    by_cases hj : j = i
    · rw [hj, Function.update_self]
      split
      · next hl' => exact iff_of_true rfl (congrArg Keeper.window hl'.symm)
      · next hl' =>
        rw [h.window_iff, hi]
        exact iff_of_false (fun he => by cases he) fun he => hl' (Keeper.window.inj he).symm
    · rw [Function.update_of_ne hj]
      split
      · next hl' =>
        rw [← h.window_iff, hl', hl]
        exact iff_of_false (fun he => hj (Option.some.inj he).symm) fun he => by cases he
      · exact h.window_iff
  hand_iff {k j} := by
    rw [h.hand_iff]
    by_cases hj : j = i
    · rw [hj, Function.update_self, hi]
      simp only [reduceCtorEq]
    · rw [Function.update_of_ne hj]
  has := Keeper.kept_update (P := p.Has) h.has hhas
  kin := Keeper.kept_update (P := fun j => s.Kin (p.get j)) h.kin hkin

/-- **Moving** an aggregator of the caller into one of the window. -/
theorem pour (h : Custody p s hand keeper) (hi : hand k = some i) (hj : s.window.get? l = some j) :
    ∃ q, p.move i j = .ok q ∧ Custody q s hand keeper ∧
      s.windowIn q = s.takeUp (s.windowIn p) l (p.get i) ∧
      q.states hand = Function.update (p.states hand) k (some (p.get i).emptied) := by
  have hkept := h.kept_hand hi
  have hkept' := h.kept_window hj
  have hne := h.hand_ne_window hi hj
  obtain ⟨q, hmove, hsource, htarget, -, hspares⟩ := Pool.move_of_ne hne (h.has hkept)
    (h.has hkept') ((h.kin hkept).mergeError? (h.kin hkept'))
  have hother : ∀ {n}, keeper n ≠ .nobody → n ≠ i → n ≠ j → q.get n = p.get n :=
    fun hn hni hnj => hspares.get (h.has hn) (not_or.mpr ⟨hni, hnj⟩)
  refine ⟨q, hmove, h.change hspares.has fun n hn => ?_, ?_, ?_⟩
  · by_cases hni : n = i
    · rw [hni, hsource]
      exact Or.inr (h.kin hkept).emptied
    · by_cases hnj : n = j
      · rw [hnj, htarget]
        exact Or.inr ((h.kin hkept').absorb (h.kin hkept))
      · exact Or.inl (hother hn hni hnj)
  · exact Stream.windowIn_pour hj htarget fun l' n hn hl =>
      hother (h.kept_window hn) (h.hand_ne_window hi hn).symm (h.window_ne hj hn hl)
  -- the name keeps its aggregator, which is empty now
  · have hstates := Pool.states_update_some (p := p) (q := q) (i := i) fun k' n hk hn =>
      hother (h.kept_hand hn) (h.hand_ne hi hn hk) (h.hand_ne_window hn hj)
    rwa [Function.update_eq_self_iff.mpr hi.symm, hsource] at hstates

/-- A new aggregator of the stream enters the window. -/
theorem enter_fresh (h : Custody p s hand keeper) (hl : s.window.get? l = none) :
    Custody (p.add s.freshAggregator) { s with window := s.window.insert l p.next } hand
        (Function.update keeper p.next (.window l)) ∧
      ({ s with window := s.window.insert l p.next } : Stream).windowIn (p.add s.freshAggregator)
        = (s.windowIn p).insert l s.freshAggregator ∧
      (p.add s.freshAggregator).states hand = p.states hand := by
  have hget : (p.add s.freshAggregator).get p.next = s.freshAggregator := by
    rw [Pool.get_add_next]
  have hsame : ∀ {i}, p.Has i → (p.add s.freshAggregator).get i = p.get i := fun hi => by
    rw [Pool.get_add_of_has hi]
  refine ⟨(h.elsewhere Pool.Spares.add).enter hl h.nobody_next (Pool.has_add.mpr (Or.inr rfl))
      (by rw [hget]; exact s.kin_freshAggregator), ?_,
    Pool.states_congr fun k i hi => hsame (h.has (h.kept_hand hi))⟩
  unfold Stream.windowIn
  rw [OrderedMap.map_insert, hget,
    OrderedMap.map_congr fun l' i hi => hsame (h.has (h.kept_window hi))]

/-! ### What batching does -/

/-- The names of a caller after it has batched an aggregator, which it may give away. -/
def handed (hand : Nat → Option AggregatorId) (k : Nat) (unmapped : Bool) :
    Nat → Option AggregatorId :=
  if unmapped then Function.update hand k none else hand

/-- **Batching** an aggregator of the caller succeeds.  The window takes up what it holds, and the
caller is left with an empty one, or without it if it is unmapped. -/
theorem batch {w : PooledStream} (h : Custody w.pool w.stream hand keeper) (hi : hand k = some i)
    (l : LabelSet) (unmapped : Bool) :
    ∃ (w' : PooledStream) (keeper' : AggregatorId → Keeper),
      w.batch l i unmapped = (.ok (), w') ∧
      Custody w'.pool w'.stream (handed hand k unmapped) keeper' ∧
      w.stream.Continues w'.stream ∧ w'.stream.start = w.stream.start ∧
      w'.stream.windowIn w'.pool
        = w.stream.receive (w.stream.windowIn w.pool) ⟨l, w.pool.get i, unmapped⟩ ∧
      w'.pool.states (handed hand k unmapped) = Function.update (w.pool.states hand) k
        (if unmapped then none else some (w.pool.get i).emptied) := by
  have hwindow : (w.stream.windowIn w.pool).get? l
      = (w.stream.window.get? l).map w.pool.get := OrderedMap.get?_map _ _ l
  cases hl : w.stream.window.get? l with
  | some j =>
    obtain ⟨q, hmove, hq, hqwindow, hqstates⟩ := h.pour hi hl
    have hbatch : w.batch l i unmapped = (.ok (), { w with pool := q }) := by
      rw [PooledStream.batch_of_some hl, PooledStream.move_of_ok hmove]
    rw [Stream.receive_of_some (by rw [hwindow, hl]; rfl)]
    cases unmapped with
    | false => exact ⟨_, keeper, hbatch, hq, rfl, rfl, hqwindow, hqstates⟩
    | true =>
      refine ⟨_, _, hbatch, hq.drop k, rfl, rfl, hqwindow, ?_⟩
      show q.states (Function.update hand k none) = _
      rw [Pool.states_update_none, hqstates, Function.update_idem]
      rfl
  | none =>
    cases unmapped with
    | false =>
      rw [Stream.receive_of_live rfl]
      obtain ⟨hentered, hwindow', hstates'⟩ := h.enter_fresh hl
      obtain ⟨q, hmove, hq, hqwindow, hqstates⟩ :=
        hentered.pour hi (OrderedMap.get?_insert_self _ l w.pool.next)
      have hget : (w.pool.add w.stream.freshAggregator).get i = w.pool.get i := by
        rw [Pool.get_add_of_has (h.has (h.kept_hand hi))]
      rw [hwindow', hget] at hqwindow
      rw [hstates', hget] at hqstates
      refine ⟨_, _, (PooledStream.batch_of_none_live hl).trans (PooledStream.move_of_ok hmove), hq,
        rfl, rfl, hqwindow.trans ?_, hqstates⟩
      exact w.stream.takeUp_insert_fresh (by rw [hwindow, hl]; rfl) _
    | true =>
      rw [Stream.receive_of_none (by rw [hwindow, hl]; rfl) rfl]
      have hkept := h.kept_hand hi
      -- the caller lets go of the aggregator before the window has it
      have hentered := (h.drop k).enter hl (i := i) (by simp [h.hand_iff.mp hi]) (h.has hkept)
        (h.kin hkept)
      refine ⟨_, _, PooledStream.batch_of_none_unmapped hl, hentered, rfl, rfl, ?_, ?_⟩
      · exact OrderedMap.map_insert w.pool.get w.stream.window l i
      · exact w.pool.states_update_none hand k

/-- The end of a cycle lets go of the window, unless it never ends. -/
theorem skip {w : PooledStream} (h : Custody w.pool w.stream hand keeper) (time : Int) :
    ∃ keeper', Custody w.pool (w.stream.endWindow time) hand keeper' := by
  cases htemp : w.stream.temporality with
  | cumulative =>
    rw [Stream.endWindow_cumulative htemp]
    exact ⟨keeper, h⟩
  | delta =>
    rw [Stream.endWindow_delta htemp]
    refine ⟨fun i => match keeper i with | .window _ => .nobody | other => other, ?_, ?_, ?_, ?_⟩
    · intro l i
      refine iff_of_false nofun ?_
      cases keeper i <;> exact nofun
    · intro k i
      rw [h.hand_iff]
      cases keeper i <;> simp
    · intro i hi
      exact h.has fun hn => hi (by rw [hn])
    · intro i hi
      exact h.kin fun hn => hi (by rw [hn])

end Custody

end Metering
