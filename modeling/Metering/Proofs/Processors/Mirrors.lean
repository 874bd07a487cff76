import Metering.Proofs.Processors.Calls

/-!
# Work under other identifiers

What a processor reports does not depend on the identifiers of the aggregators.  A pool mirrors
another one if it has the aggregators that are in use there, each under an identifier of its own
(`Pool.Mirrors`), and the operations on a stream keep that, whichever aggregators they work with
(`PooledStream.Mirrors`).

Here a caller may go on using an aggregator after it has been batched as unmapped: it
keeps all of its names (`ProcessorCall.keep`).  A `Desk` is what the calls of such a caller see of a
system, and `Desk.Mirrors.outcomes` is the main statement: the same calls on desks that mirror each
other, apart from some names that they do not use, have the same outcomes.
-/

namespace Metering

open Fallible SystemM

variable {σ : Type}

/-- Two computations fail alike, or both succeed with results that are related. -/
def Agree {ε α β : Type} (R : α → β → Prop) : Except ε α → Except ε β → Prop
  | .ok a, .ok b => R a b
  | .error e, .error e' => e = e'
  | _, _ => False

theorem Agree.inv {ε α β : Type} {R : α → β → Prop} {x : Except ε α} {y : Except ε β}
    (h : Agree R x y) :
    (∃ e, x = .error e ∧ y = .error e) ∨ ∃ a b, x = .ok a ∧ y = .ok b ∧ R a b := by
  cases x with
  | error e =>
    cases y with
    | error e' => exact Or.inl ⟨e, rfl, congrArg Except.error h.symm⟩
    | ok b => exact h.elim
  | ok a =>
    cases y with
    | error e' => exact h.elim
    | ok b => exact Or.inr ⟨a, b, rfl, rfl, h⟩

/-! ### Pools -/

namespace Pool

/-- The second pool has the aggregators of the first one that are in use, under identifiers of its
own. -/
structure Mirrors (f : AggregatorId → AggregatorId) (used : AggregatorId → Prop) (p q : Pool) :
    Prop where
  /-- What is in use is there. -/
  has : ∀ {i}, used i → p.Has i
  /-- It is there under its other identifier. -/
  has_image : ∀ {i}, used i → q.Has (f i)
  /-- It is in the same state. -/
  get : ∀ {i}, used i → q.get (f i) = p.get i
  /-- Different aggregators have different identifiers. -/
  inj : ∀ {i j}, used i → used j → f i = f j → i = j

namespace Mirrors

variable {f g : AggregatorId → AggregatorId} {used used' : AggregatorId → Prop} {p q : Pool}
  {i j : AggregatorId}

theorem set (h : Mirrors f used p q) (hi : used i) (a : Aggregator) :
    Mirrors f used (p.set i a) (q.set (f i) a) where
  has hj := has_set.mpr (h.has hj)
  has_image hj := has_set.mpr (h.has_image hj)
  get {j} hj := by
    by_cases hij : i = j
    · subst hij
      rw [get_set_self (h.has hi), get_set_self (h.has_image hi)]
    · have hne : f i ≠ f j := fun heq => hij (h.inj hi hj heq)
      rw [get_set_of_ne p a hij, get_set_of_ne q a hne, h.get hj]
  inj := h.inj

/-- A new aggregator is in use from now on. -/
theorem add (h : Mirrors f used p q) (a : Aggregator) :
    Mirrors (Function.update f p.next q.next) (fun i => used i ∨ i = p.next)
      (p.add a) (q.add a) := by
  have hold : ∀ {i}, used i → Function.update f p.next q.next i = f i := fun hi =>
    Function.update_of_ne (h.has hi).ne_next _ _
  refine ⟨fun hi => has_add.mpr (hi.imp_left h.has), ?_, ?_, ?_⟩
  · rintro i (hi | rfl)
    · rw [hold hi]
      exact has_add.mpr (Or.inl (h.has_image hi))
    · rw [Function.update_self]
      exact has_add.mpr (Or.inr rfl)
  · rintro i (hi | rfl)
    · rw [hold hi]
      rw [get_add_of_has (h.has_image hi), get_add_of_has (h.has hi), h.get hi]
    · rw [Function.update_self, get_add_next, get_add_next]
  · rintro i j (hi | rfl) (hj | rfl) heq
    · rw [hold hi, hold hj] at heq
      exact h.inj hi hj heq
    · rw [hold hi, Function.update_self] at heq
      exact absurd heq (h.has_image hi).ne_next
    · rw [hold hj, Function.update_self] at heq
      exact absurd heq.symm (h.has_image hj).ne_next
    · rfl

theorem record (h : Mirrors f used p q) (hi : used i) (x : Scalar) :
    Agree (Mirrors f used) (p.record i x) (q.record (f i) x) := by
  unfold Pool.record
  rw [h.get hi]
  cases (p.get i).record x with
  | error e => exact rfl
  | ok a => exact h.set hi a

theorem move (h : Mirrors f used p q) (hi : used i) (hj : used j) :
    Agree (Mirrors f used) (p.move i j) (q.move (f i) (f j)) := by
  have hdrained := h.set hi (p.get i).emptied
  unfold Pool.move
  rw [h.get hi, h.get hj]
  dsimp only
  rw [hdrained.get hj]
  cases (p.get i).mergeError? (p.get j) with
  | some e => exact rfl
  | none => exact hdrained.set hj _

end Mirrors

end Pool

/-! ### Streams -/

namespace PooledStream

/-- The second stream has the window of the first one, with the aggregators that mirror those
there. -/
structure Mirrors (f : AggregatorId → AggregatorId) (used : AggregatorId → Prop)
    (w w' : PooledStream) : Prop where
  pool : w.pool.Mirrors f used w'.pool
  stream : w'.stream = { w.stream with window := w.stream.window.map f }
  window : ∀ {l i}, w.stream.window.get? l = some i → used i

namespace Mirrors

variable {f g : AggregatorId → AggregatorId} {used used' : AggregatorId → Prop}
  {w w' : PooledStream} {i j : AggregatorId} {l : LabelSet}

theorem get?_window (h : Mirrors f used w w') (l : LabelSet) :
    w'.stream.window.get? l = (w.stream.window.get? l).map f := by
  rw [h.stream]
  exact OrderedMap.get?_map f w.stream.window l

/-- Both are as before but for the pools. -/
theorem of_pool (h : Mirrors f used w w') {p q : Pool} (hpool : p.Mirrors f used q) :
    Mirrors f used { w with pool := p } { w' with pool := q } := ⟨hpool, h.stream, h.window⟩

theorem enter (h : Mirrors f used w w') (hi : used i) (l : LabelSet) :
    Mirrors f used (w.enter l i) (w'.enter l (f i)) where
  pool := h.pool
  stream := by
    show { w'.stream with window := w'.stream.window.insert l (f i) } = _
    rw [h.stream]
    show _ = { w.stream with window := (w.stream.window.insert l i).map f }
    rw [OrderedMap.map_insert]
  window {l' j} hj := by
    have hj : (w.stream.window.insert l i).get? l' = some j := hj
    rw [OrderedMap.get?_insert] at hj
    split at hj
    · exact Option.some.inj hj ▸ hi
    · exact h.window hj

theorem move (h : Mirrors f used w w') (hi : used i) (hj : used j) :
    (w'.move (f i) (f j)).1 = (w.move i j).1 ∧
      Mirrors f used (w.move i j).2 (w'.move (f i) (f j)).2 := by
  unfold PooledStream.move
  rcases (h.pool.move hi hj).inv with ⟨e, hp, hq⟩ | ⟨p, q, hp, hq, hpool⟩
  · rw [hp, hq]
    exact ⟨rfl, h⟩
  · rw [hp, hq]
    exact ⟨rfl, h.of_pool hpool⟩

/-- A new aggregator, which is in use from now on. -/
theorem add (h : Mirrors f used w w') (a : Aggregator) :
    Mirrors (Function.update f w.pool.next w'.pool.next) (fun i => used i ∨ i = w.pool.next)
      { w with pool := w.pool.add a } { w' with pool := w'.pool.add a } where
  pool := h.pool.add a
  stream := by
    show w'.stream = _
    rw [h.stream]
    refine congrArg (fun window => { w.stream with window := window }) ?_
    refine OrderedMap.map_congr fun l i hi => ?_
    exact (Function.update_of_ne (h.pool.has (h.window hi)).ne_next _ _).symm
  window hi := Or.inl (h.window hi)

theorem create (h : Mirrors f used w w') :
    Mirrors (Function.update f w.pool.next w'.pool.next) (fun i => used i ∨ i = w.pool.next)
      w.create.2 w'.create.2 := by
  have hfresh : w'.stream.freshAggregator = w.stream.freshAggregator := by rw [h.stream]; rfl
  show Mirrors _ _ _ { w' with pool := w'.pool.add w'.stream.freshAggregator }
  rw [hfresh]
  exact h.add _

/-- **Batching** comes to the same, and one aggregator more may be in use. -/
theorem batch (h : Mirrors f used w w') (hi : used i) (l : LabelSet) (unmapped : Bool) :
    (w'.batch l (f i) unmapped).1 = (w.batch l i unmapped).1 ∧ ∃ g used',
      (∀ {j}, used j → used' j ∧ g j = f j) ∧
      Mirrors g used' (w.batch l i unmapped).2 (w'.batch l (f i) unmapped).2 := by
  cases hl : w.stream.window.get? l with
  | some j =>
    have hl' : w'.stream.window.get? l = some (f j) := by rw [h.get?_window, hl, Option.map_some]
    rw [batch_of_some hl, batch_of_some hl']
    obtain ⟨hresult, hmirrors⟩ := h.move hi (h.window hl)
    exact ⟨hresult, f, used, fun hj => ⟨hj, rfl⟩, hmirrors⟩
  | none =>
    have hl' : w'.stream.window.get? l = none := by rw [h.get?_window, hl, Option.map_none]
    cases unmapped with
    | true =>
      rw [batch_of_none_unmapped hl, batch_of_none_unmapped hl']
      exact ⟨rfl, f, used, fun hj => ⟨hj, rfl⟩, h.enter hi l⟩
    | false =>
      have hcreated := h.create
      have hnext : Function.update f w.pool.next w'.pool.next w.pool.next = w'.pool.next :=
        Function.update_self _ _ _
      have hold : ∀ {j}, used j → Function.update f w.pool.next w'.pool.next j = f j := fun hj =>
        Function.update_of_ne (h.pool.has hj).ne_next _ _
      have hentered := hcreated.enter (Or.inr rfl) l
      have hmoved := hentered.move (Or.inl hi) (Or.inr rfl)
      rw [hnext, hold hi] at hmoved
      rw [batch_of_none_live hl, batch_of_none_live hl']
      exact ⟨hmoved.1, _, _, fun hj => ⟨Or.inl hj, hold hj⟩, hmoved.2⟩

theorem skip (h : Mirrors f used w w') (time : Int) :
    Mirrors f used (w.skip time) (w'.skip time) := by
  have htemporality : w'.stream.temporality = w.stream.temporality := by rw [h.stream]
  unfold PooledStream.skip
  cases ht : w.stream.temporality with
  | cumulative =>
    rw [Stream.endWindow_cumulative ht, Stream.endWindow_cumulative (htemporality.trans ht)]
    exact h
  | delta =>
    rw [Stream.endWindow_delta ht, Stream.endWindow_delta (htemporality.trans ht)]
    refine ⟨h.pool, ?_, fun hi => by cases hi⟩
    dsimp only
    rw [h.stream]
    rfl

/-- **The metrics** are the same. -/
theorem complete (h : Mirrors f used w w') (time : Int) :
    (w'.complete time).1 = (w.complete time).1 := by
  obtain ⟨hpool, hstream, hwindow⟩ := h
  show w'.stream.metrics w'.pool time = w.stream.metrics w.pool time
  have hin : w'.stream.windowIn w'.pool = w.stream.windowIn w.pool := by
    rw [hstream]
    show (w.stream.window.map f).map w'.pool.get = w.stream.window.map w.pool.get
    rw [OrderedMap.map_map]
    exact OrderedMap.map_congr fun l i hi => hpool.get (hwindow hi)
  rw [Stream.metrics_eq, Stream.metrics_eq, hin, hstream]
  rfl

end Mirrors

end PooledStream

/-! ### Calls -/

namespace ProcessorCall

/-- The call is about the aggregator of a name. -/
def Names (k : Nat) : ProcessorCall → Prop
  | create k' | make k' _ _ | record k' _ | batch _ k' _ => k' = k
  | _ => False

/-- The names of a caller after a call, of which `next` is the identifier of a new aggregator.  What
has been batched keeps its name. -/
def named (hand : Nat → Option AggregatorId) (next : AggregatorId) :
    ProcessorCall → Nat → Option AggregatorId
  | create k | make k _ _ => Function.update hand k (some next)
  | _ => hand

/-- The bench after a call of a caller that keeps all of its names, with what came of it. -/
def keep (r : Ref .processor) (b : Bench σ) (c : ProcessorCall) :
    Except Failure (List Metric) × Bench σ :=
  let (result, s) := c.perform r b.hand b.system
  (result, ⟨s, c.named b.hand b.system.pool.next⟩)

/-- What a call does with the stream of a processor at a time. -/
def act (hand : Nat → Option AggregatorId) (now : Int) (w : PooledStream) :
    ProcessorCall → Except Failure (List Metric) × PooledStream
  | create _ => (.ok [], w.create.2)
  | make _ shape valueType =>
    (.ok [], { w with pool := w.pool.add (Aggregator.fresh shape valueType) })
  | record k value =>
    match hand k with
    | none => (.error (.unusable "aggregator"), w)
    | some i =>
      match w.pool.record i value with
      | .ok p => (.ok [], { w with pool := p })
      | .error e => (.error (.record e), w)
  | batch labels k unmapped =>
    match hand k with
    | none => (.error (.unusable "aggregator"), w)
    | some i => ((w.batch labels i unmapped).1.map fun _ => [], (w.batch labels i unmapped).2)
  | complete time => (.ok (w.complete (time.getD now)).1, w.skip (time.getD now))
  | skip time => (.ok [], w.skip (time.getD now))
  | elapse _ => (.ok [], w)

end ProcessorCall

/-- What the outcomes of several calls are. -/
def Bench.outcomes (r : Ref .processor) (b : Bench σ) :
    List ProcessorCall → List (Except Failure (List Metric))
  | [] => []
  | c :: rest => (c.keep r b).1 :: outcomes r (c.keep r b).2 rest

/-- The names of a caller, with the stream and the clock of the processor. -/
structure Desk where
  hand : Nat → Option AggregatorId
  work : PooledStream
  clock : Clock

namespace Desk

/-- The desk after a call, with what came of it. -/
def step (d : Desk) (c : ProcessorCall) : Except Failure (List Metric) × Desk :=
  let (result, w) := c.act d.hand d.clock.now d.work
  (result, ⟨c.named d.hand d.work.pool.next, w, c.clockAfter d.clock⟩)

/-- What the outcomes of several calls are. -/
def outcomes (d : Desk) : List ProcessorCall → List (Except Failure (List Metric))
  | [] => []
  | c :: rest => (d.step c).1 :: outcomes (d.step c).2 rest

/-- The desk is what a caller of a processor sees of a bench. -/
structure Views (d : Desk) (b : Bench σ) (r : Ref .processor) (p : Processor) : Prop where
  hand : b.hand = d.hand
  pool : b.system.pool = d.work.pool
  processor : b.system.processors.get? r = some { p with stream := d.work.stream }
  clock : b.system.clocks.get? p.clock = some d.clock

namespace Views

variable {d : Desk} {b : Bench σ} {r : Ref .processor} {p : Processor}

theorem step (h : d.Views b r p) (c : ProcessorCall) :
    (c.keep r b).1 = (d.step c).1 ∧ (d.step c).2.Views (c.keep r b).2 r p := by
  obtain ⟨hand, ⟨pool, stream⟩, clock⟩ := d
  obtain ⟨system, hand'⟩ := b
  obtain ⟨rfl, rfl, hprocessor, hclock⟩ := h
  dsimp only at hprocessor hclock
  unfold ProcessorCall.keep Desk.step
  cases c with
  | create k =>
    unfold ProcessorCall.perform
    simp only [bind_apply, onProcessor_apply hprocessor, pure_apply]
    exact ⟨rfl, rfl, rfl, Table.get?_set_self _ hprocessor, hclock⟩
  | make k shape v => exact ⟨rfl, rfl, rfl, hprocessor, hclock⟩
  | record k value =>
    unfold ProcessorCall.perform ProcessorCall.act
    simp only [bind_apply, demand_apply, changePool_apply]
    cases hand' k with
    | none => exact ⟨rfl, rfl, rfl, hprocessor, hclock⟩
    | some i =>
      dsimp only
      cases system.pool.record i value with
      | error e => exact ⟨rfl, rfl, rfl, hprocessor, hclock⟩
      | ok q => exact ⟨rfl, rfl, rfl, hprocessor, hclock⟩
  | batch l k unmapped =>
    unfold ProcessorCall.perform ProcessorCall.act
    simp only [bind_apply, demand_apply]
    cases hand' k with
    | none => exact ⟨rfl, rfl, rfl, hprocessor, hclock⟩
    | some i =>
      simp only [onProcessor_apply hprocessor]
      rcases (⟨system.pool, stream⟩ : PooledStream).batch l i unmapped with ⟨_ | _, w⟩ <;>
        exact ⟨rfl, rfl, rfl, Table.get?_set_self _ hprocessor, hclock⟩
  | complete time =>
    unfold ProcessorCall.perform SystemM.processor
    simp only [bind_apply, get_apply, demand_apply, hprocessor, timeOr_apply hclock,
      onProcessor_apply hprocessor]
    exact ⟨rfl, rfl, rfl, Table.get?_set_self _ hprocessor, hclock⟩
  | skip time =>
    unfold ProcessorCall.perform SystemM.processor
    simp only [bind_apply, get_apply, demand_apply, hprocessor, timeOr_apply hclock,
      onProcessor_apply hprocessor, pure_apply]
    exact ⟨rfl, rfl, rfl, Table.get?_set_self _ hprocessor, hclock⟩
  | elapse nanos =>
    unfold ProcessorCall.perform SystemM.processor SystemM.clock
    simp only [bind_apply, get_apply, demand_apply, hprocessor, hclock, modify_apply, pure_apply]
    exact ⟨rfl, rfl, rfl, hprocessor, Table.get?_set_self _ hclock⟩

/-- **The outcomes** of calls are those that the desk shows. -/
theorem outcomes (h : d.Views b r p) (calls : List ProcessorCall) :
    b.outcomes r calls = d.outcomes calls := by
  induction calls generalizing d b with
  | nil => rfl
  | cons c calls ih =>
    obtain ⟨hresult, hviews⟩ := h.step c
    rw [Bench.outcomes, Desk.outcomes, hresult, ih hviews]

end Views

/-! ### Desks that mirror each other -/

/-- The second desk has the names of the first one, apart from some, and its stream mirrors that
one. -/
structure Mirrors (f : AggregatorId → AggregatorId) (used : AggregatorId → Prop)
    (apart : Nat → Prop) (d d' : Desk) : Prop where
  work : d.work.Mirrors f used d'.work
  used : ∀ {k}, ¬ apart k → ∀ {i}, d.hand k = some i → used i
  hand : ∀ {k}, ¬ apart k → d'.hand k = (d.hand k).map f
  clock : d'.clock = d.clock

namespace Mirrors

variable {f g : AggregatorId → AggregatorId} {used used' : AggregatorId → Prop}
  {apart : Nat → Prop} {d d' : Desk}

/-- The names are the same after more has come into use. -/
theorem hand_extend (h : Mirrors f used apart d d') (hext : ∀ {i}, used i → used' i ∧ g i = f i)
    {k : Nat} (hk : ¬ apart k) :
    (∀ {i}, d.hand k = some i → used' i) ∧ d'.hand k = (d.hand k).map g := by
  refine ⟨fun hi => (hext (h.used hk hi)).1, ?_⟩
  rw [h.hand hk]
  cases hi : d.hand k with
  | none => rfl
  | some i => rw [Option.map_some, Option.map_some, (hext (h.used hk hi)).2]

/-- A call that gives no names keeps them. -/
theorem of_work (h : Mirrors f used apart d d') {w w' : PooledStream}
    (hwork : w.Mirrors g used' w') (hext : ∀ {i}, used i → used' i ∧ g i = f i) (c : Clock) :
    Mirrors g used' apart ⟨d.hand, w, c⟩ ⟨d'.hand, w', c⟩ :=
  ⟨hwork, fun hk => (h.hand_extend hext hk).1, fun hk => (h.hand_extend hext hk).2, rfl⟩

/-- A new aggregator gets a name. -/
theorem of_new (h : Mirrors f used apart d d') {w w' : PooledStream}
    (hwork : w.Mirrors (Function.update f d.work.pool.next d'.work.pool.next)
      (fun i => used i ∨ i = d.work.pool.next) w') (k : Nat) (c : Clock) :
    Mirrors (Function.update f d.work.pool.next d'.work.pool.next)
      (fun i => used i ∨ i = d.work.pool.next) apart
      ⟨Function.update d.hand k (some d.work.pool.next), w, c⟩
      ⟨Function.update d'.hand k (some d'.work.pool.next), w', c⟩ := by
  have hext : ∀ {i}, used i → (used i ∨ i = d.work.pool.next) ∧
      Function.update f d.work.pool.next d'.work.pool.next i = f i := fun hi =>
    ⟨Or.inl hi, Function.update_of_ne (h.work.pool.has hi).ne_next _ _⟩
  refine ⟨hwork, fun {k'} hk' i hi => ?_, fun {k'} hk' => ?_, rfl⟩
  · dsimp only at hi
    by_cases hkk : k' = k
    · rw [hkk, Function.update_self] at hi
      exact Or.inr (Option.some.inj hi).symm
    · rw [Function.update_of_ne hkk] at hi
      exact (h.hand_extend hext hk').1 hi
  · dsimp only
    by_cases hkk : k' = k
    · rw [hkk, Function.update_self, Function.update_self, Option.map_some, Function.update_self]
    · rw [Function.update_of_ne hkk, Function.update_of_ne hkk]
      exact (h.hand_extend hext hk').2

/-- **One call** has the same outcome on both desks, which mirror each other afterwards. -/
theorem step (h : Mirrors f used apart d d') {c : ProcessorCall}
    (hc : ∀ k, apart k → ¬ c.Names k) :
    (d'.step c).1 = (d.step c).1 ∧
      ∃ g used', Mirrors g used' apart (d.step c).2 (d'.step c).2 := by
  have hsame : ∀ {i}, used i → used i ∧ f i = f i := fun hi => ⟨hi, rfl⟩
  have hclock := h.clock
  unfold Desk.step
  cases c with
  | create k =>
    dsimp only
    rw [hclock]
    -- the two desks may get different aggregators here: from now on the map pairs them
    exact ⟨rfl, _, _, h.of_new h.work.create k _⟩
  | make k shape v =>
    dsimp only
    rw [hclock]
    exact ⟨rfl, _, _, h.of_new (h.work.add _) k _⟩
  | record k value =>
    have hk : ¬ apart k := fun hk => hc k hk rfl
    have hhand := h.hand hk
    unfold ProcessorCall.act
    cases hi : d.hand k with
    | none =>
      rw [hi, Option.map_none] at hhand
      simp only [hi, hhand, hclock]
      exact ⟨trivial, f, used, h.of_work h.work hsame _⟩
    | some i =>
      rw [hi, Option.map_some] at hhand
      simp only [hi, hhand, hclock]
      -- paired aggregators hold the same, so both refuse the value or both take it
      rcases (h.work.pool.record (h.used hk hi) value).inv with
        ⟨e, hp, hq⟩ | ⟨p, q, hp, hq, hpool⟩
      · rw [hp, hq]
        exact ⟨rfl, f, used, h.of_work h.work hsame _⟩
      · rw [hp, hq]
        exact ⟨rfl, f, used, h.of_work (h.work.of_pool hpool) hsame _⟩
  | batch l k unmapped =>
    have hk : ¬ apart k := fun hk => hc k hk rfl
    have hhand := h.hand hk
    unfold ProcessorCall.act
    cases hi : d.hand k with
    | none =>
      rw [hi, Option.map_none] at hhand
      simp only [hi, hhand, hclock]
      exact ⟨trivial, f, used, h.of_work h.work hsame _⟩
    | some i =>
      rw [hi, Option.map_some] at hhand
      obtain ⟨hresult, g, used', hext, hwork⟩ := h.work.batch (h.used hk hi) l unmapped
      simp only [hi, hhand, hclock]
      -- the batch may take further aggregators, so the map grows once more
      exact ⟨congrArg _ hresult, g, used', h.of_work hwork hext _⟩
  | complete time =>
    dsimp only [ProcessorCall.act]
    rw [hclock]
    exact ⟨congrArg Except.ok (h.work.complete _), f, used, h.of_work (h.work.skip _) hsame _⟩
  | skip time =>
    dsimp only [ProcessorCall.act]
    rw [hclock]
    exact ⟨rfl, f, used, h.of_work (h.work.skip _) hsame _⟩
  | elapse nanos =>
    dsimp only
    rw [hclock]
    exact ⟨rfl, f, used, h.of_work h.work hsame _⟩

/-- **Desks that mirror each other** cannot be told apart by calls that are not about the names in
which they differ. -/
theorem outcomes (h : Mirrors f used apart d d') (calls : List ProcessorCall)
    (hcalls : ∀ c ∈ calls, ∀ k, apart k → ¬ c.Names k) : d'.outcomes calls = d.outcomes calls := by
  induction calls generalizing d d' f used with
  | nil => rfl
  | cons c calls ih =>
    obtain ⟨hresult, g, used', hmirrors⟩ := h.step (hcalls c List.mem_cons_self)
    rw [Desk.outcomes, Desk.outcomes, hresult,
      ih hmirrors fun c' hc' => hcalls c' (List.mem_cons_of_mem c hc')]

end Mirrors

end Desk

end Metering
