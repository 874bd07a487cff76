import Metering.Proofs.Instruments.Observing
import Metering.Proofs.Instruments.Records

/-!
# Systems in order

Every instrument of a system records, observes or discards, and is `Steady` in what it does.  All of
them share the pool with what the program uses on its own, so each aggregator must belong to one of
them only.  `Orderly` says that it does: an aggregator that plays a role for one instrument plays
none for another, and cannot be reached but through that instrument or one of its handles.

`Orderly.work` and `Orderly.beside` are the two ways in which a system stays in order: by work on
one instrument, and by anything that leaves the instruments and their aggregators alone.
-/

namespace Metering

open Fallible SystemM

variable {σ : Type}

/-! ### Instruments -/

/-- The accumulator without what is live in it. -/
def Accumulator.bare : Accumulator → Accumulator
  | .synchronous _ => .synchronous OrderedMap.empty
  | .asynchronous => .asynchronous
  | .discarding a => .discarding a

/-- An instrument is in order.  Its roles are those that aggregators play for it. -/
inductive Steady (s : System σ) (bound : List (Ref .handle × LabelSet)) (r : Ref .instrument)
    (role : AggregatorId → Role) (i : Instrument σ) : Prop
  | recording {live : OrderedMap LabelSet AggregatorId} {p : Processor} {c : Clock}
      (accumulator : i.accumulator = .synchronous live) (processor : i.processor = some p)
      (kind : i.descriptor.kind.isSynchronous = true)
      (descriptor : p.stream.descriptor = i.descriptor) (clock : s.clocks.get? p.clock = some c)
      (records : Records s bound r role)
  | observing {p : Processor} {c : Clock}
      (accumulator : i.accumulator = .asynchronous) (processor : i.processor = some p)
      (kind : i.descriptor.kind.isSynchronous = false)
      (descriptor : p.stream.descriptor = i.descriptor) (clock : s.clocks.get? p.clock = some c)
      (observes : Observes s.pool p.stream role)
  | discarding {a : AggregatorId}
      (accumulator : i.accumulator = .discarding a) (processor : i.processor = none)
      (has : s.pool.Has a) (get : s.pool.get a = .fresh .discard i.descriptor.valueType)
      (role_iff : ∀ j, role j ≠ .foreign ↔ j = a)

theorem System.accumulation?_of_get? {s : System σ} {r : Ref .instrument} {i : Instrument σ}
    (hi : s.instruments.get? r = some i) : s.accumulation? r = i.accumulation? s.pool := by
  unfold accumulation?
  rw [hi, Option.bind_some]

/-- The clocks of a system are there in another one. -/
def System.KeepsClocks (s s' : System σ) : Prop :=
  ∀ {q c}, s.clocks.get? q = some c → ∃ c', s'.clocks.get? q = some c'

theorem System.keepsClocks_set {s : System σ} {r : Ref .clock} {c : Clock}
    (hr : s.clocks.get? r = some c) (c' : Clock) :
    s.KeepsClocks { s with clocks := s.clocks.set r c' } := by
  intro q x hx
  show ∃ x, (s.clocks.set r c').get? q = some x
  rw [Table.get?_set _ hr]
  split
  · exact ⟨_, rfl⟩
  · exact ⟨_, hx⟩

namespace Steady

variable {s s' : System σ} {bound bound' : List (Ref .handle × LabelSet)} {r : Ref .instrument}
  {role : AggregatorId → Role} {i : Instrument σ}

theorem has (h : Steady s bound r role i) {j : AggregatorId} (hj : role j ≠ .foreign) :
    s.pool.Has j := by
  cases h with
  | recording _ _ _ _ _ records => exact records.has hj
  | observing _ _ _ _ _ observes => exact observes.has hj
  | discarding _ _ has _ role_iff => rwa [(role_iff j).mp hj]

/-- Work elsewhere leaves an instrument in order. -/
theorem elsewhere (h : Steady s bound r role i) (hi : s.instruments.get? r = some i)
    (hi' : s'.instruments.get? r = some i) (hc : s.KeepsClocks s')
    (hheld : (s'.heldOn r bound').Perm (s.heldOn r bound))
    (hp : s.pool.Spares s'.pool fun j => role j = .foreign) : Steady s' bound' r role i := by
  cases h with
  | recording accumulator processor kind descriptor clock records =>
    obtain ⟨c', clock'⟩ := hc clock
    refine .recording accumulator processor kind descriptor clock' ?_
    obtain ⟨a, ha⟩ := records.accumulation?
    refine records.elsewhere ha ?_ hheld hp
    rw [System.accumulation?_of_get? hi] at ha
    rw [System.accumulation?_of_get? hi', i.accumulation?_pool s.pool, ha]
    rfl
  | observing accumulator processor kind descriptor clock observes =>
    obtain ⟨c', clock'⟩ := hc clock
    exact .observing accumulator processor kind descriptor clock' (observes.elsewhere hp)
  | discarding accumulator processor has get role_iff =>
    have hplays := (role_iff _).mpr rfl
    refine .discarding accumulator processor (hp.has has) ?_ role_iff
    rw [hp.get has hplays, get]

end Steady

/-! ### Aggregators that the program can reach -/

/-- The accumulator refers to an aggregator. -/
def Accumulator.Uses (i : AggregatorId) : Accumulator → Prop
  | .synchronous live => ∃ l, live.get? l = some i
  | .asynchronous => False
  | .discarding j => j = i

/-- The program can reach an aggregator without an instrument: it has a name for it, or a processor
or an accumulator of its own that refers to it. -/
inductive System.Exposes (s : System σ) (i : AggregatorId) : Prop
  | named {id : String} (h : s.names.get? id = some (.aggregator i))
  | window {q : Ref .processor} {p : Processor} {l : LabelSet} (hq : s.processors.get? q = some p)
      (h : p.stream.window.get? l = some i)
  | accumulator {q : Ref .accumulator} {x : SharedAccumulator}
      (hq : s.accumulators.get? q = some x) (h : x.accumulator.Uses i)

theorem System.Exposes.congr {s s' : System σ} {i : AggregatorId} (h : s'.Exposes i)
    (hn : s'.names = s.names) (hp : s'.processors = s.processors)
    (ha : s'.accumulators = s.accumulators) : s.Exposes i := by
  cases h with
  | named hid =>
    rw [hn] at hid
    exact .named hid
  | window hq hl =>
    rw [hp] at hq
    exact .window hq hl
  | accumulator hq hu =>
    rw [ha] at hq
    exact .accumulator hq hu

/-- A handle is one of an instrument: it was bound to labels, or has the one aggregator of an
instrument that discards. -/
def System.Owns (s : System σ) (bound : List (Ref .handle × LabelSet)) (q : Ref .handle)
    (x : Handle) : Prop :=
  ∃ i, s.instruments.get? x.instrument = some i ∧
    match i.accumulator with
    | .synchronous _ => ∃ l, (q, l) ∈ bound
    | .asynchronous => False
    | .discarding a => x.aggregator = a

/-- All instruments of a system are in order and keep apart. -/
structure Orderly (s : System σ) (bound : List (Ref .handle × LabelSet))
    (role : Ref .instrument → AggregatorId → Role) : Prop where
  steady : ∀ {r i}, s.instruments.get? r = some i → Steady s bound r (role r) i
  vacant : ∀ {r}, s.instruments.get? r = none → ∀ i, role r i = .foreign
  apart : ∀ {r r'}, r' ≠ r → ∀ {i}, role r i ≠ .foreign → role r' i = .foreign
  outside : ∀ {i}, s.Exposes i → s.pool.Has i ∧ ∀ r, role r i = .foreign
  handled : Handled s bound
  owned : ∀ {q x}, s.handles.get? q = some x → s.Owns bound q x

/-- Apart from instruments, handles and aggregators the two systems are the same. -/
structure System.SameRest (s s' : System σ) : Prop where
  names : s'.names = s.names
  clocks : s'.clocks = s.clocks
  meters : s'.meters = s.meters
  providers : s'.providers = s.providers
  processors : s'.processors = s.processors
  accumulators : s'.accumulators = s.accumulators

namespace System.SameRest

variable {s s' s'' : System σ}

theorem trans (h : s.SameRest s') (h' : s'.SameRest s'') : s.SameRest s'' where
  names := h'.names.trans h.names
  clocks := h'.clocks.trans h.clocks
  meters := h'.meters.trans h.meters
  providers := h'.providers.trans h.providers
  processors := h'.processors.trans h.processors
  accumulators := h'.accumulators.trans h.accumulators

theorem keepsClocks (h : s.SameRest s') : s.KeepsClocks s' := by
  intro q c hq
  exact ⟨c, by rw [h.clocks, hq]⟩

theorem exposes (h : s.SameRest s') {i : AggregatorId} (hi : s'.Exposes i) : s.Exposes i :=
  hi.congr h.names h.processors h.accumulators

end System.SameRest

/-- A system comes from another by a change of one instrument and its aggregators. -/
structure System.ChangedAt (s s' : System σ) (r : Ref .instrument)
    (role : AggregatorId → Role) : Prop where
  others : ∀ {r'}, r' ≠ r → s'.instruments.get? r' = s.instruments.get? r'
  pool : s.pool.Spares s'.pool fun i => role i ≠ .foreign
  rest : s.SameRest s'

namespace Orderly

variable {s s' : System σ} {bound bound' : List (Ref .handle × LabelSet)}
  {role : Ref .instrument → AggregatorId → Role} {r : Ref .instrument} {i i' : Instrument σ}

theorem has (h : Orderly s bound role) {j : AggregatorId} (hj : role r j ≠ .foreign) :
    s.pool.Has j := by
  cases hi : s.instruments.get? r with
  | none => exact absurd (h.vacant hi j) hj
  | some i => exact (h.steady hi).has hj

/-- **Work** on one instrument leaves a system in order. -/
theorem work (h : Orderly s bound role) {role' : AggregatorId → Role}
    (hc : s.ChangedAt s' r (role r)) (hi' : s'.instruments.get? r = some i')
    (hs : Steady s' bound' r role' i')
    (hforeign : ∀ {j}, s.pool.Has j → role r j = .foreign → role' j = .foreign)
    (hhandled : Handled s' bound')
    (howned : ∀ {q x}, s'.handles.get? q = some x → s'.Owns bound' q x)
    (hheld : ∀ {r'}, r' ≠ r → (s'.heldOn r' bound').Perm (s.heldOn r' bound)) :
    Orderly s' bound' (Function.update role r role') := by
  -- what has a role now had it before, or is new and so foreign to all others
  have hothers : ∀ {r'}, r' ≠ r → ∀ {j}, role' j ≠ .foreign → role r' j = .foreign := by
    intro r' hr j hj
    by_contra hne
    exact hne (h.apart hr fun hf => hj (hforeign (h.has hne) hf))
  constructor
  case steady =>
    intro r' x hx
    by_cases hr : r' = r
    · subst hr
      obtain rfl := Option.some.inj (hi'.symm.trans hx)
      rw [Function.update_self]
      exact hs
    · rw [Function.update_of_ne hr]
      have hx' := hx
      rw [hc.others hr] at hx'
      exact (h.steady hx').elsewhere hx' hx hc.rest.keepsClocks (hheld hr)
        (hc.pool.mono fun _ hj => h.apart hr hj)
  case vacant =>
    intro r' hx
    have hr : r' ≠ r := by
      rintro rfl
      rw [hi'] at hx
      cases hx
    rw [Function.update_of_ne hr]
    rw [hc.others hr] at hx
    exact h.vacant hx
  case apart =>
    intro r₁ r₂ hne j hj
    exact apart_update hne.symm (fun hr => hothers hr) (fun hr => hothers hr) (h.apart hne) hj
  case outside =>
    intro j hj
    obtain ⟨hhas, hall⟩ := h.outside (hc.rest.exposes hj)
    refine ⟨hc.pool.has hhas, fun r' => ?_⟩
    by_cases hr : r' = r
    · subst hr
      rw [Function.update_self]
      exact hforeign hhas (hall _)
    · rw [Function.update_of_ne hr]
      exact hall r'
  case handled => exact hhandled
  case owned => exact howned

/-- What leaves the instruments, their handles and their aggregators alone leaves a system in order.
-/
theorem beside (h : Orderly s bound role) (hi : s'.instruments = s.instruments)
    (hh : s'.handles = s.handles) (hc : s.KeepsClocks s')
    (hp : s.pool.Spares s'.pool fun j => ∀ r, role r j = .foreign)
    (he : ∀ {j}, s'.Exposes j → s'.pool.Has j ∧ ∀ r, role r j = .foreign) :
    Orderly s' bound role where
  steady {r i} hx := by
    rw [hi] at hx
    refine (h.steady hx).elsewhere hx (by rw [hi, hx]) hc (List.Perm.of_eq ?_)
      (hp.mono fun _ hj => hj r)
    exact System.heldOn_congr fun b _ => System.reference?_congr hh b.1
  vacant hx := by
    rw [hi] at hx
    exact h.vacant hx
  apart := h.apart
  outside := he
  handled := h.handled.congr hh
  owned {q x} hx := by
    rw [hh] at hx
    obtain ⟨i, hget, hmatch⟩ := h.owned hx
    exact ⟨i, by rw [hi, hget], hmatch⟩

end Orderly

end Metering
