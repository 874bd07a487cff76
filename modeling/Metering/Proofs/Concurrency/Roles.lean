import Metering.Proofs.Concurrency.Threads
import Metering.Proofs.OrderedMap

/-!
# The roles of the aggregators

At every moment an aggregator of an accumulation plays one role: it is the live one of a label set,
the candidate of a thread that is binding, retired and on its way into the window, or in the window.
All other aggregators are foreign, and no thread touches them.

`Sound` is the invariant that everything else follows from.  It says where an aggregator of each
role is to be found (`Mapped`, `Bound`), and how many references it has and which values it holds
(`Fits`).  Its parameters are the roles, and the `Ledger` of the recorded values; a role that nobody
plays has no values.
-/

namespace Metering

/-- What an aggregator is to an accumulation. -/
inductive Role where
  /-- Nothing: no thread touches it. -/
  | foreign
  /-- The live aggregator of a label set. -/
  | live (labels : LabelSet)
  /-- What a binding thread has made for a label set. -/
  | candidate (labels : LabelSet)
  /-- Retired, and not batched yet. -/
  | retired (labels : LabelSet)
  /-- In the window. -/
  | window (labels : LabelSet)
deriving DecidableEq

/-- The values that a window has from earlier blocks. -/
def Temporality.before {α : Type} : Temporality → List (List α) → List α
  | .delta, _ => []
  | .cumulative, blocks => blocks.flatten

theorem Temporality.before_nil {α : Type} (t : Temporality) :
    t.before ([] : List (List α)) = [] := by
  cases t <;> rfl

/-- The values of a role. -/
def Ledger.contents {α : Type} (g : Ledger α) (temporality : Temporality) : Role → List α
  | .foreign => []
  | .live labels => g.live labels
  | .candidate _ => []
  | .retired labels => g.retired labels
  | .window labels => temporality.before (g.blocks labels) ++ g.taken labels

/-- The references of an aggregator are those of its role. -/
def Role.Allows (held : List (LabelSet × AggregatorId)) (i : AggregatorId)
    (references : References) : Role → Prop
  | .live labels => references = .held (held.count (labels, i))
  | .candidate _ => references = .held 1
  | .retired _ => references = .retired
  | .foreign | .window _ => True

/-- How the aggregators of a stream aggregate. -/
def Stream.shape (s : Stream) : Shape := s.aggregation.shape s.descriptor

theorem Stream.shape_ne_discard (s : Stream) : s.shape ≠ .discard := by
  unfold Stream.shape Aggregation.shape
  cases s.aggregation <;> simp

/-- The live map, the references that are held, and the collection under way agree with the
roles. -/
structure Mapped (role : AggregatorId → Role) (live : OrderedMap LabelSet AggregatorId)
    (held : List (LabelSet × AggregatorId)) (c : Collector) : Prop where
  live_of_role : ∀ {i l}, role i = .live l → live.get? l = some i
  /-- A retired aggregator may still be in the live map. -/
  role_of_live : ∀ {l i}, live.get? l = some i → role i = .live l ∨ role i = .retired l
  holders : ∀ {l i}, (l, i) ∈ held → role i = .live l
  retired_iff : ∀ {l i}, c.retired? = some (l, i) ↔ role i = .retired l
  tried : ∀ {l i rest}, c = .tried l i false rest → role i = .live l
  removed : ∀ {l i rest}, c = .removed l i rest → live.get? l ≠ some i
  rest : ∀ {l i}, (l, i) ∈ c.rest → role i = .live l
  rest_nodup : (c.rest.map Prod.fst).Nodup

/-- The threads that are binding agree with the roles. -/
structure Bound (role : AggregatorId → Role) (bindings : List Binding) (p : Pool) : Prop where
  /-- Each candidate belongs to one thread. -/
  candidates : ∀ l c, bindings.count (.prepared l c) = if role c = .candidate l then 1 else 0
  /-- What a thread has found may have been retired since then. -/
  found : ∀ {l i}, .looked l (some i) ∈ bindings →
    p.Has i ∧ (role i = .live l ∨ p.references i = .retired)

section

variable {α : Type} [Recordable α]

/-- An aggregator has the references and the values of its role. -/
structure Fits (isTotal : α → List α → Prop) (s : Shape) (held : List (LabelSet × AggregatorId))
    (values : List α) (i : AggregatorId) (r : Role) (p : Pool) : Prop where
  has : p.Has i
  references : r.Allows held i (p.references i)
  holds : Aggregator.Holds isTotal s (p.get i) values

/-- Every aggregator is where its role says and holds the values of its role. -/
structure Sound (isTotal : α → List α → Prop) (role : AggregatorId → Role) (t : Threads)
    (g : Ledger α) : Prop where
  valueType : t.stream.descriptor.valueType = Recordable.valueType α
  mapped : Mapped role t.live t.held t.collector
  window_iff : ∀ {l i}, t.stream.window.get? l = some i ↔ role i = .window l
  bound : Bound role t.bindings t.pool
  fits : ∀ i, role i ≠ .foreign → Fits isTotal t.stream.shape t.held
    (g.contents t.stream.temporality (role i)) i (role i) t.pool
  unfailing : t.failures = []
  /-- A role that nobody plays has no values. -/
  vacant : ∀ r, (∀ i, role i ≠ r) → g.contents t.stream.temporality r = []

/-- The two streams are one stream, with perhaps another window. -/
def Stream.Continues (s s' : Stream) : Prop :=
  s' = { s with start := s'.start, window := s'.window }

/-- What a step leaves alone: foreign aggregators are not touched and stay foreign, and of the
stream only the window changes. -/
structure Advances (role role' : AggregatorId → Role) (a a' : Accumulation) : Prop where
  spares : a.pool.Spares a'.pool fun i => role i ≠ .foreign
  foreign : ∀ {i}, a.pool.Has i → role i = .foreign → role' i = .foreign
  stream : a.stream.Continues a'.stream

end

namespace Stream.Continues

variable {s s' s'' : Stream}

theorem trans (h : s.Continues s') (h' : s'.Continues s'') : s.Continues s'' := by
  unfold Stream.Continues at *
  rw [h', h]

theorem shape (h : s.Continues s') : s'.shape = s.shape := by
  rw [h]
  rfl

theorem temporality (h : s.Continues s') : s'.temporality = s.temporality := by
  rw [h]

end Stream.Continues

namespace Advances

variable {role role' role'' : AggregatorId → Role} {a a' a'' : Accumulation}

theorem refl (role : AggregatorId → Role) (a : Accumulation) : Advances role role a a :=
  ⟨.refl _, fun _ h => h, rfl⟩

/-- Only aggregators that play a role are touched, and the roles and the stream stay. -/
theorem of_spares {touched : AggregatorId → Prop} (h : a.pool.Spares a'.pool touched)
    (ht : ∀ i, touched i → role i ≠ .foreign) (hs : a'.stream = a.stream) :
    Advances role role a a' :=
  ⟨h.mono fun _ hi => ht _ hi, fun _ hf => hf, hs ▸ rfl⟩

theorem trans (h : Advances role role' a a') (h' : Advances role' role'' a' a'') :
    Advances role role'' a a'' where
  spares :=
    { has := fun hi => h'.spares.has (h.spares.has hi)
      cell := fun hi hr => by
        have hf := h.foreign hi (not_not.mp hr)
        rw [h'.spares.cell (h.spares.has hi) (not_not.mpr hf), h.spares.cell hi hr] }
  foreign hi hf := h'.foreign (h.spares.has hi) (h.foreign hi hf)
  stream := h.stream.trans h'.stream

end Advances

/-- A change from one role to another keeps all other roles. -/
theorem update_iff {role : AggregatorId → Role} {c i : AggregatorId} {old new r : Role}
    (hc : role c = old) (ho : r ≠ old) (hn : r ≠ new) :
    Function.update role c new i = r ↔ role i = r := by
  by_cases hi : i = c
  · subst hi
    rw [Function.update_self, hc]
    exact iff_of_false hn.symm ho.symm
  · rw [Function.update_of_ne hi]

/-- Aggregators of different roles are different. -/
theorem ne_of_role_ne {role : AggregatorId → Role} {i j : AggregatorId} {r r' : Role}
    (hi : role i = r) (hj : role j = r') (hr : r ≠ r') : i ≠ j := by
  rintro rfl
  exact hr (hi.symm.trans hj)

theorem plays {role : AggregatorId → Role} {i j : AggregatorId} {r : Role} (hi : role i = r)
    (hr : r ≠ .foreign) (hj : j = i) : role j ≠ .foreign := by
  rw [hj, hi]
  exact hr

/-- An aggregator of the live map plays a role. -/
theorem live_plays {role : AggregatorId → Role} {i : AggregatorId} {l : LabelSet}
    (hi : role i = .live l) : role i ≠ .foreign :=
  plays hi (by simp) rfl

/-- An aggregator of the window plays a role. -/
theorem window_plays {role : AggregatorId → Role} {i : AggregatorId} {l : LabelSet}
    (hi : role i = .window l) : role i ≠ .foreign :=
  plays hi (by simp) rfl

/-- What is in the window is not in the live map. -/
theorem ne_of_window_of_live {role : AggregatorId → Role} {i j : AggregatorId} {l l' : LabelSet}
    (hj : role j = .window l') (hi : role i = .live l) : j ≠ i :=
  ne_of_role_ne hj hi (by simp)

/-- Foreign aggregators stay foreign when one that plays a role gets another. -/
theorem update_foreign {role : AggregatorId → Role} {i k : AggregatorId} {r new : Role}
    (hi : role i = r) (hr : r ≠ .foreign) (hk : role k = .foreign) :
    Function.update role i new k = .foreign := by
  rw [Function.update_of_ne (ne_of_role_ne hk hi hr.symm), hk]

/-- Two accumulations over one pool keep apart when one of them gets other roles, if what plays a
role there is foreign to the other. -/
theorem apart_update {ι : Type} [DecidableEq ι] {role : ι → AggregatorId → Role}
    {new : AggregatorId → Role} {a b₁ b₂ : ι} {i : AggregatorId} (hne : b₁ ≠ b₂)
    (h₁ : b₁ ≠ a → new i ≠ .foreign → role b₁ i = .foreign)
    (h₂ : b₂ ≠ a → new i ≠ .foreign → role b₂ i = .foreign)
    (h : role b₁ i ≠ .foreign → role b₂ i = .foreign)
    (hi : Function.update role a new b₁ i ≠ .foreign) :
    Function.update role a new b₂ i = .foreign := by
  by_cases ha₁ : b₁ = a
  · subst ha₁
    rw [Function.update_self] at hi
    rw [Function.update_of_ne hne.symm]
    exact h₂ hne.symm hi
  rw [Function.update_of_ne ha₁] at hi
  by_cases ha₂ : b₂ = a
  · subst ha₂
    rw [Function.update_self]
    by_contra hf
    exact hi (h₁ hne hf)
  · rw [Function.update_of_ne ha₂]
    exact h hi

/-! ### What follows from the invariant -/

namespace Mapped

variable {role role' : AggregatorId → Role} {live : OrderedMap LabelSet AggregatorId}
  {held : List (LabelSet × AggregatorId)} {c : Collector}

theorem unique (h : Mapped role live held c) {i j : AggregatorId} {l : LabelSet}
    (hi : role i = .live l) (hj : role j = .live l) : i = j :=
  Option.some.inj ((h.live_of_role hi).symm.trans (h.live_of_role hj))

/-- Only who is live and who is retired matters. -/
theorem congr (h : Mapped role live held c)
    (hlive : ∀ i l, role' i = .live l ↔ role i = .live l)
    (hretired : ∀ i l, role' i = .retired l ↔ role i = .retired l) :
    Mapped role' live held c where
  live_of_role hi := h.live_of_role ((hlive _ _).mp hi)
  role_of_live hi := (h.role_of_live hi).imp (hlive _ _).mpr (hretired _ _).mpr
  holders hi := (hlive _ _).mpr (h.holders hi)
  retired_iff := h.retired_iff.trans (hretired _ _).symm
  tried hi := (hlive _ _).mpr (h.tried hi)
  removed := h.removed
  rest hi := (hlive _ _).mpr (h.rest hi)
  rest_nodup := h.rest_nodup

end Mapped

namespace Bound

variable {role role' : AggregatorId → Role} {bindings : List Binding} {p q : Pool}

theorem candidate_iff (h : Bound role bindings p) {l : LabelSet} {c : AggregatorId} :
    .prepared l c ∈ bindings ↔ role c = .candidate l := by
  rw [← List.count_pos_iff, h.candidates]
  split <;> simp_all

/-- Only who is live and who is a candidate matters, and that retired aggregators stay retired. -/
theorem congr (h : Bound role bindings p)
    (hlive : ∀ i l, role' i = .live l ↔ role i = .live l)
    (hcandidate : ∀ i l, role' i = .candidate l ↔ role i = .candidate l)
    (hhas : ∀ {i}, p.Has i → q.Has i)
    (hretired : ∀ {i}, p.Has i → p.references i = .retired → q.references i = .retired) :
    Bound role' bindings q where
  candidates l c := by
    rw [h.candidates]
    simp only [hcandidate]
  found hi := by
    obtain ⟨hp, hor⟩ := h.found hi
    exact ⟨hhas hp, hor.imp (hlive _ _).mpr (hretired hp)⟩

/-- A candidate that has got another role is no longer anybody's. -/
theorem count_erase_prepared (h : Bound role bindings p) {l : LabelSet} {c : AggregatorId}
    (hc : role c = .candidate l) {new : Role} (hnew : ∀ l', new ≠ .candidate l') (l' : LabelSet)
    (c' : AggregatorId) : (bindings.erase (.prepared l c)).count (.prepared l' c')
      = if Function.update role c new c' = .candidate l' then 1 else 0 := by
  by_cases hcc : c' = c
  · subst hcc
    rw [Function.update_self, if_neg (hnew l')]
    by_cases hl : l' = l
    · subst hl
      rw [List.count_erase_self, h.candidates, if_pos hc]
    · rw [List.count_erase_of_ne (by simp [hl]), h.candidates, hc,
        if_neg fun he => hl (Role.candidate.inj he).symm]
  · rw [List.count_erase_of_ne (by simp [hcc]), h.candidates, Function.update_of_ne hcc]

/-- A thread is done with its candidate, which gets another role. -/
theorem erase_prepared (h : Bound role bindings p) {l : LabelSet} {c : AggregatorId}
    (hc : role c = .candidate l) {new : Role} (hnew : ∀ l', new ≠ .candidate l') :
    Bound (Function.update role c new) (bindings.erase (.prepared l c)) p where
  candidates := h.count_erase_prepared hc hnew
  found hi := by
    obtain ⟨hhas, hor⟩ := h.found (List.mem_of_mem_erase hi)
    refine ⟨hhas, hor.imp_left fun hlive => ?_⟩
    rwa [Function.update_of_ne (ne_of_role_ne hlive hc nofun)]

/-- A thread that has looked up goes on. -/
theorem erase_looked (h : Bound role bindings p) (l : LabelSet) (found : Option AggregatorId) :
    Bound role (bindings.erase (.looked l found)) p where
  candidates l' c := by
    rw [List.count_erase_of_ne (by simp), h.candidates]
  found hi := h.found (List.mem_of_mem_erase hi)

end Bound

namespace Fits

variable {α : Type} [Recordable α] {isTotal : α → List α → Prop} {s : Shape}
  {held held' : List (LabelSet × AggregatorId)} {values values' : List α} {i : AggregatorId}
  {r : Role} {p q : Pool}

/-- Only the cell and the references of the aggregator itself matter. -/
theorem congr (h : Fits isTotal s held values i r p) (hq : q.Has i) (hcell : q.cell i = p.cell i)
    (hheld : ∀ l, held'.count (l, i) = held.count (l, i)) (hvalues : values' = values) :
    Fits isTotal s held' values' i r q where
  has := hq
  references := by
    rw [Pool.references, hcell]
    have href := h.references
    cases r <;> simp_all [Role.Allows, Pool.references]
  holds := by
    rw [Pool.get, hcell, hvalues]
    exact h.holds

end Fits

namespace Sound

variable {α : Type} [Recordable α] {isTotal : α → List α → Prop} {role : AggregatorId → Role}
  {t : Threads} {g : Ledger α}

theorem has (h : Sound isTotal role t g) {i : AggregatorId} (hi : role i ≠ .foreign) :
    t.pool.Has i := (h.fits i hi).has

/-- The next new aggregator is foreign. -/
theorem foreign_next (h : Sound isTotal role t g) : role t.pool.next = .foreign := by
  by_contra hne
  exact t.pool.not_has_next (h.has hne)

theorem references_live (h : Sound isTotal role t g) {i : AggregatorId} {l : LabelSet}
    (hi : role i = .live l) : t.pool.references i = .held (t.held.count (l, i)) := by
  have hfits := (h.fits i (by simp [hi])).references
  rw [hi] at hfits
  exact hfits

theorem references_retired (h : Sound isTotal role t g) {i : AggregatorId} {l : LabelSet}
    (hi : role i = .retired l) : t.pool.references i = .retired := by
  have hfits := (h.fits i (by simp [hi])).references
  rw [hi] at hfits
  exact hfits

theorem window_unique (h : Sound isTotal role t g) {i j : AggregatorId} {l : LabelSet}
    (hi : role i = .window l) (hj : role j = .window l) : i = j :=
  Option.some.inj ((h.window_iff.mpr hi).symm.trans (h.window_iff.mpr hj))

/-- The window is as it was when an aggregator neither leaves nor enters it. -/
theorem window_update (h : Sound isTotal role t g) {i j : AggregatorId} {l : LabelSet}
    {old new : Role} (hi : role i = old) (hold : ∀ l, .window l ≠ old)
    (hnew : ∀ l, .window l ≠ new) :
    t.stream.window.get? l = some j ↔ Function.update role i new j = .window l :=
  h.window_iff.trans (update_iff hi (hold l) (hnew l)).symm

theorem holds (h : Sound isTotal role t g) {i : AggregatorId} {r : Role} (hi : role i = r)
    (hr : r ≠ .foreign) : Aggregator.Holds isTotal t.stream.shape (t.pool.get i)
      (g.contents t.stream.temporality r) := by
  subst hi
  exact (h.fits i hr).holds

/-- **One aggregator gets another role.**  The maps and the threads have to agree with the roles
that there are then; of the aggregators and the values, it is enough to say what becomes of that
one, that every other is as it was, and that its old role has no values left. -/
theorem change (h : Sound isTotal role t g) {i : AggregatorId} {old new : Role}
    (hi : role i = old) {t' : Threads} {g' : Ledger α}
    (hstream : t.stream.Continues t'.stream) (hfailures : t'.failures = t.failures)
    (hmapped : Mapped (Function.update role i new) t'.live t'.held t'.collector)
    (hwindow : ∀ {l j}, t'.stream.window.get? l = some j ↔
      Function.update role i new j = .window l)
    (hbound : Bound (Function.update role i new) t'.bindings t'.pool)
    (hself : new ≠ .foreign → Fits isTotal t.stream.shape t'.held
      (g'.contents t.stream.temporality new) i new t'.pool)
    (hothers : ∀ j, j ≠ i → Fits isTotal t.stream.shape t.held
        (g.contents t.stream.temporality (role j)) j (role j) t.pool →
      Fits isTotal t.stream.shape t'.held
        (g'.contents t.stream.temporality (role j)) j (role j) t'.pool)
    (hold : g'.contents t.stream.temporality old = [])
    (hcontents : ∀ r, r ≠ old → r ≠ new → (∀ j, role j ≠ r) →
      g'.contents t.stream.temporality r = g.contents t.stream.temporality r) :
    Sound isTotal (Function.update role i new) t' g' where
  valueType := by
    rw [hstream]
    exact h.valueType
  mapped := hmapped
  window_iff := hwindow
  bound := hbound
  fits j hj := by
    rw [hstream.shape, hstream.temporality]
    by_cases hji : j = i
    · subst hji
      rw [Function.update_self] at hj ⊢
      exact hself hj
    · rw [Function.update_of_ne hji] at hj ⊢
      exact hothers j hji (h.fits j hj)
  unfailing := hfailures.trans h.unfailing
  vacant r hr := by
    rw [hstream.temporality]
    by_cases hro : r = old
    · rw [hro]
      exact hold
    have hrn : r ≠ new := by
      rintro rfl
      exact hr i (Function.update_self ..)
    have hnobody : ∀ j, role j ≠ r := fun j hj => hr j ((update_iff hi hro hrn).mpr hj)
    rw [hcontents r hro hrn hnobody]
    exact h.vacant r hnobody

/-- When nobody is binding, work on foreign aggregators changes nothing. -/
theorem elsewhere (h : Sound isTotal role t g) (hb : t.bindings = []) {p : Pool}
    (hp : t.pool.Spares p fun i => role i = .foreign) :
    Sound isTotal role { t with accumulation := { t.accumulation with pool := p } } g where
  valueType := h.valueType
  mapped := h.mapped
  window_iff := h.window_iff
  bound :=
    { candidates := h.bound.candidates
      found := by
        rw [hb]
        exact nofun }
  fits i hi :=
    (h.fits i hi).congr (hp.has (h.has hi)) (hp.cell (h.has hi) hi) (fun _ => rfl) rfl
  unfailing := h.unfailing
  vacant := h.vacant

end Sound

end Metering
