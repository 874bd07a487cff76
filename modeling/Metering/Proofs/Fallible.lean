/-!
# Computations that may fail

A computation on a state that may fail is a function from the state to a result and the state after
it.  Each of the first lemmas runs one building block of such computations on a state.

`Keeps` says that a computation keeps a property of the state, whether it fails or not; it is kept
by what is built from computations that keep it.  `Ends` says so of a single outcome, together with
what holds of the result.
-/

namespace Metering.Fallible

variable {ε σ α β : Type}

theorem bind_apply (x : ExceptT ε (StateM σ) α) (f : α → ExceptT ε (StateM σ) β) (s : σ) :
    (x >>= f) s = match x s with
      | (.ok a, s') => f a s'
      | (.error e, s') => (.error e, s') := by
  show (ExceptT.bindCont f (x s).1) (x s).2 = _
  rcases x s with ⟨_ | _, s'⟩ <;> rfl

theorem pure_apply (a : α) (s : σ) : (pure a : ExceptT ε (StateM σ) α) s = (.ok a, s) := rfl

theorem get_apply (s : σ) : (get : ExceptT ε (StateM σ) σ) s = (.ok s, s) := rfl

theorem set_apply (s s' : σ) : (set s' : ExceptT ε (StateM σ) PUnit) s = (.ok (), s') := rfl

theorem modify_apply (f : σ → σ) (s : σ) :
    (modify f : ExceptT ε (StateM σ) PUnit) s = (.ok (), f s) := rfl

theorem throw_apply (e : ε) (s : σ) : (throw e : ExceptT ε (StateM σ) α) s = (.error e, s) := rfl

theorem tryCatch_apply (x : ExceptT ε (StateM σ) α) (f : ε → ExceptT ε (StateM σ) α) (s : σ) :
    (tryCatch x f) s = match x s with
      | (.ok a, s') => (.ok a, s')
      | (.error e, s') => f e s' := by
  show (match (x s).1 with
    | .ok a => (pure (.ok a) : StateM σ (Except ε α))
    | .error e => f e) (x s).2 = _
  rcases x s with ⟨_ | _, s'⟩ <;> rfl

theorem forM_nil_apply (f : α → ExceptT ε (StateM σ) PUnit) (s : σ) :
    ([] : List α).forM f s = (.ok (), s) := rfl

theorem forM_cons_apply (f : α → ExceptT ε (StateM σ) PUnit) (a : α) (as : List α) (s : σ) :
    (a :: as).forM f s = match f a s with
      | (.ok _, s') => as.forM f s'
      | (.error e, s') => (.error e, s') := by
  show (f a >>= fun _ => as.forM f) s = _
  rw [bind_apply]
  rcases f a s with ⟨_ | _, s'⟩ <;> rfl

theorem forM_append_apply (f : α → ExceptT ε (StateM σ) PUnit) (as bs : List α) (s : σ) :
    (as ++ bs).forM f s = match as.forM f s with
      | (.ok _, s') => bs.forM f s'
      | (.error e, s') => (.error e, s') := by
  induction as generalizing s with
  | nil => rfl
  | cons a as ih =>
    rw [List.cons_append, forM_cons_apply, forM_cons_apply]
    rcases f a s with ⟨_ | _, s'⟩
    · rfl
    · exact ih s'

/-- What only looks at the state and succeeds is followed by the rest in the same state. -/
theorem look_of_bind_eq_ok {x : ExceptT ε (StateM σ) α} {f : α → ExceptT ε (StateM σ) β} {s s' : σ}
    {b : β} (hx : (x s).2 = s) (h : (x >>= f) s = (.ok b, s')) :
    ∃ a, x s = (.ok a, s) ∧ f a s = (.ok b, s') := by
  rw [bind_apply] at h
  rcases hr : x s with ⟨e | a, s₁⟩ <;> rw [hr] at h hx <;> obtain rfl : s₁ = s := hx
  · cases h
  · exact ⟨a, rfl, h⟩

/-- A failure is passed on. -/
theorem bind_eq_error {x : ExceptT ε (StateM σ) α} {s : σ} {e : ε} (h : (x s).1 = .error e)
    (f : α → ExceptT ε (StateM σ) β) : ((x >>= f) s).1 = .error e := by
  rw [bind_apply]
  rcases hx : x s with ⟨result, s'⟩
  rw [hx] at h
  obtain rfl : result = .error e := h
  rfl

theorem mapError_eq_ok {ε' : Type} {f : ε → ε'} {x : Except ε α} {a : α}
    (h : x.mapError f = .ok a) : x = .ok a := by
  cases x with
  | error e => cases h
  | ok b =>
    obtain rfl : b = a := Except.ok.inj h
    rfl

theorem map_eq_ok {f : α → β} {x : Except ε α} {b : β} (h : x.map f = .ok b) :
    ∃ a, x = .ok a ∧ f a = b := by
  cases x with
  | error e => cases h
  | ok a => exact ⟨a, rfl, Except.ok.inj h⟩

/-! ### Properties that are kept -/

/-- Whatever becomes of the computation, the property of the state is kept. -/
def Keeps (I : σ → Prop) (x : ExceptT ε (StateM σ) α) : Prop := ∀ s, I s → I (x s).2

namespace Keeps

variable {I : σ → Prop} {x : ExceptT ε (StateM σ) α} {f : α → ExceptT ε (StateM σ) β}

/-- What only looks at the state keeps everything. -/
theorem of_look (h : ∀ s, (x s).2 = s) : Keeps I x := by
  intro s hs
  rw [h]
  exact hs

theorem pure (a : α) : Keeps I (Pure.pure a : ExceptT ε (StateM σ) α) := of_look fun _ => rfl

theorem throw (e : ε) : Keeps I (MonadExcept.throw e : ExceptT ε (StateM σ) α) :=
  of_look fun _ => rfl

theorem get : Keeps I (MonadState.get : ExceptT ε (StateM σ) σ) := of_look fun _ => rfl

theorem modify {g : σ → σ} (hg : ∀ s, I s → I (g s)) :
    Keeps I (modify g : ExceptT ε (StateM σ) PUnit) := hg

theorem bind (hx : Keeps I x) (hf : ∀ a, Keeps I (f a)) : Keeps I (x >>= f) := by
  intro s hs
  have hs' := hx s hs
  rw [bind_apply]
  rcases hr : x s with ⟨e | a, s'⟩ <;> rw [hr] at hs'
  · exact hs'
  · exact hf a s' hs'

theorem tryCatch {g : ε → ExceptT ε (StateM σ) α} (hx : Keeps I x) (hg : ∀ e, Keeps I (g e)) :
    Keeps I (MonadExcept.tryCatch x g) := by
  intro s hs
  have hs' := hx s hs
  rw [tryCatch_apply]
  rcases hr : x s with ⟨e | a, s'⟩ <;> rw [hr] at hs'
  · exact hg e s' hs'
  · exact hs'

theorem forM {g : α → ExceptT ε (StateM σ) PUnit} (hg : ∀ a, Keeps I (g a)) (as : List α) :
    Keeps I (as.forM g) := by
  induction as with
  | nil => exact of_look fun _ => rfl
  | cons a as ih => exact (hg a).bind fun _ => ih

theorem mapM {g : α → ExceptT ε (StateM σ) β} (hg : ∀ a, Keeps I (g a)) (as : List α) :
    Keeps I (as.mapM g) := by
  induction as with
  | nil =>
    rw [List.mapM_nil]
    exact .pure _
  | cons a as ih =>
    rw [List.mapM_cons]
    exact (hg a).bind fun _ => ih.bind fun _ => .pure _

end Keeps

/-! ### Outcomes -/

/-- An outcome has kept a property of the state, and its result is a good one in that state if there
is one. -/
structure Ends (I : σ → Prop) (good : α → σ → Prop) (outcome : Except ε α × σ) : Prop where
  kept : I outcome.2
  good : ∀ y, outcome.1 = .ok y → good y outcome.2

/-- Nothing is asked of a result. -/
abbrev anything : α → σ → Prop := fun _ _ => True

/-- What keeps a property ends in it. -/
theorem Keeps.ends {I : σ → Prop} {x : ExceptT ε (StateM σ) α} (hx : Keeps I x) {s : σ} (h : I s) :
    Ends I anything (x s) :=
  ⟨hx s h, fun _ _ => trivial⟩

theorem Keeps.of_ends {I : σ → Prop} {good : α → σ → Prop} {x : ExceptT ε (StateM σ) α}
    (h : ∀ s, I s → Ends I good (x s)) : Keeps I x :=
  fun s hs => (h s hs).kept

namespace Ends

variable {I : σ → Prop} {good : α → σ → Prop} {good' : β → σ → Prop} {s : σ}

/-- Whatever the result is, the property is kept. -/
theorem carried {outcome : Except ε α × σ} (h : Ends I anything outcome) : I outcome.2 := h.kept

theorem of_error (h : I s) (e : ε) : Ends I good (.error e, s) := ⟨h, fun _ => nofun⟩

theorem of_ok (h : I s) {y : α} (hy : good y s) : Ends I good ((.ok y, s) : Except ε α × σ) :=
  ⟨h, fun _ he => Except.ok.inj he ▸ hy⟩

theorem bind {x : ExceptT ε (StateM σ) α} {f : α → ExceptT ε (StateM σ) β}
    (hx : Ends I good (x s)) (hf : ∀ y s', I s' → good y s' → Ends I good' (f y s')) :
    Ends I good' ((x >>= f) s) := by
  rw [bind_apply]
  obtain ⟨hkept, hgood⟩ := hx
  rcases hr : x s with ⟨e | y, s'⟩ <;> rw [hr] at hkept hgood
  · exact of_error hkept e
  · exact hf y s' hkept (hgood y rfl)

/-- What keeps every property only looks at the state, and the rest begins in that state. -/
theorem look {x : ExceptT ε (StateM σ) α} {f : α → ExceptT ε (StateM σ) β}
    (hx : ∀ {I : σ → Prop}, Keeps I x) (h : I s) (hf : ∀ y, Ends I good' (f y s)) :
    Ends I good' ((x >>= f) s) := by
  have hs : (x s).2 = s := hx (I := (· = s)) s rfl
  rw [bind_apply]
  rcases hr : x s with ⟨e | y, s'⟩ <;> rw [hr] at hs <;> obtain rfl : s' = s := hs
  · exact of_error h e
  · exact hf y

end Ends

end Metering.Fallible
