/-!
# Results

What a result says of the steps that it comes from, if it is no fault, and how computations that can
fail run on a state.
-/

namespace BooleanSearch

variable {ε ε' α β : Type}

theorem exists_of_bind_eq_ok {x : Except ε α} {f : α → Except ε β} {b : β}
    (h : x >>= f = .ok b) : ∃ a, x = .ok a ∧ f a = .ok b := by
  cases x with
  | error fault => cases h
  | ok a => exact ⟨a, rfl, h⟩

theorem of_mapError_eq_ok {x : Except ε α} {f : ε → ε'} {a : α} (h : x.mapError f = .ok a) :
    x = .ok a := by
  cases x with
  | error fault => cases h
  | ok b => cases h; rfl

theorem exists_of_mapError_eq_error {x : Except ε α} {f : ε → ε'} {fault : ε'}
    (h : x.mapError f = .error fault) : ∃ cause, x = .error cause ∧ f cause = fault := by
  cases x with
  | error cause => cases h; exact ⟨cause, rfl, rfl⟩
  | ok a => cases h

theorem eq_ok_of_toOption_eq_some {x : Except ε α} {a : α} (h : x.toOption = some a) :
    x = .ok a := by
  cases x with
  | error fault => cases h
  | ok b => cases h; rfl

theorem eq_mk_of_fst_eq {x : α × β} {a : α} (h : x.1 = a) : x = (a, x.2) := by rw [← h]

section Run

variable {σ : Type}

theorem run_bind (x : ExceptT ε (StateM σ) α) (f : α → ExceptT ε (StateM σ) β) (s : σ) :
    (x >>= f).run.run s =
      match x.run.run s with
      | (.ok a, s) => (f a).run.run s
      | (.error fault, s) => (.error fault, s) := by
  simp only [ExceptT.run_bind, StateT.run_bind]
  show StateT.run (match (x.run.run s).1 with
    | .ok a => (f a).run
    | .error fault => pure (.error fault)) (x.run.run s).2 = _
  rcases x.run.run s with ⟨_ | _, _⟩ <;> rfl

theorem exists_of_run_bind_eq_ok {x : ExceptT ε (StateM σ) α} {f : α → ExceptT ε (StateM σ) β}
    {s s' : σ} {b : β} (h : (x >>= f).run.run s = (.ok b, s')) :
    ∃ a t, x.run.run s = (.ok a, t) ∧ (f a).run.run t = (.ok b, s') := by
  rw [run_bind] at h
  split at h
  · next a t hx => exact ⟨a, t, hx, h⟩
  · cases h

theorem run_bind_of_eq_ok {x : ExceptT ε (StateM σ) α} {s t : σ} {a : α}
    (h : x.run.run s = (.ok a, t)) (f : α → ExceptT ε (StateM σ) β) :
    (x >>= f).run.run s = (f a).run.run t := by
  rw [run_bind, h]

theorem run_tryCatch (x : ExceptT ε (StateM σ) α) (handle : ε → ExceptT ε (StateM σ) α) (s : σ) :
    (tryCatch x handle).run.run s =
      match x.run.run s with
      | (.ok a, s) => (.ok a, s)
      | (.error fault, s) => (handle fault).run.run s := by
  show StateT.run (x.run >>= fun
    | .ok a => pure (.ok a)
    | .error fault => (handle fault).run) s = _
  simp only [StateT.run_bind]
  show StateT.run (match (x.run.run s).1 with
    | .ok a => pure (.ok a)
    | .error fault => (handle fault).run) (x.run.run s).2 = _
  rcases x.run.run s with ⟨_ | _, _⟩ <;> rfl

theorem run_adapt (f : ε → ε') (x : ExceptT ε (StateM σ) α) (s : σ) :
    (ExceptT.adapt f x).run.run s = ((x.run.run s).1.mapError f, (x.run.run s).2) := rfl

theorem run_adapt_of_eq_ok {x : ExceptT ε (StateM σ) α} {s t : σ} {a : α}
    (h : x.run.run s = (.ok a, t)) (f : ε → ε') :
    (ExceptT.adapt f x).run.run s = (.ok a, t) := by
  rw [run_adapt, h]
  rfl

theorem of_run_adapt_eq_ok {f : ε → ε'} {x : ExceptT ε (StateM σ) α} {s s' : σ} {a : α}
    (h : (ExceptT.adapt f x).run.run s = (.ok a, s')) : x.run.run s = (.ok a, s') := by
  rw [run_adapt, Prod.mk.injEq] at h
  exact Prod.ext (of_mapError_eq_ok h.1) h.2

theorem run_lift_of_eq {x : StateM σ α} {s t : σ} {a : α} (h : x.run s = (a, t)) :
    (liftM x : ExceptT ε (StateM σ) α).run.run s = (.ok a, t) := by
  show (Except.ok (x.run s).1, (x.run s).2) = _
  rw [h]

/-- Whether a property of the state outlasts a computation, and what comes of it, if anything, has
another property. -/
def Keeps (p : σ → Prop) (x : ExceptT ε (StateM σ) α) (q : α → Prop) : Prop :=
  ∀ s, p s → p (x.run.run s).2 ∧ ∀ a, (x.run.run s).1 = .ok a → q a

/-- Whether a property of the state outlasts a computation if that fails. -/
def FailsSafe (p : σ → Prop) (x : ExceptT ε (StateM σ) α) : Prop :=
  ∀ s, p s → ∀ fault, (x.run.run s).1 = .error fault → p (x.run.run s).2

variable {p : σ → Prop} {q : α → Prop} {x : ExceptT ε (StateM σ) α}
  {f : α → ExceptT ε (StateM σ) β}

theorem Keeps.adapt (h : Keeps p x q) (g : ε → ε') : Keeps p (ExceptT.adapt g x) q := by
  intro s hs
  rw [run_adapt]
  exact ⟨(h s hs).1, fun a ha => (h s hs).2 a (of_mapError_eq_ok ha)⟩

theorem FailsSafe.adapt (h : FailsSafe p x) (g : ε → ε') : FailsSafe p (ExceptT.adapt g x) := by
  intro s hs fault hfault
  obtain ⟨cause, hcause, -⟩ := exists_of_mapError_eq_error hfault
  exact h s hs cause hcause

/-- What keeps a property either ends a sequence with a fault or hands on its value. -/
theorem Keeps.run_bind_cases (h : Keeps p x q) {s : σ} (hs : p s)
    (f : α → ExceptT ε (StateM σ) β) :
    (∃ fault t, p t ∧ (x >>= f).run.run s = (.error fault, t)) ∨
      ∃ a t, q a ∧ p t ∧ (x >>= f).run.run s = (f a).run.run t := by
  obtain ⟨hkept, hvalue⟩ := h s hs
  rw [run_bind]
  split
  · next a t hx =>
    rw [hx] at hkept hvalue
    exact .inr ⟨a, t, hvalue a rfl, hkept, rfl⟩
  · next fault t hx =>
    rw [hx] at hkept
    exact .inl ⟨fault, t, hkept, rfl⟩

theorem Keeps.bind {r : β → Prop} (h : Keeps p x q) (h' : ∀ a, q a → Keeps p (f a) r) :
    Keeps p (x >>= f) r := by
  intro s hs
  rcases h.run_bind_cases hs f with ⟨fault, t, ht, hfailed⟩ | ⟨a, t, ha, ht, hdone⟩
  · rw [hfailed]
    exact ⟨ht, fun _ hvalue => by cases hvalue⟩
  · rw [hdone]
    exact h' a ha t ht

/-- What keeps a property may come before what fails safe. -/
theorem Keeps.bind_failsSafe (h : Keeps p x q) (h' : ∀ a, q a → FailsSafe p (f a)) :
    FailsSafe p (x >>= f) := by
  intro s hs
  rcases h.run_bind_cases hs f with ⟨fault, t, ht, hfailed⟩ | ⟨a, t, ha, ht, hdone⟩
  · rw [hfailed]
    exact fun _ _ => ht
  · rw [hdone]
    exact h' a ha t ht

/-- What fails safe may come before what does not fail. -/
theorem FailsSafe.bind_pure (h : FailsSafe p x) (g : α → β) :
    FailsSafe p (x >>= fun a => pure (g a)) := by
  intro s hs
  rw [run_bind]
  split
  · intro _ hfault
    cases hfault
  · next fault t hx =>
    intro _ _
    have hkept := h s hs fault (by rw [hx])
    rwa [hx] at hkept

end Run

end BooleanSearch
