/-!
# Computations that change a state and can fail

Reads and runs are computations on a state that end with a result or a fault and leave a state in both
cases. These are the equations of such computations at a given state.
-/

namespace FluentWrappers.Fallible

variable {ε σ α β : Type}

@[simp] theorem pure_apply (a : α) (s : σ) :
    (pure a : ExceptT ε (StateM σ) α) s = (.ok a, s) := rfl

@[simp] theorem throw_apply (e : ε) (s : σ) :
    (throw e : ExceptT ε (StateM σ) α) s = (.error e, s) := rfl

@[simp] theorem get_apply (s : σ) : (get : ExceptT ε (StateM σ) σ) s = (.ok s, s) := rfl

@[simp] theorem set_apply (s t : σ) :
    (set t : ExceptT ε (StateM σ) PUnit) s = (.ok ⟨⟩, t) := rfl

@[simp] theorem lift_apply (x : Except ε α) (s : σ) :
    (liftM x : ExceptT ε (StateM σ) α) s = (x, s) := rfl

theorem bind_ok {x : ExceptT ε (StateM σ) α} {f : α → ExceptT ε (StateM σ) β} {a : α} {s t : σ}
    (h : x s = (.ok a, t)) : (x >>= f) s = f a t := by
  have unfolded : (x >>= f) s = ExceptT.bindCont f (x s).1 (x s).2 := rfl
  rw [unfolded, h]
  rfl

theorem bind_error {x : ExceptT ε (StateM σ) α} {f : α → ExceptT ε (StateM σ) β} {e : ε} {s t : σ}
    (h : x s = (.error e, t)) : (x >>= f) s = (.error e, t) := by
  have unfolded : (x >>= f) s = ExceptT.bindCont f (x s).1 (x s).2 := rfl
  rw [unfolded, h]
  rfl

/-- A sequence ends with a result exactly if both of its parts do. -/
theorem bind_eq_ok_iff {x : ExceptT ε (StateM σ) α} {f : α → ExceptT ε (StateM σ) β} {b : β}
    {s u : σ} :
    (x >>= f) s = (.ok b, u) ↔ ∃ a t, x s = (.ok a, t) ∧ f a t = (.ok b, u) := by
  constructor
  · intro h
    rcases hx : x s with ⟨e | a, t⟩
    · rw [bind_error hx] at h
      cases h
    · rw [bind_ok hx] at h
      exact ⟨a, t, rfl, h⟩
  · rintro ⟨a, t, hx, hf⟩
    rw [bind_ok hx, hf]

/-- A sequence fails exactly if its first part does or its second part does after it. -/
theorem bind_eq_error_iff {x : ExceptT ε (StateM σ) α} {f : α → ExceptT ε (StateM σ) β} {e : ε}
    {s u : σ} :
    (x >>= f) s = (.error e, u) ↔
      x s = (.error e, u) ∨ ∃ a t, x s = (.ok a, t) ∧ f a t = (.error e, u) := by
  constructor
  · intro h
    rcases hx : x s with ⟨e' | a, t⟩
    · rw [bind_error hx] at h
      cases h
      exact Or.inl rfl
    · rw [bind_ok hx] at h
      exact Or.inr ⟨a, t, rfl, h⟩
  · rintro (hx | ⟨a, t, hx, hf⟩)
    · exact bind_error hx
    · rw [bind_ok hx, hf]

/-! ### Specifications -/

/-- From a state on, the computation gives a result of the one kind or ends with a fault of the
other. -/
def Meets (x : ExceptT ε (StateM σ) α) (s : σ) (post : α → Prop) (failed : ε → Prop) : Prop :=
  match (x s).1 with
  | .ok a => post a
  | .error e => failed e

variable {x : ExceptT ε (StateM σ) α} {s t : σ} {post : α → Prop} {failed : ε → Prop}

theorem Meets.result {a : α} (h : Meets x s post failed) (run : x s = (.ok a, t)) : post a := by
  unfold Meets at h
  rw [run] at h
  exact h

theorem Meets.fault {e : ε} (h : Meets x s post failed) (run : x s = (.error e, t)) : failed e := by
  unfold Meets at h
  rw [run] at h
  exact h

theorem Meets.mono {post' : α → Prop} {failed' : ε → Prop} (h : Meets x s post failed)
    (results : ∀ a, post a → post' a) (faults : ∀ e, failed e → failed' e) :
    Meets x s post' failed' := by
  unfold Meets at h ⊢
  cases run : (x s).1 with
  | ok a =>
    rw [run] at h
    exact results a h
  | error e =>
    rw [run] at h
    exact faults e h

theorem meets_pure {a : α} (h : post a) : Meets (pure a) s post failed := h

theorem meets_throw {e : ε} (h : failed e) : Meets (throw e) s post failed := h

theorem meets_get : Meets (get : ExceptT ε (StateM σ) σ) s (· = s) failed := rfl

theorem meets_set {post : PUnit → Prop} (h : post ⟨⟩) :
    Meets (set t : ExceptT ε (StateM σ) PUnit) s post failed := h

theorem meets_lift {x : Except ε α} (results : ∀ a, x = .ok a → post a)
    (faults : ∀ e, x = .error e → failed e) :
    Meets (liftM x : ExceptT ε (StateM σ) α) s post failed := by
  cases x with
  | ok a => exact results a rfl
  | error e => exact faults e rfl

theorem Meets.bind {f : α → ExceptT ε (StateM σ) β} {last : β → Prop} (h : Meets x s post failed)
    (next : ∀ a t, post a → Meets (f a) t last failed) : Meets (x >>= f) s last failed := by
  rcases run : x s with ⟨e | a, t⟩
  · unfold Meets
    rw [bind_error run]
    exact h.fault run
  · have rest := next a t (h.result run)
    unfold Meets at rest ⊢
    rw [bind_ok run]
    exact rest

/-! ### Specifications with states -/

theorem state_bind {x : StateM σ α} {f : α → StateM σ β} {a : α} {s t : σ} (h : x s = (a, t)) :
    (x >>= f) s = f a t := by
  have unfolded : (x >>= f) s = f (x s).1 (x s).2 := rfl
  rw [unfolded, h]

theorem lift_state_apply (x : StateM σ α) (s : σ) :
    (liftM x : ExceptT ε (StateM σ) α) s = (.ok (x s).1, (x s).2) := rfl

/-- From a state on, the computation gives a result and a state of the one kind or ends with a fault of
the other. -/
def Leads (x : ExceptT ε (StateM σ) α) (s : σ) (post : α → σ → Prop) (failed : ε → Prop) : Prop :=
  match x s with
  | (.ok a, t) => post a t
  | (.error e, _) => failed e

section

variable {post : α → σ → Prop}

theorem leads_of_ok {a : α} (run : x s = (.ok a, t)) (h : post a t) : Leads x s post failed := by
  unfold Leads
  rw [run]
  exact h

theorem leads_of_error {e : ε} (run : x s = (.error e, t)) (h : failed e) :
    Leads x s post failed := by
  unfold Leads
  rw [run]
  exact h

theorem Leads.result {a : α} (h : Leads x s post failed) (run : x s = (.ok a, t)) : post a t := by
  unfold Leads at h
  rw [run] at h
  exact h

theorem Leads.fault {e : ε} (h : Leads x s post failed) (run : x s = (.error e, t)) :
    failed e := by
  unfold Leads at h
  rw [run] at h
  exact h

theorem Leads.mono {post' : α → σ → Prop} {failed' : ε → Prop} (h : Leads x s post failed)
    (results : ∀ a t, post a t → post' a t) (faults : ∀ e, failed e → failed' e) :
    Leads x s post' failed' := by
  rcases run : x s with ⟨e | a, t⟩
  · exact leads_of_error run (faults e (h.fault run))
  · exact leads_of_ok run (results a t (h.result run))

theorem Leads.weaken {failed' : ε → Prop} (h : Leads x s post failed)
    (faults : ∀ e, failed e → failed' e) : Leads x s post failed' :=
  h.mono (fun _ _ found => found) faults

theorem leads_pure {a : α} (h : post a s) : Leads (pure a) s post failed := h

theorem leads_throw {e : ε} (h : failed e) : Leads (throw e) s post failed := h

theorem leads_lift {x : Except ε α} (results : ∀ a, x = .ok a → post a s)
    (faults : ∀ e, x = .error e → failed e) :
    Leads (liftM x : ExceptT ε (StateM σ) α) s post failed := by
  cases x with
  | ok a => exact results a rfl
  | error e => exact faults e rfl

theorem leads_bind_ok {f : α → ExceptT ε (StateM σ) β} {a : α} {last : β → σ → Prop}
    (run : x s = (.ok a, t)) (rest : Leads (f a) t last failed) :
    Leads (x >>= f) s last failed := by
  unfold Leads
  rw [bind_ok run]
  exact rest

theorem leads_bind_error {f : α → ExceptT ε (StateM σ) β} {e : ε} {last : β → σ → Prop}
    (run : x s = (.error e, t)) (h : failed e) : Leads (x >>= f) s last failed :=
  leads_of_error (bind_error run) h

theorem Leads.bind {f : α → ExceptT ε (StateM σ) β} {last : β → σ → Prop}
    (h : Leads x s post failed) (next : ∀ a t, post a t → Leads (f a) t last failed) :
    Leads (x >>= f) s last failed := by
  rcases run : x s with ⟨e | a, t⟩
  · exact leads_bind_error run (h.fault run)
  · exact leads_bind_ok run (next a t (h.result run))

end

/-! ### Specifications of faults with states -/

/-- From a state on, the computation gives a result and a state of the one kind, or a fault and a state
of the other. -/
def Ends (x : ExceptT ε (StateM σ) α) (s : σ) (post : α → σ → Prop) (failed : ε → σ → Prop) :
    Prop :=
  match x s with
  | (.ok a, t) => post a t
  | (.error e, t) => failed e t

/-- What holds of the state after a computation, however it ended. -/
theorem ends_iff {post : σ → Prop} : Ends x s (fun _ => post) (fun _ => post) ↔ post (x s).2 := by
  unfold Ends
  rcases x s with ⟨error | a, t⟩
  · exact Iff.rfl
  · exact Iff.rfl

/-- Where faults are told whatever their states are, both kinds of specification say the same. -/
theorem leads_iff_ends {post : α → σ → Prop} {failed : ε → Prop} :
    Leads x s post failed ↔ Ends x s post fun e _ => failed e := Iff.rfl

section

variable {post : α → σ → Prop} {failed : ε → σ → Prop}

theorem ends_of_ok {a : α} (run : x s = (.ok a, t)) (h : post a t) : Ends x s post failed := by
  unfold Ends
  rw [run]
  exact h

theorem ends_of_error {e : ε} (run : x s = (.error e, t)) (h : failed e t) :
    Ends x s post failed := by
  unfold Ends
  rw [run]
  exact h

theorem Ends.result {a : α} (h : Ends x s post failed) (run : x s = (.ok a, t)) : post a t := by
  unfold Ends at h
  rw [run] at h
  exact h

theorem Ends.fault {e : ε} (h : Ends x s post failed) (run : x s = (.error e, t)) :
    failed e t := by
  unfold Ends at h
  rw [run] at h
  exact h

theorem Ends.mono {post' : α → σ → Prop} {failed' : ε → σ → Prop} (h : Ends x s post failed)
    (results : ∀ a t, post a t → post' a t) (faults : ∀ e t, failed e t → failed' e t) :
    Ends x s post' failed' := by
  rcases run : x s with ⟨e | a, t⟩
  · exact ends_of_error run (faults e t (h.fault run))
  · exact ends_of_ok run (results a t (h.result run))

theorem ends_pure {a : α} (h : post a s) : Ends (pure a) s post failed := h

theorem ends_throw {e : ε} (h : failed e s) : Ends (throw e) s post failed := h

theorem ends_lift {x : Except ε α} (results : ∀ a, x = .ok a → post a s)
    (faults : ∀ e, x = .error e → failed e s) :
    Ends (liftM x : ExceptT ε (StateM σ) α) s post failed := by
  cases x with
  | ok a => exact results a rfl
  | error e => exact faults e rfl

theorem ends_bind_ok {f : α → ExceptT ε (StateM σ) β} {a : α} {last : β → σ → Prop}
    (run : x s = (.ok a, t)) (rest : Ends (f a) t last failed) : Ends (x >>= f) s last failed := by
  unfold Ends
  rw [bind_ok run]
  exact rest

theorem ends_bind_error {f : α → ExceptT ε (StateM σ) β} {e : ε} {last : β → σ → Prop}
    (run : x s = (.error e, t)) (h : failed e t) : Ends (x >>= f) s last failed :=
  ends_of_error (bind_error run) h

theorem Ends.bind {f : α → ExceptT ε (StateM σ) β} {last : β → σ → Prop}
    {failed' : ε → σ → Prop} (h : Ends x s post failed)
    (next : ∀ a t, post a t → Ends (f a) t last failed')
    (faults : ∀ e t, failed e t → failed' e t) : Ends (x >>= f) s last failed' := by
  rcases run : x s with ⟨e | a, t⟩
  · exact ends_bind_error run (faults e t (h.fault run))
  · exact ends_bind_ok run (next a t (h.result run))

end

end FluentWrappers.Fallible
