import MediaCatalogue.Ingest.Apply

/-!
# How accesses run

An access is a program that may fail and may change a state. These lemmas run it step by step: what
comes first ends with a result and a state, and the rest goes on from there.
-/

namespace MediaCatalogue

variable {ε ε' σ α β : Type} {x : ExceptT ε (StateM σ) α} {f : α → ExceptT ε (StateM σ) β}
  {s s' : σ}

theorem run_bind_ok {a : α} (h : x.run s = (.ok a, s')) : (x >>= f).run s = (f a).run s' := by
  show StateT.bind x (ExceptT.bindCont f) s = _
  simp only [StateT.bind, show x s = (.ok a, s') from h]
  rfl

theorem run_bind_error {e : ε} (h : x.run s = (.error e, s')) :
    (x >>= f).run s = (.error e, s') := by
  show StateT.bind x (ExceptT.bindCont f) s = _
  simp only [StateT.bind, show x s = (.error e, s') from h]
  rfl

theorem of_run_bind {b : β} (h : (x >>= f).run s = (.ok b, s')) :
    ∃ a s₁, x.run s = (.ok a, s₁) ∧ (f a).run s₁ = (.ok b, s') := by
  cases hx : x.run s with
  | mk result s₁ =>
    cases result with
    | error e =>
      rw [run_bind_error hx] at h
      cases h
    | ok a =>
      rw [run_bind_ok hx] at h
      exact ⟨a, s₁, rfl, h⟩

/-- Programs that begin alike run alike if the rest does, whatever the first part gives. -/
theorem run_bind_congr {y : ExceptT ε (StateM σ) α} {g : α → ExceptT ε (StateM σ) β}
    (hx : x.run s = y.run s)
    (hf : ∀ a s₁, x.run s = (.ok a, s₁) → (f a).run s₁ = (g a).run s₁) :
    (x >>= f).run s = (y >>= g).run s := by
  cases h : x.run s with
  | mk result s₁ =>
    rw [h] at hx
    cases result with
    | error e => rw [run_bind_error h, run_bind_error hx.symm]
    | ok a => rw [run_bind_ok h, run_bind_ok hx.symm, hf a s₁ h]

theorem run_bind_pure (f : α → β) :
    (x >>= fun a => pure (f a) : ExceptT ε (StateM σ) β).run s =
      ((x.run s).1.map f, (x.run s).2) := by
  cases h : x.run s with
  | mk result s' =>
    cases result with
    | error e =>
      rw [run_bind_error h]
      rfl
    | ok a =>
      rw [run_bind_ok h]
      rfl

theorem run_lift {y : StateM σ α} {a : α} (h : y.run s = (a, s')) :
    (ExceptT.lift y : ExceptT ε (StateM σ) α).run s = (.ok a, s') := by
  show StateT.map Except.ok y s = _
  simp only [StateT.map, show y s = (a, s') from h]
  rfl

theorem run_liftM (result : Except ε α) :
    (liftM result : ExceptT ε (StateM σ) α).run s = (result, s) :=
  rfl

theorem run_adapt (g : ε → ε') :
    (ExceptT.adapt g x).run s = ((x.run s).1.mapError g, (x.run s).2) :=
  rfl

end MediaCatalogue
