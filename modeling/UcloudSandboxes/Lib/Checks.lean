import Mathlib.Logic.Basic

/-!
# Checks in order

A computation that may fail runs its steps in order and fails with the error of the first one that
does. `Reached` are the steps it comes to, `FailsOnly` says what its errors are, and `forget` drops
its result, which is how a `do` block becomes a list of steps.
-/
namespace UcloudSandboxes.Lib

variable {ε α β ρ : Type}

/-- Every error satisfies `p`. -/
def FailsOnly (p : ε → Prop) (x : Except ε α) : Prop := ∀ e, x = .error e → p e

theorem failsOnly_ok (p : ε → Prop) (a : α) : FailsOnly p (.ok a : Except ε α) := by
  intro e h
  cases h

theorem failsOnly_error {p : ε → Prop} {e : ε} :
    FailsOnly p (.error e : Except ε α) ↔ p e := by
  constructor
  · intro h
    exact h e rfl
  · intro h e' he
    cases he
    exact h

/-- Errors that are replaced. -/
theorem failsOnly_mapError {ε' : Type} {p : ε' → Prop} {f : ε → ε'} {x : Except ε α} :
    FailsOnly p (x.mapError f) ↔ FailsOnly (fun e => p (f e)) x := by
  cases x with
  | ok a => exact iff_of_true (failsOnly_ok p a) (failsOnly_ok _ a)
  | error e => exact failsOnly_error.trans (@failsOnly_error _ _ (fun e => p (f e)) e).symm

/-- The computation without its result. -/
def forget (x : Except ε α) : Except ε Unit :=
  match x with
  | .ok _ => .ok ()
  | .error e => .error e

theorem failsOnly_forget {p : ε → Prop} {x : Except ε α} :
    FailsOnly p (forget x) ↔ FailsOnly p x := by
  cases x with
  | ok a => exact iff_of_true (failsOnly_ok p _) (failsOnly_ok p a)
  | error e => exact failsOnly_error.trans failsOnly_error.symm

/-- The steps in order. -/
def runSteps (run : ρ → Except ε Unit) : List ρ → Except ε Unit
  | [] => .ok ()
  | s :: rest =>
      match run s with
      | .ok _ => runSteps run rest
      | .error e => .error e

/-- A computation whose first part is a step. -/
theorem forget_bind {run : ρ → Except ε Unit} {x : Except ε α} {f : α → Except ε β} {s : ρ}
    {rest : List ρ} (hs : run s = forget x)
    (hrest : ∀ a, x = .ok a → forget (f a) = runSteps run rest) :
    forget (x >>= f) = runSteps run (s :: rest) := by
  simp only [runSteps, hs]
  cases x with
  | error e => rfl
  | ok a => exact hrest a rfl

/-- The step is the first one that may fail. -/
inductive Reached (run : ρ → Except ε Unit) : List ρ → ρ → Prop
  | here (s : ρ) (rest : List ρ) : Reached run (s :: rest) s
  | later {s t : ρ} {rest : List ρ} (passes : run s = .ok ()) (reached : Reached run rest t) :
      Reached run (s :: rest) t

section
variable {run : ρ → Except ε Unit}

theorem reached_cons {s t : ρ} {rest : List ρ} :
    Reached run (s :: rest) t ↔ t = s ∨ run s = .ok () ∧ Reached run rest t := by
  constructor
  · intro h
    cases h with
    | here => exact .inl rfl
    | later passes reached => exact .inr ⟨passes, reached⟩
  · rintro (rfl | ⟨passes, reached⟩)
    · exact .here _ _
    · exact .later passes reached

theorem Reached.mem {steps : List ρ} {t : ρ} (h : Reached run steps t) : t ∈ steps := by
  induction h with
  | here => exact List.mem_cons_self
  | later _ _ ih => exact List.mem_cons_of_mem _ ih

/-- **What the steps fail with** is what the reached ones do. -/
theorem failsOnly_runSteps {p : ε → Prop} {steps : List ρ} :
    FailsOnly p (runSteps run steps) ↔ ∀ s, Reached run steps s → FailsOnly p (run s) := by
  induction steps with
  | nil =>
      refine iff_of_true (failsOnly_ok p _) ?_
      intro s h
      cases h
  | cons s rest ih =>
      simp only [reached_cons, runSteps]
      cases hs : run s with
      | error e =>
          constructor
          · rintro h t (rfl | ⟨hok, -⟩)
            · rw [hs]
              exact h
            · cases hok
          · intro h
            have herror := h s (.inl rfl)
            rw [hs] at herror
            exact herror
      | ok u =>
          rw [ih]
          constructor
          · rintro h t (rfl | ⟨-, hreached⟩)
            · rw [hs]
              exact failsOnly_ok p _
            · exact h t hreached
          · intro h t hreached
            exact h t (.inr ⟨rfl, hreached⟩)

end

/-- The elements of a list, each with the same function. -/
theorem forget_mapM (f : ρ → Except ε α) (items : List ρ) :
    forget (items.mapM f) = runSteps (fun s => forget (f s)) items := by
  induction items with
  | nil => rfl
  | cons s rest ih =>
      rw [List.mapM_cons]
      refine forget_bind rfl fun a _ => ?_
      rw [← ih]
      cases rest.mapM f <;> rfl

end UcloudSandboxes.Lib
