import Mathlib.Data.Nat.Init
import Mathlib.Logic.Relation

/-!
# Runs that end

A step relation `Descends` when its steps keep an invariant and decrease a measure, and only a final
state has no step. Every run is then bounded by the measure of its start, and can be completed.

* `Descends.run`: the invariant holds along a run.
* `Descends.length_le`: a run is no longer than the measure of its start.
* `Descends.completes`: a final state is reached.
-/
namespace UcloudSandboxes.Lib

universe u
variable {σ : Type u}

/-- A run of so many steps. -/
inductive Steps (step : σ → σ → Prop) (s : σ) : ℕ → σ → Prop
  | nil : Steps step s 0 s
  | snoc {n : ℕ} {s' s'' : σ} : Steps step s n s' → step s' s'' → Steps step s (n + 1) s''

/-- Steps keep `I` and decrease `m`, and where `I` holds only a final state has none. -/
structure Descends (step : σ → σ → Prop) (I final : σ → Prop) (m : σ → ℕ) : Prop where
  keeps : ∀ s s', I s → step s s' → I s'
  decreases : ∀ s s', I s → step s s' → m s' < m s
  progress : ∀ s, I s → final s ∨ ∃ s', step s s'

namespace Descends
variable {step : σ → σ → Prop} {I final : σ → Prop} {m : σ → ℕ} {s s' : σ}

/-- **The run rule.** -/
theorem run (D : Descends step I final m) (hs : I s) (h : Relation.ReflTransGen step s s') :
    I s' := by
  induction h with
  | refl => exact hs
  | tail _ hstep ih => exact D.keeps _ _ ih hstep

/-- **A run is bounded.** -/
theorem length_le (D : Descends step I final m) (hs : I s) {n : ℕ} (h : Steps step s n s') :
    I s' ∧ n + m s' ≤ m s := by
  induction h with
  | nil => exact ⟨hs, by omega⟩
  | snoc _ hstep ih =>
      obtain ⟨hI, hle⟩ := ih
      have hlt := D.decreases _ _ hI hstep
      exact ⟨D.keeps _ _ hI hstep, by omega⟩

/-- **A run can be completed.** -/
theorem completes (D : Descends step I final m) (hs : I s) :
    ∃ s', Relation.ReflTransGen step s s' ∧ final s' := by
  generalize hn : m s = n
  induction n using Nat.strongRecOn generalizing s with
  | ind n ih =>
      rcases D.progress s hs with hfinal | ⟨t, hstep⟩
      · exact ⟨s, .refl, hfinal⟩
      · have hlt := D.decreases s t hs hstep
        obtain ⟨s', hrun, hfinal⟩ := ih (m t) (by omega) (D.keeps s t hs hstep) rfl
        exact ⟨s', .head hstep hrun, hfinal⟩

end Descends
end UcloudSandboxes.Lib
