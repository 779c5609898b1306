import Mathlib.Algebra.BigOperators.Group.Finset.Basic
import Mathlib.Data.Fintype.Basic

/-!
# Agents that share one store

A `Crew` is a store together with one state per agent. Agents move one at a time: a step of
agent `k` may change the store and the state of `k`, and leaves every other agent where it
was. `Reachable` closes the start under every interleaving of such steps.

A few rules carry the proofs about crews.

* `Guarded.reachable` is the rely-guarantee rule: an assertion about the store and one agent
  holds throughout if every local step keeps it, for the agent that moves and for every other.
* `Separated.reachable` is the same rule with a relation between any two agents beside the
  assertion, such as that they own different things.
* `Reachable.balanced` and `Reachable.conserved` are the accounting rules: if no step changes what
  the store and the moving agent hold together, the grand total never changes.
-/
namespace UcloudSandboxes.Lib

universe u v w

/-- A store shared by the agents `ι`, each of which has a state of its own. -/
@[ext] structure Crew (ι : Type u) (σ : Type v) (α : Type w) where
  store : σ
  agent : ι → α

namespace Crew
variable {ι : Type u} {σ : Type v} {α : Type w} [DecidableEq ι]

/-- Replace the store and the state of agent `k`. -/
def put (c : Crew ι σ α) (k : ι) (s : σ) (a : α) : Crew ι σ α :=
  ⟨s, Function.update c.agent k a⟩

@[simp] theorem store_put (c : Crew ι σ α) (k : ι) (s : σ) (a : α) : (c.put k s a).store = s := rfl
@[simp] theorem agent_put_self (c : Crew ι σ α) (k : ι) (s : σ) (a : α) :
    (c.put k s a).agent k = a := by simp [put]
@[simp] theorem agent_put_of_ne (c : Crew ι σ α) {j k : ι} (h : j ≠ k) (s : σ) (a : α) :
    (c.put k s a).agent j = c.agent j := by simp [put, h]

@[simp] theorem put_put (c : Crew ι σ α) (k : ι) (s s' : σ) (a a' : α) :
    (c.put k s a).put k s' a' = c.put k s' a' := by simp [put]
@[simp] theorem put_self (c : Crew ι σ α) (k : ι) : c.put k c.store (c.agent k) = c := by
  simp [put]

/-- What agent `k` may do: from a store and its own state to a new store and a new state of its
own. -/
abbrev Local (ι : Type u) (σ : Type v) (α : Type w) := ι → σ → α → σ → α → Prop

/-- One agent takes one local step. -/
inductive Step (act : Local ι σ α) : Crew ι σ α → Crew ι σ α → Prop
  | move (c : Crew ι σ α) (k : ι) (s : σ) (a : α) :
      act k c.store (c.agent k) s a → Step act c (c.put k s a)

/-- The states some interleaving leads to from `c₀`. -/
inductive Reachable (act : Local ι σ α) (c₀ : Crew ι σ α) : Crew ι σ α → Prop
  | start : Reachable act c₀ c₀
  | next {c c' : Crew ι σ α} : Reachable act c₀ c → Step act c c' → Reachable act c₀ c'

/-- A local step of `k` keeps `I` for `k` itself (`own`) and for every other agent (`rest`). -/
structure Guarded (act : Local ι σ α) (I : ι → σ → α → Prop) : Prop where
  own : ∀ k s a s' a', I k s a → act k s a s' a' → I k s' a'
  rest : ∀ k j s a s' a' o, j ≠ k → I k s a → I j s o → act k s a s' a' → I j s' o

/-- `I` holds of the store and every agent. -/
def Holds (I : ι → σ → α → Prop) (c : Crew ι σ α) : Prop := ∀ k, I k c.store (c.agent k)

theorem Guarded.step {act : Local ι σ α} {I : ι → σ → α → Prop} (G : Guarded act I)
    {c c' : Crew ι σ α} (H : Holds I c) (h : Step act c c') : Holds I c' := by
  obtain ⟨k, s, a, hact⟩ := h
  intro j
  by_cases hj : j = k
  · subst hj
    simpa using G.own j _ _ _ _ (H j) hact
  · simpa [hj] using G.rest k j _ _ _ _ _ hj (H k) (H j) hact

/-- **The rely-guarantee rule.** -/
theorem Guarded.reachable {act : Local ι σ α} {I : ι → σ → α → Prop} (G : Guarded act I)
    {c₀ c : Crew ι σ α} (h₀ : Holds I c₀) (h : Reachable act c₀ c) : Holds I c := by
  induction h with
  | start => exact h₀
  | next _ hstep ih => exact G.step ih hstep

/-- A local step of `k` keeps `I` for everyone and `D` between `k` and every other agent. -/
structure Separated (act : Local ι σ α) (I : ι → σ → α → Prop) (D : α → α → Prop) : Prop where
  symm : ∀ a o, D a o → D o a
  own : ∀ k s a s' a', I k s a → act k s a s' a' → I k s' a'
  rest : ∀ k j s a s' a' o, j ≠ k → D a o → I k s a → I j s o → act k s a s' a' → I j s' o
  apart : ∀ k j s a s' a' o, j ≠ k → D a o → I k s a → I j s o → act k s a s' a' → D a' o

/-- `D` holds between any two agents. -/
def Apart (D : α → α → Prop) (c : Crew ι σ α) : Prop := ∀ j k, j ≠ k → D (c.agent j) (c.agent k)

theorem Separated.step {act : Local ι σ α} {I : ι → σ → α → Prop} {D : α → α → Prop}
    (S : Separated act I D) {c c' : Crew ι σ α} (H : Holds I c) (A : Apart D c)
    (h : Step act c c') : Holds I c' ∧ Apart D c' := by
  obtain ⟨k, s, a, hact⟩ := h
  have hmoved : ∀ j, j ≠ k → D a (c.agent j) := fun j hj =>
    S.apart k j _ _ _ _ _ hj (A k j hj.symm) (H k) (H j) hact
  constructor
  · intro j
    by_cases hj : j = k
    · subst hj
      simpa using S.own j _ _ _ _ (H j) hact
    · simpa [hj] using S.rest k j _ _ _ _ _ hj (A k j (Ne.symm hj)) (H k) (H j) hact
  · intro i j hij
    by_cases hi : i = k
    · subst hi
      simpa [Ne.symm hij] using hmoved j (Ne.symm hij)
    · by_cases hj : j = k
      · subst hj
        simpa [hi] using S.symm _ _ (hmoved i hi)
      · simpa [hi, hj] using A i j hij

/-- **The rely-guarantee rule with separation.** -/
theorem Separated.reachable {act : Local ι σ α} {I : ι → σ → α → Prop} {D : α → α → Prop}
    (S : Separated act I D) {c₀ c : Crew ι σ α} (h₀ : Holds I c₀) (a₀ : Apart D c₀)
    (h : Reachable act c₀ c) : Holds I c ∧ Apart D c := by
  induction h with
  | start => exact ⟨h₀, a₀⟩
  | next _ hstep ih => exact S.step ih.1 ih.2 hstep

/-- What every agent sees of the store holds of it, also if there are no agents. -/
theorem Reachable.store {act : Local ι σ α} {P : σ → Prop} {c₀ c : Crew ι σ α} (h₀ : P c₀.store)
    (h : Reachable act c₀ c) (H : ∀ _ : ι, P c.store) : P c.store := by
  cases h with
  | start => exact h₀
  | next _ hstep =>
      obtain ⟨k, s, a, _⟩ := hstep
      exact H k

/-- The steps of an agent that runs alone. -/
inductive Solo (act : σ → α → σ → α → Prop) : σ → α → σ → α → Prop
  | refl (s : σ) (a : α) : Solo act s a s a
  | head {s s' s'' : σ} {a a' a'' : α} :
      act s a s' a' → Solo act s' a' s'' a'' → Solo act s a s'' a''

/-- An agent may run alone. -/
theorem Reachable.solo {act : Local ι σ α} {c₀ c : Crew ι σ α} (h : Reachable act c₀ c) (k : ι)
    {s : σ} {a : α} (hrun : Solo (act k) c.store (c.agent k) s a) :
    Reachable act c₀ (c.put k s a) := by
  suffices hput : ∀ s₀ a₀, Solo (act k) s₀ a₀ s a → Reachable act c₀ (c.put k s₀ a₀) →
      Reachable act c₀ (c.put k s a) from hput _ _ hrun (by simpa using h)
  intro s₀ a₀ hsolo
  clear hrun
  induction hsolo with
  | refl => exact id
  | @head s₁ s₂ s₃ a₁ a₂ a₃ hstep _ ih =>
      intro hreach
      have hmove : Step act (c.put k s₁ a₁) ((c.put k s₁ a₁).put k s₂ a₂) :=
        .move _ k s₂ a₂ (by simpa using hstep)
      rw [put_put] at hmove
      exact ih (.next hreach hmove)

section Accounts
variable [Fintype ι]

/-- Moving one agent changes the sum over all agents by what that agent's share changes. -/
theorem sum_put (f : α → ℕ) (c : Crew ι σ α) (k : ι) (s : σ) (a : α) :
    ∑ j, f ((c.put k s a).agent j) + f (c.agent k) = ∑ j, f (c.agent j) + f a := by
  have hnew := Finset.add_sum_erase Finset.univ (fun j => f ((c.put k s a).agent j))
    (Finset.mem_univ k)
  have hold := Finset.add_sum_erase Finset.univ (fun j => f (c.agent j)) (Finset.mem_univ k)
  have hrest : ∑ j ∈ Finset.univ.erase k, f ((c.put k s a).agent j) =
      ∑ j ∈ Finset.univ.erase k, f (c.agent j) := by
    refine Finset.sum_congr rfl fun j hj => ?_
    rw [agent_put_of_ne c (Finset.ne_of_mem_erase hj)]
  simp only [agent_put_self] at hnew
  omega

/-- **The accounting rule.** `stock` is what the store holds and `share` what an agent holds.
If no step changes their sum, from states where `I` holds and the total is still the one at the
start, then it never changes. -/
theorem Reachable.balanced {act : Local ι σ α} {I : ι → σ → α → Prop} (G : Guarded act I)
    {c₀ c : Crew ι σ α} (h₀ : Holds I c₀) (stock : σ → ℕ) (share : α → ℕ)
    (hact : ∀ (d : Crew ι σ α) k s' a', Holds I d →
      stock d.store + ∑ j, share (d.agent j) = stock c₀.store + ∑ j, share (c₀.agent j) →
      act k d.store (d.agent k) s' a' → stock s' + share a' = stock d.store + share (d.agent k))
    (h : Reachable act c₀ c) :
    stock c.store + ∑ k, share (c.agent k) = stock c₀.store + ∑ k, share (c₀.agent k) := by
  induction h with
  | start => rfl
  | @next c c' hreach hstep ih =>
      have H := G.reachable h₀ hreach
      obtain ⟨k, s, a, hk⟩ := hstep
      have hlocal := hact c k _ _ H ih hk
      have hsum := sum_put share c k s a
      simp only [store_put]
      omega

/-- The accounting rule for steps that never change the sum. -/
theorem Reachable.conserved {act : Local ι σ α} {I : ι → σ → α → Prop} (G : Guarded act I)
    {c₀ c : Crew ι σ α} (h₀ : Holds I c₀) (stock : σ → ℕ) (share : α → ℕ)
    (hact : ∀ k s a s' a', I k s a → act k s a s' a' →
      stock s' + share a' = stock s + share a)
    (h : Reachable act c₀ c) :
    stock c.store + ∑ k, share (c.agent k) = stock c₀.store + ∑ k, share (c₀.agent k) :=
  h.balanced G h₀ stock share fun _ k _ _ H _ hk => hact k _ _ _ _ (H k) hk

end Accounts
end Crew
end UcloudSandboxes.Lib
