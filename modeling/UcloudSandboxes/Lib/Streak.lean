import Mathlib.Data.List.Induction
import Mathlib.Data.List.TakeWhile

/-!
# Reacting to failures in a row

A loop counts the failures since the last success and reacts to each outcome with the count in hand.
It ends with the first reaction that ends it. `streak` says what the count is without the loop, and
`getElem?_reactions` what a loop made of an outcome.
-/
namespace UcloudSandboxes.Lib

universe u v
variable {α : Type u} {β : Type v}

/-- How many entries at the end of the list fail. -/
def streak (fails : α → Bool) (l : List α) : ℕ := (l.reverse.takeWhile fails).length

@[simp] theorem streak_nil (fails : α → Bool) : streak fails [] = 0 := rfl

@[simp] theorem streak_snoc (fails : α → Bool) (l : List α) (a : α) :
    streak fails (l ++ [a]) = if fails a then streak fails l + 1 else 0 := by
  simp only [streak, List.reverse_append, List.reverse_singleton, List.singleton_append,
    List.takeWhile_cons]
  by_cases h : fails a = true
  · rw [if_pos h, if_pos h, List.length_cons]
  · rw [if_neg h, if_neg h, List.length_nil]

theorem streak_le_length (fails : α → Bool) (l : List α) : streak fails l ≤ l.length := by
  simp only [streak]
  calc (l.reverse.takeWhile fails).length ≤ l.reverse.length :=
        (List.takeWhile_sublist fails).length_le
    _ = l.length := List.length_reverse

/-- A list of failures counts in full. -/
theorem streak_replicate {fails : α → Bool} {a : α} (h : fails a = true) (n : ℕ) :
    streak fails (List.replicate n a) = n := by
  induction n with
  | zero => rfl
  | succ n ih => rw [List.replicate_succ', streak_snoc, if_pos h, ih]

/-- The count behind one more outcome. -/
def counted (fails : α → Bool) (n : ℕ) (a : α) : ℕ := if fails a then n + 1 else 0

theorem foldl_counted (fails : α → Bool) (l : List α) :
    l.foldl (counted fails) 0 = streak fails l := by
  induction l using List.reverseRecOn with
  | nil => rfl
  | append_singleton l a ih => rw [List.foldl_append, ih, streak_snoc]; rfl

/-- What the loop does, outcome after outcome, from a count on. -/
def reactions (fails : α → Bool) (react : ℕ → α → β) (ends : β → Bool) : ℕ → List α → List β
  | _, [] => []
  | n, a :: rest =>
      let b := react (counted fails n a) a
      if ends b then [b] else b :: reactions fails react ends (counted fails n a) rest

/-- The reaction to the `i`-th outcome, if the loop comes to it. -/
def reactionAt (fails : α → Bool) (react : ℕ → α → β) (n : ℕ) (l : List α) (i : ℕ) : Option β :=
  l[i]?.map (react ((l.take (i + 1)).foldl (counted fails) n))

section
variable {fails : α → Bool} {react : ℕ → α → β} {ends : β → Bool}

theorem reactionAt_zero (l : List α) (i : ℕ) :
    reactionAt fails react 0 l i = l[i]?.map (react (streak fails (l.take (i + 1)))) := by
  rw [reactionAt, foldl_counted]

@[simp] theorem reactionAt_cons_zero (n : ℕ) (a : α) (rest : List α) :
    reactionAt fails react n (a :: rest) 0 = some (react (counted fails n a) a) := by
  simp [reactionAt]

@[simp] theorem reactionAt_cons_succ (n : ℕ) (a : α) (rest : List α) (i : ℕ) :
    reactionAt fails react n (a :: rest) (i + 1) =
      reactionAt fails react (counted fails n a) rest i := by
  simp [reactionAt]

/-- A loop that none of the outcomes so far has ended goes on with its count. -/
theorem reactions_append {n : ℕ} {before : List α} (after : List α)
    (h : ∀ i b, reactionAt fails react n before i = some b → ends b = false) :
    reactions fails react ends n (before ++ after) =
      reactions fails react ends n before ++
        reactions fails react ends (before.foldl (counted fails) n) after := by
  induction before generalizing n with
  | nil => rfl
  | cons a before ih =>
      have hgoes : ends (react (counted fails n a) a) = false :=
        h 0 _ (reactionAt_cons_zero n a before)
      have hrest := ih fun i b hb => h (i + 1) b (by rwa [reactionAt_cons_succ])
      simp only [List.cons_append, reactions, hgoes, Bool.false_eq_true, if_false, hrest,
        List.foldl_cons]

/-- The loop comes to an outcome if none before it ended the loop. -/
theorem getElem?_reactions {n : ℕ} {l : List α} {i : ℕ}
    (h : ∀ j < i, ∀ b, reactionAt fails react n l j = some b → ends b = false) :
    (reactions fails react ends n l)[i]? = reactionAt fails react n l i := by
  induction l generalizing n i with
  | nil => simp [reactions, reactionAt]
  | cons a rest ih =>
      cases i with
      | zero =>
          rw [reactionAt_cons_zero, reactions]
          by_cases hends : ends (react (counted fails n a) a) = true
          · simp [hends]
          · simp [hends]
      | succ i =>
          have hgoes : ends (react (counted fails n a) a) = false :=
            h 0 (Nat.succ_pos i) _ (reactionAt_cons_zero n a rest)
          have hrest := ih (i := i) fun j hj b hb =>
            h (j + 1) (by omega) b (by rwa [reactionAt_cons_succ])
          simp only [reactions, hgoes, Bool.false_eq_true, if_false, List.getElem?_cons_succ,
            reactionAt_cons_succ]
          exact hrest

/-- What the loop did with an outcome, it did with the count at that place, and nothing before had
ended it. -/
theorem of_getElem?_reactions {n : ℕ} {l : List α} {i : ℕ} {b : β}
    (h : (reactions fails react ends n l)[i]? = some b) :
    reactionAt fails react n l i = some b ∧
      ∀ j < i, ∀ c, reactionAt fails react n l j = some c → ends c = false := by
  induction l generalizing n i with
  | nil => simp [reactions] at h
  | cons a rest ih =>
      by_cases hends : ends (react (counted fails n a) a) = true
      · rw [reactions, if_pos hends] at h
        cases i with
        | zero =>
            refine ⟨?_, fun j hj => absurd hj (Nat.not_lt_zero j)⟩
            rw [reactionAt_cons_zero]
            exact h
        | succ i => simp at h
      · rw [reactions, if_neg hends] at h
        cases i with
        | zero =>
            refine ⟨?_, fun j hj => absurd hj (Nat.not_lt_zero j)⟩
            rw [reactionAt_cons_zero]
            exact h
        | succ i =>
            have hrest := ih h
            refine ⟨by rw [reactionAt_cons_succ]; exact hrest.1, fun j hj c hc => ?_⟩
            cases j with
            | zero =>
                rw [reactionAt_cons_zero] at hc
                cases hc
                exact Bool.not_eq_true _ ▸ hends
            | succ j => exact hrest.2 j (by omega) c (by rwa [reactionAt_cons_succ] at hc)

end
end UcloudSandboxes.Lib
