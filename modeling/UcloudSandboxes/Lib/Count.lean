import Mathlib.Data.List.Basic

/-!
# Counting the marked entries of a table

A table is a list whose entries are overwritten in place. These lemmas say what one overwrite,
or one pass over the whole table, does to the number of entries that carry a mark.
-/
namespace UcloudSandboxes.Lib

universe u
variable {α : Type u}

/-- One when `b` holds and zero otherwise. -/
def tally (b : Bool) : ℕ := if b then 1 else 0

@[simp] theorem tally_true : tally true = 1 := rfl
@[simp] theorem tally_false : tally false = 0 := rfl

/-- Overwriting an entry exchanges its own mark for the new entry's. -/
theorem countP_set_add (p : α → Bool) {l : List α} {i : ℕ} {a : α} (h : l[i]? = some a) (b : α) :
    (l.set i b).countP p + tally (p a) = l.countP p + tally (p b) := by
  induction l generalizing i with
  | nil => simp at h
  | cons x xs ih =>
      cases i with
      | zero =>
          simp only [List.getElem?_cons_zero, Option.some.injEq] at h
          subst h
          simp only [List.set_cons_zero, List.countP_cons, tally]
          omega
      | succ i =>
          have := ih (by simpa using h)
          simp only [List.set_cons_succ, List.countP_cons]
          omega

/-- Rewriting an entry exchanges its own mark for the new entry's. -/
theorem countP_modify_add (p : α → Bool) {l : List α} {i : ℕ} {a : α} (h : l[i]? = some a)
    (f : α → α) : (l.modify i f).countP p + tally (p a) = l.countP p + tally (p (f a)) := by
  have hset : l.modify i f = l.set i (f a) := by
    refine List.ext_getElem? fun j => ?_
    grind
  rw [hset]
  exact countP_set_add p h _

@[simp] theorem countP_snoc (p : α → Bool) (l : List α) (a : α) :
    (l ++ [a]).countP p = l.countP p + tally (p a) := by
  simp [List.countP_append, List.countP_cons, tally]

/-- An entry that carries the mark is counted. -/
theorem tally_le_countP (p : α → Bool) {l : List α} {i : ℕ} {a : α} (h : l[i]? = some a) :
    tally (p a) ≤ l.countP p := by
  cases hp : p a
  · simp
  · have hmem : a ∈ l := List.mem_of_getElem? h
    have : 0 < l.countP p := List.countP_pos_iff.mpr ⟨a, hmem, hp⟩
    simpa using this

/-- A pass over the table that leaves every mark alone does not change the count. -/
theorem countP_mapIdx_eq (p : α → Bool) (f : ℕ → α → α) (l : List α)
    (h : ∀ i a, l[i]? = some a → p (f i a) = p a) :
    (l.mapIdx f).countP p = l.countP p := by
  induction l generalizing f with
  | nil => simp
  | cons x xs ih =>
      have htail := ih (fun i => f (i + 1)) fun i a hi => h (i + 1) a (by simpa using hi)
      simp only [List.mapIdx_cons, List.countP_cons, h 0 x (by simp), htail]

/-- A fact about every entry survives an overwrite that establishes it for the new entry. -/
theorem forall_set {P : ℕ → α → Prop} {l : List α} {i : ℕ} {b : α}
    (h : ∀ j a, j ≠ i → l[j]? = some a → P j a) (hb : P i b) (j : ℕ) (a : α)
    (hj : (l.set i b)[j]? = some a) : P j a := by
  by_cases hij : j = i
  · subst hij
    rw [List.getElem?_set_self'] at hj
    obtain ⟨_, _, rfl⟩ := Option.map_eq_some_iff.mp hj
    exact hb
  · rw [List.getElem?_set_ne (Ne.symm hij)] at hj
    exact h j a hij hj

/-- A fact about every entry survives a new entry that has it. -/
theorem forall_snoc {P : ℕ → α → Prop} {l : List α} {b : α}
    (h : ∀ j a, l[j]? = some a → P j a) (hb : P l.length b) (j : ℕ) (a : α)
    (hj : (l ++ [b])[j]? = some a) : P j a := by
  rcases Nat.lt_trichotomy j l.length with hlt | rfl | hgt
  · exact h j a (by rwa [List.getElem?_append_left hlt] at hj)
  · obtain rfl : b = a := by simpa using hj
    exact hb
  · have hnone : (l ++ [b])[j]? = none := List.getElem?_eq_none (by simp; omega)
    rw [hnone] at hj
    cases hj

end UcloudSandboxes.Lib
