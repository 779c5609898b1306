import Mathlib.Data.Set.Function

/-!
# Encodings that delimit themselves

A stream of records can be read back if no record can be mistaken for the beginning of another
followed by something else. `DelimitsOn S enc` says so of the encodings of the values in `S`.

* `delimits_terminated`, `delimits_fields`: fields that end with a symbol they do not contain.
* `DelimitsOn.flatMap_injOn`: a stream of records determines them.
-/
namespace UcloudSandboxes.Lib

universe u v
variable {α : Type u} {β : Type v}

/-- What follows the encoding of a value in `S` is no part of it. -/
def DelimitsOn (S : Set α) (enc : α → List β) : Prop :=
  ∀ a ∈ S, ∀ b ∈ S, ∀ x y, enc a ++ x = enc b ++ y → a = b ∧ x = y

theorem delimits_terminated (t : β) : DelimitsOn {field | t ∉ field} fun field => field ++ [t] := by
  intro a ha
  induction a with
  | nil =>
      intro b hb x y h
      cases b with
      | nil => exact ⟨rfl, by simpa using h⟩
      | cons c b =>
          have hc : t = c := by simpa using congrArg List.head? h
          exact absurd (hc ▸ List.mem_cons_self) hb
  | cons c a ih =>
      intro b hb x y h
      cases b with
      | nil =>
          have hc : c = t := by simpa using congrArg List.head? h
          exact absurd (hc ▸ List.mem_cons_self) ha
      | cons d b =>
          simp only [List.cons_append, List.cons.injEq] at h
          obtain ⟨rfl, h⟩ := h
          have htail := ih (fun hmem => ha (List.mem_cons_of_mem _ hmem)) b
            (fun hmem => hb (List.mem_cons_of_mem _ hmem)) x y h
          exact ⟨by rw [htail.1], htail.2⟩

/-- A known number of such fields. -/
theorem delimits_fields (t : β) (n : ℕ) :
    DelimitsOn {fields : List (List β) | fields.length = n ∧ ∀ field ∈ fields, t ∉ field}
      (List.flatMap fun field => field ++ [t]) := by
  induction n with
  | zero =>
      intro a ha b hb x y h
      rw [List.eq_nil_of_length_eq_zero ha.1, List.eq_nil_of_length_eq_zero hb.1] at h ⊢
      exact ⟨rfl, h⟩
  | succ n ih =>
      intro a ha b hb x y h
      obtain ⟨field, a, rfl⟩ := List.exists_cons_of_length_eq_add_one ha.1
      obtain ⟨other, b, rfl⟩ := List.exists_cons_of_length_eq_add_one hb.1
      rw [List.flatMap_cons, List.flatMap_cons, List.append_assoc (field ++ [t]),
        List.append_assoc (other ++ [t])] at h
      have hhead := delimits_terminated t field (ha.2 _ List.mem_cons_self) other
        (hb.2 _ List.mem_cons_self) _ _ h
      have htail := ih a ⟨by simpa using ha.1, fun f hf => ha.2 f (List.mem_cons_of_mem _ hf)⟩
        b ⟨by simpa using hb.1, fun f hf => hb.2 f (List.mem_cons_of_mem _ hf)⟩ x y hhead.2
      exact ⟨by rw [hhead.1, htail.1], htail.2⟩

/-- A stream of records determines them. -/
theorem DelimitsOn.flatMap_injOn {S : Set α} {enc : α → List β} (h : DelimitsOn S enc)
    (hne : ∀ a ∈ S, enc a ≠ []) : Set.InjOn (List.flatMap enc) {l | ∀ a ∈ l, a ∈ S} := by
  intro l hl
  induction l with
  | nil =>
      intro r hr heq
      cases r with
      | nil => rfl
      | cons b r =>
          have hempty : enc b = [] := (List.append_eq_nil_iff.mp heq.symm).1
          exact absurd hempty (hne b (hr b List.mem_cons_self))
  | cons a l ih =>
      intro r hr heq
      have ha := hl a List.mem_cons_self
      cases r with
      | nil => exact absurd (List.append_eq_nil_iff.mp heq).1 (hne a ha)
      | cons b r =>
          have hhead := h a ha b (hr b List.mem_cons_self) _ _ heq
          have htail := ih (fun c hc => hl c (List.mem_cons_of_mem _ hc))
            (fun c hc => hr c (List.mem_cons_of_mem _ hc)) hhead.2
          rw [hhead.1, htail]

end UcloudSandboxes.Lib
