import Mathlib.Data.Nat.Init
import Mathlib.Data.List.Basic

/-!
# Items between separators

A list is written as its items with a separator between them and a closing symbol at the end.
`readItems` reads it back with a reader of one item. The reader of an item stops where the item
ends, so that what it leaves begins with the separator or with the closing symbol.

* `readItems_join`: what is written is read back.
-/
namespace UcloudSandboxes.Lib

universe u
variable {α β ε : Type u}

/-- The items with the separator between them. -/
def joinItems (sep : α) (texts : List (List α)) : List α := [sep].intercalate texts

/-- Read items up to the closing symbol. `skip` drops what may stand between symbols; `n` bounds
the number of items. -/
def readItems [DecidableEq α] (sep close : α) (expected : ε) (skip : List α → List α)
    (item : List α → Except ε (β × List α)) : ℕ → List α → Except ε (List β × List α)
  | 0, _ => .error expected
  | n + 1, text =>
      match item text with
      | .error e => .error e
      | .ok (b, rest) =>
          match skip rest with
          | [] => .error expected
          | c :: rest' =>
              if c = sep then
                match readItems sep close expected skip item n (skip rest') with
                | .error e => .error e
                | .ok (bs, rest'') => .ok (b :: bs, rest'')
              else if c = close then .ok ([b], rest')
              else .error expected

@[simp] theorem joinItems_singleton (sep : α) (text : List α) : joinItems sep [text] = text := by
  simp [joinItems]

theorem joinItems_cons (sep : α) (text : List α) {texts : List (List α)} (h : texts ≠ []) :
    joinItems sep (text :: texts) = text ++ sep :: joinItems sep texts := by
  rw [joinItems, List.intercalate_cons_of_ne_nil h]
  simp [joinItems]

/-- What holds of the separator holds of all symbols if it holds of those of the items. -/
theorem forall_mem_joinItems {p : α → Prop} {sep : α} (hsep : p sep) {texts : List (List α)} :
    (∀ c ∈ joinItems sep texts, p c) ↔ ∀ text ∈ texts, ∀ c ∈ text, p c := by
  induction texts with
  | nil => simp [joinItems]
  | cons text texts ih =>
      by_cases hnil : texts = []
      · subst hnil
        simp
      · rw [joinItems_cons sep text hnil, List.forall_mem_append, List.forall_mem_cons,
          List.forall_mem_cons, ih]
        exact and_congr_right fun _ => and_iff_right hsep

/-- There are no more items than symbols, but for one. -/
theorem length_le_joinItems (sep : α) (texts : List (List α)) :
    texts.length ≤ (joinItems sep texts).length + 1 := by
  induction texts with
  | nil => simp
  | cons text texts ih =>
      by_cases hnil : texts = []
      · subst hnil
        simp
      · rw [joinItems_cons sep text hnil]
        simp only [List.length_cons, List.length_append]
        omega

section
variable {γ : Type u} [DecidableEq α] {sep close : α} {expected : ε} {skip : List α → List α}
  {item : List α → Except ε (β × List α)} {enc : γ → List α}

/-- An item that is read leaves the items behind it. -/
theorem readItems_cons (hclose : close ≠ sep) (hsep : ∀ rest, skip (sep :: rest) = sep :: rest)
    (hend : ∀ rest, skip (close :: rest) = close :: rest) {x : γ} {b : β} {items : List γ}
    (hx : ∀ c rest, c = sep ∨ c = close → item (enc x ++ c :: rest) = .ok (b, c :: rest))
    (hskip : ∀ y ∈ items, ∀ rest, skip (enc y ++ rest) = enc y ++ rest) (rest : List α) (n : ℕ) :
    readItems sep close expected skip item (n + 1)
        (joinItems sep ((x :: items).map enc) ++ close :: rest) =
      if items = [] then .ok ([b], rest)
      else
        (readItems sep close expected skip item n
          (joinItems sep (items.map enc) ++ close :: rest)).map fun r => (b :: r.1, r.2) := by
  by_cases hlast : items = []
  · subst hlast
    simp only [List.map_cons, List.map_nil, joinItems_singleton, readItems,
      hx close rest (.inr rfl), hend, if_neg hclose, if_true]
  · obtain ⟨y, items', rfl⟩ := List.exists_cons_of_ne_nil hlast
    have hnext : ∀ text, skip (joinItems sep ((y :: items').map enc) ++ text) =
        joinItems sep ((y :: items').map enc) ++ text := by
      intro text
      have hy := hskip y List.mem_cons_self
      by_cases hnil : items' = []
      · subst hnil
        simpa using hy text
      · rw [List.map_cons, joinItems_cons _ _ (by simpa using hnil), List.append_assoc]
        exact hy _
    rw [List.map_cons, joinItems_cons _ _ (by simp), List.append_assoc, List.cons_append]
    simp only [readItems, hx sep _ (.inl rfl), hsep, if_true, hnext, if_neg hlast]
    cases readItems sep close expected skip item n
      (joinItems sep ((y :: items').map enc) ++ close :: rest) with
    | error e => rfl
    | ok r => rfl

/-- **Items that are written are read back**, if each is read back in front of a separator and of
the closing symbol. -/
theorem readItems_join {val : γ → β} {items : List γ} (hne : items ≠ [])
    (hclose : close ≠ sep) (hsep : ∀ rest, skip (sep :: rest) = sep :: rest)
    (hend : ∀ rest, skip (close :: rest) = close :: rest)
    (hitem : ∀ x ∈ items, ∀ c rest, c = sep ∨ c = close →
      item (enc x ++ c :: rest) = .ok (val x, c :: rest))
    (hskip : ∀ x ∈ items, ∀ rest, skip (enc x ++ rest) = enc x ++ rest) (rest : List α) {n : ℕ}
    (hn : items.length ≤ n) :
    readItems sep close expected skip item n (joinItems sep (items.map enc) ++ close :: rest) =
      .ok (items.map val, rest) := by
  induction items generalizing n with
  | nil => exact absurd rfl hne
  | cons x items ih =>
      cases n with
      | zero => exact absurd hn (by simp)
      | succ n =>
          have hskip' : ∀ y ∈ items, ∀ rest, skip (enc y ++ rest) = enc y ++ rest :=
            fun y hy => hskip y (List.mem_cons_of_mem _ hy)
          rw [readItems_cons hclose hsep hend (hitem x List.mem_cons_self) hskip']
          by_cases hlast : items = []
          · rw [if_pos hlast, hlast]
            rfl
          · rw [if_neg hlast, ih hlast (fun y hy => hitem y (List.mem_cons_of_mem _ hy)) hskip'
              (by simpa using hn)]
            rfl

/-- **The first item that cannot be read ends the reading.** -/
theorem readItems_join_error {good : γ → Prop} {val : γ → β} {e : ε} {items : List γ}
    (hbad : ∃ x ∈ items, ¬good x)
    (hclose : close ≠ sep) (hsep : ∀ rest, skip (sep :: rest) = sep :: rest)
    (hend : ∀ rest, skip (close :: rest) = close :: rest)
    (hitem : ∀ x ∈ items, good x → ∀ c rest, c = sep ∨ c = close →
      item (enc x ++ c :: rest) = .ok (val x, c :: rest))
    (herror : ∀ x ∈ items, ¬good x → ∀ c rest, c = sep ∨ c = close →
      item (enc x ++ c :: rest) = .error e)
    (hskip : ∀ x ∈ items, ∀ rest, skip (enc x ++ rest) = enc x ++ rest) (rest : List α) {n : ℕ}
    (hn : items.length ≤ n) :
    readItems sep close expected skip item n (joinItems sep (items.map enc) ++ close :: rest) =
      .error e := by
  induction items generalizing n with
  | nil => simp at hbad
  | cons x items ih =>
      cases n with
      | zero => exact absurd hn (by simp)
      | succ n =>
          by_cases hx : good x
          · have hbad' : ∃ y ∈ items, ¬good y := by
              obtain ⟨y, hy, hgood⟩ := hbad
              rcases List.mem_cons.mp hy with rfl | hy
              · exact absurd hx hgood
              · exact ⟨y, hy, hgood⟩
            have hlast : items ≠ [] := by
              obtain ⟨y, hy, -⟩ := hbad'
              exact List.ne_nil_of_mem hy
            have hskip' : ∀ y ∈ items, ∀ rest, skip (enc y ++ rest) = enc y ++ rest :=
              fun y hy => hskip y (List.mem_cons_of_mem _ hy)
            rw [readItems_cons hclose hsep hend (hitem x List.mem_cons_self hx) hskip',
              if_neg hlast, ih hbad' (fun y hy => hitem y (List.mem_cons_of_mem _ hy))
                (fun y hy => herror y (List.mem_cons_of_mem _ hy)) hskip' (by simpa using hn)]
            rfl
          · have hread := herror x List.mem_cons_self hx
            by_cases hlast : items = []
            · subst hlast
              simp only [List.map_cons, List.map_nil, joinItems_singleton, readItems,
                hread close rest (.inr rfl)]
            · rw [List.map_cons, joinItems_cons _ _ (by simpa using hlast), List.append_assoc,
                List.cons_append]
              simp only [readItems, hread sep _ (.inl rfl)]

end
end UcloudSandboxes.Lib
