import Mathlib.Data.List.Infix

/-!
# Reading a list page by page

A reader of a list keeps a cursor, the number of entries it has read. A page is *next* at a cursor
if it holds the entries right behind the cursor, as many as the page is long. Pages that are each
next at the cursor the earlier ones lead to add up to a prefix of the list.
-/
namespace UcloudSandboxes.Lib

universe u
variable {α : Type u}

/-- The page holds the entries of `l` behind the cursor. -/
def NextPage (l : List α) (cursor : ℕ) (page : List α) : Prop := page <+: l.drop cursor

theorem nextPage_nil (l : List α) (cursor : ℕ) : NextPage l cursor [] := List.nil_prefix

/-- A page is next if each of its entries is the entry of the list at that place. -/
theorem nextPage_of_getElem? {l page : List α} {cursor : ℕ}
    (h : ∀ i a, page[i]? = some a → l[cursor + i]? = some a) : NextPage l cursor page := by
  refine List.prefix_iff_getElem?.mpr fun i hi => ?_
  rw [List.getElem?_drop]
  exact h i _ (List.getElem?_eq_getElem hi)

/-- Reading the next page extends what was read. -/
theorem NextPage.take_append {l page : List α} {cursor : ℕ} (h : NextPage l cursor page) :
    l.take cursor ++ page = l.take (cursor + page.length) := by
  obtain ⟨rest, hrest⟩ := h
  rw [List.take_add, ← hrest, List.take_left']
  rfl

/-- A page ends within the list, unless it is empty. -/
theorem NextPage.cursor_le {l page : List α} {cursor : ℕ} (h : NextPage l cursor page)
    (hcursor : cursor ≤ l.length) : cursor + page.length ≤ l.length := by
  have hle := List.IsPrefix.length_le h
  rw [List.length_drop] at hle
  omega

/-- A page of a list is a page of every list that extends it. -/
theorem NextPage.mono {l l' page : List α} {cursor : ℕ} (h : NextPage l cursor page)
    (hl : l <+: l') : NextPage l' cursor page :=
  h.trans (hl.drop cursor)

/-- Two pages in a row are one page, and only pages in a row are. -/
theorem nextPage_append {l page page' : List α} {cursor : ℕ} :
    NextPage l cursor (page ++ page') ↔
      NextPage l cursor page ∧ NextPage l (cursor + page.length) page' := by
  simp only [NextPage]
  constructor
  · rintro ⟨rest, hrest⟩
    rw [← List.drop_drop, ← hrest, List.append_assoc]
    refine ⟨List.prefix_append _ _, ?_⟩
    rw [List.drop_left']
    · exact List.prefix_append _ _
    · rfl
  · rintro ⟨⟨rest, hrest⟩, hpage'⟩
    rw [← List.drop_drop, ← hrest, List.drop_left' rfl] at hpage'
    rw [← hrest]
    exact (List.prefix_append_right_inj _).mpr hpage'

/-- A page that reaches the end of the list is all that is behind the cursor. -/
theorem NextPage.eq_drop {l page : List α} {cursor : ℕ} (h : NextPage l cursor page)
    (hend : l.length ≤ cursor + page.length) : page = l.drop cursor := by
  apply List.IsPrefix.eq_of_length_le h
  rw [List.length_drop]
  omega

end UcloudSandboxes.Lib
