import Mathlib.Data.List.AList
import Mathlib.Data.List.Perm.Subperm

/-!
# Tables

A table keeps one value for each of its keys, as a mutable mapping does. `Table.update` writes one
entry after the other. The order of insertion is not kept.
-/
namespace UcloudSandboxes.Lib

universe u v

/-- A finite map. -/
abbrev Table (α : Type u) (β : Type v) := AList fun _ : α => β

namespace Table
variable {α : Type u} {β : Type v} [DecidableEq α]

/-- The keys and values. -/
def items (t : Table α β) : List (α × β) := t.entries.map fun e => (e.1, e.2)

/-- Write the entries in order. -/
def update (t : Table α β) (items : List (α × β)) : Table α β :=
  items.foldl (fun t kv => t.insert kv.1 kv.2) t

@[simp] theorem update_nil (t : Table α β) : t.update [] = t := rfl

@[simp] theorem update_cons (t : Table α β) (kv : α × β) (rest : List (α × β)) :
    t.update (kv :: rest) = update (t.insert kv.1 kv.2) rest := rfl

theorem mem_update {t : Table α β} {items : List (α × β)} {a : α} :
    a ∈ t.update items ↔ a ∈ t ∨ ∃ b, (a, b) ∈ items := by
  induction items generalizing t with
  | nil => simp
  | cons kv rest ih =>
      rw [update_cons, ih, AList.mem_insert]
      constructor
      · rintro ((rfl | h) | ⟨b, hb⟩)
        · exact .inr ⟨kv.2, List.mem_cons_self⟩
        · exact .inl h
        · exact .inr ⟨b, List.mem_cons_of_mem _ hb⟩
      · rintro (h | ⟨b, hb⟩)
        · exact .inl (.inr h)
        · rcases List.mem_cons.mp hb with rfl | hb
          · exact .inl (.inl rfl)
          · exact .inr ⟨b, hb⟩

/-- A key that is not written keeps its value. -/
theorem lookup_update_of_not_mem {t : Table α β} {items : List (α × β)} {a : α}
    (h : ∀ b, (a, b) ∉ items) : AList.lookup a (t.update items) = AList.lookup a t := by
  induction items generalizing t with
  | nil => rfl
  | cons kv rest ih =>
      rw [update_cons, ih fun b hb => h b (List.mem_cons_of_mem _ hb)]
      apply AList.lookup_insert_ne
      rintro rfl
      exact h kv.2 List.mem_cons_self

/-- A key that is written with one value has it. -/
theorem lookup_update_of_mem {t : Table α β} {items : List (α × β)} {a : α} {b : β}
    (hmem : (a, b) ∈ items) (hone : ∀ b', (a, b') ∈ items → b' = b) :
    AList.lookup a (t.update items) = some b := by
  induction items generalizing t with
  | nil => cases hmem
  | cons kv rest ih =>
      rw [update_cons]
      by_cases hlater : ∃ b', (a, b') ∈ rest
      · obtain ⟨b', hb'⟩ := hlater
        obtain rfl := hone b' (List.mem_cons_of_mem _ hb')
        exact ih hb' fun b'' hb'' => hone b'' (List.mem_cons_of_mem _ hb'')
      · rw [lookup_update_of_not_mem fun b' hb' => hlater ⟨b', hb'⟩]
        rcases List.mem_cons.mp hmem with rfl | hrest
        · exact AList.lookup_insert t
        · exact absurd ⟨b, hrest⟩ hlater

theorem mem_items {t : Table α β} {a : α} {b : β} :
    (a, b) ∈ t.items ↔ AList.lookup a t = some b := by
  rw [← Option.mem_def, AList.mem_lookup_iff, items, List.mem_map]
  constructor
  · rintro ⟨⟨a', b'⟩, hmem, heq⟩
    cases heq
    exact hmem
  · intro h
    exact ⟨⟨a, b⟩, h, rfl⟩

/-- Writing the entries of a table that pass a test. -/
theorem lookup_update_filter (t u : Table α β) (p : β → Bool) (a : α) :
    AList.lookup a (t.update (u.items.filter fun kv => p kv.2)) =
      ((AList.lookup a u).filter p).or (AList.lookup a t) := by
  cases hu : AList.lookup a u with
  | none =>
      rw [lookup_update_of_not_mem]
      · rfl
      · intro b hb
        have hlookup := mem_items.mp (List.mem_filter.mp hb).1
        rw [hu] at hlookup
        cases hlookup
  | some b =>
      by_cases hp : p b = true
      · rw [Option.filter_some, if_pos hp, Option.some_or]
        apply lookup_update_of_mem
        · exact List.mem_filter.mpr ⟨mem_items.mpr hu, hp⟩
        · intro b' hb'
          have hlookup := mem_items.mp (List.mem_filter.mp hb').1
          rw [hu] at hlookup
          exact (Option.some.inj hlookup).symm
      · rw [Option.filter_some, if_neg hp, Option.none_or, lookup_update_of_not_mem]
        intro b' hb'
        obtain ⟨hmem, hp'⟩ := List.mem_filter.mp hb'
        have hlookup := mem_items.mp hmem
        rw [hu] at hlookup
        cases hlookup
        exact hp hp'

omit [DecidableEq α] in
/-- A table with keys from a list has as many of them as the list exactly if it has all. -/
theorem length_keys_eq_iff {t : Table α β} {names : List α} (hnames : names.Nodup)
    (hsub : ∀ a ∈ t, a ∈ names) : t.keys.length = names.length ↔ ∀ a ∈ names, a ∈ t := by
  have hkeys : t.keys.Subperm names :=
    List.subperm_of_subset t.keys_nodup fun a ha => hsub a (AList.mem_keys.mpr ha)
  constructor
  · intro hlength a ha
    have hperm := hkeys.perm_of_length_le (by omega)
    exact AList.mem_keys.mpr (hperm.mem_iff.mpr ha)
  · intro hall
    have hnames' : names.Subperm t.keys :=
      List.subperm_of_subset hnames fun a ha => AList.mem_keys.mp (hall a ha)
    exact Nat.le_antisymm hkeys.length_le hnames'.length_le

/-- With a key from elsewhere it has as many only if it lacks one of them. -/
theorem exists_not_mem_of_length_keys {t : Table α β} {names : List α} {x : α}
    (hnames : names.Nodup) (hx : x ∈ t) (hxn : x ∉ names)
    (hlength : t.keys.length = names.length) : ∃ a ∈ names, a ∉ t := by
  by_contra hall
  have hall' : ∀ a ∈ names, a ∈ t := by
    intro a ha
    by_contra hat
    exact hall ⟨a, ha, hat⟩
  have hsub : (x :: names).Subperm t.keys := by
    refine List.subperm_of_subset (List.nodup_cons.mpr ⟨hxn, hnames⟩) fun a ha => ?_
    rcases List.mem_cons.mp ha with rfl | ha
    · exact AList.mem_keys.mp hx
    · exact AList.mem_keys.mp (hall' a ha)
  have hle := hsub.length_le
  rw [List.length_cons] at hle
  omega

end Table
end UcloudSandboxes.Lib
