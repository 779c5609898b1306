import Mathlib.Data.List.Basic
import Mathlib.Data.List.Induction
import Mathlib.Logic.Function.Basic

/-!
# Paths as texts

A path is a text: its components stand between separators, one component stands for the directory
that it is looked up in, and one for the directory above. `PathSyntax` says how these are written.

* `parts_join`: joining names and splitting the text again gives the names.
* `resolve_eq`: a path without a component for the directory above leads into the directory that it
  starts from.
* `written_eq_some_iff`: what is at a place after files were written to different places.
-/
namespace UcloudSandboxes.Lib

universe u v
variable {α : Type u}

/-- How the parts of a path are written. -/
structure PathSyntax (α : Type u) where
  sep : α
  /-- The component for the directory itself. -/
  here : List α
  /-- The component for the directory above. -/
  up : List α

namespace PathSyntax

variable (P : PathSyntax α)

def IsAbsolute (path : List α) : Prop := path.head? = some P.sep

def join (names : List (List α)) : List α := [P.sep].intercalate names

/-- A component that is a name, or the one for the directory above. -/
structure IsName (c : List α) : Prop where
  ne_nil : c ≠ []
  ne_here : c ≠ P.here
  noSep : P.sep ∉ c

/-! ## Joining -/

@[simp] theorem join_nil : P.join [] = [] := rfl

theorem isAbsolute_sep (path : List α) : P.IsAbsolute (P.sep :: path) := rfl

/-- The first name of a joined path is its beginning. -/
theorem join_cons (c : List α) (names : List (List α)) :
    ∃ rest, P.join (c :: names) = c ++ rest := by
  cases names with
  | nil => exact ⟨[], by simp [join]⟩
  | cons d names => exact ⟨_, by rw [join, List.intercalate_cons_cons, List.append_assoc]⟩

theorem join_append {a b : List (List α)} (ha : a ≠ []) (hb : b ≠ []) :
    P.join (a ++ b) = P.join a ++ P.sep :: P.join b := by
  induction a with
  | nil => exact absurd rfl ha
  | cons c a ih =>
      simp only [join] at ih ⊢
      by_cases hnil : a = []
      · rw [hnil, List.singleton_append, List.intercalate_cons_of_ne_nil hb]
        simp
      · have hne : a ++ b ≠ [] := fun h => hnil (List.append_eq_nil_iff.mp h).1
        rw [List.cons_append, List.intercalate_cons_of_ne_nil hne, ih hnil,
          List.intercalate_cons_of_ne_nil hnil]
        simp

theorem not_isAbsolute_join {names : List (List α)} (h : ∀ c ∈ names, P.IsName c) :
    ¬ P.IsAbsolute (P.join names) := by
  cases names with
  | nil => exact fun h => nomatch h
  | cons c names =>
      obtain ⟨rest, hjoin⟩ := P.join_cons c names
      have hc := h c List.mem_cons_self
      intro hhead
      rw [IsAbsolute, hjoin, List.head?_append_of_ne_nil _ hc.ne_nil] at hhead
      exact hc.noSep (List.mem_of_head? hhead)

theorem getLast?_join {names : List (List α)} (h : ∀ c ∈ names, P.IsName c) :
    (P.join names).getLast? ≠ some P.sep := by
  induction names using List.reverseRecOn with
  | nil => exact fun h => nomatch h
  | append_singleton front c _ =>
      have hc := h c (by simp)
      have hend : ∃ rest, P.join (front ++ [c]) = rest ++ c := by
        by_cases hnil : front = []
        · exact ⟨[], by simp [hnil, join]⟩
        · rw [P.join_append hnil (List.cons_ne_nil c [])]
          exact ⟨P.join front ++ [P.sep], by simp [join]⟩
      obtain ⟨rest, hjoin⟩ := hend
      intro hlast
      rw [hjoin, List.getLast?_append_of_ne_nil _ hc.ne_nil] at hlast
      exact hc.noSep (List.mem_of_getLast? hlast)

theorem join_ne_nil {names : List (List α)} (h : ∀ c ∈ names, P.IsName c) (hne : names ≠ []) :
    P.join names ≠ [] := by
  cases names with
  | nil => exact absurd rfl hne
  | cons c names =>
      obtain ⟨rest, hjoin⟩ := P.join_cons c names
      rw [hjoin]
      exact List.append_ne_nil_of_left_ne_nil (h c List.mem_cons_self).ne_nil _

theorem mem_of_mem_join {names : List (List α)} {x : α} (h : x ∈ P.join names) :
    x = P.sep ∨ ∃ c ∈ names, x ∈ c := by
  induction names with
  | nil => simp at h
  | cons c names ih =>
      by_cases hnil : names = []
      · refine .inr ⟨c, List.mem_cons_self, ?_⟩
        simpa [join, hnil] using h
      · rw [join, List.intercalate_cons_of_ne_nil hnil] at h
        simp only [List.mem_append, List.mem_singleton] at h
        rcases h with (h | h) | h
        · exact .inr ⟨c, List.mem_cons_self, h⟩
        · exact .inl h
        · exact (ih h).imp id fun ⟨d, hd, hx⟩ => ⟨d, List.mem_cons_of_mem _ hd, hx⟩

/-! ## Splitting -/

variable [DecidableEq α]

/-- The components of a path that lead anywhere. -/
def parts (path : List α) : List (List α) :=
  (path.splitOn P.sep).filter fun c => c ≠ [] ∧ c ≠ P.here

instance (path : List α) : Decidable (P.IsAbsolute path) :=
  inferInstanceAs (Decidable (path.head? = some P.sep))

/-- Where a component leads from a directory. -/
def enter (dir : List (List α)) (c : List α) : List (List α) :=
  if c = [] ∨ c = P.here then dir else if c = P.up then dir.dropLast else dir ++ [c]

/-- Where a path leads from a directory. -/
def resolve (dir : List (List α)) (path : List α) : List (List α) :=
  (path.splitOn P.sep).foldl P.enter (if P.IsAbsolute path then [] else dir)

/-- Nothing is added by splitting, and no separator is left. -/
theorem mem_of_mem_splitOn (sep : α) {path c : List α} (h : c ∈ path.splitOn sep) {x : α}
    (hx : x ∈ c) : x ∈ path ∧ x ≠ sep := by
  induction path generalizing c with
  | nil =>
      rw [List.splitOn_nil, List.mem_singleton] at h
      rw [h] at hx
      cases hx
  | cons y path ih =>
      rw [List.splitOn_cons_eq_if_modifyHead] at h
      by_cases hy : (y == sep) = true
      · rw [if_pos hy, List.mem_cons] at h
        rcases h with rfl | h
        · cases hx
        · exact ⟨List.mem_cons_of_mem _ (ih h hx).1, (ih h hx).2⟩
      · rw [if_neg hy] at h
        cases hsplit : path.splitOn sep with
        | nil => exact absurd hsplit (List.splitOn_ne_nil _ _)
        | cons first rest =>
            rw [hsplit] at h ih
            rw [List.modifyHead_cons, List.mem_cons] at h
            rcases h with rfl | h
            · rcases List.mem_cons.mp hx with rfl | hx
              · exact ⟨List.mem_cons_self, by simpa using hy⟩
              · have := ih List.mem_cons_self hx
                exact ⟨List.mem_cons_of_mem _ this.1, this.2⟩
            · have := ih (List.mem_cons_of_mem _ h) hx
              exact ⟨List.mem_cons_of_mem _ this.1, this.2⟩

theorem mem_parts {path c : List α} :
    c ∈ P.parts path ↔ c ∈ path.splitOn P.sep ∧ c ≠ [] ∧ c ≠ P.here := by
  simp [parts]

theorem isName_of_mem_parts {path c : List α} (h : c ∈ P.parts path) : P.IsName c := by
  rw [mem_parts] at h
  exact ⟨h.2.1, h.2.2, fun hsep => (mem_of_mem_splitOn P.sep h.1 hsep).2 rfl⟩

theorem mem_of_mem_parts {path c : List α} (h : c ∈ P.parts path) {x : α} (hx : x ∈ c) :
    x ∈ path :=
  (mem_of_mem_splitOn P.sep (P.mem_parts.mp h).1 hx).1

@[simp] theorem parts_nil : P.parts [] = [] := by simp [parts]

theorem parts_append (a b : List α) : P.parts (a ++ P.sep :: b) = P.parts a ++ P.parts b := by
  simp only [parts, List.splitOn_append_cons_self, List.filter_append]

@[simp] theorem parts_sep (path : List α) : P.parts (P.sep :: path) = P.parts path := by
  simpa using P.parts_append [] path

theorem splitOn_join {names : List (List α)} (h : ∀ c ∈ names, P.IsName c) (hnil : names ≠ []) :
    (P.join names).splitOn P.sep = names :=
  List.splitOn_intercalate P.sep (fun c hc => (h c hc).noSep) hnil

/-- Joining names and splitting gives the names. -/
theorem parts_join {names : List (List α)} (h : ∀ c ∈ names, P.IsName c) :
    P.parts (P.join names) = names := by
  by_cases hnil : names = []
  · simp [hnil]
  · rw [parts, P.splitOn_join h hnil, List.filter_eq_self]
    intro c hc
    simp [(h c hc).ne_nil, (h c hc).ne_here]

theorem join_injOn {a b : List (List α)} (ha : ∀ c ∈ a, P.IsName c) (hb : ∀ c ∈ b, P.IsName c)
    (h : P.join a = P.join b) : a = b := by
  rw [← P.parts_join ha, ← P.parts_join hb, h]

/-! ## Where a path leads -/

/-- A path without a component for the directory above leads downwards. -/
theorem resolve_eq {path : List α} (h : P.up ∉ P.parts path) (dir : List (List α)) :
    P.resolve dir path = (if P.IsAbsolute path then [] else dir) ++ P.parts path := by
  simp only [resolve, parts] at h ⊢
  generalize (if P.IsAbsolute path then [] else dir) = start
  generalize path.splitOn P.sep = components at h ⊢
  induction components generalizing start with
  | nil => simp
  | cons c components ih =>
      by_cases hc : c = [] ∨ c = P.here
      · have hskip : ¬ (c ≠ [] ∧ c ≠ P.here) := by rw [← not_or]; exact not_not_intro hc
        rw [List.filter_cons_of_neg (by simpa using hskip)] at h ⊢
        rw [List.foldl_cons, enter, if_pos hc]
        exact ih start h
      · have hkeep : c ≠ [] ∧ c ≠ P.here := not_or.mp hc
        rw [List.filter_cons_of_pos (by simpa using hkeep)] at h ⊢
        rw [List.mem_cons, not_or] at h
        rw [List.foldl_cons, enter, if_neg hc, if_neg (Ne.symm h.1), ih _ h.2]
        simp

/-- Joined names lead where they name. -/
theorem resolve_join {names : List (List α)} (h : ∀ c ∈ names, P.IsName c) (hup : P.up ∉ names)
    (dir : List (List α)) : P.resolve dir (P.join names) = dir ++ names := by
  rw [P.resolve_eq (by rwa [P.parts_join h]), P.parts_join h, if_neg (P.not_isAbsolute_join h)]

theorem resolve_sep_join {names : List (List α)} (h : ∀ c ∈ names, P.IsName c)
    (hup : P.up ∉ names) (dir : List (List α)) :
    P.resolve dir (P.sep :: P.join names) = names := by
  rw [P.resolve_eq (by rwa [P.parts_sep, P.parts_join h]), P.parts_sep, P.parts_join h,
    if_pos (P.isAbsolute_sep _), List.nil_append]

end PathSyntax

/-! ## Writing at places -/

section Written

variable {κ : Type u} {β : Type v} [DecidableEq κ]

/-- What is where after a series of writes, each of which replaces what was there. -/
def written (files : List (κ × β)) : κ → Option β :=
  files.foldl (fun at_ file => Function.update at_ file.1 (some file.2)) fun _ => none

theorem written_concat (files : List (κ × β)) (file : κ × β) :
    written (files ++ [file]) = Function.update (written files) file.1 (some file.2) := by
  simp [written]

/-- After writes to different places, a place has what was written to it. -/
theorem written_eq_some_iff {files : List (κ × β)} (h : (files.map Prod.fst).Nodup) {k : κ}
    {b : β} : written files k = some b ↔ (k, b) ∈ files := by
  induction files using List.reverseRecOn with
  | nil => simp [written]
  | append_singleton files file ih =>
      rw [List.map_append, List.nodup_append] at h
      rw [written_concat, List.mem_append, List.mem_singleton]
      by_cases hk : k = file.1
      · subst hk
        rw [Function.update_self, Option.some_inj]
        constructor
        · intro hb
          exact .inr (by rw [← hb])
        · rintro (hmem | heq)
          · refine absurd rfl (h.2.2 _ (List.mem_map_of_mem hmem) file.1 ?_)
            simp
          · rw [← heq]
      · rw [Function.update_of_ne hk, ih h.1]
        constructor
        · exact .inl
        · rintro (hmem | heq)
          · exact hmem
          · exact absurd (congrArg Prod.fst heq) hk

end Written

end UcloudSandboxes.Lib
