import UcloudSandboxes.Addresses

/-!
# When the segments of a URL stay

Quoting sees to every reserved character. `.` and `..` are quoted as they are, and a normalised path
loses them.

## Main results

* `keeps_of_names`: segments stay where none of them is a dot segment.
* `not_keeps_of_dot`: and they do not where one is.
-/
namespace UcloudSandboxes
open Python Lib Lib.Url

/-- A part whose segment ends neither a segment nor a path. -/
def Part.Plain (part : Part) : Prop := '/' ∉ part.text ∧ '?' ∉ part.text ∧ '#' ∉ part.text

theorem matches_text (part : Part) : part.Matches part.text := by
  cases part with
  | fixed text => rfl
  | id value => exact unquote_quote value

theorem forall₂_matches (template : List Part) :
    List.Forall₂ Part.Matches template (template.map Part.text) := by
  induction template with
  | nil => exact .nil
  | cons part rest ih => exact .cons (matches_text part) ih

theorem plain_id (value : String) : (Part.id value).Plain :=
  ⟨not_mem_quote (.inl rfl), not_mem_quote (.inr (.inl rfl)), not_mem_quote (.inr (.inr rfl))⟩

section Keeping
variable {base : BaseUrl} {template : List Part} {tail : Text} {url : String}

/-- The URL is the base without its last slashes, the segments, and the tail. -/
def Written (base : BaseUrl) (template : List Part) (tail : Text) (url : String) : Prop :=
  url.toList = base.scheme ++ [':', '/', '/'] ++ base.authority ++
    (base.stripped ++ render (template.map Part.text)) ++ tail

theorem not_mem_render {segs : List Text} {c : Char} (hc : c ≠ '/') (h : ∀ s ∈ segs, c ∉ s) :
    c ∉ render segs := by
  intro hmem
  obtain ⟨s, hs, hcs⟩ := List.mem_flatMap.mp hmem
  rcases List.mem_cons.mp hcs with rfl | hcs
  · exact hc rfl
  · exact h s hs hcs

theorem BaseUrl.rooted_stripped (base : BaseUrl) : Rooted base.stripped := by
  have hprefix : base.stripped <+: base.path := by
    have hsuffix := List.dropWhile_suffix (l := base.path.reverse) (· = '/')
    rw [← List.reverse_prefix] at hsuffix
    simpa [BaseUrl.stripped] using hsuffix
  obtain ⟨rest, hrest⟩ := hprefix
  cases hstripped : base.stripped with
  | nil => exact .inl rfl
  | cons c front =>
      right
      rw [hstripped, List.cons_append] at hrest
      rcases base.rooted with hpath | ⟨path, hpath⟩
      · rw [hpath] at hrest
        cases hrest
      · rw [hpath] at hrest
        cases hrest
        exact ⟨front, rfl⟩

theorem BaseUrl.not_mem_stripped (base : BaseUrl) {c : Char} (h : c ∉ base.path) :
    c ∉ base.stripped := by
  intro hc
  refine h ?_
  have hmem := List.mem_reverse.mp hc
  exact List.mem_reverse.mp ((List.dropWhile_suffix _).subset hmem)

/-- **The parts of a URL** whose segments are plain. -/
theorem parse_written (hwritten : Written base template tail url)
    (hplain : ∀ part ∈ template, part.Plain)
    (htail : Rooted (cut '?' (cut '#' tail).1).1) :
    parse url.toList =
      { scheme := base.scheme
        authority := base.authority
        path := base.stripped ++ render (template.map Part.text) ++ (cut '?' (cut '#' tail).1).1
        query := (cut '?' (cut '#' tail).1).2
        fragment := (cut '#' tail).2 } := by
  rw [hwritten]
  refine parse_append base.scheme_ok base.authority_ok ⟨?_, ?_⟩ ?_
  · rw [List.mem_append, not_or]
    refine ⟨base.not_mem_stripped base.path_ok.1, not_mem_render (by decide) ?_⟩
    intro s hs
    obtain ⟨part, hpart, rfl⟩ := List.mem_map.mp hs
    exact (hplain part hpart).2.1
  · rw [List.mem_append, not_or]
    refine ⟨base.not_mem_stripped base.path_ok.2, not_mem_render (by decide) ?_⟩
    intro s hs
    obtain ⟨part, hpart, rfl⟩ := List.mem_map.mp hs
    exact (hplain part hpart).2.2
  · exact (base.rooted_stripped.append (rooted_render _)).append htail

/-- The segments of such a URL. -/
theorem normalPath_written (hwritten : Written base template tail url)
    (hplain : ∀ part ∈ template, part.Plain) (hne : template ≠ [])
    (htail : Rooted (cut '?' (cut '#' tail).1).1) :
    normalPath url = removeDots base.segments
      (template.map Part.text ++ Url.segments (cut '?' (cut '#' tail).1).1) := by
  have hnoslash : ∀ s ∈ template.map Part.text, '/' ∉ s := by
    intro s hs
    obtain ⟨part, hpart, rfl⟩ := List.mem_map.mp hs
    exact (hplain part hpart).1
  have hsegs : template.map Part.text ≠ [] := by simpa using hne
  simp only [normalPath, parse_written hwritten hplain htail]
  rw [segments_append htail, segments_append (rooted_render _), segments_render hnoslash,
    List.append_assoc, removeDots_climb [] (List.append_ne_nil_of_left_ne_nil hsegs _)]
  rfl

/-- **Segments that are no dot segments** are kept. -/
theorem keeps_of_names (hwritten : Written base template tail url)
    (hplain : ∀ part ∈ template, part.Plain) (hne : template ≠ [])
    (htail : Rooted (cut '?' (cut '#' tail).1).1)
    (hnames : ∀ part ∈ template, ¬ IsDot part.text) : Keeps base template tail url := by
  have hparse := parse_written hwritten hplain htail
  refine ⟨by rw [hparse], by rw [hparse], by rw [hparse], by rw [hparse],
    template.map Part.text, forall₂_matches template, ?_⟩
  rw [normalPath_written hwritten hplain hne htail]
  refine removeDots_append _ _ ?_
  intro s hs
  obtain ⟨part, hpart, rfl⟩ := List.mem_map.mp hs
  exact hnames part hpart

/-- What is matched by an empty segment is no dot segment. -/
theorem not_isDot_of_matches_nil {part : Part} (h : part.Matches []) : ¬ IsDot part.text := by
  cases part with
  | fixed text =>
      intro hdot
      simp only [Part.Matches] at h
      rw [Part.text, ← h] at hdot
      revert hdot
      decide
  | id value =>
      have hnil : unquote [] = some "" := by decide +kernel
      simp only [Part.Matches, hnil, Option.some.injEq] at h
      rw [Part.text, isDot_quote, ← h]
      decide

/-- The last parts match the last segments. -/
theorem matches_last {front : List Part} {part : Part} {segs : List Text}
    (h : List.Forall₂ Part.Matches (front ++ [part]) segs) (before : List Text) (last : Text)
    (hsegs : segs = before ++ [last]) : part.Matches last := by
  subst hsegs
  have hlength := h.length_eq
  simp only [List.length_append, List.length_singleton, Nat.add_right_cancel_iff] at hlength
  have hdrop := List.forall₂_drop_append _ _ _ h
  rw [← hlength, List.drop_left] at hdrop
  cases hdrop with
  | cons hmatch _ => exact hmatch

theorem removeDots_names (out : List Text) {segs : List Text} (h : ∀ s ∈ segs, ¬ IsDot s) :
    removeDots out segs = out ++ segs := by
  have hall := removeDots_append out [] h
  rw [List.append_nil] at hall
  rw [hall]
  rfl

/-- **A dot segment** is not kept: the path gets shorter, or its last segment gets empty. -/
theorem not_keeps_of_dot (hwritten : Written base template tail url)
    (hplain : ∀ part ∈ template, part.Plain)
    (htail : Rooted (cut '?' (cut '#' tail).1).1)
    (hnames : ∀ s ∈ Url.segments (cut '?' (cut '#' tail).1).1, ¬ IsDot s)
    {part : Part} (hpart : part ∈ template) (hdot : IsDot part.text) :
    ¬ Keeps base template tail url := by
  intro hkeeps
  obtain ⟨segs, hmatches, hpath⟩ := hkeeps.path
  have hlength := hmatches.length_eq
  rw [normalPath_written hwritten hplain (List.ne_nil_of_mem hpart) htail,
    removeDots_names _ hnames] at hpath
  obtain ⟨front, behind, rfl⟩ := List.append_of_mem hpart
  rw [List.map_append, List.map_cons, List.append_assoc, List.cons_append] at hpath
  by_cases hlast : behind.map Part.text ++ Url.segments (cut '?' (cut '#' tail).1).1 = []
  · rw [hlast] at hpath
    have hempty := getLast?_removeDots base.segments (front.map Part.text) hdot
    obtain ⟨hbehind, hnone⟩ := List.append_eq_nil_iff.mp hlast
    rw [List.map_eq_nil_iff] at hbehind
    subst hbehind
    rw [hpath, hnone, List.append_nil] at hempty
    have hmatch := matches_last hmatches
    rcases List.eq_nil_or_concat segs with rfl | ⟨before, last, rfl⟩
    · simp at hlength
    · rw [List.concat_eq_append, ← List.append_assoc, List.getLast?_concat] at hempty
      rw [List.concat_eq_append] at hmatch
      exact not_isDot_of_matches_nil (Option.some.inj hempty ▸ hmatch before last rfl) hdot
  · have hlt := length_removeDots_lt base.segments (front.map Part.text) hdot hlast
    rw [hpath] at hlt
    simp only [List.length_append, List.length_cons, List.length_map] at hlt hlength
    omega

end Keeping

end UcloudSandboxes
