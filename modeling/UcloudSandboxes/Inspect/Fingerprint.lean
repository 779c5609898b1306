import UcloudSandboxes.Inspect.ContextRecords

/-!
# The fingerprint of a build context

Two trees from which the same is hashed differ at most in what the fingerprint leaves out: their
directories, the permission bits beyond those of a file, and which names are those of one file.

## Main results

* `members_eq`, `sameUnhashed_of_members`: what is left out decides what is archived.
* `sameMembers_iff`: when equal fingerprints mean equal archives.
-/
namespace UcloudSandboxes.Inspect
open Python

/-! ## What the fingerprint leaves out -/

/-- Two names of one file. -/
def Context.Linked (s : Context) (p q : RelPath) : Prop :=
  ∃ e ∈ s.entries, ∃ d ∈ s.entries, e.path = p ∧ d.path = q ∧
    ∃ inode, e.names inode = true ∧ d.names inode = true

/-- A node has these permission bits. -/
def Node.permissions : Node → ℕ
  | .file _ mode _ | .directory mode | .symlink mode _ _ => mode &&& 0o7777

/-- Two trees have the same directories with the same permission bits; their other entries have the
same permission bits where they have the same path; and the same names are those of one file. -/
structure SameUnhashed (s t : Context) : Prop where
  directories : ∀ path bits,
    (∃ e ∈ s.entries, e.path = path ∧ e.node.isDirectory = true ∧ e.node.permissions = bits) ↔
      ∃ e ∈ t.entries, e.path = path ∧ e.node.isDirectory = true ∧ e.node.permissions = bits
  permissions : ∀ e ∈ s.entries, ∀ d ∈ t.entries, e.path = d.path →
    e.node.permissions = d.node.permissions
  links : ∀ p q, s.Linked p q ↔ t.Linked p q

/-- What an entry is, but for the identity of its file. -/
inductive View
  | file (path : RelPath) (bits : ℕ) (content : Bytes)
  | directory (path : RelPath) (bits : ℕ)
  | symlink (path : RelPath) (bits : ℕ) (target : Bytes)

def View.path : View → RelPath
  | .file path _ _ | .directory path _ | .symlink path _ _ => path

def Entry.view (e : Entry) : View :=
  match e.node with
  | .file _ mode content => .file e.path (mode &&& 0o7777) content
  | .directory mode => .directory e.path (mode &&& 0o7777)
  | .symlink mode target _ => .symlink e.path (mode &&& 0o7777) target

@[simp] theorem path_view (e : Entry) : e.view.path = e.path := by
  cases hnode : e.node <;> simp [Entry.view, hnode, View.path]

/-- Equal hashes and equal permission bits leave nothing but the files' identities. -/
theorem view_eq_of_hashed {e d : Entry} (hhashed : e.hashed = d.hashed) (hsome : e.hashed.isSome)
    (hbits : e.node.permissions = d.node.permissions) : e.view = d.view := by
  cases he : e.node with
  | file inode mode content =>
      cases hd : d.node with
      | file inode' mode' content' =>
          simp only [Entry.hashed, he, hd, Option.some.injEq, Hashed.file.injEq] at hhashed
          simp only [he, hd, Node.permissions] at hbits
          simp [Entry.view, he, hd, hhashed.1, hhashed.2.2, hbits]
      | _ => simp [Entry.hashed, he, hd] at hhashed
  | directory mode => simp [Entry.hashed, he] at hsome
  | symlink mode target hnul =>
      cases hd : d.node with
      | symlink mode' target' hnul' =>
          simp only [Entry.hashed, he, hd, Option.some.injEq, Hashed.symlink.injEq] at hhashed
          simp only [he, hd, Node.permissions] at hbits
          simp [Entry.view, he, hd, hhashed.1, hhashed.2, hbits]
      | _ => simp [Entry.hashed, he, hd] at hhashed

theorem view_directory {e : Entry} (h : e.node.isDirectory = true) :
    e.view = .directory e.path e.node.permissions := by
  cases hnode : e.node with
  | directory mode => simp [Entry.view, hnode, Node.permissions]
  | _ => simp [hnode, Node.isDirectory] at h

theorem hashed_isSome_iff (e : Entry) : e.hashed.isSome = !e.node.isDirectory := by
  cases hnode : e.node <;> simp [Entry.hashed, hnode, Node.isDirectory]

theorem path_of_hashed {e d : Entry} (h : e.hashed = d.hashed) (hsome : e.hashed.isSome) :
    e.path = d.path := by
  cases he : e.node <;> cases hd : d.node <;> simp_all [Entry.hashed]

/-- Every entry of the one tree is there in the other, but for the identity of its file. -/
theorem view_mem {s t : Context} (hhashed : s.sorted.filterMap Entry.hashed =
      t.sorted.filterMap Entry.hashed) (hsame : SameUnhashed s t) {e : Entry}
    (he : e ∈ s.entries) : ∃ d ∈ t.entries, d.view = e.view := by
  by_cases hdir : e.node.isDirectory = true
  · obtain ⟨d, hd, hpath, hdir', hbits⟩ :=
      (hsame.directories e.path e.node.permissions).mp ⟨e, he, rfl, hdir, rfl⟩
    refine ⟨d, hd, ?_⟩
    rw [view_directory hdir', view_directory hdir, hpath, hbits]
  · have hsome : e.hashed.isSome = true := by
      rw [hashed_isSome_iff]
      simpa using hdir
    obtain ⟨r, hr⟩ := Option.isSome_iff_exists.mp hsome
    obtain ⟨d, hd, hdr⟩ := mem_hashed.mp (hhashed ▸ mem_hashed.mpr ⟨e, he, hr⟩)
    have heq : e.hashed = d.hashed := hr.trans hdr.symm
    have hpath := path_of_hashed heq hsome
    exact ⟨d, hd, (view_eq_of_hashed heq hsome (hsame.permissions e he d hd hpath)).symm⟩

theorem SameUnhashed.symm {s t : Context} (h : SameUnhashed s t) : SameUnhashed t s where
  directories path bits := (h.directories path bits).symm
  permissions e he d hd hpath := (h.permissions d hd e he hpath.symm).symm
  links p q := (h.links p q).symm

/-- A path has one entry. -/
theorem entry_unique {s : Context} {e d : Entry} (he : e ∈ s.entries) (hd : d ∈ s.entries)
    (h : e.path = d.path) : e = d := List.inj_on_of_nodup_map s.nodup he hd h

theorem mem_sorted {s : Context} {e : Entry} : e ∈ s.sorted ↔ e ∈ s.entries :=
  List.mem_insertionSort _

theorem views_nodup (s : Context) : (s.sorted.map Entry.view).Nodup := by
  refine List.Nodup.of_map View.path ?_
  have hpaths : (s.sorted.map Entry.view).map View.path = s.sorted.map Entry.path := by
    rw [List.map_map]
    exact List.map_congr_left fun e _ => path_view e
  rw [hpaths]
  exact sorted_nodup s

theorem views_sorted (s : Context) :
    (s.sorted.map Entry.view).Pairwise fun a b => asPosix a.path ≤ asPosix b.path := by
  have htotal : Std.Total fun a b : Entry => asPosix a.path ≤ asPosix b.path :=
    ⟨fun a b => le_total _ _⟩
  have htrans : IsTrans Entry fun a b => asPosix a.path ≤ asPosix b.path :=
    ⟨fun a b c => le_trans⟩
  rw [List.pairwise_map]
  simp only [path_view]
  exact List.pairwise_insertionSort _ s.entries

/-- The two walks see the same, but for the identities of the files. -/
theorem views_eq {s t : Context} (hhashed : s.sorted.filterMap Entry.hashed =
      t.sorted.filterMap Entry.hashed) (hsame : SameUnhashed s t) :
    s.sorted.map Entry.view = t.sorted.map Entry.view := by
  refine List.Perm.eq_of_pairwise ?_ (views_sorted s) (views_sorted t) ?_
  · intro a b ha hb hab hba
    obtain ⟨e, he, rfl⟩ := List.mem_map.mp ha
    obtain ⟨d, hd, rfl⟩ := List.mem_map.mp hb
    obtain ⟨d', hd', hview⟩ := view_mem hhashed hsame (mem_sorted.mp he)
    rw [path_view, path_view] at hab hba
    have hpath : e.path = d.path :=
      path_inj e.ne_nil d.ne_nil (congrArg fsencode (le_antisymm hab hba))
    have hpath' : d'.path = e.path := by rw [← path_view, hview, path_view]
    rw [← hview, entry_unique hd' (mem_sorted.mp hd) (hpath'.trans hpath)]
  · refine (List.perm_ext_iff_of_nodup (views_nodup s) (views_nodup t)).mpr fun view => ?_
    constructor
    · intro h
      obtain ⟨e, he, rfl⟩ := List.mem_map.mp h
      obtain ⟨d, hd, hview⟩ := view_mem hhashed hsame (mem_sorted.mp he)
      exact List.mem_map.mpr ⟨d, mem_sorted.mpr hd, hview⟩
    · intro h
      obtain ⟨e, he, rfl⟩ := List.mem_map.mp h
      obtain ⟨d, hd, hview⟩ := view_mem hhashed.symm hsame.symm (mem_sorted.mp he)
      exact List.mem_map.mpr ⟨d, mem_sorted.mpr hd, hview⟩

/-- Two lists that look the same give the same where what looks the same does. -/
theorem map_eq_of_map_eq {α β γ : Type} {v : α → β} {f g : α → γ} {l m : List α}
    (h : l.map v = m.map v) (hfg : ∀ a ∈ l, ∀ b ∈ m, v a = v b → f a = g b) :
    l.map f = m.map g := by
  induction l generalizing m with
  | nil =>
      have hnil : m = [] := by simpa using h.symm
      rw [hnil]
      rfl
  | cons a l ih =>
      obtain ⟨b, m, rfl⟩ := List.exists_cons_of_ne_nil (l := m) (by rintro rfl; simp at h)
      simp only [List.map_cons, List.cons.injEq] at h ⊢
      refine ⟨hfg a List.mem_cons_self b List.mem_cons_self h.1, ih h.2 fun a' ha' b' hb' => ?_⟩
      exact hfg a' (List.mem_cons_of_mem _ ha') b' (List.mem_cons_of_mem _ hb')

theorem find?_eq_of_map_eq {α β : Type} {v : α → β} {p q : α → Bool} {l m : List α}
    (h : l.map v = m.map v) (hpq : ∀ a ∈ l, ∀ b ∈ m, v a = v b → p a = q b) :
    (l.find? p).map v = (m.find? q).map v := by
  induction l generalizing m with
  | nil =>
      have hnil : m = [] := by simpa using h.symm
      rw [hnil]
      rfl
  | cons a l ih =>
      obtain ⟨b, m, rfl⟩ := List.exists_cons_of_ne_nil (l := m) (by rintro rfl; simp at h)
      simp only [List.map_cons, List.cons.injEq] at h
      have hab := hpq a List.mem_cons_self b List.mem_cons_self h.1
      have htail := ih h.2 fun a' ha' b' hb' =>
        hpq a' (List.mem_cons_of_mem _ ha') b' (List.mem_cons_of_mem _ hb')
      rw [List.find?_cons, List.find?_cons, ← hab]
      cases p a
      · exact htail
      · simp [h.1]

theorem names_unique {e : Entry} {i j : ℕ} (hi : e.names i = true) (hj : e.names j = true) :
    i = j := by
  cases hnode : e.node with
  | file inode mode content =>
      simp only [Entry.names, hnode, beq_iff_eq] at hi hj
      exact hi.symm.trans hj
  | _ => simp [Entry.names, hnode] at hi

/-- The names of a file are those that are linked to one of them. -/
theorem names_iff_linked {s : Context} {e a : Entry} (he : e ∈ s.entries) (ha : a ∈ s.entries)
    {inode : ℕ} (h : e.names inode = true) :
    a.names inode = true ↔ s.Linked a.path e.path := by
  constructor
  · intro hnames
    exact ⟨a, ha, e, he, rfl, rfl, inode, hnames, h⟩
  · intro hlinked
    obtain ⟨a', ha', e', he', hpath, hpath', i, hi, hi'⟩ := hlinked
    rw [entry_unique ha' ha hpath] at hi
    rw [entry_unique he' he hpath'] at hi'
    exact names_unique hi' h ▸ hi

/-- Linked the same way, the names of a file have the same first one. -/
theorem firstName_eq {s t : Context} (hpaths : s.sorted.map Entry.path = t.sorted.map Entry.path)
    (hlinks : ∀ p q, s.Linked p q ↔ t.Linked p q) {e d : Entry} (he : e ∈ s.entries)
    (hd : d ∈ t.entries) (hpath : e.path = d.path) {i j : ℕ} (hi : e.names i = true)
    (hj : d.names j = true) : firstName s.sorted i = firstName t.sorted j := by
  have hfind : (s.sorted.find? (Entry.names i)).map Entry.path =
      (t.sorted.find? (Entry.names j)).map Entry.path := by
    refine find?_eq_of_map_eq hpaths fun a ha b hb hab => ?_
    rw [Bool.eq_iff_iff, names_iff_linked he (mem_sorted.mp ha) hi,
      names_iff_linked hd (mem_sorted.mp hb) hj, hlinks, hab, hpath]
  have hmap := congrArg (Option.map asPosix) hfind
  simpa [firstName, Option.map_map, Function.comp_def] using hmap

theorem members_eq {s t : Context} (hviews : s.sorted.map Entry.view = t.sorted.map Entry.view)
    (hlinks : ∀ p q, s.Linked p q ↔ t.Linked p q) : tarGzDirectory s = tarGzDirectory t := by
  have hpaths : s.sorted.map Entry.path = t.sorted.map Entry.path := by
    refine map_eq_of_map_eq hviews fun e _ d _ hview => ?_
    rw [← path_view e, hview, path_view]
  rw [tarMembers_eq_map, tarMembers_eq_map]
  refine map_eq_of_map_eq hviews fun e he d hd hview => ?_
  have hpath : e.path = d.path := by rw [← path_view e, hview, path_view]
  cases hnode : e.node with
  | file i mode content =>
      cases hnode' : d.node with
      | file j mode' content' =>
          have hfirst := firstName_eq hpaths hlinks (mem_sorted.mp he) (mem_sorted.mp hd) hpath
            (show e.names i = true by simp [Entry.names, hnode])
            (show d.names j = true by simp [Entry.names, hnode'])
          simp only [Entry.view, hnode, hnode', View.file.injEq] at hview
          simp only [memberOf, hnode, hnode', hfirst, hpath, hview.2.1, hview.2.2]
      | _ => simp [Entry.view, hnode, hnode'] at hview
  | directory mode =>
      cases hnode' : d.node with
      | directory mode' =>
          simp only [Entry.view, hnode, hnode', View.directory.injEq] at hview
          simp only [memberOf, hnode, hnode', hpath, hview.2]
      | _ => simp [Entry.view, hnode, hnode'] at hview
  | symlink mode target hnul =>
      cases hnode' : d.node with
      | symlink mode' target' hnul' =>
          simp only [Entry.view, hnode, hnode', View.symlink.injEq] at hview
          simp only [memberOf, hnode, hnode', hpath, hview.2.1, hview.2.2]
      | _ => simp [Entry.view, hnode, hnode'] at hview

/-! ## What the archive tells -/

section Member
variable (entries : List Entry) (e : Entry)

@[simp] theorem path_memberOf : (memberOf entries e).path = asPosix e.path := by
  simp only [memberOf]
  split
  · split <;> rfl
  · rfl
  · rfl

@[simp] theorem mode_memberOf : (memberOf entries e).mode = e.node.permissions := by
  cases hnode : e.node with
  | file inode mode content =>
      simp only [memberOf, hnode, Node.permissions]
      split <;> rfl
  | _ => simp [memberOf, hnode, Node.permissions]

theorem type_memberOf_directory :
    (memberOf entries e).type = .directory ↔ e.node.isDirectory = true := by
  cases hnode : e.node with
  | file inode mode content =>
      simp only [memberOf, hnode, Node.isDirectory]
      split <;> simp
  | _ => simp [memberOf, hnode, Node.isDirectory]

end Member

/-- The first name of the file of a member, if it is one. -/
def Member.firstName (m : Member) : Option CodePoints :=
  match m.type with
  | .regular => some m.path
  | .hardlink => some m.linkname
  | _ => none

/-- A member tells the first name of its file. -/
theorem firstName_memberOf {entries : List Entry} {e : Entry} (he : e ∈ entries) :
    (memberOf entries e).firstName =
      match e.node with
      | .file inode _ _ => firstName entries inode
      | _ => none := by
  cases hnode : e.node with
  | file inode mode content =>
      have hsome : (firstName entries inode).isSome = true := by
        simp only [firstName, Option.isSome_map, List.find?_isSome]
        exact ⟨e, he, by simp [Entry.names, hnode]⟩
      obtain ⟨name, hname⟩ := Option.isSome_iff_exists.mp hsome
      by_cases hfirst : name = asPosix e.path
      · simp [memberOf, hnode, hname, hfirst, Member.firstName]
      · simp [memberOf, hnode, hname, hfirst, Member.firstName]
  | _ => simp [memberOf, hnode, Member.firstName]

/-- Two files do not have the same first name. -/
theorem firstName_inj {s : Context} {i j : ℕ} {name : CodePoints}
    (hi : firstName s.sorted i = some name) (hj : firstName s.sorted j = some name) : i = j := by
  obtain ⟨e, he, rfl⟩ := Option.map_eq_some_iff.mp hi
  obtain ⟨d, hd, hname⟩ := Option.map_eq_some_iff.mp hj
  have hpath : d.path = e.path := path_inj d.ne_nil e.ne_nil (congrArg fsencode hname)
  have heq := entry_unique (mem_sorted.mp (List.mem_of_find?_eq_some hd))
    (mem_sorted.mp (List.mem_of_find?_eq_some he)) hpath
  have hnames := List.find?_some hd
  rw [heq] at hnames
  exact names_unique (List.find?_some he) hnames

/-- The member of a name of a file tells its first name, and only such a member does. -/
theorem firstName_of_names {s : Context} {e : Entry} (he : e ∈ s.entries) {name : CodePoints} :
    (memberOf s.sorted e).firstName = some name ↔
      ∃ i, e.names i = true ∧ firstName s.sorted i = some name := by
  rw [firstName_memberOf (mem_sorted.mpr he)]
  cases hnode : e.node with
  | file inode mode content => simp [Entry.names, hnode]
  | _ => simp [Entry.names, hnode]

section Tell
variable {s t : Context} (h : tarGzDirectory s = tarGzDirectory t)
include h

/-- Equal archives have a member of every entry. -/
theorem exists_member {e : Entry} (he : e ∈ s.entries) :
    ∃ d ∈ t.entries, d.path = e.path ∧ memberOf t.sorted d = memberOf s.sorted e := by
  rw [tarMembers_eq_map, tarMembers_eq_map] at h
  have hmem : memberOf s.sorted e ∈ t.sorted.map (memberOf t.sorted) :=
    h ▸ List.mem_map_of_mem (mem_sorted.mpr he)
  obtain ⟨d, hd, hmember⟩ := List.mem_map.mp hmem
  have hpath := congrArg Member.path hmember
  rw [path_memberOf, path_memberOf] at hpath
  exact ⟨d, mem_sorted.mp hd, path_inj d.ne_nil e.ne_nil (congrArg fsencode hpath), hmember⟩

theorem directory_of_members {path : RelPath} {bits : ℕ}
    (hdir : ∃ e ∈ s.entries, e.path = path ∧ e.node.isDirectory = true ∧
      e.node.permissions = bits) :
    ∃ e ∈ t.entries, e.path = path ∧ e.node.isDirectory = true ∧ e.node.permissions = bits := by
  obtain ⟨e, he, rfl, hdir, rfl⟩ := hdir
  obtain ⟨d, hd, hpath, hmember⟩ := exists_member h he
  refine ⟨d, hd, hpath, ?_, ?_⟩
  · rw [← type_memberOf_directory t.sorted, hmember, type_memberOf_directory]
    exact hdir
  · rw [← mode_memberOf t.sorted, hmember, mode_memberOf]

theorem linked_of_members {p q : RelPath} (hlinked : s.Linked p q) : t.Linked p q := by
  obtain ⟨e, he, e', he', rfl, rfl, i, hi, hi'⟩ := hlinked
  obtain ⟨d, hd, hpath, hmember⟩ := exists_member h he
  obtain ⟨d', hd', hpath', hmember'⟩ := exists_member h he'
  have hsome : (firstName s.sorted i).isSome = true := by
    simp only [firstName, Option.isSome_map, List.find?_isSome]
    exact ⟨e, mem_sorted.mpr he, hi⟩
  obtain ⟨name, hname⟩ := Option.isSome_iff_exists.mp hsome
  have hfirst := (firstName_of_names he).mpr ⟨i, hi, hname⟩
  have hfirst' := (firstName_of_names he').mpr ⟨i, hi', hname⟩
  rw [← hmember] at hfirst
  rw [← hmember'] at hfirst'
  obtain ⟨j, hj, hjname⟩ := (firstName_of_names hd).mp hfirst
  obtain ⟨k, hk, hkname⟩ := (firstName_of_names hd').mp hfirst'
  exact ⟨d, hd, d', hd', hpath, hpath', j, hj, firstName_inj hkname hjname ▸ hk⟩

theorem sameUnhashed_of_members : SameUnhashed s t where
  directories _ _ := ⟨directory_of_members h, directory_of_members h.symm⟩
  permissions e he d hd hpath := by
    obtain ⟨d', hd', hpath', hmember⟩ := exists_member h he
    rw [← mode_memberOf s.sorted, ← hmember, mode_memberOf,
      entry_unique hd' hd (hpath'.trans hpath)]
  links _ _ := ⟨linked_of_members h, linked_of_members h.symm⟩

end Tell

/-- **Equal fingerprints.** Two trees from which the same is hashed are archived to the same members
exactly when they have the same directories with the same permission bits, their entries of the same
path have the same permission bits, and the same names are those of one file. -/
theorem sameMembers_iff {identity : BuildIdentity} {contextPath contextPath' : CodePoints}
    {s t : Context} (h : buildContextFingerprint identity contextPath (some s) =
      buildContextFingerprint identity contextPath' (some t)) :
    tarGzDirectory s = tarGzDirectory t ↔ SameUnhashed s t := by
  constructor
  · exact sameUnhashed_of_members
  · intro hsame
    exact members_eq (views_eq (hashed_eq h) hsame) hsame.links

section Example

theorem fingerprint_eq {s t : Context}
    (h : s.sorted.flatMap hashEntry = t.sorted.flatMap hashEntry) (identity : BuildIdentity)
    (contextPath : CodePoints) : buildContextFingerprint identity contextPath (some s) =
      buildContextFingerprint identity contextPath (some t) := by
  simp only [buildContextFingerprint, h]

/-- The name `Dockerfile`. -/
def dockerfileName : FileName where
  bytes := "Dockerfile".toUTF8.toList
  ne_nil := by decide +kernel
  noSlash := by decide +kernel
  noNul := by decide +kernel

/-- The name `data`. -/
def dataName : FileName where
  bytes := "data".toUTF8.toList
  ne_nil := by decide +kernel
  noSlash := by decide +kernel
  noNul := by decide +kernel

def dockerfileEntry (inode : ℕ) : Entry where
  path := [dockerfileName]
  node := .file inode 0o100644 "FROM scratch".toUTF8.toList
  ne_nil := by simp

/-- A context with its `Dockerfile` only. -/
def plainContext (inode : ℕ) : Context where
  entries := [dockerfileEntry inode]
  nodup := by simp
  parents e he front back hpath hfront hback := by
    have hlength := congrArg List.length hpath
    rw [List.mem_singleton.mp he] at hlength
    have := List.length_pos_iff.mpr hfront
    have := List.length_pos_iff.mpr hback
    simp [dockerfileEntry] at hlength
    omega
  linked e he d hd i m c m' c' hnode hnode' := by
    rw [List.mem_singleton.mp he] at hnode
    rw [List.mem_singleton.mp hd] at hnode'
    cases hnode
    cases hnode'
    exact ⟨rfl, rfl⟩

/-- The same with an empty directory beside it. -/
def dataContext : Context where
  entries := [dockerfileEntry 1, ⟨[dataName], .directory 0o40755, by simp⟩]
  nodup := by
    have hne : dockerfileName ≠ dataName := by
      intro h
      exact absurd (congrArg FileName.bytes h) (by decide +kernel)
    simpa [dockerfileEntry] using hne
  parents e he front back hpath hfront hback := by
    have hlength := congrArg List.length hpath
    have hone : e.path.length = 1 := by
      rcases List.mem_cons.mp he with rfl | he
      · rfl
      · rw [List.mem_singleton.mp he]
        rfl
    have := List.length_pos_iff.mpr hfront
    have := List.length_pos_iff.mpr hback
    simp only [hone, List.length_append] at hlength
    omega
  linked e he d hd i m c m' c' hnode hnode' := by
    have hfile : ∀ e ∈ [dockerfileEntry 1, ⟨[dataName], .directory 0o40755, by simp⟩], ∀ i m c,
        e.node = .file i m c → e = dockerfileEntry 1 := by
      intro e he i m c hnode
      rcases List.mem_cons.mp he with rfl | he
      · rfl
      · rw [List.mem_singleton.mp he] at hnode
        cases hnode
    rw [hfile e he i m c hnode] at hnode
    rw [hfile d hd i m' c' hnode'] at hnode'
    cases hnode
    cases hnode'
    exact ⟨rfl, rfl⟩

/-- The name `tool`. -/
def toolName : FileName where
  bytes := "tool".toUTF8.toList
  ne_nil := by decide +kernel
  noSlash := by decide +kernel
  noNul := by decide +kernel

/-- The name `tool2`. -/
def secondName : FileName where
  bytes := "tool2".toUTF8.toList
  ne_nil := by decide +kernel
  noSlash := by decide +kernel
  noNul := by decide +kernel

/-- The name `latest`. -/
def latestName : FileName where
  bytes := "latest".toUTF8.toList
  ne_nil := by decide +kernel
  noSlash := by decide +kernel
  noNul := by decide +kernel

/-- A `Dockerfile`, a directory with a tool under two names, and a symlink to it. -/
def toolEntries (inode mode : ℕ) : List Entry :=
  [dockerfileEntry inode, ⟨[dataName], .directory 0o40755, by simp⟩,
    ⟨[dataName, toolName], .file (inode + 1) mode "run".toUTF8.toList, by simp⟩,
    ⟨[dataName, secondName], .file (inode + 1) mode "run".toUTF8.toList, by simp⟩,
    ⟨[latestName], .symlink 0o120777 "data/tool".toUTF8.toList (by decide +kernel), by simp⟩]

theorem toolEntries_path {inode mode : ℕ} {e : Entry} (he : e ∈ toolEntries inode mode) :
    e.path.length = 1 ∨ ∃ name, e.path = [dataName, name] := by
  simp only [toolEntries, List.mem_cons, List.not_mem_nil, or_false] at he
  rcases he with rfl | rfl | rfl | rfl | rfl
  · exact .inl rfl
  · exact .inl rfl
  · exact .inr ⟨toolName, rfl⟩
  · exact .inr ⟨secondName, rfl⟩
  · exact .inl rfl

theorem toolEntries_file {inode mode i m : ℕ} {c : Bytes} {e : Entry}
    (he : e ∈ toolEntries inode mode) (hnode : e.node = .file i m c) :
    i = inode ∧ m = 0o100644 ∧ c = "FROM scratch".toUTF8.toList ∨
      i = inode + 1 ∧ m = mode ∧ c = "run".toUTF8.toList := by
  simp only [toolEntries, List.mem_cons, List.not_mem_nil, or_false] at he
  rcases he with rfl | rfl | rfl | rfl | rfl
  · cases hnode
    exact .inl ⟨rfl, rfl, rfl⟩
  · cases hnode
  · cases hnode
    exact .inr ⟨rfl, rfl, rfl⟩
  · cases hnode
    exact .inr ⟨rfl, rfl, rfl⟩
  · cases hnode

theorem toolEntries_nodup (inode mode : ℕ) : ((toolEntries inode mode).map Entry.path).Nodup := by
  have hpaths : (toolEntries inode mode).map Entry.path = (toolEntries 0 0).map Entry.path := rfl
  rw [hpaths]
  have hbytes : ((toolEntries 0 0).map fun e => e.path.map FileName.bytes).Nodup := by
    decide +kernel
  exact List.Nodup.of_map (List.map FileName.bytes) (by simpa [Function.comp_def] using hbytes)

theorem toolEntries_parents {inode mode : ℕ} {e : Entry} (he : e ∈ toolEntries inode mode)
    {front back : RelPath} (hpath : e.path = front ++ back) (hfront : front ≠ [])
    (hback : back ≠ []) :
    ∃ d ∈ toolEntries inode mode, d.path = front ∧ d.node.isDirectory = true := by
  refine ⟨⟨[dataName], .directory 0o40755, by simp⟩, by simp [toolEntries], ?_, rfl⟩
  have hfront' := List.length_pos_iff.mpr hfront
  have hback' := List.length_pos_iff.mpr hback
  have hlength := congrArg List.length hpath
  rw [List.length_append] at hlength
  rcases toolEntries_path he with hone | ⟨name, htwo⟩
  · omega
  · rw [htwo] at hpath hlength
    cases front with
    | nil => exact absurd rfl hfront
    | cons first rest =>
        rw [List.cons_append] at hpath
        obtain ⟨hfirst, -⟩ := List.cons.inj hpath
        have hrest : rest = [] := by
          apply List.eq_nil_of_length_eq_zero
          simp only [List.length_cons, List.length_nil] at hlength
          omega
        rw [hrest, hfirst]

theorem toolEntries_linked {inode mode i m m' : ℕ} {c c' : Bytes} {e d : Entry}
    (he : e ∈ toolEntries inode mode) (hd : d ∈ toolEntries inode mode)
    (hnode : e.node = .file i m c) (hnode' : d.node = .file i m' c') : m = m' ∧ c = c' := by
  rcases toolEntries_file he hnode with ⟨hi, rfl, rfl⟩ | ⟨hi, rfl, rfl⟩ <;>
    rcases toolEntries_file hd hnode' with ⟨hi', rfl, rfl⟩ | ⟨hi', rfl, rfl⟩
  · exact ⟨rfl, rfl⟩
  · omega
  · omega
  · exact ⟨rfl, rfl⟩

def toolContext (inode mode : ℕ) : Context where
  entries := toolEntries inode mode
  nodup := toolEntries_nodup inode mode
  parents _ he _ _ := toolEntries_parents he
  linked _ he _ hd _ _ _ _ _ := toolEntries_linked he hd

/-- A copy of a context differs in nothing that the fingerprint leaves out, and one whose tool has
lost its setuid bit does. -/
theorem sameMembers_tools :
    SameUnhashed (toolContext 1 0o104755) (toolContext 7 0o104755) ∧
      ¬ SameUnhashed (toolContext 1 0o104755) (toolContext 1 0o100755) := by
  have hcopy : (toolContext 1 0o104755).sorted.flatMap hashEntry =
      (toolContext 7 0o104755).sorted.flatMap hashEntry := by decide +kernel
  have hplain : (toolContext 1 0o104755).sorted.flatMap hashEntry =
      (toolContext 1 0o100755).sorted.flatMap hashEntry := by decide +kernel
  constructor
  · apply (sameMembers_iff (fingerprint_eq hcopy ⟨"Dockerfile", "default", [], ""⟩ [])).mp
    decide +kernel
  · intro hsame
    have hmembers :=
      (sameMembers_iff (fingerprint_eq hplain ⟨"Dockerfile", "default", [], ""⟩ [])).mpr hsame
    have hmodes : (tarGzDirectory (toolContext 1 0o104755)).map Member.mode ≠
        (tarGzDirectory (toolContext 1 0o100755)).map Member.mode := by decide +kernel
    exact hmodes (congrArg (List.map Member.mode) hmembers)

/-- An empty directory is archived and not hashed. -/
theorem empty_directory_unhashed : ¬ ∀ (identity : BuildIdentity) (contextPath : CodePoints)
    (s t : Context), buildContextFingerprint identity contextPath (some s) =
      buildContextFingerprint identity contextPath (some t) →
        tarGzDirectory s = tarGzDirectory t := by
  intro h
  have hrecords : (plainContext 1).sorted.flatMap hashEntry =
      dataContext.sorted.flatMap hashEntry := by decide +kernel
  have hmembers := h ⟨"Dockerfile", "default", [], ""⟩ [] (plainContext 1) dataContext
    (fingerprint_eq hrecords _ _)
  have hlength :
      (tarGzDirectory (plainContext 1)).length ≠ (tarGzDirectory dataContext).length := by
    decide +kernel
  exact hlength (congrArg List.length hmembers)

end Example

end UcloudSandboxes.Inspect
