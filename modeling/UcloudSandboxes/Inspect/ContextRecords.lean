import UcloudSandboxes.Inspect.BuildContext
import UcloudSandboxes.Lib.Framing

/-!
# What is hashed and what is archived of a build context

The digest gets a record of every entry that is no directory, and the archive a member of every
entry. A member depends on the first name of its file.

## Main results

* `records_delimited`: what is hashed of the entries determines it.
* `tarMembers_eq_map`: what is archived of an entry depends on the first name of its file.
-/
namespace UcloudSandboxes.Inspect
open Python Lib

/-! ## The records -/

/-- What is hashed of an entry. -/
inductive Hashed
  | symlink (path : RelPath) (target : Bytes)
  | file (path : RelPath) (mode : ℕ) (content : Bytes)

/-- The record of it in the digest. -/
def Hashed.bytes : Hashed → Bytes
  | .symlink path target => hashText [codePoints "symlink", asPosix path, fsdecode target]
  | .file path mode content =>
      hashText [codePoints "file", asPosix path, oct mode, decimal content.length] ++ content ++ [0]

/-- A directory has no record. -/
def Entry.hashed (e : Entry) : Option Hashed :=
  match e.node with
  | .symlink _ target _ => some (.symlink e.path target)
  | .directory _ => none
  | .file _ mode content => some (.file e.path (mode &&& 0o777) content)

def Hashed.WellFormed : Hashed → Prop
  | .symlink path target => path ≠ [] ∧ 0 ∉ target
  | .file path _ _ => path ≠ []

theorem Entry.hashed_wellFormed {e : Entry} {r : Hashed} (h : e.hashed = some r) :
    r.WellFormed := by
  obtain ⟨path, node, hne⟩ := e
  cases node with
  | file inode mode content =>
      cases h
      exact hne
  | directory mode => cases h
  | symlink mode target hnul =>
      cases h
      exact ⟨hne, hnul⟩

theorem hashEntry_eq (e : Entry) : hashEntry e = (e.hashed.map Hashed.bytes).getD [] := by
  cases hnode : e.node <;> simp [hashEntry, Entry.hashed, hnode, Hashed.bytes]

theorem flatMap_hashEntry (entries : List Entry) :
    entries.flatMap hashEntry = (entries.filterMap Entry.hashed).flatMap Hashed.bytes := by
  induction entries with
  | nil => rfl
  | cons e rest ih =>
      rw [List.flatMap_cons, ih, hashEntry_eq]
      cases hhashed : e.hashed <;> simp [hhashed]

theorem hashText_eq (parts : List CodePoints) :
    hashText parts = (parts.map fsencode).flatMap fun field => field ++ [0] := by
  rw [List.flatMap_map]
  rfl

/-- Fields without NUL are what `_hash_text` was given. -/
theorem hashText_delimited {a b : List CodePoints} (hlength : a.length = b.length)
    (ha : ∀ part ∈ a, 0 ∉ fsencode part) (hb : ∀ part ∈ b, 0 ∉ fsencode part) {x y : Bytes}
    (h : hashText a ++ x = hashText b ++ y) : a.map fsencode = b.map fsencode ∧ x = y := by
  have hfields : ∀ parts : List CodePoints, (∀ part ∈ parts, 0 ∉ fsencode part) →
      ∀ field ∈ parts.map fsencode, (0 : UInt8) ∉ field := by
    intro parts hparts field hfield
    obtain ⟨part, hpart, rfl⟩ := List.mem_map.mp hfield
    exact hparts part hpart
  rw [hashText_eq, hashText_eq] at h
  exact delimits_fields 0 a.length _ ⟨by simp, hfields a ha⟩ _
    ⟨by simp [hlength], hfields b hb⟩ x y h

theorem symlink_fields {path : RelPath} {target : Bytes} (h : 0 ∉ target) :
    ∀ part ∈ [codePoints "symlink", asPosix path, fsdecode target], 0 ∉ fsencode part := by
  have hkind : 0 ∉ fsencode (codePoints "symlink") := by decide
  simp [hkind, zero_notMem_asPosix, h]

theorem file_fields (path : RelPath) (mode size : ℕ) :
    ∀ part ∈ [codePoints "file", asPosix path, oct mode, decimal size], 0 ∉ fsencode part := by
  have hkind : 0 ∉ fsencode (codePoints "file") := by decide
  simp [hkind, zero_notMem_asPosix, zero_notMem_ascii (oct_range mode),
    zero_notMem_ascii (decimal_range size)]

/-- A record of a symlink is none of a file. -/
theorem symlink_ne_file {path path' : RelPath} {target content x y : Bytes} {mode : ℕ}
    (h : (Hashed.symlink path target).bytes ++ x = (Hashed.file path' mode content).bytes ++ y) :
    False := by
  have hhead := congrArg List.head? h
  have hsymlink : fsencode (codePoints "symlink") = [115, 121, 109, 108, 105, 110, 107] := by decide
  have hfile : fsencode (codePoints "file") = [102, 105, 108, 101] := by decide
  simp [Hashed.bytes, hashText, hsymlink, hfile] at hhead

/-- A record determines what is hashed, and where it ends. -/
theorem records_delimited : DelimitsOn {r : Hashed | r.WellFormed} Hashed.bytes := by
  intro r hr r' hr' x y h
  cases r with
  | symlink path target =>
      cases r' with
      | symlink path' target' =>
          have hfields := hashText_delimited (by rfl) (symlink_fields hr.2) (symlink_fields hr'.2) h
          simp only [List.map_cons, List.map_nil, List.cons.injEq, fsencode_fsdecode, and_true,
            true_and] at hfields
          obtain ⟨⟨hpath, rfl⟩, rfl⟩ := hfields
          exact ⟨by rw [path_inj hr.1 hr'.1 hpath], rfl⟩
      | file path' mode content => exact (symlink_ne_file h).elim
  | file path mode content =>
      cases r' with
      | symlink path' target => exact (symlink_ne_file h.symm).elim
      | file path' mode' content' =>
          simp only [Hashed.bytes, List.append_assoc] at h
          have hfields := hashText_delimited (by rfl) (file_fields path mode content.length)
            (file_fields path' mode' content'.length) h
          simp only [List.map_cons, List.map_nil, List.cons.injEq, and_true, true_and] at hfields
          obtain ⟨⟨hpath, hmode, hsize⟩, hrest⟩ := hfields
          obtain ⟨rfl, hafter⟩ := List.append_inj hrest (decimal_inj hsize)
          exact ⟨by rw [path_inj hr hr' hpath, oct_inj hmode], List.append_cancel_left hafter⟩

theorem bytes_ne_nil (r : Hashed) : r.bytes ≠ [] := by
  cases r <;> simp [Hashed.bytes, hashText]

/-- **The digest determines what is hashed.** -/
theorem hashed_eq {identity : BuildIdentity} {contextPath contextPath' : CodePoints} {s t : Context}
    (h : buildContextFingerprint identity contextPath (some s) =
      buildContextFingerprint identity contextPath' (some t)) :
    s.sorted.filterMap Entry.hashed = t.sorted.filterMap Entry.hashed := by
  have hrecords := List.append_cancel_left h
  rw [flatMap_hashEntry, flatMap_hashEntry] at hrecords
  have hwell : ∀ u : Context, ∀ r ∈ u.sorted.filterMap Entry.hashed, r.WellFormed := by
    intro u r hr
    obtain ⟨e, -, he⟩ := List.mem_filterMap.mp hr
    exact Entry.hashed_wellFormed he
  exact records_delimited.flatMap_injOn (fun r _ => bytes_ne_nil r) (hwell s) (hwell t) hrecords

/-- What is hashed of a tree, in any order. -/
theorem mem_hashed {s : Context} {r : Hashed} :
    r ∈ s.sorted.filterMap Entry.hashed ↔ ∃ e ∈ s.entries, e.hashed = some r := by
  simp [Context.sorted, List.mem_filterMap, List.mem_insertionSort]

/-! ## The members -/

/-- A name of the file with this inode. -/
def Entry.names (inode : ℕ) (e : Entry) : Bool :=
  match e.node with
  | .file i _ _ => i == inode
  | _ => false

/-- The first name of a file. -/
def firstName (entries : List Entry) (inode : ℕ) : Option CodePoints :=
  (entries.find? (Entry.names inode)).map fun e => asPosix e.path

theorem firstName_append (a b : List Entry) (inode : ℕ) :
    firstName (a ++ b) inode = (firstName a inode).or (firstName b inode) := by
  simp only [firstName, List.find?_append]
  cases List.find? (Entry.names inode) a <;> rfl

/-- The member of one of the entries. -/
def memberOf (entries : List Entry) (e : Entry) : Member :=
  let name := asPosix e.path
  match e.node with
  | .file inode mode content =>
      if firstName entries inode = some name then ⟨name, .regular, mode &&& 0o7777, [], content⟩
      else ⟨name, .hardlink, mode &&& 0o7777, (firstName entries inode).getD [], []⟩
  | .directory mode => ⟨name, .directory, mode &&& 0o7777, [], []⟩
  | .symlink mode target _ => ⟨name, .symlink, mode &&& 0o7777, fsdecode target, []⟩

/-- The names that were noted are the first ones. -/
theorem lookup_noted {inodes : List (ℕ × CodePoints)} {before : List Entry}
    (h : ∀ i, inodes.lookup i = firstName before i) {e : Entry} {inode mode : ℕ} {content : Bytes}
    (hnode : e.node = .file inode mode content) (hnone : firstName before inode = none) (i : ℕ) :
    ((inode, asPosix e.path) :: inodes).lookup i = firstName (before ++ [e]) i := by
  rw [firstName_append, List.lookup_cons]
  by_cases hi : i = inode
  · subst hi
    rw [hnone]
    simp [firstName, Entry.names, hnode]
  · have hbeq : (i == inode) = false := by simpa using hi
    have hnames : Entry.names i e = false := by
      simpa [Entry.names, hnode] using Ne.symm hi
    simp [hbeq, h, firstName, hnames]

theorem firstName_snoc {before : List Entry} {e : Entry}
    (h : ∀ i, firstName before i = none → Entry.names i e = false) (i : ℕ) :
    firstName (before ++ [e]) i = firstName before i := by
  rw [firstName_append]
  cases hfirst : firstName before i with
  | some name => rfl
  | none => simp [firstName, h i hfirst]

/-- A name that was noted is another one. -/
theorem firstName_ne {before rest : List Entry} {e : Entry}
    (hnodup : ((before ++ e :: rest).map Entry.path).Nodup) {inode : ℕ} {name : CodePoints}
    (h : firstName before inode = some name) : name ≠ asPosix e.path := by
  obtain ⟨d, hfind, rfl⟩ := Option.map_eq_some_iff.mp h
  have hd := List.mem_of_find?_eq_some hfind
  intro heq
  have hpath : d.path = e.path := path_inj d.ne_nil e.ne_nil (congrArg fsencode heq)
  rw [List.map_append, List.nodup_append] at hnodup
  exact hnodup.2.2 d.path (List.mem_map_of_mem hd) e.path (by simp) hpath

/-- **What is archived of an entry depends on the first name of its file.** -/
theorem addMembers_eq_map (before : List Entry) {inodes : List (ℕ × CodePoints)}
    {rest : List Entry} (hinodes : ∀ i, inodes.lookup i = firstName before i)
    (hnodup : ((before ++ rest).map Entry.path).Nodup) :
    addMembers inodes rest = rest.map (memberOf (before ++ rest)) := by
  induction rest generalizing before inodes with
  | nil => rfl
  | cons e rest ih =>
      have hsplit : before ++ e :: rest = (before ++ [e]) ++ rest := by simp
      have hnodup' : (((before ++ [e]) ++ rest).map Entry.path).Nodup := hsplit ▸ hnodup
      cases hnode : e.node with
      | file inode mode content =>
          cases hfirst : firstName before inode with
          | some first =>
              have hnoted : ∀ i, inodes.lookup i = firstName (before ++ [e]) i := by
                intro i
                rw [hinodes, firstName_snoc fun j hj => ?_]
                by_cases hji : inode = j
                · rw [← hji, hfirst] at hj
                  cases hj
                · simpa [Entry.names, hnode] using hji
              have hall : firstName (before ++ e :: rest) inode = some first := by
                rw [firstName_append, hfirst]
                rfl
              have hne := firstName_ne hnodup hfirst
              rw [addMembers, List.map_cons, ih _ hnoted hnodup', ← hsplit]
              simp only [hnode, hinodes, hfirst]
              simp [memberOf, hnode, hall, hne]
          | none =>
              have hall : firstName (before ++ e :: rest) inode = some (asPosix e.path) := by
                rw [firstName_append, hfirst]
                simp [firstName, Entry.names, hnode]
              have hnoted := lookup_noted hinodes hnode hfirst
              rw [addMembers, List.map_cons]
              simp only [hnode, hinodes, hfirst]
              rw [ih _ hnoted hnodup', ← hsplit]
              simp [memberOf, hnode, hall]
      | directory mode =>
          have hnoted : ∀ i, inodes.lookup i = firstName (before ++ [e]) i := by
            intro i
            rw [hinodes, firstName_snoc fun j _ => by simp [Entry.names, hnode]]
          rw [addMembers, List.map_cons, ih _ hnoted hnodup', ← hsplit]
          simp [hnode, memberOf]
      | symlink mode target hnul =>
          have hnoted : ∀ i, inodes.lookup i = firstName (before ++ [e]) i := by
            intro i
            rw [hinodes, firstName_snoc fun j _ => by simp [Entry.names, hnode]]
          rw [addMembers, List.map_cons, ih _ hnoted hnodup', ← hsplit]
          simp [hnode, memberOf]

theorem sorted_nodup (s : Context) : (s.sorted.map Entry.path).Nodup :=
  ((List.perm_insertionSort _ s.entries).map Entry.path).nodup_iff.mpr s.nodup

theorem tarMembers_eq_map (s : Context) :
    tarGzDirectory s = s.sorted.map (memberOf s.sorted) :=
  addMembers_eq_map [] (fun _ => rfl) (sorted_nodup s)

end UcloudSandboxes.Inspect
