import UcloudSandboxes.Client.FileArchive

/-!
# Uploading many files

`upload_files` sends its files in one archive, and falls back to one upload for each file where the
gateway, the worker or the sandbox has no archive extraction. What the caller asked for, what the
extraction of the archive writes and what the single uploads write are maps from locations to
contents.

## Main results

* `fileArchive_canonical`: the archive is canonical, and both ways of uploading write what was asked
  for.
* `uploadFiles_written`: what a finished `upload_files` has written.
-/
namespace UcloudSandboxes.Client
open Python Lib

/-! ## What is written -/

/-- A request that writes files. -/
inductive Upload
  /-- The archive request, for `archive.base_dir` and with `archive.body()`. -/
  | putArchive (archive : FileArchive)
  | putFile (containerPath : CodePoints) (content : Bytes)

/-- Where a request writes what. A member is extracted below the directory of the request. -/
def Upload.writes : Upload → List (List CodePoints × Bytes)
  | .putArchive archive => archive.members.map fun m => (location archive.baseDir m.1, m.2)
  | .putFile containerPath content => [(home containerPath, content)]

/-- The files that requests write: a map from locations to contents. -/
def contents (uploads : List Upload) : List CodePoints → Option Bytes :=
  written (uploads.flatMap Upload.writes)

/-- The single uploads of the fallback. -/
def FileArchive.perFile (archive : FileArchive) : List Upload :=
  archive.members.map fun m => .putFile (archive.containerPath m.1) m.2

/-- `{container_path(name): content}`. -/
def FileArchive.again (archive : FileArchive) : List (Argument × Argument) :=
  archive.members.map fun m => (.str (archive.containerPath m.1), .bytes m.2)

/-- The caller asked for `data` at `place`. -/
def Asked (files : List (Argument × Argument)) (base : CodePoints) (place : List CodePoints)
    (data : Bytes) : Prop :=
  ∃ path content, (.str path, content) ∈ files ∧ location base path = place ∧
    payload content = some data

/-- A relative path without empty, `.` or `..` components. -/
structure IsRelative (name : CodePoints) : Prop where
  relative : ¬ posix.IsAbsolute name
  components : ∀ c ∈ name.splitOn posix.sep, c ≠ [] ∧ c ≠ posix.here ∧ c ≠ posix.up

/-! ### The members -/

theorem sortedMembers_perm (named : List NamedFile) :
    (sortedMembers named).Perm (named.map fun f => (f.name, f.data)) :=
  (List.perm_insertionSort _ named).map _

theorem pairwise_sortedMembers {named : List NamedFile} (h : (named.map NamedFile.name).Nodup) :
    ((sortedMembers named).map Prod.fst).Pairwise (· < ·) := by
  have htotal : Std.Total fun a b : NamedFile => a.name ≤ b.name := ⟨fun a b => le_total _ _⟩
  have htrans : IsTrans NamedFile fun a b => a.name ≤ b.name := ⟨fun a b c => le_trans⟩
  have hsorted := List.pairwise_insertionSort (fun a b : NamedFile => a.name ≤ b.name) named
  have hnodup : ((named.insertionSort fun a b => a.name ≤ b.name).map NamedFile.name).Nodup :=
    ((List.perm_insertionSort _ named).map _).nodup_iff.mpr h
  rw [List.nodup_iff_pairwise_ne, List.pairwise_map] at hnodup
  rw [sortedMembers, List.map_map, List.pairwise_map]
  exact hsorted.imp₂ (fun _ _ hle hne => lt_of_le_of_ne hle hne) hnodup

/-- The members do not depend on the order or on the paths of the files. -/
theorem sortedMembers_congr {named named' : List NamedFile}
    (h : (named.map NamedFile.name).Nodup) (h' : (named'.map NamedFile.name).Nodup)
    (hperm : (named.map fun f => (f.name, f.data)).Perm (named'.map fun f => (f.name, f.data))) :
    sortedMembers named = sortedMembers named' := by
  have hsorted := List.pairwise_map.mp (pairwise_sortedMembers h)
  have hsorted' := List.pairwise_map.mp (pairwise_sortedMembers h')
  refine List.Perm.eq_of_pairwise ?_ hsorted hsorted'
    ((sortedMembers_perm named).trans (hperm.trans (sortedMembers_perm named').symm))
  intro a b _ _ hab hba
  exact absurd hba hab.asymm

namespace IsFilePath

variable {base path : CodePoints}

theorem up_notMem_relative (h : IsFilePath base path) : posix.up ∉ relative base path :=
  fun hup => h.plain.up_notMem (h.mem_parts_of_mem_relative hup)

/-- The name of a file leads from `base_dir` to where its path leads. -/
theorem location_join_relative (h : IsFilePath base path) {dir : CodePoints}
    (hdir : home dir = home base) :
    location dir (posix.join (relative base path)) = location base path := by
  rw [location, posix.resolve_join (fun _ hc => h.isName_relative hc) h.up_notMem_relative, hdir,
    h.home_append]

theorem isRelative (h : IsFilePath base path) : IsRelative (posix.join (relative base path)) := by
  refine ⟨posix.not_isAbsolute_join fun _ hc => h.isName_relative hc, ?_⟩
  rw [posix.splitOn_join (fun _ hc => h.isName_relative hc) h.relative_ne_nil]
  intro c hc
  refine ⟨(h.isName_relative hc).ne_nil, (h.isName_relative hc).ne_here, ?_⟩
  rintro rfl
  exact h.up_notMem_relative hc

end IsFilePath

namespace IsPlain

variable {base : CodePoints}

theorem isName_home (h : IsPlain base) {c : CodePoints} (hc : c ∈ home base) : posix.IsName c := by
  rw [h.home_eq] at hc
  exact posix.isName_of_mem_parts hc

theorem up_notMem_home (h : IsPlain base) : posix.up ∉ home base := by
  rw [h.home_eq]
  exact h.up_notMem

/-- The normalized `base_dir` is where `base_dir` is. -/
theorem home_normalized (h : IsPlain base) :
    home (posix.sep :: posix.join (home base)) = home base :=
  posix.resolve_sep_join (fun _ hc => h.isName_home hc) h.up_notMem_home []

/-- `container_path` of a name, given its components. -/
theorem containerPath_join (h : IsPlain base) {archive : FileArchive}
    (hdir : archive.baseDir = posix.sep :: posix.join (home base)) {names : List CodePoints}
    (hne : names ≠ []) :
    archive.containerPath (posix.join names) = posix.sep :: posix.join (home base ++ names) := by
  rw [FileArchive.containerPath, hdir]
  by_cases hnil : home base = []
  · simp [hnil, rstripSlash]
  · have hstrip : rstripSlash (posix.sep :: posix.join (home base)) =
        posix.sep :: posix.join (home base) := by
      rw [rstripSlash, List.rdropWhile_eq_self_iff]
      intro hl hlast
      have hjoin : posix.join (home base) ≠ [] :=
        posix.join_ne_nil (fun _ hc => h.isName_home hc) hnil
      refine posix.getLast?_join (fun _ hc => h.isName_home hc) ?_
      rw [List.getLast?_eq_getLast_of_ne_nil hjoin, ← List.getLast_cons hjoin]
      exact congrArg some (by simpa using hlast)
    rw [hstrip, posix.join_append hnil hne]
    rfl

end IsPlain

/-! ### The same files again -/

/-- A file under its `container_path`. -/
def restated (base : CodePoints) (file : Argument × Argument) : Argument × Argument :=
  (.str (posix.sep :: posix.join (home base ++ relative base file.1.text)),
    .bytes ((payload file.2).getD []))

section Restated

variable {base path : CodePoints}

theorem IsFilePath.isName_append (h : IsFilePath base path) (hbase : IsPlain base) :
    ∀ c ∈ home base ++ relative base path, posix.IsName c := by
  intro c hc
  rcases List.mem_append.mp hc with hc | hc
  · exact hbase.isName_home hc
  · exact h.isName_relative hc

theorem IsFilePath.up_notMem_append (h : IsFilePath base path) (hbase : IsPlain base) :
    posix.up ∉ home base ++ relative base path := by
  rw [List.mem_append, not_or]
  exact ⟨hbase.up_notMem_home, h.up_notMem_relative⟩

theorem IsFilePath.home_restated (h : IsFilePath base path) (hbase : IsPlain base) :
    home (posix.sep :: posix.join (home base ++ relative base path)) = location base path := by
  rw [home, posix.resolve_sep_join (h.isName_append hbase) (h.up_notMem_append hbase),
    h.home_append]

theorem IsFilePath.location_restated (h : IsFilePath base path) (hbase : IsPlain base) :
    location base (posix.sep :: posix.join (home base ++ relative base path)) =
      location base path := by
  rw [location_of_absolute (posix.isAbsolute_sep _), h.home_restated hbase]

theorem IsFilePath.relative_restated (h : IsFilePath base path) (hbase : IsPlain base) :
    relative base (posix.sep :: posix.join (home base ++ relative base path)) =
      relative base path :=
  congrArg (List.drop _) (h.location_restated hbase)

theorem IsFilePath.restated (h : IsFilePath base path) (hbase : IsPlain base) :
    IsFilePath base (posix.sep :: posix.join (home base ++ relative base path)) := by
  have hnames := h.isName_append hbase
  have hne : home base ++ relative base path ≠ [] := fun hnil =>
    h.relative_ne_nil (List.append_eq_nil_iff.mp hnil).2
  refine ⟨List.cons_ne_nil _ _, ?_, ⟨?_, ?_⟩, ?_, ?_⟩
  · rw [List.getLast?_cons_of_ne_nil (posix.join_ne_nil hnames hne)]
    exact posix.getLast?_join hnames
  · intro c hc
    rcases List.mem_cons.mp hc with rfl | hc
    · decide
    rcases posix.mem_of_mem_join hc with rfl | ⟨part, hpart, hc⟩
    · decide
    rcases List.mem_append.mp hpart with hpart | hpart
    · rw [hbase.home_eq] at hpart
      exact hbase.noControl c (posix.mem_of_mem_parts hpart hc)
    · exact h.plain.noControl c (posix.mem_of_mem_parts (h.mem_parts_of_mem_relative hpart) hc)
  · intro hup
    rw [← up_mem_parts, posix.parts_sep, posix.parts_join hnames] at hup
    exact h.up_notMem_append hbase hup
  · intro _
    rw [h.home_restated hbase, ← h.home_append]
    exact List.prefix_append _ _
  · rw [h.location_restated hbase]
    exact h.ne_base

end Restated

theorem locations_restated {base : CodePoints} (hbase : IsPlain base)
    {files : List (Argument × Argument)} (h : ∀ file ∈ files, IsFilePath base file.1.text) :
    locations (files.map (restated base)) base = locations files base := by
  rw [locations, List.map_map]
  exact List.map_congr_left fun file hfile => (h file hfile).location_restated hbase

/-- The name and the content of a file stay. -/
theorem collected_restated {base : CodePoints} (hbase : IsPlain base) {file : Argument × Argument}
    (h : IsFilePath base file.1.text) :
    (collected base (restated base file)).name = (collected base file).name ∧
      (collected base (restated base file)).data = (collected base file).data :=
  ⟨congrArg posix.join (h.relative_restated hbase), rfl⟩

namespace Acceptable

variable {files files' : List (Argument × Argument)} {base : CodePoints} {mode : ℤ}

theorem isFilePath_text (h : Acceptable files base mode) :
    ∀ file ∈ files, IsFilePath base file.1.text :=
  fun file hfile => Client.isFilePath_text (h.path file hfile)

theorem perm (h : Acceptable files base mode) (hperm : files.Perm files') :
    Acceptable files' base mode where
  base_absolute := h.base_absolute
  base_plain := h.base_plain
  mode_nonneg := h.mode_nonneg
  mode_le := h.mode_le
  path file hfile := h.path file (hperm.mem_iff.mpr hfile)
  distinct := (hperm.map _).nodup_iff.mp h.distinct
  unnested a ha b hb :=
    h.unnested a ((hperm.map _).mem_iff.mpr ha) b ((hperm.map _).mem_iff.mpr hb)
  count := hperm.length_eq ▸ h.count
  size := (hperm.map _).sum_nat ▸ h.size

theorem restated (h : Acceptable files base mode) :
    Acceptable (files.map (restated base)) base mode where
  base_absolute := h.base_absolute
  base_plain := h.base_plain
  mode_nonneg := h.mode_nonneg
  mode_le := h.mode_le
  path := by
    rw [List.forall_mem_map]
    exact fun file hfile => ⟨_, rfl, (h.isFilePath_text file hfile).restated h.base_plain⟩
  distinct := by
    rw [locations_restated h.base_plain h.isFilePath_text]
    exact h.distinct
  unnested := by
    rw [locations_restated h.base_plain h.isFilePath_text]
    exact h.unnested
  count := by
    rw [List.length_map]
    exact h.count
  size := by
    rw [List.map_map]
    exact h.size

/-- The members are the files, under their names. -/
theorem members_perm (files : List (Argument × Argument)) (base : CodePoints) (mode : ℤ) :
    (assembled files base mode).members.Perm
      (files.map fun file =>
        (posix.join (relative base file.1.text), (payload file.2).getD [])) := by
  have hperm := sortedMembers_perm (files.map (collected base))
  rw [List.map_map] at hperm
  exact hperm

theorem containerPath_eq (h : Acceptable files base mode) {file : Argument × Argument}
    (hfile : file ∈ files) :
    (assembled files base mode).containerPath (posix.join (relative base file.1.text)) =
      posix.sep :: posix.join (home base ++ relative base file.1.text) :=
  h.base_plain.containerPath_join rfl (h.isFilePath_text file hfile).relative_ne_nil

theorem again_perm (h : Acceptable files base mode) :
    (assembled files base mode).again.Perm (files.map (Client.restated base)) := by
  have hperm := (members_perm files base mode).map fun m =>
    (Argument.str ((assembled files base mode).containerPath m.1), Argument.bytes m.2)
  rw [List.map_map] at hperm
  refine hperm.trans (List.Perm.of_eq (List.map_congr_left fun file hfile => ?_))
  simp only [Function.comp_apply, h.containerPath_eq hfile, Client.restated]

theorem again (h : Acceptable files base mode) :
    Acceptable (assembled files base mode).again base mode :=
  h.restated.perm h.again_perm.symm

theorem nodup_names (h : Acceptable files base mode) :
    ((files.map (collected base)).map NamedFile.name).Nodup :=
  (nodup_names_iff h.isFilePath_text).mpr h.distinct

/-- The same files again make the same archive. -/
theorem assembled_again (h : Acceptable files base mode) :
    assembled (assembled files base mode).again base mode = assembled files base mode := by
  apply FileArchive.ext
  · rfl
  · refine sortedMembers_congr h.again.nodup_names h.nodup_names ?_
    refine ((h.again_perm.map (collected base)).map _).trans (List.Perm.of_eq ?_)
    rw [List.map_map, List.map_map, List.map_map]
    refine List.map_congr_left fun file hfile => ?_
    have hsame := collected_restated h.base_plain (h.isFilePath_text file hfile)
    exact Prod.ext hsame.1 hsame.2
  · rfl
  · refine ((h.again_perm.map fun file => byteLength file.2).sum_nat).trans ?_
    rw [List.map_map]
    rfl

/-! ### The maps -/

/-- Where a member is extracted, and where its single upload goes. -/
theorem exists_of_mem_members (h : Acceptable files base mode) {m : CodePoints × Bytes}
    (hm : m ∈ (assembled files base mode).members) :
    IsRelative m.1 ∧ ∃ file ∈ files, m.2 = (payload file.2).getD [] ∧
      location (assembled files base mode).baseDir m.1 = location base file.1.text ∧
      home ((assembled files base mode).containerPath m.1) = location base file.1.text := by
  rw [(members_perm files base mode).mem_iff, List.mem_map] at hm
  obtain ⟨file, hfile, rfl⟩ := hm
  have hpath := h.isFilePath_text file hfile
  refine ⟨hpath.isRelative, file, hfile, rfl, ?_, ?_⟩
  · exact hpath.location_join_relative h.base_plain.home_normalized
  · rw [h.containerPath_eq hfile, hpath.home_restated h.base_plain]

theorem writes_perm (h : Acceptable files base mode) :
    ([Upload.putArchive (assembled files base mode)].flatMap Upload.writes).Perm
      (files.map fun file => (location base file.1.text, (payload file.2).getD [])) := by
  rw [List.flatMap_singleton]
  have hperm := (members_perm files base mode).map fun m =>
    (location (assembled files base mode).baseDir m.1, m.2)
  rw [List.map_map] at hperm
  refine hperm.trans (List.Perm.of_eq (List.map_congr_left fun file hfile => ?_))
  exact Prod.ext ((h.isFilePath_text file hfile).location_join_relative
    h.base_plain.home_normalized) rfl

theorem writes_perFile (h : Acceptable files base mode) :
    (assembled files base mode).perFile.flatMap Upload.writes =
      [Upload.putArchive (assembled files base mode)].flatMap Upload.writes := by
  rw [List.flatMap_singleton, FileArchive.perFile, List.flatMap_map]
  simp only [Upload.writes]
  rw [← List.map_eq_flatMap]
  refine List.map_congr_left fun m hm => ?_
  obtain ⟨-, file, -, -, hextracted, huploaded⟩ := h.exists_of_mem_members hm
  rw [hextracted, huploaded]

/-- The archive writes what the caller asked for. -/
theorem contents_putArchive (h : Acceptable files base mode)
    (hcontents : ∀ file ∈ files, (payload file.2).isSome) {place : List CodePoints}
    {data : Bytes} :
    contents [.putArchive (assembled files base mode)] place = some data ↔
      Asked files base place data := by
  have hnodup : (([Upload.putArchive (assembled files base mode)].flatMap Upload.writes).map
      Prod.fst).Nodup := by
    rw [(h.writes_perm.map _).nodup_iff, List.map_map]
    exact h.distinct
  rw [contents, written_eq_some_iff hnodup, h.writes_perm.mem_iff, List.mem_map]
  constructor
  · rintro ⟨⟨value, content⟩, hfile, heq⟩
    obtain ⟨path, hpath, -⟩ := h.path _ hfile
    obtain ⟨payloadData, hpayload⟩ := Option.isSome_iff_exists.mp (hcontents _ hfile)
    simp only at hpath hpayload
    subst hpath
    rw [Prod.mk.injEq, hpayload, Option.getD_some] at heq
    exact ⟨path, content, hfile, heq.1, by rw [hpayload, heq.2]⟩
  · rintro ⟨path, content, hfile, hplace, hpayload⟩
    refine ⟨_, hfile, ?_⟩
    rw [hpayload, ← hplace]
    rfl

theorem under (h : Acceptable files base mode) {place : List CodePoints} {data : Bytes}
    (hasked : Asked files base place data) : home base <+: place ∧ place ≠ home base := by
  obtain ⟨path, content, hfile, rfl, -⟩ := hasked
  have hpath : IsFilePath base path := h.isFilePath_text _ hfile
  refine ⟨?_, hpath.ne_base⟩
  rw [← hpath.home_append]
  exact List.prefix_append _ _

end Acceptable

/-! ### The archive -/

/-- Succeeding for `base_dir` and `mode` of the right types. -/
theorem fileArchive_ok_iff {files : List (Argument × Argument)} {baseDir mode : Argument} :
    (∃ archive, fileArchive files baseDir mode = .ok archive) ↔
      ∃ base permissions, baseDir = .str base ∧ mode = .int permissions ∧
        Acceptable files base permissions ∧ ∀ file ∈ files, (payload file.2).isSome := by
  constructor
  · rintro ⟨archive, h⟩
    cases baseDir with
    | str base =>
        obtain ⟨permissions, hmode, haccept, hcontents, -⟩ := fileArchive_eq_ok_iff.mp h
        exact ⟨base, permissions, rfl, hmode, haccept, hcontents⟩
    | _ => cases h
  · rintro ⟨base, permissions, rfl, hmode, haccept, hcontents⟩
    exact ⟨_, fileArchive_eq_ok_iff.mpr ⟨permissions, hmode, haccept, hcontents, rfl⟩⟩

/-- `_file_archive` succeeds for what is acceptable. Its archive then has canonical names, writes
what the caller asked for, below `base_dir`, and so do the single uploads; and it is the archive of
the files under their `container_path`s. -/
theorem fileArchive_canonical (files : List (Argument × Argument)) (baseDir mode : Argument) :
    ((∃ archive, fileArchive files baseDir mode = .ok archive) ↔
      ∃ base permissions, baseDir = .str base ∧ mode = .int permissions ∧
        Acceptable files base permissions ∧ ∀ file ∈ files, (payload file.2).isSome) ∧
    ∀ base archive, baseDir = .str base → fileArchive files baseDir mode = .ok archive →
      (archive.members.map Prod.fst).Pairwise (· < ·) ∧
      (∀ m ∈ archive.members, IsRelative m.1) ∧
      contents [.putArchive archive] = contents archive.perFile ∧
      (∀ place data, contents [.putArchive archive] place = some data ↔
        Asked files base place data) ∧
      (∀ place data, Asked files base place data → home base <+: place ∧ place ≠ home base) ∧
      (archive.again.map Prod.fst).Nodup ∧
      fileArchive archive.again baseDir mode = .ok archive := by
  refine ⟨fileArchive_ok_iff, ?_⟩
  rintro base archive rfl h
  obtain ⟨permissions, rfl, haccept, hcontents, rfl⟩ := fileArchive_eq_ok_iff.mp h
  refine ⟨pairwise_sortedMembers haccept.nodup_names,
    fun m hm => (haccept.exists_of_mem_members hm).1, ?_,
    fun place data => haccept.contents_putArchive hcontents,
    fun place data => haccept.under, ?_, ?_⟩
  · rw [contents, contents, haccept.writes_perFile]
  · refine List.Nodup.of_map (fun value => location base value.text) ?_
    have hlocations := haccept.again.distinct
    rw [List.map_map]
    exact hlocations
  · refine fileArchive_eq_ok_iff.mpr ⟨permissions, rfl, haccept.again, ?_, haccept.assembled_again⟩
    simp only [FileArchive.again, List.forall_mem_map]
    exact fun m _ => rfl

/-- Two files of one container, named in two ways. -/
theorem fileArchive_canonical_two :
    let files : List (Argument × Argument) :=
      [(.str (codePoints "./b//c"), .str (codePoints "x")),
        (.str (codePoints "/w/a"), .bytes [1, 2])]
    let archive : FileArchive := {
      baseDir := codePoints "/w"
      members := [(codePoints "a", [1, 2]), (codePoints "b/c", [0x78])]
      mode := 0o640
      totalBytes := 3 }
    fileArchive files (.str (codePoints "/w//")) (.int 0o640) = .ok archive ∧
      contents [.putArchive archive] = contents archive.perFile ∧
      fileArchive archive.again (.str (codePoints "/w//")) (.int 0o640) = .ok archive := by
  intro files archive
  have hok : fileArchive files (.str (codePoints "/w//")) (.int 0o640) = .ok archive := by
    decide +kernel
  have h := (fileArchive_canonical files _ _).2 _ archive rfl hok
  exact ⟨hok, h.2.2.1, h.2.2.2.2.2.2⟩

/-- A text with a surrogate has no bytes. -/
theorem surrogate_refused :
    Acceptable [(.str (codePoints "a"), .str [0xD800])] (codePoints "/") 0o600 ∧
      fileArchive [(.str (codePoints "a"), .str [0xD800])] (.str (codePoints "/")) (.int 0o600) =
        .error (.notEncodable [0xD800]) := by
  refine ⟨?_, by decide +kernel⟩
  refine ⟨by decide +kernel, ⟨by decide +kernel, by decide +kernel⟩, by decide, by decide, ?_,
    by decide +kernel, by decide +kernel, by decide, by decide +kernel⟩
  rw [List.forall_mem_singleton]
  exact ⟨_, rfl, by decide +kernel, by decide +kernel, ⟨by decide +kernel, by decide +kernel⟩,
    by decide +kernel, by decide +kernel⟩

/-! ## `upload_files` -/

/-- `ARCHIVE_UPLOAD_FALLBACK_STATUSES`. -/
def archiveUploadFallbackStatuses : List ℤ := [403, 404, 405, 501]

/-- What becomes of the archive request. -/
inductive ArchiveAnswer
  /-- The acknowledgement is the one that `_validate_archive_upload_response` expects. -/
  | acknowledged
  /-- A `SandboxApiError` with this `status_code`. -/
  | refused (status : Option ℤ)

/-- What `upload_files` raises. -/
inductive UploadError
  | invalid (e : FileError)
  /-- `body()`: the compressed archive exceeds the limit. -/
  | compressedTooLarge
  | api (status : Option ℤ)

/-- What the result says, of an acknowledgement too. -/
structure UploadSummary where
  path : CodePoints
  files : ℕ
  bytes : ℕ
  perFile : Bool

/-- `summary`. -/
def FileArchive.summary (archive : FileArchive) (perFile : Bool) : UploadSummary where
  path := archive.baseDir
  files := archive.members.length
  bytes := archive.totalBytes
  perFile

/-- `upload_files`, where every single upload succeeds: the requests that were carried out, and the
result. `size` is the length of `archive.body()`. -/
def uploadFiles (size : FileArchive → ℕ) (answer : ArchiveAnswer)
    (files : List (Argument × Argument)) (baseDir mode : Argument) :
    Except UploadError (List Upload × UploadSummary) :=
  match fileArchive files baseDir mode with
  | .error e => .error (.invalid e)
  | .ok archive =>
      if archive.members = [] then .ok ([], archive.summary false)
      else if size archive > maxFileBodyBytes then .error .compressedTooLarge
      else
        match answer with
        | .acknowledged => .ok ([.putArchive archive], archive.summary false)
        | .refused status =>
            if status ∈ archiveUploadFallbackStatuses.map some then
              .ok (archive.perFile, archive.summary true)
            else .error (.api status)

/-- However `upload_files` returns, the container has what the caller asked for. -/
theorem uploadFiles_written {size : FileArchive → ℕ} {answer : ArchiveAnswer}
    {files : List (Argument × Argument)} {base : CodePoints} {mode : Argument}
    {uploads : List Upload} {summary : UploadSummary}
    (h : uploadFiles size answer files (.str base) mode = .ok (uploads, summary))
    (place : List CodePoints) (data : Bytes) :
    contents uploads place = some data ↔ Asked files base place data := by
  cases harchive : fileArchive files (.str base) mode with
  | error e => simp [uploadFiles, harchive] at h
  | ok archive =>
      obtain ⟨permissions, rfl, haccept, hcontents, rfl⟩ := fileArchive_eq_ok_iff.mp harchive
      rw [← haccept.contents_putArchive hcontents]
      suffices hsame : contents uploads =
          contents [.putArchive (assembled files base permissions)] by
        rw [hsame]
      simp only [uploadFiles, harchive] at h
      by_cases hempty : (assembled files base permissions).members = []
      · rw [if_pos hempty, Except.ok.injEq, Prod.mk.injEq] at h
        rw [← h.1]
        simp [contents, Upload.writes, hempty]
      rw [if_neg hempty] at h
      by_cases hsize : size (assembled files base permissions) > maxFileBodyBytes
      · rw [if_pos hsize] at h
        cases h
      rw [if_neg hsize] at h
      cases answer with
      | acknowledged =>
          rw [Except.ok.injEq, Prod.mk.injEq] at h
          rw [← h.1]
      | refused status =>
          simp only at h
          by_cases hstatus : status ∈ archiveUploadFallbackStatuses.map some
          · rw [if_pos hstatus, Except.ok.injEq, Prod.mk.injEq] at h
            rw [← h.1, contents, contents, haccept.writes_perFile]
          · rw [if_neg hstatus] at h
            cases h

end UcloudSandboxes.Client
