import Mathlib.Algebra.GroupWithZero.Nat
import Mathlib.Data.List.DropRight
import Mathlib.Data.List.Lex
import Mathlib.Data.List.Sort
import UcloudSandboxes.Lib.Paths
import UcloudSandboxes.Python.FileNames

/-!
# The archive of `upload_files`

`_file_archive` checks the files of `upload_files` and gives each its name below `base_dir`. A path
is where it leads from there, symbolic links aside: `location`.

## Main results

* `fileArchive_eq_ok_iff`: when `_file_archive` succeeds, and with what.
-/
namespace UcloudSandboxes.Client
open Python Lib

/-! ## Paths -/

/-- The paths of a container. -/
def posix : PathSyntax ℕ where
  sep := 0x2F
  here := [0x2E]
  up := [0x2E, 0x2E]

/-- `unicodedata.category(char) == "Cc"`. -/
def isControl (c : ℕ) : Bool := c < 0x20 || (0x7F ≤ c && c < 0xA0)

/-- `path.rstrip("/")`. -/
def rstripSlash (path : CodePoints) : CodePoints := path.rdropWhile (· == posix.sep)

/-- Where `base_dir` is. -/
def home (base : CodePoints) : List CodePoints := posix.resolve [] base

/-- Where a path leads from `base_dir`. -/
def location (base path : CodePoints) : List CodePoints := posix.resolve (home base) path

/-! ## `_file_archive` -/

/-- What a caller may pass for `base_dir`, `mode`, a path or a content. -/
inductive Argument
  | str (text : CodePoints)
  | bytes (data : Bytes)
  | int (n : ℤ)
  | bool (b : Bool)
  /-- Any other object. -/
  | object (id : ℕ)
  deriving DecidableEq

/-- A content that is `bytes` or a `str`. -/
inductive FileContent
  | bytes (data : Bytes)
  | str (text : CodePoints)

/-- `isinstance(content, (bytes, str))`. -/
def Argument.asContent : Argument → Option FileContent
  | .bytes data => some (.bytes data)
  | .str text => some (.str text)
  | _ => none

/-- What `_file_archive` raises. -/
inductive FileError
  | baseDir (value : Argument)
  | controlCharacter (what : String) (path : CodePoints)
  | parentComponent (what : String) (path : CodePoints)
  | mode (value : Argument)
  | tooManyFiles
  | pathType (value : Argument)
  | contentType (path : CodePoints)
  | emptyPath
  | endsWithSlash (path : CodePoints)
  | notUnder (path base : CodePoints)
  | namesBase (path : CodePoints)
  | sameFile (first path : CodePoints)
  /-- `UnicodeEncodeError`. -/
  | notEncodable (text : CodePoints)
  | tooManyBytes
  | parentDirectory (parent path : CodePoints)
  deriving DecidableEq

/-- `MAX_ARCHIVE_FILES`. -/
def maxArchiveFiles : ℕ := 10000

/-- `MAX_FILE_BODY_BYTES`. -/
def maxFileBodyBytes : ℕ := 256 * 1024 * 1024

/-- The class of the exception; `UnicodeEncodeError` is a `ValueError`. -/
def FileError.cls : FileError → Builtin
  | .pathType _ | .contentType _ => .typeError
  | _ => .valueError

/-- The text of the exception, given `repr` and the text that the codec raises. -/
def FileError.message (repr : Argument → String) (codec : CodePoints → String) : FileError → String
  | .baseDir value => "base_dir must be an absolute container path: " ++ repr value
  | .controlCharacter what path => what ++ " contains a control character: " ++ repr (.str path)
  | .parentComponent what path => what ++ " has a '..' component: " ++ repr (.str path)
  | .mode value => "mode must be a permission mode from 0 to 0o777: " ++ repr value
  | .tooManyFiles => "upload_files accepts at most " ++ toString maxArchiveFiles ++ " files"
  | .pathType value => "file paths must be strings: " ++ repr value
  | .contentType path => "file content must be bytes or str: " ++ repr (.str path)
  | .emptyPath => "file path is empty"
  | .endsWithSlash path => "file path ends with '/': " ++ repr (.str path)
  | .notUnder path base =>
      "file path " ++ repr (.str path) ++ " is not under base_dir " ++ repr (.str base)
  | .namesBase path => "file path " ++ repr (.str path) ++ " names base_dir itself"
  | .sameFile first path =>
      "file paths " ++ repr (.str first) ++ " and " ++ repr (.str path) ++ " name the same file"
  | .notEncodable text => codec text
  | .tooManyBytes => "files exceed the " ++ toString maxFileBodyBytes ++ " byte upload limit"
  | .parentDirectory parent path =>
      "file path " ++ repr (.str parent) ++ " is a parent directory of " ++ repr (.str path)

/-- `_container_path_parts`. -/
def containerPathParts (path : CodePoints) (what : String) : Except FileError (List CodePoints) :=
  if path.any isControl then .error (.controlCharacter what path)
  else if posix.up ∈ posix.parts path then .error (.parentComponent what path)
  else .ok (posix.parts path)

/-- The check of `mode`. -/
def permissionMode : Argument → Except FileError ℤ
  | .int n => if 0 ≤ n ∧ n ≤ 0o777 then .ok n else .error (.mode (.int n))
  | value => .error (.mode value)

/-- A surrogate has no encoding in UTF-8. -/
def isSurrogate (c : ℕ) : Bool := 0xD800 ≤ c && c ≤ 0xDFFF

/-- `_bytes_payload`. -/
def bytesPayload : FileContent → Except FileError Bytes
  | .bytes data => .ok data
  | .str text => if text.any isSurrogate then .error (.notEncodable text) else .ok (fsencode text)

/-- An item of `named`. -/
structure NamedFile where
  name : CodePoints
  path : CodePoints
  data : Bytes

/-- `named`, in the order of its insertions, and `total`. -/
structure Collected where
  named : List NamedFile := []
  total : ℕ := 0

/-- The name of the file at `path`. -/
def memberName (base : CodePoints) (baseParts : List CodePoints) (path : CodePoints) :
    Except FileError CodePoints :=
  if path = [] then .error .emptyPath
  else if path.getLast? = some posix.sep then .error (.endsWithSlash path)
  else do
    let parts ← containerPathParts path "file path"
    if posix.IsAbsolute path then
      if parts.take baseParts.length ≠ baseParts then .error (.notUnder path base)
      else if parts.drop baseParts.length = [] then .error (.namesBase path)
      else .ok (posix.join (parts.drop baseParts.length))
    else if parts = [] then .error (.namesBase path)
    else .ok (posix.join parts)

/-- The body of the first loop. -/
def addFile (base : CodePoints) (baseParts : List CodePoints) (s : Collected) :
    Argument × Argument → Except FileError Collected
  | (.str path, content) =>
      match content.asContent with
      | none => .error (.contentType path)
      | some content => do
          let name ← memberName base baseParts path
          match s.named.find? fun f => f.name = name with
          | some first => .error (.sameFile first.path path)
          | none => do
              let data ← bytesPayload content
              .ok ⟨s.named ++ [⟨name, path, data⟩], s.total + data.length⟩
  | (value, _) => .error (.pathType value)

/-- The second loop: no file is a parent directory of another. -/
def checkParents (named : List NamedFile) : Except FileError Unit :=
  named.forM fun f =>
    let parts := f.name.splitOn posix.sep
    (List.range' 1 (parts.length - 1)).forM fun depth =>
      match named.find? fun parent => parent.name = posix.join (parts.take depth) with
      | some parent => .error (.parentDirectory parent.path f.path)
      | none => .ok ()

/-- `_FileArchive`. -/
@[ext] structure FileArchive where
  baseDir : CodePoints
  members : List (CodePoints × Bytes)
  mode : ℤ
  totalBytes : ℕ
  deriving DecidableEq

/-- `sorted(named)`, with the contents. -/
def sortedMembers (named : List NamedFile) : List (CodePoints × Bytes) :=
  (named.insertionSort fun a b => a.name ≤ b.name).map fun f => (f.name, f.data)

/-- `_file_archive` of the items of a mapping. -/
def fileArchive (files : List (Argument × Argument)) (baseDir mode : Argument) :
    Except FileError FileArchive :=
  match baseDir with
  | .str base =>
      if posix.IsAbsolute base then do
        let baseParts ← containerPathParts base "base_dir"
        let mode ← permissionMode mode
        if files.length > maxArchiveFiles then .error .tooManyFiles
        else do
          let s ← files.foldlM (addFile base baseParts) {}
          if s.total > maxFileBodyBytes then .error .tooManyBytes
          else do
            checkParents s.named
            .ok {
              baseDir := posix.sep :: posix.join baseParts
              members := sortedMembers s.named
              mode
              totalBytes := s.total }
      else .error (.baseDir (.str base))
  | value => .error (.baseDir value)

namespace FileArchive

/-- `container_path`. -/
def containerPath (archive : FileArchive) (name : CodePoints) : CodePoints :=
  rstripSlash archive.baseDir ++ posix.sep :: name

end FileArchive

/-! ## What a caller may ask for -/

/-- No control character and no `..` component. -/
structure IsPlain (path : CodePoints) : Prop where
  noControl : ∀ c ∈ path, isControl c = false
  noUp : posix.up ∉ path.splitOn posix.sep

/-- A path that leads to a file under `base_dir`. -/
structure IsFilePath (base path : CodePoints) : Prop where
  ne_nil : path ≠ []
  noSlash : path.getLast? ≠ some posix.sep
  plain : IsPlain path
  under : posix.IsAbsolute path → home base <+: home path
  ne_base : location base path ≠ home base

/-- The text of a path. -/
def Argument.text : Argument → CodePoints
  | .str text => text
  | _ => []

/-- The bytes of a content, if it has any. -/
def payload (content : Argument) : Option Bytes :=
  content.asContent.bind fun content => (bytesPayload content).toOption

def byteLength (content : Argument) : ℕ := ((payload content).getD []).length

/-- The locations of the files. -/
def locations (files : List (Argument × Argument)) (base : CodePoints) : List (List CodePoints) :=
  files.map fun file => location base file.1.text

/-- What `upload_files` asks of the paths, the sizes and the mode. -/
structure Acceptable (files : List (Argument × Argument)) (base : CodePoints) (mode : ℤ) :
    Prop where
  base_absolute : posix.IsAbsolute base
  base_plain : IsPlain base
  mode_nonneg : 0 ≤ mode
  mode_le : mode ≤ 0o777
  path : ∀ file ∈ files, ∃ path, file.1 = .str path ∧ IsFilePath base path
  distinct : (locations files base).Nodup
  unnested : ∀ a ∈ locations files base, ∀ b ∈ locations files base, a <+: b → a = b
  count : files.length ≤ maxArchiveFiles
  size : (files.map fun file => byteLength file.2).sum ≤ maxFileBodyBytes

/-! ## Names -/

/-- The components of a path below `base_dir`. -/
def relative (base path : CodePoints) : List CodePoints :=
  (location base path).drop (home base).length

theorem up_mem_parts {path : CodePoints} :
    posix.up ∈ posix.parts path ↔ posix.up ∈ path.splitOn posix.sep := by
  rw [posix.mem_parts]
  exact and_iff_left ⟨by decide, by decide⟩

theorem containerPathParts_eq_ok {path : CodePoints} {what : String} {parts : List CodePoints} :
    containerPathParts path what = .ok parts ↔ IsPlain path ∧ posix.parts path = parts := by
  by_cases hcontrol : path.any isControl = true
  · have hnot : ¬ IsPlain path := by
      intro h
      rw [List.any_eq_true] at hcontrol
      obtain ⟨c, hc, hcontrol⟩ := hcontrol
      rw [h.noControl c hc] at hcontrol
      cases hcontrol
    simp [containerPathParts, hcontrol, hnot]
  · by_cases hup : posix.up ∈ posix.parts path
    · have hnot : ¬ IsPlain path := fun h => h.noUp (up_mem_parts.mp hup)
      simp [containerPathParts, hcontrol, hup, hnot]
    · have hplain : IsPlain path := by
        refine ⟨?_, fun h => hup (up_mem_parts.mpr h)⟩
        intro c hc
        by_contra h
        exact hcontrol (List.any_eq_true.mpr ⟨c, hc, by simpa using h⟩)
      simp [containerPathParts, hcontrol, hup, hplain]

namespace IsPlain

theorem up_notMem {path : CodePoints} (h : IsPlain path) : posix.up ∉ posix.parts path :=
  fun hup => h.noUp (up_mem_parts.mp hup)

theorem home_eq {base : CodePoints} (h : IsPlain base) : home base = posix.parts base := by
  rw [home, posix.resolve_eq h.up_notMem, ite_self, List.nil_append]

theorem location_eq {path : CodePoints} (h : IsPlain path) (base : CodePoints) :
    location base path = (if posix.IsAbsolute path then [] else home base) ++ posix.parts path :=
  posix.resolve_eq h.up_notMem _

end IsPlain

theorem location_of_absolute {base path : CodePoints} (h : posix.IsAbsolute path) :
    location base path = home path := by
  simp only [location, home, PathSyntax.resolve, h, if_true]

namespace IsFilePath

variable {base path : CodePoints}

/-- A file is below `base_dir`. -/
theorem home_append (h : IsFilePath base path) :
    home base ++ relative base path = location base path := by
  refine List.prefix_iff_eq_append.mp ?_
  by_cases habs : posix.IsAbsolute path
  · rw [location_of_absolute habs]
    exact h.under habs
  · rw [h.plain.location_eq, if_neg habs]
    exact List.prefix_append _ _

theorem relative_ne_nil (h : IsFilePath base path) : relative base path ≠ [] := by
  intro hnil
  have hloc := h.home_append
  rw [hnil, List.append_nil] at hloc
  exact h.ne_base hloc.symm

/-- The components of its name are components of its path. -/
theorem mem_parts_of_mem_relative (h : IsFilePath base path) {c : CodePoints}
    (hc : c ∈ relative base path) : c ∈ posix.parts path := by
  rw [relative, h.plain.location_eq] at hc
  by_cases habs : posix.IsAbsolute path
  · rw [if_pos habs, List.nil_append] at hc
    exact List.mem_of_mem_drop hc
  · rw [if_neg habs, List.drop_left] at hc
    exact hc

theorem isName_relative (h : IsFilePath base path) {c : CodePoints}
    (hc : c ∈ relative base path) : posix.IsName c :=
  posix.isName_of_mem_parts (h.mem_parts_of_mem_relative hc)

end IsFilePath

theorem relative_of_absolute {base path : CodePoints} (hbase : IsPlain base) (h : IsPlain path)
    (habs : posix.IsAbsolute path) :
    relative base path = (posix.parts path).drop (posix.parts base).length := by
  rw [relative, h.location_eq, if_pos habs, List.nil_append, hbase.home_eq]

theorem relative_of_not_absolute {path : CodePoints} (base : CodePoints) (h : IsPlain path)
    (habs : ¬ posix.IsAbsolute path) : relative base path = posix.parts path := by
  rw [relative, h.location_eq, if_neg habs, List.drop_left]

theorem relative_eq_nil_of_location {base path : CodePoints} (h : location base path = home base) :
    relative base path = [] := by
  rw [relative, h, List.drop_length]

/-- When a path gives a name, and which. -/
theorem memberName_eq_ok {base path name : CodePoints} (hbase : IsPlain base) :
    memberName base (posix.parts base) path = .ok name ↔
      IsFilePath base path ∧ posix.join (relative base path) = name := by
  by_cases hnil : path = []
  · have hnot : ¬ IsFilePath base path := fun h => h.ne_nil hnil
    simp [memberName, hnil, hnil ▸ hnot]
  by_cases hslash : path.getLast? = some posix.sep
  · have hnot : ¬ IsFilePath base path := fun h => h.noSlash hslash
    simp [memberName, hnil, hslash, hnot]
  by_cases hplain : IsPlain path
  · have hparts : containerPathParts path "file path" = .ok (posix.parts path) :=
      containerPathParts_eq_ok.mpr ⟨hplain, rfl⟩
    simp only [memberName, hnil, hslash, if_false, hparts, bind, Except.bind]
    by_cases habs : posix.IsAbsolute path
    · rw [if_pos habs, ← relative_of_absolute hbase hplain habs]
      by_cases hunder : (posix.parts path).take (posix.parts base).length = posix.parts base
      · by_cases hrel : relative base path = []
        · have hnot : ¬ IsFilePath base path := fun h => h.relative_ne_nil hrel
          simp [hunder, hrel, hnot]
        · have hfile : IsFilePath base path := by
            refine ⟨hnil, hslash, hplain, ?_, fun h => hrel (relative_eq_nil_of_location h)⟩
            intro _
            rw [hbase.home_eq, hplain.home_eq, List.prefix_iff_eq_take]
            exact hunder.symm
          simp [hunder, hrel, hfile]
      · have hnot : ¬ IsFilePath base path := by
          intro h
          have hbegins := h.under habs
          rw [hbase.home_eq, hplain.home_eq, List.prefix_iff_eq_take] at hbegins
          exact hunder hbegins.symm
        simp [hunder, hnot]
    · rw [if_neg habs, ← relative_of_not_absolute base hplain habs]
      by_cases hrel : relative base path = []
      · have hnot : ¬ IsFilePath base path := fun h => h.relative_ne_nil hrel
        simp [hrel, hnot]
      · have hfile : IsFilePath base path :=
          ⟨hnil, hslash, hplain, fun h => absurd h habs,
            fun h => hrel (relative_eq_nil_of_location h)⟩
        simp [hrel, hfile]
  · have hnot : ¬ IsFilePath base path := fun h => hplain h.plain
    have hparts : ∀ parts, containerPathParts path "file path" ≠ .ok parts :=
      fun _ h => hplain (containerPathParts_eq_ok.mp h).1
    cases hresult : containerPathParts path "file path" with
    | ok parts => exact absurd hresult (hparts parts)
    | error e => simp [memberName, hnil, hslash, hresult, hnot, bind, Except.bind]

/-! ## The loops -/

/-- What the first loop makes of a file. -/
def collected (base : CodePoints) (file : Argument × Argument) : NamedFile where
  name := posix.join (relative base file.1.text)
  path := file.1.text
  data := (payload file.2).getD []

/-- A file that passes on its own. -/
def IsFile (base : CodePoints) (file : Argument × Argument) : Prop :=
  (∃ path, file.1 = .str path ∧ IsFilePath base path) ∧ (payload file.2).isSome

def Collected.add (s : Collected) (f : NamedFile) : Collected :=
  ⟨s.named ++ [f], s.total + f.data.length⟩

theorem Collected.nodup_add {s : Collected} {f : NamedFile} :
    ((s.add f).named.map NamedFile.name).Nodup ↔
      (s.named.map NamedFile.name).Nodup ∧ f.name ∉ s.named.map NamedFile.name := by
  rw [Collected.add, List.map_append, List.nodup_append_comm]
  simp [and_comm]

theorem find?_name {named : List NamedFile} {name : CodePoints} :
    (named.find? fun f => f.name = name) = none ↔ name ∉ named.map NamedFile.name := by
  rw [List.find?_eq_none, List.mem_map]
  constructor
  · rintro h ⟨f, hf, hname⟩
    exact h f hf (by simpa using hname)
  · intro h f hf hname
    exact h ⟨f, hf, by simpa using hname⟩

/-- What the body of the first loop does. -/
theorem addFile_eq_ok {base : CodePoints} {s s' : Collected} {file : Argument × Argument}
    (hbase : IsPlain base) :
    addFile base (posix.parts base) s file = .ok s' ↔
      IsFile base file ∧ (collected base file).name ∉ s.named.map NamedFile.name ∧
        s.add (collected base file) = s' := by
  obtain ⟨value, content⟩ := file
  cases value with
  | str path =>
      cases hcontent : content.asContent with
      | none => simp [addFile, hcontent, IsFile, payload]
      | some c =>
          by_cases hpath : IsFilePath base path
          · have hname : memberName base (posix.parts base) path =
                .ok (posix.join (relative base path)) :=
              (memberName_eq_ok hbase).mpr ⟨hpath, rfl⟩
            simp only [addFile, hcontent, hname, bind, Except.bind]
            cases hfind : s.named.find? fun f => f.name = posix.join (relative base path) with
            | some first =>
                have hmem : ¬ posix.join (relative base path) ∉ s.named.map NamedFile.name := by
                  intro h
                  rw [find?_name.mpr h] at hfind
                  cases hfind
                exact iff_of_false (fun h => nomatch h) fun h => hmem h.2.1
            | none =>
                have hnew := find?_name.mp hfind
                cases hdata : bytesPayload c with
                | error e =>
                    have hnot : ¬ IsFile base (.str path, content) := by
                      intro h
                      have hsome := h.2
                      simp only [payload, hcontent, Option.bind_some, hdata] at hsome
                      cases hsome
                    exact iff_of_false (fun h => nomatch h) fun h => hnot h.1
                | ok data =>
                    have hpayload : payload content = some data := by
                      simp only [payload, hcontent, Option.bind_some, hdata, Except.toOption]
                    have hfile : IsFile base (.str path, content) :=
                      ⟨⟨path, rfl, hpath⟩, by rw [hpayload]; rfl⟩
                    have hcollected : collected base (.str path, content) =
                        ⟨posix.join (relative base path), path, data⟩ := by
                      simp only [collected, Argument.text, hpayload, Option.getD_some]
                    rw [hcollected, Except.ok.injEq]
                    exact ⟨fun h => ⟨hfile, hnew, h⟩, fun h => h.2.2⟩
          · have hnot : ¬ IsFile base (.str path, content) := by
              rintro ⟨⟨other, hother, h⟩, -⟩
              rw [← Argument.str.inj hother] at h
              exact hpath h
            cases hname : memberName base (posix.parts base) path with
            | ok name => exact absurd ((memberName_eq_ok hbase).mp hname).1 hpath
            | error e => simp [addFile, hcontent, hname, hnot, bind, Except.bind]
  | _ => simp [addFile, IsFile]

/-- What the first loop does, from where there are no two files of one name. -/
theorem foldlM_addFile_eq_ok {base : CodePoints} (hbase : IsPlain base)
    (files : List (Argument × Argument)) {s s' : Collected}
    (hs : (s.named.map NamedFile.name).Nodup) :
    files.foldlM (addFile base (posix.parts base)) s = .ok s' ↔
      (∀ file ∈ files, IsFile base file) ∧
        ((s.named ++ files.map (collected base)).map NamedFile.name).Nodup ∧
        (⟨s.named ++ files.map (collected base),
          s.total + (files.map fun file => (collected base file).data.length).sum⟩ :
            Collected) = s' := by
  induction files generalizing s with
  | nil =>
      simp only [List.foldlM_nil, List.map_nil, List.append_nil, List.sum_nil, Nat.add_zero]
      constructor
      · intro h
        exact ⟨fun _ h => absurd h List.not_mem_nil, hs, Except.ok.inj h⟩
      · rintro ⟨-, -, rfl⟩
        rfl
  | cons file files ih =>
      rw [List.foldlM_cons]
      have hassoc : s.named ++ (file :: files).map (collected base) =
          (s.add (collected base file)).named ++ files.map (collected base) := by
        simp [Collected.add]
      have htotal : s.total + ((file :: files).map fun file =>
          (collected base file).data.length).sum =
            (s.add (collected base file)).total +
              (files.map fun file => (collected base file).data.length).sum := by
        simp [Collected.add, Nat.add_assoc]
      rw [hassoc, htotal, List.forall_mem_cons]
      constructor
      · intro h
        obtain ⟨next, hstep, hrest⟩ := bind_eq_ok h
        obtain ⟨hfile, hnew, rfl⟩ := (addFile_eq_ok hbase).mp hstep
        have hnodup := Collected.nodup_add.mpr ⟨hs, hnew⟩
        obtain ⟨hfiles, hall, heq⟩ := (ih hnodup).mp hrest
        exact ⟨⟨hfile, hfiles⟩, hall, heq⟩
      · rintro ⟨⟨hfile, hfiles⟩, hall, heq⟩
        have hnodup : ((s.add (collected base file)).named.map NamedFile.name).Nodup := by
          rw [List.map_append] at hall
          exact (List.nodup_append.mp hall).1
        have hnew := (Collected.nodup_add.mp hnodup).2
        have hstep := (addFile_eq_ok (s := s) hbase).mpr ⟨hfile, hnew, rfl⟩
        rw [hstep]
        exact (ih hnodup).mpr ⟨hfiles, hall, heq⟩

/-- What the first loop makes of all the files. -/
theorem collect_eq_ok {base : CodePoints} (hbase : IsPlain base)
    {files : List (Argument × Argument)} {s : Collected} :
    files.foldlM (addFile base (posix.parts base)) {} = .ok s ↔
      (∀ file ∈ files, IsFile base file) ∧
        ((files.map (collected base)).map NamedFile.name).Nodup ∧
        (⟨files.map (collected base), (files.map fun file => byteLength file.2).sum⟩ :
          Collected) = s := by
  rw [foldlM_addFile_eq_ok (s := {}) hbase files List.nodup_nil, List.nil_append, Nat.zero_add]
  rfl

theorem forM_eq_ok {ε α : Type} {l : List α} {f : α → Except ε Unit} :
    l.forM f = .ok () ↔ ∀ a ∈ l, f a = .ok () := by
  induction l with
  | nil => exact iff_of_true rfl fun _ h => absurd h List.not_mem_nil
  | cons a l ih =>
      rw [List.forall_mem_cons, ← ih]
      constructor
      · intro h
        obtain ⟨⟨⟩, ha, hl⟩ := bind_eq_ok (f := fun _ => l.forM f) h
        exact ⟨ha, hl⟩
      · rintro ⟨ha, hl⟩
        show (f a >>= fun _ => l.forM f) = .ok ()
        rw [ha]
        exact hl

/-- The second loop finds every proper prefix that is a name. -/
theorem checkParents_eq_ok_iff_take {named : List NamedFile} :
    checkParents named = .ok () ↔
      ∀ f ∈ named, ∀ depth, 1 ≤ depth → depth < (f.name.splitOn posix.sep).length →
        posix.join ((f.name.splitOn posix.sep).take depth) ∉ named.map NamedFile.name := by
  rw [checkParents, forM_eq_ok]
  refine forall₂_congr fun f _ => ?_
  rw [forM_eq_ok]
  refine forall_congr' fun depth => ?_
  rw [List.mem_range'_1, and_imp, ← find?_name]
  refine forall_congr' fun hone => ?_
  have hlen : depth < 1 + ((f.name.splitOn posix.sep).length - 1) ↔
      depth < (f.name.splitOn posix.sep).length := by
    omega
  rw [hlen]
  refine forall_congr' fun _ => ?_
  cases named.find? fun parent =>
      parent.name = posix.join ((f.name.splitOn posix.sep).take depth) with
  | none => exact iff_of_true rfl rfl
  | some parent => exact iff_of_false (fun h => nomatch h) fun h => nomatch h

namespace IsFilePath

variable {base path other : CodePoints}

theorem join_relative_inj (h : IsFilePath base path) (h' : IsFilePath base other)
    (heq : posix.join (relative base path) = posix.join (relative base other)) :
    relative base path = relative base other :=
  posix.join_injOn (fun _ hc => h.isName_relative hc) (fun _ hc => h'.isName_relative hc) heq

theorem location_prefix_iff (h : IsFilePath base path) (h' : IsFilePath base other) :
    location base path <+: location base other ↔ relative base path <+: relative base other := by
  rw [← h.home_append, ← h'.home_append, List.prefix_append_right_inj]

theorem location_eq_iff (h : IsFilePath base path) (h' : IsFilePath base other) :
    location base path = location base other ↔ relative base path = relative base other := by
  rw [← h.home_append, ← h'.home_append, List.append_right_inj]

end IsFilePath

/-- The second loop finds nothing where no file is below another. -/
theorem checkParents_eq_ok {base : CodePoints} {files : List (Argument × Argument)}
    (h : ∀ file ∈ files, IsFilePath base file.1.text) :
    checkParents (files.map (collected base)) = .ok () ↔
      ∀ a ∈ locations files base, ∀ b ∈ locations files base, a <+: b → a = b := by
  rw [checkParents_eq_ok_iff_take]
  simp only [locations, List.forall_mem_map]
  constructor
  · intro hnone x hx y hy hbegins
    rw [(h x hx).location_prefix_iff (h y hy)] at hbegins
    rw [(h x hx).location_eq_iff (h y hy)]
    by_contra hne
    have hsplit : (collected base y).name.splitOn posix.sep = relative base y.1.text :=
      posix.splitOn_join (fun _ hc => (h y hy).isName_relative hc) (h y hy).relative_ne_nil
    have hlt : (relative base x.1.text).length < (relative base y.1.text).length :=
      lt_of_le_of_ne hbegins.length_le fun hlen => hne (hbegins.eq_of_length hlen)
    have hpos : 1 ≤ (relative base x.1.text).length :=
      List.length_pos_iff.mpr (h x hx).relative_ne_nil
    have hfound := hnone y hy _ hpos (by rw [hsplit]; exact hlt)
    rw [hsplit, ← List.prefix_iff_eq_take.mp hbegins] at hfound
    exact hfound (List.mem_map_of_mem (List.mem_map_of_mem hx))
  · intro hunnested y hy depth hpos hdepth hmem
    have hsplit : (collected base y).name.splitOn posix.sep = relative base y.1.text :=
      posix.splitOn_join (fun _ hc => (h y hy).isName_relative hc) (h y hy).relative_ne_nil
    rw [hsplit] at hdepth hmem
    rw [List.map_map, List.mem_map] at hmem
    obtain ⟨x, hx, hname⟩ := hmem
    have htake : relative base x.1.text = (relative base y.1.text).take depth :=
      posix.join_injOn (fun _ hc => (h x hx).isName_relative hc)
        (fun _ hc => (h y hy).isName_relative (List.mem_of_mem_take hc)) hname
    have hbegins : relative base x.1.text <+: relative base y.1.text :=
      htake ▸ List.take_prefix _ _
    have heq := hunnested x hx y hy (((h x hx).location_prefix_iff (h y hy)).mpr hbegins)
    rw [(h x hx).location_eq_iff (h y hy), htake] at heq
    have hlen := congrArg List.length heq
    rw [List.length_take] at hlen
    omega

/-! ## When `_file_archive` succeeds -/

theorem permissionMode_eq_ok {value : Argument} {n : ℤ} :
    permissionMode value = .ok n ↔ value = .int n ∧ 0 ≤ n ∧ n ≤ 0o777 := by
  cases value with
  | int m =>
      by_cases hm : 0 ≤ m ∧ m ≤ 0o777
      · rw [permissionMode, if_pos hm, Except.ok.injEq, Argument.int.injEq]
        constructor
        · rintro rfl
          exact ⟨rfl, hm⟩
        · exact fun h => h.1
      · rw [permissionMode, if_neg hm, Argument.int.injEq]
        refine iff_of_false (fun h => nomatch h) ?_
        rintro ⟨rfl, h⟩
        exact hm h
  | _ => simp [permissionMode]

/-- Two files have one name where they have one location. -/
theorem nodup_names_iff {base : CodePoints} {files : List (Argument × Argument)}
    (h : ∀ file ∈ files, IsFilePath base file.1.text) :
    ((files.map (collected base)).map NamedFile.name).Nodup ↔ (locations files base).Nodup := by
  have hnames : (files.map (collected base)).map NamedFile.name =
      (files.map fun file => relative base file.1.text).map posix.join := by
    simp [collected]
  have hlocations : locations files base =
      (files.map fun file => relative base file.1.text).map (home base ++ ·) := by
    rw [locations, List.map_map]
    exact List.map_congr_left fun file hfile => (h file hfile).home_append.symm
  have hjoin : ∀ a ∈ files.map fun file => relative base file.1.text,
      ∀ b ∈ files.map fun file => relative base file.1.text,
        posix.join a = posix.join b → a = b := by
    simp only [List.forall_mem_map]
    exact fun x hx y hy heq => (h x hx).join_relative_inj (h y hy) heq
  rw [hnames, hlocations, List.nodup_map_iff (List.append_right_injective _)]
  exact ⟨List.Nodup.of_map _, fun hnodup => hnodup.map_on hjoin⟩

/-- The archive of files that pass. -/
def assembled (files : List (Argument × Argument)) (base : CodePoints) (mode : ℤ) :
    FileArchive where
  baseDir := posix.sep :: posix.join (home base)
  members := sortedMembers (files.map (collected base))
  mode
  totalBytes := (files.map fun file => byteLength file.2).sum

theorem forall_isFile_iff {base : CodePoints} {files : List (Argument × Argument)} :
    (∀ file ∈ files, IsFile base file) ↔
      (∀ file ∈ files, ∃ path, file.1 = .str path ∧ IsFilePath base path) ∧
        ∀ file ∈ files, (payload file.2).isSome := by
  exact forall₂_and

theorem isFilePath_text {base : CodePoints} {file : Argument × Argument}
    (h : ∃ path, file.1 = .str path ∧ IsFilePath base path) : IsFilePath base file.1.text := by
  obtain ⟨path, hpath, h⟩ := h
  rw [hpath]
  exact h

/-- When `_file_archive` succeeds, and with what. -/
theorem fileArchive_eq_ok_iff {files : List (Argument × Argument)} {base : CodePoints}
    {value : Argument} {archive : FileArchive} :
    fileArchive files (.str base) value = .ok archive ↔
      ∃ mode, value = .int mode ∧ Acceptable files base mode ∧
        (∀ file ∈ files, (payload file.2).isSome) ∧ assembled files base mode = archive := by
  constructor
  · intro h
    simp only [fileArchive] at h
    by_cases habs : posix.IsAbsolute base
    · rw [if_pos habs] at h
      obtain ⟨parts, hparts, hafter⟩ := bind_eq_ok h
      obtain ⟨mode, hmode, hcounted⟩ := bind_eq_ok hafter
      have hbase := (containerPathParts_eq_ok.mp hparts).1
      have hvalue := permissionMode_eq_ok.mp hmode
      rw [← (containerPathParts_eq_ok.mp hparts).2] at hcounted
      by_cases hcount : files.length > maxArchiveFiles
      · rw [if_pos hcount] at hcounted
        cases hcounted
      rw [if_neg hcount] at hcounted
      obtain ⟨s, hs, hsized⟩ := bind_eq_ok hcounted
      obtain ⟨hfiles, hnodup, rfl⟩ := (collect_eq_ok hbase).mp hs
      rw [forall_isFile_iff] at hfiles
      have hpaths : ∀ file ∈ files, IsFilePath base file.1.text :=
        fun file hfile => isFilePath_text (hfiles.1 file hfile)
      by_cases hsize : (files.map fun file => byteLength file.2).sum > maxFileBodyBytes
      · rw [if_pos hsize] at hsized
        cases hsized
      rw [if_neg hsize] at hsized
      obtain ⟨_, hparents, hdone⟩ := bind_eq_ok hsized
      refine ⟨mode, hvalue.1, ?_, hfiles.2, ?_⟩
      · exact {
          base_absolute := habs
          base_plain := hbase
          mode_nonneg := hvalue.2.1
          mode_le := hvalue.2.2
          path := hfiles.1
          distinct := (nodup_names_iff hpaths).mp hnodup
          unnested := (checkParents_eq_ok hpaths).mp hparents
          count := not_lt.mp hcount
          size := not_lt.mp hsize }
      · rw [← Except.ok.inj hdone, ← hbase.home_eq]
        rfl
    · rw [if_neg habs] at h
      cases h
  · rintro ⟨mode, rfl, h, hcontents, rfl⟩
    have hpaths : ∀ file ∈ files, IsFilePath base file.1.text :=
      fun file hfile => isFilePath_text (h.path file hfile)
    have hparts : containerPathParts base "base_dir" = .ok (posix.parts base) :=
      containerPathParts_eq_ok.mpr ⟨h.base_plain, rfl⟩
    have hmode := permissionMode_eq_ok.mpr ⟨rfl, h.mode_nonneg, h.mode_le⟩
    have hloop := (collect_eq_ok h.base_plain).mpr
      ⟨forall_isFile_iff.mpr ⟨h.path, hcontents⟩, (nodup_names_iff hpaths).mpr h.distinct, rfl⟩
    have hparents := (checkParents_eq_ok hpaths).mpr h.unnested
    simp only [fileArchive, if_pos h.base_absolute, hparts, hmode, if_neg (not_lt.mpr h.count),
      hloop, if_neg (not_lt.mpr h.size), hparents, bind, Except.bind]
    rw [← h.base_plain.home_eq]
    rfl

end UcloudSandboxes.Client
