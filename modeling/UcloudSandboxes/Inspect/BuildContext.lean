import Mathlib.Data.List.Lex
import Mathlib.Data.List.Sort
import Mathlib.Data.Nat.Bitwise
import UcloudSandboxes.Python.Encode
import UcloudSandboxes.Python.FileNames

/-!
# Build contexts

`_build_context_fingerprint` hashes what it finds in the directory of a build context, and
`_tar_gz_directory` archives what it finds there. Both walk the same entries in the same order: the
symlinks, directories and regular files below the directory, sorted by their relative paths.

## Main definitions

* `Context`: a directory tree.
* `buildContextFingerprint`: the bytes that are hashed.
* `tarGzDirectory`: the members that are archived.

## Main results

* `path_inj`, `oct_inj`, `decimal_inj`: what is told by the bytes of a field.
-/
namespace UcloudSandboxes.Inspect
open Python

/-- A file name: bytes without `/` and without NUL. -/
@[ext] structure FileName where
  bytes : Bytes
  ne_nil : bytes ≠ []
  noSlash : 0x2F ∉ bytes
  noNul : 0 ∉ bytes

/-- A path below the directory of the context. -/
abbrev RelPath := List FileName

/-- `path.relative_to(context_path).as_posix()`. -/
def asPosix (path : RelPath) : CodePoints :=
  [0x2F].intercalate (path.map fun name => fsdecode name.bytes)

/-- What is at a path, with its `st_mode`. Files with the same `inode` are hard links of one
file. -/
inductive Node
  | file (inode mode : ℕ) (content : Bytes)
  | directory (mode : ℕ)
  | symlink (mode : ℕ) (target : Bytes) (noNul : 0 ∉ target)

structure Entry where
  path : RelPath
  node : Node
  ne_nil : path ≠ []

def Node.isDirectory : Node → Bool
  | .directory _ => true
  | _ => false

/-- A directory tree: what `rglob("*")` finds in it, in any order. -/
structure Context where
  entries : List Entry
  nodup : (entries.map Entry.path).Nodup
  parents : ∀ e ∈ entries, ∀ front back, e.path = front ++ back → front ≠ [] → back ≠ [] →
    ∃ d ∈ entries, d.path = front ∧ d.node.isDirectory = true
  linked : ∀ e ∈ entries, ∀ e' ∈ entries, ∀ i m c m' c', e.node = .file i m c →
    e'.node = .file i m' c' → m = m' ∧ c = c'

/-- `sorted(path.rglob("*"), key=..)`. -/
def Context.sorted (s : Context) : List Entry :=
  s.entries.insertionSort fun a b => asPosix a.path ≤ asPosix b.path

/-- `oct`. -/
def oct (n : ℕ) : CodePoints := codePoints "0o" ++ (Nat.toDigits 8 n).map Char.toNat

/-- `str` of a size. -/
def decimal (n : ℕ) : CodePoints := (Nat.toDigits 10 n).map Char.toNat

/-- `_hash_text`: what it adds to the digest. -/
def hashText (parts : List CodePoints) : Bytes := parts.flatMap fun part => fsencode part ++ [0]

/-- What else goes into the fingerprint. -/
structure BuildIdentity where
  dockerfile : String
  serviceName : String
  buildArgs : List (String × String)
  tag : String

/-- `BUILD_CACHE_VERSION`. -/
def buildCacheVersion : String := "ucloud-inspect-build-v1"

/-- `json.dumps(.., sort_keys=True, separators=(",", ":"))` of a `dict` whose keys are sorted, given
the texts of its values. -/
def dumpsCompact (items : List (String × String)) : String :=
  "\x7b" ++ ",".intercalate (items.map fun kv => dumpsText kv.1 ++ ":" ++ kv.2) ++ "\x7d"

/-- `_hash_json` of the identity: what it adds to the digest. -/
def hashIdentity (identity : BuildIdentity) : Bytes :=
  let args := identity.buildArgs.insertionSort fun a b => a.1 ≤ b.1
  let text := dumpsCompact
    [("build_args", dumpsCompact (args.map fun kv => (kv.1, dumpsText kv.2))),
      ("dockerfile", dumpsText identity.dockerfile),
      ("service_name", dumpsText identity.serviceName), ("tag", dumpsText identity.tag),
      ("version", dumpsText buildCacheVersion)]
  text.toUTF8.toList ++ [0]

/-- What the loop adds to the digest for one entry. -/
def hashEntry (e : Entry) : Bytes :=
  match e.node with
  | .symlink _ target _ => hashText [codePoints "symlink", asPosix e.path, fsdecode target]
  | .directory _ => []
  | .file _ mode content =>
      hashText [codePoints "file", asPosix e.path, oct (mode &&& 0o777), decimal content.length] ++
        content ++ [0]

/-- `_build_context_fingerprint`: what it feeds the digest. There is no context when its path leads
to no directory. -/
def buildContextFingerprint (identity : BuildIdentity) (contextPath : CodePoints) :
    Option Context → Bytes
  | none => hashIdentity identity ++ hashText [codePoints "missing-context", contextPath]
  | some s => hashIdentity identity ++ s.sorted.flatMap hashEntry

/-- The type of a tar member. -/
inductive MemberType
  | regular
  | directory
  | symlink
  | hardlink
  deriving DecidableEq

/-- A tar member. -/
structure Member where
  path : CodePoints
  type : MemberType
  mode : ℕ
  linkname : CodePoints
  content : Bytes
  deriving DecidableEq

/-- The members that `_tar_gz_directory` adds, with the names that `gettarinfo` has noted for the
files so far. -/
def addMembers (inodes : List (ℕ × CodePoints)) : List Entry → List Member
  | [] => []
  | e :: rest =>
      let name := asPosix e.path
      match e.node with
      | .file inode mode content =>
          match inodes.lookup inode with
          | some first => ⟨name, .hardlink, mode &&& 0o7777, first, []⟩ :: addMembers inodes rest
          | none =>
              ⟨name, .regular, mode &&& 0o7777, [], content⟩ ::
                addMembers ((inode, name) :: inodes) rest
      | .directory mode => ⟨name, .directory, mode &&& 0o7777, [], []⟩ :: addMembers inodes rest
      | .symlink mode target _ =>
          ⟨name, .symlink, mode &&& 0o7777, fsdecode target, []⟩ :: addMembers inodes rest

/-- `_tar_gz_directory`. -/
def tarGzDirectory (s : Context) : List Member := addMembers [] s.sorted

/-! ## The bytes of the fields -/

theorem fsencode_intercalate (sep : CodePoints) (parts : List CodePoints) :
    fsencode (sep.intercalate parts) = (fsencode sep).intercalate (parts.map fsencode) := by
  induction parts with
  | nil => rfl
  | cons part rest ih =>
      cases rest with
      | nil => simp [List.intercalate]
      | cons next rest =>
          rw [List.intercalate_cons_cons, fsencode_append, fsencode_append, ih, List.map_cons,
            List.map_cons, List.map_cons, List.intercalate_cons_cons]

/-- The bytes of a path. -/
theorem fsencode_asPosix (path : RelPath) :
    fsencode (asPosix path) = [0x2F].intercalate (path.map FileName.bytes) := by
  rw [asPosix, fsencode_intercalate, List.map_map]
  have hslash : fsencode [0x2F] = [0x2F] := by decide
  rw [hslash]
  congr 1
  exact List.map_congr_left fun name _ => fsencode_fsdecode name.bytes

theorem bytes_injective : Function.Injective FileName.bytes := fun _ _ => FileName.ext

/-- A path is determined by the bytes of its text. -/
theorem path_inj {p q : RelPath} (hp : p ≠ []) (hq : q ≠ [])
    (hbytes : fsencode (asPosix p) = fsencode (asPosix q)) : p = q := by
  have hsplit : ∀ path : RelPath, path ≠ [] →
      ([0x2F].intercalate (path.map FileName.bytes)).splitOn 0x2F = path.map FileName.bytes := by
    intro path hne
    refine List.splitOn_intercalate 0x2F ?_ (by simpa using hne)
    intro bytes hbytes
    obtain ⟨name, -, rfl⟩ := List.mem_map.mp hbytes
    exact name.noSlash
  rw [fsencode_asPosix, fsencode_asPosix] at hbytes
  have hnames := congrArg (List.splitOn 0x2F) hbytes
  rw [hsplit p hp, hsplit q hq] at hnames
  exact List.map_injective_iff.mpr bytes_injective hnames

theorem zero_notMem_asPosix (path : RelPath) : 0 ∉ fsencode (asPosix path) := by
  rw [fsencode_asPosix]
  induction path with
  | nil => simp [List.intercalate]
  | cons name rest ih =>
      cases rest with
      | nil => simpa [List.intercalate] using name.noNul
      | cons next rest =>
          rw [List.map_cons, List.map_cons, List.intercalate_cons_cons]
          simp only [List.mem_append, List.mem_singleton, not_or]
          exact ⟨⟨name.noNul, by decide⟩, ih⟩

/-- A text in ASCII can be read off its bytes. -/
theorem toNat_fsencode {text : CodePoints} (h : ∀ n ∈ text, n < 128) :
    (fsencode text).map UInt8.toNat = text := by
  induction text with
  | nil => rfl
  | cons n rest ih =>
      have hn : n < 128 := h n List.mem_cons_self
      have hbyte : (UInt8.ofNat n).toNat = n := by
        rw [UInt8.toNat_ofNat']
        omega
      rw [fsencode_cons, List.map_append, ih fun m hm => h m (List.mem_cons_of_mem _ hm)]
      simp [encodePoint, hn, hbyte]

/-- The digits of a number in a base up to ten. -/
theorem digits_range {b n : ℕ} (hb : 1 < b) (hb' : b ≤ 10) :
    ∀ m ∈ (Nat.toDigits b n).map Char.toNat, 48 ≤ m ∧ m < 128 := by
  intro m hm
  obtain ⟨c, hc, rfl⟩ := List.mem_map.mp hm
  have hdigit := Nat.isDigit_of_mem_toDigits (by omega) hb' hc
  simp only [Char.isDigit, Bool.and_eq_true, decide_eq_true_eq] at hdigit
  have hlow : 48 ≤ c.toNat := hdigit.1
  have hhigh : c.toNat ≤ 57 := hdigit.2
  omega

theorem digits_injective {b m n : ℕ} (hb : 1 < b) (hb' : b ≤ 10)
    (h : (Nat.toDigits b m).map Char.toNat = (Nat.toDigits b n).map Char.toNat) : m = n := by
  have hchars : Nat.toDigits b m = Nat.toDigits b n :=
    List.map_injective_iff.mpr (fun _ _ => Char.toNat_inj.mp) h
  calc
    m = Nat.ofDigitChars b (Nat.toDigits b m) 0 := (Nat.ofDigitChars_toDigits hb hb').symm
    _ = Nat.ofDigitChars b (Nat.toDigits b n) 0 := by rw [hchars]
    _ = n := Nat.ofDigitChars_toDigits hb hb'

theorem decimal_range (n : ℕ) : ∀ m ∈ decimal n, 48 ≤ m ∧ m < 128 :=
  digits_range (by decide) (by decide)

theorem oct_range (n : ℕ) : ∀ m ∈ oct n, 48 ≤ m ∧ m < 128 := by
  intro m hm
  rw [oct, List.mem_append] at hm
  rcases hm with hm | hm
  · have hsign : ∀ k ∈ codePoints "0o", 48 ≤ k ∧ k < 128 := by decide
    exact hsign m hm
  · exact digits_range (by decide) (by decide) m hm

/-- A text of printable ASCII has no NUL. -/
theorem zero_notMem_ascii {text : CodePoints} (h : ∀ n ∈ text, 48 ≤ n ∧ n < 128) :
    0 ∉ fsencode text := by
  intro hmem
  have hzero : 0 ∈ (fsencode text).map UInt8.toNat := List.mem_map_of_mem hmem
  rw [toNat_fsencode fun n hn => (h n hn).2] at hzero
  exact absurd (h 0 hzero).1 (by decide)

theorem fsencode_ascii_inj {a b : CodePoints} (ha : ∀ n ∈ a, 48 ≤ n ∧ n < 128)
    (hb : ∀ n ∈ b, 48 ≤ n ∧ n < 128) (h : fsencode a = fsencode b) : a = b := by
  rw [← toNat_fsencode fun n hn => (ha n hn).2, ← toNat_fsencode fun n hn => (hb n hn).2, h]

theorem decimal_inj {m n : ℕ} (h : fsencode (decimal m) = fsencode (decimal n)) : m = n :=
  digits_injective (by decide) (by decide)
    (fsencode_ascii_inj (decimal_range m) (decimal_range n) h)

theorem oct_inj {m n : ℕ} (h : fsencode (oct m) = fsencode (oct n)) : m = n :=
  digits_injective (by decide) (by decide)
    (List.append_cancel_left (fsencode_ascii_inj (oct_range m) (oct_range n) h))

end UcloudSandboxes.Inspect
