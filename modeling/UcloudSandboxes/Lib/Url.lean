import Mathlib.Data.List.Basic

/-!
# Paths of URLs

The parts of a URL, percent-encoding, and the removal of dot segments, as RFC 3986 has them. A
segment that is percent-encoded octet by octet has no reserved character, so that it splits no
path; but the encoding leaves `.` and `..` as they are, and these are no segments of a path that was
normalised.

## Main results

* `percentDecode_percentEncode`: the encoding can be read back.
* `parse_append`: a text without `?` and `#` is part of the path.
* `removeDots_append`: segments that are no dot segments stay.
* `length_removeDots_lt`: one dot segment before the end is enough for the path to get shorter.
-/
namespace UcloudSandboxes.Lib.Url

abbrev Text := List Char

/-! ## Percent-encoding -/

/-- `unreserved`. -/
def isUnreserved (c : Char) : Bool :=
  c.isAlphanum || c = '-' || c = '.' || c = '_' || c = '~'

/-- A hexadecimal digit, in upper case. -/
def hexUpper (n : ℕ) : Char := Char.ofNat (if n < 10 then '0'.toNat + n else 'A'.toNat + (n - 10))

/-- The value of a hexadecimal digit. -/
def hexDigitValue (c : Char) : Option ℕ :=
  if '0' ≤ c ∧ c ≤ '9' then some (c.toNat - '0'.toNat)
  else if 'A' ≤ c ∧ c ≤ 'F' then some (c.toNat - 'A'.toNat + 10)
  else if 'a' ≤ c ∧ c ≤ 'f' then some (c.toNat - 'a'.toNat + 10)
  else none

/-- One octet: an unreserved character stands for itself. -/
def encodeOctet (b : UInt8) : Text :=
  if isUnreserved (Char.ofNat b.toNat) then [Char.ofNat b.toNat]
  else ['%', hexUpper (b.toNat / 16), hexUpper (b.toNat % 16)]

def percentEncode (octets : List UInt8) : Text := octets.flatMap encodeOctet

/-- The octets of a text in ASCII; `none` for a `%` without two digits. -/
def percentDecode : Text → Option (List UInt8)
  | [] => some []
  | '%' :: high :: low :: rest =>
      match hexDigitValue high, hexDigitValue low, percentDecode rest with
      | some h, some l, some octets => some (UInt8.ofNat (16 * h + l) :: octets)
      | _, _, _ => none
  | c :: rest =>
      if c = '%' then none
      else (percentDecode rest).map fun octets => UInt8.ofNat c.toNat :: octets

theorem hexDigitValue_hexUpper {n : ℕ} (h : n < 16) : hexDigitValue (hexUpper n) = some n := by
  have hall : ∀ k < 16, hexDigitValue (hexUpper k) = some k := by decide
  exact hall n h

theorem toNat_octet (b : UInt8) : (Char.ofNat b.toNat).toNat = b.toNat := by
  have hlt := b.toNat_lt
  have hvalid : b.toNat.isValidChar := .inl (by omega)
  rw [Char.ofNat, dif_pos hvalid]
  rfl

/-- An octet can be read back. -/
theorem percentDecode_octet (b : UInt8) (rest : Text) :
    percentDecode (encodeOctet b ++ rest) = (percentDecode rest).map fun octets => b :: octets := by
  simp only [encodeOctet]
  by_cases h : isUnreserved (Char.ofNat b.toNat) = true
  · have hne : Char.ofNat b.toNat ≠ '%' := by
      intro hpercent
      rw [hpercent] at h
      revert h
      decide
    rw [if_pos h, List.singleton_append, percentDecode.eq_3]
    · rw [if_neg hne, toNat_octet, UInt8.ofNat_toNat]
    · intro high low rest' hpercent
      exact absurd hpercent hne
  · have hlt := b.toNat_lt
    have hhigh : b.toNat / 16 < 16 := by omega
    have hlow : b.toNat % 16 < 16 := by omega
    have hvalue : 16 * (b.toNat / 16) + b.toNat % 16 = b.toNat := by omega
    rw [if_neg h]
    simp only [List.cons_append, List.nil_append, percentDecode, hexDigitValue_hexUpper hhigh,
      hexDigitValue_hexUpper hlow]
    cases percentDecode rest with
    | none => rfl
    | some octets => simp only [hvalue, UInt8.ofNat_toNat, Option.map_some]

/-- **Percent-encoding can be read back.** -/
theorem percentDecode_percentEncode (octets : List UInt8) :
    percentDecode (percentEncode octets) = some octets := by
  induction octets with
  | nil => rfl
  | cons b octets ih =>
      simp only [percentEncode] at ih
      rw [percentEncode, List.flatMap_cons, percentDecode_octet, ih]
      rfl

/-- No reserved character is left. -/
theorem percentEncode_chars {octets : List UInt8} {c : Char} (h : c ∈ percentEncode octets) :
    isUnreserved c = true ∨ c = '%' := by
  obtain ⟨b, -, hc⟩ := List.mem_flatMap.mp h
  simp only [encodeOctet] at hc
  by_cases hb : isUnreserved (Char.ofNat b.toNat) = true
  · rw [if_pos hb, List.mem_singleton] at hc
    exact .inl (hc ▸ hb)
  · have hlt := b.toNat_lt
    have hdigit : ∀ k < 16, isUnreserved (hexUpper k) = true := by decide
    rw [if_neg hb] at hc
    simp only [List.mem_cons, List.not_mem_nil, or_false] at hc
    rcases hc with rfl | rfl | rfl
    · exact .inr rfl
    · exact .inl (hdigit _ (by omega))
    · exact .inl (hdigit _ (by omega))

theorem not_mem_percentEncode {octets : List UInt8} {c : Char} (h : isUnreserved c = false)
    (hpercent : c ≠ '%') : c ∉ percentEncode octets := by
  intro hc
  rcases percentEncode_chars hc with hunreserved | hc
  · rw [h] at hunreserved
    cases hunreserved
  · exact hpercent hc

/-! ## The parts of a URL -/

/-- What stands before the first `c`, and what stands behind it. -/
def cut (c : Char) (text : Text) : Text × Option Text :=
  (text.takeWhile (· ≠ c), (text.dropWhile (· ≠ c)).tail?)

/-- The parts of a URL with an authority. -/
structure Parsed where
  scheme : Text
  authority : Text
  path : Text
  query : Option Text
  fragment : Option Text
  deriving DecidableEq, Repr

def parse (url : Text) : Parsed :=
  let front := cut '#' url
  let hierarchy := cut '?' front.1
  let schemed := cut ':' hierarchy.1
  let slashes := (schemed.2.getD []).drop 2
  { scheme := schemed.1
    authority := slashes.takeWhile (· ≠ '/')
    path := slashes.dropWhile (· ≠ '/')
    query := hierarchy.2
    fragment := front.2 }

theorem takeWhile_append_of_not_mem {c : Char} {a b : Text} (h : c ∉ a) :
    (a ++ b).takeWhile (· ≠ c) = a ++ b.takeWhile (· ≠ c) := by
  refine List.takeWhile_append_of_pos ?_
  intro x hx
  rw [decide_eq_true_eq]
  intro hxc
  exact h (hxc ▸ hx)

theorem dropWhile_append_of_not_mem {c : Char} {a b : Text} (h : c ∉ a) :
    (a ++ b).dropWhile (· ≠ c) = b.dropWhile (· ≠ c) := by
  refine List.dropWhile_append_of_pos ?_
  intro x hx
  rw [decide_eq_true_eq]
  intro hxc
  exact h (hxc ▸ hx)

/-- A text without `c` stands before the first `c`. -/
theorem cut_append {c : Char} {a : Text} (b : Text) (h : c ∉ a) :
    cut c (a ++ b) = (a ++ (cut c b).1, (cut c b).2) := by
  simp only [cut, takeWhile_append_of_not_mem h, dropWhile_append_of_not_mem h]

theorem cut_cons_self (c : Char) (b : Text) : cut c (c :: b) = ([], some b) := by
  simp [cut]

/-- A text that begins a path, or ends one: it is empty or begins with a `/`. -/
def Rooted (text : Text) : Prop := text = [] ∨ ∃ rest, text = '/' :: rest

/-- What begins with a `/` ends an authority. -/
theorem authority_append {authority path : Text} (h : '/' ∉ authority) (hpath : Rooted path) :
    (authority ++ path).takeWhile (· ≠ '/') = authority ∧
      (authority ++ path).dropWhile (· ≠ '/') = path := by
  rw [takeWhile_append_of_not_mem h, dropWhile_append_of_not_mem h]
  rcases hpath with rfl | ⟨rest, rfl⟩
  · exact ⟨List.append_nil _, rfl⟩
  · constructor
    · simp
    · simp

/-- **A text without `?` and `#`** is part of the path, and what follows has its parts. -/
theorem parse_append {scheme authority path rest : Text}
    (hscheme : ':' ∉ scheme ∧ '?' ∉ scheme ∧ '#' ∉ scheme)
    (hauthority : '/' ∉ authority ∧ '?' ∉ authority ∧ '#' ∉ authority)
    (hpath : '?' ∉ path ∧ '#' ∉ path) (hrooted : Rooted (path ++ (cut '?' (cut '#' rest).1).1)) :
    parse (scheme ++ [':', '/', '/'] ++ authority ++ path ++ rest) =
      { scheme, authority
        path := path ++ (cut '?' (cut '#' rest).1).1
        query := (cut '?' (cut '#' rest).1).2
        fragment := (cut '#' rest).2 } := by
  have hfragment : '#' ∉ scheme ++ [':', '/', '/'] ++ authority ++ path := by
    simp [hscheme.2.2, hauthority.2.2, hpath.2]
  have hquery : '?' ∉ scheme ++ [':', '/', '/'] ++ authority ++ path := by
    simp [hscheme.2.1, hauthority.2.1, hpath.1]
  simp only [parse, cut_append rest hfragment, cut_append _ hquery]
  generalize (cut '?' (cut '#' rest).1).1 = suffix at hrooted
  have hschemed : cut ':' (scheme ++ [':', '/', '/'] ++ authority ++ path ++ suffix) =
      (scheme, some ('/' :: '/' :: (authority ++ (path ++ suffix)))) := by
    have hassoc : scheme ++ [':', '/', '/'] ++ authority ++ path ++ suffix =
        scheme ++ ':' :: '/' :: '/' :: (authority ++ (path ++ suffix)) := by simp
    rw [hassoc, cut_append _ hscheme.1, cut_cons_self, List.append_nil]
  obtain ⟨hbefore, hbehind⟩ := authority_append hauthority.1 hrooted
  simp only [hschemed, Option.getD_some, List.drop_succ_cons, List.drop_zero, hbefore, hbehind]

/-! ## Dot segments -/

/-- The segments of a path that is empty or begins with a `/`. -/
def segments (path : Text) : List Text := (path.splitOn '/').tail

theorem segments_append {path rest : Text} (h : Rooted rest) :
    segments (path ++ rest) = segments path ++ segments rest := by
  rcases h with rfl | ⟨rest, rfl⟩
  · simp [segments]
  · simp only [segments, List.splitOn_append_cons_self]
    have hroot : ('/' :: rest).splitOn '/' = [] :: rest.splitOn '/' := by
      simpa using List.splitOn_append_cons_self (a := '/') [] rest
    rw [hroot, List.tail_cons, List.tail_append_of_ne_nil (List.splitOn_ne_nil _ _)]

theorem segments_cons {segment : Text} (h : '/' ∉ segment) :
    segments ('/' :: segment) = [segment] := by
  have hroot : ('/' :: segment).splitOn '/' = [] :: segment.splitOn '/' := by
    simpa using List.splitOn_append_cons_self (a := '/') [] segment
  rw [segments, hroot, List.tail_cons]
  have hnoslash : ∀ c ∈ [segment], '/' ∉ c := by
    intro c hc
    rw [List.mem_singleton] at hc
    rw [hc]
    exact h
  have hsingle := List.splitOn_intercalate '/' hnoslash (List.cons_ne_nil _ _)
  simpa using hsingle

/-- The segments as they stand in a path. -/
def render (segs : List Text) : Text := segs.flatMap fun segment => '/' :: segment

theorem rooted_render (segs : List Text) : Rooted (render segs) := by
  cases segs with
  | nil => exact .inl rfl
  | cons segment rest => exact .inr ⟨_, rfl⟩

theorem Rooted.append {a b : Text} (ha : Rooted a) (hb : Rooted b) : Rooted (a ++ b) := by
  rcases ha with rfl | ⟨rest, rfl⟩
  · exact hb
  · exact .inr ⟨rest ++ b, rfl⟩

theorem segments_render {segs : List Text} (h : ∀ s ∈ segs, '/' ∉ s) :
    segments (render segs) = segs := by
  induction segs with
  | nil => simp [segments, render]
  | cons s rest ih =>
      have hs : '/' ∉ s := h s List.mem_cons_self
      have hrest := ih fun t ht => h t (List.mem_cons_of_mem _ ht)
      have hsplit : render (s :: rest) = '/' :: s ++ render rest := rfl
      rw [hsplit, segments_append (rooted_render rest), segments_cons hs, hrest]
      rfl

/-- `.` and `..`. -/
def IsDot (segment : Text) : Prop := segment = ['.'] ∨ segment = ['.', '.']

instance (segment : Text) : Decidable (IsDot segment) :=
  inferInstanceAs (Decidable (segment = ['.'] ∨ segment = ['.', '.']))

/-- `remove_dot_segments` behind segments that are in the output already. A dot segment at the end
leaves an empty one. -/
def removeDots : List Text → List Text → List Text
  | out, [] => out
  | out, [s] =>
      if s = ['.'] then out ++ [[]]
      else if s = ['.', '.'] then out.dropLast ++ [[]]
      else out ++ [s]
  | out, s :: t :: rest =>
      if s = ['.'] then removeDots out (t :: rest)
      else if s = ['.', '.'] then removeDots out.dropLast (t :: rest)
      else removeDots (out ++ [s]) (t :: rest)

/-- Where segments lead that are not the last ones. -/
def climb (out segs : List Text) : List Text :=
  segs.foldl (fun out s =>
    if s = ['.'] then out else if s = ['.', '.'] then out.dropLast else out ++ [s]) out

theorem removeDots_climb (out : List Text) {segs rest : List Text} (h : rest ≠ []) :
    removeDots out (segs ++ rest) = removeDots (climb out segs) rest := by
  induction segs generalizing out with
  | nil => rfl
  | cons s segs ih =>
      obtain ⟨t, tail, htail⟩ := List.exists_cons_of_ne_nil
        (show segs ++ rest ≠ [] by simp [h])
      rw [List.cons_append, htail, removeDots, climb, List.foldl_cons]
      rw [htail] at ih
      split_ifs
      · exact ih _
      · exact ih _
      · exact ih _

/-- **Segments that are no dot segments** stay. -/
theorem removeDots_append (out : List Text) {segs : List Text} (rest : List Text)
    (h : ∀ s ∈ segs, ¬ IsDot s) :
    removeDots out (segs ++ rest) = removeDots (out ++ segs) rest := by
  induction segs generalizing out with
  | nil => simp
  | cons s segs ih =>
      have hs := h s List.mem_cons_self
      simp only [IsDot, not_or] at hs
      have htail := ih (out ++ [s]) fun t ht => h t (List.mem_cons_of_mem _ ht)
      rw [List.append_assoc, List.singleton_append] at htail
      rw [← htail, List.cons_append]
      cases segs ++ rest with
      | nil => simp [removeDots, hs.1, hs.2]
      | cons t tail => simp [removeDots, hs.1, hs.2]

theorem length_removeDots_le (out segs : List Text) (h : segs ≠ []) :
    (removeDots out segs).length ≤ out.length + segs.length := by
  induction segs generalizing out with
  | nil => exact absurd rfl h
  | cons s segs ih =>
      cases segs with
      | nil =>
          simp only [removeDots]
          split_ifs
          · simp
          · simp
          · simp
      | cons t rest =>
          have hne : t :: rest ≠ [] := List.cons_ne_nil _ _
          simp only [removeDots]
          split_ifs
          · have hle := ih out hne
            simp only [List.length_cons] at hle ⊢
            omega
          · have hle := ih out.dropLast hne
            simp only [List.length_cons, List.length_dropLast] at hle ⊢
            omega
          · have hle := ih (out ++ [s]) hne
            simp only [List.length_cons, List.length_append, List.length_nil] at hle ⊢
            omega

/-- **A dot segment before the end** makes the path shorter. -/
theorem length_removeDots_lt (out segs : List Text) {rest : List Text} {s : Text} (hs : IsDot s)
    (hrest : rest ≠ []) :
    (removeDots out (segs ++ s :: rest)).length < out.length + (segs ++ s :: rest).length := by
  induction segs generalizing out with
  | nil =>
      obtain ⟨t, tail, rfl⟩ := List.exists_cons_of_ne_nil hrest
      rw [List.nil_append]
      rcases hs with rfl | rfl
      · have hle := length_removeDots_le out (t :: tail) hrest
        simp only [removeDots, if_true, List.length_cons] at hle ⊢
        omega
      · have hle := length_removeDots_le out.dropLast (t :: tail) hrest
        have hne : ¬ (['.', '.'] : Text) = ['.'] := by decide
        simp only [removeDots, if_neg hne, if_true, List.length_cons, List.length_dropLast]
          at hle ⊢
        omega
  | cons u segs ih =>
      obtain ⟨t, tail, htail⟩ := List.exists_cons_of_ne_nil
        (show segs ++ s :: rest ≠ [] by simp)
      rw [List.cons_append, htail]
      rw [htail] at ih
      simp only [removeDots]
      split_ifs
      · have hlt := ih out
        simp only [List.length_cons] at hlt ⊢
        omega
      · have hlt := ih out.dropLast
        simp only [List.length_cons, List.length_dropLast] at hlt ⊢
        omega
      · have hlt := ih (out ++ [u])
        simp only [List.length_cons, List.length_append, List.length_nil] at hlt ⊢
        omega

/-- A dot segment at the end leaves an empty one. -/
theorem getLast?_removeDots (out segs : List Text) {s : Text} (hs : IsDot s) :
    (removeDots out (segs ++ [s])).getLast? = some [] := by
  rw [removeDots_climb out (List.cons_ne_nil _ _)]
  rcases hs with rfl | rfl
  · simp [removeDots]
  · simp [removeDots]

end UcloudSandboxes.Lib.Url
