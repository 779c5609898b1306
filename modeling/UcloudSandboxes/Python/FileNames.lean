import Mathlib.Data.List.Basic
import UcloudSandboxes.Python.Value

/-!
# File names as texts

Python decodes the bytes of a file name with `os.fsdecode`: UTF-8, where a byte that is no part of a
well-formed sequence becomes the surrogate `U+DC00` plus the byte. A text is a list of code points
here, since Lean's characters exclude surrogates.

* `fsencode_fsdecode`: encoding gives the bytes of the name back.
-/
namespace UcloudSandboxes.Python

/-- A `str`. -/
abbrev CodePoints := List ℕ

/-- The code points of a text without surrogates. -/
def codePoints (text : String) : CodePoints := text.toList.map Char.toNat

/-- A byte that continues a sequence. -/
def isTail (b : UInt8) : Bool := 0x80 ≤ b.toNat && b.toNat ≤ 0xBF

/-- A well-formed sequence of two bytes. -/
def isTwo (a b : UInt8) : Bool := 0xC2 ≤ a.toNat && a.toNat ≤ 0xDF && isTail b

/-- A well-formed sequence of three bytes. -/
def isThree (a b c : UInt8) : Bool :=
  0xE0 ≤ a.toNat && a.toNat ≤ 0xEF && isTail b && isTail c &&
    (a.toNat != 0xE0 || 0xA0 ≤ b.toNat) && (a.toNat != 0xED || b.toNat ≤ 0x9F)

/-- A well-formed sequence of four bytes. -/
def isFour (a b c d : UInt8) : Bool :=
  0xF0 ≤ a.toNat && a.toNat ≤ 0xF4 && isTail b && isTail c && isTail d &&
    (a.toNat != 0xF0 || 0x90 ≤ b.toNat) && (a.toNat != 0xF4 || b.toNat ≤ 0x8F)

/-- A byte of its own: ASCII or escaped. -/
def pointOfOne (a : UInt8) : ℕ := if a.toNat < 0x80 then a.toNat else 0xDC00 + a.toNat

def pointOfTwo (a b : UInt8) : ℕ := (a.toNat - 0xC0) * 64 + (b.toNat - 0x80)

def pointOfThree (a b c : UInt8) : ℕ :=
  (a.toNat - 0xE0) * 4096 + (b.toNat - 0x80) * 64 + (c.toNat - 0x80)

def pointOfFour (a b c d : UInt8) : ℕ :=
  (a.toNat - 0xF0) * 262144 + (b.toNat - 0x80) * 4096 + (c.toNat - 0x80) * 64 + (d.toNat - 0x80)

/-- `os.fsdecode`. -/
def fsdecode : Bytes → CodePoints
  | a :: b :: c :: d :: rest =>
      if isFour a b c d then pointOfFour a b c d :: fsdecode rest
      else if isThree a b c then pointOfThree a b c :: fsdecode (d :: rest)
      else if isTwo a b then pointOfTwo a b :: fsdecode (c :: d :: rest)
      else pointOfOne a :: fsdecode (b :: c :: d :: rest)
  | [a, b, c] =>
      if isThree a b c then [pointOfThree a b c]
      else if isTwo a b then [pointOfTwo a b, pointOfOne c]
      else pointOfOne a :: fsdecode [b, c]
  | [a, b] => if isTwo a b then [pointOfTwo a b] else [pointOfOne a, pointOfOne b]
  | [a] => [pointOfOne a]
  | [] => []

/-- The bytes of one code point of a decoded name. -/
def encodePoint (n : ℕ) : Bytes :=
  if n < 0x80 then [UInt8.ofNat n]
  else if n < 0x800 then [UInt8.ofNat (0xC0 + n / 64), UInt8.ofNat (0x80 + n % 64)]
  else if 0xDC80 ≤ n ∧ n ≤ 0xDCFF then [UInt8.ofNat (n - 0xDC00)]
  else if n < 0x10000 then
    [UInt8.ofNat (0xE0 + n / 4096), UInt8.ofNat (0x80 + n / 64 % 64), UInt8.ofNat (0x80 + n % 64)]
  else
    [UInt8.ofNat (0xF0 + n / 262144), UInt8.ofNat (0x80 + n / 4096 % 64),
      UInt8.ofNat (0x80 + n / 64 % 64), UInt8.ofNat (0x80 + n % 64)]

/-- `text.encode("utf-8", "surrogateescape")`. -/
def fsencode (text : CodePoints) : Bytes := text.flatMap encodePoint

@[simp] theorem fsencode_nil : fsencode [] = [] := rfl
@[simp] theorem fsencode_cons (n : ℕ) (text : CodePoints) :
    fsencode (n :: text) = encodePoint n ++ fsencode text := rfl
@[simp] theorem fsencode_append (a b : CodePoints) :
    fsencode (a ++ b) = fsencode a ++ fsencode b := List.flatMap_append

/-- A byte of its own, as a number. -/
theorem encodePoint_one {a : ℕ} (ha : a < 256) :
    encodePoint (if a < 0x80 then a else 0xDC00 + a) = [UInt8.ofNat a] := by
  by_cases hascii : a < 0x80
  · simp [encodePoint, hascii]
  · have hlow : ¬ 0xDC00 + a < 0x80 := by omega
    have hmid : ¬ 0xDC00 + a < 0x800 := by omega
    have hescaped : 0xDC80 ≤ 0xDC00 + a ∧ 0xDC00 + a ≤ 0xDCFF := by omega
    simp only [encodePoint, hascii, hlow, hmid, hescaped, if_false, and_self, if_true]
    rw [Nat.add_sub_cancel_left]

theorem encodePoint_two {a b : ℕ} (ha : 0xC2 ≤ a) (ha' : a ≤ 0xDF) (hb : 0x80 ≤ b)
    (hb' : b ≤ 0xBF) :
    encodePoint ((a - 0xC0) * 64 + (b - 0x80)) = [UInt8.ofNat a, UInt8.ofNat b] := by
  have hlow : ¬ (a - 0xC0) * 64 + (b - 0x80) < 0x80 := by omega
  have hhigh : (a - 0xC0) * 64 + (b - 0x80) < 0x800 := by omega
  have hfirst : 0xC0 + ((a - 0xC0) * 64 + (b - 0x80)) / 64 = a := by omega
  have hsecond : 0x80 + ((a - 0xC0) * 64 + (b - 0x80)) % 64 = b := by omega
  simp only [encodePoint, hlow, hhigh, if_false, if_true, hfirst, hsecond]

theorem encodePoint_three {a b c : ℕ} (ha : 0xE0 ≤ a) (ha' : a ≤ 0xEF) (hb : 0x80 ≤ b)
    (hb' : b ≤ 0xBF) (hc : 0x80 ≤ c) (hc' : c ≤ 0xBF) (hlong : a ≠ 0xE0 ∨ 0xA0 ≤ b)
    (hsurrogate : a ≠ 0xED ∨ b ≤ 0x9F) :
    encodePoint ((a - 0xE0) * 4096 + (b - 0x80) * 64 + (c - 0x80)) =
      [UInt8.ofNat a, UInt8.ofNat b, UInt8.ofNat c] := by
  generalize hn : (a - 0xE0) * 4096 + (b - 0x80) * 64 + (c - 0x80) = n
  have hlow : ¬ n < 0x800 := by omega
  have hascii : ¬ n < 0x80 := by omega
  have hescaped : ¬ (0xDC80 ≤ n ∧ n ≤ 0xDCFF) := by omega
  have hhigh : n < 0x10000 := by omega
  have hfirst : 0xE0 + n / 4096 = a := by omega
  have hsecond : 0x80 + n / 64 % 64 = b := by omega
  have hthird : 0x80 + n % 64 = c := by omega
  simp only [encodePoint, hascii, hlow, hescaped, hhigh, if_false, if_true, hfirst, hsecond, hthird]

theorem encodePoint_four {a b c d : ℕ} (ha : 0xF0 ≤ a) (ha' : a ≤ 0xF4) (hb : 0x80 ≤ b)
    (hb' : b ≤ 0xBF) (hc : 0x80 ≤ c) (hc' : c ≤ 0xBF) (hd : 0x80 ≤ d) (hd' : d ≤ 0xBF)
    (hlong : a ≠ 0xF0 ∨ 0x90 ≤ b) :
    encodePoint ((a - 0xF0) * 262144 + (b - 0x80) * 4096 + (c - 0x80) * 64 + (d - 0x80)) =
      [UInt8.ofNat a, UInt8.ofNat b, UInt8.ofNat c, UInt8.ofNat d] := by
  generalize hn : (a - 0xF0) * 262144 + (b - 0x80) * 4096 + (c - 0x80) * 64 + (d - 0x80) = n
  have hhigh : ¬ n < 0x10000 := by omega
  have hlow : ¬ n < 0x800 := by omega
  have hascii : ¬ n < 0x80 := by omega
  have hescaped : ¬ (0xDC80 ≤ n ∧ n ≤ 0xDCFF) := by omega
  have hfirst : 0xF0 + n / 262144 = a := by omega
  have hsecond : 0x80 + n / 4096 % 64 = b := by omega
  have hthird : 0x80 + n / 64 % 64 = c := by omega
  have hfourth : 0x80 + n % 64 = d := by omega
  simp only [encodePoint, hascii, hlow, hescaped, hhigh, if_false, hfirst, hsecond, hthird, hfourth]

@[simp] theorem encode_pointOfOne (a : UInt8) : encodePoint (pointOfOne a) = [a] := by
  simp [pointOfOne, encodePoint_one a.toNat_lt]

theorem encode_pointOfTwo {a b : UInt8} (h : isTwo a b = true) :
    encodePoint (pointOfTwo a b) = [a, b] := by
  simp only [isTwo, isTail, Bool.and_eq_true, decide_eq_true_eq] at h
  have hbytes := encodePoint_two h.1.1 h.1.2 h.2.1 h.2.2
  simp only [UInt8.ofNat_toNat] at hbytes
  exact hbytes

theorem encode_pointOfThree {a b c : UInt8} (h : isThree a b c = true) :
    encodePoint (pointOfThree a b c) = [a, b, c] := by
  simp only [isThree, isTail, Bool.and_eq_true, Bool.or_eq_true, decide_eq_true_eq,
    bne_iff_ne] at h
  obtain ⟨⟨⟨⟨⟨ha, ha'⟩, hb, hb'⟩, hc, hc'⟩, hlong⟩, hsurrogate⟩ := h
  have hbytes := encodePoint_three ha ha' hb hb' hc hc' hlong hsurrogate
  simp only [UInt8.ofNat_toNat] at hbytes
  exact hbytes

theorem encode_pointOfFour {a b c d : UInt8} (h : isFour a b c d = true) :
    encodePoint (pointOfFour a b c d) = [a, b, c, d] := by
  simp only [isFour, isTail, Bool.and_eq_true, Bool.or_eq_true, decide_eq_true_eq,
    bne_iff_ne] at h
  obtain ⟨⟨⟨⟨⟨⟨ha, ha'⟩, hb, hb'⟩, hc, hc'⟩, hd, hd'⟩, hlong⟩, -⟩ := h
  have hbytes := encodePoint_four ha ha' hb hb' hc hc' hd hd' hlong
  simp only [UInt8.ofNat_toNat] at hbytes
  exact hbytes

/-- Encoding gives the bytes of a name back. -/
@[simp] theorem fsencode_fsdecode (name : Bytes) : fsencode (fsdecode name) = name := by
  fun_induction fsdecode name with
  | case1 a b c d rest h ih => simp [encode_pointOfFour h, ih]
  | case2 a b c d rest _ h ih => simp [encode_pointOfThree h, ih]
  | case3 a b c d rest _ _ h ih => simp [encode_pointOfTwo h, ih]
  | case4 a b c d rest _ _ _ ih => simp [ih]
  | case5 a b c h => simp [encode_pointOfThree h]
  | case6 a b c _ h => simp [encode_pointOfTwo h]
  | case7 a b c _ _ ih => simp [ih]
  | case8 a b h => simp [encode_pointOfTwo h]
  | case9 a b _ => simp
  | case10 a => simp
  | case11 => rfl

end UcloudSandboxes.Python
