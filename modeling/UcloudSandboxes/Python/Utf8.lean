import UcloudSandboxes.Python.Value

/-!
# UTF-8

`str.encode("utf-8")` and `bytes.decode("utf-8")`, for texts without surrogates.
-/
namespace UcloudSandboxes.Python

/-- `text.encode("utf-8")`. -/
def utf8Encode (text : List Char) : Bytes := text.flatMap String.utf8EncodeChar

/-- `bytes.decode("utf-8")`; `none` is `UnicodeDecodeError`. -/
def utf8Decode (bytes : Bytes) : Option (List Char) :=
  bytes.toByteArray.utf8Decode?.map Array.toList

@[simp] theorem utf8Decode_utf8Encode (text : List Char) :
    utf8Decode (utf8Encode text) = some text := by
  have hdecode := List.utf8Decode?_utf8Encode (l := text)
  rw [List.utf8Encode] at hdecode
  rw [utf8Decode, utf8Encode, hdecode]
  rfl

/-- An ASCII character is its own byte. -/
theorem utf8EncodeChar_ascii {c : Char} (hc : c.toNat < 128) :
    String.utf8EncodeChar c = [UInt8.ofNat c.toNat] := by
  have hv : c.val.toNat ≤ 127 := Nat.le_of_lt_succ hc
  rw [String.utf8EncodeChar]
  exact if_pos hv

/-- A zero is the byte of the null character only. -/
theorem ne_zero_of_mem_utf8EncodeChar {c : Char} (hc : 0 < c.toNat) {b : UInt8}
    (hb : b ∈ String.utf8EncodeChar c) : b ≠ 0 := by
  have hnat : ∀ n, n % 256 ≠ 0 → UInt8.ofNat n ≠ 0 := by
    intro n hn h
    have hzero := congrArg UInt8.toNat h
    rw [UInt8.toNat_ofNat'] at hzero
    exact hn hzero
  have hv : 0 < c.val.toNat := hc
  simp only [String.utf8EncodeChar] at hb
  split_ifs at hb <;>
    simp only [List.mem_cons, List.not_mem_nil, or_false] at hb
  · subst hb
    exact hnat _ (by omega)
  · rcases hb with rfl | rfl <;> exact hnat _ (by omega)
  · rcases hb with rfl | rfl | rfl <;> exact hnat _ (by omega)
  · rcases hb with rfl | rfl | rfl | rfl <;> exact hnat _ (by omega)

end UcloudSandboxes.Python
