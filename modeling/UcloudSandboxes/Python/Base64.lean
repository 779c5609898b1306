import UcloudSandboxes.Python.Encode

/-!
# Base 64

`base64.b64decode(text, validate=True)`. Four digits are three bytes, and the last group may be
filled up with `=`; the bits of its last digit that make no byte are dropped.

* `b64decode_b64encode`: what is encoded is decoded.
* `b64decode_isSome_iff`: which texts are decoded.
-/
namespace UcloudSandboxes.Python

/-- The value of a digit of base 64. -/
def base64Value (c : Char) : Option ℕ :=
  if 'A' ≤ c ∧ c ≤ 'Z' then some (c.toNat - 'A'.toNat)
  else if 'a' ≤ c ∧ c ≤ 'z' then some (c.toNat - 'a'.toNat + 26)
  else if '0' ≤ c ∧ c ≤ '9' then some (c.toNat - '0'.toNat + 52)
  else if c = '+' then some 62
  else if c = '/' then some 63
  else none

/-- The first byte of a group. -/
def byteOne (x y : ℕ) : UInt8 := UInt8.ofNat (x * 4 + y / 16)

/-- The second byte of a group. -/
def byteTwo (y z : ℕ) : UInt8 := UInt8.ofNat (y % 16 * 16 + z / 4)

/-- The third byte of a group. -/
def byteThree (z w : ℕ) : UInt8 := UInt8.ofNat (z % 4 * 64 + w)

/-- `base64.b64decode(text, validate=True)`; `none` is `binascii.Error`. -/
def b64decode : List Char → Option Bytes
  | [] => some []
  | a :: b :: c :: d :: rest =>
      if rest = [] ∧ d = '=' then
        if c = '=' then do
          let x ← base64Value a
          let y ← base64Value b
          return [byteOne x y]
        else do
          let x ← base64Value a
          let y ← base64Value b
          let z ← base64Value c
          return [byteOne x y, byteTwo y z]
      else do
        let x ← base64Value a
        let y ← base64Value b
        let z ← base64Value c
        let w ← base64Value d
        let bytes ← b64decode rest
        return byteOne x y :: byteTwo y z :: byteThree z w :: bytes
  | _ => none

/-- A digit of base 64. -/
def IsBase64Digit (c : Char) : Prop := (base64Value c).isSome = true

/-- Digits of base 64 in groups of four, the last one filled up with `=`. -/
def IsBase64 (text : List Char) : Prop :=
  ∃ ds pad, text = ds ++ pad ∧ (∀ d ∈ ds, IsBase64Digit d) ∧
    (pad = [] ∧ ds.length % 4 = 0 ∨ pad = ['=', '='] ∧ ds.length % 4 = 2 ∨
      pad = ['='] ∧ ds.length % 4 = 3)

theorem base64Value_base64Digit : ∀ n < 64, base64Value (base64Digit n) = some n := by
  decide +kernel

theorem base64Digit_ne_pad : ∀ n < 64, base64Digit n ≠ '=' := by decide +kernel

theorem not_isBase64Digit_pad : ¬IsBase64Digit '=' := by
  simp [IsBase64Digit, base64Value]

/-- A digit is an ASCII character. -/
theorem IsBase64Digit.ascii {c : Char} (h : IsBase64Digit c) : c.toNat < 128 := by
  by_contra hc
  have hval : ¬c.val.toNat < 128 := hc
  have hle : ∀ d : Char, d.toNat < 128 → ¬c ≤ d := by
    intro d hd hcd
    have hnat : c.val.toNat ≤ d.val.toNat := UInt32.le_iff_toNat_le.mp hcd
    have hd' : d.val.toNat < 128 := hd
    omega
  have hZ := hle 'Z' (by decide)
  have hz := hle 'z' (by decide)
  have h9 := hle '9' (by decide)
  have hplus : c ≠ '+' := by
    intro h
    subst h
    exact hc (by decide)
  have hslash : c ≠ '/' := by
    intro h
    subst h
    exact hc (by decide)
  simp [IsBase64Digit, base64Value, hZ, hz, h9, hplus, hslash] at h

theorem IsBase64.ascii {text : List Char} (h : IsBase64 text) : ∀ c ∈ text, c.toNat < 128 := by
  obtain ⟨ds, pad, rfl, hds, hpad⟩ := h
  intro c hc
  rcases List.mem_append.mp hc with hc | hc
  · exact (hds c hc).ascii
  · have hpadding : c = '=' := by
      rcases hpad with ⟨rfl, -⟩ | ⟨rfl, -⟩ | ⟨rfl, -⟩ <;> simp_all
    rw [hpadding]
    decide

/-- The digits of a first byte. -/
theorem byteOne_digits (a : UInt8) {k : ℕ} (hk : k < 16) :
    byteOne (a.toNat / 4) (a.toNat % 4 * 16 + k) = a := by
  have hsum : a.toNat / 4 * 4 + (a.toNat % 4 * 16 + k) / 16 = a.toNat := by omega
  rw [byteOne, hsum, UInt8.ofNat_toNat]

theorem byteTwo_digits (m : ℕ) (b : UInt8) {k : ℕ} (hk : k < 4) :
    byteTwo (m * 16 + b.toNat / 16) (b.toNat % 16 * 4 + k) = b := by
  have hb : b.toNat < 256 := b.toNat_lt
  have hsum : (m * 16 + b.toNat / 16) % 16 * 16 + (b.toNat % 16 * 4 + k) / 4 = b.toNat := by
    omega
  rw [byteTwo, hsum, UInt8.ofNat_toNat]

theorem byteThree_digits (m : ℕ) (c : UInt8) :
    byteThree (m * 4 + c.toNat / 64) (c.toNat % 64) = c := by
  have hc : c.toNat < 256 := c.toNat_lt
  have hsum : (m * 4 + c.toNat / 64) % 4 * 64 + c.toNat % 64 = c.toNat := by omega
  rw [byteThree, hsum, UInt8.ofNat_toNat]

/-- **What is encoded is decoded.** -/
theorem b64decode_b64encode (bytes : Bytes) : b64decode (b64encode bytes) = some bytes := by
  induction bytes using b64encode.induct with
  | case1 => rfl
  | case2 a =>
      have ha : a.toNat < 256 := a.toNat_lt
      have hbyte := byteOne_digits a (k := 0) (by omega)
      rw [Nat.add_zero] at hbyte
      simp [b64encode, b64decode, base64Value_base64Digit (a.toNat / 4) (by omega),
        base64Value_base64Digit (a.toNat % 4 * 16) (by omega), hbyte]
  | case3 a b =>
      have ha : a.toNat < 256 := a.toNat_lt
      have hb : b.toNat < 256 := b.toNat_lt
      have hfirst := byteOne_digits a (k := b.toNat / 16) (by omega)
      have hsecond := byteTwo_digits (a.toNat % 4) b (k := 0) (by omega)
      rw [Nat.add_zero] at hsecond
      simp [b64encode, b64decode, base64Digit_ne_pad (b.toNat % 16 * 4) (by omega),
        base64Value_base64Digit (a.toNat / 4) (by omega),
        base64Value_base64Digit (a.toNat % 4 * 16 + b.toNat / 16) (by omega),
        base64Value_base64Digit (b.toNat % 16 * 4) (by omega), hfirst, hsecond]
  | case4 a b c rest ih =>
      have ha : a.toNat < 256 := a.toNat_lt
      have hb : b.toNat < 256 := b.toNat_lt
      have hc : c.toNat < 256 := c.toNat_lt
      have hfirst := byteOne_digits a (k := b.toNat / 16) (by omega)
      have hsecond := byteTwo_digits (a.toNat % 4) b (k := c.toNat / 64) (by omega)
      have hthird := byteThree_digits (b.toNat % 16) c
      simp [b64encode, b64decode, base64Digit_ne_pad (c.toNat % 64) (by omega),
        base64Value_base64Digit (a.toNat / 4) (by omega),
        base64Value_base64Digit (a.toNat % 4 * 16 + b.toNat / 16) (by omega),
        base64Value_base64Digit (b.toNat % 16 * 4 + c.toNat / 64) (by omega),
        base64Value_base64Digit (c.toNat % 64) (by omega), hfirst, hsecond, hthird, ih]

/-- The groups of a text: full ones, and a last one that may be filled up. -/
theorem isBase64_cons (a b c d : Char) (rest : List Char) :
    IsBase64 (a :: b :: c :: d :: rest) ↔
      (rest = [] ∧ d = '=' ∧ IsBase64Digit a ∧ IsBase64Digit b ∧
        (c = '=' ∨ IsBase64Digit c)) ∨
      (IsBase64Digit a ∧ IsBase64Digit b ∧ IsBase64Digit c ∧ IsBase64Digit d ∧
        IsBase64 rest) := by
  constructor
  · intro h
    obtain ⟨ds, pad, htext, hds, hpad⟩ := h
    match ds with
    | [] => rcases hpad with ⟨rfl, hlength⟩ | ⟨rfl, hlength⟩ | ⟨rfl, hlength⟩ <;> simp_all
    | [_] => rcases hpad with ⟨rfl, hlength⟩ | ⟨rfl, hlength⟩ | ⟨rfl, hlength⟩ <;> simp_all
    | [_, _] => rcases hpad with ⟨rfl, hlength⟩ | ⟨rfl, hlength⟩ | ⟨rfl, hlength⟩ <;> simp_all
    | [_, _, _] =>
        rcases hpad with ⟨rfl, hlength⟩ | ⟨rfl, hlength⟩ | ⟨rfl, hlength⟩ <;> simp_all
    | _ :: _ :: _ :: _ :: ds =>
        simp only [List.cons_append, List.cons.injEq] at htext
        obtain ⟨rfl, rfl, rfl, rfl, rfl⟩ := htext
        simp only [List.forall_mem_cons] at hds
        refine .inr ⟨hds.1, hds.2.1, hds.2.2.1, hds.2.2.2.1, ds, pad, rfl, hds.2.2.2.2, ?_⟩
        have hmod : (ds.length + 1 + 1 + 1 + 1) % 4 = ds.length % 4 := by omega
        simpa only [List.length_cons, hmod] using hpad
  · intro h
    rcases h with ⟨rfl, rfl, ha, hb, hc⟩ | ⟨ha, hb, hc, hd, ds, pad, rfl, hds, hpad⟩
    · rcases hc with rfl | hc
      · exact ⟨[a, b], ['=', '='], rfl, by simp [ha, hb], .inr (.inl ⟨rfl, rfl⟩)⟩
      · exact ⟨[a, b, c], ['='], rfl, by simp [ha, hb, hc], .inr (.inr ⟨rfl, rfl⟩)⟩
    · refine ⟨a :: b :: c :: d :: ds, pad, rfl, by simpa [ha, hb, hc, hd] using hds, ?_⟩
      have hmod : (ds.length + 1 + 1 + 1 + 1) % 4 = ds.length % 4 := by omega
      simpa only [List.length_cons, hmod] using hpad

/-- A text that is no group long is base 64 only if it is empty. -/
theorem not_isBase64_of_length {text : List Char} (h : text.length < 4) (hne : text ≠ []) :
    ¬IsBase64 text := by
  intro hbase
  obtain ⟨ds, pad, rfl, -, hpad⟩ := hbase
  have hpos : 0 < (ds ++ pad).length := List.length_pos_iff.mpr hne
  rw [List.length_append] at h hpos
  rcases hpad with ⟨rfl, hlength⟩ | ⟨rfl, hlength⟩ | ⟨rfl, hlength⟩
  · simp only [List.length_nil] at h hpos
    omega
  · simp only [List.length_cons, List.length_nil] at h hpos
    omega
  · simp only [List.length_cons, List.length_nil] at h hpos
    omega

/-- **Which texts are decoded.** -/
theorem b64decode_isSome_iff (text : List Char) :
    (b64decode text).isSome = true ↔ IsBase64 text := by
  induction text using b64decode.induct with
  | case1 => exact ⟨fun _ => ⟨[], [], rfl, by simp, .inl ⟨rfl, rfl⟩⟩, fun _ => rfl⟩
  | case2 a b d rest hlast =>
      rw [isBase64_cons, b64decode, if_pos hlast, if_pos rfl]
      simp only [hlast.1, hlast.2, not_isBase64Digit_pad, true_and, false_and, and_false,
        or_false, and_true]
      cases ha : base64Value a <;> cases hb : base64Value b <;> simp [IsBase64Digit, ha, hb]
  | case3 a b c d rest hlast hc =>
      rw [isBase64_cons, b64decode, if_pos hlast, if_neg hc]
      simp only [hlast.1, hlast.2, not_isBase64Digit_pad, true_and, false_and, and_false,
        or_false, hc, false_or]
      cases ha : base64Value a <;> cases hb : base64Value b <;> cases hc : base64Value c <;>
        simp [IsBase64Digit, ha, hb, hc]
  | case4 a b c d rest hlast ih =>
      rw [isBase64_cons, b64decode, if_neg hlast, ← ih]
      have hpad : ¬(rest = [] ∧ d = '=' ∧ IsBase64Digit a ∧ IsBase64Digit b ∧
          (c = '=' ∨ IsBase64Digit c)) := fun h => hlast ⟨h.1, h.2.1⟩
      rw [or_iff_right hpad]
      cases ha : base64Value a <;> cases hb : base64Value b <;> cases hc : base64Value c <;>
        cases hd : base64Value d <;> cases hrest : b64decode rest <;>
          simp [IsBase64Digit, ha, hb, hc, hd]
  | case5 text hnil hcons =>
      have hlength : text.length < 4 := by
        match text with
        | [] => simp
        | [_] => simp
        | [_, _] => simp
        | [_, _, _] => simp
        | a :: b :: c :: d :: rest => exact (hcons a b c d rest rfl).elim
      have hnone : b64decode text = none := by
        match text with
        | [] => exact (hnil rfl).elim
        | [_] => rfl
        | [_, _] => rfl
        | [_, _, _] => rfl
      simp [hnone, not_isBase64_of_length hlength fun h => hnil h]

end UcloudSandboxes.Python
