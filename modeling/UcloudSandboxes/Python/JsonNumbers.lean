import Mathlib.Data.Nat.Digits.Defs
import UcloudSandboxes.Python.JsonReader

/-!
# Numbers and quoted texts are read back

The scanners of a number and of a quoted text, in front of any text that does not go on with the
number.

* `readLiteral_text`: a number of the grammar.
* `value_intLiteral`: an `int` that may be converted.
* `readQuoted_quote`: a quoted text.
-/
namespace UcloudSandboxes.Python.JsonText

/-- What follows a number: neither a digit nor a point nor an exponent mark. -/
def NumberEnd (rest : Text) : Prop :=
  ∀ c ∈ rest.head?, c.isDigit = false ∧ c ≠ .scalar '.' ∧ c ≠ .scalar 'e' ∧ c ≠ .scalar 'E'

theorem numberEnd_nil : NumberEnd [] := by
  intro c hc
  cases hc

theorem digits_append {ds rest : Text} (hds : ∀ d ∈ ds, d.isDigit = true)
    (hrest : ∀ c ∈ rest.head?, c.isDigit = false) : digits (ds ++ rest) = (ds, rest) := by
  rw [digits, List.takeWhile_append_of_pos hds, List.dropWhile_append_of_pos hds]
  cases rest with
  | nil => simp
  | cons c rest => simp [hrest c (by simp)]

theorem Digits.cons {ds : Text} (h : Digits ds) :
    ∃ d rest, ds = d :: rest ∧ d.isDigit = true := by
  cases ds with
  | nil => exact absurd rfl h.1
  | cons d rest => exact ⟨d, rest, rfl, h.2 d List.mem_cons_self⟩

theorem readExponent_text {exponent : Option (CodePoint × Text × Text)} {rest : Text}
    (h : ∀ mark sign ds, exponent = some (mark, sign, ds) →
      (mark = .scalar 'e' ∨ mark = .scalar 'E') ∧
        (sign = [] ∨ sign = [.scalar '+'] ∨ sign = [.scalar '-']) ∧ Digits ds)
    (hrest : NumberEnd rest) :
    readExponent (exponentText exponent ++ rest) = (exponent, rest) := by
  cases exponent with
  | none =>
      cases rest with
      | nil => rfl
      | cons c rest =>
          have hc := hrest c rfl
          simp [exponentText, readExponent, hc.2.2.1, hc.2.2.2]
  | some parts =>
      obtain ⟨mark, sign, ds⟩ := parts
      have hparts := h mark sign ds rfl
      have hdigits : digits (ds ++ rest) = (ds, rest) :=
        digits_append hparts.2.2.2 fun c hc => (hrest c hc).1
      have hsign : readSign (sign ++ (ds ++ rest)) = (sign, ds ++ rest) := by
        rcases hparts.2.1 with rfl | rfl | rfl
        · obtain ⟨d, ds', rfl, hd⟩ := hparts.2.2.cons
          simp only [List.nil_append, List.cons_append]
          have hplus : d ≠ .scalar '+' := by
            intro h
            subst h
            exact absurd hd (by decide)
          have hminus : d ≠ .scalar '-' := by
            intro h
            subst h
            exact absurd hd (by decide)
          simp only [readSign, hplus, hminus, or_self, if_false]
        · rfl
        · rfl
      simp only [exponentText, List.cons_append, List.append_assoc, readExponent,
        hsign, hdigits, if_pos (And.intro hparts.1 hparts.2.2.1)]

/-- Behind the whole part there is no digit. -/
theorem head_fraction {l : Literal} (hl : l.WellFormed) {rest : Text} (hrest : NumberEnd rest) :
    ∀ c ∈ (fractionText l.fraction ++ (exponentText l.exponent ++ rest)).head?,
      c.isDigit = false := by
  intro c hc
  cases hfraction : l.fraction with
  | some ds =>
      rw [hfraction] at hc
      cases hc
      rfl
  | none =>
      rw [hfraction] at hc
      cases hexponent : l.exponent with
      | none =>
          rw [hexponent] at hc
          exact (hrest c hc).1
      | some parts =>
          obtain ⟨mark, sign, ds⟩ := parts
          rw [hexponent] at hc
          have hmark := (hl.exponent mark sign ds hexponent).1
          cases hc
          rcases hmark with rfl | rfl <;> rfl

theorem head_exponent {l : Literal} (hl : l.WellFormed) {rest : Text} (hrest : NumberEnd rest) :
    ∀ c ∈ (exponentText l.exponent ++ rest).head?, c.isDigit = false ∧ c ≠ .scalar '.' := by
  intro c hc
  cases hexponent : l.exponent with
  | none =>
      rw [hexponent] at hc
      exact ⟨(hrest c hc).1, (hrest c hc).2.1⟩
  | some parts =>
      obtain ⟨mark, sign, ds⟩ := parts
      rw [hexponent] at hc
      have hmark := (hl.exponent mark sign ds hexponent).1
      cases hc
      rcases hmark with rfl | rfl <;> exact ⟨rfl, by decide⟩

theorem readFraction_text {l : Literal} (hl : l.WellFormed) {rest : Text}
    (hrest : NumberEnd rest) :
    readFraction (fractionText l.fraction ++ (exponentText l.exponent ++ rest)) =
      (l.fraction, exponentText l.exponent ++ rest) := by
  have hexponent := head_exponent hl hrest
  cases hfraction : l.fraction with
  | some ds =>
      have hds : Digits ds := hl.fraction ds hfraction
      have hdigits := digits_append hds.2 fun c hc => (hexponent c hc).1
      simp [fractionText, readFraction, hdigits, hds.1]
  | none =>
      simp only [fractionText, List.nil_append]
      cases htext : exponentText l.exponent ++ rest with
      | nil => rfl
      | cons c rest' =>
          have hc : c ≠ .scalar '.' := (hexponent c (by rw [htext]; rfl)).2
          simp [readFraction, hc]

theorem readWhole_text {l : Literal} (hl : l.WellFormed) {rest : Text}
    (hrest : ∀ c ∈ rest.head?, c.isDigit = false) :
    readWhole (l.whole ++ rest) = some (l.whole, rest) := by
  rcases hl.whole with hzero | ⟨hdigits, hhead⟩
  · simp [hzero, readWhole]
  · have hread := digits_append hdigits.2 hrest
    obtain ⟨d, ds, hwhole, -⟩ := hdigits.cons
    rw [hwhole] at hread hhead ⊢
    have hd : d ≠ .scalar '0' := fun h => hhead (by rw [h]; rfl)
    simp only [List.cons_append] at hread ⊢
    simp [readWhole, hread, hd]

/-- A number begins with a digit behind its sign. -/
theorem Literal.WellFormed.head {l : Literal} (hl : l.WellFormed) :
    ∃ d rest, l.whole = d :: rest ∧ d.isDigit = true := by
  rcases hl.whole with hzero | ⟨hdigits, -⟩
  · exact ⟨.scalar '0', [], hzero, rfl⟩
  · exact hdigits.cons

theorem Literal.text_append (l : Literal) (rest : Text) :
    l.text ++ rest = signText l.negative ++
      (l.whole ++ (fractionText l.fraction ++ (exponentText l.exponent ++ rest))) := by
  simp [Literal.text]

theorem readNegative_text {negative : Bool} {d : CodePoint} {rest : Text}
    (hd : d.isDigit = true) :
    readNegative (signText negative ++ d :: rest) = (negative, d :: rest) := by
  cases negative with
  | true => rfl
  | false =>
      have hminus : d ≠ .scalar '-' := by
        intro h
        subst h
        exact absurd hd (by decide)
      simp [signText, readNegative, hminus]

/-- **A number of the grammar is read back.** -/
theorem readLiteral_text {l : Literal} (hl : l.WellFormed) {rest : Text}
    (hrest : NumberEnd rest) : readLiteral (l.text ++ rest) = some (l, rest) := by
  have hwhole := readWhole_text hl (head_fraction hl hrest)
  have hfraction := readFraction_text hl hrest
  have hexponent := readExponent_text hl.exponent hrest
  obtain ⟨d, ds, hhead, hd⟩ := hl.head
  rw [Literal.text_append, readLiteral]
  rw [hhead] at hwhole ⊢
  simp only [List.cons_append] at hwhole ⊢
  simp only [readNegative_text hd, hwhole, hfraction, hexponent]
  rw [← hhead]

@[simp] theorem filterMap_chars (cs : List Char) :
    (chars cs).filterMap CodePoint.char? = cs := by
  induction cs with
  | nil => rfl
  | cons c cs ih => simpa [chars, CodePoint.char?] using ih

/-- A number above zero does not begin with a zero. -/
theorem head_toDigits {n : ℕ} (hn : 0 < n) : (Nat.toDigits 10 n).head? ≠ some '0' := by
  induction n using Nat.strongRecOn with
  | ind n ih =>
      rw [Nat.toDigits_eq_if (by omega)]
      by_cases hlt : n < 10
      · rw [if_pos hlt]
        have hall : ∀ k < 10, 0 < k → Nat.digitChar k ≠ '0' := by decide
        simpa using hall n hlt hn
      · rw [if_neg hlt, List.head?_append_of_ne_nil _ Nat.toDigits_ne_nil]
        exact ih (n / 10) (by omega) (by omega)

theorem intLiteral_wellFormed (n : ℤ) : (intLiteral n).WellFormed where
  whole := by
    by_cases hn : n.natAbs = 0
    · left
      simp [intLiteral, hn, chars]
    · right
      refine ⟨⟨by simp [intLiteral, chars, Nat.toDigits_ne_nil], ?_⟩, ?_⟩
      · intro d hd
        simp only [intLiteral, chars, List.mem_map] at hd
        obtain ⟨c, hc, rfl⟩ := hd
        exact Nat.isDigit_of_mem_toDigits (by omega) (by omega) hc
      · have hhead := head_toDigits (n := n.natAbs) (by omega)
        simp only [intLiteral, chars, List.head?_map]
        cases hc : (Nat.toDigits 10 n.natAbs).head? with
        | none => simp
        | some c =>
            rw [hc] at hhead
            simpa using hhead
  fraction := by
    intro ds hds
    cases hds
  exponent := by
    intro mark sign ds h
    cases h

theorem wholeLiteral_wellFormed (n : ℤ) :
    ({ intLiteral n with fraction := some [.scalar '0'] } : Literal).WellFormed where
  whole := (intLiteral_wellFormed n).whole
  fraction := by
    intro ds hds
    cases hds
    exact ⟨by simp, by simp [CodePoint.isDigit]⟩
  exponent := (intLiteral_wellFormed n).exponent

theorem natOf_intLiteral (n : ℤ) : natOf (intLiteral n).whole = n.natAbs := by
  simp [natOf, intLiteral, Nat.ofDigitChars_ten_toDigits]

/-- The digits and the sign of an `int` denote it. -/
theorem signed_natAbs (n : ℤ) :
    (if decide (n < 0) = true then -(n.natAbs : ℤ) else n.natAbs) = n := by
  by_cases hneg : n < 0
  · rw [if_pos (decide_eq_true hneg)]
    omega
  · rw [if_neg (by simpa using hneg)]
    omega

/-- **An `int` that may be converted is read back.** -/
theorem value_intLiteral {F : Type} (floats : Floats F) {n : ℤ}
    (hn : (Nat.toDigits 10 n.natAbs).length ≤ maxStrDigits) :
    (intLiteral n).value floats = .ok (.int n) := by
  have hlength : (intLiteral n).whole.length = (Nat.toDigits 10 n.natAbs).length := by
    simp [intLiteral, chars]
  have hfloat : (intLiteral n).isFloat = false := rfl
  rw [Literal.value, hfloat, hlength, natOf_intLiteral, if_neg (by simp), if_neg (by omega)]
  exact congrArg (fun k => Except.ok (Value.int k)) (signed_natAbs n)

/-- A finite float is read back. -/
theorem value_repr {F : Type} (floats : Floats F) (x : F) :
    (floats.repr x).value floats = .ok (.float (.finite x)) := by
  rw [Literal.value, if_pos (floats.isFloat x), floats.reads x]

/-- The floats that are whole numbers, written with a zero behind the point. -/
def wholeFloats : Floats ℤ where
  repr n := { intLiteral n with fraction := some [.scalar '0'] }
  ofText text :=
    match readLiteral text with
    | some (l, _) => .finite (if l.negative then -(natOf l.whole : ℤ) else natOf l.whole)
    | none => .nan
  wellFormed n := wholeLiteral_wellFormed n
  isFloat _ := rfl
  reads n := by
    have hread := readLiteral_text (wholeLiteral_wellFormed n) numberEnd_nil
    rw [List.append_nil] at hread
    simp only [hread, natOf_intLiteral]
    exact congrArg Number.finite (signed_natAbs n)

theorem hexValue_hexDigit : ∀ n < 16, hexValue (.scalar (hexDigit n)) = some n := by decide

theorem readHex_digits {n : ℕ} (hn : n < 65536) (rest : Text) :
    readHex (.scalar (hexDigit (n / 4096 % 16)) :: .scalar (hexDigit (n / 256 % 16)) ::
      .scalar (hexDigit (n / 16 % 16)) :: .scalar (hexDigit (n % 16)) :: rest) =
        some (n, rest) := by
  have hdigit : ∀ k, hexValue (.scalar (hexDigit (k % 16))) = some (k % 16) := by
    intro k
    exact hexValue_hexDigit (k % 16) (Nat.mod_lt k (by omega))
  have hsum : ((n / 4096 % 16 * 16 + n / 256 % 16) * 16 + n / 16 % 16) * 16 + n % 16 = n := by
    omega
  simp [readHex, hdigit, hsum]

/-- The escape of a control character is read back. -/
theorem readEscape_unicodeEscape {c : Char} (hc : c.toNat < 32) (rest : Text) :
    readEscape (chars (unicodeEscape c.toNat).tail ++ rest) = some (.scalar c, rest) := by
  have hread := readHex_digits (n := c.toNat) (by omega) rest
  have hof : CodePoint.ofNat c.toNat = .scalar c := by
    rw [CodePoint.ofNat, dif_neg (by omega), Char.ofNat_toNat]
  simp only [unicodeEscape, List.tail_cons, chars, List.map_cons, List.map_nil, List.cons_append,
    List.nil_append, readEscape, hread]
  rw [if_neg (by omega), hof]

theorem readQuoted_escape (c : CodePoint) (n : ℕ) (rest : Text) :
    readQuoted (n + 1) (c.escape ++ rest) = (readQuoted n rest).map fun r => (c :: r.1, r.2) := by
  cases c with
  | surrogate k =>
      have hk : ¬(55296 + (k : ℕ) < 32) := by omega
      simp [CodePoint.escape, readQuoted, CodePoint.toNat, hk]
  | scalar c =>
      simp only [CodePoint.escape, JsonText.escape]
      by_cases hquote : c = '"'
      · subst hquote
        rfl
      by_cases hbackslash : c = '\\'
      · subst hbackslash
        rfl
      by_cases hn : c = '\n'
      · subst hn
        rfl
      by_cases hr : c = '\r'
      · subst hr
        rfl
      by_cases ht : c = '\t'
      · subst ht
        rfl
      by_cases hf : c.toNat = 12
      · obtain rfl : c = Char.ofNat 12 := by rw [← hf, Char.ofNat_toNat]
        rfl
      by_cases hb : c.toNat = 8
      · obtain rfl : c = Char.ofNat 8 := by rw [← hb, Char.ofNat_toNat]
        rfl
      by_cases hcontrol : c.toNat < 32
      · have hread := readEscape_unicodeEscape hcontrol rest
        simp only [hquote, hbackslash, hn, hr, ht, hf, hb, hcontrol, if_true, if_false]
        simp only [unicodeEscape, List.tail_cons, chars, List.map_cons, List.map_nil,
          List.cons_append, List.nil_append] at hread ⊢
        simp [readQuoted, hread]
      · simp [hquote, hbackslash, hn, hr, ht, hf, hb, hcontrol, chars, readQuoted,
          CodePoint.toNat]

theorem length_le_escape (s : Text) : s.length ≤ (s.flatMap CodePoint.escape).length := by
  induction s with
  | nil => simp
  | cons c s ih =>
      have hc : 0 < c.escape.length := by
        rw [List.length_pos_iff]
        intro hnil
        have hread := readQuoted_escape c 1 [.scalar '"']
        rw [hnil] at hread
        cases hread
      simp only [List.flatMap_cons, List.length_append, List.length_cons]
      omega

/-- **A quoted text is read back.** -/
theorem readQuoted_quote (s rest : Text) {n : ℕ} (hn : s.length < n) :
    readQuoted n (s.flatMap CodePoint.escape ++ .scalar '"' :: rest) = some (s, rest) := by
  induction s generalizing n with
  | nil =>
      obtain ⟨n, rfl⟩ := Nat.exists_eq_add_of_lt hn
      simp [readQuoted]
  | cons c s ih =>
      obtain ⟨m, rfl⟩ : ∃ m, n = m + 1 := ⟨n - 1, by omega⟩
      rw [List.flatMap_cons, List.append_assoc, readQuoted_escape,
        ih (by simpa using hn)]
      rfl

end UcloudSandboxes.Python.JsonText
