import UcloudSandboxes.Python.JsonRoundTrip

/-!
# What `json.dumps` writes, as bytes

The bytes of an object are UTF-8 that `json.loads` takes for UTF-8: they hold no zero, and begin
with an ASCII character. `json.dumps` writes an object, and its text is encoded, exactly when the
object is `Value.Writable`.

* `loadsBytes_dumpsBytes`: the bytes of an object are read back.
* `dumpsBytes_spec`: which objects have bytes.
-/
namespace UcloudSandboxes.Python.JsonText
open Lib

/-- A text without surrogates. -/
def Plain (t : Text) : Prop := ∀ c ∈ t, c.char?.isSome = true

instance (t : Text) : Decidable (Plain t) :=
  inferInstanceAs (Decidable (∀ c ∈ t, c.char?.isSome = true))

theorem plain_chars (cs : List Char) : Plain (chars cs) := by
  intro c hc
  obtain ⟨d, -, rfl⟩ := List.mem_map.mp hc
  rfl

theorem plain_iff {t : Text} : Plain t ↔ ∃ cs, t = chars cs := by
  constructor
  · intro h
    induction t with
    | nil => exact ⟨[], rfl⟩
    | cons c t ih =>
        have hparts := List.forall_mem_cons.mp h
        obtain ⟨cs, rfl⟩ := ih hparts.2
        cases c with
        | scalar c => exact ⟨c :: cs, rfl⟩
        | surrogate n => cases hparts.1
  · intro h
    obtain ⟨cs, rfl⟩ := h
    exact plain_chars cs

theorem mapM_chars (cs : List Char) : (chars cs).mapM CodePoint.char? = some cs := by
  induction cs with
  | nil => rfl
  | cons c cs ih =>
      rw [chars] at ih
      simp [chars, CodePoint.char?, ih]

theorem encode_chars (cs : List Char) : encode (chars cs) = .ok (utf8Encode cs) := by
  rw [encode, mapM_chars]

theorem encode_of_not_plain {t : Text} (h : ¬Plain t) : encode t = .error .valueError := by
  cases hcs : t.mapM CodePoint.char? with
  | none => rw [encode, hcs]
  | some cs =>
      exfalso
      apply h
      clear h
      induction t generalizing cs with
      | nil => exact List.forall_mem_nil _
      | cons c t ih =>
          cases c with
          | surrogate n => simp [CodePoint.char?] at hcs
          | scalar c =>
              cases ht : t.mapM CodePoint.char? with
              | none => simp [CodePoint.char?, ht] at hcs
              | some cs' => exact List.forall_mem_cons.mpr ⟨rfl, ih cs' ht⟩

theorem encode_ok {t : Text} {e : Bytes} (h : encode t = .ok e) :
    ∃ cs, t = chars cs ∧ e = utf8Encode cs := by
  by_cases hplain : Plain t
  · obtain ⟨cs, rfl⟩ := plain_iff.mp hplain
    rw [encode_chars] at h
    exact ⟨cs, rfl, (Except.ok.inj h).symm⟩
  · rw [encode_of_not_plain hplain] at h
    cases h

/-- A text without control characters. -/
def Printable (t : Text) : Prop := ∀ c ∈ t, 32 ≤ c.toNat

instance (t : Text) : Decidable (Printable t) :=
  inferInstanceAs (Decidable (∀ c ∈ t, 32 ≤ c.toNat))

/-- The digits of a number are printable characters. -/
theorem CodePoint.toNat_of_isDigit {d : CodePoint} (h : d.isDigit = true) : 32 ≤ d.toNat := by
  cases d with
  | surrogate n => cases h
  | scalar c =>
      simp only [CodePoint.isDigit, Char.isDigit, Bool.and_eq_true, decide_eq_true_eq] at h
      have hlow : (48 : ℕ) ≤ c.val.toNat := UInt32.le_iff_toNat_le.mp h.1
      simp only [CodePoint.toNat, Char.toNat]
      omega

theorem CodePoint.char?_of_isDigit {d : CodePoint} (h : d.isDigit = true) :
    d.char?.isSome = true := by
  cases d with
  | surrogate n => cases h
  | scalar c => rfl

/-- A number is written in digits, points, signs and exponent marks. -/
theorem Literal.WellFormed.symbols {l : Literal} (hl : l.WellFormed) :
    ∀ c ∈ l.text, c.isDigit = true ∨
      c ∈ [.scalar '-', .scalar '+', .scalar '.', .scalar 'e', .scalar 'E'] := by
  intro c hc
  rw [Literal.text] at hc
  rcases List.mem_append.mp hc with hc | hc
  · cases hsign : l.negative with
    | false => simp [signText, hsign] at hc
    | true =>
        rw [hsign] at hc
        simp only [signText, if_true, List.mem_singleton] at hc
        exact .inr (by simp [hc])
  rcases List.mem_append.mp hc with hc | hc
  · rcases hl.whole with hzero | ⟨hdigits, -⟩
    · rw [hzero, List.mem_singleton] at hc
      subst hc
      exact .inl rfl
    · exact .inl (hdigits.2 c hc)
  rcases List.mem_append.mp hc with hc | hc
  · cases hfraction : l.fraction with
    | none => simp [fractionText, hfraction] at hc
    | some ds =>
        rw [hfraction, fractionText] at hc
        rcases List.mem_cons.mp hc with rfl | hc
        · exact .inr (by simp)
        · exact .inl ((hl.fraction ds hfraction).2 c hc)
  · cases hexponent : l.exponent with
    | none => simp [exponentText, hexponent] at hc
    | some parts =>
        obtain ⟨mark, sign, ds⟩ := parts
        have hparts := hl.exponent mark sign ds hexponent
        simp only [hexponent, exponentText, List.mem_cons, List.mem_append] at hc
        rcases hc with rfl | hc | hc
        · rcases hparts.1 with rfl | rfl <;> exact .inr (by simp)
        · rcases hparts.2.1 with rfl | rfl | rfl
          · cases hc
          · exact .inr (by simp_all)
          · exact .inr (by simp_all)
        · exact .inl (hparts.2.2.2 c hc)

theorem Literal.WellFormed.printable {l : Literal} (hl : l.WellFormed) : Printable l.text := by
  intro c hc
  rcases hl.symbols c hc with hdigit | hmark
  · exact CodePoint.toNat_of_isDigit hdigit
  · have hall : ∀ c ∈ [CodePoint.scalar '-', .scalar '+', .scalar '.', .scalar 'e', .scalar 'E'],
        32 ≤ c.toNat := by decide
    exact hall c hmark

theorem Literal.WellFormed.plain {l : Literal} (hl : l.WellFormed) : Plain l.text := by
  intro c hc
  rcases hl.symbols c hc with hdigit | hmark
  · exact CodePoint.char?_of_isDigit hdigit
  · have hall : ∀ c ∈ [CodePoint.scalar '-', .scalar '+', .scalar '.', .scalar 'e', .scalar 'E'],
        c.char?.isSome = true := by decide
    exact hall c hmark

theorem forall_mem_quote {p : CodePoint → Prop} (hquote : p (.scalar '"')) {s : Text} :
    (∀ c ∈ quote s, p c) ↔ ∀ c ∈ s, ∀ d ∈ c.escape, p d := by
  rw [quote, List.forall_mem_cons, List.forall_mem_append, List.forall_mem_singleton,
    List.forall_mem_flatMap]
  exact ⟨fun h => h.2.1, fun h => ⟨hquote, h, hquote⟩⟩

theorem forall_mem_bracket {p : CodePoint → Prop} {opening close : Char}
    (hopening : p (.scalar opening)) (hclose : p (.scalar close)) (hcomma : p (.scalar ','))
    {texts : List Text} :
    (∀ c ∈ bracket opening close texts, p c) ↔ ∀ t ∈ texts, ∀ c ∈ t, p c := by
  rw [bracket, List.forall_mem_cons, List.forall_mem_append, List.forall_mem_singleton,
    forall_mem_joinItems hcomma]
  exact ⟨fun h => h.2.1, fun h => ⟨hopening, h, hclose⟩⟩

/-- Within quotes no control character is left. -/
theorem escape_printable (c : CodePoint) : Printable c.escape := by
  cases c with
  | surrogate n =>
      intro d hd
      obtain rfl := List.mem_singleton.mp hd
      simp only [CodePoint.toNat]
      omega
  | scalar c =>
      have hhex : ∀ n < 16, 32 ≤ (hexDigit n).toNat := by decide
      have hdigit : ∀ n, 32 ≤ (hexDigit (n % 16)).toNat := by
        intro n
        exact hhex (n % 16) (Nat.mod_lt n (by omega))
      by_cases hcontrol : c.toNat < 32
      · simp only [CodePoint.escape, JsonText.escape, hcontrol, if_true]
        split_ifs <;> simp [Printable, chars, CodePoint.toNat, unicodeEscape, hdigit]
      · simp only [CodePoint.escape, JsonText.escape, hcontrol, if_false]
        split_ifs <;> simp [Printable, chars, CodePoint.toNat]
        omega

theorem plain_escape {c : CodePoint} : Plain c.escape ↔ c.char?.isSome = true := by
  cases c with
  | surrogate n => simp [CodePoint.escape, Plain]
  | scalar c => exact ⟨fun _ => rfl, fun _ => plain_chars _⟩

theorem plain_quote {s : Text} : Plain (quote s) ↔ Plain s :=
  (forall_mem_quote (p := fun c => c.char?.isSome = true) rfl).trans
    (forall_congr' fun _ => forall_congr' fun _ => plain_escape)

section
variable {F : Type} {floats : Floats F}

/-- A key that can be written, and encoded. -/
def Key.Writable : Key F → Prop
  | .int n => (Nat.toDigits 10 n.natAbs).length ≤ maxStrDigits
  | .str s => Plain s
  | .other => False
  | _ => True

/-- An object that can be written, and encoded. -/
inductive Value.Writable : Value F → Prop
  | null : Writable .null
  | bool (b : Bool) : Writable (.bool b)
  | int {n : ℤ} (h : (Nat.toDigits 10 n.natAbs).length ≤ maxStrDigits) : Writable (.int n)
  | float (f : Number F) : Writable (.float f)
  | str {s : Text} (h : Plain s) : Writable (.str s)
  | list {items : List (Value F)} (h : ∀ v ∈ items, Writable v) : Writable (.list items)
  | tuple {items : List (Value F)} (h : ∀ v ∈ items, Writable v) : Writable (.tuple items)
  | dict {items : List (Key F × Value F)} (hkeys : ∀ item ∈ items, item.1.Writable)
      (h : ∀ item ∈ items, Writable item.2) : Writable (.dict items)

/-- How writing ends: with a text of which only the encoding can fail, or with an error that
`except (TypeError, ValueError)` catches. -/
def Settled (writable : Prop) : Except Builtin Text → Prop
  | .ok t => Printable t ∧ (writable ↔ Plain t)
  | .error e => ¬writable ∧ (e = .typeError ∨ e = .valueError)

/-- The same for the texts of items. -/
def AllSettled (writable : Prop) : Except Builtin (List Text) → Prop
  | .ok texts => (∀ t ∈ texts, Printable t) ∧ (writable ↔ ∀ t ∈ texts, Plain t)
  | .error e => ¬writable ∧ (e = .typeError ∨ e = .valueError)

theorem settled_intText (n : ℤ) :
    Settled ((Nat.toDigits 10 n.natAbs).length ≤ maxStrDigits) (intText n) := by
  rw [intText]
  by_cases hlength : maxStrDigits < (Nat.toDigits 10 n.natAbs).length
  · rw [if_pos hlength]
    exact ⟨by omega, .inr rfl⟩
  · rw [if_neg hlength]
    exact ⟨(intLiteral_wellFormed n).printable,
      fun _ => (intLiteral_wellFormed n).plain, fun _ => by omega⟩

theorem settled_boolText (b : Bool) : Settled True (.ok (boolText b)) := by
  cases b
  · rw [boolText, if_neg (by simp), lit_false]
    exact ⟨by decide, fun _ => by decide, fun _ => trivial⟩
  · rw [boolText, if_pos rfl, lit_true]
    exact ⟨by decide, fun _ => by decide, fun _ => trivial⟩

theorem settled_null : Settled True (.ok (lit "null")) := by
  rw [lit_null]
  exact ⟨by decide, fun _ => by decide, fun _ => trivial⟩

theorem settled_floatText (f : Number F) : Settled True (.ok (floatText floats f)) := by
  cases f with
  | finite x =>
      exact ⟨(floats.wellFormed x).printable, fun _ => (floats.wellFormed x).plain,
        fun _ => trivial⟩
  | posInf =>
      rw [floatText, lit_Infinity]
      exact ⟨by decide, fun _ => by decide, fun _ => trivial⟩
  | negInf =>
      rw [floatText, lit_negInfinity]
      exact ⟨by decide, fun _ => by decide, fun _ => trivial⟩
  | nan =>
      rw [floatText, lit_NaN]
      exact ⟨by decide, fun _ => by decide, fun _ => trivial⟩

theorem settled_quote (s : Text) : Settled (Plain s) (.ok (quote s)) :=
  ⟨(forall_mem_quote (p := fun c => 32 ≤ c.toNat) (by decide)).mpr
    fun c _ => escape_printable c, plain_quote.symm⟩

theorem Settled.congr {p q : Prop} {r : Except Builtin Text} (h : Settled p r) (hpq : q ↔ p) :
    Settled q r := by
  cases r with
  | ok t => exact ⟨h.1, hpq.trans h.2⟩
  | error e => exact ⟨fun hq => h.1 (hpq.mp hq), h.2⟩

/-- The text of a key within quotes. -/
theorem settled_keyText (floats : Floats F) (k : Key F) :
    Settled k.Writable ((keyText floats k).map quote) := by
  have hquote : ∀ {p : Prop} {r : Except Builtin Text}, Settled p r → Settled p (r.map quote) := by
    intro p r h
    cases r with
    | ok t => exact (settled_quote t).congr h.2
    | error e => exact h
  cases k with
  | null => exact hquote settled_null
  | bool b => exact hquote (settled_boolText b)
  | int n => exact hquote (settled_intText n)
  | float f => exact hquote (settled_floatText f)
  | str s => exact settled_quote s
  | other => exact ⟨fun h => h, .inl rfl⟩

/-- A value without brackets. -/
theorem settled_write_scalar (n : ℕ) {v : Value F} (hv : v.isScalar = true) :
    Settled v.Writable (write floats n v) := by
  have hwrite : ∀ m, write floats m v = write floats 0 v := by
    intro m
    cases m with
    | zero => rfl
    | succ m => cases v <;> first | rfl | cases hv
  rw [hwrite]
  cases v with
  | null => exact settled_null.congr (iff_true_intro .null)
  | bool b => exact (settled_boolText b).congr (iff_true_intro (.bool b))
  | int k => exact (settled_intText k).congr ⟨fun h => by cases h; assumption, .int⟩
  | float f => exact (settled_floatText f).congr (iff_true_intro (.float f))
  | str s => exact (settled_quote s).congr ⟨fun h => by cases h; assumption, .str⟩
  | list items => cases hv
  | tuple items => cases hv
  | dict items => cases hv
  | other =>
      refine ⟨?_, .inl rfl⟩
      intro h
      cases h

theorem settled_writeItems {n : ℕ} {items : List (Value F)}
    (h : ∀ v ∈ items, Settled v.Writable (write floats n v)) :
    AllSettled (∀ v ∈ items, v.Writable) (writeItems floats n items) := by
  induction items with
  | nil => exact ⟨by simp, by simp⟩
  | cons v rest ih =>
      have hv := h v List.mem_cons_self
      have hrest := ih fun w hw => h w (List.mem_cons_of_mem _ hw)
      cases hwrite : write floats n v with
      | error e =>
          rw [hwrite] at hv
          simp only [writeItems, hwrite]
          exact ⟨fun hall => hv.1 (hall v List.mem_cons_self), hv.2⟩
      | ok t =>
          rw [hwrite] at hv
          simp only [writeItems, hwrite]
          cases htexts : writeItems floats n rest with
          | error e =>
              rw [htexts] at hrest
              exact ⟨fun hall => hrest.1 fun w hw => hall w (List.mem_cons_of_mem _ hw), hrest.2⟩
          | ok texts =>
              rw [htexts] at hrest
              refine ⟨List.forall_mem_cons.mpr ⟨hv.1, hrest.1⟩, ?_⟩
              rw [List.forall_mem_cons, List.forall_mem_cons, hv.2, hrest.2]

theorem settled_writeEntries {n : ℕ} {items : List (Key F × Value F)}
    (h : ∀ item ∈ items, Settled item.2.Writable (write floats n item.2)) :
    AllSettled ((∀ item ∈ items, item.1.Writable) ∧ ∀ item ∈ items, item.2.Writable)
      (writeEntries floats n items) := by
  induction items with
  | nil => exact ⟨by simp, by simp⟩
  | cons item rest ih =>
      have hk := settled_keyText floats item.1
      have hv := h item List.mem_cons_self
      have hrest := ih fun other hother => h other (List.mem_cons_of_mem _ hother)
      cases hkey : keyText floats item.1 with
      | error e =>
          rw [hkey] at hk
          simp only [writeEntries, hkey]
          exact ⟨fun hall => hk.1 (hall.1 item List.mem_cons_self), hk.2⟩
      | ok key =>
          rw [hkey] at hk
          cases hwrite : write floats n item.2 with
          | error e =>
              rw [hwrite] at hv
              simp only [writeEntries, hkey, hwrite]
              exact ⟨fun hall => hv.1 (hall.2 item List.mem_cons_self), hv.2⟩
          | ok t =>
              rw [hwrite] at hv
              simp only [writeEntries, hkey, hwrite]
              cases htexts : writeEntries floats n rest with
              | error e =>
                  rw [htexts] at hrest
                  refine ⟨fun hall => hrest.1 ⟨?_, ?_⟩, hrest.2⟩
                  · exact fun other hother => hall.1 other (List.mem_cons_of_mem _ hother)
                  · exact fun other hother => hall.2 other (List.mem_cons_of_mem _ hother)
              | ok texts =>
                  rw [htexts] at hrest
                  have hcolon : 32 ≤ (CodePoint.scalar ':').toNat := by decide
                  have hprintable : Printable (quote key ++ .scalar ':' :: t) :=
                    List.forall_mem_append.mpr
                      ⟨hk.1, List.forall_mem_cons.mpr ⟨hcolon, hv.1⟩⟩
                  have hplain : Plain (quote key ++ .scalar ':' :: t) ↔
                      Plain (quote key) ∧ Plain t := by
                    rw [Plain, List.forall_mem_append, List.forall_mem_cons]
                    exact and_congr_right fun _ => and_iff_right rfl
                  refine ⟨List.forall_mem_cons.mpr ⟨hprintable, hrest.1⟩, ?_⟩
                  rw [List.forall_mem_cons, List.forall_mem_cons, List.forall_mem_cons, hplain,
                    ← hrest.2, hk.2, hv.2]
                  exact and_and_and_comm

/-- Brackets around items. -/
theorem AllSettled.bracket {p : Prop} {r : Except Builtin (List Text)} (h : AllSettled p r)
    {opening close : Char} (hopening : 32 ≤ opening.toNat) (hclose : 32 ≤ close.toNat) :
    Settled p (r.map (JsonText.bracket opening close)) := by
  cases r with
  | error e => exact h
  | ok texts =>
      constructor
      · exact (forall_mem_bracket (p := fun c => 32 ≤ c.toNat) hopening hclose (by decide)).mpr
          h.1
      · exact h.2.trans
          (forall_mem_bracket (p := fun c => c.char?.isSome = true) rfl rfl rfl).symm

/-- **Which objects are written**, of those that do not nest too deep. -/
theorem settled_write (floats : Floats F) {n : ℕ} {v : Value F} (h : Within n v) :
    Settled v.Writable (write floats n v) := by
  induction h with
  | scalar hv => exact settled_write_scalar _ hv
  | list h ih =>
      rw [write]
      refine ((settled_writeItems ih).bracket (by decide) (by decide)).congr ⟨?_, .list⟩
      intro hlist
      cases hlist
      assumption
  | tuple h ih =>
      rw [write]
      refine ((settled_writeItems ih).bracket (by decide) (by decide)).congr ⟨?_, .tuple⟩
      intro htuple
      cases htuple
      assumption
  | dict h ih =>
      rw [write]
      refine ((settled_writeEntries ih).bracket (by decide) (by decide)).congr ⟨?_, ?_⟩
      · intro hdict
        cases hdict
        exact ⟨by assumption, by assumption⟩
      · exact fun hitems => .dict hitems.1 hitems.2

/-- What is written does not nest too deep. -/
theorem within_of_write {n : ℕ} {v : Value F} {t : Text} (h : write floats n v = .ok t) :
    Within n v := by
  induction n generalizing v t with
  | zero =>
      cases v with
      | list items => cases h
      | tuple items => cases h
      | dict items => cases h
      | _ => exact .scalar rfl
  | succ n ih =>
      cases v with
      | list items =>
          obtain ⟨texts, htexts, -⟩ := except_map_ok h
          exact .list fun v hv => ih ((writeItems_ok htexts).2 v hv)
      | tuple items =>
          obtain ⟨texts, htexts, -⟩ := except_map_ok h
          exact .tuple fun v hv => ih ((writeItems_ok htexts).2 v hv)
      | dict items =>
          obtain ⟨texts, htexts, -⟩ := except_map_ok h
          exact .dict fun item hitem => ih ((writeEntries_ok htexts).2 item hitem).2
      | _ => exact .scalar rfl

/-- **Which objects have bytes**, of those that do not nest too deep. -/
theorem dumpsBytes_spec (floats : Floats F) {n : ℕ} {v : Value F} (h : Within n v) :
    (v.Writable ∧ ∃ e, dumpsBytes floats n v = .ok e) ∨
      ¬v.Writable ∧ ∃ cls, dumpsBytes floats n v = .error cls ∧
        (cls = .typeError ∨ cls = .valueError) := by
  have hsettled := settled_write floats h
  cases hwrite : write floats n v with
  | error e =>
      rw [hwrite] at hsettled
      exact .inr ⟨hsettled.1, e, by rw [dumpsBytes, hwrite]; rfl, hsettled.2⟩
  | ok t =>
      rw [hwrite] at hsettled
      have hbytes : dumpsBytes floats n v = encode t := by
        rw [dumpsBytes, hwrite]
        rfl
      by_cases hplain : Plain t
      · obtain ⟨cs, rfl⟩ := plain_iff.mp hplain
        exact .inl ⟨hsettled.2.mpr hplain, _, hbytes.trans (encode_chars cs)⟩
      · exact .inr ⟨fun hv => hplain (hsettled.2.mp hv), _,
          hbytes.trans (encode_of_not_plain hplain), .inr rfl⟩

theorem dumpsBytes_ok {n : ℕ} {v : Value F} {e : Bytes} (h : dumpsBytes floats n v = .ok e) :
    ∃ cs, write floats n v = .ok (chars cs) ∧ e = utf8Encode cs := by
  obtain ⟨t, ht, hencode⟩ := bind_eq_ok h
  obtain ⟨cs, rfl, he⟩ := encode_ok hencode
  exact ⟨cs, ht, he⟩

/-- Bytes without a zero that begin with an ASCII character are taken for UTF-8. -/
theorem detectEncoding_eq_utf8 {b : UInt8} {rest : Bytes} (hzero : ∀ x ∈ b :: rest, x ≠ 0)
    (hascii : b < 128) : detectEncoding (b :: rest) = .utf8 := by
  have hb : b ≠ 0 := hzero b List.mem_cons_self
  have hmark : ∀ x : UInt8, 128 ≤ x → x ≠ b := by
    intro x hx h
    subst h
    exact absurd hascii (UInt8.not_lt.mpr hx)
  have h255 := hmark 255 (by decide)
  have h254 := hmark 254 (by decide)
  have h239 := hmark 239 (by decide)
  cases rest with
  | nil => simp [detectEncoding, List.isPrefixOf]
  | cons b₁ rest =>
      have hb₁ : b₁ ≠ 0 := hzero b₁ (by simp)
      rcases rest with _ | ⟨b₂, _ | ⟨b₃, rest⟩⟩ <;>
        simp [detectEncoding, List.isPrefixOf, hb, hb.symm, hb₁, h255, h254, h239]

/-- A symbol that a value begins with is in ASCII. -/
theorem ascii_of_startsValue {c : Char} (h : startsValue (.scalar c) = true) : c.toNat < 128 := by
  simp only [startsValue, Bool.or_eq_true, List.contains_iff_mem] at h
  rcases h with hdigit | hsymbol
  · simp only [CodePoint.isDigit, Char.isDigit, Bool.and_eq_true, decide_eq_true_eq] at hdigit
    have hhigh : c.val.toNat ≤ 57 := UInt32.le_iff_toNat_le.mp hdigit.2
    simp only [Char.toNat]
    omega
  · simp only [List.mem_cons, CodePoint.scalar.injEq, List.not_mem_nil, or_false] at hsymbol
    rcases hsymbol with rfl | rfl | rfl | rfl | rfl | rfl | rfl | rfl | rfl <;> decide

/-- The bytes of an object are decoded to its text. -/
theorem loadsBytes_eq_loads {n : ℕ} {v : Value F} {e : Bytes}
    (decode : Encoding → Bytes → Option Text) (m : ℕ) (h : dumpsBytes floats n v = .ok e) :
    ∃ t, write floats n v = .ok t ∧ loadsBytes floats decode m e = loads floats m t := by
  obtain ⟨cs, hwrite, rfl⟩ := dumpsBytes_ok h
  refine ⟨chars cs, hwrite, ?_⟩
  have hsettled := settled_write floats (within_of_write hwrite)
  rw [hwrite] at hsettled
  have hzero : ∀ x ∈ utf8Encode cs, x ≠ 0 := by
    intro x hx
    obtain ⟨c, hc, hxc⟩ := List.mem_flatMap.mp hx
    have hcontrol : 32 ≤ c.toNat := hsettled.1 (.scalar c) (List.mem_map_of_mem hc)
    exact ne_zero_of_mem_utf8EncodeChar (by omega) hxc
  obtain ⟨c, rest, hhead, hstart⟩ := write_starts hwrite
  have hutf8 : detectEncoding (utf8Encode cs) = .utf8 := by
    cases cs with
    | nil => cases hhead
    | cons d cs =>
        cases hhead
        have hascii := ascii_of_startsValue hstart
        have hbytes : utf8Encode (d :: cs) = UInt8.ofNat d.toNat :: utf8Encode cs := by
          rw [utf8Encode, List.flatMap_cons, utf8EncodeChar_ascii hascii]
          rfl
        rw [hbytes] at hzero ⊢
        refine detectEncoding_eq_utf8 hzero ?_
        rw [UInt8.lt_iff_toNat_lt, UInt8.toNat_ofNat']
        exact lt_of_le_of_lt (Nat.mod_le _ _) hascii
  simp only [loadsBytes, hutf8, utf8Decode_utf8Encode, Option.map_some]

/-- **The bytes of an object are read back.** -/
theorem loadsBytes_dumpsBytes {n m : ℕ} {v : Value F} {e : Bytes}
    (decode : Encoding → Bytes → Option Text) (h : dumpsBytes floats n v = .ok e)
    (hm : Within m v) : loadsBytes floats decode m e = .ok (v.normal floats) := by
  obtain ⟨t, ht, hloads⟩ := loadsBytes_eq_loads decode m h
  rw [hloads, loads_write ht hm]

theorem loadsBytes_deep {n m : ℕ} {v : Value F} {e : Bytes}
    (decode : Encoding → Bytes → Option Text) (h : dumpsBytes floats n v = .ok e)
    (hm : ¬Within m v) : loadsBytes floats decode m e = .error .recursionError := by
  obtain ⟨t, ht, hloads⟩ := loadsBytes_eq_loads decode m h
  rw [hloads, loads_write_deep ht hm]

end
end UcloudSandboxes.Python.JsonText
