import UcloudSandboxes.Python.JsonNumbers

/-!
# What `json.dumps` writes, `json.loads` reads back

`json.loads` of the text of an object yields the object with lists for its tuples and texts for
the keys of its `dict`s: `Value.normal`. For a value that JSON has, `Value.IsJson`, that is the
value itself.

The proofs follow the nesting of the object: `Within n v` says that `v` nests `n` levels deep at
most.

## Main results

* `scanOnce_write`: the text of an object is read back, in front of whatever ends a number.
* `scanOnce_deep`: what nests too deep is not.
-/
namespace UcloudSandboxes.Python.JsonText
open Lib

section
variable {F : Type}

/-- Neither a list nor a tuple nor a `dict`. -/
def Value.isScalar : Value F → Bool
  | .list _ | .tuple _ | .dict _ => false
  | _ => true

/-- The value nests `n` levels deep at most. -/
inductive Within : ℕ → Value F → Prop
  | scalar {n : ℕ} {v : Value F} (h : v.isScalar = true) : Within n v
  | list {n : ℕ} {items : List (Value F)} (h : ∀ v ∈ items, Within n v) :
      Within (n + 1) (.list items)
  | tuple {n : ℕ} {items : List (Value F)} (h : ∀ v ∈ items, Within n v) :
      Within (n + 1) (.tuple items)
  | dict {n : ℕ} {items : List (Key F × Value F)} (h : ∀ item ∈ items, Within n item.2) :
      Within (n + 1) (.dict items)

variable (floats : Floats F)

/-- The text of a key that `json.dumps` takes. -/
def keyName (k : Key F) : Text :=
  match keyText floats k with
  | .ok s => s
  | .error _ => []

mutual

/-- What `json.loads` makes of the text of an object. -/
def Value.normal : Value F → Value F
  | .list items => .list (Value.normalItems items)
  | .tuple items => .list (Value.normalItems items)
  | .dict items => dictValue (Value.normalEntries items)
  | v => v

/-- What it makes of items. -/
def Value.normalItems : List (Value F) → List (Value F)
  | [] => []
  | v :: rest => v.normal :: Value.normalItems rest

/-- What it makes of entries. -/
def Value.normalEntries : List (Key F × Value F) → List (Text × Value F)
  | [] => []
  | (k, v) :: rest => (keyName floats k, v.normal) :: Value.normalEntries rest

end

theorem normalItems_eq (items : List (Value F)) :
    Value.normalItems floats items = items.map (Value.normal floats) := by
  induction items with
  | nil => rfl
  | cons v rest ih => rw [Value.normalItems, ih, List.map_cons]

theorem normalEntries_eq (items : List (Key F × Value F)) :
    Value.normalEntries floats items =
      items.map fun item => (keyName floats item.1, item.2.normal floats) := by
  induction items with
  | nil => rfl
  | cons item rest ih => rw [Value.normalEntries, ih, List.map_cons]

end

section
variable {F : Type} {floats : Floats F}

@[simp] theorem lit_null : lit "null" = [.scalar 'n', .scalar 'u', .scalar 'l', .scalar 'l'] := by
  simp [lit, chars]

@[simp] theorem lit_true : lit "true" = [.scalar 't', .scalar 'r', .scalar 'u', .scalar 'e'] := by
  simp [lit, chars]

@[simp] theorem lit_false :
    lit "false" = [.scalar 'f', .scalar 'a', .scalar 'l', .scalar 's', .scalar 'e'] := by
  simp [lit, chars]

@[simp] theorem lit_NaN : lit "NaN" = [.scalar 'N', .scalar 'a', .scalar 'N'] := by
  simp [lit, chars]

@[simp] theorem lit_Infinity :
    lit "Infinity" = [.scalar 'I', .scalar 'n', .scalar 'f', .scalar 'i', .scalar 'n',
      .scalar 'i', .scalar 't', .scalar 'y'] := by
  simp [lit, chars]

@[simp] theorem lit_negInfinity :
    lit "-Infinity" = [.scalar '-', .scalar 'I', .scalar 'n', .scalar 'f', .scalar 'i',
      .scalar 'n', .scalar 'i', .scalar 't', .scalar 'y'] := by
  simp [lit, chars]

@[simp] theorem lit_space :
    lit " \t\n\r" = [.scalar ' ', .scalar '\t', .scalar '\n', .scalar '\r'] := by
  simp [lit, chars]

/-- A symbol that a value begins with. -/
def startsValue (c : CodePoint) : Bool :=
  c.isDigit || [.scalar '"', .scalar '[', .scalar '\x7b', .scalar '-', .scalar 'n', .scalar 't',
    .scalar 'f', .scalar 'N', .scalar 'I'].contains c

/-- White space ends at a symbol that is none. -/
theorem skip_cons {c : CodePoint} (hc : (lit " \t\n\r").contains c = false) (rest : Text) :
    skip (c :: rest) = c :: rest := by
  rw [skip, List.dropWhile_cons, hc]
  rfl

theorem not_space_of_startsValue {c : CodePoint} (h : startsValue c = true) :
    (lit " \t\n\r").contains c = false := by
  by_contra hspace
  simp only [lit_space, Bool.not_eq_false, List.contains_iff_mem, List.mem_cons,
    List.not_mem_nil, or_false] at hspace
  rcases hspace with rfl | rfl | rfl | rfl <;> exact absurd h (by decide)

theorem not_close_of_startsValue {c : CodePoint} (h : startsValue c = true) :
    c ≠ .scalar ']' ∧ c ≠ .scalar '\x7d' := by
  constructor
  · intro hc
    subst hc
    exact absurd h (by decide)
  · intro hc
    subst hc
    exact absurd h (by decide)

/-- The text of a number begins with a digit, or with a minus sign and a digit. -/
theorem Literal.WellFormed.text_eq {l : Literal} (hl : l.WellFormed) (rest : Text) :
    ∃ d tail, d.isDigit = true ∧ l.text ++ rest = signText l.negative ++ d :: tail := by
  obtain ⟨d, ds, hwhole, hd⟩ := hl.head
  refine ⟨d, ds ++ (fractionText l.fraction ++ (exponentText l.exponent ++ rest)), hd, ?_⟩
  rw [Literal.text_append, hwhole, List.cons_append]

/-- No value with a name begins as a number does. -/
theorem constants_find_none {negative : Bool} {d : CodePoint} (hd : d.isDigit = true)
    (rest : Text) :
    (constants (F := F)).find? (fun constant => constant.1.isPrefixOf
      (signText negative ++ d :: rest)) = none := by
  have hne : ∀ c : CodePoint, c.isDigit = false → c ≠ d := by
    intro c hc h
    subst h
    rw [hc] at hd
    cases hd
  have hn := hne (.scalar 'n') rfl
  have ht := hne (.scalar 't') rfl
  have hf := hne (.scalar 'f') rfl
  have hN := hne (.scalar 'N') rfl
  have hI := hne (.scalar 'I') rfl
  have hminus := hne (.scalar '-') rfl
  cases negative with
  | true => simp [constants, signText, List.isPrefixOf, hI]
  | false => simp [constants, signText, List.isPrefixOf, hn, ht, hf, hN, hI, hminus]

theorem scanScalar_literal (floats : Floats F) {l : Literal} (hl : l.WellFormed) {rest : Text}
    (hrest : NumberEnd rest) :
    scanScalar floats (l.text ++ rest) = (l.value floats).map (·, rest) := by
  have hread := readLiteral_text hl hrest
  obtain ⟨d, tail, hd, htext⟩ := hl.text_eq rest
  rw [htext] at hread ⊢
  rw [scanScalar, constants_find_none hd]
  simp only [hread]

theorem intText_ok {n : ℤ} {t : Text} (h : intText n = .ok t) :
    (Nat.toDigits 10 n.natAbs).length ≤ maxStrDigits ∧ t = (intLiteral n).text := by
  rw [intText] at h
  by_cases hlength : maxStrDigits < (Nat.toDigits 10 n.natAbs).length
  · rw [if_pos hlength] at h
    cases h
  · rw [if_neg hlength] at h
    exact ⟨by omega, (Except.ok.inj h).symm⟩

theorem literal_starts {l : Literal} (hl : l.WellFormed) :
    ∃ c rest, l.text = c :: rest ∧ startsValue c = true := by
  obtain ⟨d, tail, hd, htext⟩ := hl.text_eq []
  rw [List.append_nil] at htext
  rw [htext]
  cases l.negative with
  | true => exact ⟨.scalar '-', d :: tail, rfl, rfl⟩
  | false => exact ⟨d, tail, rfl, by simp [startsValue, hd]⟩

theorem except_map_ok {ε α β : Type} {x : Except ε α} {f : α → β} {b : β}
    (h : x.map f = .ok b) : ∃ a, x = .ok a ∧ f a = b := by
  cases x with
  | error e => cases h
  | ok a => exact ⟨a, rfl, Except.ok.inj h⟩

/-- What a text in brackets begins with. -/
theorem bracket_append (opening close : Char) (texts : List Text) (rest : Text) :
    bracket opening close texts ++ rest =
      .scalar opening :: (joinItems (.scalar ',') texts ++ .scalar close :: rest) := by
  simp [bracket]

theorem write_starts {n : ℕ} {v : Value F} {t : Text} (h : write floats n v = .ok t) :
    ∃ c rest, t = c :: rest ∧ startsValue c = true := by
  cases v with
  | null =>
      cases h
      exact ⟨.scalar 'n', _, lit_null, rfl⟩
  | bool b =>
      cases h
      cases b
      · exact ⟨.scalar 'f', _, lit_false, rfl⟩
      · exact ⟨.scalar 't', _, lit_true, rfl⟩
  | int k =>
      have htext := (intText_ok h).2
      subst htext
      exact literal_starts (intLiteral_wellFormed k)
  | float f =>
      cases h
      cases f with
      | finite x => exact literal_starts (floats.wellFormed x)
      | posInf => exact ⟨.scalar 'I', _, lit_Infinity, rfl⟩
      | negInf => exact ⟨.scalar '-', _, lit_negInfinity, rfl⟩
      | nan => exact ⟨.scalar 'N', _, lit_NaN, rfl⟩
  | str s =>
      cases h
      exact ⟨.scalar '"', _, rfl, rfl⟩
  | list items =>
      cases n with
      | zero => cases h
      | succ n =>
          obtain ⟨texts, -, rfl⟩ := except_map_ok h
          exact ⟨.scalar '[', _, rfl, rfl⟩
  | tuple items =>
      cases n with
      | zero => cases h
      | succ n =>
          obtain ⟨texts, -, rfl⟩ := except_map_ok h
          exact ⟨.scalar '[', _, rfl, rfl⟩
  | dict items =>
      cases n with
      | zero => cases h
      | succ n =>
          obtain ⟨texts, -, rfl⟩ := except_map_ok h
          exact ⟨.scalar '\x7b', _, rfl, rfl⟩
  | other => cases h

/-- A value is scanned as a scalar unless it opens quotes or brackets. -/
theorem scanOnce_scalar (m : ℕ) {c : CodePoint} {rest : Text} (hquote : c ≠ .scalar '"')
    (hlist : c ≠ .scalar '[') (hdict : c ≠ .scalar '\x7b') :
    scanOnce floats m (c :: rest) = scanScalar floats (c :: rest) := by
  cases m with
  | zero => simp only [scanOnce, scanValue, if_neg hquote, if_neg hlist, if_neg hdict]
  | succ m => simp only [scanOnce, scanValue, if_neg hquote, if_neg hlist, if_neg hdict]

theorem scanOnce_quote (m : ℕ) (s rest : Text) :
    scanOnce floats m (quote s ++ rest) = .ok (.str s, rest) := by
  have hlength := length_le_escape s
  have hread := readQuoted_quote s rest
    (n := (s.flatMap CodePoint.escape ++ .scalar '"' :: rest).length) (by
      rw [List.length_append, List.length_cons]
      omega)
  have hquote : quote s ++ rest =
      .scalar '"' :: (s.flatMap CodePoint.escape ++ .scalar '"' :: rest) := by
    simp [quote]
  cases m with
  | zero => simp only [hquote, scanOnce, scanValue, if_true, hread]
  | succ m => simp only [hquote, scanOnce, scanValue, if_true, hread]

theorem scanOnce_literal (m : ℕ) {l : Literal} (hl : l.WellFormed) {v : Value F}
    (hv : l.value floats = .ok v) {rest : Text} (hrest : NumberEnd rest) :
    scanOnce floats m (l.text ++ rest) = .ok (v, rest) := by
  have hscan := scanScalar_literal floats hl hrest
  obtain ⟨d, tail, hd, htext⟩ := hl.text_eq rest
  have hne : ∀ c : CodePoint, c.isDigit = false → d ≠ c := by
    intro c hc h
    subst h
    rw [hc] at hd
    cases hd
  rw [hv, htext] at hscan
  rw [htext]
  cases hsign : l.negative with
  | true =>
      rw [hsign] at hscan
      exact (scanOnce_scalar m (by decide) (by decide) (by decide)).trans hscan
  | false =>
      rw [hsign] at hscan
      exact (scanOnce_scalar m (hne _ rfl) (hne _ rfl) (hne _ rfl)).trans hscan

/-- A value without brackets is read back. -/
theorem scanOnce_write_scalar {n : ℕ} (m : ℕ) {v : Value F} (hv : v.isScalar = true) {t : Text}
    (h : write floats n v = .ok t) {rest : Text} (hrest : NumberEnd rest) :
    scanOnce floats m (t ++ rest) = .ok (v.normal floats, rest) := by
  cases v with
  | null =>
      cases h
      rw [lit_null]
      refine (scanOnce_scalar m (by decide) (by decide) (by decide)).trans ?_
      simp [scanScalar, constants, List.isPrefixOf, Value.normal]
  | bool b =>
      cases h
      cases b
      · rw [boolText, if_neg (by simp), lit_false]
        refine (scanOnce_scalar m (by decide) (by decide) (by decide)).trans ?_
        simp [scanScalar, constants, List.isPrefixOf, Value.normal]
      · rw [boolText, if_pos rfl, lit_true]
        refine (scanOnce_scalar m (by decide) (by decide) (by decide)).trans ?_
        simp [scanScalar, constants, List.isPrefixOf, Value.normal]
  | int k =>
      obtain ⟨hlength, rfl⟩ := intText_ok h
      exact scanOnce_literal m (intLiteral_wellFormed k) (value_intLiteral floats hlength) hrest
  | float f =>
      cases h
      cases f with
      | finite x => exact scanOnce_literal m (floats.wellFormed x) (value_repr floats x) hrest
      | posInf =>
          rw [floatText, lit_Infinity]
          refine (scanOnce_scalar m (by decide) (by decide) (by decide)).trans ?_
          simp [scanScalar, constants, List.isPrefixOf, Value.normal]
      | negInf =>
          rw [floatText, lit_negInfinity]
          refine (scanOnce_scalar m (by decide) (by decide) (by decide)).trans ?_
          simp [scanScalar, constants, List.isPrefixOf, Value.normal]
      | nan =>
          rw [floatText, lit_NaN]
          refine (scanOnce_scalar m (by decide) (by decide) (by decide)).trans ?_
          simp [scanScalar, constants, List.isPrefixOf, Value.normal]
  | str s =>
      cases h
      exact scanOnce_quote m s rest
  | list items => cases hv
  | tuple items => cases hv
  | dict items => cases hv
  | other => cases h

theorem skip_enc {γ : Type} {enc : γ → Text} {items : List γ}
    (hhead : ∀ x ∈ items, ∃ c rest, enc x = c :: rest ∧ startsValue c = true) :
    ∀ x ∈ items, ∀ rest, skip (enc x ++ rest) = enc x ++ rest := by
  intro x hx rest
  obtain ⟨c, tail, henc, hc⟩ := hhead x hx
  rw [henc, List.cons_append]
  exact skip_cons (not_space_of_startsValue hc) _

/-- Within brackets the items are read at once if there are any. -/
theorem readMany_eq_readItems {β γ : Type} {close : CodePoint}
    (hclose : ∀ c, startsValue c = true → c ≠ close)
    (item : Text → Except Builtin (β × Text)) {enc : γ → Text} {items : List γ}
    (hne : items ≠ [])
    (hhead : ∀ x ∈ items, ∃ c rest, enc x = c :: rest ∧ startsValue c = true) (rest : Text) :
    ∃ n, items.length ≤ n ∧
      readMany close item (joinItems (.scalar ',') (items.map enc) ++ close :: rest) =
        readItems (.scalar ',') close .valueError skip item n
          (joinItems (.scalar ',') (items.map enc) ++ close :: rest) := by
  have hlength := length_le_joinItems (.scalar ',') (items.map enc)
  rw [List.length_map] at hlength
  refine ⟨(joinItems (.scalar ',') (items.map enc) ++ close :: rest).length, ?_, ?_⟩
  · rw [List.length_append, List.length_cons]
    omega
  -- The first symbol is that of the first item.
  obtain ⟨x, items', rfl⟩ := List.exists_cons_of_ne_nil hne
  obtain ⟨c, tail, henc, hc⟩ := hhead x List.mem_cons_self
  have hfirst : ∃ tail', joinItems (.scalar ',') ((x :: items').map enc) ++ close :: rest =
      c :: tail' := by
    by_cases hlast : items' = []
    · subst hlast
      exact ⟨tail ++ close :: rest, by simp [henc]⟩
    · rw [List.map_cons, joinItems_cons _ _ (by simpa using hlast), henc]
      exact ⟨_, rfl⟩
  obtain ⟨tail', htext⟩ := hfirst
  rw [htext, readMany, skip_cons (not_space_of_startsValue hc)]
  exact if_neg (hclose c hc)

/-- Items in brackets are read back. -/
theorem readMany_join {β γ : Type} {close : CodePoint} (hcomma : close ≠ .scalar ',')
    (hspace : (lit " \t\n\r").contains close = false)
    (hclose : ∀ c, startsValue c = true → c ≠ close)
    {item : Text → Except Builtin (β × Text)} {enc : γ → Text} {val : γ → β} {items : List γ}
    (hitem : ∀ x ∈ items, ∀ c rest, c = .scalar ',' ∨ c = close →
      item (enc x ++ c :: rest) = .ok (val x, c :: rest))
    (hhead : ∀ x ∈ items, ∃ c rest, enc x = c :: rest ∧ startsValue c = true) (rest : Text) :
    readMany close item (joinItems (.scalar ',') (items.map enc) ++ close :: rest) =
      .ok (items.map val, rest) := by
  by_cases hnil : items = []
  · subst hnil
    simp only [List.map_nil, joinItems, List.intercalate_nil, List.nil_append, readMany,
      skip_cons hspace, if_true]
  · obtain ⟨n, hn, hread⟩ := readMany_eq_readItems hclose item hnil hhead rest
    rw [hread]
    exact readItems_join hnil hcomma (skip_cons (by simp)) (skip_cons hspace) hitem
      (skip_enc hhead) rest hn

/-- The first item in brackets that cannot be read ends the reading. -/
theorem readMany_join_error {β γ : Type} {close : CodePoint} (hcomma : close ≠ .scalar ',')
    (hspace : (lit " \t\n\r").contains close = false)
    (hclose : ∀ c, startsValue c = true → c ≠ close)
    {item : Text → Except Builtin (β × Text)} {enc : γ → Text} (val : γ → β) {items : List γ}
    {good : γ → Prop} (hbad : ∃ x ∈ items, ¬good x) {e : Builtin}
    (hitem : ∀ x ∈ items, good x → ∀ c rest, c = .scalar ',' ∨ c = close →
      item (enc x ++ c :: rest) = .ok (val x, c :: rest))
    (herror : ∀ x ∈ items, ¬good x → ∀ c rest, c = .scalar ',' ∨ c = close →
      item (enc x ++ c :: rest) = .error e)
    (hhead : ∀ x ∈ items, ∃ c rest, enc x = c :: rest ∧ startsValue c = true) (rest : Text) :
    readMany close item (joinItems (.scalar ',') (items.map enc) ++ close :: rest) =
      .error e := by
  have hne : items ≠ [] := by
    obtain ⟨x, hx, -⟩ := hbad
    exact List.ne_nil_of_mem hx
  obtain ⟨n, hn, hread⟩ := readMany_eq_readItems hclose item hne hhead rest
  rw [hread]
  exact readItems_join_error hbad hcomma (skip_cons (by simp)) (skip_cons hspace) hitem herror
    (skip_enc hhead) rest hn

/-- The text that an object has. -/
def textOf (floats : Floats F) (n : ℕ) (v : Value F) : Text :=
  match write floats n v with
  | .ok t => t
  | .error _ => []

/-- The text that an entry has. -/
def entryText (floats : Floats F) (n : ℕ) (item : Key F × Value F) : Text :=
  quote (keyName floats item.1) ++ .scalar ':' :: textOf floats n item.2

theorem entryText_starts {n : ℕ} {items : List (Key F × Value F)} :
    ∀ item ∈ items, ∃ c rest, entryText floats n item = c :: rest ∧ startsValue c = true :=
  fun _ _ => ⟨.scalar '"', _, rfl, rfl⟩

theorem writeItems_ok {n : ℕ} {items : List (Value F)} {texts : List Text}
    (h : writeItems floats n items = .ok texts) :
    texts = items.map (textOf floats n) ∧
      ∀ v ∈ items, write floats n v = .ok (textOf floats n v) := by
  induction items generalizing texts with
  | nil =>
      cases h
      exact ⟨rfl, by simp⟩
  | cons v rest ih =>
      cases hv : write floats n v with
      | error e => simp only [writeItems, hv, reduceCtorEq] at h
      | ok t =>
          simp only [writeItems, hv] at h
          obtain ⟨texts', hrest, rfl⟩ := except_map_ok h
          have htext : textOf floats n v = t := by simp only [textOf, hv]
          refine ⟨by rw [List.map_cons, ← (ih hrest).1, htext], ?_⟩
          intro w hw
          rcases List.mem_cons.mp hw with rfl | hw
          · rw [hv, htext]
          · exact (ih hrest).2 w hw

theorem writeEntries_ok {n : ℕ} {items : List (Key F × Value F)} {texts : List Text}
    (h : writeEntries floats n items = .ok texts) :
    texts = items.map (entryText floats n) ∧
      ∀ item ∈ items, keyText floats item.1 = .ok (keyName floats item.1) ∧
        write floats n item.2 = .ok (textOf floats n item.2) := by
  induction items generalizing texts with
  | nil =>
      cases h
      exact ⟨rfl, by simp⟩
  | cons item rest ih =>
      cases hk : keyText floats item.1 with
      | error e => simp only [writeEntries, hk, reduceCtorEq] at h
      | ok key =>
          cases hv : write floats n item.2 with
          | error e => simp only [writeEntries, hk, hv, reduceCtorEq] at h
          | ok t =>
              simp only [writeEntries, hk, hv] at h
              obtain ⟨texts', hrest, rfl⟩ := except_map_ok h
              have htext : textOf floats n item.2 = t := by simp only [textOf, hv]
              have hname : keyName floats item.1 = key := by simp only [keyName, hk]
              refine ⟨by rw [List.map_cons, ← (ih hrest).1, entryText, htext, hname], ?_⟩
              intro other hother
              rcases List.mem_cons.mp hother with rfl | hother
              · rw [hk, hv, htext, hname]
                exact ⟨rfl, rfl⟩
              · exact (ih hrest).2 other hother

/-- A comma and a closing bracket end a number. -/
theorem numberEnd_cons {c close : CodePoint} (hc : c = .scalar ',' ∨ c = close)
    (hclose : close = .scalar ']' ∨ close = .scalar '\x7d') (rest : Text) :
    NumberEnd (c :: rest) := by
  intro d hd
  cases hd
  rcases hc with rfl | rfl
  · decide
  · rcases hclose with rfl | rfl <;> decide

/-- An entry is read by reading its value. -/
theorem readEntry_text (scan : Text → Except Builtin (Value F × Text)) {key t rest : Text}
    (hstart : ∃ c tail, t = c :: tail ∧ startsValue c = true) :
    readEntry scan (quote key ++ .scalar ':' :: t ++ rest) =
      (scan (t ++ rest)).map fun r => ((key, r.1), r.2) := by
  obtain ⟨c, tail, rfl, hc⟩ := hstart
  have hlength := length_le_escape key
  have hread := readQuoted_quote key (.scalar ':' :: (c :: tail ++ rest))
    (n := (key.flatMap CodePoint.escape ++
      .scalar '"' :: .scalar ':' :: (c :: tail ++ rest)).length) (by
        rw [List.length_append, List.length_cons]
        omega)
  have hquote : quote key ++ .scalar ':' :: (c :: tail) ++ rest = .scalar '"' ::
      (key.flatMap CodePoint.escape ++ .scalar '"' :: .scalar ':' :: (c :: tail ++ rest)) := by
    simp [quote]
  have hcolon : (lit " \t\n\r").contains (.scalar ':') = false := by decide +kernel
  have hskip : skip (c :: tail ++ rest) = c :: tail ++ rest :=
    skip_cons (not_space_of_startsValue hc) _
  rw [hquote]
  simp only [readEntry, if_true, hread, skip_cons hcolon, hskip]

/-- The scanner reads what stands within brackets one level further down. -/
theorem scanOnce_bracket_list (m : ℕ) (texts : List Text) (rest : Text) :
    scanOnce floats (m + 1) (bracket '[' ']' texts ++ rest) =
      (readMany (.scalar ']') (scanOnce floats m)
        (joinItems (.scalar ',') texts ++ .scalar ']' :: rest)).map fun r =>
          (.list r.1, r.2) := by
  rw [bracket_append]
  simp only [scanOnce, scanValue, CodePoint.scalar.injEq, Char.reduceEq, if_false, if_true]

theorem scanOnce_bracket_dict (m : ℕ) (texts : List Text) (rest : Text) :
    scanOnce floats (m + 1) (bracket '\x7b' '\x7d' texts ++ rest) =
      (readMany (.scalar '\x7d') (readEntry (scanOnce floats m))
        (joinItems (.scalar ',') texts ++ .scalar '\x7d' :: rest)).map fun r =>
          (dictValue r.1, r.2) := by
  rw [bracket_append]
  simp only [scanOnce, scanValue, CodePoint.scalar.injEq, Char.reduceEq, if_false, if_true]

/-- Items that are read back one by one are read back within brackets. -/
theorem scanOnce_items {m n : ℕ} {items : List (Value F)} {texts : List Text}
    (ih : ∀ v ∈ items, ∀ (n : ℕ) (t rest : Text), write floats n v = .ok t → NumberEnd rest →
      scanOnce floats m (t ++ rest) = .ok (v.normal floats, rest))
    (h : writeItems floats n items = .ok texts) (rest : Text) :
    scanOnce floats (m + 1) (bracket '[' ']' texts ++ rest) =
      .ok (.list (items.map (Value.normal floats)), rest) := by
  obtain ⟨htexts, hwrite⟩ := writeItems_ok h
  have hread : readMany (.scalar ']') (scanOnce floats m)
      (joinItems (.scalar ',') (items.map (textOf floats n)) ++ .scalar ']' :: rest) =
        .ok (items.map (Value.normal floats), rest) := readMany_join (by decide)
    (by decide +kernel) (fun c hc => (not_close_of_startsValue hc).1)
    (fun v hv c rest hc => ih v hv n _ _ (hwrite v hv) (numberEnd_cons hc (.inl rfl) rest))
    (fun v hv => write_starts (hwrite v hv)) rest
  rw [scanOnce_bracket_list, htexts, hread]
  rfl

theorem scanOnce_entries {m n : ℕ} {items : List (Key F × Value F)} {texts : List Text}
    (ih : ∀ item ∈ items, ∀ (n : ℕ) (t rest : Text), write floats n item.2 = .ok t →
      NumberEnd rest → scanOnce floats m (t ++ rest) = .ok (item.2.normal floats, rest))
    (h : writeEntries floats n items = .ok texts) (rest : Text) :
    scanOnce floats (m + 1) (bracket '\x7b' '\x7d' texts ++ rest) =
      .ok (dictValue (items.map fun item => (keyName floats item.1, item.2.normal floats)),
        rest) := by
  obtain ⟨htexts, hwrite⟩ := writeEntries_ok h
  have hitem : ∀ item ∈ items, ∀ c rest, c = .scalar ',' ∨ c = .scalar '\x7d' →
      readEntry (scanOnce floats m) (entryText floats n item ++ c :: rest) =
        .ok ((keyName floats item.1, item.2.normal floats), c :: rest) := by
    intro item hitem c rest hc
    have hvalue := (hwrite item hitem).2
    rw [entryText, readEntry_text _ (write_starts hvalue),
      ih item hitem n _ _ hvalue (numberEnd_cons hc (.inr rfl) rest)]
    rfl
  have hread : readMany (.scalar '\x7d') (readEntry (scanOnce floats m))
      (joinItems (.scalar ',') (items.map (entryText floats n)) ++ .scalar '\x7d' :: rest) =
        .ok (items.map fun item => (keyName floats item.1, item.2.normal floats), rest) :=
    readMany_join (by decide) (by decide +kernel) (fun c hc => (not_close_of_startsValue hc).2)
      hitem entryText_starts rest
  rw [scanOnce_bracket_dict, htexts, hread]
  rfl

/-- **What is written is read back**, in front of whatever ends a number. -/
theorem scanOnce_write {m : ℕ} {v : Value F} (hm : Within m v) :
    ∀ (n : ℕ) (t rest : Text), write floats n v = .ok t → NumberEnd rest →
      scanOnce floats m (t ++ rest) = .ok (v.normal floats, rest) := by
  induction hm with
  | scalar hv =>
      intro n t rest ht hrest
      exact scanOnce_write_scalar _ hv ht hrest
  | list h ih =>
      intro n t rest ht hrest
      cases n with
      | zero => cases ht
      | succ n =>
          obtain ⟨texts, htexts, rfl⟩ := except_map_ok ht
          rw [Value.normal, normalItems_eq]
          exact scanOnce_items ih htexts rest
  | tuple h ih =>
      intro n t rest ht hrest
      cases n with
      | zero => cases ht
      | succ n =>
          obtain ⟨texts, htexts, rfl⟩ := except_map_ok ht
          rw [Value.normal, normalItems_eq]
          exact scanOnce_items ih htexts rest
  | dict h ih =>
      intro n t rest ht hrest
      cases n with
      | zero => cases ht
      | succ n =>
          obtain ⟨texts, htexts, rfl⟩ := except_map_ok ht
          rw [Value.normal, normalEntries_eq]
          exact scanOnce_entries ih htexts rest

/-- Items of which one nests too deep are not read. -/
theorem scanOnce_items_deep {m n : ℕ} {items : List (Value F)} {texts : List Text}
    (hdeep : ∃ v ∈ items, ¬Within m v)
    (ih : ∀ v ∈ items, ¬Within m v → ∀ (t rest : Text), write floats n v = .ok t →
      NumberEnd rest → scanOnce floats m (t ++ rest) = .error .recursionError)
    (h : writeItems floats n items = .ok texts) (rest : Text) :
    scanOnce floats (m + 1) (bracket '[' ']' texts ++ rest) = .error .recursionError := by
  obtain ⟨htexts, hwrite⟩ := writeItems_ok h
  have hread : readMany (.scalar ']') (scanOnce floats m)
      (joinItems (.scalar ',') (items.map (textOf floats n)) ++ .scalar ']' :: rest) =
        .error .recursionError := readMany_join_error (by decide) (by decide +kernel)
    (fun c hc => (not_close_of_startsValue hc).1) (Value.normal floats) hdeep
    (fun v hv hm c rest hc =>
      scanOnce_write hm n _ _ (hwrite v hv) (numberEnd_cons hc (.inl rfl) rest))
    (fun v hv hm c rest hc => ih v hv hm _ _ (hwrite v hv) (numberEnd_cons hc (.inl rfl) rest))
    (fun v hv => write_starts (hwrite v hv)) rest
  rw [scanOnce_bracket_list, htexts, hread]
  rfl

theorem scanOnce_entries_deep {m n : ℕ} {items : List (Key F × Value F)} {texts : List Text}
    (hdeep : ∃ item ∈ items, ¬Within m item.2)
    (ih : ∀ item ∈ items, ¬Within m item.2 → ∀ (t rest : Text),
      write floats n item.2 = .ok t → NumberEnd rest →
        scanOnce floats m (t ++ rest) = .error .recursionError)
    (h : writeEntries floats n items = .ok texts) (rest : Text) :
    scanOnce floats (m + 1) (bracket '\x7b' '\x7d' texts ++ rest) =
      .error .recursionError := by
  obtain ⟨htexts, hwrite⟩ := writeEntries_ok h
  have hitem : ∀ item ∈ items, Within m item.2 →
      ∀ c rest, c = .scalar ',' ∨ c = .scalar '\x7d' →
        readEntry (scanOnce floats m) (entryText floats n item ++ c :: rest) =
          .ok ((keyName floats item.1, item.2.normal floats), c :: rest) := by
    intro item hitem hm c rest hc
    have hvalue := (hwrite item hitem).2
    rw [entryText, readEntry_text _ (write_starts hvalue),
      scanOnce_write hm n _ _ hvalue (numberEnd_cons hc (.inr rfl) rest)]
    rfl
  have herror : ∀ item ∈ items, ¬Within m item.2 →
      ∀ c rest, c = .scalar ',' ∨ c = .scalar '\x7d' →
        readEntry (scanOnce floats m) (entryText floats n item ++ c :: rest) =
          .error .recursionError := by
    intro item hitem hm c rest hc
    have hvalue := (hwrite item hitem).2
    rw [entryText, readEntry_text _ (write_starts hvalue),
      ih item hitem hm _ _ hvalue (numberEnd_cons hc (.inr rfl) rest)]
    rfl
  have hread : readMany (.scalar '\x7d') (readEntry (scanOnce floats m))
      (joinItems (.scalar ',') (items.map (entryText floats n)) ++ .scalar '\x7d' :: rest) =
        .error .recursionError :=
    readMany_join_error (by decide) (by decide +kernel)
      (fun c hc => (not_close_of_startsValue hc).2)
      (fun item => (keyName floats item.1, item.2.normal floats)) hdeep hitem herror
      entryText_starts rest
  rw [scanOnce_bracket_dict, htexts, hread]
  rfl

theorem not_scalar_of_deep {m : ℕ} {v : Value F} (h : ¬Within m v) : v.isScalar = false := by
  cases hv : v.isScalar with
  | true => exact absurd (.scalar hv) h
  | false => rfl

/-- What is written within brackets is written one level further down. -/
theorem write_brackets {n : ℕ} {v : Value F} {t : Text} (hv : v.isScalar = false)
    (h : write floats n v = .ok t) :
    ∃ n', n = n' + 1 ∧
      ((∃ items texts, (v = .list items ∨ v = .tuple items) ∧
        writeItems floats n' items = .ok texts ∧ t = bracket '[' ']' texts) ∨
      ∃ items texts, v = .dict items ∧
        writeEntries floats n' items = .ok texts ∧ t = bracket '\x7b' '\x7d' texts) := by
  cases n with
  | zero =>
      cases v with
      | list items => cases h
      | tuple items => cases h
      | dict items => cases h
      | _ => cases hv
  | succ n =>
      refine ⟨n, rfl, ?_⟩
      cases v with
      | list items =>
          obtain ⟨texts, htexts, rfl⟩ := except_map_ok h
          exact .inl ⟨items, texts, .inl rfl, htexts, rfl⟩
      | tuple items =>
          obtain ⟨texts, htexts, rfl⟩ := except_map_ok h
          exact .inl ⟨items, texts, .inr rfl, htexts, rfl⟩
      | dict items =>
          obtain ⟨texts, htexts, rfl⟩ := except_map_ok h
          exact .inr ⟨items, texts, rfl, htexts, rfl⟩
      | _ => cases hv

/-- **What nests too deep is not read back**: the reader meets its recursion limit. -/
theorem scanOnce_deep {m : ℕ} :
    ∀ {v : Value F}, ¬Within m v → ∀ (n : ℕ) (t rest : Text), write floats n v = .ok t →
      NumberEnd rest → scanOnce floats m (t ++ rest) = .error .recursionError := by
  induction m with
  | zero =>
      intro v hm n t rest ht hrest
      obtain ⟨n, -, hlist | hdict⟩ := write_brackets (not_scalar_of_deep hm) ht
      · obtain ⟨items, texts, -, -, rfl⟩ := hlist
        simp [bracket, scanOnce, scanValue]
      · obtain ⟨items, texts, -, -, rfl⟩ := hdict
        simp [bracket, scanOnce, scanValue]
  | succ m ih =>
      intro v hm n t rest ht hrest
      obtain ⟨n, -, hlist | hdict⟩ := write_brackets (not_scalar_of_deep hm) ht
      · obtain ⟨items, texts, hv, htexts, rfl⟩ := hlist
        have hdeep : ∃ v ∈ items, ¬Within m v := by
          by_contra hnone
          have hall : ∀ v ∈ items, Within m v := fun v hv => by_contra fun h => hnone ⟨v, hv, h⟩
          rcases hv with rfl | rfl
          · exact hm (.list hall)
          · exact hm (.tuple hall)
        exact scanOnce_items_deep hdeep (fun v _ hv => ih hv n) htexts rest
      · obtain ⟨items, texts, rfl, htexts, rfl⟩ := hdict
        have hdeep : ∃ item ∈ items, ¬Within m item.2 := by
          by_contra hnone
          exact hm (.dict fun item hitem => by_contra fun h => hnone ⟨item, hitem, h⟩)
        exact scanOnce_entries_deep hdeep (fun item _ hitem => ih hitem n) htexts rest

theorem skip_write {n : ℕ} {v : Value F} {t : Text} (ht : write floats n v = .ok t) :
    skip t = t := by
  obtain ⟨c, rest, rfl, hc⟩ := write_starts ht
  exact skip_cons (not_space_of_startsValue hc) rest

/-- A text that is written is read back. -/
theorem loads_write {n m : ℕ} {v : Value F} {t : Text} (ht : write floats n v = .ok t)
    (hm : Within m v) : loads floats m t = .ok (v.normal floats) := by
  have hscan := scanOnce_write hm n t [] ht numberEnd_nil
  rw [List.append_nil] at hscan
  simp only [loads, skip_write ht, hscan]
  rfl

theorem loads_write_deep {n m : ℕ} {v : Value F} {t : Text} (ht : write floats n v = .ok t)
    (hm : ¬Within m v) : loads floats m t = .error .recursionError := by
  have hscan := scanOnce_deep hm n t [] ht numberEnd_nil
  rw [List.append_nil] at hscan
  simp only [loads, skip_write ht, hscan]

end
end UcloudSandboxes.Python.JsonText
