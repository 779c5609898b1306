import UcloudSandboxes.Relay.TaggedBody

/-!
# The codec of a leased request

`decodeBody` decodes a body with the codecs of an `Interpreter` and a `RelayCodec`. With `json` and
`base64` as they are for codecs, it is `decodeTagged`.

A decoded value is an object: `toValue`. Its floats are those of the interpreter, and the keys of
its `dict`s are distinct: `Lawful`.

* `decodeTagged_toValue`: the two decoders agree.
-/
namespace UcloudSandboxes.Relay
open Python Python.JsonText

/-- How the floats of decoded values are the floats of the interpreter. -/
structure FloatNames (F : Type) where
  ofFloat : PyFloat → Number F
  toFloat : Number F → PyFloat

section
variable {F : Type} (names : FloatNames F)

mutual

/-- A decoded value as an object. -/
def toValue : Json → Value F
  | .null => .null
  | .bool b => .bool b
  | .int n => .int n
  | .float f => .float (names.ofFloat f)
  | .str s => .str (lit s)
  | .list items => .list (toValues items)
  | .dict items => .dict (toEntries items)

/-- The items of a list. -/
def toValues : List Json → List (Value F)
  | [] => []
  | v :: rest => toValue v :: toValues rest

/-- The items of a `dict`. -/
def toEntries : List (String × Json) → List (Key F × Value F)
  | [] => []
  | (k, v) :: rest => (.str (lit k), toValue v) :: toEntries rest

end

/-- A text without surrogates. -/
def toText (text : Text) : Option String := (text.mapM CodePoint.char?).map String.ofList

mutual

/-- An object that is a decoded value. -/
def toJson : Value F → Option Json
  | .null => some .null
  | .bool b => some (.bool b)
  | .int n => some (.int n)
  | .float f => some (.float (names.toFloat f))
  | .str s => (toText s).map .str
  | .list items => (toJsons items).map .list
  | .dict items => (toItems items).map .dict
  | _ => none

/-- The items of a list. -/
def toJsons : List (Value F) → Option (List Json)
  | [] => some []
  | v :: rest =>
      match toJson v, toJsons rest with
      | some w, some ws => some (w :: ws)
      | _, _ => none

/-- The items of a `dict`. -/
def toItems : List (Key F × Value F) → Option (List (String × Json))
  | [] => some []
  | (.str k, v) :: rest =>
      match toText k, toJson v, toItems rest with
      | some k, some w, some ws => some ((k, w) :: ws)
      | _, _, _ => none
  | _ :: _ => none

end

/-- The values whose floats are the interpreter's and whose keys are distinct. -/
inductive Lawful : Json → Prop
  | null : Lawful .null
  | bool (b : Bool) : Lawful (.bool b)
  | int (n : ℤ) : Lawful (.int n)
  | float {f : PyFloat} (h : names.toFloat (names.ofFloat f) = f) : Lawful (.float f)
  | str (s : String) : Lawful (.str s)
  | list {items : List Json} (h : ∀ v ∈ items, Lawful v) : Lawful (.list items)
  | dict {items : List (String × Json)} (hkeys : (items.map Prod.fst).Nodup)
      (h : ∀ item ∈ items, Lawful item.2) : Lawful (.dict items)

/-- An interpreter with `json.loads` and `base64.b64decode` as they are. -/
def bodyInterpreter (json : JsonModule F) (py : Interpreter) : Interpreter := { py with
  loads := fun text =>
    match JsonText.loads json.floats json.reading (lit text) with
    | .error .valueError => .decodeError ""
    | .error cls => .raised cls ""
    | .ok v =>
        match toJson names v with
        | some w => .value w
        | none => .raised .other ""
  utf8 := fun bytes => (utf8Decode bytes).map String.ofList
  b64decode := fun text => (asciiOf (lit text)).bind Python.b64decode }

/-- A codec with `json.dumps` as it is. -/
def bodyCodec (json : JsonModule F) (codec : RelayCodec) : RelayCodec := { codec with
  dumps := fun v =>
    (dumpsBytes json.floats json.writing (toValue names v)).mapError fun cls => .builtin cls "" }

end

section
variable {F : Type} {names : FloatNames F} {json : JsonModule F}

theorem toValues_eq (items : List Json) : toValues names items = items.map (toValue names) := by
  induction items with
  | nil => rfl
  | cons v rest ih => rw [toValues, ih, List.map_cons]

theorem toEntries_eq (items : List (String × Json)) :
    toEntries names items = items.map fun item => (.str (lit item.1), toValue names item.2) := by
  induction items with
  | nil => rfl
  | cons item rest ih => rw [toEntries, ih, List.map_cons]

theorem lit_injective {a b : String} (h : lit a = lit b) : a = b :=
  String.toList_inj.mp
    (List.map_injective_iff.mpr (fun _ _ hab => CodePoint.scalar.inj hab) h)

theorem toText_lit (s : String) : toText (lit s) = some s := by
  rw [toText, lit, mapM_chars, Option.map_some, String.ofList_toList]

theorem Lawful.isJson {v : Json} (h : Lawful names v) : (toValue names v).IsJson := by
  induction h with
  | null => exact .null
  | bool b => exact .bool b
  | int n => exact .int n
  | float h => exact .float _
  | str s => exact .str _
  | list h ih =>
      rw [toValue, toValues_eq]
      exact .list (List.forall_mem_map.mpr ih)
  | dict hkeys h ih =>
      rename_i items
      have hentries : toEntries names items =
          (items.map fun item => (lit item.1, toValue names item.2)).map
            fun entry => (.str entry.1, entry.2) := by
        rw [toEntries_eq, List.map_map]
        rfl
      rw [toValue, hentries]
      refine .dict ?_ (List.forall_mem_map.mpr ih)
      rw [List.map_map]
      have hmap : items.map (Prod.fst ∘ fun item => (lit item.1, toValue names item.2)) =
          (items.map Prod.fst).map lit := by
        rw [List.map_map]
        rfl
      rw [hmap]
      exact hkeys.map fun _ _ => lit_injective

/-- A decoded value is told from its object. -/
theorem Lawful.toJson_toValue {v : Json} (h : Lawful names v) :
    toJson names (toValue names v) = some v := by
  induction h with
  | null => rfl
  | bool b => rfl
  | int n => rfl
  | float h => rw [toValue, toJson, h]
  | str s => rw [toValue, toJson, toText_lit, Option.map_some]
  | list h ih =>
      rename_i items
      have hitems : toJsons names (toValues names items) = some items := by
        clear h
        induction items with
        | nil => rfl
        | cons v rest ihrest =>
            rw [toValues, toJsons, ih v List.mem_cons_self,
              ihrest fun w hw => ih w (List.mem_cons_of_mem _ hw)]
      rw [toValue, toJson, hitems, Option.map_some]
  | dict hkeys h ih =>
      rename_i items
      have hitems : toItems names (toEntries names items) = some items := by
        clear h hkeys
        induction items with
        | nil => rfl
        | cons item rest ihrest =>
            rw [toEntries, toItems, toText_lit, ih item List.mem_cons_self,
              ihrest fun other hother => ih other (List.mem_cons_of_mem _ hother)]
      rw [toValue, toJson, hitems, Option.map_some]

theorem isText_toValue (text : String) (v : Json) :
    isText text (toValue names v) = v.eqStr text := by
  cases v with
  | str s =>
      rw [toValue, isText, Json.eqStr, Bool.eq_iff_iff, beq_iff_eq, beq_iff_eq]
      exact ⟨lit_injective, congrArg lit⟩
  | _ => rfl

theorem isName_lit (name key : String) : isName (F := F) name (.str (lit key)) = (name == key) := by
  rw [isName, Bool.eq_iff_iff, beq_iff_eq, beq_iff_eq]
  exact ⟨fun h => (lit_injective h).symm, fun h => congrArg lit h.symm⟩

theorem field_toEntries (items : List (String × Json)) (name : String) :
    field (toEntries names items) name = (items.lookup name).map (toValue names) := by
  induction items with
  | nil => rfl
  | cons item rest ih =>
      rw [field, toEntries, List.find?_cons, isName_lit, List.lookup_cons]
      cases name == item.1 with
      | true => rfl
      | false => exact ih

/-- The check of the keys. -/
def hasExactly (fields : Dict) : Bool :=
  fields.has "encoding" && fields.has "value" &&
    fields.all fun item => ["encoding", "value"].contains item.1

theorem exactFields_toEntries (fields : Dict) :
    exactFields (toEntries names fields) =
      if hasExactly fields then
        some (toValue names (fields.get "encoding"), toValue names (fields.get "value"))
      else none := by
  have hall : ((toEntries names fields).all fun item =>
      isName "encoding" item.1 || isName "value" item.1) =
        fields.all fun item => ["encoding", "value"].contains item.1 := by
    rw [toEntries_eq, List.all_map]
    congr 1
    funext item
    simp only [Function.comp_apply, isName_lit, List.contains_cons, List.contains_nil,
      Bool.or_false]
    rw [Bool.beq_comm (a := item.1), Bool.beq_comm (a := item.1)]
  simp only [exactFields, hasExactly, field_toEntries, hall, Dict.has, Dict.get]
  rcases Option.eq_none_or_eq_some (fields.lookup "encoding") with hencoding | ⟨e, hencoding⟩
  · simp [hencoding]
  · rcases Option.eq_none_or_eq_some (fields.lookup "value") with hvalue | ⟨v, hvalue⟩
    · simp [hencoding, hvalue]
    · simp only [hencoding, hvalue, Option.map_some, Option.isSome_some, Bool.true_and,
        Option.getD_some]

theorem Lawful.get {fields : Dict} (h : ∀ item ∈ fields, Lawful names item.2) (name : String) :
    Lawful names (fields.get name) := by
  rw [Dict.get]
  cases hlookup : fields.lookup name with
  | none => exact .null
  | some v =>
      obtain ⟨before, after, hfields, -⟩ := List.lookup_eq_some_iff.mp hlookup
      exact h (name, v) (by simp [hfields])

/-- A decoded value is written and read back alike. -/
theorem decodeJson_toValue (json : JsonModule F) (py : Interpreter) (codec : RelayCodec) {v : Json}
    (h : Lawful names v) :
    (decodeJson json (toValue names v)).mapError (fun cls => Raised.builtin cls "") =
      (do
        let encoded ← (bodyCodec names json codec).dumps v
        let value ← loadsBytes (bodyInterpreter names json py) encoded
        return (value, encoded) : Except Raised (Json × Bytes)).map
          fun r => (toValue names r.1, r.2) := by
  simp only [bodyCodec, decodeJson]
  cases hdumps : dumpsBytes json.floats json.writing (toValue names v) with
  | error cls => rfl
  | ok encoded =>
      obtain ⟨cs, hwrite, rfl⟩ := dumpsBytes_ok hdumps
      have hlit : lit (String.ofList cs) = chars cs := by rw [lit, String.toList_ofList]
      by_cases hm : Within json.reading (toValue names v)
      · have hloads := loads_write hwrite hm
        rw [h.isJson.normal_eq] at hloads
        have hbytes := loadsBytes_dumpsBytes json.decode hdumps hm
        rw [h.isJson.normal_eq] at hbytes
        have hpy : loadsBytes (bodyInterpreter names json py) (utf8Encode cs) = .ok v := by
          simp only [loadsBytes, bodyInterpreter, utf8Decode_utf8Encode, Option.map_some, hlit,
            hloads, h.toJson_toValue]
        simp only [hbytes, bind, Except.bind, Except.mapError, hpy]
        rfl
      · have hloads := loads_write_deep hwrite hm
        have hbytes := loadsBytes_deep json.decode hdumps hm
        have hpy : loadsBytes (bodyInterpreter names json py) (utf8Encode cs) =
            .error (.builtin .recursionError "") := by
          simp only [loadsBytes, bodyInterpreter, utf8Decode_utf8Encode, Option.map_some, hlit,
            hloads]
        simp only [hbytes, bind, Except.bind, Except.mapError, hpy]
        rfl

/-- An error is replaced alike on both sides. -/
theorem mapError_map {ε ε' ε'' α β : Type} {d : Except ε β} {x : Except ε' α} {f : α → β}
    {b : ε → ε'} (g : ε' → ε'') (h : d.mapError b = x.map f) :
    d.mapError (fun e => g (b e)) = (x.mapError g).map f := by
  cases d with
  | error e =>
      cases x with
      | error e' => exact congrArg (fun e => Except.error (g e)) (Except.error.inj h)
      | ok a => cases h
  | ok r =>
      cases x with
      | error e' => cases h
      | ok a => exact congrArg Except.ok (Except.ok.inj h)

/-- **The decoders agree** on a body that the relay sent. -/
theorem decodeTagged_toValue (py : Interpreter) (codec : RelayCodec) {body : Json}
    (h : Lawful names body) (payload : Dict) :
    decodeTagged json (toValue names body) payload =
      (decodeBody (bodyInterpreter names json py) (bodyCodec names json codec) body payload).map
        fun r => (toValue names r.1, r.2) := by
  cases h with
  | dict hkeys hitems =>
      rename_i fields
      have hvalue := Lawful.get hitems "value"
      have hdecode := decodeJson_toValue json py codec hvalue
      simp only [toValue, decodeTagged, exactFields_toEntries, decodeBody, Json.asDict]
      by_cases hexact : hasExactly fields = true
      · rw [if_pos hexact]
        refine Eq.trans ?_ (congrArg (Except.map _) (if_pos hexact)).symm
        simp only [isText_toValue]
        by_cases hjson : (Dict.get fields "encoding").eqStr "json" = true
        · rw [if_pos hjson, if_pos hjson]
          exact mapError_map (orInvalid _) hdecode
        · rw [if_neg hjson, if_neg hjson]
          cases (Dict.get fields "encoding").eqStr "base64" with
          | false => rfl
          | true =>
              cases Dict.get fields "value" with
              | str text =>
                  simp only [toValue, bodyInterpreter]
                  cases (asciiOf (lit text)).bind Python.b64decode with
                  | none => rfl
                  | some bytes => rfl
              | _ => rfl
      · rw [if_neg hexact]
        refine Eq.trans ?_ (congrArg (Except.map _) (if_neg hexact)).symm
        rfl
  | _ => rfl

end
end UcloudSandboxes.Relay
