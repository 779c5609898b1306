import Mathlib.Data.List.Nodup
import UcloudSandboxes.Python.Base64
import UcloudSandboxes.Python.JsonNormal
import UcloudSandboxes.Relay.Decode
import UcloudSandboxes.Relay.Handling

/-!
# Tagged bodies

`_decode_body` on the objects of the interpreter, with `json` and `base64` as they are, and what
`_response_payload` makes of a body.

## Main definitions

* `JsonModule`: what the interpreter leaves open of `json`.
* `decodeTagged`: `_decode_body`.
* `EncodedBody.tag`: the object that a completion carries as its body.
* `Accepted`: a body that is exactly an encoding and a value of it.
-/
namespace UcloudSandboxes.Relay
open Python Python.JsonText

/-- What the interpreter leaves open of `json`: the literals of floats, how deep `json.dumps` and
`json.loads` may nest, and the encodings besides UTF-8. -/
structure JsonModule (F : Type) where
  floats : Floats F
  writing : ℕ
  reading : ℕ
  decode : Encoding → Bytes → Option Text

section
variable {F : Type}

/-- `key == name`. -/
def isName (name : String) : Key F → Bool
  | .str s => s == lit name
  | _ => false

/-- `d.get(name)`. -/
def field (fields : List (Key F × Value F)) (name : String) : Option (Value F) :=
  (fields.find? fun item => isName name item.1).map Prod.snd

/-- The encoding and the value, if `set(body) == {"encoding", "value"}`. -/
def exactFields (fields : List (Key F × Value F)) : Option (Value F × Value F) :=
  match field fields "encoding", field fields "value" with
  | some encoding, some value =>
      if fields.all fun item => isName "encoding" item.1 || isName "value" item.1 then
        some (encoding, value)
      else none
  | _, _ => none

/-- `v == text`. -/
def isText (text : String) : Value F → Bool
  | .str s => s == lit text
  | _ => false

/-- `text.encode("ascii")`; `none` is `UnicodeEncodeError`. -/
def asciiOf (text : Text) : Option (List Char) :=
  if text.all fun c => decide (c.toNat < 128) then text.mapM CodePoint.char? else none

variable (json : JsonModule F)

/-- `json.loads` of what `json.dumps` writes, and the bytes. -/
def decodeJson (value : Value F) : Except Builtin (Value F × Bytes) :=
  match dumpsBytes json.floats json.writing value with
  | .error cls => .error cls
  | .ok encoded =>
      (JsonText.loadsBytes json.floats json.decode json.reading encoded).map fun v => (v, encoded)

/-- `_decode_body`. A `Mapping` that is no `dict` is one here. -/
def decodeTagged (body : Value F) (payload : Dict) : Except Raised (Value F × Bytes) :=
  match body with
  | .dict fields =>
      match exactFields fields with
      | none => malformed
      | some (encoding, value) =>
          if isText "json" encoding then
            (decodeJson json value).mapError fun cls =>
              orInvalid { message := "relay request JSON body is invalid", body := .dict payload }
                (.builtin cls "")
          else match isText "base64" encoding, value with
            | true, .str text =>
                match (asciiOf text).bind b64decode with
                | some bytes => .ok (.null, bytes)
                | none =>
                    .error (.api {
                      message := "relay request base64 body is invalid", body := .dict payload })
            | _, _ =>
                .error (.api {
                  message := "relay request body encoding/value is invalid"
                  body := .dict payload })
  | _ => malformed
where
  malformed : Except Raised (Value F × Bytes) :=
    .error (.api {
      message := "relay request body must contain exactly encoding and value"
      body := .dict payload })

/-- The tagged body as an object. -/
def EncodedBody.tag : EncodedBody (Value F) → Value F
  | .base64 value =>
      .dict [(.str (lit "encoding"), .str (lit "base64")), (.str (lit "value"), .str (lit value))]
  | .json value =>
      .dict [(.str (lit "encoding"), .str (lit "json")), (.str (lit "value"), value)]

/-- Exactly `encoding` and `value`, in either order. -/
def IsTag (body : Value F) (encoding : String) (value : Value F) : Prop :=
  ∃ fields : List (Key F × Value F), body = .dict fields ∧
    fields.Perm [(.str (lit "encoding"), .str (lit encoding)), (.str (lit "value"), value)]

/-- The bodies that are accepted: an object that can be written as JSON, or a text in base 64. -/
inductive Accepted (body : Value F) : Prop
  | json {value : Value F} (htag : IsTag body "json" value) (hvalue : value.Writable)
  | base64 {text : List Char} (htag : IsTag body "base64" (.str (chars text)))
      (htext : IsBase64 text)

/-- The keys of a `dict` are distinct. -/
def DistinctKeys : Value F → Prop
  | .dict fields => (fields.map Prod.fst).Nodup
  | _ => True

end

section
variable {F : Type} {json : JsonModule F}

theorem isName_iff {name : String} {key : Key F} :
    isName name key = true ↔ key = .str (lit name) := by
  cases key with
  | str s => simp [isName]
  | _ => simp [isName]

theorem isText_iff {text : String} {v : Value F} :
    isText text v = true ↔ v = .str (lit text) := by
  cases v with
  | str s => simp [isText]
  | _ => simp [isText]

theorem lit_encoding_ne_value : lit "encoding" ≠ lit "value" := by decide +kernel

theorem lit_json_ne_base64 : lit "json" ≠ lit "base64" := by decide +kernel

theorem field_of_perm {fields : List (Key F × Value F)} {name : String} {v : Value F}
    {rest : List (Key F × Value F)} (h : fields.Perm ((.str (lit name), v) :: rest))
    (hrest : ∀ item ∈ rest, item.1 ≠ .str (lit name)) : field fields name = some v := by
  have hfound : (fields.find? fun item => isName name item.1) = some (.str (lit name), v) := by
    have hmem : (Key.str (lit name), v) ∈ fields := h.mem_iff.mpr List.mem_cons_self
    cases hfind : fields.find? fun item => isName name item.1 with
    | none =>
        rw [List.find?_eq_none] at hfind
        exact absurd (isName_iff.mpr rfl) (hfind _ hmem)
    | some item =>
        have hname : item.1 = .str (lit name) :=
          isName_iff.mp (by simpa using List.find?_some hfind)
        rcases List.mem_cons.mp (h.mem_iff.mp (List.mem_of_find?_eq_some hfind)) with hitem | hitem
        · rw [hitem]
        · exact absurd hname (hrest item hitem)
  rw [field, hfound]
  rfl

theorem mem_of_field {fields : List (Key F × Value F)} {name : String} {v : Value F}
    (h : field fields name = some v) : (.str (lit name), v) ∈ fields := by
  rw [field, Option.map_eq_some_iff] at h
  obtain ⟨item, hfind, rfl⟩ := h
  have hname : item.1 = .str (lit name) := isName_iff.mp (by simpa using List.find?_some hfind)
  have hmem := List.mem_of_find?_eq_some hfind
  rw [← hname]
  exact hmem

theorem name_encoding_ne : (Key.str (lit "encoding") : Key F) ≠ .str (lit "value") :=
  fun h => lit_encoding_ne_value (Key.str.inj h)

/-- With the two keys and no other, the `dict` has nothing but their values. -/
theorem perm_of_exactFields {fields : List (Key F × Value F)}
    (hnodup : (fields.map Prod.fst).Nodup) {encoding value : Value F}
    (h : exactFields fields = some (encoding, value)) :
    fields.Perm [(.str (lit "encoding"), encoding), (.str (lit "value"), value)] := by
  rw [exactFields] at h
  cases hencoding : field fields "encoding" with
  | none => simp [hencoding] at h
  | some e =>
      cases hvalue : field fields "value" with
      | none => simp [hencoding, hvalue] at h
      | some v =>
          simp only [hencoding, hvalue] at h
          by_cases hall : (fields.all fun item =>
              isName "encoding" item.1 || isName "value" item.1) = true
          · rw [if_pos hall] at h
            cases h
            have hunique : ∀ x ∈ fields, ∀ y ∈ fields, x.1 = y.1 → x = y :=
              fun x hx y hy => List.inj_on_of_nodup_map hnodup hx hy
            refine (List.perm_ext_iff_of_nodup (List.Nodup.of_map _ hnodup) ?_).mpr ?_
            · simp [lit_encoding_ne_value]
            · intro x
              constructor
              · intro hx
                have hkey := List.all_eq_true.mp hall x hx
                rw [Bool.or_eq_true, isName_iff, isName_iff] at hkey
                rcases hkey with hkey | hkey
                · rw [hunique x hx _ (mem_of_field hencoding) hkey]
                  exact List.mem_cons_self
                · rw [hunique x hx _ (mem_of_field hvalue) hkey]
                  exact List.mem_cons_of_mem _ List.mem_cons_self
              · intro hx
                rcases List.mem_cons.mp hx with rfl | hx
                · exact mem_of_field hencoding
                · rw [List.mem_singleton.mp hx]
                  exact mem_of_field hvalue
          · rw [if_neg hall] at h
            cases h

theorem exactFields_of_perm {fields : List (Key F × Value F)} {encoding value : Value F}
    (h : fields.Perm [(.str (lit "encoding"), encoding), (.str (lit "value"), value)]) :
    exactFields fields = some (encoding, value) := by
  have hencoding : field fields "encoding" = some encoding := by
    refine field_of_perm h ?_
    intro item hitem
    rw [List.mem_singleton.mp hitem]
    exact name_encoding_ne.symm
  have hvalue : field fields "value" = some value := by
    refine field_of_perm (h.trans (List.Perm.swap _ _ _)) ?_
    intro item hitem
    rw [List.mem_singleton.mp hitem]
    exact name_encoding_ne
  have hall : (fields.all fun item =>
      isName "encoding" item.1 || isName "value" item.1) = true := by
    rw [List.all_eq_true]
    intro item hitem
    rw [Bool.or_eq_true, isName_iff, isName_iff]
    rcases List.mem_cons.mp (h.mem_iff.mp hitem) with hitem | hitem
    · rw [hitem]
      exact .inl rfl
    · rw [List.mem_singleton.mp hitem]
      exact .inr rfl
  simp only [exactFields, hencoding, hvalue, if_pos hall]

/-- What the set of keys says of a `dict`. -/
theorem exactFields_iff {fields : List (Key F × Value F)} (hnodup : (fields.map Prod.fst).Nodup)
    {encoding value : Value F} :
    exactFields fields = some (encoding, value) ↔
      fields.Perm [(.str (lit "encoding"), encoding), (.str (lit "value"), value)] :=
  ⟨perm_of_exactFields hnodup, exactFields_of_perm⟩

/-- What is decoded of a value as JSON. -/
theorem decodeJson_ok {value : Value F} {r : Value F × Bytes} (h : decodeJson json value = .ok r) :
    dumpsBytes json.floats json.writing value = .ok r.2 ∧ Within json.reading value ∧
      r.1 = value.normal json.floats := by
  rw [decodeJson] at h
  cases hdumps : dumpsBytes json.floats json.writing value with
  | error cls =>
      rw [hdumps] at h
      cases h
  | ok encoded =>
      rw [hdumps] at h
      obtain ⟨v, hv, rfl⟩ := except_map_ok h
      by_cases hm : Within json.reading value
      · rw [loadsBytes_dumpsBytes json.decode hdumps hm] at hv
        exact ⟨rfl, hm, (Except.ok.inj hv).symm⟩
      · rw [loadsBytes_deep json.decode hdumps hm] at hv
        cases hv

/-- **Which values are decoded as JSON**, of those that do not nest too deep. -/
theorem decodeJson_spec (json : JsonModule F) {value : Value F}
    (hw : Within json.writing value) (hr : Within json.reading value) :
    (value.Writable ∧ ∃ encoded, dumpsBytes json.floats json.writing value = .ok encoded ∧
      decodeJson json value = .ok (value.normal json.floats, encoded)) ∨
    (¬value.Writable ∧ ∃ cls, decodeJson json value = .error cls ∧
      (cls = .typeError ∨ cls = .valueError)) := by
  rcases dumpsBytes_spec json.floats hw with ⟨hv, encoded, hdumps⟩ | ⟨hv, cls, hdumps, hcls⟩
  · refine .inl ⟨hv, encoded, hdumps, ?_⟩
    simp only [decodeJson, hdumps, loadsBytes_dumpsBytes json.decode hdumps hr]
    rfl
  · refine .inr ⟨hv, cls, ?_, hcls⟩
    simp only [decodeJson, hdumps]

theorem asciiOf_chars {cs : List Char} (h : ∀ c ∈ cs, c.toNat < 128) :
    asciiOf (chars cs) = some cs := by
  have hall : ((chars cs).all fun c => decide (c.toNat < 128)) = true := by
    rw [List.all_eq_true]
    intro c hc
    obtain ⟨d, hd, rfl⟩ := List.mem_map.mp hc
    exact decide_eq_true (h d hd)
  rw [asciiOf, if_pos hall, mapM_chars]

theorem asciiOf_some {text : Text} {cs : List Char} (h : asciiOf text = some cs) :
    text = chars cs := by
  rw [asciiOf] at h
  split_ifs at h
  by_cases hplain : Plain text
  · obtain ⟨cs', rfl⟩ := plain_iff.mp hplain
    rw [mapM_chars] at h
    rw [Option.some.inj h]
  · have hencode := encode_of_not_plain hplain
    rw [encode, h] at hencode
    cases hencode

/-- **Which texts are decoded as base 64.** -/
theorem ascii_b64decode_iff {text : Text} :
    ((asciiOf text).bind b64decode).isSome = true ↔ ∃ cs, text = chars cs ∧ IsBase64 cs := by
  constructor
  · intro h
    cases hcs : asciiOf text with
    | none => simp [hcs] at h
    | some cs =>
        rw [hcs] at h
        exact ⟨cs, asciiOf_some hcs, (b64decode_isSome_iff cs).mp h⟩
  · intro h
    obtain ⟨cs, rfl, hcs⟩ := h
    rw [asciiOf_chars hcs.ascii]
    exact (b64decode_isSome_iff cs).mpr hcs

theorem isTag_iff {fields : List (Key F × Value F)} (hnodup : (fields.map Prod.fst).Nodup)
    {encoding : String} {value : Value F} :
    IsTag (.dict fields) encoding value ↔
      exactFields fields = some (.str (lit encoding), value) := by
  rw [exactFields_iff hnodup]
  constructor
  · intro h
    obtain ⟨fields', hbody, hperm⟩ := h
    cases hbody
    exact hperm
  · exact fun hperm => ⟨fields, rfl, hperm⟩

/-- A tag is a `dict`, and its keys are distinct. -/
theorem IsTag.exactFields {body : Value F} {encoding : String} {value : Value F}
    (h : IsTag body encoding value) :
    ∃ fields, body = .dict fields ∧
      Relay.exactFields fields = some (.str (lit encoding), value) := by
  obtain ⟨fields, rfl, hperm⟩ := h
  have hnodup : (fields.map Prod.fst).Nodup := by
    rw [(hperm.map Prod.fst).nodup_iff]
    simp [lit_encoding_ne_value]
  exact ⟨fields, rfl, (exactFields_iff hnodup).mpr hperm⟩

theorem decodeTagged_json {body value : Value F} (h : IsTag body "json" value) (payload : Dict) :
    decodeTagged json body payload = (decodeJson json value).mapError fun cls =>
      orInvalid { message := "relay request JSON body is invalid", body := .dict payload }
        (.builtin cls "") := by
  obtain ⟨fields, rfl, hfields⟩ := h.exactFields
  have hjson : isText "json" (.str (lit "json") : Value F) = true := isText_iff.mpr rfl
  simp only [decodeTagged, hfields, hjson, if_true]

theorem decodeTagged_base64 {body : Value F} {text : Text} (h : IsTag body "base64" (.str text))
    {bytes : Bytes} (hbytes : (asciiOf text).bind b64decode = some bytes) (payload : Dict) :
    decodeTagged json body payload = .ok (.null, bytes) := by
  obtain ⟨fields, rfl, hfields⟩ := h.exactFields
  have hjson : ¬isText "json" (.str (lit "base64") : Value F) = true := by
    rw [isText_iff]
    exact fun h => lit_json_ne_base64 (Value.str.inj h).symm
  have hbase : isText "base64" (.str (lit "base64") : Value F) = true := isText_iff.mpr rfl
  simp only [decodeTagged, hfields, if_neg hjson, hbase, hbytes]

/-- When a `dict` of an encoding and a value is accepted. -/
theorem accepted_iff {fields : List (Key F × Value F)} (hnodup : (fields.map Prod.fst).Nodup)
    {encoding value : Value F} (hfields : exactFields fields = some (encoding, value)) :
    Accepted (.dict fields) ↔
      encoding = .str (lit "json") ∧ value.Writable ∨
        encoding = .str (lit "base64") ∧ ∃ cs, value = .str (chars cs) ∧ IsBase64 cs := by
  constructor
  · intro h
    cases h with
    | json htag hvalue =>
        rw [isTag_iff hnodup, hfields] at htag
        cases htag
        exact .inl ⟨rfl, hvalue⟩
    | base64 htag htext =>
        rw [isTag_iff hnodup, hfields] at htag
        cases htag
        exact .inr ⟨rfl, _, rfl, htext⟩
  · intro h
    rcases h with ⟨rfl, hvalue⟩ | ⟨rfl, cs, rfl, htext⟩
    · exact .json ((isTag_iff hnodup).mpr hfields) hvalue
    · exact .base64 ((isTag_iff hnodup).mpr hfields) htext

theorem not_accepted_of_not_tag {body : Value F}
    (h : ∀ encoding value, ¬IsTag body encoding value) : ¬Accepted body := by
  intro haccepted
  cases haccepted with
  | json htag hvalue => exact h _ _ htag
  | base64 htag htext => exact h _ _ htag

/-- **Which bodies are decoded**: the accepted ones. For any other the error is the relay's. -/
theorem decodeTagged_spec {body : Value F} (hkeys : DistinctKeys body)
    (hdeep : ∀ value, IsTag body "json" value →
      Within json.writing value ∧ Within json.reading value) (payload : Dict) :
    (Accepted body ∧ ∃ r, decodeTagged json body payload = .ok r) ∨
      ¬Accepted body ∧ ∃ message,
        decodeTagged json body payload = .error (.api { message, body := .dict payload }) := by
  cases body with
  | dict fields =>
      cases hfields : exactFields fields with
      | none =>
          refine .inr ⟨not_accepted_of_not_tag ?_,
            "relay request body must contain exactly encoding and value", ?_⟩
          · intro encoding value htag
            rw [isTag_iff hkeys, hfields] at htag
            cases htag
          · simp only [decodeTagged, hfields]
            rfl
      | some parts =>
          obtain ⟨encoding, value⟩ := parts
          rw [accepted_iff hkeys hfields]
          by_cases hjson : encoding = .str (lit "json")
          · subst hjson
            have htag : IsTag (.dict fields) "json" value := (isTag_iff hkeys).mpr hfields
            rw [decodeTagged_json htag]
            rcases decodeJson_spec json (hdeep value htag).1 (hdeep value htag).2 with
              ⟨hvalue, encoded, -, hdecode⟩ | ⟨hvalue, cls, hdecode, hcls⟩
            · exact .inl ⟨.inl ⟨rfl, hvalue⟩, _, by rw [hdecode]; rfl⟩
            · refine .inr ⟨?_, "relay request JSON body is invalid", ?_⟩
              · rintro (⟨-, h⟩ | ⟨h, -⟩)
                · exact hvalue h
                · exact lit_json_ne_base64 (Value.str.inj h)
              · rw [hdecode]
                rcases hcls with rfl | rfl <;> rfl
          have hnotJson : ¬isText "json" encoding = true := by
            rw [isText_iff]
            exact hjson
          by_cases hbase : encoding = .str (lit "base64")
          · subst hbase
            have hisBase : isText "base64" (.str (lit "base64") : Value F) = true :=
              isText_iff.mpr rfl
            -- The value is a text in base 64, a text that is none, or no text.
            cases value with
            | str text =>
                cases hbytes : (asciiOf text).bind b64decode with
                | some bytes =>
                    have htext := ascii_b64decode_iff.mp (Option.isSome_iff_exists.mpr ⟨_, hbytes⟩)
                    obtain ⟨cs, rfl, hcs⟩ := htext
                    refine .inl ⟨.inr ⟨rfl, cs, rfl, hcs⟩, (.null, bytes), ?_⟩
                    simp only [decodeTagged, hfields, if_neg hnotJson, hisBase, hbytes]
                | none =>
                    refine .inr ⟨?_, "relay request base64 body is invalid", ?_⟩
                    · rintro (⟨h, -⟩ | ⟨-, cs, h, hcs⟩)
                      · exact hjson h
                      · have htext := ascii_b64decode_iff.mpr ⟨cs, Value.str.inj h, hcs⟩
                        rw [hbytes] at htext
                        cases htext
                    · simp only [decodeTagged, hfields, if_neg hnotJson, hisBase, hbytes]
            | _ =>
                refine .inr ⟨?_, "relay request body encoding/value is invalid", ?_⟩
                · rintro (⟨h, -⟩ | ⟨-, cs, h, -⟩)
                  · exact hjson h
                  · cases h
                · simp only [decodeTagged, hfields, if_neg hnotJson, hisBase]
          · have hnotBase : isText "base64" encoding = false := by
              rw [Bool.eq_false_iff, ne_eq, isText_iff]
              exact hbase
            refine .inr ⟨?_, "relay request body encoding/value is invalid", ?_⟩
            · rintro (⟨h, -⟩ | ⟨h, -⟩)
              · exact hjson h
              · exact hbase h
            · simp only [decodeTagged, hfields, if_neg hnotJson, hnotBase]
  | _ =>
      refine .inr ⟨not_accepted_of_not_tag ?_, _, rfl⟩
      intro encoding value htag
      obtain ⟨fields, hbody, -⟩ := htag
      cases hbody

theorem isTag_tag_json (value : Value F) : IsTag (EncodedBody.json value).tag "json" value :=
  ⟨_, rfl, List.Perm.refl _⟩

theorem isTag_tag_base64 (text : String) :
    IsTag (EncodedBody.base64 text : EncodedBody (Value F)).tag "base64" (.str (lit text)) :=
  ⟨_, rfl, List.Perm.refl _⟩

/-- The tag of bytes is decoded to them. -/
theorem decodeTagged_bytes (bytes : Bytes) (payload : Dict) :
    decodeTagged json (EncodedBody.base64 (String.ofList (b64encode bytes))).tag payload =
      .ok (.null, bytes) := by
  refine decodeTagged_base64 (isTag_tag_base64 _) ?_ payload
  have hdecode := b64decode_b64encode bytes
  have hbase : IsBase64 (b64encode bytes) :=
    (b64decode_isSome_iff _).mp (Option.isSome_iff_exists.mpr ⟨bytes, hdecode⟩)
  rw [lit, String.toList_ofList, asciiOf_chars hbase.ascii]
  exact hdecode

/-- The tag of an object is decoded to what its text is read back as. -/
theorem decodeTagged_value (json : JsonModule F) {value : Value F} (hvalue : value.Writable)
    (hw : Within json.writing value) (hr : Within json.reading value) (payload : Dict) :
    ∃ encoded, dumpsBytes json.floats json.writing value = .ok encoded ∧
      decodeTagged json (EncodedBody.json value).tag payload =
        .ok (value.normal json.floats, encoded) := by
  rcases decodeJson_spec json hw hr with ⟨-, encoded, hdumps, hdecode⟩ | ⟨hnot, -⟩
  · refine ⟨encoded, hdumps, ?_⟩
    rw [decodeTagged_json (isTag_tag_json value), hdecode]
    rfl
  · exact absurd hvalue hnot

/-- What is decoded, by the encoding of the tag. -/
theorem decodeTagged_ok {body : Value F} (hkeys : DistinctKeys body) {payload : Dict}
    {r : Value F × Bytes} (h : decodeTagged json body payload = .ok r) :
    (∃ value, IsTag body "json" value ∧ decodeJson json value = .ok r) ∨
      ∃ text, IsTag body "base64" (.str text) ∧ r.1 = .null := by
  cases body with
  | dict fields =>
      cases hfields : exactFields fields with
      | none =>
          simp only [decodeTagged, hfields] at h
          cases h
      | some parts =>
          obtain ⟨encoding, value⟩ := parts
          by_cases hjson : encoding = .str (lit "json")
          · subst hjson
            have htag : IsTag (.dict fields) "json" value := (isTag_iff hkeys).mpr hfields
            rw [decodeTagged_json htag] at h
            cases hdecode : decodeJson json value with
            | error cls =>
                rw [hdecode] at h
                cases h
            | ok r' =>
                rw [hdecode] at h
                cases h
                exact .inl ⟨value, htag, hdecode⟩
          have hnotJson : ¬isText "json" encoding = true := by
            rw [isText_iff]
            exact hjson
          simp only [decodeTagged, hfields, if_neg hnotJson] at h
          cases hbase : isText "base64" encoding with
          | false =>
              simp only [hbase] at h
              cases h
          | true =>
              have hencoding := isText_iff.mp hbase
              subst hencoding
              cases value with
              | str text =>
                  refine .inr ⟨text, (isTag_iff hkeys).mpr hfields, ?_⟩
                  cases hbytes : (asciiOf text).bind b64decode with
                  | none =>
                      simp only [hbase, hbytes] at h
                      cases h
                  | some bytes =>
                      simp only [hbase, hbytes] at h
                      cases h
                      rfl
              | _ =>
                  simp only [hbase] at h
                  cases h
  | _ => cases h

/-- Tagged bodies round-trip, and nothing else is accepted. -/
theorem tagged_bodies_round_trip (json : JsonModule F) (payload : Dict) :
    (∀ (request : RelayRequest) (lease : Lease) (status : ℤ) (headers : Option Headers)
      (bytes : Bytes), leasedRequestPayload request = .ok lease →
      bytes.length ≤ maxRelayHttpBodyBytes →
      ∃ encoded : EncodedBody (Value F),
        responsePayload request (.bytes bytes) status headers =
          .ok (.response lease status encoded headers) ∧
        decodeTagged json encoded.tag payload = .ok (.null, bytes)) ∧
    (∀ (request : RelayRequest) (lease : Lease) (status : ℤ) (headers : Option Headers)
      (value : Value F), leasedRequestPayload request = .ok lease →
      value.IsJson → value.Writable → Within json.writing value → Within json.reading value →
      ∃ encoded bytes, responsePayload request (.value value) status headers =
          .ok (.response lease status encoded headers) ∧
        decodeTagged json encoded.tag payload = .ok (value, bytes) ∧
        (∃ text, bytes = utf8Encode text) ∧
        JsonText.loadsBytes json.floats json.decode json.reading bytes = .ok value) ∧
    (∀ (body : Value F) (r : Value F × Bytes), DistinctKeys body →
      decodeTagged json body payload = .ok r →
      (∃ value, IsTag body "json" value ∧ ∃ bytes,
        decodeTagged json (EncodedBody.json r.1).tag payload = .ok (r.1, bytes) ∧
        (value.Unambiguous json.floats → bytes = r.2)) ∨
      ∃ text, IsTag body "base64" (.str text) ∧
        decodeTagged json (EncodedBody.base64 (String.ofList (b64encode r.2))).tag payload =
          .ok r) ∧
    ∀ body : Value F, DistinctKeys body →
      (∀ value, IsTag body "json" value →
        Within json.writing value ∧ Within json.reading value) →
      ((∃ r, decodeTagged json body payload = .ok r) ↔ Accepted body) ∧
      (¬Accepted body → ∃ message,
        decodeTagged json body payload = .error (.api { message, body := .dict payload })) := by
  refine ⟨?_, ?_, ?_, ?_⟩
  · intro request lease status headers bytes hlease hsize
    refine ⟨.base64 (String.ofList (b64encode bytes)), ?_, decodeTagged_bytes bytes payload⟩
    simp only [responsePayload, encodedBody, validateHttpBodySize, if_neg (Nat.not_lt.mpr hsize),
      hlease]
    rfl
  · intro request lease status headers value hlease hjson hvalue hw hr
    obtain ⟨encoded, hdumps, hdecode⟩ := decodeTagged_value json hvalue hw hr payload
    have hloads := loadsBytes_dumpsBytes json.decode hdumps hr
    obtain ⟨text, -, hutf8⟩ := dumpsBytes_ok hdumps
    rw [hjson.normal_eq] at hdecode hloads
    refine ⟨.json value, encoded, ?_, hdecode, ⟨text, hutf8⟩, hloads⟩
    simp only [responsePayload, encodedBody, hlease]
    rfl
  · intro body r hkeys hr
    rcases decodeTagged_ok hkeys hr with ⟨value, htag, hdecode⟩ | ⟨text, htag, hnull⟩
    · left
      obtain ⟨hdumps, hreading, hnormal⟩ := decodeJson_ok hdecode
      obtain ⟨cs, hwrite, hbytes⟩ := dumpsBytes_ok hdumps
      have hwriting := within_of_write hwrite
      have hwritable : value.Writable := by
        rcases dumpsBytes_spec json.floats hwriting with ⟨h, -⟩ | ⟨-, cls, herror, -⟩
        · exact h
        · rw [hdumps] at herror
          cases herror
      obtain ⟨bytes, hdumps', hdecode'⟩ :=
        decodeTagged_value json hwritable.normal hwriting.normal hreading.normal payload
      rw [hwritable.isJson_normal.normal_eq, ← hnormal] at hdecode'
      refine ⟨value, htag, bytes, hdecode', ?_⟩
      intro hunambiguous
      have hsame : dumpsBytes json.floats json.writing (value.normal json.floats) = .ok r.2 := by
        rw [dumpsBytes, write_normal hunambiguous _ _ hwrite, hbytes]
        exact encode_chars cs
      rw [hdumps'] at hsame
      exact Except.ok.inj hsame
    · right
      refine ⟨text, htag, ?_⟩
      rw [decodeTagged_bytes, ← hnull]
  · intro body hkeys hdeep
    rcases decodeTagged_spec hkeys hdeep payload with ⟨haccepted, hok⟩ | ⟨hnot, hmessage⟩
    · exact ⟨⟨fun _ => haccepted, fun _ => hok⟩, fun h => absurd haccepted h⟩
    · refine ⟨⟨?_, fun h => absurd h hnot⟩, fun _ => hmessage⟩
      intro hok
      obtain ⟨r, hr⟩ := hok
      obtain ⟨message, herror⟩ := hmessage
      rw [hr] at herror
      cases herror

/-- A thousand levels of nesting, and floats that are whole numbers. -/
def wholeJson : JsonModule ℤ where
  floats := wholeFloats
  writing := 1000
  reading := 1000
  decode _ _ := none

/-- A completion of two bytes, and one of a JSON value, as they are decoded. -/
theorem tagged_bodies_round_trip_hi :
    (∃ lease encoded, responsePayload leasedRequest (.bytes [104, 105]) 200 none =
        .ok (.response lease 200 encoded none) ∧
      decodeTagged wholeJson encoded.tag [] = .ok (.null, [104, 105])) ∧
    (∃ lease encoded bytes, responsePayload leasedRequest
        (.value (.list [.int 1, .float (.finite 2), .str (lit "é")])) 200 none =
          .ok (.response lease 200 encoded none) ∧
      decodeTagged wholeJson encoded.tag [] =
        .ok (.list [.int 1, .float (.finite 2), .str (lit "é")], bytes)) ∧
    ∃ message, decodeTagged wholeJson (.list []) [] =
      .error (.api { message, body := .dict [] }) := by
  have hround := tagged_bodies_round_trip wholeJson []
  have hleased : ∃ lease, leasedRequestPayload leasedRequest = .ok lease :=
    exists_of_isOk (by decide +kernel)
  obtain ⟨lease, hlease⟩ := hleased
  have hitems : ∀ v ∈ [Value.int 1, .float (.finite (2 : ℤ)), .str (lit "é")],
      v.isScalar = true ∧ v.IsJson ∧ v.Writable := by
    intro v hv
    simp only [List.mem_cons, List.not_mem_nil, or_false] at hv
    rcases hv with rfl | rfl | rfl
    · exact ⟨rfl, .int 1, .int (by decide +kernel)⟩
    · exact ⟨rfl, .float _, .float _⟩
    · exact ⟨rfl, .str _, .str (plain_chars _)⟩
  have hwithin : Within 1000 (.list [.int 1, .float (.finite (2 : ℤ)), .str (lit "é")]) :=
    .list fun v hv => .scalar (hitems v hv).1
  refine ⟨?_, ?_, ?_⟩
  · exact ⟨lease, hround.1 leasedRequest lease 200 none [104, 105] hlease (by decide +kernel)⟩
  · obtain ⟨encoded, bytes, hpayload, hdecode, -⟩ := hround.2.1 leasedRequest lease 200 none _
      hlease (.list fun v hv => (hitems v hv).2.1) (.list fun v hv => (hitems v hv).2.2) hwithin
      hwithin
    exact ⟨lease, encoded, bytes, hpayload, hdecode⟩
  · have hnot : ∀ encoding value, ¬IsTag (.list [] : Value ℤ) encoding value := by
      intro encoding value htag
      obtain ⟨fields, hbody, -⟩ := htag
      cases hbody
    exact (hround.2.2.2 (.list []) trivial fun value htag => absurd htag (hnot _ _)).2
      (not_accepted_of_not_tag hnot)

/-- A power of ten has one digit more than its exponent. -/
theorem not_writable_pow {k : ℕ} (hk : maxStrDigits ≤ k) :
    ¬(Value.int (10 ^ k) : Value F).Writable := by
  intro h
  cases h with
  | int hdigits =>
      have hpos : 0 < maxStrDigits := by decide
      have hle : (Nat.toDigits 10 (10 ^ k)).length ≤ k := by
        rw [Int.natAbs_pow] at hdigits
        exact hdigits.trans hk
      rw [Nat.length_toDigits_le_iff (by omega) (by omega)] at hle
      omega

/-- Two keys that are written alike. -/
def twoKeys : Value ℤ := .dict [(.int 1, .null), (.str (lit "1"), .bool true)]

theorem twoKeys_writable : twoKeys.Writable := by
  refine .dict ?_ ?_
  · intro item hitem
    simp only [List.mem_cons, List.not_mem_nil, or_false] at hitem
    rcases hitem with rfl | rfl
    · exact (by decide +kernel : (Nat.toDigits 10 1).length ≤ maxStrDigits)
    · exact plain_chars _
  · intro item hitem
    simp only [List.mem_cons, List.not_mem_nil, or_false] at hitem
    rcases hitem with rfl | rfl
    · exact .null
    · exact .bool true

/-- An integer of 4301 digits is refused, and a `dict` with two keys that are written alike is not
encoded as before. -/
theorem tagged_bodies_fall_short :
    (∃ message, decodeTagged wholeJson (EncodedBody.json (.int (10 ^ 4300))).tag [] =
      .error (.api { message, body := .dict [] })) ∧
    ∃ v e e', decodeTagged wholeJson (EncodedBody.json twoKeys).tag [] = .ok (v, e) ∧
      decodeTagged wholeJson (EncodedBody.json v).tag [] = .ok (v, e') ∧ e' ≠ e := by
  constructor
  · have htag := isTag_tag_json (Value.int (10 ^ 4300) : Value ℤ)
    have hwithin : ∀ n, Within n (Value.int (10 ^ 4300) : Value ℤ) := fun n => .scalar rfl
    rcases decodeJson_spec wholeJson (hwithin _) (hwithin _) with
      ⟨hvalue, -⟩ | ⟨-, cls, hdecode, hcls⟩
    · exact absurd hvalue (not_writable_pow le_rfl)
    · refine ⟨"relay request JSON body is invalid", ?_⟩
      rw [decodeTagged_json htag, hdecode]
      rcases hcls with rfl | rfl <;> rfl
  · have hwithin : Within 1000 twoKeys := by
      refine .dict ?_
      intro item hitem
      simp only [List.mem_cons, List.not_mem_nil, or_false] at hitem
      rcases hitem with rfl | rfl <;> exact .scalar rfl
    obtain ⟨e, hdumps, hdecode⟩ :=
      decodeTagged_value wholeJson twoKeys_writable hwithin hwithin []
    obtain ⟨e', hdumps', hdecode'⟩ := decodeTagged_value wholeJson
      twoKeys_writable.normal hwithin.normal hwithin.normal []
    rw [twoKeys_writable.isJson_normal.normal_eq] at hdecode'
    refine ⟨_, e, e', hdecode, hdecode', ?_⟩
    intro hsame
    subst hsame
    have hequal : dumpsBytes wholeFloats 1000 twoKeys =
        dumpsBytes wholeFloats 1000 (twoKeys.normal wholeFloats) := hdumps.trans hdumps'.symm
    exact absurd hequal (by decide +kernel)

end
end UcloudSandboxes.Relay
