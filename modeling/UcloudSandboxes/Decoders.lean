import UcloudSandboxes.Client.Group
import UcloudSandboxes.Client.Job
import UcloudSandboxes.Lib.Checks
import UcloudSandboxes.Relay.Poll

/-!
# What the decoders fail with

`from_payload` of the job records, job logs, sandbox groups, relay requests and relay polls. They
are to fail with the error of their client only. Each reads its fields in order, so that a field
decides only when those before it can be read. An infinity has no `int`, and an integer may be too
large for a `float`: both are an `OverflowError`, which no `except` clause of the decoders names.

## Main results

* `job_fails_iff`, `chunk_fails_iff`, `group_fails`, `request_fails_iff`, `poll_fails_iff`: each
  decoder.
* `decoders_fail_iff`: all of them.
-/
namespace UcloudSandboxes
open Python Lib

/-- The error of the client at hand. -/
def IsApi (exc : Raised) : Prop := ∃ e, exc = .api e

/-- `float("inf")` and `float("-inf")`. -/
def Infinite (v : Json) : Prop := v = .float .posInf ∨ v = .float .negInf

theorem toInt_error {py : Interpreter} {v : Json} {exc : Raised} (h : v.toInt py = .error exc) :
    (Infinite v ∧ ∃ text, exc = .builtin .overflowError text) ∨
      ¬ Infinite v ∧ ((∃ text, exc = .builtin .valueError text) ∨
        ∃ text, exc = .builtin .typeError text) := by
  cases v with
  | float f =>
      cases f with
      | finite q => cases h
      | posInf =>
          cases h
          exact .inl ⟨.inl rfl, _, rfl⟩
      | negInf =>
          cases h
          exact .inl ⟨.inr rfl, _, rfl⟩
      | nan =>
          cases h
          exact .inr ⟨by simp [Infinite], .inl ⟨_, rfl⟩⟩
  | str s =>
      simp only [Json.toInt] at h
      split at h
      · cases h
      · cases h
        exact .inr ⟨by simp [Infinite], .inl ⟨_, rfl⟩⟩
  | int n => cases h
  | bool b => cases h
  | null =>
      cases h
      exact .inr ⟨by simp [Infinite], .inr ⟨_, rfl⟩⟩
  | list items =>
      cases h
      exact .inr ⟨by simp [Infinite], .inr ⟨_, rfl⟩⟩
  | dict items =>
      cases h
      exact .inr ⟨by simp [Infinite], .inr ⟨_, rfl⟩⟩

theorem toInt_infinite {py : Interpreter} {v : Json} (h : Infinite v) :
    ∃ text, v.toInt py = .error (.builtin .overflowError text) := by
  rcases h with rfl | rfl
  · exact ⟨_, rfl⟩
  · exact ⟨_, rfl⟩

namespace Client

/-! ## Jobs -/

/-- What the `except` clause of the job decoders turns into a `SandboxApiError`. -/
def Caught (exc : Raised) : Prop :=
  ∀ message payload, IsApi (invalidPayload message payload exc)

/-- One step of a job decoder. -/
inductive FieldRead
  /-- `payload[key]`. -/
  | present (key : String)
  /-- `int(value)`. -/
  | integer (value : Json)
  /-- `base64.b64decode(text, validate=True)`. -/
  | base64 (text : String)

section
variable (py : Interpreter) (fields : Dict)

def FieldRead.run : FieldRead → Except Raised Unit
  | .present key => forget (fields.item key)
  | .integer value => forget (value.toInt py)
  | .base64 text =>
      match py.b64decode text with
      | some _ => .ok ()
      | none => .error (.builtin .valueError "invalid base64-encoded string")

/-- The value is an infinity. -/
def FieldRead.Escapes : FieldRead → Prop
  | .integer value => Infinite value
  | _ => False

/-- `int(payload[key])`. -/
def requiredInt (key : String) : List FieldRead := [.present key, .integer (fields.get key)]

/-- `int(payload.get(key) or 0)`. -/
def countRead (key : String) : FieldRead := .integer ((fields.get key).orElse (.int 0))

/-- `int(payload[key]) if payload.get(key) is not None else None`. -/
def optionalIntRead (key : String) : FieldRead :=
  .integer (if (fields.get key).isNone then .int 0 else fields.get key)

/-- What can fail in `SandboxJobRecord.from_payload`, in order. -/
def jobReads : List FieldRead :=
  .present "sandbox_id" :: requiredInt fields "sandbox_generation" ++
    [.present "job_id", .present "spec_sha256", .present "state", countRead fields "pid",
      optionalIntRead fields "exit_code", countRead fields "signal",
      countRead fields "stdout_bytes", countRead fields "stderr_bytes",
      countRead fields "sequence"]

/-- What can fail in `SandboxJobLogChunk.from_payload`, in order, up to its record. -/
def chunkReads : List FieldRead :=
  .present "stream" :: requiredInt fields "offset" ++ requiredInt fields "next_offset" ++
    [.base64 (textField py fields "data")]

end

section
variable {py : Interpreter} {fields : Dict}

theorem caught_of_builtin {cls : Builtin} {text : String}
    (h : cls = .keyError ∨ cls = .typeError ∨ cls = .valueError) : Caught (.builtin cls text) := by
  intro message payload
  rcases h with rfl | rfl | rfl
  · exact ⟨_, rfl⟩
  · exact ⟨_, rfl⟩
  · exact ⟨_, rfl⟩

theorem not_caught_overflow (text : String) : ¬ Caught (.builtin .overflowError text) := by
  intro h
  obtain ⟨e, he⟩ := h "" .null
  cases he

/-- A step is caught unless it is asked for an infinity. -/
theorem failsOnly_fieldRead (r : FieldRead) :
    FailsOnly Caught (r.run py fields) ↔ ¬ r.Escapes := by
  cases r with
  | present key =>
      refine iff_of_true ?_ id
      simp only [FieldRead.run, failsOnly_forget, Dict.item]
      cases fields.lookup key with
      | some v => exact failsOnly_ok _ _
      | none => exact failsOnly_error.mpr (caught_of_builtin (.inl rfl))
  | base64 text =>
      refine iff_of_true ?_ id
      simp only [FieldRead.run]
      cases py.b64decode text with
      | some data => exact failsOnly_ok _ _
      | none => exact failsOnly_error.mpr (caught_of_builtin (.inr (.inr rfl)))
  | integer value =>
      simp only [FieldRead.run, failsOnly_forget, FieldRead.Escapes]
      cases hvalue : value.toInt py with
      | ok n =>
          refine iff_of_true (failsOnly_ok _ _) fun hinfinite => ?_
          obtain ⟨text, htext⟩ := @toInt_infinite py value hinfinite
          rw [hvalue] at htext
          cases htext
      | error exc =>
          rw [failsOnly_error]
          rcases toInt_error hvalue with
            ⟨hinfinite, text, rfl⟩ | ⟨hfinite, ⟨text, rfl⟩ | ⟨text, rfl⟩⟩
          · exact iff_of_false (not_caught_overflow text) (not_not.mpr hinfinite)
          · exact iff_of_true (caught_of_builtin (.inr (.inr rfl))) hfinite
          · exact iff_of_true (caught_of_builtin (.inr (.inl rfl))) hfinite

theorem failsOnly_fieldReads (reads : List FieldRead) :
    FailsOnly Caught (runSteps (FieldRead.run py fields) reads) ↔
      ∀ r, Reached (FieldRead.run py fields) reads r → ¬ r.Escapes := by
  rw [failsOnly_runSteps]
  exact forall₂_congr fun r _ => failsOnly_fieldRead r

theorem run_countRead (key : String) :
    (countRead fields key).run py fields = forget (countField py fields key) := by
  simp only [countRead, FieldRead.run, countField]
  cases ((fields.get key).orElse (.int 0)).toInt py <;> rfl

theorem run_optionalIntRead (key : String) :
    (optionalIntRead fields key).run py fields =
      forget (optional (fields.get key) (Json.toInt py)) := by
  simp only [optionalIntRead, FieldRead.run, optional]
  by_cases hnone : (fields.get key).isNone = true
  · rw [if_pos hnone, if_pos hnone]
    rfl
  · rw [if_neg hnone, if_neg hnone]
    cases (fields.get key).toInt py <;> rfl

theorem run_integer_of_item {key : String} {v : Json} (h : fields.item key = .ok v) :
    (FieldRead.integer (fields.get key)).run py fields = forget (v.toInt py) := by
  rw [get_of_item h]
  rfl

/-- The decoder of a record is its steps. -/
theorem forget_jobFields :
    forget (JobRecord.ofFields py fields) =
      runSteps (FieldRead.run py fields) (jobReads fields) := by
  simp only [JobRecord.ofFields, jobReads, requiredInt, List.cons_append, List.nil_append]
  refine forget_bind rfl fun _ _ => ?_
  refine forget_bind rfl fun v hv => ?_
  refine forget_bind (run_integer_of_item hv) fun _ _ => ?_
  refine forget_bind rfl fun _ _ => ?_
  refine forget_bind rfl fun _ _ => ?_
  refine forget_bind rfl fun _ _ => ?_
  refine forget_bind (run_countRead _) fun _ _ => ?_
  refine forget_bind (run_optionalIntRead _) fun _ _ => ?_
  refine forget_bind (run_countRead _) fun _ _ => ?_
  refine forget_bind (run_countRead _) fun _ _ => ?_
  refine forget_bind (run_countRead _) fun _ _ => ?_
  refine forget_bind (run_countRead _) fun _ _ => ?_
  rfl

/-- The decoder of the fields of a log is its steps. -/
theorem forget_logFields :
    forget (JobLogChunk.ofFields py fields) =
      runSteps (FieldRead.run py fields) (chunkReads py fields) := by
  simp only [JobLogChunk.ofFields, chunkReads, requiredInt, List.cons_append, List.nil_append]
  refine forget_bind rfl fun _ _ => ?_
  refine forget_bind rfl fun v hv => ?_
  refine forget_bind (run_integer_of_item hv) fun _ _ => ?_
  refine forget_bind rfl fun w hw => ?_
  refine forget_bind (run_integer_of_item hw) fun _ _ => ?_
  simp only [runSteps, FieldRead.run]
  cases py.b64decode (textField py fields "data") <;> rfl

/-- The message of an error does not decide whether it is caught. -/
theorem isApi_invalidPayload (message : String) (payload : Json) (exc : Raised) :
    IsApi (invalidPayload message payload exc) ↔ Caught exc := by
  constructor
  · intro h message' payload'
    cases exc with
    | builtin cls text =>
        cases cls with
        | keyError => exact ⟨_, rfl⟩
        | typeError => exact ⟨_, rfl⟩
        | valueError => exact ⟨_, rfl⟩
        | _ => exact h
    | _ => exact h
  · intro h
    exact h message payload

end

/-- No field of a record is an infinity, as far as the decoder comes. -/
def JobSound (py : Interpreter) (payload : Json) : Prop :=
  ∀ fields, payload.asDict = some fields →
    ∀ r, Reached (FieldRead.run py fields) (jobReads fields) r → ¬ r.Escapes

theorem failsOnly_api {α : Type} (e : ApiError) :
    FailsOnly IsApi (.error (.api e) : Except Raised α) :=
  failsOnly_error.mpr ⟨e, rfl⟩

/-- **A job record** fails with the error of the client, unless an infinity is converted. -/
theorem job_fails_iff (py : Interpreter) (payload : Json) :
    FailsOnly IsApi (JobRecord.fromPayload py payload) ↔ JobSound py payload := by
  simp only [JobRecord.fromPayload, JobSound]
  cases hpayload : payload.asDict with
  | none =>
      refine iff_of_true (failsOnly_api _) ?_
      intro fields h
      cases h
  | some fields =>
      simp only [Option.some.injEq, forall_eq']
      rw [← failsOnly_fieldReads, ← forget_jobFields, failsOnly_forget]
      cases JobRecord.ofFields py fields with
      | error exc =>
          rw [failsOnly_error, failsOnly_error]
          exact isApi_invalidPayload _ _ _
      | ok record =>
          refine iff_of_true ?_ (failsOnly_ok _ _)
          simp only
          split_ifs
          · exact failsOnly_api _
          · exact failsOnly_ok _ _

/-! ## Logs -/

/-- `SandboxJobLogChunk.from_payload`. -/
def JobLogChunk.ofJson (py : Interpreter) (payload : Json) : Except Raised JobLogChunk :=
  match payload.asDict with
  | some fields => JobLogChunk.fromPayload py fields
  | none =>
      .error (.api { message := "gateway returned an invalid job log payload", body := payload })

/-- The fields of a log agree: it is of `stdout` or of `stderr`, and its data is as long as its
offsets say. -/
structure LogFieldsAgree (py : Interpreter) (fields : Dict) (first : ℤ) (bytes : Bytes) : Prop where
  stream : (fields.get "stream").toStr py = "stdout" ∨ (fields.get "stream").toStr py = "stderr"
  offset : (fields.get "offset").toInt py = .ok first
  nonneg : 0 ≤ first
  nextOffset : (fields.get "next_offset").toInt py = .ok (first + bytes.length)
  data : py.b64decode (textField py fields "data") = some bytes

/-- No field of a log is an infinity, as far as the decoder comes, and none of its record when the
fields of the log agree. -/
def ChunkSound (py : Interpreter) (payload : Json) : Prop :=
  ∀ fields, payload.asDict = some fields →
    (∀ r, Reached (FieldRead.run py fields) (chunkReads py fields) r → ¬ r.Escapes) ∧
      ∀ first bytes, LogFieldsAgree py fields first bytes →
        (fields.get "job").isNone = false → JobSound py (fields.get "job")

section
variable {py : Interpreter} {fields : Dict}

theorem item_of_get {key : String} (h : fields.get key ≠ .null) :
    fields.item key = .ok (fields.get key) := by
  simp only [Dict.get] at h
  simp only [Dict.item, Dict.get]
  cases hlookup : fields.lookup key with
  | none =>
      rw [hlookup] at h
      exact absurd rfl h
  | some v => rfl

/-- Fields that agree are all there. -/
theorem LogFieldsAgree.ofFields {first : ℤ} {bytes : Bytes}
    (h : LogFieldsAgree py fields first bytes) :
    JobLogChunk.ofFields py fields =
      .ok ((fields.get "stream").toStr py, first, first + bytes.length, bytes) := by
  have hstream : fields.item "stream" = .ok (fields.get "stream") := by
    refine item_of_get ?_
    intro hnull
    have hnone := h.stream
    rw [hnull] at hnone
    revert hnone
    simp [Json.toStr]
  have hoffset : fields.item "offset" = .ok (fields.get "offset") := by
    refine item_of_get ?_
    intro hnull
    have hint := h.offset
    rw [hnull] at hint
    cases hint
  have hnext : fields.item "next_offset" = .ok (fields.get "next_offset") := by
    refine item_of_get ?_
    intro hnull
    have hint := h.nextOffset
    rw [hnull] at hint
    cases hint
  simp only [JobLogChunk.ofFields, hstream, hoffset, hnext, h.offset, h.nextOffset, h.data,
    bind, Except.bind, pure, Except.pure]

/-- Fields that pass the checks of the decoder agree. -/
theorem logFieldsAgree_of_ofFields {stream : String} {offset nextOffset : ℤ} {data : Bytes}
    (h : JobLogChunk.ofFields py fields = .ok (stream, offset, nextOffset, data))
    (hstream : stream = "stdout" ∨ stream = "stderr") (hnonneg : 0 ≤ offset)
    (hlength : nextOffset = offset + data.length) : LogFieldsAgree py fields offset data := by
  simp only [JobLogChunk.ofFields] at h
  obtain ⟨streamField, hstreamField, h⟩ := bind_eq_ok h
  obtain ⟨offsetField, hoffsetField, h⟩ := bind_eq_ok h
  obtain ⟨offset', hoffset, h⟩ := bind_eq_ok h
  obtain ⟨nextField, hnextField, h⟩ := bind_eq_ok h
  obtain ⟨next, hnext, h⟩ := bind_eq_ok h
  cases hdata : py.b64decode (textField py fields "data") with
  | none =>
      rw [hdata] at h
      cases h
  | some bytes =>
      rw [hdata] at h
      cases h
      refine ⟨?_, ?_, hnonneg, ?_, hdata⟩
      · rw [get_of_item hstreamField]
        exact hstream
      · rw [get_of_item hoffsetField]
        exact hoffset
      · rw [get_of_item hnextField, hnext, hlength]

/-- What the decoder of a log makes of fields that agree. -/
theorem LogFieldsAgree.fails_iff {first : ℤ} {bytes : Bytes}
    (h : LogFieldsAgree py fields first bytes) :
    FailsOnly IsApi (JobLogChunk.fromPayload py fields) ↔
      ((fields.get "job").isNone = false → JobSound py (fields.get "job")) := by
  have hchecks : ¬ (!(["stdout", "stderr"].contains ((fields.get "stream").toStr py)) ||
      decide (first < 0) || decide (first + (bytes.length : ℤ) ≠ first + bytes.length)) = true := by
    have hnonneg := h.nonneg
    rcases h.stream with hstream | hstream
    · simp [hstream, hnonneg]
    · simp [hstream, hnonneg]
  simp only [JobLogChunk.fromPayload, h.ofFields, if_neg hchecks, optional]
  by_cases hnone : (fields.get "job").isNone = true
  · rw [if_pos hnone]
    refine iff_of_true (failsOnly_ok _ _) fun hsome => ?_
    rw [hnone] at hsome
    cases hsome
  · have hsome : (fields.get "job").isNone = false := by simpa using hnone
    rw [if_neg hnone, ← job_fails_iff, forall_prop_of_true hsome]
    cases JobRecord.fromPayload py (fields.get "job") with
    | error exc => exact failsOnly_error.trans failsOnly_error.symm
    | ok record => exact iff_of_true (failsOnly_ok _ _) (failsOnly_ok _ _)

end

/-- **A log** fails with the error of the client, unless an infinity is converted. -/
theorem chunk_fails_iff (py : Interpreter) (payload : Json) :
    FailsOnly IsApi (JobLogChunk.ofJson py payload) ↔ ChunkSound py payload := by
  simp only [JobLogChunk.ofJson, ChunkSound]
  cases hpayload : payload.asDict with
  | none =>
      refine iff_of_true (failsOnly_api _) ?_
      intro fields h
      cases h
  | some fields =>
      simp only [Option.some.injEq, forall_eq']
      rw [← failsOnly_fieldReads, ← forget_logFields, failsOnly_forget]
      by_cases hagree : ∃ first bytes, LogFieldsAgree py fields first bytes
      · obtain ⟨first, bytes, h⟩ := hagree
        rw [h.fails_iff, h.ofFields]
        constructor
        · intro hjob
          exact ⟨failsOnly_ok _ _, fun _ _ _ => hjob⟩
        · intro hsound
          exact hsound.2 first bytes h
      · have hnone : ∀ first bytes, LogFieldsAgree py fields first bytes →
            (fields.get "job").isNone = false → JobSound py (fields.get "job") := by
          intro first bytes h
          exact absurd ⟨first, bytes, h⟩ hagree
        rw [and_iff_left hnone]
        simp only [JobLogChunk.fromPayload]
        cases hfields : JobLogChunk.ofFields py fields with
        | error exc =>
            rw [failsOnly_error, failsOnly_error]
            exact isApi_invalidPayload _ _ _
        | ok read =>
            obtain ⟨stream, offset, nextOffset, data⟩ := read
            refine iff_of_true ?_ (failsOnly_ok _ _)
            simp only
            split_ifs with hchecks
            · exact failsOnly_api _
            · simp only [List.contains_cons, List.contains_nil, Bool.or_false, Bool.or_eq_true,
                Bool.not_eq_true', Bool.or_eq_false_iff, beq_eq_false_iff_ne, decide_eq_true_eq,
                not_or, not_and_or, not_not, not_lt] at hchecks
              exact absurd ⟨offset, data, logFieldsAgree_of_ofFields hfields hchecks.1.1
                hchecks.1.2 hchecks.2⟩ hagree

/-! ## Groups -/

/-- **A group** always fails with the error of the client. -/
theorem group_fails (py : Interpreter) (payload : Json) :
    FailsOnly IsApi (SandboxGroupStatus.fromPayload py payload) := by
  simp only [SandboxGroupStatus.fromPayload]
  cases payload.asDict with
  | none => exact failsOnly_api _
  | some fields =>
      simp only
      split
      · split
        · exact failsOnly_api _
        · exact failsOnly_ok _ _
      · exact failsOnly_api _

end Client

namespace Relay

/-! ## Requests and polls -/

/-- One step of the decoder of a request. -/
inductive RequestRead
  /-- `_required_string`. -/
  | text (field : String)
  /-- `_validate_registration_token`. -/
  | token
  /-- `_decode_body`. -/
  | body
  /-- `_validate_http_body_size`. -/
  | bodySize
  /-- `_optional_float`. -/
  | float (field : String)
  /-- `_int` and `_optional_int`. -/
  | integer (field : String)
  /-- `_optional_bool`. -/
  | boolean (field : String)

section
variable (py : Interpreter) (codec : RelayCodec) (payload : Dict)

def RequestRead.run : RequestRead → Except Raised Unit
  | .text field => forget (requiredString payload field)
  | .token =>
      match requiredString payload "registration_token" with
      | .ok value => validateRegistrationToken value
      | .error _ => .ok ()
  | .body => forget (decodeBody py codec (payload.get "body") payload)
  | .bodySize =>
      match decodeBody py codec (payload.get "body") payload with
      | .ok (_, bodyBytes) => validateHttpBodySize bodyBytes
      | .error _ => .ok ()
  | .float field => forget (optionalFloat py codec (payload.get field))
  | .integer field => forget (optionalInt py (payload.get field))
  | .boolean field => forget (optionalBool (payload.get field) false)

/-- What the `except` clause of `_decode_body` turns into a `RelayApiError`. -/
def BodyCaught (exc : Raised) : Prop := ∀ invalid, IsApi (orInvalid invalid exc)

/-- `{"encoding": "json", "value": value}`. -/
def JsonTag (v value : Json) : Prop :=
  ∃ fields, v.asDict = some fields ∧ fields.has "encoding" = true ∧ fields.has "value" = true ∧
    (fields.all fun item => ["encoding", "value"].contains item.1) = true ∧
    (fields.get "encoding").eqStr "json" = true ∧ fields.get "value" = value

/-- A body whose value `json` cannot write and read back, for a reason that is not caught; an
integer that is too large for a `float`; an infinity that is converted to an integer. -/
def RequestRead.Escapes : RequestRead → Prop
  | .body => ∃ value exc, JsonTag (payload.get "body") value ∧
      (codec.dumps value >>= loadsBytes py) = .error exc ∧ ¬ BodyCaught exc
  | .float field => ∃ n, payload.get field = .int n ∧ codec.floatOfInt n = none
  | .integer field => Infinite (payload.get field)
  | _ => False

/-- What can fail in `RelayRequest.from_payload`, in order. -/
def requestReads : List RequestRead :=
  [.text "request_id", .text "rollout_id", .text "registration_token", .text "lease_id", .token,
    .body, .bodySize, .float "created_at", .float "delivered_at", .float "first_delivered_at",
    .float "lease_expires_at", .integer "delivery_count", .integer "sandbox_generation",
    .float "expires_at", .boolean "reattachable", .float "accepted_notified_at"]

end

section
variable {py : Interpreter} {codec : RelayCodec} {payload : Dict}

theorem forget_unit {ε : Type} (x : Except ε Unit) : forget x = x := by
  cases x <;> rfl

/-- `int`, where a `TypeError` or a `ValueError` gives the default. -/
theorem intOr_fails (v : Json) (default : ℤ) :
    FailsOnly IsApi (intOr py v default) ↔ ¬ Infinite v := by
  simp only [intOr]
  cases hv : v.toInt py with
  | ok n =>
      refine iff_of_true (failsOnly_ok _ _) ?_
      intro hinfinite
      obtain ⟨text, htext⟩ := @toInt_infinite py v hinfinite
      rw [hv] at htext
      cases htext
  | error exc =>
      rcases toInt_error hv with ⟨hinfinite, text, rfl⟩ | ⟨hfinite, ⟨text, rfl⟩ | ⟨text, rfl⟩⟩
      · refine iff_of_false ?_ (not_not.mpr hinfinite)
        intro h
        obtain ⟨e, he⟩ := failsOnly_error.mp h
        cases he
      · exact iff_of_true (failsOnly_ok _ _) hfinite
      · exact iff_of_true (failsOnly_ok _ _) hfinite

theorem optionalInt_fails (v : Json) :
    FailsOnly IsApi (optionalInt py v) ↔ ¬ Infinite v := by
  simp only [optionalInt]
  by_cases hnone : v.isNone = true
  · rw [if_pos hnone]
    refine iff_of_true (failsOnly_ok _ _) ?_
    rintro (rfl | rfl)
    · cases hnone
    · cases hnone
  · rw [if_neg hnone, ← intOr_fails v 0]
    cases intOr py v 0 with
    | ok n => exact iff_of_true (failsOnly_ok _ _) (failsOnly_ok _ _)
    | error exc => exact failsOnly_error.trans failsOnly_error.symm

theorem optionalFloat_fails (v : Json) :
    FailsOnly IsApi (optionalFloat py codec v) ↔
      ¬ ∃ n, v = .int n ∧ codec.floatOfInt n = none := by
  cases v with
  | int n =>
      simp only [optionalFloat]
      cases hn : codec.floatOfInt n with
      | some f =>
          refine iff_of_true (failsOnly_ok _ _) ?_
          rintro ⟨m, hm, hnone⟩
          cases hm
          rw [hn] at hnone
          cases hnone
      | none =>
          refine iff_of_false ?_ (not_not.mpr ⟨n, rfl, hn⟩)
          intro h
          obtain ⟨e, he⟩ := failsOnly_error.mp h
          cases he
  | _ =>
      refine iff_of_true (failsOnly_ok _ _) ?_
      rintro ⟨m, hm, -⟩
      cases hm

theorem isApi_orInvalid (invalid : ApiError) (exc : Raised) :
    IsApi (orInvalid invalid exc) ↔ BodyCaught exc := by
  constructor
  · intro h invalid'
    cases exc with
    | builtin cls text =>
        cases cls with
        | typeError => exact ⟨_, rfl⟩
        | valueError => exact ⟨_, rfl⟩
        | _ => exact h
    | _ => exact h
  · intro h
    exact h invalid

theorem JsonTag.unique {body value value' : Json} (h : JsonTag body value)
    (h' : JsonTag body value') : value' = value := by
  obtain ⟨fields, hfields, -, -, -, -, rfl⟩ := h
  obtain ⟨fields', hfields', -, -, -, -, rfl⟩ := h'
  rw [hfields] at hfields'
  cases hfields'
  rfl

/-- The JSON branch of `_decode_body`. -/
theorem JsonTag.decodes {body value : Json} (h : JsonTag body value) :
    decodeBody py codec body payload =
      (do
        let encoded ← codec.dumps value
        let value ← loadsBytes py encoded
        return (value, encoded) : Except Raised (Json × Bytes)).mapError
        (orInvalid { message := "relay request JSON body is invalid", body := .dict payload }) := by
  obtain ⟨fields, hfields, hencoding, hvalue, hall, hjson, rfl⟩ := h
  have hkeys : (fields.has "encoding" && fields.has "value" &&
      fields.all fun item => ["encoding", "value"].contains item.1) = true := by
    rw [hencoding, hvalue, hall]
    rfl
  simp only [decodeBody, hfields, if_pos hkeys, if_pos hjson]

/-- Every other branch fails with the error of the client. -/
theorem decodeBody_fails_of_not_json {body : Json} (h : ∀ value, ¬ JsonTag body value) :
    FailsOnly IsApi (decodeBody py codec body payload) := by
  simp only [decodeBody, decodeBody.malformed]
  cases hbody : body.asDict with
  | none => exact Client.failsOnly_api _
  | some fields =>
      simp only
      split_ifs with hkeys hjson
      · simp only [Bool.and_eq_true] at hkeys
        exact absurd ⟨fields, hbody, hkeys.1.1, hkeys.1.2, hkeys.2, hjson, rfl⟩
          (h (fields.get "value"))
      · split
        · split
          · exact failsOnly_ok _ _
          · exact Client.failsOnly_api _
        · exact Client.failsOnly_api _
      · exact Client.failsOnly_api _

/-- A body is rejected with the error of the client, unless `json` itself fails otherwise. -/
theorem decodeBody_fails (body : Json) :
    FailsOnly IsApi (decodeBody py codec body payload) ↔
      ¬ ∃ value exc, JsonTag body value ∧
        (codec.dumps value >>= loadsBytes py) = .error exc ∧ ¬ BodyCaught exc := by
  by_cases htag : ∃ value, JsonTag body value
  · obtain ⟨value, htag⟩ := htag
    have hsame : FailsOnly BodyCaught (do
        let encoded ← codec.dumps value
        let value ← loadsBytes py encoded
        return (value, encoded) : Except Raised (Json × Bytes)) ↔
          FailsOnly BodyCaught (codec.dumps value >>= loadsBytes py) := by
      cases codec.dumps value with
      | error exc => exact failsOnly_error.trans failsOnly_error.symm
      | ok encoded =>
          simp only [bind, Except.bind]
          cases loadsBytes py encoded with
          | error exc => exact failsOnly_error.trans failsOnly_error.symm
          | ok loaded => exact iff_of_true (failsOnly_ok _ _) (failsOnly_ok _ _)
    rw [htag.decodes, failsOnly_mapError]
    simp only [isApi_orInvalid]
    rw [hsame]
    constructor
    · rintro h ⟨value', exc, htag', hexc, hcaught⟩
      rw [htag.unique htag'] at hexc
      exact hcaught (h exc hexc)
    · intro h exc hexc
      by_contra hcaught
      exact h ⟨value, exc, htag, hexc, hcaught⟩
  · refine iff_of_true (decodeBody_fails_of_not_json fun value hvalue => htag ⟨value, hvalue⟩) ?_
    rintro ⟨value, exc, hvalue, -, -⟩
    exact htag ⟨value, hvalue⟩

/-- A step fails with the error of the client unless it escapes. -/
theorem failsOnly_requestRead (r : RequestRead) :
    FailsOnly IsApi (r.run py codec payload) ↔ ¬ r.Escapes py codec payload := by
  cases r with
  | text field =>
      refine iff_of_true ?_ id
      simp only [RequestRead.run, failsOnly_forget, requiredString]
      split
      · split_ifs
        · exact Client.failsOnly_api _
        · exact failsOnly_ok _ _
      · exact Client.failsOnly_api _
  | token =>
      refine iff_of_true ?_ id
      simp only [RequestRead.run, validateRegistrationToken]
      split
      · split_ifs
        · exact failsOnly_ok _ _
        · exact Client.failsOnly_api _
      · exact failsOnly_ok _ _
  | body =>
      simp only [RequestRead.run, failsOnly_forget, RequestRead.Escapes]
      exact decodeBody_fails _
  | bodySize =>
      refine iff_of_true ?_ id
      simp only [RequestRead.run, validateHttpBodySize]
      split
      · split_ifs
        · exact Client.failsOnly_api _
        · exact failsOnly_ok _ _
      · exact failsOnly_ok _ _
  | float field =>
      simp only [RequestRead.run, failsOnly_forget, RequestRead.Escapes]
      exact optionalFloat_fails _
  | integer field =>
      simp only [RequestRead.run, failsOnly_forget, RequestRead.Escapes]
      exact optionalInt_fails _
  | boolean field =>
      refine iff_of_true ?_ id
      simp only [RequestRead.run, failsOnly_forget, optionalBool]
      split
      · exact failsOnly_ok _ _
      · exact failsOnly_ok _ _
      · exact Client.failsOnly_api _

theorem run_integer_intOr (field : String) :
    (RequestRead.integer field).run py codec payload =
      forget (intOr py (payload.get field) 0) := by
  simp only [RequestRead.run, optionalInt]
  by_cases hnone : (payload.get field).isNone = true
  · rw [if_pos hnone]
    cases hv : payload.get field with
    | null => rfl
    | _ =>
        rw [hv] at hnone
        cases hnone
  · rw [if_neg hnone]
    cases intOr py (payload.get field) 0 <;> rfl

/-- The decoder of a request is its steps. -/
theorem forget_requestFields :
    forget (RelayRequest.fromPayload py codec payload) =
      runSteps (RequestRead.run py codec payload) requestReads := by
  simp only [RelayRequest.fromPayload, requestReads]
  refine forget_bind rfl fun _ _ => ?_
  refine forget_bind rfl fun _ _ => ?_
  refine forget_bind rfl fun token htoken => ?_
  refine forget_bind rfl fun _ _ => ?_
  refine forget_bind ?_ fun _ _ => ?_
  · simp only [RequestRead.run, htoken]
    exact (forget_unit _).symm
  refine forget_bind rfl fun decoded hdecoded => ?_
  refine forget_bind ?_ fun _ _ => ?_
  · simp only [RequestRead.run, hdecoded]
    exact (forget_unit _).symm
  refine forget_bind rfl fun _ _ => ?_
  refine forget_bind rfl fun _ _ => ?_
  refine forget_bind rfl fun _ _ => ?_
  refine forget_bind rfl fun _ _ => ?_
  refine forget_bind (run_integer_intOr _) fun _ _ => ?_
  refine forget_bind rfl fun _ _ => ?_
  refine forget_bind rfl fun _ _ => ?_
  refine forget_bind rfl fun _ _ => ?_
  refine forget_bind rfl fun _ _ => ?_
  rfl

end

/-- Nothing in a request escapes, as far as the decoder comes. -/
def RequestSound (py : Interpreter) (codec : RelayCodec) (payload : Json) : Prop :=
  ∀ fields, payload.asDict = some fields →
    ∀ r, Reached (RequestRead.run py codec fields) requestReads r → ¬ r.Escapes py codec fields

/-- **A request** fails with the error of the client, unless something escapes. -/
theorem request_fails_iff (py : Interpreter) (codec : RelayCodec) (payload : Json) :
    FailsOnly IsApi (RelayRequest.ofJson py codec payload) ↔ RequestSound py codec payload := by
  simp only [RelayRequest.ofJson, RequestSound]
  cases hpayload : payload.asDict with
  | none =>
      refine iff_of_true (Client.failsOnly_api _) ?_
      intro fields h
      cases h
  | some fields =>
      simp only [Option.some.injEq, forall_eq']
      rw [← failsOnly_forget, forget_requestFields, failsOnly_runSteps]
      exact forall₂_congr fun r _ => failsOnly_requestRead r

/-- `RelayPollResult.from_payload`: what is no object has no `get`. -/
def pollResultOfJson (py : Interpreter) (codec : RelayCodec) (payload : Json) :
    Except Raised (List RelayRequest) :=
  match payload.asDict with
  | some fields => pollResultFromPayload py codec fields
  | none => .error (.builtin .other "object has no attribute 'get'")

/-- The answer is an object, and nothing in its requests escapes, as far as the decoder comes. -/
def PollSound (py : Interpreter) (codec : RelayCodec) (payload : Json) : Prop :=
  ∃ fields, payload.asDict = some fields ∧ ∀ items, fields.get "requests" = .list items →
    ∀ item, Reached (fun item => forget (RelayRequest.ofJson py codec item)) items item →
      RequestSound py codec item

/-- **A poll** fails with the error of the client, unless something in a request escapes. -/
theorem poll_fails_iff (py : Interpreter) (codec : RelayCodec) (payload : Json) :
    FailsOnly IsApi (pollResultOfJson py codec payload) ↔ PollSound py codec payload := by
  simp only [pollResultOfJson, PollSound]
  cases hpayload : payload.asDict with
  | none =>
      refine iff_of_false ?_ ?_
      · intro h
        obtain ⟨e, he⟩ := failsOnly_error.mp h
        cases he
      · rintro ⟨fields, hfields, -⟩
        cases hfields
  | some fields =>
      simp only [Option.some.injEq, exists_eq_left', pollResultFromPayload]
      cases hrequests : fields.get "requests" with
      | list items =>
          simp only [Json.list.injEq, forall_eq']
          rw [← failsOnly_forget, forget_mapM, failsOnly_runSteps]
          refine forall₂_congr fun item _ => ?_
          rw [failsOnly_forget, request_fails_iff]
      | _ =>
          refine iff_of_true (Client.failsOnly_api _) ?_
          intro items h
          cases h

end Relay

/-! ## All of them -/

section
variable (py : Interpreter) (codec : Relay.RelayCodec) (payload : Json)

/-- Every decoder fails with the error of its client only. -/
structure DecodersFail : Prop where
  job : FailsOnly IsApi (Client.JobRecord.fromPayload py payload)
  chunk : FailsOnly IsApi (Client.JobLogChunk.ofJson py payload)
  group : FailsOnly IsApi (Client.SandboxGroupStatus.fromPayload py payload)
  request : FailsOnly IsApi (Relay.RelayRequest.ofJson py codec payload)
  poll : FailsOnly IsApi (Relay.pollResultOfJson py codec payload)

/-- Nothing that a decoder comes to escapes its `except` clause. -/
structure DecodersSound : Prop where
  job : Client.JobSound py payload
  chunk : Client.ChunkSound py payload
  request : Relay.RequestSound py codec payload
  poll : Relay.PollSound py codec payload

/-- **Every decoder** fails with the error of its client only, unless it converts an infinity or an
integer that is too large, or `json` cannot read back what it wrote. -/
theorem decoders_fail_iff : DecodersFail py codec payload ↔ DecodersSound py codec payload := by
  constructor
  · intro h
    exact ⟨(Client.job_fails_iff py payload).mp h.job,
      (Client.chunk_fails_iff py payload).mp h.chunk,
      (Relay.request_fails_iff py codec payload).mp h.request,
      (Relay.poll_fails_iff py codec payload).mp h.poll⟩
  · intro h
    exact ⟨(Client.job_fails_iff py payload).mpr h.job,
      (Client.chunk_fails_iff py payload).mpr h.chunk, Client.group_fails py payload,
      (Relay.request_fails_iff py codec payload).mpr h.request,
      (Relay.poll_fails_iff py codec payload).mpr h.poll⟩

end

/-- A job record as the gateway sends it, with `Infinity` for its process. -/
def infinitePid : Json :=
  .dict [("sandbox_id", .str "s"), ("sandbox_generation", .int 1), ("job_id", .str "j"),
    ("spec_sha256", .str ""), ("state", .str "running"), ("pid", .float .posInf)]

/-- A poll that leases a request with `Infinity` for its count of deliveries. -/
def infiniteDelivery : Json :=
  .dict [("requests", .list [.dict [("request_id", .str "r"), ("rollout_id", .str "o"),
    ("registration_token", .str "0123456789abcdef0123456789abcdef"), ("lease_id", .str "l"),
    ("body", .dict [("encoding", .str "json"), ("value", .null)]),
    ("delivery_count", .float .posInf)]])]

/-- Both raise an `OverflowError`. -/
theorem infinities_escape :
    ¬ FailsOnly IsApi (Client.JobRecord.fromPayload (.ascii []) infinitePid) ∧
      ¬ FailsOnly IsApi (Relay.pollResultOfJson (.ascii [("null", .null)])
        { dumps := fun _ => .ok [110, 117, 108, 108], floatOfInt := fun n => some (.finite n) }
        infiniteDelivery) := by
  refine ⟨fun h => ?_, fun h => ?_⟩
  · obtain ⟨e, he⟩ := h (.builtin .overflowError "cannot convert float infinity to integer") rfl
    cases he
  · obtain ⟨e, he⟩ := h (.builtin .overflowError "cannot convert float infinity to integer") rfl
    cases he

end UcloudSandboxes
