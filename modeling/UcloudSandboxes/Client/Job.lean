import UcloudSandboxes.Http.Response

/-!
# Job records and job logs

`SandboxJobRecord`, `SandboxJobLogChunk`, and what `get_job` and `read_job_logs` make of an answer.
An answer is what `_request_json_response` returns or raises. `jobReadDelay` is the rule that
`wait()` and `follow()` pace their reads by; it also decides when a log is read to its end.
-/
namespace UcloudSandboxes.Client
open Python Http

/-- An answer to a read: the object and its headers, or the error of the request. -/
abbrev Answer := Except Raised (Dict × Headers)

/-- `TERMINAL_JOB_STATES`. -/
def terminalJobStates : List String := ["exited", "signaled", "failed"]

/-- `SandboxJobRecord`. -/
structure JobRecord where
  sandboxId : String
  sandboxGeneration : ℤ
  jobId : String
  specSha256 : String
  state : String
  pid : ℤ
  startedAt : String
  completedAt : String
  exitCode : Option ℤ
  signal : ℤ
  stdoutBytes : ℤ
  stderrBytes : ℤ
  stdoutTruncated : Bool
  stderrTruncated : Bool
  sequence : ℤ
  updatedAt : String
  cursor : String
  cursorFromServer : Bool
  retryAfter : Option ℚ
  deriving DecidableEq, Repr

/-- `SandboxJobLogChunk`. -/
structure JobLogChunk where
  stream : String
  offset : ℤ
  nextOffset : ℤ
  data : Bytes
  eof : Bool
  job : Option JobRecord
  retryAfter : Option ℚ
  deriving DecidableEq, Repr

/-- `except (KeyError, TypeError, ValueError)` of the decoders. -/
def invalidPayload (message : String) (payload : Json) : Raised → Raised
  | .builtin .keyError _ | .builtin .typeError _ | .builtin .valueError _ =>
      .api { message, body := payload }
  | exc => exc

/-- `_server_job_cursor`. -/
def serverJobCursor (payload : Dict) : String :=
  match payload.get "cursor" with
  | .str cursor => cursor
  | _ => ""

/-- `max(0, int(payload.get(key) or 0))`. -/
def countField (py : Interpreter) (payload : Dict) (key : String) : Except Raised ℤ := do
  let n ← ((payload.get key).orElse (.int 0)).toInt py
  return max 0 n

/-- `str(payload.get(key) or "")`. -/
def textField (py : Interpreter) (payload : Dict) (key : String) : String :=
  ((payload.get key).orElse (.str "")).toStr py

/-- `None if value is None else read(value)`. -/
def optional {α : Type} (value : Json) (read : Json → Except Raised α) :
    Except Raised (Option α) :=
  if value.isNone then .ok none else some <$> read value

namespace JobRecord

/-- The fields of a record, as `from_payload` coerces them. -/
def ofFields (py : Interpreter) (payload : Dict) : Except Raised JobRecord := do
  let sandboxId ← payload.item "sandbox_id"
  let sandboxGeneration ← (← payload.item "sandbox_generation").toInt py
  let jobId ← payload.item "job_id"
  let specSha256 ← payload.item "spec_sha256"
  let state ← payload.item "state"
  let pid ← countField py payload "pid"
  let exitCode ← optional (payload.get "exit_code") (Json.toInt py)
  let signal ← countField py payload "signal"
  let stdoutBytes ← countField py payload "stdout_bytes"
  let stderrBytes ← countField py payload "stderr_bytes"
  let sequence ← countField py payload "sequence"
  let cursor := serverJobCursor payload
  return {
    sandboxId := sandboxId.toStr py
    sandboxGeneration
    jobId := jobId.toStr py
    specSha256 := specSha256.toStr py
    state := state.toStr py
    pid
    startedAt := textField py payload "started_at"
    completedAt := textField py payload "completed_at"
    exitCode
    signal
    stdoutBytes
    stderrBytes
    stdoutTruncated := (payload.get "stdout_truncated").truthy
    stderrTruncated := (payload.get "stderr_truncated").truthy
    sequence
    updatedAt := textField py payload "updated_at"
    -- `__post_init__` fills in the cursor that an older gateway does not send.
    cursor :=
      if cursor = "" then
        toString sequence ++ "." ++ toString stdoutBytes ++ "." ++ toString stderrBytes
      else cursor
    cursorFromServer := cursor != ""
    retryAfter := none }

/-- `SandboxJobRecord.from_payload`. -/
def fromPayload (py : Interpreter) (payload : Json) : Except Raised JobRecord :=
  let message := "gateway returned an invalid job payload"
  match payload.asDict with
  | none => .error (.api { message, body := payload })
  | some fields =>
      match ofFields py fields with
      | .error exc => .error (invalidPayload message payload exc)
      | .ok record =>
          if record.sandboxId = "" || record.sandboxGeneration < 1 || record.jobId = "" ||
              !("starting" :: "running" :: terminalJobStates).contains record.state then
            .error (.api { message, body := payload })
          else .ok record

/-- `SandboxJobRecord.terminal`. -/
def terminal (record : JobRecord) : Bool := terminalJobStates.contains record.state

/-- `_job_stream_bytes`. -/
def streamBytes (record : JobRecord) (stream : String) : ℤ :=
  if stream = "stdout" then record.stdoutBytes else record.stderrBytes

/-- `JobOutputTruncatedError`. -/
def outputTruncated (record : JobRecord) : ApiError :=
  let streams := (if record.stdoutTruncated then ["stdout"] else []) ++
    (if record.stderrTruncated then ["stderr"] else [])
  { kind := .outputTruncated
    message := "managed job output truncated: " ++ record.jobId ++ " (" ++
      ", ".intercalate streams ++ ")"
    body := .dict [("job_id", .str record.jobId), ("truncated", .list (streams.map .str))] }

end JobRecord

namespace JobLogChunk

/-- The first four fields of a chunk, as `from_payload` coerces them. -/
def ofFields (py : Interpreter) (payload : Dict) : Except Raised (String × ℤ × ℤ × Bytes) := do
  let stream ← payload.item "stream"
  let offset ← (← payload.item "offset").toInt py
  let nextOffset ← (← payload.item "next_offset").toInt py
  match py.b64decode (textField py payload "data") with
  | some data => return (stream.toStr py, offset, nextOffset, data)
  | none => .error (.builtin .valueError "invalid base64-encoded string")

/-- `SandboxJobLogChunk.from_payload`. -/
def fromPayload (py : Interpreter) (payload : Dict) : Except Raised JobLogChunk :=
  let message := "gateway returned an invalid job log payload"
  match ofFields py payload with
  | .error exc => .error (invalidPayload message (.dict payload) exc)
  | .ok (stream, offset, nextOffset, data) => do
      if !(["stdout", "stderr"].contains stream) || offset < 0 ||
          nextOffset ≠ offset + data.length then
        .error (.api { message, body := .dict payload })
      else
        let job ← optional (payload.get "job") (JobRecord.fromPayload py)
        return {
          stream, offset, nextOffset, data
          eof := (payload.get "eof").truthy
          job
          retryAfter := none }

end JobLogChunk

/-- The error for a record of another job. -/
def anotherJob (response : Dict) : Raised :=
  .api { message := "gateway returned another sandbox job", body := .dict response }

/-- `_checked_job`. -/
def checkedJob (py : Interpreter) (response : Dict) (sandboxId jobId : String) :
    Except Raised JobRecord := do
  let record ← JobRecord.fromPayload py (response.get "job")
  if record.sandboxId ≠ sandboxId || record.jobId ≠ jobId then .error (anotherJob response)
  else return record

/-- `_job_status_answer`. -/
def jobStatusAnswer (py : Interpreter) (response : Dict) (headers : Headers)
    (sandboxId jobId : String) : Except Raised JobRecord := do
  let record ← checkedJob py response sandboxId jobId
  return { record with retryAfter := retryAfterSeconds py headers }

/-- `_job_log_answer`. -/
def jobLogAnswer (py : Interpreter) (response : Dict) (headers : Headers)
    (sandboxId jobId : String) : Except Raised JobLogChunk := do
  let chunk ← JobLogChunk.fromPayload py response
  if chunk.job.any fun record => record.sandboxId ≠ sandboxId || record.jobId ≠ jobId then
    .error (anotherJob response)
  else
    let retryAfter := retryAfterSeconds py headers
    return { chunk with retryAfter, job := chunk.job.map fun record => { record with retryAfter } }

/-- `_job_log_needs_status`: only a gateway that sends no record needs the second read. -/
def jobLogNeedsStatus (chunk : JobLogChunk) : Bool :=
  chunk.job.isNone && (chunk.data.isEmpty || chunk.eof)

/-- What `job_read_delay` is asked about. -/
inductive JobRead
  | status (record : JobRecord) (after : Option String)
  | log (chunk : JobLogChunk) (record : Option JobRecord)

/-- `job_read_delay`; `none` when there is no next read. -/
def jobReadDelay (read : JobRead) (requestedSeconds elapsedSeconds pollSeconds : ℚ) :
    Except Raised (Option ℚ) :=
  let early := decide (elapsedSeconds < requestedSeconds / 2)
  let poll := max (1 / 20) pollSeconds
  match read with
  | .status record after =>
      if record.terminal then .ok none
      else match record.retryAfter with
        | some delay => .ok (some delay)
        | none =>
            let unchanged := some record.cursor == after || !record.cursorFromServer
            .ok (some (if early && unchanged then poll else 0))
  | .log chunk record =>
      let current := chunk.job.or record
      match current.filter fun r => r.stdoutTruncated || r.stderrTruncated with
      | some truncated => .error (.api truncated.outputTruncated)
      | none =>
          if current.any fun r => r.terminal && r.streamBytes chunk.stream ≤ chunk.nextOffset then
            .ok none
          else match chunk.retryAfter with
            | some delay => .ok (some delay)
            | none =>
                let progressed := !chunk.data.isEmpty &&
                  (chunk.job.isSome || !chunk.eof || current.any JobRecord.terminal)
                .ok (some (if early && !progressed then poll else 0))

/-! ## What an accepted answer says -/

/-- A chunk is as long as its offsets say, and holds what the fields of the payload say. -/
structure JobLogChunk.Decodes (py : Interpreter) (payload : Dict) (chunk : JobLogChunk) : Prop where
  stream : (payload.get "stream").toStr py = chunk.stream
  offset : (payload.get "offset").toInt py = .ok chunk.offset
  nextOffset : chunk.nextOffset = chunk.offset + chunk.data.length

theorem get_of_item {payload : Dict} {key : String} {v : Json} (h : payload.item key = .ok v) :
    payload.get key = v := by
  simp only [Dict.item] at h
  simp only [Dict.get]
  cases hlookup : payload.lookup key with
  | none =>
      rw [hlookup] at h
      cases h
  | some w =>
      rw [hlookup] at h
      cases h
      rfl

theorem JobLogChunk.ofFields_ok {py : Interpreter} {payload : Dict} {stream : String}
    {offset nextOffset : ℤ} {data : Bytes}
    (h : ofFields py payload = .ok (stream, offset, nextOffset, data)) :
    (payload.get "stream").toStr py = stream ∧ (payload.get "offset").toInt py = .ok offset := by
  simp only [ofFields] at h
  obtain ⟨streamField, hstream, h⟩ := bind_eq_ok h
  obtain ⟨offsetField, hfield, h⟩ := bind_eq_ok h
  obtain ⟨offset', hoffset, h⟩ := bind_eq_ok h
  obtain ⟨nextField, -, h⟩ := bind_eq_ok h
  obtain ⟨next, -, h⟩ := bind_eq_ok h
  rw [get_of_item hstream, get_of_item hfield]
  split at h
  · cases h
    exact ⟨rfl, hoffset⟩
  · cases h

theorem JobLogChunk.fromPayload_ok {py : Interpreter} {payload : Dict} {chunk : JobLogChunk}
    (h : fromPayload py payload = .ok chunk) : Decodes py payload chunk := by
  simp only [fromPayload] at h
  cases hfields : ofFields py payload with
  | error exc =>
      rw [hfields] at h
      cases h
  | ok fields =>
      obtain ⟨stream, offset, nextOffset, data⟩ := fields
      obtain ⟨hstream, hoffset⟩ := ofFields_ok hfields
      rw [hfields] at h
      simp only at h
      split at h
      · cases h
      · rename_i hchecked
        obtain ⟨job, -, h⟩ := bind_eq_ok h
        cases h
        simp only [Bool.or_eq_true, decide_eq_true_eq, not_or, not_not] at hchecked
        exact ⟨hstream, hoffset, hchecked.2⟩

/-- The checks of `_job_log_answer` leave the decoded fields as they are. -/
theorem jobLogAnswer_ok {py : Interpreter} {response : Dict} {headers : Headers}
    {sandboxId jobId : String} {chunk : JobLogChunk}
    (h : jobLogAnswer py response headers sandboxId jobId = .ok chunk) :
    JobLogChunk.Decodes py response chunk := by
  obtain ⟨decoded, hdecoded, h⟩ := bind_eq_ok h
  have hfields := JobLogChunk.fromPayload_ok hdecoded
  split at h
  · cases h
  · cases h
    exact ⟨hfields.stream, hfields.offset, hfields.nextOffset⟩

/-- There is no next read of a log only when a record says that the job has ended with no more
bytes than were read. -/
theorem jobReadDelay_log_none {chunk : JobLogChunk} {record : Option JobRecord}
    {requested elapsed poll : ℚ}
    (h : jobReadDelay (.log chunk record) requested elapsed poll = .ok none) :
    ∃ r, chunk.job.or record = some r ∧ r.terminal = true ∧
      r.streamBytes chunk.stream ≤ chunk.nextOffset := by
  simp only [jobReadDelay] at h
  split at h
  · cases h
  · split at h
    · rename_i hany
      obtain ⟨r, hr, hended⟩ := Option.any_eq_true _ _ |>.mp hany
      simp only [Bool.and_eq_true, decide_eq_true_eq] at hended
      exact ⟨r, hr, hended⟩
    · split at h <;> cases h

end UcloudSandboxes.Client
