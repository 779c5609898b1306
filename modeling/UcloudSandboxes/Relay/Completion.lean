import UcloudSandboxes.Http.Decode
import UcloudSandboxes.Python.Encode
import UcloudSandboxes.Relay.Request

/-!
# Completing a leased request

The calls a relay client makes to complete a request: `respond_to`, `error_request` and
`commit_response_bytes_to`, with the payloads they send and how the sync and the async
`_request_json` take an answer. What the two clients do differently is a field of `RelayClient`, so
that the code they share is written once.

A `Trace` keeps the completions that were dispatched, in order. The relay is a function from the
number of completions before this one to its reply; a statement about every such function is one
about every behaviour of the relay.

## Main definitions

* `CompletionPayload`: what a completion carries; its endpoint goes with it.
* `syncAnswer`, `asyncAnswer`: what `_request_json` makes of a reply.
* `RelayClient.commitResponseBytesTo`: the loop that repeats an identical completion.
-/
namespace UcloudSandboxes.Relay
open Python Http

variable {V : Type}

/-- What ends an exchange without a response. -/
inductive Failure
  | os (e : OsError)
  | url (reason : OsError)
  | protocol (text : String)
  | builtin (cls : Builtin) (text : String)
  | base (name : String)

def Failure.raised : Failure → Raised
  | .os e => .os e
  | .url reason => .url reason
  | .protocol text => .protocol text
  | .builtin cls text => .builtin cls text
  | .base name => .base name

/-- How an exchange ends. `urllib` raises an `HTTPError` for a response outside 2xx; here it is the
response. -/
abbrev Reply := Except Failure Response

/-- A body as a handler gives it: `bytes`, or any other object. -/
inductive BodyValue (V : Type)
  | bytes (body : Bytes)
  | value (v : V)

/-- A body as a completion carries it. -/
inductive EncodedBody (V : Type)
  | base64 (value : String)
  | json (value : V)

/-- `_leased_request_payload`. -/
structure Lease where
  requestId : String
  registrationToken : String
  leaseId : String

/-- `_response_payload` and `_error_payload`. -/
inductive CompletionPayload (V : Type)
  | response (lease : Lease) (status : ℤ) (body : EncodedBody V) (headers : Option Headers)
  | error (lease : Lease) (status : ℤ) (message : String)

/-- The endpoint that takes the payload. -/
def CompletionPayload.path : CompletionPayload V → String
  | .response .. => "/worker/respond"
  | .error .. => "/worker/error"

/-- What the clients use of the interpreter. -/
structure Runtime (V : Type) where
  py : Interpreter
  /-- `json.dumps` of a value that is not `bytes`. -/
  dumpsValue : V → Except (Builtin × String) String
  /-- `f"{x:g}"`. -/
  formatG : ℚ → String
  /-- `type(exc).__name__`. -/
  typeName : Raised → String
  /-- `str(exc)` of the `UnicodeDecodeError` for these bytes. -/
  undecodable : Bytes → String

/-- `_validate_registration_token`. -/
def validateRegistrationToken (value : String) : Except Raised Unit :=
  if value.length = 32 ∧ value.toList.all fun c => "0123456789abcdef".toList.contains c then .ok ()
  else .error (.api {
    message := "registration_token must be the 32-character lowercase hexadecimal " ++
      "token returned by register_rollout" })

/-- `_validate_http_body_size`. -/
def validateHttpBodySize (body : Bytes) : Except Raised Unit :=
  if maxRelayHttpBodyBytes < body.length then
    .error (.api {
      message := "relay HTTP body exceeds the " ++ toString maxRelayHttpBodyBytes ++
        " byte limit" })
  else .ok ()

/-- `_leased_request_payload`. -/
def leasedRequestPayload (request : RelayRequest) : Except Raised Lease := do
  validateRegistrationToken request.registrationToken
  if request.requestId = "" ∨ request.leaseId = "" then
    .error (.api { message := "relay request is missing request/lease identity" })
  else return {
    requestId := request.requestId
    registrationToken := request.registrationToken
    leaseId := request.leaseId }

/-- The tagged body of `_response_payload`. -/
def encodedBody : BodyValue V → Except Raised (EncodedBody V)
  | .bytes body => do
      validateHttpBodySize body
      return .base64 (String.ofList (b64encode body))
  | .value v => .ok (.json v)

/-- `_response_payload`. -/
def responsePayload (request : RelayRequest) (body : BodyValue V) (status : ℤ)
    (headers : Option Headers) : Except Raised (CompletionPayload V) := do
  let encoded ← encodedBody body
  let lease ← leasedRequestPayload request
  return .response lease status encoded headers

/-- `_error_payload`. -/
def errorPayload (request : RelayRequest) (message : String) (status : ℤ) :
    Except Raised (CompletionPayload V) := do
  let lease ← leasedRequestPayload request
  return .error lease status message

theorem errorPayload_ok {request : RelayRequest} {message : String} {status : ℤ}
    {p : CompletionPayload V} (h : errorPayload request message status = .ok p) :
    ∃ lease, leasedRequestPayload request = .ok lease ∧ p = .error lease status message := by
  obtain ⟨lease, hlease, hp⟩ := bind_eq_ok h
  cases hp
  exact ⟨lease, hlease, rfl⟩

theorem responsePayload_ok {request : RelayRequest} {body : BodyValue V} {status : ℤ}
    {headers : Option Headers} {p : CompletionPayload V}
    (h : responsePayload request body status headers = .ok p) :
    ∃ lease encoded, leasedRequestPayload request = .ok lease ∧
      p = .response lease status encoded headers := by
  simp only [responsePayload] at h
  obtain ⟨encoded, -, h⟩ := bind_eq_ok h
  obtain ⟨lease, hlease, hp⟩ := bind_eq_ok h
  cases hp
  exact ⟨lease, encoded, hlease, rfl⟩

/-- The items of `_leased_request_payload`, as JSON texts. -/
def Lease.items (lease : Lease) : List (String × String) :=
  [("request_id", dumpsText lease.requestId),
    ("registration_token", dumpsText lease.registrationToken),
    ("lease_id", dumpsText lease.leaseId)]

/-- `json.dumps` of the tagged body. -/
def EncodedBody.dumps (rt : Runtime V) : EncodedBody V → Except Raised String
  | .base64 value =>
      .ok (dumpsDict [("encoding", dumpsText "base64"), ("value", dumpsText value)])
  | .json value =>
      match rt.dumpsValue value with
      | .ok text => .ok (dumpsDict [("encoding", dumpsText "json"), ("value", text)])
      | .error (cls, text) => .error (.builtin cls text)

/-- `json.dumps` of the payload. -/
def CompletionPayload.dumps (rt : Runtime V) :
    CompletionPayload V → Except Raised String
  | .response lease status body headers => do
      let encoded ← body.dumps rt
      let headerItems := match headers with
        | some headers => [("headers", dumpsDict (headers.map fun kv => (kv.1, dumpsText kv.2)))]
        | none => []
      return dumpsDict
        (lease.items ++ [("status", toString status), ("body", encoded)] ++ headerItems)
  | .error lease status message =>
      return dumpsDict
        (lease.items ++ [("status", toString status), ("error", dumpsText message)])

/-- `_decode_relay_json`. -/
def decodeRelayJson (py : Interpreter) (raw : String) (status : ℤ) (headers : Headers) :
    Except Raised Dict :=
  decodeJsonObject py "relay" true raw status headers

/-- The error for an exchange that failed. -/
def requestFailed (exc : Raised) : Raised :=
  .api { message := "relay request failed: " ++ exc.text }

/-- The error for an answer beyond the limit. -/
def answerTooLarge (r : Response) (text : String) : Raised :=
  .api { message := text, statusCode := some r.status, headers := responseHeaders r.headers }

/-- What `RelayWorkerClient._request_json` makes of a reply. Of the exceptions raised while an
error answer is read, only the size error is caught. -/
def syncAnswer (rt : Runtime V) : Reply → Except Raised Dict
  | .error failure =>
      .error (if failure.raised.isOsError then requestFailed failure.raised else failure.raised)
  | .ok r =>
      match readSyncResponse rt.py r maxRelayJsonBytes with
      | .error (.tooLarge text) => .error (answerTooLarge r text)
      | .error exc =>
          .error (if isSuccess r.status && exc.isOsError then requestFailed exc else exc)
      | .ok raw =>
          if isSuccess r.status then
            match rt.py.utf8 raw with
            | some text => decodeRelayJson rt.py text r.status (responseHeaders r.headers)
            | none => .error (.builtin .valueError (rt.undecodable raw))
          else decodeRelayJson rt.py (rt.py.utf8Replace raw) r.status (responseHeaders r.headers)

/-- The `except` clauses of `AsyncRelayWorkerClient._request_json`. -/
def wrapped : Raised → Raised
  | .api e => .api e
  | .base name => .base name
  | exc => requestFailed exc

/-- What `AsyncRelayWorkerClient._request_json` makes of a reply. -/
def asyncAnswer (rt : Runtime V) (reply : Reply) : Except Raised Dict :=
  Except.mapError wrapped <|
    match reply with
    | .error failure => .error failure.raised
    | .ok r =>
        match readAsyncResponse rt.py r maxRelayJsonBytes with
        | .error (.tooLarge text) => .error (answerTooLarge r text)
        | .error exc => .error exc
        | .ok raw =>
            match rt.py.utf8 raw with
            | some text => decodeRelayJson rt.py text r.status (responseHeaders r.headers)
            | none => .error (.builtin .valueError (rt.undecodable raw))

/-- `_completion_receipt`. -/
def completionReceipt (request : RelayRequest) (payload : Dict) : Except Raised Dict :=
  if payload.has "request_id" && !(payload.get "request_id").eqStr request.requestId then
    .error (.api {
      message := "relay completion request_id does not match", body := .dict payload })
  -- Servers before the acceptance boundary did not supply delivery metadata.
  else if (payload.has "committed" || payload.has "delivery_status") &&
      (!(payload.get "ok").isTrue || !(payload.get "committed").isTrue ||
        !(payload.get "request_id").eqStr request.requestId ||
        !((payload.get "delivery_status").eqStr "pending" ||
          (payload.get "delivery_status").eqStr "released")) then
    .error (.api {
      message := "relay returned an invalid durable completion receipt", body := .dict payload })
  else .ok payload

/-- What reading a response of the upstream leads to in `forward_to`. -/
inductive ForwardRead
  | body (body : Bytes) (status : ℤ) (headers : Headers)
  /-- An error completion is committed. -/
  | failed (exc : Raised)
  | raised (exc : Raised)

/-- A relay client: its configuration, and what the sync and the async one do differently. -/
structure RelayClient (V : Type) where
  rt : Runtime V
  forwardTimeout : ℚ
  answer : Reply → Except Raised Dict
  forwardRead : Reply → ForwardRead
  /-- The message of the error completion for an exception. -/
  errorText : Raised → String

/-- What was done for a request so far. -/
structure Trace (V : Type) where
  /-- Calls of the handler or of the upstream. -/
  invocations : ℕ := 0
  /-- The completions that were dispatched. -/
  completions : List (CompletionPayload V) := []

namespace RelayClient
variable (c : RelayClient V) (relay : ℕ → Reply)

/-- `_request_json` for a completion. -/
def requestJson (payload : CompletionPayload V) (t : Trace V) : Trace V × Except Raised Dict :=
  match payload.dumps c.rt with
  | .error exc => (t, .error exc)
  | .ok text =>
      if maxRelayJsonBytes < text.utf8ByteSize then
        (t, .error (.api {
          message := "relay request body exceeds the " ++ toString maxRelayJsonBytes ++
            " byte limit" }))
      else
        ({ t with completions := t.completions ++ [payload] },
          c.answer (relay t.completions.length))

/-- A completion call: build the payload, send it, check the receipt. -/
def complete (request : RelayRequest) (payload : Except Raised (CompletionPayload V))
    (t : Trace V) : Trace V × Except Raised Dict :=
  match payload with
  | .error exc => (t, .error exc)
  | .ok payload =>
      match c.requestJson relay payload t with
      | (t', .ok receipt) => (t', completionReceipt request receipt)
      | (t', .error exc) => (t', .error exc)

/-- `respond_to`. -/
def respondTo (request : RelayRequest) (body : BodyValue V) (status : ℤ)
    (headers : Option Headers) (t : Trace V) : Trace V × Except Raised Dict :=
  c.complete relay request (responsePayload request body status headers) t

/-- `error_request`. -/
def errorRequest (request : RelayRequest) (message : String) (status : ℤ) (t : Trace V) :
    Trace V × Except Raised Dict :=
  c.complete relay request (errorPayload request message status) t

/-- The loop of `commit_response_bytes_to`, with the attempts that are left. -/
def commitLoop (call : Trace V → Trace V × Except Raised Dict) :
    ℕ → Trace V → Trace V × Except Raised Dict
  | 0, t => (t, .error (.builtin .other "unreachable"))
  | attempts + 1, t =>
      match call t with
      | (t', .error (.api exc)) =>
          if !relayErrorIsRetryable exc || attempts = 0 then (t', .error (.api exc))
          else commitLoop call attempts t'
      | result => result

/-- `commit_response_bytes_to`. -/
def commitResponseBytesTo (request : RelayRequest) (body : Bytes) (status : ℤ)
    (headers : Option Headers) (attempts : ℤ) (t : Trace V) : Trace V × Except Raised Dict :=
  commitLoop (c.respondTo relay request (.bytes body) status headers) (max 1 attempts).toNat t

end RelayClient

/-- Why a completion is not dispatched. -/
def unsent (rt : Runtime V) (payload : Except Raised (CompletionPayload V)) : Option Raised :=
  match payload with
  | .error exc => some exc
  | .ok payload =>
      match payload.dumps rt with
      | .error exc => some exc
      | .ok text =>
          if maxRelayJsonBytes < text.utf8ByteSize then
            some (.api {
              message := "relay request body exceeds the " ++ toString maxRelayJsonBytes ++
                " byte limit" })
          else none

namespace RelayClient
variable (c : RelayClient V) (relay : ℕ → Reply)

/-- What a completion call makes of the reply to it. -/
def receipt (request : RelayRequest) (reply : Reply) : Except Raised Dict :=
  c.answer reply >>= completionReceipt request

/-- The reply is a failure after which the loop tries again. -/
def retried (request : RelayRequest) (reply : Reply) : Bool :=
  match c.receipt request reply with
  | .error (.api exc) => relayErrorIsRetryable exc
  | _ => false

/-- A completion call sends nothing and raises, or it sends its payload and ends as the
reply says. -/
theorem complete_cases (request : RelayRequest) (payload : Except Raised (CompletionPayload V))
    (t : Trace V) :
    (∃ exc, unsent c.rt payload = some exc ∧
        c.complete relay request payload t = (t, .error exc)) ∨
      ∃ p, payload = .ok p ∧ unsent c.rt payload = none ∧
        c.complete relay request payload t =
          ({ t with completions := t.completions ++ [p] },
            c.receipt request (relay t.completions.length)) := by
  cases payload with
  | error exc => exact .inl ⟨exc, rfl, rfl⟩
  | ok p =>
      simp only [complete, requestJson, unsent]
      cases hdumps : p.dumps c.rt with
      | error exc => exact .inl ⟨exc, rfl, rfl⟩
      | ok text =>
          simp only
          by_cases hsize : maxRelayJsonBytes < text.utf8ByteSize
          · left
            rw [if_pos hsize, if_pos hsize]
            exact ⟨_, rfl, rfl⟩
          · right
            rw [if_neg hsize, if_neg hsize]
            refine ⟨p, rfl, rfl, ?_⟩
            simp only [receipt]
            cases c.answer (relay t.completions.length) <;> rfl

/-- A completion that cannot be sent fails on every attempt with the same error. -/
theorem commitLoop_unsent {request : RelayRequest}
    {payload : Except Raised (CompletionPayload V)} {exc : Raised}
    (hunsent : unsent c.rt payload = some exc) (attempts : ℕ) (t : Trace V) :
    commitLoop (c.complete relay request payload) (attempts + 1) t = (t, .error exc) := by
  have hcall : c.complete relay request payload t = (t, .error exc) := by
    rcases c.complete_cases relay request payload t with ⟨e, he, hc⟩ | ⟨p, -, hnone, -⟩
    · rw [hunsent] at he
      cases he
      exact hc
    · rw [hunsent] at hnone
      cases hnone
  induction attempts with
  | zero =>
      simp only [commitLoop]
      rw [hcall]
      cases exc <;> simp
  | succ attempts ih =>
      simp only [commitLoop]
      rw [hcall]
      cases exc with
      | api e =>
          simp only
          split
          · rfl
          · exact ih
      | _ => rfl

/-- A completion call with a payload that can be sent. -/
theorem complete_of_sent {request : RelayRequest} {p : CompletionPayload V}
    (hsent : unsent c.rt (.ok p) = none) (t : Trace V) :
    c.complete relay request (.ok p) t =
      ({ t with completions := t.completions ++ [p] },
        c.receipt request (relay t.completions.length)) := by
  rcases c.complete_cases relay request (.ok p) t with ⟨e, he, -⟩ | ⟨q, hq, -, hcomplete⟩
  · rw [hsent] at he
    cases he
  · cases hq
    exact hcomplete

/-- One attempt: the loop goes on after a retried failure, unless it was the last attempt. -/
theorem commitLoop_succ {request : RelayRequest} {p : CompletionPayload V}
    (hsent : unsent c.rt (.ok p) = none) (attempts : ℕ) (t : Trace V) :
    commitLoop (c.complete relay request (.ok p)) (attempts + 1) t =
      if c.retried request (relay t.completions.length) = true ∧ attempts ≠ 0 then
        commitLoop (c.complete relay request (.ok p)) attempts
          { t with completions := t.completions ++ [p] }
      else
        ({ t with completions := t.completions ++ [p] },
          c.receipt request (relay t.completions.length)) := by
  rw [commitLoop, c.complete_of_sent relay hsent]
  unfold retried
  cases c.receipt request (relay t.completions.length) with
  | ok receipt => simp
  | error exc =>
      cases exc with
      | api e =>
          simp only [Bool.or_eq_true, Bool.not_eq_true', decide_eq_true_eq]
          by_cases hretryable : relayErrorIsRetryable e = true
          · by_cases hlast : attempts = 0
            · simp [hlast]
            · simp [hretryable, hlast]
          · simp [hretryable]
      | _ => simp

/-- A completion that can be sent is sent until a reply ends the loop, identical each time. -/
theorem commitLoop_sends {request : RelayRequest} {p : CompletionPayload V}
    (hsent : unsent c.rt (.ok p) = none) (attempts : ℕ) (t : Trace V) :
    ∃ k < attempts + 1,
      (∀ j < k, c.retried request (relay (t.completions.length + j)) = true) ∧
      (c.retried request (relay (t.completions.length + k)) = true → k = attempts) ∧
      commitLoop (c.complete relay request (.ok p)) (attempts + 1) t =
        ({ t with completions := t.completions ++ List.replicate (k + 1) p },
          c.receipt request (relay (t.completions.length + k))) := by
  induction attempts generalizing t with
  | zero =>
      refine ⟨0, Nat.zero_lt_one, fun j hj => absurd hj (Nat.not_lt_zero j), fun _ => rfl, ?_⟩
      rw [c.commitLoop_succ relay hsent, if_neg fun h => h.2 rfl]
      rfl
  | succ attempts ih =>
      rw [c.commitLoop_succ relay hsent]
      by_cases hretried : c.retried request (relay t.completions.length) = true
      · rw [if_pos ⟨hretried, Nat.succ_ne_zero attempts⟩]
        obtain ⟨k, hk, hbefore, hlast, hrun⟩ := ih { t with completions := t.completions ++ [p] }
        simp only [List.length_append, List.length_singleton] at hbefore hlast hrun
        have hindex (j : ℕ) : t.completions.length + 1 + j = t.completions.length + (j + 1) := by
          omega
        refine ⟨k + 1, by omega, ?_, ?_, ?_⟩
        · intro j hj
          cases j with
          | zero => exact hretried
          | succ j =>
              rw [← hindex]
              exact hbefore j (by omega)
        · intro h
          rw [← hindex] at h
          rw [hlast h]
        · rw [hrun, hindex, List.append_assoc]
          rfl
      · rw [if_neg fun h => hretried h.1]
        refine ⟨0, Nat.succ_pos _, fun j hj => absurd hj (Nat.not_lt_zero j), ?_, rfl⟩
        intro h
        exact absurd h hretried

end RelayClient
end UcloudSandboxes.Relay
