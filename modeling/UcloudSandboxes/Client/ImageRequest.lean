import UcloudSandboxes.Client.Images
import UcloudSandboxes.Parity

/-!
# One request for images over both transports

`wait_for_images` goes on after a transient error, and what is transient is decided on an exception
that the request loops raise two layers below. Here both clients run on the same network: at every
attempt an answer comes, the connection is refused, or it fails.

## Main definitions

* `Exchanged`: what the network does with one attempt, and what either client sees of it.
* `EnsureRequest`: one request of a poll, with everything that happens to it.
* `SameResult`: both clients go on with the same statuses, both go on without, or both raise.
-/
namespace UcloudSandboxes.Client
open Python Http

/-! ## What the network does -/

/-- The body as a connection can deliver it: in pieces that are not empty, and all of it if it ends
well. -/
structure Framed (b : Body) : Prop where
  chunks : ∀ chunk ∈ b.chunks, chunk ≠ []
  length : ∀ n, b.length = some n → b.delivered.length ≤ n
  complete : b.ending = .complete → ∀ n, b.length = some n → n = b.delivered.length

/-- How a connection fails while an answer is awaited. -/
inductive Loss
  | disconnected
  | reset
  | timedOut
  deriving DecidableEq

/-- What `http.client` raises: `RemoteDisconnected`, `ConnectionResetError` or `TimeoutError`. -/
def Loss.syncError : Loss → OsError
  | .disconnected => {
      kind := .reset, name := "RemoteDisconnected"
      text := "Remote end closed connection without response" }
  | .reset => {
      kind := .reset, errno := some 104, name := "ConnectionResetError"
      text := "[Errno 104] Connection reset by peer" }
  | .timedOut => { kind := .timeout, name := "TimeoutError", text := "timed out" }

/-- What `aiohttp` raises: `ServerDisconnectedError`, which is no `OSError`, `ClientOSError` or
`SocketTimeoutError`. -/
def Loss.asyncError : Loss → Raised
  | .disconnected => .builtin .other "Server disconnected"
  | .reset => .os {
      kind := .reset, errno := some 104, name := "ClientOSError"
      text := "[Errno 104] Connection reset by peer" }
  | .timedOut => .os {
      kind := .timeout, name := "SocketTimeoutError"
      text := "Timeout on reading data from socket" }

/-- What the network does with one attempt. -/
inductive Exchanged
  | answered (x : Delivery) (framed : Framed x.response.body)
  /-- No connection can be established, for an `errno` that says so. Timeouts while connecting and
  names that do not resolve are left out. -/
  | refused (start : ℚ) (e : OsError) (connect : connectErrno e = true)
  /-- A new connection, or one that the sync client had kept, fails before the answer begins. -/
  | lost (start : ℚ) (reused : Bool) (loss : Loss)

/-- The passes through `open_reusing`. -/
def Exchanged.wires : Exchanged → List Wire
  | .answered x _ => x.wires
  | .refused start e _ => [⟨start, .refused e⟩]
  | .lost start reused loss =>
      [⟨start, if reused then .reused (.failed (.os loss.syncError) 0)
        else .fresh (.failed (.os loss.syncError) 0)⟩]

/-- What `client.request` does. -/
def Exchanged.asyncWire : Exchanged → AsyncWire
  | .answered x _ => x.asyncWire
  | .refused start e _ => .unconnected start false e
  | .lost start _ loss => .lost start loss.asyncError

/-! ## Requests and their causes -/

/-- The attempt with which a loop stops. -/
def lastAttempt {ω α : Type} (maxAttempts : Option ℕ)
    (body : ℕ → Attempt ω → Next α × List Transmission) : ℕ → List (Attempt ω) → Option (Attempt ω)
  | _, [] => none
  | attempt, a :: rest =>
      if attemptLoop.exhausted maxAttempts attempt then none
      else match (body attempt a).1 with
        | .stop _ => some a
        | .again => lastAttempt maxAttempts body (attempt + 1) rest

section
variable (py : Interpreter) (call : Call)

/-- Whether the `SandboxApiError` with which the sync loop stops has an `OSError` as its cause. -/
def syncCause (a : Attempt (List Wire)) : Bool :=
  match requiredRemainingSeconds call.deadline a.now with
  | .error _ => false
  | .ok remaining =>
      match (openReusing call.req (requestTimeoutSeconds remaining call.timeout) 0 a.wire).1 with
      | none => false
      | some (.error exc) => exc.isOsError
      | some (.ok r) =>
          if isSuccess r.status then
            match jsonReader.read py r with
            | .ok _ => false
            | .error exc => exc.isOsError
          else
            -- The cause is the `HTTPError` or the `ResponseTooLargeError` of its body.
            match syncNodeError py r with
            | .ok _ => true
            | .error _ => false

/-- Whether the `SandboxApiError` with which `_send` stops has an `OSError` as its cause. -/
def asyncCause (a : Attempt AsyncWire) : Bool :=
  match a.wire with
  | .unconnected _ certificate _ => !certificate
  | _ => false

end

/-- What a call returns or raises. -/
def concluded (osCause : Bool) : Outcome (Dict × Headers) → Except CallError Dict
  | .returned v => .ok v.1
  | .raised exc => .error { raised := exc, osCause }
  | .running | .unreachable =>
      .error { raised := .builtin .other "unreachable UCloud unavailable retry state" }

/-- `POST /v1/images/ensure`. -/
def ensureHttpRequest (headers : Headers) (body : Bytes) : HttpRequest where
  method := "POST"
  path := "/v1/images/ensure"
  headers := headers
  content := .bytes body

/-- One request of a poll, and what happens at each of its attempts. -/
structure EnsureRequest where
  headers : Headers
  body : Bytes
  timeout : ℚ
  deadline : Option ℚ
  attempts : ℕ → Attempt Exchanged

namespace EnsureRequest
variable (py : Interpreter) (q : EnsureRequest)

def call : Call where
  req := ensureHttpRequest q.headers q.body
  timeout := q.timeout
  deadline := q.deadline

/-- As many attempts as the loops may make. -/
def schedule : List (Attempt Exchanged) :=
  (List.range ucloudUnavailableRetryAttempts).map q.attempts

/-- `SandboxClient._request_json`, from an attempt on. -/
def syncFrom (attempt : ℕ) (schedule : List (Attempt Exchanged)) : Except CallError Dict :=
  let schedule := schedule.map (Attempt.on Exchanged.wires)
  let body := syncAttempt py jsonReader q.call
  concluded ((lastAttempt q.call.maxAttempts body attempt schedule).any (syncCause py q.call))
    (attemptLoop q.call.maxAttempts body attempt schedule).1

def syncResult : Except CallError Dict := q.syncFrom py 0 q.schedule

/-- `AsyncSandboxClient._request_json`, from an attempt on. -/
def asyncFrom (attempt : ℕ) (schedule : List (Attempt Exchanged)) : Except CallError Dict :=
  let schedule := schedule.map (Attempt.on Exchanged.asyncWire)
  let body := asyncAttempt py maxJsonResponseBytes q.call
  concluded ((lastAttempt q.call.maxAttempts body attempt schedule).any asyncCause)
    (asyncDecoded py (attemptLoop q.call.maxAttempts body attempt schedule).1)

def asyncResult : Except CallError Dict := q.asyncFrom py 0 q.schedule

/-- The attempts that the sync client makes. -/
def madeFrom (attempt : ℕ) (schedule : List (Attempt Exchanged)) : List (Attempt Exchanged) :=
  attemptsMade q.call.maxAttempts
    (fun n a => syncAttempt py jsonReader q.call n (a.on Exchanged.wires)) attempt schedule

def made : List (Attempt Exchanged) := q.madeFrom py 0 q.schedule

/-- The results are those of the two request loops. -/
theorem results_of_requests :
    q.syncResult py = concluded
      ((lastAttempt q.call.maxAttempts (syncAttempt py jsonReader q.call) 0
        (q.schedule.map (Attempt.on Exchanged.wires))).any (syncCause py q.call))
      (requestJsonResponse py q.call (q.schedule.map (Attempt.on Exchanged.wires))).1 ∧
    q.asyncResult py = concluded
      ((lastAttempt q.call.maxAttempts (asyncAttempt py maxJsonResponseBytes q.call) 0
        (q.schedule.map (Attempt.on Exchanged.asyncWire))).any asyncCause)
      (asyncRequestJsonResponse py q.call (q.schedule.map (Attempt.on Exchanged.asyncWire))).1 :=
  ⟨rfl, rfl⟩

end EnsureRequest

/-! ## One request in both clients -/

/-- Both go on with the same statuses, or both go on without, or both raise. -/
def SameResult {α : Type} : Except CallError α → Except CallError α → Prop
  | .ok d, .ok d' => d = d'
  | .error e, .error e' => e.transient = e'.transient
  | _, _ => False

/-- The connection fails before the answer is there. -/
def Exchanged.Lost (py : Interpreter) : Exchanged → Prop
  | .answered x _ =>
      x.response.body.ending ≠ .complete ∧ WithinLimit py x.response maxJsonResponseBytes
  | .refused .. => False
  | .lost .. => True

/-- The answer is a success whose bytes are no UTF-8, and an object once they are replaced. -/
def Exchanged.Garbled (py : Interpreter) : Exchanged → Prop
  | .answered x _ =>
      isSuccess x.response.status = true ∧ x.response.body.ending = .complete ∧
        WithinLimit py x.response maxJsonResponseBytes ∧
        py.utf8 x.response.body.delivered = none ∧
        ∃ d, decodeNodeJson py (py.utf8Replace x.response.body.delivered) x.response.status
          (responseHeaders x.response.headers) = .ok d
  | _ => False

end UcloudSandboxes.Client
