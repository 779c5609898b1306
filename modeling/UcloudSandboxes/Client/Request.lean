import UcloudSandboxes.Client.Retry

/-!
# The request loops of the sandbox client

`open_reusing`, the sync loop of `SandboxClient._request_json_response` and `_request_bytes`, and
`AsyncSandboxClient._send`, run against a schedule: one entry for each attempt, with the clock
readings, the random draw and what the transport does. A schedule that ends leaves the call running,
so a statement about every schedule is a statement about every moment of every call.

Each run returns a trace of its transmissions next to its outcome. A transmission is one request put
on one connection, or the failure to get that connection. What `aiohttp` does inside one
`client.request` is one transmission.

## Main definitions

* `Transmission`: what was sent, when, with which timeout, and how that ended.
* `openReusing`, `syncRequest`, `asyncSend`: the three functions.
-/
namespace UcloudSandboxes.Client
open Python Http

/-- The body of a request: the bytes of one, or a file that is read while it is sent. -/
inductive Content
  | none
  | bytes (body : Bytes)
  | stream (file : Bytes)

/-- The whole body. -/
def Content.whole : Content → Bytes
  | .none => []
  | .bytes body => body
  | .stream file => file

/-- What is sent when the file stands at `position`. -/
def Content.sentFrom (content : Content) (position : ℕ) : Bytes :=
  match content with
  | .none => []
  | .bytes body => body
  | .stream file => file.drop position

/-- What an attempt repeats: the request without the client's base URL. -/
structure HttpRequest where
  method : String
  path : String
  headers : Headers
  content : Content

/-- How a transmission ended. -/
inductive Ending
  /-- No connection was established, so nothing was sent. -/
  | unconnected
  /-- The connection failed while the request was sent or its answer awaited. -/
  | lost
  | answered (r : Response)

/-- Nobody knows what became of the request. -/
def Ending.isLost : Ending → Bool
  | .lost => true
  | _ => false

structure Transmission where
  start : ℚ
  timeout : ℚ
  method : String
  path : String
  headers : Headers
  body : Bytes
  ending : Ending

/-- What happens on a connection. `consumed` counts the bytes that were read from a streamed
body. -/
inductive Exchange
  /-- `conn.request` raises an `OSError`. -/
  | sendFailed (e : OsError) (consumed : ℕ)
  /-- `conn.getresponse` raises, or `conn.request` raises something else. -/
  | failed (exc : Raised) (consumed : ℕ)
  | answered (r : Response) (consumed : ℕ)

/-- What `open_reusing` finds. -/
inductive Link
  /-- A new connection cannot be established. -/
  | refused (e : OsError)
  | fresh (exchange : Exchange)
  /-- An idle connection of the pool. -/
  | reused (exchange : Exchange)

/-- What happens on the connection, if there is one. -/
def Link.exchange : Link → Option Exchange
  | .refused _ => none
  | .fresh exchange | .reused exchange => some exchange

/-- One pass through `open_reusing`, and the clock when it starts. -/
structure Wire where
  start : ℚ
  link : Link

namespace Exchange

def consumed : Exchange → ℕ
  | .sendFailed _ n | .failed _ n | .answered _ n => n

def ending : Exchange → Ending
  | .answered r _ => .answered r
  | _ => .lost

/-- What `open_reusing` returns or raises; an `HTTPError` is a returned answer here, which the
caller tells by its status. -/
def result : Exchange → Except Raised Response
  | .sendFailed e _ => .error (.url e)
  | .failed exc _ => .error exc
  | .answered r _ => .ok r

/-- `except (RemoteDisconnected, ConnectionResetError, BrokenPipeError, URLError)`. -/
def dropped : Exchange → Bool
  | .sendFailed _ _ => true
  | .failed (.os e) _ => e.kind == .reset
  | .failed (.url _) _ => true
  | _ => false

end Exchange

/-- `method in {"GET", "HEAD"}`. -/
def resendable (method : String) : Bool := ["GET", "HEAD"].contains method

/-- `open_reusing`. The result is `none` while the schedule has no more to say. -/
def openReusing (req : HttpRequest) (timeout : ℚ) :
    ℕ → List Wire → Option (Except Raised Response) × List Transmission
  | _, [] => (none, [])
  | position, w :: ws =>
      let sent (ending : Ending) : Transmission :=
        { start := w.start, timeout, method := req.method, path := req.path, headers := req.headers
          body := req.content.sentFrom position, ending }
      match w.link with
      | .refused e => (some (.error (.url e)), [sent .unconnected])
      | .fresh exchange => (some exchange.result, [sent exchange.ending])
      | .reused exchange =>
          -- Only a read-only request may safely be sent again.
          if exchange.dropped && resendable req.method then
            let again := openReusing req timeout (position + exchange.consumed) ws
            (again.1, sent exchange.ending :: again.2)
          else (some exchange.result, [sent exchange.ending])

/-- One attempt of a loop: the clock before it, the passes through `open_reusing`, the clock when
the next sleep is considered, and the random draw for it. -/
structure Attempt (ω : Type) where
  now : ℚ
  wire : ω
  later : ℚ
  jitter : ℚ

/-- How a call stands when its schedule ends. -/
inductive Outcome (α : Type)
  | running
  | returned (v : α)
  | raised (exc : Raised)
  /-- The `AssertionError` behind the loop. -/
  | unreachable

/-- What one attempt leads to. -/
inductive Next (α : Type)
  | again
  | stop (outcome : Outcome α)

/-- `_remaining_seconds`. -/
def remainingSeconds (deadline : Option ℚ) (now : ℚ) : Option ℚ :=
  deadline.map fun d => max 0 (d - now)

/-- `_required_remaining_seconds`. -/
def requiredRemainingSeconds (deadline : Option ℚ) (now : ℚ) : Except Raised (Option ℚ) :=
  match remainingSeconds deadline now with
  | some remaining =>
      if remaining ≤ 0 then
        .error (.os {
          kind := .timeout, text := "node-agent request deadline expired", name := "TimeoutError" })
      else .ok (some remaining)
  | none => .ok none

/-- `_request_timeout_seconds`. -/
def requestTimeoutSeconds (remaining : Option ℚ) (timeout : ℚ) : ℚ :=
  match remaining with
  | none => max (1 / 1000) timeout
  | some remaining => max (1 / 1000) (min (max (1 / 1000) timeout) remaining)

/-- `_sleep_for_retry`: whether there is time for the delay. -/
def sleepForRetry (delay : ℚ) (deadline : Option ℚ) (now : ℚ) : Bool :=
  match remainingSeconds deadline now with
  | some remaining => decide (delay < remaining)
  | none => true

/-- What the loops know of a call. `deadline` and `maxAttempts` are computed before the first
attempt. -/
structure Call where
  req : HttpRequest
  timeout : ℚ
  deadline : Option ℚ

def Call.maxAttempts (call : Call) : Option ℕ :=
  ucloudUnavailableAttempts call.req.method call.req.path

/-- `for attempt in _retry_attempt_numbers(..)`, over any kind of attempt. -/
def attemptLoop {ω α : Type} (maxAttempts : Option ℕ)
    (body : ℕ → Attempt ω → Next α × List Transmission) :
    ℕ → List (Attempt ω) → Outcome α × List Transmission
  | attempt, [] => if exhausted attempt then (.unreachable, []) else (.running, [])
  | attempt, a :: rest =>
      if exhausted attempt then (.unreachable, [])
      else match body attempt a with
        | (.stop outcome, sent) => (outcome, sent)
        | (.again, sent) =>
            let later := attemptLoop maxAttempts body (attempt + 1) rest
            (later.1, sent ++ later.2)
where
  exhausted (attempt : ℕ) : Bool := maxAttempts.any fun most => decide (most ≤ attempt)

section Answers
variable {ω α : Type} (py : Interpreter) (call : Call) (attempt : ℕ) (a : Attempt ω)

/-- What follows an answer that is no success. -/
def afterError (e : Except Raised ApiError) : Next α :=
  match e with
  | .error exc => .stop (.raised exc)
  | .ok e =>
      match retryError py e attempt call.req.method call.req.path call.maxAttempts a.jitter with
      | .error exc => .stop (.raised exc)
      | .ok none => .stop (.raised (.api e))
      | .ok (some delay) =>
          if sleepForRetry delay call.deadline a.later then .again
          else .stop (.raised (.api (retryBudgetExhausted e (attempt + 1))))

/-- What follows a failure to connect. -/
def afterConnectFailure (cause : OsError) : Next α :=
  match connectionRetryDelay attempt call.maxAttempts with
  | some delay =>
      if sleepForRetry delay call.deadline a.later then .again
      else .stop (.raised (.api (connectionError cause (attempt + 1))))
  | none => .stop (.raised (.api (connectionError cause (attempt + 1))))

/-- The `except` clauses of the sync loops for everything but an `HTTPError`. -/
def afterRaised (exc : Raised) : Next α :=
  match exc with
  | .tooLarge text => .stop (.raised (.api { message := text }))
  | .url cause =>
      if syncConnectFailure exc then afterConnectFailure call attempt a cause
      else .stop (.raised (.api { message := "node-agent request failed: " ++ exc.text }))
  | .os _ => .stop (.raised (.api { message := "node-agent request failed: " ++ exc.text }))
  | exc => .stop (.raised exc)

end Answers

/-- What tells the two sync loops apart: how they read a success, and whether the check of the
deadline stands inside the `try`. -/
structure Reader (α : Type) where
  read : Interpreter → Response → Except Raised α
  checksInside : Bool

/-- One attempt of a sync loop. -/
def syncAttempt {α : Type} (py : Interpreter) (reader : Reader α) (call : Call) (attempt : ℕ)
    (a : Attempt (List Wire)) : Next α × List Transmission :=
  match requiredRemainingSeconds call.deadline a.now with
  | .error exc =>
      (if reader.checksInside then afterRaised call attempt a exc else .stop (.raised exc), [])
  | .ok remaining =>
      -- A streamed body is rewound before every attempt.
      let opened := openReusing call.req (requestTimeoutSeconds remaining call.timeout) 0 a.wire
      match opened.1 with
      | none => (.stop .running, opened.2)
      | some (.error exc) => (afterRaised call attempt a exc, opened.2)
      | some (.ok r) =>
          if isSuccess r.status then
            match reader.read py r with
            | .ok v => (.stop (.returned v), opened.2)
            | .error exc => (afterRaised call attempt a exc, opened.2)
          else (afterError py call attempt a (syncNodeError py r), opened.2)

/-- The loop of both sync requests. -/
def syncRequest {α : Type} (py : Interpreter) (reader : Reader α) (call : Call)
    (schedule : List (Attempt (List Wire))) : Outcome α × List Transmission :=
  attemptLoop call.maxAttempts (syncAttempt py reader call) 0 schedule

/-- How `_request_json_response` reads a success. -/
def jsonReader : Reader (Dict × Headers) where
  read py r := do
    let raw ← readSyncResponse py r maxJsonResponseBytes
    match py.utf8 raw with
    | none => .error (.builtin .valueError "'utf-8' codec can't decode")
    | some text =>
        let answer ← decodeNodeJson py text r.status (responseHeaders r.headers)
        return (answer, responseHeaders r.headers)
  checksInside := false

/-- How `_request_bytes` reads a success. -/
def bytesReader : Reader Bytes where
  read py r := readSyncResponse py r maxFileResponseBytes
  checksInside := true

/-- `SandboxClient._request_json_response`. -/
def requestJsonResponse (py : Interpreter) (call : Call)
    (schedule : List (Attempt (List Wire))) : Outcome (Dict × Headers) × List Transmission :=
  syncRequest py jsonReader call schedule

/-- `SandboxClient._request_bytes`. -/
def requestBytes (py : Interpreter) (call : Call) (schedule : List (Attempt (List Wire))) :
    Outcome Bytes × List Transmission :=
  syncRequest py bytesReader call schedule

/-- What `client.request` of `aiohttp` does. -/
inductive AsyncWire
  /-- `ClientConnectorError`; `certificate` for its certificate and TLS subclasses. -/
  | unconnected (start : ℚ) (certificate : Bool) (e : OsError)
  /-- Any other exception, while the request is sent or its answer awaited. -/
  | lost (start : ℚ) (exc : Raised)
  | answered (start : ℚ) (r : Response)

/-- What reading an answer in `_send` yields, up to the retry decision. -/
def asyncRead (py : Interpreter) (successLimit : ℕ) (r : Response) :
    Except Raised (Bytes × ℤ × Headers) :=
  match readAsyncResponse py r successLimit with
  | .ok raw => .ok (raw, r.status, responseHeaders r.headers)
  | .error (.tooLarge text) =>
      .error (.api {
        message := text, statusCode := some r.status, headers := responseHeaders r.headers })
  | .error exc => .error exc

/-- One attempt of `_send`. -/
def asyncAttempt (py : Interpreter) (successLimit : ℕ) (call : Call) (attempt : ℕ)
    (a : Attempt AsyncWire) : Next (Bytes × ℤ × Headers) × List Transmission :=
  match requiredRemainingSeconds call.deadline a.now with
  | .error exc => (.stop (.raised exc), [])
  | .ok remaining =>
      let sent (start : ℚ) (ending : Ending) : Transmission :=
        { start, timeout := requestTimeoutSeconds remaining call.timeout, method := call.req.method
          path := call.req.path, headers := call.req.headers, body := call.req.content.sentFrom 0
          ending }
      match a.wire with
      | .unconnected start certificate e =>
          (if certificate then .stop (.raised (.os e)) else afterConnectFailure call attempt a e,
            [sent start .unconnected])
      | .lost start exc => (.stop (.raised exc), [sent start .lost])
      | .answered start r =>
          (if isSuccess r.status then
            match asyncRead py successLimit r with
            | .ok v => .stop (.returned v)
            | .error exc => .stop (.raised exc)
          else afterError py call attempt a (asyncNodeError py r), [sent start (.answered r)])

/-- `AsyncSandboxClient._send`. -/
def asyncSend (py : Interpreter) (successLimit : ℕ) (call : Call)
    (schedule : List (Attempt AsyncWire)) : Outcome (Bytes × ℤ × Headers) × List Transmission :=
  attemptLoop call.maxAttempts (asyncAttempt py successLimit call) 0 schedule

/-- What `AsyncSandboxClient._request_json_response` makes of the end of `_send`. -/
def asyncDecoded (py : Interpreter) : Outcome (Bytes × ℤ × Headers) → Outcome (Dict × Headers)
  | .returned (raw, status, headers) =>
      match decodeNodeJson py (py.utf8Replace raw) status headers with
      | .ok answer => .returned (answer, headers)
      | .error exc => .raised exc
  | .running => .running
  | .raised exc => .raised exc
  | .unreachable => .unreachable

/-- `AsyncSandboxClient._request_json_response`. -/
def asyncRequestJsonResponse (py : Interpreter) (call : Call) (schedule : List (Attempt AsyncWire)) :
    Outcome (Dict × Headers) × List Transmission :=
  let sent := asyncSend py maxJsonResponseBytes call schedule
  (asyncDecoded py sent.1, sent.2)

end UcloudSandboxes.Client
