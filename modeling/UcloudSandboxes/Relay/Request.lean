import UcloudSandboxes.Http.Response

/-!
# Leased requests and relay errors

The values a relay worker handles: the request the relay leased to it, and the `RelayApiError` that
every call of the relay client raises, with the rules that say whether and when a call that ended in
such an error is tried again.
-/
namespace UcloudSandboxes.Relay
open Python Http

/-- `MAX_RELAY_JSON_BYTES`. -/
def maxRelayJsonBytes : ℕ := 32 * 1024 * 1024

/-- `MAX_RELAY_HTTP_BODY_BYTES`. -/
def maxRelayHttpBodyBytes : ℕ := maxRelayJsonBytes / 2

/-- `RelayRequest`: one request as it was leased. `bodyBytes` is the body as it arrived; `body` is
its JSON value, `None` when it was sent in base64. -/
structure RelayRequest where
  requestId : String
  rolloutId : String
  registrationToken : String
  endpoint : String
  method : String
  headers : Headers
  body : Json
  bodyBytes : Bytes
  createdAt : Option PyFloat := none
  deliveredAt : Option PyFloat := none
  firstDeliveredAt : Option PyFloat := none
  leaseId : String := ""
  leaseExpiresAt : Option PyFloat := none
  leasedBy : Option String := none
  deliveryCount : ℤ := 0
  sandboxId : Option String := none
  sandboxGeneration : Option ℤ := none
  expiresAt : Option PyFloat := none
  idempotencyKey : Option String := none
  reattachable : Bool := false
  acceptedNotifiedAt : Option PyFloat := none
  parkedTransportEpoch : Option String := none
  deriving Repr

/-- `RelayApiError.retryable`. -/
def retryable (exc : ApiError) : Option Bool :=
  match exc.body.asDict with
  | some body =>
      match body.get "retryable" with
      | .bool b => some b
      | _ => none
  | none => none

/-- `_relay_error_is_retryable`. -/
def relayErrorIsRetryable (exc : ApiError) : Bool :=
  match exc.statusCode with
  | some status =>
      if [400, 401, 403, 404, 409, 410, 422].contains status then false
      else (retryable exc).getD ([408, 425, 429, 500, 502, 503, 504].contains status)
  | none => (retryable exc).getD true

/-- `_relay_request_already_completed`. -/
def relayRequestAlreadyCompleted (exc : ApiError) : Bool :=
  exc.statusCode == some 410 &&
    match exc.body.asDict with
    | some body => (body.get "error").eqStr "request is already completed"
    | none => false

/-- `_relay_retry_delay`. The power of two is an `int` that is converted to `float` before it is
multiplied, which fails from `2 ** 1024` on. -/
def relayRetryDelay (py : Interpreter) (exc : ApiError) (consecutiveErrors : ℕ) :
    Except Raised ℚ :=
  match retryAfterSeconds py exc.headers with
  | some delay => .ok delay
  | none =>
      if 1024 ≤ consecutiveErrors - 1 then
        .error (.builtin .overflowError "int too large to convert to float")
      else .ok (min 30 (1 / 4 * 2 ^ (consecutiveErrors - 1)))

end UcloudSandboxes.Relay
