import UcloudSandboxes.Http.Decode
import Mathlib.Data.List.Infix

/-!
# What the sandbox client retries

The decisions behind `SandboxClient._request_json_response`, `SandboxClient._request_bytes` and
`AsyncSandboxClient._send`: how an answer that is no success becomes a `SandboxApiError`, which
errors and connection failures are followed by another attempt, and after which delay.

HTTP methods are ASCII tokens, so `str.upper` is `String.toUpper`.
-/
namespace UcloudSandboxes.Client
open Python Http

/-- `MAX_JSON_RESPONSE_BYTES`. -/
def maxJsonResponseBytes : ℕ := 16 * 1024 * 1024

/-- `MAX_FILE_RESPONSE_BYTES`. -/
def maxFileResponseBytes : ℕ := 256 * 1024 * 1024

/-- `SANDBOX_GROUP_PATH`. -/
def sandboxGroupPath : String := "/v1/sandboxes:batch"

/-- `UCLOUD_UNAVAILABLE_RETRY_ATTEMPTS`. -/
def ucloudUnavailableRetryAttempts : ℕ := 6

/-- `_decode_node_json`. -/
def decodeNodeJson (py : Interpreter) (raw : String) (status : ℤ) (headers : Headers) :
    Except Raised Dict :=
  decodeJsonObject py "node-agent" false raw status headers

/-- `_node_error`. -/
def nodeError (py : Interpreter) (raw : String) (status : ℤ) (headers : Headers) :
    Except Raised ApiError :=
  match decodeNodeJson py raw status headers with
  | .error (.api e) => .ok e
  | .error exc => .error exc
  | .ok _ => .error (.builtin .other "HTTP error decoded as success")

/-- `_sync_node_error`. -/
def syncNodeError (py : Interpreter) (r : Response) : Except Raised ApiError :=
  match readSyncResponse py r maxJsonResponseBytes with
  | .ok raw => nodeError py (py.utf8Replace raw) r.status (responseHeaders r.headers)
  | .error (.tooLarge text) =>
      .error (.api {
        message := text, statusCode := some r.status, headers := responseHeaders r.headers })
  | .error exc => .error exc

/-- The error that `_send` makes of an answer that is no success. -/
def asyncNodeError (py : Interpreter) (r : Response) : Except Raised ApiError :=
  match readAsyncResponse py r maxJsonResponseBytes with
  | .ok raw => nodeError py (py.utf8Replace raw) r.status (responseHeaders r.headers)
  | .error (.tooLarge text) =>
      .error (.api {
        message := text, statusCode := some r.status, headers := responseHeaders r.headers })
  | .error exc => .error exc

/-- `exc.errno in {ECONNREFUSED, ENETUNREACH, EHOSTUNREACH}` or a `gaierror`. -/
def connectErrno (e : OsError) : Bool :=
  e.kind == .gaierror || [some 111, some 101, some 113].contains e.errno

/-- `_sync_connect_failure`. -/
def syncConnectFailure : Raised → Bool
  | .url reason => connectErrno reason
  | _ => false

/-- `_connection_retry_delay`. -/
def connectionRetryDelay (attempt : ℕ) (maxAttempts : Option ℕ) : Option ℚ :=
  let most := match maxAttempts with
    | some (n + 1) => n + 1
    | _ => 5
  if min most 5 ≤ attempt + 1 then none else some (min 2 (1 / 4 * 2 ^ attempt))

/-- `_connection_error`. -/
def connectionError (cause : OsError) (attempts : ℕ) : ApiError where
  message :=
    "node-agent connection failed after " ++ toString attempts ++ " attempts: " ++ cause.name ++
      ": " ++ cause.text ++ " (errno=" ++ (cause.errno.elim "None" toString) ++ ")"
  body := .dict [("error_code", .str "client_connection_failed"), ("attempts", .int attempts)]

/-- `status_code in {408, 425, 429, 500, 502, 503, 504}`. -/
def transientStatus (status : ℤ) : Bool := [408, 425, 429, 500, 502, 503, 504].contains status

/-- `body["retryable"] is True` of an answer with a transient status. -/
def retryableAnswer (status : ℤ) (body : Json) : Bool :=
  transientStatus status &&
    match body.asDict with
    | some fields => (fields.get "retryable").isTrue
    | none => false

/-- `body.get("error_code") if isinstance(body, dict) else None`. -/
def errorCode (body : Json) : Json :=
  match body.asDict with
  | some fields => fields.get "error_code"
  | none => .null

/-- The error codes that fence every request before it is dispatched. -/
def preDispatchErrorCodes : List String :=
  ["http_request_capacity_exhausted", "snapshot_publication_pending", "node_active_exec_deferred",
    "node_restore_busy", "node_startup_busy", "gateway_startup_busy",
    "wake_destination_unavailable", "migration_destination_unavailable"]

/-- `IMAGE_RESOLUTION_PRE_DISPATCH_PATHS`. -/
def imageResolutionPreDispatchPaths : List String := ["/v1/capacity/prepare", "/v1/images/pull"]

/-- `IMAGE_RESOLUTION_PRE_DISPATCH_ERROR_CODES`. -/
def imageResolutionPreDispatchErrorCodes : List String :=
  ["image_inventory_incomplete", "managed_registry_digest_protection_unavailable"]

/-- The error codes that fence an image build before it is admitted. -/
def builderAdmissionErrorCodes : List String :=
  ["builder_not_ready", "builder_busy", "node_admission_closed"]

/-- `path.startswith(start)`. -/
def startsWith (path start : String) : Bool := start.toList.isPrefixOf path.toList

/-- A path of the form `/v1/sandboxes/<id>`, with or without a query. -/
def isSandboxPath (path : String) : Bool :=
  startsWith path "/v1/sandboxes/" &&
    !((path.toList.drop "/v1/sandboxes/".length).takeWhile (· != '?')).contains '/'

/-- `delete_drain`. -/
def deleteDrain (method path : String) (body : Json) : Bool :=
  method == "DELETE" && isSandboxPath path &&
    (errorCode body).eqStr "memory_publication_draining"

/-- `group_delete`. -/
def groupDelete (method path : String) : Bool :=
  method == "DELETE" && startsWith path (sandboxGroupPath ++ "/")

/-- `image_resolution_fence`. -/
def imageResolutionFence (method path : String) (body : Json) : Except Raised Bool :=
  if method == "POST" && imageResolutionPreDispatchPaths.contains path then
    (errorCode body).memberOf imageResolutionPreDispatchErrorCodes
  else .ok false

/-- `builder_admission_fence`. -/
def builderAdmissionFence (method path : String) (body : Json) : Except Raised Bool :=
  if method == "POST" && path == "/v1/images/build" then
    (errorCode body).memberOf builderAdmissionErrorCodes
  else .ok false

/-- `pre_dispatch_fence`, for the upper-case method. -/
def preDispatchFence (status : ℤ) (body : Json) (method path : String) : Except Raised Bool := do
  let imageResolution ← imageResolutionFence method path body
  let builderAdmission ← builderAdmissionFence method path body
  if retryableAnswer status body then
    let general ← (errorCode body).memberOf preDispatchErrorCodes
    return general || imageResolution || builderAdmission || deleteDrain method path body ||
      groupDelete method path
  else return false

/-- `_ucloud_unavailable_error_text`. -/
def ucloudUnavailableErrorText : Json → String
  | .str text => text
  | .dict fields =>
      "\n".intercalate
        ((["error", "message", "detail", "upstream_body_preview"].map (Dict.get fields)).filterMap
          fun
          | .str text => some text
          | _ => none)
  | _ => ""

/-- `needle in text.lower()`, for a needle in ASCII. -/
def mentions (text needle : String) : Bool := decide (needle.toList <:+: text.toLower.toList)

/-- `method in {"GET", "HEAD", "OPTIONS"}`. -/
def readOnly (method : String) : Bool := ["GET", "HEAD", "OPTIONS"].contains method

/-- The create request whose id is chosen by the caller. -/
def stableCreate (method path : String) : Bool := method == "POST" && path == "/v1/sandboxes"

/-- `attempt_limit`. -/
def attemptLimit (fence : Bool) (method path : String) (maxAttempts : Option ℕ) : Option ℕ :=
  if fence || stableCreate method path then maxAttempts
  else match maxAttempts with
    | some (n + 1) => some (min (n + 1) ucloudUnavailableRetryAttempts)
    | _ => some ucloudUnavailableRetryAttempts

/-- The answers that are retried while the attempt limit allows it. -/
def retriesAnswer (fence : Bool) (status : ℤ) (body : Json) (method path : String) : Bool :=
  if fence then true
  else if retryableAnswer status body && (readOnly method || stableCreate method path) then true
  else if status != 503 then false
  else if !(readOnly method || stableCreate method path) then false
  else mentions (ucloudUnavailableErrorText body) "job is unavailable" &&
    mentions (ucloudUnavailableErrorText body) "ucloud"

/-- `_should_retry_ucloud_unavailable`. -/
def shouldRetryUcloudUnavailable (status : ℤ) (body : Json) (attempt : ℕ) (method path : String)
    (maxAttempts : Option ℕ) : Except Raised Bool := do
  let method := method.toUpper
  if method == "POST" && path == sandboxGroupPath then return false
  let fence ← preDispatchFence status body method path
  if (attemptLimit fence method path maxAttempts).any fun limit => decide (limit ≤ attempt + 1) then
    return false
  return retriesAnswer fence status body method path

/-- `_ucloud_unavailable_retry_attempts`. -/
def ucloudUnavailableAttempts (method path : String) : Option ℕ :=
  if method.toUpper == "POST" && path == "/v1/images/build" then none
  else if method.toUpper == "POST" && (path == "/v1/sandboxes" || path == sandboxGroupPath) then
    none
  else if startsWith path "/v1/sandboxes/" || startsWith path "/v1/exec/" then none
  else some ucloudUnavailableRetryAttempts

/-- `_ucloud_unavailable_retry_delay`. `jitter` is the `random.random()` of this call. -/
def ucloudUnavailableRetryDelay (py : Interpreter) (attempt : ℕ) (headers : Headers)
    (method path : String) (jitter : ℚ) : ℚ :=
  let maxDelay := if stableCreate method.toUpper path then 30 else 4
  match retryAfterSeconds py headers with
  | some retryAfter => min 60 (retryAfter * (1 + jitter * (1 / 4)))
  | none => min maxDelay (1 / 4 * 2 ^ min attempt 16)

/-- `_retry_error`: the delay before the next attempt, if there is one. -/
def retryError (py : Interpreter) (e : ApiError) (attempt : ℕ) (method path : String)
    (maxAttempts : Option ℕ) (jitter : ℚ) : Except Raised (Option ℚ) := do
  match e.statusCode with
  | none => return none
  | some status =>
      if ← shouldRetryUcloudUnavailable status e.body attempt method path maxAttempts then
        return some (ucloudUnavailableRetryDelay py attempt e.headers method path jitter)
      else return none

/-- `_retry_budget_exhausted`. -/
def retryBudgetExhausted (e : ApiError) (attempts : ℕ) : ApiError :=
  { e with
    kind := .plain
    message := e.message ++ "; retry budget exhausted after " ++ toString attempts ++
      " HTTP attempt(s): insufficient time remaining for the next retry" }

/-- The retry rule looks the `error_code` of the body up in a set. -/
def looksUpCode (method path : String) (status : ℤ) (body : Json) : Bool :=
  !(method == "POST" && path == sandboxGroupPath) &&
    ((method == "POST" && imageResolutionPreDispatchPaths.contains path) ||
      (method == "POST" && path == "/v1/images/build") || retryableAnswer status body)

/-- A value that no set can be asked about. -/
def unhashable : Json → Bool
  | .list _ | .dict _ => true
  | _ => false

theorem loadsRaises_node (py : Interpreter) (text : String) (status : ℤ) (headers : Headers) :
    LoadsRaises py text ↔
      ∃ cls message, decodeNodeJson py text status headers = .error (.builtin cls message) :=
  loadsRaises_iff

theorem memberOf_hashable {v : Json} (h : unhashable v = false) (texts : List String) :
    ∃ b, v.memberOf texts = .ok b := by
  cases v with
  | list items => cases h
  | dict items => cases h
  | _ => exact ⟨_, rfl⟩

theorem memberOf_unhashable {v : Json} (h : unhashable v = true) (texts : List String) :
    ∃ cls text, v.memberOf texts = .error (.builtin cls text) := by
  cases v with
  | list items => exact ⟨_, _, rfl⟩
  | dict items => exact ⟨_, _, rfl⟩
  | _ => cases h

/-- The retry rule decides, unless it looks up an `error_code` that no set can be asked about. -/
theorem shouldRetry_ok {status : ℤ} {body : Json} {method path : String}
    (h : ¬ (looksUpCode method.toUpper path status body = true ∧
      unhashable (errorCode body) = true)) (attempt : ℕ) (maxAttempts : Option ℕ) :
    ∃ b, shouldRetryUcloudUnavailable status body attempt method path maxAttempts = .ok b := by
  by_cases hgroup : (method.toUpper == "POST" && path == sandboxGroupPath) = true
  · exact ⟨false, by simp [shouldRetryUcloudUnavailable, hgroup, pure, Except.pure]⟩
  have hfence : ∃ fence, preDispatchFence status body method.toUpper path = .ok fence := by
    cases hcode : unhashable (errorCode body) with
    | false =>
        obtain ⟨image, himage⟩ := memberOf_hashable hcode imageResolutionPreDispatchErrorCodes
        obtain ⟨builder, hbuilder⟩ := memberOf_hashable hcode builderAdmissionErrorCodes
        obtain ⟨general, hgeneral⟩ := memberOf_hashable hcode preDispatchErrorCodes
        simp only [preDispatchFence, imageResolutionFence, builderAdmissionFence, himage, hbuilder,
          hgeneral, bind, Except.bind, pure, Except.pure]
        grind
    | true =>
        have hlooks : looksUpCode method.toUpper path status body = false := by simpa [hcode] using h
        simp only [looksUpCode, hgroup, Bool.not_false, Bool.true_and, Bool.or_eq_false_iff]
          at hlooks
        obtain ⟨⟨himage, hbuilder⟩, hretryable⟩ := hlooks
        refine ⟨false, ?_⟩
        simp only [preDispatchFence, imageResolutionFence, builderAdmissionFence, himage, hbuilder,
          hretryable, Bool.false_eq_true, if_false, bind, Except.bind, pure, Except.pure]
  obtain ⟨fence, hfence⟩ := hfence
  simp only [shouldRetryUcloudUnavailable, hgroup, hfence, bind, Except.bind, pure, Except.pure]
  grind

/-- Where it does, it raises a `TypeError`. -/
theorem shouldRetry_typeError {status : ℤ} {body : Json} {method path : String}
    (hlooks : looksUpCode method.toUpper path status body = true)
    (hcode : unhashable (errorCode body) = true) (attempt : ℕ) (maxAttempts : Option ℕ) :
    ∃ cls text, shouldRetryUcloudUnavailable status body attempt method path maxAttempts =
      .error (.builtin cls text) := by
  obtain ⟨c₁, t₁, himage⟩ := memberOf_unhashable hcode imageResolutionPreDispatchErrorCodes
  obtain ⟨c₂, t₂, hbuilder⟩ := memberOf_unhashable hcode builderAdmissionErrorCodes
  obtain ⟨c₃, t₃, hgeneral⟩ := memberOf_unhashable hcode preDispatchErrorCodes
  simp only [looksUpCode, Bool.and_eq_true, Bool.not_eq_true', Bool.or_eq_true] at hlooks
  obtain ⟨hgroup, hwhere⟩ := hlooks
  simp only [shouldRetryUcloudUnavailable, hgroup, preDispatchFence, imageResolutionFence,
    builderAdmissionFence, himage, hbuilder, hgeneral, bind, Except.bind, pure, Except.pure]
  grind

end UcloudSandboxes.Client
