import UcloudSandboxes.Client.Retry

/-!
# What the Inspect integration makes of a gateway error

The integration has loops of its own around calls of `AsyncSandboxClient`. They tell apart a
`SandboxApiError`, the failures of the connection, other exceptions, and cancellation.
-/
namespace UcloudSandboxes.Inspect
open Python Client Http

/-- What a call of `AsyncSandboxClient` raises. -/
inductive CallError
  | api (e : ApiError)
  /-- A `ClientError` or a `TimeoutError`. -/
  | transport (text : String)
  /-- Any further subclass of `Exception`. -/
  | other (text : String)
  /-- A `BaseException` outside `Exception`: cancellation, interrupt or exit. -/
  | base (name : String)

namespace CallError

/-- `except Exception`. -/
def isException : CallError → Bool
  | .base _ => false
  | _ => true

/-- `str(exc)`. -/
def text : CallError → String
  | .api e => e.message
  | .transport text | .other text => text
  | .base name => name

end CallError

mutual

/-- `_body_text`. -/
def bodyText (py : Interpreter) : Json → String
  | .dict items => " ".intercalate (fieldTexts py items)
  | .list items => " ".intercalate (itemTexts py items)
  | v => v.toStr py

/-- The texts of the values of a `dict`. -/
def fieldTexts (py : Interpreter) : List (String × Json) → List String
  | [] => []
  | (_, v) :: rest => bodyText py v :: fieldTexts py rest

/-- The texts of the items of a `list`. -/
def itemTexts (py : Interpreter) : List Json → List String
  | [] => []
  | v :: rest => bodyText py v :: itemTexts py rest

end

/-- `_is_scale_up_pending_body`. -/
def isScaleUpPendingBody (py : Interpreter) (body : Dict) : Bool :=
  if body.has "pending_resources" || body.has "pending_image_builds" then true
  else
    let message := ((body.get "error").orElse (.str "")).toStr py
    mentions message "no ready node" || mentions message "no ready builder"

/-- The markers of a gateway that is unavailable for a while. -/
def unavailableMarkers : List String :=
  ["job is unavailable", "currently unavailable", "node request failed",
    "temporary failure in name resolution", "name resolution", "server disconnected",
    "remote end closed", "upstream", "gateway timeout"]

/-- `_is_retryable_gateway_error`. -/
def isRetryableGatewayError (py : Interpreter) (e : ApiError) : Bool :=
  match e.body.asDict with
  | none => false
  | some body =>
      if e.statusCode.any transientStatus && (body.get "retryable").isTrue then true
      else if e.statusCode == some 503 && isScaleUpPendingBody py body then true
      else if !(e.statusCode.any fun status => [502, 503, 504].contains status) then false
      else unavailableMarkers.any (mentions (bodyText py e.body))

end UcloudSandboxes.Inspect
