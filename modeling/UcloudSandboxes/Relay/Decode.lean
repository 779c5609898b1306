import UcloudSandboxes.Python.Equality
import UcloudSandboxes.Relay.Completion

/-!
# Decoding a leased request

`RelayRequest.from_payload` and the coercions it decodes its fields with. What they need from the
interpreter besides the tables of `Interpreter` is a `RelayCodec`.
-/
namespace UcloudSandboxes.Relay
open Python Http

/-- The conversions of the interpreter that only a leased request needs. -/
structure RelayCodec where
  /-- `json.dumps(value, ensure_ascii=False, separators=(",", ":")).encode("utf-8")`. -/
  dumps : Json → Except Raised Bytes
  /-- `float` of an `int`; `none` is `OverflowError`. -/
  floatOfInt : ℤ → Option PyFloat

section
variable (py : Interpreter) (codec : RelayCodec)

/-- `_required_string`. -/
def requiredString (payload : Dict) (field : String) : Except Raised String :=
  match payload.get field with
  | .str value =>
      if value = "" then
        .error (.api { message := "relay payload omitted string " ++ field, body := .dict payload })
      else .ok value
  | _ =>
      .error (.api { message := "relay payload omitted string " ++ field, body := .dict payload })

/-- `json.loads` of the bytes that `json.dumps` made. -/
def loadsBytes (encoded : Bytes) : Except Raised Json :=
  match py.utf8 encoded with
  | none => .error (.builtin .valueError "'utf-8' codec can't decode")
  | some text =>
      match py.loads text with
      | .value v => .ok v
      | .decodeError message => .error (.builtin .valueError message)
      | .raised cls message => .error (.builtin cls message)

/-- `except (TypeError, ValueError)`. -/
def orInvalid (invalid : ApiError) : Raised → Raised
  | .builtin .typeError _ | .builtin .valueError _ => .api invalid
  | exc => exc

/-- `_decode_body`. -/
def decodeBody (body : Json) (payload : Dict) : Except Raised (Json × Bytes) :=
  match body.asDict with
  | some fields =>
      if fields.has "encoding" && fields.has "value" &&
          fields.all (fun item => ["encoding", "value"].contains item.1) then
        if (fields.get "encoding").eqStr "json" then
          (do
            let encoded ← codec.dumps (fields.get "value")
            let value ← loadsBytes py encoded
            return (value, encoded) : Except Raised (Json × Bytes)).mapError
            (orInvalid { message := "relay request JSON body is invalid", body := .dict payload })
        else match (fields.get "encoding").eqStr "base64", fields.get "value" with
          | true, .str value =>
              match py.b64decode value with
              | some bytes => .ok (.null, bytes)
              | none =>
                  .error (.api {
                    message := "relay request base64 body is invalid", body := .dict payload })
          | _, _ =>
              .error (.api {
                message := "relay request body encoding/value is invalid", body := .dict payload })
      else malformed
  | none => malformed
where
  malformed : Except Raised (Json × Bytes) :=
    .error (.api {
      message := "relay request body must contain exactly encoding and value"
      body := .dict payload })

/-- `_optional_float`. -/
def optionalFloat : Json → Except Raised (Option PyFloat)
  | .null => .ok none
  | .bool b => .ok (some (.finite (if b then 1 else 0)))
  | .int n =>
      match codec.floatOfInt n with
      | some f => .ok (some f)
      | none => .error (.builtin .overflowError "int too large to convert to float")
  | .float f => .ok (some f)
  | .str s => .ok (py.floatOf s)
  | _ => .ok none

/-- `_optional_string`. -/
def optionalString (v : Json) : Option String := if v.isNone then none else some (v.toStr py)

/-- `_int`. -/
def intOr (v : Json) (default : ℤ) : Except Raised ℤ :=
  match v.toInt py with
  | .error (.builtin .typeError _) | .error (.builtin .valueError _) => .ok default
  | result => result

/-- `_optional_int`. -/
def optionalInt (v : Json) : Except Raised (Option ℤ) :=
  if v.isNone then .ok none else (intOr py v 0).map some

/-- `_optional_bool`. -/
def optionalBool (v : Json) (default : Bool) : Except Raised Bool :=
  match v with
  | .null => .ok default
  | .bool b => .ok b
  | _ => .error (.api { message := "relay payload contained an invalid boolean" })

/-- `_string_dict`. -/
def stringDict : Json → Headers
  | .dict items => items.map fun item => (item.1, item.2.toStr py)
  | _ => []

/-- `RelayRequest.from_payload`, for a `dict`. -/
def RelayRequest.fromPayload (payload : Dict) : Except Raised RelayRequest := do
  let requestId ← requiredString payload "request_id"
  let rolloutId ← requiredString payload "rollout_id"
  let registrationToken ← requiredString payload "registration_token"
  let leaseId ← requiredString payload "lease_id"
  validateRegistrationToken registrationToken
  let (body, bodyBytes) ← decodeBody py codec (payload.get "body") payload
  validateHttpBodySize bodyBytes
  let createdAt ← optionalFloat py codec (payload.get "created_at")
  let deliveredAt ← optionalFloat py codec (payload.get "delivered_at")
  let firstDeliveredAt ← optionalFloat py codec (payload.get "first_delivered_at")
  let leaseExpiresAt ← optionalFloat py codec (payload.get "lease_expires_at")
  let deliveryCount ← intOr py (payload.get "delivery_count") 0
  let sandboxGeneration ← optionalInt py (payload.get "sandbox_generation")
  let expiresAt ← optionalFloat py codec (payload.get "expires_at")
  let reattachable ← optionalBool (payload.get "reattachable") false
  let acceptedNotifiedAt ← optionalFloat py codec (payload.get "accepted_notified_at")
  return {
    requestId, rolloutId, registrationToken
    endpoint := ((payload.get "endpoint").orElse (.str "")).toStr py
    method := ((payload.get "method").orElse (.str "POST")).toStr py
    headers := stringDict py (payload.get "headers")
    body, bodyBytes, createdAt, deliveredAt, firstDeliveredAt, leaseId, leaseExpiresAt
    leasedBy := optionalString py (payload.get "leased_by")
    deliveryCount
    sandboxId := optionalString py (payload.get "sandbox_id")
    sandboxGeneration, expiresAt
    idempotencyKey := optionalString py (payload.get "idempotency_key")
    reattachable, acceptedNotifiedAt
    parkedTransportEpoch := optionalString py (payload.get "parked_transport_epoch") }

end
end UcloudSandboxes.Relay
