import UcloudSandboxes.Http.Response

/-!
# Decoding a JSON answer

`_decode_node_json` and `_decode_relay_json` differ in the name they give the other side and in
what the error for a body that is no object carries. `decodeJsonObject` is both; `Decoded` says
which errors it can end in.
-/
namespace UcloudSandboxes.Http
open Python

/-- `200 <= status < 300`. -/
def isSuccess (status : ℤ) : Bool := decide (200 ≤ status ∧ status < 300)

/-- The decoder of both clients. `party` names the other side; `keepsStatus` says whether the error
for a body that is no object carries the status and the headers. -/
def decodeJsonObject (py : Interpreter) (party : String) (keepsStatus : Bool) (raw : String)
    (status : ℤ) (headers : Headers) : Except Raised Dict :=
  match if raw = "" then .value (.dict []) else py.loads raw with
  | .raised cls text => .error (.builtin cls text)
  | .decodeError text =>
      if isSuccess status then
        .error (.api {
          message := party ++ " returned invalid JSON: " ++ text
          statusCode := some status
          body := .dict [("error", .str raw)]
          headers })
      else failed (.dict [("error", .str raw)])
  | .value decoded =>
      if !isSuccess status then failed decoded
      else match decoded.asDict with
        | some answer => .ok answer
        | none =>
            .error (.api {
              message := party ++ " returned a non-object JSON payload"
              statusCode := if keepsStatus then some status else none
              body := decoded
              headers := if keepsStatus then headers else [] })
where
  failed (decoded : Json) : Except Raised Dict :=
    .error (.api {
      message := party ++ " request failed (" ++ toString status ++ "): " ++ decoded.toStr py
      statusCode := some status
      body := decoded
      headers })

/-- `json.loads` raises on the text, and not a `JSONDecodeError`. -/
def LoadsRaises (py : Interpreter) (text : String) : Prop :=
  text ≠ "" ∧ ∃ cls message, py.loads text = .raised cls message

section
variable {py : Interpreter} {party : String} {keepsStatus : Bool} {raw : String} {status : ℤ}
  {headers : Headers}

/-- Decoding fails with the client's error, or with an exception of `json.loads` itself. -/
theorem decode_error {exc : Raised}
    (h : decodeJsonObject py party keepsStatus raw status headers = .error exc) :
    (∃ e, exc = .api e) ∨ ∃ cls text, py.loads raw = .raised cls text ∧ exc = .builtin cls text := by
  simp only [decodeJsonObject, decodeJsonObject.failed] at h
  grind

/-- Which of them come from `json.loads` itself. -/
theorem decode_builtin_iff {cls : Builtin} {text : String} :
    decodeJsonObject py party keepsStatus raw status headers = .error (.builtin cls text) ↔
      raw ≠ "" ∧ py.loads raw = .raised cls text := by
  simp only [decodeJsonObject, decodeJsonObject.failed]
  grind

/-- `json.loads` itself raises in those cases. -/
theorem loadsRaises_iff : LoadsRaises py raw ↔ ∃ cls message,
    decodeJsonObject py party keepsStatus raw status headers = .error (.builtin cls message) := by
  simp only [decode_builtin_iff, LoadsRaises, exists_and_left]

end
end UcloudSandboxes.Http
