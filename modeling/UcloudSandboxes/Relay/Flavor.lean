import UcloudSandboxes.Relay.Handling

/-!
# The failures after which a relay client tries again

The loops of the relay client try again after an error that `_relay_error_is_retryable` accepts, and
an error without a status is one. Such an error stands for an exchange that was lost, and also for
what the client found wrong by itself. This module tells the two apart, for both clients.

## Main definitions

* `Flavor.Temporary`: the replies after which another attempt is in order.
* `Flavor.Garbled`: the replies that the client takes for such ones.

## Main results

* `Flavor.temporary_or_garbled`: which answers are tried again.
-/
namespace UcloudSandboxes.Relay
open Python Http

variable {V : Type}

/-- The two relay clients. -/
inductive Flavor
  | sync
  | async

/-- The status codes of a failure that may pass. -/
def transientStatuses : List ℤ := [408, 425, 429, 500, 502, 503, 504]

namespace Flavor

def client (rt : Runtime V) (forwardTimeout : ℚ) : Flavor → RelayClient V
  | .sync => syncClient rt forwardTimeout
  | .async => asyncClient rt forwardTimeout

/-- What `_request_json` makes of a reply. -/
def answer (rt : Runtime V) : Flavor → Reply → Except Raised Dict
  | .sync => syncAnswer rt
  | .async => asyncAnswer rt

theorem answer_client (f : Flavor) (rt : Runtime V) (forwardTimeout : ℚ) :
    (f.client rt forwardTimeout).answer = f.answer rt := by
  cases f <;> rfl

/-- How a body is read. -/
def read (py : Interpreter) : Flavor → Response → Except Raised Bytes
  | .sync, r => readSyncResponse py r maxRelayJsonBytes
  | .async, r => readAsyncResponse py r maxRelayJsonBytes

/-- No response came, or its body broke off. -/
def Lost (rt : Runtime V) (f : Flavor) : Reply → Prop
  | .error _ => True
  | .ok r => ∃ exc, f.read rt.py r = .error exc ∧ ∀ text, exc ≠ .tooLarge text

/-- The answer has a transient status. -/
def Transient : Reply → Prop
  | .error _ => False
  | .ok r => transientStatuses.contains r.status = true

/-- The exchange failed in a way that may pass: it was lost, or the answer has a transient status or
says that it is retryable. -/
def Temporary (rt : Runtime V) (f : Flavor) (reply : Reply) : Prop :=
  ∃ exc, f.answer rt reply = .error exc ∧
    (f.Lost rt reply ∨ Transient reply ∨ ∃ e, exc = .api e ∧ retryable e = some true)

/-- The async client takes an answer for a lost exchange: it was read to its end, its status is not
transient, and it is not UTF-8, or `json.loads` raises something other than `JSONDecodeError`. -/
def Garbled (rt : Runtime V) : Flavor → Reply → Prop
  | .async, .ok r => ¬ Transient (.ok r) ∧ ∃ raw,
      readAsyncResponse rt.py r maxRelayJsonBytes = .ok raw ∧
        ∀ text, rt.py.utf8 raw = some text → LoadsRaises rt.py text
  | _, _ => False

/-- The client tries again after this reply. -/
def FailsRetryably (rt : Runtime V) (f : Flavor) (reply : Reply) : Prop :=
  ∃ e, f.answer rt reply = .error (.api e) ∧ relayErrorIsRetryable e = true

end Flavor

/-- An error with a status is retryable by its status or by what its body says. -/
theorem retryable_of_status {e : ApiError} {status : ℤ} (hstatus : e.statusCode = some status)
    (h : relayErrorIsRetryable e = true) :
    retryable e = some true ∨ transientStatuses.contains status = true := by
  by_cases hfinal : [400, 401, 403, 404, 409, 410, 422].contains status = true
  · rw [relayErrorIsRetryable, hstatus] at h
    simp only [hfinal, if_true, Bool.false_eq_true] at h
  · rw [relayErrorIsRetryable, hstatus] at h
    simp only [hfinal, Bool.false_eq_true, if_false] at h
    cases hheard : retryable e with
    | none =>
        rw [hheard] at h
        exact .inr h
    | some b =>
        rw [hheard] at h
        exact .inl (congrArg some h)

/-- The errors of the decoder keep the status. -/
theorem statusCode_decodeRelayJson {py : Interpreter} {raw : String} {status : ℤ}
    {headers : Headers} {e : ApiError}
    (h : decodeRelayJson py raw status headers = .error (.api e)) : e.statusCode = some status := by
  simp only [decodeRelayJson, decodeJsonObject, decodeJsonObject.failed] at h
  cases hloaded : (if raw = "" then Loaded.value (.dict []) else py.loads raw) with
  | raised cls text =>
      rw [hloaded] at h
      cases h
  | decodeError text =>
      rw [hloaded] at h
      by_cases hstatus : isSuccess status = true
      · simp only [hstatus, if_true, Except.error.injEq, Raised.api.injEq] at h
        rw [← h]
      · simp only [hstatus, Bool.false_eq_true, if_false, Except.error.injEq,
          Raised.api.injEq] at h
        rw [← h]
  | value decoded =>
      rw [hloaded] at h
      by_cases hstatus : isSuccess status = true
      · simp only [hstatus, Bool.not_true, Bool.false_eq_true, if_false, if_true] at h
        cases hdict : decoded.asDict with
        | some answer =>
            rw [hdict] at h
            cases h
        | none =>
            rw [hdict] at h
            simp only [Except.error.injEq, Raised.api.injEq] at h
            rw [← h]
      · simp only [hstatus, Bool.not_false, if_true, Except.error.injEq, Raised.api.injEq] at h
        rw [← h]

namespace Flavor
variable {rt : Runtime V}

theorem temporary_of_status {f : Flavor} {r : Response} {e : ApiError}
    (h : f.answer rt (.ok r) = .error (.api e)) (hstatus : e.statusCode = some r.status)
    (hretryable : relayErrorIsRetryable e = true) : f.Temporary rt (.ok r) := by
  refine ⟨_, h, .inr ?_⟩
  rcases retryable_of_status hstatus hretryable with hheard | htransient
  · exact .inr ⟨e, rfl, hheard⟩
  · exact .inl htransient

/-- What is tried again is a temporary failure, or an answer that the async client takes for one. -/
theorem temporary_or_garbled {f : Flavor} {reply : Reply} (h : f.FailsRetryably rt reply) :
    f.Temporary rt reply ∨ f.Garbled rt reply := by
  obtain ⟨e, he, hretryable⟩ := h
  cases reply with
  | error failure => exact .inl ⟨_, he, .inl trivial⟩
  | ok r =>
      cases hread : f.read rt.py r with
      | error exc =>
          left
          by_cases hlarge : ∃ text, exc = .tooLarge text
          · obtain ⟨text, rfl⟩ := hlarge
            apply temporary_of_status he _ hretryable
            cases f with
            | sync =>
                simp only [read] at hread
                simp only [answer, syncAnswer, hread, answerTooLarge] at he
                cases he
                rfl
            | async =>
                simp only [read] at hread
                simp only [answer, asyncAnswer, hread, answerTooLarge, Except.mapError,
                  wrapped] at he
                cases he
                rfl
          · exact ⟨_, he, .inl ⟨exc, hread, fun text htext => hlarge ⟨text, htext⟩⟩⟩
      | ok raw =>
          cases f with
          | sync =>
              left
              simp only [read] at hread
              apply temporary_of_status he _ hretryable
              simp only [answer, syncAnswer, hread] at he
              split at he
              · split at he
                · exact statusCode_decodeRelayJson he
                · cases he
              · exact statusCode_decodeRelayJson he
          | async =>
              simp only [read] at hread
              by_cases htransient : Transient (.ok r)
              · exact .inl ⟨_, he, .inr (.inl htransient)⟩
              · cases hutf8 : rt.py.utf8 raw with
                | none => exact .inr ⟨htransient, raw, hread, fun text ht => by simp [hutf8] at ht⟩
                | some text =>
                    have hanswer := he
                    simp only [answer, asyncAnswer, hread, hutf8] at he
                    obtain ⟨exc, hexc, hwrapped⟩ := mapError_eq_error he
                    rcases decode_error hexc with ⟨e', rfl⟩ | ⟨cls, message, hloads, rfl⟩
                    · cases hwrapped
                      exact .inl (temporary_of_status hanswer (statusCode_decodeRelayJson hexc)
                        hretryable)
                    · refine .inr ⟨htransient, raw, hread, fun text' ht => ?_⟩
                      rw [hutf8] at ht
                      cases ht
                      exact ⟨(decode_builtin_iff.mp hexc).1, cls, message, hloads⟩

/-- An answer that is taken for a lost exchange is tried again. -/
theorem Garbled.fails {f : Flavor} {reply : Reply} (h : f.Garbled rt reply) :
    f.FailsRetryably rt reply ∧ ¬ f.Temporary rt reply := by
  cases f with
  | sync => cases reply <;> cases h
  | async =>
      cases reply with
      | error failure => cases h
      | ok r =>
          obtain ⟨htransient, raw, hread, htext⟩ := h
          have hanswer : ∃ exc, answer rt .async (.ok r) = .error (requestFailed exc) := by
            simp only [answer, asyncAnswer, hread]
            cases hutf8 : rt.py.utf8 raw with
            | none => exact ⟨_, rfl⟩
            | some text =>
                obtain ⟨hne, cls, message, hloads⟩ := htext text hutf8
                have hdecode : decodeRelayJson rt.py text r.status (responseHeaders r.headers) =
                    .error (.builtin cls message) := decode_builtin_iff.mpr ⟨hne, hloads⟩
                simp only [hdecode]
                exact ⟨_, rfl⟩
          obtain ⟨exc, hexc⟩ := hanswer
          refine ⟨⟨_, hexc, rfl⟩, fun htemporary => ?_⟩
          obtain ⟨exc', hexc', hwhy⟩ := htemporary
          rw [hexc] at hexc'
          cases hexc'
          rcases hwhy with ⟨broken, hbroken, -⟩ | hstatus | ⟨e, he, hheard⟩
          · simp only [read, hread] at hbroken
            cases hbroken
          · exact htransient hstatus
          · cases he
            cases hheard

end Flavor

end UcloudSandboxes.Relay
