import UcloudSandboxes.Lib.Streak
import UcloudSandboxes.Relay.AsyncWorker
import UcloudSandboxes.Relay.Registration
import UcloudSandboxes.Relay.SyncWorker

/-!
# The polls of a worker loop

`poll`, with the checks it makes of an answer, and what a worker loop does after each of its polls.
`_run_sync_worker` and `_run_async_worker` treat a poll that ended in the same way; `afterPoll` is
that part of both, and `pollLoop` is what a loop makes of the polls it comes to.

## Main results

* `SyncWorker.pollFailed_phase`, `AsyncWorker.pollFailed_phase`: both loops go on, or end, as
  `afterPoll` says.
* `SyncWorker.step_pollErrors`, `AsyncWorker.step_pollErrors`: nothing but a poll changes the count
  of failures in a row.
-/
namespace UcloudSandboxes.Relay
open Lib Python Http

section Decode
variable (py : Interpreter) (codec : RelayCodec)

/-- `RelayRequest.from_payload`. -/
def RelayRequest.ofJson (payload : Json) : Except Raised RelayRequest :=
  match payload.asDict with
  | some fields => RelayRequest.fromPayload py codec fields
  | none => .error (.api { message := "relay returned an invalid request", body := payload })

/-- `RelayPollResult.from_payload`. -/
def pollResultFromPayload (payload : Dict) : Except Raised (List RelayRequest) :=
  match payload.get "requests" with
  | .list items => items.mapM (RelayRequest.ofJson py codec)
  | _ => .error (.api { message := "relay returned invalid requests", body := .dict payload })

end Decode

/-- `_validate_poll_identity`, behind the requests whose identities were seen. -/
def validatePollIdentity (rolloutId registrationToken : String) (requestIds : List String) :
    List RelayRequest → Except Raised Unit
  | [] => .ok ()
  | item :: rest =>
      if item.rolloutId ≠ rolloutId then
        foreign "relay poll returned a request for a different rollout" item
      else if item.registrationToken ≠ registrationToken then
        foreign "relay poll returned a request for a different registration" item
      else if requestIds.contains item.requestId then
        foreign "relay poll returned a duplicate request identity" item
      else
        validatePollIdentity rolloutId registrationToken (item.requestId :: requestIds) rest
where
  foreign (message : String) (item : RelayRequest) : Except Raised Unit :=
    .error (.api { message, body := .dict [("request_id", .str item.requestId)] })

/-- The arguments of a poll that its answer is checked with. -/
structure PollCall where
  rolloutId : String
  registrationToken : Option String

/-- What a poll meets: the tokens its client remembers, and the reply to its request. -/
structure PollInput where
  tokens : Tokens
  reply : Reply

/-- The requests that a poll leases. -/
abbrev PollEnd := Except Raised (List RelayRequest)

/-- What `poll` makes of the answer it decoded. -/
def polled (py : Interpreter) (codec : RelayCodec) (call : PollCall) (token : String)
    (payload : Dict) : PollEnd := do
  let requests ← pollResultFromPayload py codec payload
  validatePollIdentity call.rolloutId token [] requests
  return requests

/-- `poll`, with what the client's `_request_json` makes of a reply. -/
def poll (py : Interpreter) (codec : RelayCodec) (answer : Reply → Except Raised Dict)
    (call : PollCall) (input : PollInput) : PollEnd := do
  let (token, _) ← registrationToken input.tokens call.rolloutId call.registrationToken
  let payload ← answer input.reply
  polled py codec call token payload

/-- What a worker loop does after a poll. -/
inductive Reaction
  /-- It starts a task for each request. -/
  | dispatch
  /-- It waits before the next poll. -/
  | sleep (delay : ℚ)
  | raise (exc : Raised)

/-- The loop polls no more. -/
def Reaction.ends : Reaction → Bool
  | .raise _ => true
  | _ => false

/-- The poll raised. -/
def pollFails : PollEnd → Bool
  | .ok _ => false
  | .error _ => true

section Loop
variable (py : Interpreter) (options : WorkerOptions)

/-- What a loop does after a poll, with `poll_errors` as the `except` clause leaves it. -/
def afterPoll (pollErrors : ℕ) : PollEnd → Reaction
  | .ok _ => .dispatch
  | .error (.api exc) =>
      if !relayErrorIsRetryable exc ||
          decide (max 1 options.maxConsecutivePollErrors ≤ (pollErrors : ℤ)) then
        .raise (.api exc)
      else match relayRetryDelay py exc pollErrors with
        | .ok delay => .sleep delay
        | .error failure => .raise failure
  | .error exc => .raise exc

/-- What a loop does with its polls, until it raises. -/
def pollLoop (polls : List PollEnd) : List Reaction :=
  reactions pollFails (afterPoll py options) Reaction.ends 0 polls

/-- How many polls in a row have failed by the end of poll `i`. -/
def failuresInRow (polls : List PollEnd) (i : ℕ) : ℕ := streak pollFails (polls.take (i + 1))

end Loop

section
variable {py : Interpreter} {options : WorkerOptions}

theorem ends_afterPoll_api (exc : ApiError) (pollErrors : ℕ) :
    (afterPoll py options pollErrors (.error (.api exc))).ends =
      !retriesPoll py options exc pollErrors := by
  simp only [afterPoll, retriesPoll]
  cases relayErrorIsRetryable exc with
  | false => rfl
  | true =>
      by_cases hlimit : max 1 options.maxConsecutivePollErrors ≤ (pollErrors : ℤ)
      · have hlt : ¬ (pollErrors : ℤ) < max 1 options.maxConsecutivePollErrors := by omega
        simp [hlimit, hlt, Reaction.ends]
      · have hlt : (pollErrors : ℤ) < max 1 options.maxConsecutivePollErrors := by omega
        cases relayRetryDelay py exc pollErrors <;>
          simp [hlimit, hlt, Reaction.ends, Except.toBool]

/-- The reaction to a poll that the loop comes to. -/
theorem getElem?_pollLoop {polls : List PollEnd} {i : ℕ} {poll : PollEnd}
    (hi : polls[i]? = some poll)
    (h : ∀ j < i, ∀ p, polls[j]? = some p →
      (afterPoll py options (failuresInRow polls j) p).ends = false) :
    (pollLoop py options polls)[i]? = some (afterPoll py options (failuresInRow polls i) poll) := by
  rw [pollLoop, getElem?_reactions, reactionAt_zero, hi]
  · rfl
  · intro j hj b hb
    rw [reactionAt_zero] at hb
    obtain ⟨p, hp, rfl⟩ := Option.map_eq_some_iff.mp hb
    exact h j hj p hp

/-- The polls that a loop comes to are those before which it did not end. -/
theorem of_getElem?_pollLoop {polls : List PollEnd} {i : ℕ} {reaction : Reaction}
    (h : (pollLoop py options polls)[i]? = some reaction) :
    ∃ poll, polls[i]? = some poll ∧ reaction = afterPoll py options (failuresInRow polls i) poll ∧
      ∀ j < i, ∀ p, polls[j]? = some p →
        (afterPoll py options (failuresInRow polls j) p).ends = false := by
  obtain ⟨hreaction, hbefore⟩ := of_getElem?_reactions h
  rw [reactionAt_zero] at hreaction
  obtain ⟨poll, hpoll, hr⟩ := Option.map_eq_some_iff.mp hreaction
  refine ⟨poll, hpoll, hr.symm, fun j hj p hp => hbefore j hj _ ?_⟩
  rw [reactionAt_zero, hp]
  rfl

end

namespace SyncWorker
variable {py : Interpreter}

/-- The sync loop goes back to its head, or leaves, as `afterPoll` says. -/
theorem pollFailed_phase (options : WorkerOptions) (a : SyncWorker) (exc : Raised) :
    (a.pollFailed py options exc).phase =
      if (afterPoll py options (a.pollErrors + 1) (.error exc)).ends then .closing else .top := by
  cases exc with
  | api e =>
      rw [ends_afterPoll_api]
      simp only [pollFailed]
      cases retriesPoll py options e (a.pollErrors + 1) <;> rfl
  | _ => rfl

theorem pollFailed_pollErrors (options : WorkerOptions) (a : SyncWorker) (e : ApiError) :
    (a.pollFailed py options (.api e)).pollErrors = a.pollErrors + 1 := rfl

/-- A step of a loop leaves the count of failures alone, or it is the end of a poll. -/
theorem step_pollErrors {ι : Type*} [DecidableEq ι] {options : ι → WorkerOptions} {k : ι}
    {b b' : SyncRequestBudget ι} {a a' : SyncWorker} (h : Act py options k b a b' a') :
    a'.pollErrors = a.pollErrors ∨
      ∃ limit, a.phase = .polling limit ∧
        (a'.pollErrors = 0 ∨ ∃ exc, a' = a.pollFailed py (options k) exc) := by
  cases h with
  | enter stopSet hp =>
      left
      rcases ((b.enter k).attempt k stopSet).1 with _ | _ | n <;> rfl
  | wake stopSet hp =>
      left
      rcases (b.attempt k stopSet).1 with _ | _ | n <;> rfl
  | pollReturns limit requests hp hle => exact .inr ⟨limit, hp, .inl rfl⟩
  | pollExceeds limit requests hp hlt => exact .inr ⟨limit, hp, .inl rfl⟩
  | pollRaises limit exc hp => exact .inr ⟨limit, hp, .inr ⟨exc, rfl⟩⟩
  | _ => exact .inl rfl

end SyncWorker

namespace AsyncWorker
variable {py : Interpreter}

/-- The async loop waits for the next poll, or leaves, as `afterPoll` says. -/
theorem pollFailed_phase (options : WorkerOptions) (a : AsyncWorker) (exc : Raised) :
    (a.pollFailed py options exc).phase =
      if (afterPoll py options (a.pollErrors + 1) (.error exc)).ends then .draining
      else .backoff := by
  cases exc with
  | api e =>
      rw [ends_afterPoll_api]
      simp only [pollFailed]
      cases retriesPoll py options e (a.pollErrors + 1) <;> rfl
  | _ => rfl

theorem pollFailed_pollErrors (options : WorkerOptions) (a : AsyncWorker) (e : ApiError) :
    (a.pollFailed py options (.api e)).pollErrors = a.pollErrors + 1 := rfl

/-- A step of a loop leaves the count of failures alone, or it is the end of a poll. -/
theorem step_pollErrors {ι : Type*} {options : ι → WorkerOptions} {k : ι}
    {b b' : AsyncRequestBudget ι} {a a' : AsyncWorker} (h : Act py options k b a b' a') :
    a'.pollErrors = a.pollErrors ∨
      ∃ limit, a.phase = .polling limit ∧
        (a'.pollErrors = 0 ∨ ∃ exc, a' = a.pollFailed py (options k) exc) := by
  cases h with
  | pollReturns limit requests hp hle hop => exact .inr ⟨limit, hp, .inl rfl⟩
  | pollExceeds limit requests hp hlt hop => exact .inr ⟨limit, hp, .inl rfl⟩
  | pollRaises limit exc hp hop => exact .inr ⟨limit, hp, .inr ⟨exc, rfl⟩⟩
  | _ => exact .inl rfl

end AsyncWorker
end UcloudSandboxes.Relay
