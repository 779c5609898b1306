import UcloudSandboxes.Relay.CommitRetries
import UcloudSandboxes.Relay.DeleteRetries

/-!
# What the relay client tries again

`commit_response_bytes_to`, `unregister_rollout` and the polls of a worker loop try again after a
retryable error. A poll may fail by the client's own fault, and is made again all the same.

## Main results

* `pollsAgainRightly_iff`: the polls after which another one is in order.
* `retries_lawful_iff`: the calls that try nothing else again.
-/
namespace UcloudSandboxes.Relay
open Lib Python Http

variable {V : Type}

section Polls
variable (rt : Runtime V) (codec : RelayCodec) (f : Flavor) (call : PollCall)

/-- How the polls of a loop end. -/
def pollEnds (inputs : List PollInput) : List PollEnd :=
  inputs.map (poll rt.py codec (f.answer rt) call)

/-- Behind each poll that the loop sleeps after, another one is in order. -/
def PollsAgainRightly (options : WorkerOptions) (inputs : List PollInput) : Prop :=
  ∀ (i : ℕ) (delay : ℚ),
    (pollLoop rt.py options (pollEnds rt codec f call inputs))[i]? = some (Reaction.sleep delay) →
    ∃ input, inputs[i]? = some input ∧
      (registrationToken input.tokens call.rolloutId call.registrationToken).isOk = true ∧
      f.Temporary rt input.reply

/-- The client itself makes the poll fail. -/
inductive PollFault (input : PollInput) : Prop
  /-- The rollout is not registered with the client, or not with a token. -/
  | unregistered (exc : Raised)
      (h : registrationToken input.tokens call.rolloutId call.registrationToken = .error exc)
  /-- The requests of the answer do not pass their checks. -/
  | invalid (payload : Dict) (token : String) (tokens' : Tokens) (exc : Raised)
      (htoken : registrationToken input.tokens call.rolloutId call.registrationToken =
        .ok (token, tokens'))
      (hanswer : f.answer rt input.reply = .ok payload)
      (hpolled : polled rt.py codec call token payload = .error exc)
  | garbled (h : f.Garbled rt input.reply)

end Polls

section Polls
variable {rt : Runtime V} {codec : RelayCodec} {f : Flavor} {call : PollCall}
  {options : WorkerOptions}

/-- A poll that is tried again failed for a while, or by the client's own fault. -/
theorem poll_retried_cases {input : PollInput} {e : ApiError}
    (h : poll rt.py codec (f.answer rt) call input = .error (.api e))
    (hretryable : relayErrorIsRetryable e = true) :
    (registrationToken input.tokens call.rolloutId call.registrationToken).isOk = true ∧
        f.Temporary rt input.reply ∨ PollFault rt codec f call input := by
  cases htoken : registrationToken input.tokens call.rolloutId call.registrationToken with
  | error exc => exact .inr (.unregistered exc htoken)
  | ok found =>
      simp only [poll, htoken] at h
      cases hanswer : f.answer rt input.reply with
      | ok payload =>
          rw [hanswer] at h
          exact .inr (.invalid payload _ _ _ htoken hanswer h)
      | error exc =>
          rw [hanswer] at h
          cases h
          rcases Flavor.temporary_or_garbled ⟨e, hanswer, hretryable⟩ with htemporary | hgarbled
          · exact .inl ⟨rfl, htemporary⟩
          · exact .inr (.garbled hgarbled)

/-- A poll that fails by the client's own fault has no lost exchange to make up for. -/
theorem PollFault.not_temporary {input : PollInput} (h : PollFault rt codec f call input)
    (htoken : (registrationToken input.tokens call.rolloutId call.registrationToken).isOk = true) :
    ¬ f.Temporary rt input.reply := by
  intro htemporary
  cases h with
  | unregistered exc h =>
      rw [h] at htoken
      cases htoken
  | invalid payload token tokens' exc htoken hanswer hpolled =>
      obtain ⟨exc', hexc', -⟩ := htemporary
      rw [hanswer] at hexc'
      cases hexc'
  | garbled h => exact h.fails.2 htemporary

/-- The polls of a loop are repeated rightly unless one that the loop goes on after failed by the
client's own fault. -/
theorem pollsAgainRightly_iff (inputs : List PollInput) :
    PollsAgainRightly rt codec f call options inputs ↔
      ∀ i input exc, inputs[i]? = some input →
        poll rt.py codec (f.answer rt) call input = .error exc →
        (∀ j ≤ i, GoesOn options (pollEnds rt codec f call inputs) j ∧
          ¬ LongOutage rt.py (pollEnds rt codec f call inputs) j) →
        ¬ PollFault rt codec f call input := by
  constructor
  · intro h i input exc hinput hpoll hall hfault
    have hend : (pollEnds rt codec f call inputs)[i]? = some (.error exc) := by
      rw [pollEnds, List.getElem?_map, hinput, Option.map_some, hpoll]
    obtain ⟨delay, hdelay⟩ := sleeps_iff.mpr ⟨⟨exc, hend⟩, hall⟩
    obtain ⟨input', hinput', htoken, htemporary⟩ := h i delay hdelay
    rw [hinput] at hinput'
    cases hinput'
    exact hfault.not_temporary htoken htemporary
  · intro h i delay hdelay
    obtain ⟨⟨exc, hexc⟩, hall⟩ := sleeps_iff.mp ⟨delay, hdelay⟩
    obtain ⟨e, rfl, hretryable, -⟩ := (hall i le_rfl).1 exc hexc
    rw [pollEnds, List.getElem?_map] at hexc
    obtain ⟨input, hinput, hpoll⟩ := Option.map_eq_some_iff.mp hexc
    refine ⟨input, hinput, ?_⟩
    rcases poll_retried_cases hpoll hretryable with hok | hfault
    · exact hok
    · exact absurd hfault (h i input _ hinput hpoll hall)

end Polls

/-- A codec that writes nothing. -/
def plainCodec : RelayCodec where
  dumps _ := .ok []
  floatOfInt n := some (.finite n)

/-- A response over the limit is committed again without a request. -/
theorem oversized_commits_again {body : Bytes} (hsize : maxRelayHttpBodyBytes < body.length)
    (relay : ℕ → Reply) (t : Trace String) :
    ¬ CommitsAgainRightly plainRuntime .sync relay
      (commitRetries ((Flavor.client plainRuntime 600 .sync).respondTo relay leasedRequest
        (.bytes body) 200 none) (max 1 (60 : ℤ)).toNat t) := by
  have hpayload : (responsePayload leasedRequest (.bytes body) 200 none :
      Except Raised (CompletionPayload String)) =
      .error (.api {
        message := "relay HTTP body exceeds the " ++ toString maxRelayHttpBodyBytes ++
          " byte limit" }) := by
    simp only [responsePayload, encodedBody, validateHttpBodySize, if_pos hsize]
    rfl
  rw [commitsAgainRightly_attempts, hpayload]
  rintro (hattempts | ⟨hsent, -⟩)
  · omega
  · cases hsent

/-- A rollout that the client does not know is polled for again. -/
theorem unregistered_polls_again :
    ¬ PollsAgainRightly plainRuntime plainCodec .sync ⟨"run", none⟩ ⟨4, 8, by decide⟩
      [⟨fun _ => none, acceptedReply⟩] := by
  rw [pollsAgainRightly_iff]
  intro h
  refine h 0 _ _ rfl rfl (fun j hj => ?_) (.unregistered _ rfl)
  obtain rfl : j = 0 := by omega
  refine ⟨fun exc hexc => ?_, fun hlong => ?_⟩
  · cases hexc
    exact ⟨_, rfl, rfl, by decide⟩
  · exact absurd hlong.2 (by decide)

end UcloudSandboxes.Relay
