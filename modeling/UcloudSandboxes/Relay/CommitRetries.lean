import UcloudSandboxes.Relay.Flavor

/-!
# The retries of a completion

`commit_response_bytes_to` repeats a completion call up to a number of attempts. It repeats also
what the client refused before it dispatched anything, and receipts that do not pass their check.

## Main definitions

* `commitRetries`: the attempts behind which the loop sleeps.
* `CommitsAgainRightly`: behind each of them another one is in order.

## Main results

* `commitLoop_eq`: the loop in terms of these attempts.
* `commitsAgainRightly_attempts`: the calls that repeat nothing else.
-/
namespace UcloudSandboxes.Relay
open Python Http

variable {V : Type}

/-- An attempt of a completion call: what was dispatched before it and with it. -/
structure CommitAttempt (V : Type) where
  before : Trace V
  after : Trace V

/-- The attempts behind which the loop of `commit_response_bytes_to` sleeps. -/
def commitRetries (call : Trace V → Trace V × Except Raised Dict) :
    ℕ → Trace V → List (CommitAttempt V)
  | 0, _ => []
  | attempts + 1, t =>
      match call t with
      | (t', .error (.api exc)) =>
          if !relayErrorIsRetryable exc || attempts = 0 then []
          else ⟨t, t'⟩ :: commitRetries call attempts t'
      | _ => []

/-- The loop ends with the attempt behind the last one it sleeps after. -/
theorem commitLoop_eq (call : Trace V → Trace V × Except Raised Dict) (attempts : ℕ)
    (t : Trace V) :
    RelayClient.commitLoop call (attempts + 1) t =
      call (((commitRetries call (attempts + 1) t).getLast?.map CommitAttempt.after).getD t) := by
  induction attempts generalizing t with
  | zero =>
      simp only [RelayClient.commitLoop, commitRetries]
      rcases hcall : call t with ⟨t', receipt | exc⟩
      · cases receipt <;> simp [hcall]
      · simp [hcall]
  | succ attempts ih =>
      rw [RelayClient.commitLoop, commitRetries]
      rcases hcall : call t with ⟨t', exc | receipt⟩
      · cases exc with
        | api e =>
            by_cases hstop : (!relayErrorIsRetryable e || decide (attempts + 1 = 0)) = true
            · simp only [hstop, if_true, List.getLast?_nil, Option.map_none, Option.getD_none]
              exact hcall.symm
            · simp only [hstop, Bool.false_eq_true, if_false]
              rw [ih t', List.getLast?_cons]
              cases (commitRetries call (attempts + 1) t').getLast? <;> rfl
        | _ => simp [hcall]
      · simp [hcall]

section Commit
variable (rt : Runtime V) (forwardTimeout : ℚ) (f : Flavor) (relay : ℕ → Reply)

/-- Behind each of these attempts another one is in order: it dispatched its completion, and the
exchange failed in a way that may pass. -/
def CommitsAgainRightly (made : List (CommitAttempt V)) : Prop :=
  ∀ a ∈ made, a.after.completions.length = a.before.completions.length + 1 ∧
    f.Temporary rt (relay a.before.completions.length)

/-- The receipt does not pass its check, and does not say that it is not retryable. -/
def InvalidReceipt (request : RelayRequest) (receipt : Dict) : Prop :=
  completionReceipt request receipt ≠ .ok receipt ∧
    ∀ b, receipt.get "retryable" = .bool b → b = true

/-- The loop takes the reply for a failure that may pass, and it is none. -/
def Misjudged (request : RelayRequest) (reply : Reply) : Prop :=
  f.Garbled rt reply ∨ ∃ receipt, f.answer rt reply = .ok receipt ∧ InvalidReceipt request receipt

end Commit

/-- The errors of a receipt are retryable unless it says otherwise. -/
theorem completionReceipt_cases (request : RelayRequest) (receipt : Dict) :
    completionReceipt request receipt = .ok receipt ∨
      ∃ e, completionReceipt request receipt = .error (.api e) ∧ e.statusCode = none ∧
        e.body = .dict receipt := by
  simp only [completionReceipt]
  split
  · exact .inr ⟨_, rfl, rfl, rfl⟩
  · split
    · exact .inr ⟨_, rfl, rfl, rfl⟩
    · exact .inl rfl

theorem retryable_of_body {e : ApiError} {receipt : Dict} (hstatus : e.statusCode = none)
    (hbody : e.body = .dict receipt) :
    relayErrorIsRetryable e = true ↔ ∀ b, receipt.get "retryable" = .bool b → b = true := by
  simp only [relayErrorIsRetryable, hstatus, retryable, hbody, Json.asDict]
  cases receipt.get "retryable" <;> simp

section Commit
variable {rt : Runtime V} {forwardTimeout : ℚ} {f : Flavor} {request : RelayRequest}

/-- Which replies the loop goes on after. -/
theorem retried_iff {reply : Reply} :
    (f.client rt forwardTimeout).retried request reply = true ↔
      f.FailsRetryably rt reply ∨
        ∃ receipt, f.answer rt reply = .ok receipt ∧ InvalidReceipt request receipt := by
  simp only [RelayClient.retried, RelayClient.receipt, Flavor.answer_client]
  cases hanswer : f.answer rt reply with
  | error exc =>
      simp only [bind, Except.bind, Flavor.FailsRetryably, hanswer, Except.error.injEq,
        reduceCtorEq, false_and, exists_false, or_false]
      cases exc with
      | api e => simp
      | _ => simp
  | ok receipt =>
      simp only [bind, Except.bind, Flavor.FailsRetryably, hanswer, reduceCtorEq, false_and,
        exists_false, false_or, Except.ok.injEq, exists_eq_left', InvalidReceipt]
      rcases completionReceipt_cases request receipt with hok | ⟨e, he, hstatus, hbody⟩
      · simp [hok]
      · rw [he]
        simp only [ne_eq, reduceCtorEq, not_false_eq_true, true_and]
        exact retryable_of_body hstatus hbody

/-- A reply that is tried again is tried again rightly, or it is misjudged. -/
theorem temporary_iff_not_misjudged {reply : Reply}
    (h : (f.client rt forwardTimeout).retried request reply = true) :
    f.Temporary rt reply ↔ ¬ Misjudged rt f request reply := by
  constructor
  · intro htemporary hmisjudged
    rcases hmisjudged with hgarbled | ⟨receipt, hok, -⟩
    · exact hgarbled.fails.2 htemporary
    · obtain ⟨exc, hexc, -⟩ := htemporary
      rw [hok] at hexc
      cases hexc
  · intro hmisjudged
    rcases retried_iff.mp h with hfails | hinvalid
    · rcases Flavor.temporary_or_garbled hfails with htemporary | hgarbled
      · exact htemporary
      · exact absurd (.inl hgarbled) hmisjudged
    · exact absurd (.inr hinvalid) hmisjudged

/-- The loop goes on after an attempt with this end, if it is not the last one. -/
def triesAgain : Except Raised Dict → Bool
  | .error (.api exc) => relayErrorIsRetryable exc
  | _ => false

theorem commitRetries_of_call {call : Trace V → Trace V × Except Raised Dict} {t t' : Trace V}
    {ending : Except Raised Dict} (h : call t = (t', ending)) (attempts : ℕ) :
    commitRetries call (attempts + 1) t =
      if triesAgain ending = true ∧ attempts ≠ 0 then ⟨t, t'⟩ :: commitRetries call attempts t'
      else [] := by
  rw [commitRetries, h]
  cases ending with
  | ok receipt => simp [triesAgain]
  | error exc =>
      cases exc with
      | api e =>
          by_cases hlast : attempts = 0
          · simp [hlast]
          · cases hretryable : relayErrorIsRetryable e <;> simp [triesAgain, hretryable, hlast]
      | _ => simp [triesAgain]

/-- One attempt of a completion that can be sent. -/
theorem commitRetries_succ {relay : ℕ → Reply} {p : CompletionPayload V}
    (hsent : unsent rt (.ok p) = none) (attempts : ℕ) (t : Trace V) :
    commitRetries ((f.client rt forwardTimeout).complete relay request (.ok p)) (attempts + 1) t =
      if (f.client rt forwardTimeout).retried request (relay t.completions.length) = true ∧
          attempts ≠ 0 then
        ⟨t, { t with completions := t.completions ++ [p] }⟩ ::
          commitRetries ((f.client rt forwardTimeout).complete relay request (.ok p)) attempts
            { t with completions := t.completions ++ [p] }
      else [] := by
  have hrt : unsent (f.client rt forwardTimeout).rt (.ok p) = none := by
    cases f <;> exact hsent
  exact commitRetries_of_call ((f.client rt forwardTimeout).complete_of_sent relay hrt t) attempts

/-- The attempts of a completion that can be sent are all dispatched, one after the other. -/
theorem commitsAgainRightly_sent {relay : ℕ → Reply} {p : CompletionPayload V}
    (hsent : unsent rt (.ok p) = none) (attempts : ℕ) (t : Trace V) :
    CommitsAgainRightly rt f relay
        (commitRetries ((f.client rt forwardTimeout).complete relay request (.ok p))
          (attempts + 1) t) ↔
      ∀ k < attempts,
        (∀ j < k, (f.client rt forwardTimeout).retried request
          (relay (t.completions.length + j)) = true) →
        ¬ Misjudged rt f request (relay (t.completions.length + k)) := by
  induction attempts generalizing t with
  | zero =>
      rw [commitRetries_succ hsent, if_neg fun h => h.2 rfl]
      simp [CommitsAgainRightly]
  | succ attempts ih =>
      rw [commitRetries_succ hsent]
      by_cases hretried :
          (f.client rt forwardTimeout).retried request (relay t.completions.length) = true
      · rw [if_pos ⟨hretried, Nat.succ_ne_zero attempts⟩]
        have hnext := ih { t with completions := t.completions ++ [p] }
        simp only [List.length_append, List.length_singleton] at hnext
        have hindex : ∀ j, t.completions.length + 1 + j = t.completions.length + (j + 1) := by
          intro j
          omega
        simp only [CommitsAgainRightly, List.forall_mem_cons] at hnext ⊢
        rw [hnext, temporary_iff_not_misjudged hretried]
        constructor
        · rintro ⟨⟨-, hfirst⟩, hrest⟩ k hk hbefore
          cases k with
          | zero => exact hfirst
          | succ k =>
              rw [← hindex]
              refine hrest k (by omega) fun j hj => ?_
              rw [hindex]
              exact hbefore (j + 1) (by omega)
        · intro h
          refine ⟨⟨by simp, h 0 (Nat.succ_pos _) fun j hj => absurd hj (Nat.not_lt_zero j)⟩, ?_⟩
          intro k hk hbefore
          rw [hindex]
          refine h (k + 1) (by omega) fun j hj => ?_
          cases j with
          | zero => exact hretried
          | succ j =>
              rw [← hindex]
              exact hbefore j (by omega)
      · rw [if_neg fun h => hretried h.1]
        constructor
        · intro _ k hk hbefore hmisjudged
          cases k with
          | zero =>
              apply hretried
              rw [retried_iff]
              rcases hmisjudged with hgarbled | hinvalid
              · exact .inl hgarbled.fails.1
              · exact .inr hinvalid
          | succ k => exact hretried (hbefore 0 (Nat.succ_pos k))
        · intro _ a ha
          cases ha

/-- A payload that has a text is sent, or it is over the limit. -/
theorem unsent_of_dumps {p : CompletionPayload V} {text : String} {exc : Raised}
    (hdumps : p.dumps rt = .ok text) (h : unsent rt (.ok p) = some exc) :
    ∃ e, exc = .api e ∧ e.statusCode = none ∧ e.body = .null := by
  simp only [unsent, hdumps] at h
  by_cases hsize : maxRelayJsonBytes < text.utf8ByteSize
  · rw [if_pos hsize] at h
    exact ⟨_, (Option.some.inj h).symm, rfl, rfl⟩
  · rw [if_neg hsize] at h
    cases h

/-- What keeps a response from being dispatched is an error without a status. -/
theorem unsent_responsePayload {body : Bytes} {status : ℤ} {headers : Option Headers}
    {exc : Raised}
    (h : unsent rt (responsePayload request (.bytes body) status headers) = some exc) :
    ∃ e, exc = .api e ∧ relayErrorIsRetryable e = true := by
  have hapi : ∀ e : ApiError, e.statusCode = none → e.body = .null →
      relayErrorIsRetryable e = true := by
    intro e hstatus hbody
    simp [relayErrorIsRetryable, retryable, hstatus, hbody, Json.asDict]
  cases hpayload : responsePayload request (.bytes body) status headers with
  | error exc' =>
      rw [hpayload] at h
      cases h
      simp only [responsePayload, encodedBody, validateHttpBodySize, leasedRequestPayload,
        validateRegistrationToken, bind, Except.bind] at hpayload
      by_cases hsize : maxRelayHttpBodyBytes < body.length
      · simp only [hsize, if_true, Except.error.injEq] at hpayload
        exact ⟨_, hpayload.symm, hapi _ rfl rfl⟩
      · simp only [hsize, if_false, pure, Except.pure] at hpayload
        split at hpayload
        · rename_i hlease
          split at hlease
          · rename_i htoken
            split at htoken
            · cases htoken
            · cases htoken
              cases hlease
              cases hpayload
              exact ⟨_, rfl, hapi _ rfl rfl⟩
          · split at hlease
            · cases hlease
              cases hpayload
              exact ⟨_, rfl, hapi _ rfl rfl⟩
            · cases hlease
        · cases hpayload
  | ok p =>
      rw [hpayload] at h
      simp only [responsePayload, encodedBody] at hpayload
      obtain ⟨encoded, hencoded, hpayload⟩ := bind_eq_ok hpayload
      obtain ⟨lease, -, hp⟩ := bind_eq_ok hpayload
      obtain ⟨-, -, hvalue⟩ := bind_eq_ok hencoded
      cases hvalue
      cases hp
      obtain ⟨e, he, hstatus, hbody⟩ := unsent_of_dumps rfl h
      exact ⟨e, he, hapi e hstatus hbody⟩

/-- A completion that cannot be sent is tried again without a request. -/
theorem mem_commitRetries_unsent {relay : ℕ → Reply}
    {payload : Except Raised (CompletionPayload V)} {e : ApiError}
    (hunsent : unsent rt payload = some (.api e)) (hretryable : relayErrorIsRetryable e = true)
    (attempts : ℕ) (t : Trace V) :
    ⟨t, t⟩ ∈ commitRetries ((f.client rt forwardTimeout).complete relay request payload)
      (attempts + 2) t := by
  have hrt : (f.client rt forwardTimeout).rt = rt := by cases f <;> rfl
  have hcall : (f.client rt forwardTimeout).complete relay request payload t =
      (t, .error (.api e)) := by
    rcases (f.client rt forwardTimeout).complete_cases relay request payload t with
      ⟨exc, hexc, hc⟩ | ⟨p, -, hnone, -⟩
    · rw [hrt, hunsent] at hexc
      cases hexc
      exact hc
    · rw [hrt, hunsent] at hnone
      cases hnone
  rw [commitRetries_of_call hcall, if_pos ⟨hretryable, Nat.succ_ne_zero attempts⟩]
  exact List.mem_cons_self

/-- A response is committed again rightly unless it cannot be sent or a reply is misjudged. -/
theorem commitsAgainRightly_iff (relay : ℕ → Reply) (body : Bytes) (status : ℤ)
    (headers : Option Headers) (attempts : ℕ) (t : Trace V) :
    CommitsAgainRightly rt f relay
        (commitRetries ((f.client rt forwardTimeout).respondTo relay request (.bytes body) status
          headers) (attempts + 1) t) ↔
      attempts = 0 ∨ unsent rt (responsePayload request (.bytes body) status headers) = none ∧
        ∀ k < attempts,
          (∀ j < k, (f.client rt forwardTimeout).retried request
            (relay (t.completions.length + j)) = true) →
          ¬ Misjudged rt f request (relay (t.completions.length + k)) := by
  cases hunsent : unsent rt (responsePayload request (.bytes body) status headers) with
  | none =>
      cases hpayload : (responsePayload request (.bytes body) status headers :
          Except Raised (CompletionPayload V)) with
      | error exc =>
          rw [hpayload] at hunsent
          cases hunsent
      | ok p =>
          rw [hpayload] at hunsent
          have hcall : (f.client rt forwardTimeout).respondTo relay request (.bytes body) status
              headers = (f.client rt forwardTimeout).complete relay request (.ok p) := by
            funext t'
            rw [RelayClient.respondTo, hpayload]
          rw [hcall, commitsAgainRightly_sent hunsent]
          simp only [true_and]
          constructor
          · exact .inr
          · rintro (hzero | h)
            · intro k hk
              omega
            · exact h
  | some exc =>
      obtain ⟨e, rfl, hretryable⟩ := unsent_responsePayload hunsent
      simp only [reduceCtorEq, false_and, or_false]
      cases attempts with
      | zero =>
          simp only [iff_true]
          have hnone : commitRetries ((f.client rt forwardTimeout).respondTo relay request
              (.bytes body) status headers) 1 t = [] := by
            rw [commitRetries_of_call (Prod.mk.eta).symm, if_neg fun h => h.2 rfl]
          rw [hnone]
          intro a ha
          cases ha
      | succ attempts =>
          simp only [Nat.succ_ne_zero, iff_false]
          intro h
          have hmem : ⟨t, t⟩ ∈ commitRetries ((f.client rt forwardTimeout).respondTo relay request
              (.bytes body) status headers) (attempts + 2) t :=
            mem_commitRetries_unsent hunsent hretryable attempts t
          have hlength := (h _ hmem).1
          simp at hlength

/-- `attempts` as a caller gives it. -/
theorem commitsAgainRightly_attempts (relay : ℕ → Reply) (body : Bytes) (status : ℤ)
    (headers : Option Headers) (attempts : ℤ) (t : Trace V) :
    CommitsAgainRightly rt f relay
        (commitRetries ((f.client rt forwardTimeout).respondTo relay request (.bytes body) status
          headers) (max 1 attempts).toNat t) ↔
      attempts ≤ 1 ∨ unsent rt (responsePayload request (.bytes body) status headers) = none ∧
        ∀ k : ℕ, (k : ℤ) + 1 < attempts →
          (∀ j < k, (f.client rt forwardTimeout).retried request
            (relay (t.completions.length + j)) = true) →
          ¬ Misjudged rt f request (relay (t.completions.length + k)) := by
  obtain ⟨n, hn⟩ : ∃ n : ℕ, (max 1 attempts).toNat = n + 1 := ⟨(max 1 attempts).toNat - 1, by omega⟩
  rw [hn, commitsAgainRightly_iff]
  have hzero : n = 0 ↔ attempts ≤ 1 := by omega
  have hlt : ∀ k : ℕ, k < n ↔ (k : ℤ) + 1 < attempts := by
    intro k
    omega
  simp only [hzero, hlt]

end Commit

end UcloudSandboxes.Relay
