import Mathlib.Order.Basic
import UcloudSandboxes.Relay.Decode

/-!
# Renewing a lease

A renewed request is the leased request again, with a later expiry and a transport state that may
only go forward. `_renewed_request` checks each answer against the request it is given. A chain that
gives it the request of the answer before keeps what earlier answers have set. The renewal loops of
the workers give it the request of the lease every time.

## Main results

* `renewedRequest_renews`: what one accepted answer may change.
* `renewals_renew`: what a chain of them may change.
* `renewLease_rejectsRollbacks_iff`: the leases whose renewal loop rejects every rollback.
-/
namespace UcloudSandboxes.Relay
open Python Http

/-- `==` of two optional floats. -/
def floatEq (sameNan : Bool) : Option PyFloat → Option PyFloat → Bool
  | none, none => true
  | some f, some g => f.eq sameNan g
  | _, _ => false

/-- `==` of two `dict`s of texts. -/
def headersEq (a b : Headers) : Bool :=
  a.all (fun header => b.lookup header.1 == a.lookup header.1) &&
    b.all fun header => b.lookup header.1 == a.lookup header.1

/-- `==` of two requests, field by field. `sameNan` says of a field whether the NaNs of the two
requests are one object there; in bodies they are, for `json.loads` has only one. -/
def RelayRequest.eq (sameNan : String → Bool) (r s : RelayRequest) : Bool :=
  r.requestId == s.requestId && r.rolloutId == s.rolloutId &&
    r.registrationToken == s.registrationToken && r.endpoint == s.endpoint &&
    r.method == s.method && headersEq r.headers s.headers &&
    r.body.eq s.body && r.bodyBytes == s.bodyBytes &&
    floatEq (sameNan "created_at") r.createdAt s.createdAt &&
    floatEq (sameNan "delivered_at") r.deliveredAt s.deliveredAt &&
    floatEq (sameNan "first_delivered_at") r.firstDeliveredAt s.firstDeliveredAt &&
    r.leaseId == s.leaseId &&
    floatEq (sameNan "lease_expires_at") r.leaseExpiresAt s.leaseExpiresAt &&
    r.leasedBy == s.leasedBy && r.deliveryCount == s.deliveryCount &&
    r.sandboxId == s.sandboxId && r.sandboxGeneration == s.sandboxGeneration &&
    floatEq (sameNan "expires_at") r.expiresAt s.expiresAt &&
    r.idempotencyKey == s.idempotencyKey && r.reattachable == s.reattachable &&
    floatEq (sameNan "accepted_notified_at") r.acceptedNotifiedAt s.acceptedNotifiedAt &&
    r.parkedTransportEpoch == s.parkedTransportEpoch

/-- `_valid_transport_state_transition`. -/
def validTransportStateTransition (previous renewed : RelayRequest) : Bool :=
  if previous.reattachable && !renewed.reattachable then false
  else if previous.acceptedNotifiedAt.isSome &&
      !floatEq false renewed.acceptedNotifiedAt previous.acceptedNotifiedAt then false
  else if previous.parkedTransportEpoch.isSome &&
      renewed.parkedTransportEpoch != previous.parkedTransportEpoch then false
  else !(renewed.parkedTransportEpoch.isSome && renewed.acceptedNotifiedAt.isNone)

/-- The error for an answer that does not renew the request. -/
def inconsistentRenewal (response : Dict) : ApiError where
  message := "relay returned an inconsistent renewed request"
  body := .dict response

/-- `replace(relay_request, ..)` with the four fields of the renewed request. -/
def RelayRequest.renewedAs (relayRequest renewed : RelayRequest) : RelayRequest :=
  { relayRequest with
    leaseExpiresAt := renewed.leaseExpiresAt
    reattachable := renewed.reattachable
    acceptedNotifiedAt := renewed.acceptedNotifiedAt
    parkedTransportEpoch := renewed.parkedTransportEpoch }

section
variable (py : Interpreter) (codec : RelayCodec) (sameNan : String → Bool)

/-- `_renewed_request`. -/
def renewedRequest (response : Dict) (relayRequest : RelayRequest) :
    Except Raised RelayRequest :=
  match (response.get "request").asDict with
  | none =>
      .error (.api {
        message := "relay returned an invalid renew payload", body := .dict response })
  | some requestPayload => do
      let renewed ← RelayRequest.fromPayload py codec requestPayload
      if !validTransportStateTransition relayRequest renewed then
        .error (.api (inconsistentRenewal response))
      else if !renewed.eq sameNan (relayRequest.renewedAs renewed) then
        .error (.api (inconsistentRenewal response))
      else .ok renewed

/-- `renew_request`, given what `_request_json` returns or raises. -/
def renewRequest (answer : Except Raised Dict) (relayRequest : RelayRequest) :
    Except Raised RelayRequest := do
  let response ← answer
  renewedRequest py codec sameNan response relayRequest

/-- The loop of both renewers: what `renew_request` makes of each answer, up to the first error that
is not retryable. -/
def renewLease (relayRequest : RelayRequest) :
    List (Except Raised Dict) → List (Except Raised RelayRequest)
  | [] => []
  | answer :: rest =>
      let verdict := renewRequest py codec sameNan answer relayRequest
      match verdict with
      | .ok _ => verdict :: renewLease relayRequest rest
      | .error (.api e) =>
          if relayErrorIsRetryable e then verdict :: renewLease relayRequest rest else [verdict]
      | .error _ => [verdict]

/-- `_renew_sync_lease`. -/
def renewSyncLease (relayRequest : RelayRequest) (answers : List (Except Raised Dict)) :
    List (Except Raised RelayRequest) :=
  renewLease py codec sameNan relayRequest answers

/-- `_renew_async_lease`. -/
def renewAsyncLease (relayRequest : RelayRequest) (answers : List (Except Raised Dict)) :
    List (Except Raised RelayRequest) :=
  renewLease py codec sameNan relayRequest answers

end

/-- The later request is the earlier one, up to the four fields a renewal may change. -/
structure SameDelivery (r s : RelayRequest) : Prop where
  fields : s = { r.renewedAs s with headers := s.headers, body := s.body }
  headers : ∀ name, s.headers.lookup name = r.headers.lookup name
  body : s.body.eq r.body = true

/-- The transport state has not gone back. -/
structure Forward (r s : RelayRequest) : Prop where
  reattachable : r.reattachable = true → s.reattachable = true
  acceptedNotifiedAt : ∀ t, r.acceptedNotifiedAt = some t → s.acceptedNotifiedAt = some t
  parkedTransportEpoch : ∀ e, r.parkedTransportEpoch = some e → s.parkedTransportEpoch = some e

/-- What one accepted answer, or a chain of them, may make of a request. -/
structure Renews (r s : RelayRequest) : Prop where
  delivery : SameDelivery r s
  forward : Forward r s
  parked_accepted : s.parkedTransportEpoch.isSome = true → s.acceptedNotifiedAt.isSome = true

theorem SameDelivery.trans {r s t : RelayRequest} (hrs : SameDelivery r s)
    (hst : SameDelivery s t) : SameDelivery r t where
  fields := by
    have hs := hrs.fields
    have ht := hst.fields
    rw [hs] at ht
    simpa [RelayRequest.renewedAs] using ht
  headers name := (hst.headers name).trans (hrs.headers name)
  body := Json.eq_trans _ _ _ hst.body hrs.body

theorem Forward.trans {r s t : RelayRequest} (hrs : Forward r s) (hst : Forward s t) :
    Forward r t where
  reattachable h := hst.reattachable (hrs.reattachable h)
  acceptedNotifiedAt u h := hst.acceptedNotifiedAt u (hrs.acceptedNotifiedAt u h)
  parkedTransportEpoch e h := hst.parkedTransportEpoch e (hrs.parkedTransportEpoch e h)

theorem Renews.trans {r s t : RelayRequest} (hrs : Renews r s) (hst : Renews s t) : Renews r t where
  delivery := hrs.delivery.trans hst.delivery
  forward := hrs.forward.trans hst.forward
  parked_accepted := hst.parked_accepted

theorem floatEq_eq {sameNan : Bool} {f g : Option PyFloat} (h : floatEq sameNan f g = true) :
    f = g := by
  cases f with
  | none => cases g <;> simp_all [floatEq]
  | some f =>
      cases g with
      | none => simp [floatEq] at h
      | some g => rw [PyFloat.eq_of_eq h]

/-- Equal `dict`s of texts have the same value for every name. -/
theorem headersEq_lookup {a b : Headers} (h : headersEq a b = true) (name : String) :
    a.lookup name = b.lookup name := by
  simp only [headersEq, Bool.and_eq_true, List.all_eq_true, beq_iff_eq] at h
  by_cases ha : ∃ value, (name, value) ∈ a
  · obtain ⟨value, hvalue⟩ := ha
    exact (h.1 _ hvalue).symm
  by_cases hb : ∃ value, (name, value) ∈ b
  · obtain ⟨value, hvalue⟩ := hb
    exact (h.2 _ hvalue).symm
  have hnone : ∀ l : Headers, (¬ ∃ value, (name, value) ∈ l) → l.lookup name = none := by
    intro l hl
    rw [List.lookup_eq_none_iff]
    intro header hheader
    by_contra hne
    simp only [bne_iff_ne, ne_eq, not_not] at hne
    subst hne
    exact hl ⟨header.2, hheader⟩
  rw [hnone a ha, hnone b hb]

/-- Equal requests agree in all fields, the headers and the body up to their own equality. -/
theorem RelayRequest.eq_fields {sameNan : String → Bool} {r s : RelayRequest}
    (h : r.eq sameNan s = true) :
    r = { s with headers := r.headers, body := r.body } ∧
      (∀ name, r.headers.lookup name = s.headers.lookup name) ∧ r.body.eq s.body = true := by
  simp only [RelayRequest.eq, Bool.and_eq_true, beq_iff_eq] at h
  obtain ⟨⟨⟨⟨⟨⟨⟨⟨⟨⟨⟨⟨⟨⟨⟨⟨⟨⟨⟨⟨⟨h1, h2⟩, h3⟩, h4⟩, h5⟩, h6⟩, h7⟩, h8⟩, h9⟩, h10⟩, h11⟩, h12⟩, h13⟩, h14⟩,
    h15⟩, h16⟩, h17⟩, h18⟩, h19⟩, h20⟩, h21⟩, h22⟩ := h
  refine ⟨?_, headersEq_lookup h6, h7⟩
  have h9 := floatEq_eq h9
  have h10 := floatEq_eq h10
  have h11 := floatEq_eq h11
  have h13 := floatEq_eq h13
  have h18 := floatEq_eq h18
  have h21 := floatEq_eq h21
  cases r
  cases s
  simp_all

/-- A transport state that passes the check has not gone back. -/
theorem validTransition_forward {previous renewed : RelayRequest}
    (h : validTransportStateTransition previous renewed = true) :
    Forward previous renewed ∧
      (renewed.parkedTransportEpoch.isSome = true → renewed.acceptedNotifiedAt.isSome = true) := by
  simp only [validTransportStateTransition] at h
  split_ifs at h with hreattachable haccepted hparked
  simp only [Bool.and_eq_true, Bool.not_eq_true', not_and, Bool.not_eq_false] at hreattachable
  simp only [Bool.and_eq_true, Bool.not_eq_true', not_and, Bool.not_eq_false] at haccepted
  simp only [Bool.and_eq_true, bne_iff_ne, ne_eq, not_and, not_not] at hparked
  refine ⟨⟨hreattachable, fun t ht => ?_, fun e he => ?_⟩, fun hparks => ?_⟩
  · have heq := floatEq_eq (haccepted (by rw [ht]; rfl))
    rw [heq, ht]
  · rw [hparked (by rw [he]; rfl), he]
  · by_contra hnone
    simp [hparks, Option.not_isSome_iff_eq_none.mp hnone] at h

section
variable {py : Interpreter} {codec : RelayCodec} {sameNan : String → Bool}

/-- What an accepted answer carries. -/
theorem renewedRequest_ok {response : Dict} {r s : RelayRequest}
    (h : renewedRequest py codec sameNan response r = .ok s) :
    ∃ payload, (response.get "request").asDict = some payload ∧
      RelayRequest.fromPayload py codec payload = .ok s ∧
      validTransportStateTransition r s = true ∧ s.eq sameNan (r.renewedAs s) = true := by
  simp only [renewedRequest] at h
  cases hpayload : (response.get "request").asDict with
  | none => simp [hpayload] at h
  | some payload =>
      simp only [hpayload] at h
      obtain ⟨renewed, hdecoded, h⟩ := bind_eq_ok h
      split_ifs at h with hvalid hsame
      cases h
      exact ⟨payload, rfl, hdecoded, by simpa using hvalid, by simpa using hsame⟩

/-- One accepted answer renews the request it was checked against. -/
theorem renewedRequest_renews {response : Dict} {r s : RelayRequest}
    (h : renewedRequest py codec sameNan response r = .ok s) : Renews r s := by
  obtain ⟨payload, -, -, hvalid, hsame⟩ := renewedRequest_ok h
  obtain ⟨hfields, hheaders, hbody⟩ := RelayRequest.eq_fields hsame
  obtain ⟨hforward, hparked⟩ := validTransition_forward hvalid
  exact ⟨⟨hfields, hheaders, hbody⟩, hforward, hparked⟩

end

/-- **Chains of renewals.** A request of a chain renews every earlier one. -/
theorem renewals_renew (py : Interpreter) (codec : RelayCodec) (sameNan : ℕ → String → Bool)
    (answer : ℕ → Dict) (request : ℕ → RelayRequest) (n : ℕ)
    (h : ∀ i < n,
      renewedRequest py codec (sameNan i) (answer i) (request i) = .ok (request (i + 1))) :
    ∀ i j, i < j → j ≤ n → Renews (request i) (request j) := by
  intro i j hij
  induction j, hij using Nat.le_induction with
  | base =>
      intro hn
      exact renewedRequest_renews (h i hn)
  | succ j hij ih =>
      intro hn
      have hbefore : Renews (request i) (request j) := ih (by omega)
      exact hbefore.trans (renewedRequest_renews (h j (by omega)))

/-- The payload of the lease with another transport state and expiry. -/
def withTransport (payload : Dict) (reattachable : Bool) (accepted : PyFloat) (epoch : String) :
    Dict :=
  ("reattachable", .bool reattachable) :: ("accepted_notified_at", .float accepted) ::
    ("parked_transport_epoch", .str epoch) :: ("lease_expires_at", .float (.finite 0)) ::
    payload.filter fun item => !(["reattachable", "accepted_notified_at", "parked_transport_epoch",
      "lease_expires_at"].contains item.1)

/-- An answer that carries it. -/
def transportAnswer (payload : Dict) (reattachable : Bool) (accepted : PyFloat) (epoch : String) :
    Dict :=
  [("request", .dict (withTransport payload reattachable accepted epoch))]

/-- An interpreter and a codec that know the JSON text `null`. -/
def nullInterpreter : Interpreter := .ascii [("null", .null)]

def nullCodec : RelayCodec where
  dumps _ := .ok "null".toUTF8.toList
  floatOfInt n := some (.finite n)

/-- A request as it is leased, with nothing of its transport state set. -/
def leasedPayload : Dict :=
  [("request_id", .str "q1"), ("rollout_id", .str "r1"),
    ("registration_token", .str "0123456789abcdef0123456789abcdef"), ("lease_id", .str "l1"),
    ("body", .dict [("encoding", .str "json"), ("value", .null)])]

theorem ok_getD {ε α : Type} {x : Except ε α} (d : α) (h : x.isOk = true) :
    x = .ok (x.toOption.getD d) := by
  cases x with
  | error e => cases h
  | ok a => rfl

deriving instance Inhabited for RelayRequest

/-- What a payload decodes to. -/
def decodedRequest (payload : Dict) : RelayRequest :=
  (RelayRequest.fromPayload nullInterpreter nullCodec payload).toOption.getD default

/-- The requests of a chain of renewals. -/
def renewedRequests (answer : ℕ → Dict) : ℕ → RelayRequest
  | 0 => decodedRequest leasedPayload
  | i + 1 =>
      (renewedRequest nullInterpreter nullCodec (fun _ => true) (answer i)
        (renewedRequests answer i)).toOption.getD default

/-- The relay accepts the request at second 4, and parks its transport afterwards. -/
def forwardAnswer : ℕ → Dict
  | 0 => [("request", .dict (("accepted_notified_at", .float (.finite 4)) :: leasedPayload))]
  | _ => transportAnswer leasedPayload true (.finite 4) "a"

theorem renewals_renew_parked :
    Renews (decodedRequest leasedPayload) (renewedRequests forwardAnswer 2) := by
  have haccepted : ∀ i < 2, (renewedRequest nullInterpreter nullCodec (fun _ => true)
      (forwardAnswer i) (renewedRequests forwardAnswer i)).isOk = true := by decide +kernel
  exact renewals_renew nullInterpreter nullCodec (fun _ _ => true) forwardAnswer
    (renewedRequests forwardAnswer) 2 (fun i hi => ok_getD default (haccepted i hi)) 0 2
    (by omega) le_rfl

/-- The transport state of the later request has gone back. -/
def RolledBack (r s : RelayRequest) : Prop :=
  (r.reattachable = true ∧ s.reattachable = false) ∨
    (∃ t, r.acceptedNotifiedAt = some t ∧ s.acceptedNotifiedAt ≠ some t) ∨
    ∃ e, r.parkedTransportEpoch = some e ∧ s.parkedTransportEpoch ≠ some e

/-- The request that an answer of the relay shows. -/
def shownRequest (py : Interpreter) (codec : RelayCodec) (response : Dict) :
    Except Raised RelayRequest :=
  match (response.get "request").asDict with
  | none => .error (.builtin .other "the answer carries no request")
  | some payload => RelayRequest.fromPayload py codec payload

/-- Where an earlier answer was accepted, an answer that shows a rollback from it is rejected as
inconsistent, if it is seen. -/
def RejectsRollbacks (py : Interpreter) (codec : RelayCodec) (answers : List (Except Raised Dict))
    (verdicts : List (Except Raised RelayRequest)) : Prop :=
  ∀ (i j : ℕ) (accepted shown : RelayRequest) (response : Dict)
    (verdict : Except Raised RelayRequest), i < j → verdicts[i]? = some (.ok accepted) →
    answers[j]? = some (.ok response) → shownRequest py codec response = .ok shown →
    RolledBack accepted shown → verdicts[j]? = some verdict →
    verdict = .error (.api (inconsistentRenewal response))

/-- Nothing of the transport state is left to be set. -/
def RelayRequest.Settled (r : RelayRequest) : Prop :=
  r.reattachable = true ∧ r.acceptedNotifiedAt.isSome = true ∧ r.parkedTransportEpoch.isSome = true

instance (r : RelayRequest) : Decidable r.Settled :=
  inferInstanceAs (Decidable (_ ∧ _ ∧ _))

/-- A time of the request is a NaN, which no answer repeats. -/
def RelayRequest.Unrepeatable (sameNan : String → Bool) (r : RelayRequest) : Prop :=
  r.acceptedNotifiedAt = some .nan ∨
    ∃ field ∈ [("created_at", r.createdAt), ("delivered_at", r.deliveredAt),
      ("first_delivered_at", r.firstDeliveredAt), ("expires_at", r.expiresAt)],
      field.2 = some .nan ∧ sameNan field.1 = false

section
variable {py : Interpreter} {codec : RelayCodec} {sameNan : String → Bool} {r : RelayRequest}

/-- The loop gives every answer that it sees to `renew_request`, with the request of the lease. -/
theorem renewLease_verdict {answers : List (Except Raised Dict)} {j : ℕ}
    {verdict : Except Raised RelayRequest}
    (h : (renewLease py codec sameNan r answers)[j]? = some verdict) :
    ∃ answer, answers[j]? = some answer ∧ renewRequest py codec sameNan answer r = verdict := by
  induction answers generalizing j with
  | nil => simp [renewLease] at h
  | cons answer rest ih =>
      cases j with
      | zero =>
          refine ⟨answer, rfl, ?_⟩
          simp only [renewLease] at h
          split at h
          · simpa using h
          · split at h <;> simpa using h
          · simpa using h
      | succ j =>
          refine ih ?_
          simp only [renewLease] at h
          split at h
          · simpa using h
          · split at h
            · simpa using h
            · simp at h
          · simp at h

/-- Where a rollback from the request of the lease is shown, the answer is rejected. -/
theorem renewedRequest_rolledBack {response : Dict} {shown : RelayRequest}
    (hshown : shownRequest py codec response = .ok shown) (hback : RolledBack r shown) :
    renewedRequest py codec sameNan response r =
      .error (.api (inconsistentRenewal response)) := by
  simp only [shownRequest] at hshown
  cases hpayload : (response.get "request").asDict with
  | none => simp [hpayload] at hshown
  | some payload =>
      simp only [hpayload] at hshown
      have hinvalid : validTransportStateTransition r shown = false := by
        by_contra hvalid
        have hforward := (validTransition_forward (by simpa using hvalid)).1
        rcases hback with ⟨hr, hs⟩ | ⟨t, hr, hs⟩ | ⟨e, hr, hs⟩
        · rw [hforward.reattachable hr] at hs
          cases hs
        · exact hs (hforward.acceptedNotifiedAt t hr)
        · exact hs (hforward.parkedTransportEpoch e hr)
      simp [renewedRequest, hpayload, hshown, hinvalid, bind, Except.bind]

/-- Where nothing is left to be set, an accepted answer has the transport state of the lease. -/
theorem RolledBack.of_settled {s shown : RelayRequest} (hsettled : r.Settled)
    (hforward : Forward r s)
    (hback : RolledBack s shown) : RolledBack r shown := by
  obtain ⟨hreattachable, haccepted, hparked⟩ := hsettled
  obtain ⟨t, ht⟩ := Option.isSome_iff_exists.mp haccepted
  obtain ⟨e, he⟩ := Option.isSome_iff_exists.mp hparked
  have ht' := hforward.acceptedNotifiedAt t ht
  have he' := hforward.parkedTransportEpoch e he
  rcases hback with ⟨_, hs⟩ | ⟨u, hu, hs⟩ | ⟨f, hf, hs⟩
  · exact .inl ⟨hreattachable, hs⟩
  · rw [ht'] at hu
    exact .inr (.inl ⟨t, ht, by rw [Option.some.inj hu]; exact hs⟩)
  · rw [he'] at hf
    exact .inr (.inr ⟨e, he, by rw [Option.some.inj hf]; exact hs⟩)

/-- A loop whose lease is settled rejects every rollback. -/
theorem renewLease_rejectsRollbacks (hsettled : r.Settled) (answers : List (Except Raised Dict)) :
    RejectsRollbacks py codec answers (renewLease py codec sameNan r answers) := by
  intro i j accepted shown response verdict _ haccepted hresponse hshown hback hverdict
  obtain ⟨answer, _, hok⟩ := renewLease_verdict haccepted
  obtain ⟨earlier, _, hrenewed⟩ := bind_eq_ok hok
  have hforward := (renewedRequest_renews hrenewed).forward
  obtain ⟨answer', hanswer', hverdict⟩ := renewLease_verdict hverdict
  rw [hresponse] at hanswer'
  cases hanswer'
  rw [← hverdict]
  exact renewedRequest_rolledBack hshown (hback.of_settled hsettled hforward)

/-- Only a NaN differs from itself. -/
theorem floatEq_self_iff {same : Bool} {f : Option PyFloat} :
    floatEq same f f = true ↔ ¬ (f = some .nan ∧ same = false) := by
  cases f with
  | none => simp [floatEq]
  | some f => cases f <;> simp [floatEq, PyFloat.eq]

theorem floatEq_right {same : Bool} {f g : Option PyFloat} (h : floatEq same f g = true) :
    ¬ (g = some .nan ∧ same = false) := by
  rw [floatEq_eq h] at h
  exact floatEq_self_iff.mp h

/-- An accepted answer repeats the times of the lease. -/
theorem renewedRequest_repeats {response : Dict} {s : RelayRequest}
    (h : renewedRequest py codec sameNan response r = .ok s) : ¬ r.Unrepeatable sameNan := by
  obtain ⟨payload, -, -, hvalid, hsame⟩ := renewedRequest_ok h
  have hforward := (validTransition_forward hvalid).1
  simp only [RelayRequest.eq, RelayRequest.renewedAs, Bool.and_eq_true] at hsame
  obtain ⟨⟨⟨⟨⟨⟨⟨⟨⟨⟨⟨⟨⟨⟨-, hcreated⟩, hdelivered⟩, hfirst⟩, -⟩, -⟩, -⟩, -⟩, -⟩, -⟩, hexpires⟩, -⟩, -⟩, -⟩,
    -⟩ := hsame
  intro hunrepeatable
  rcases hunrepeatable with hnan | ⟨field, hfield, hdiffers⟩
  · have haccepted := hforward.acceptedNotifiedAt _ hnan
    simp [validTransportStateTransition, hnan, haccepted, floatEq, PyFloat.eq] at hvalid
  · simp only [List.mem_cons, List.not_mem_nil, or_false] at hfield
    rcases hfield with rfl | rfl | rfl | rfl
    · exact floatEq_right hcreated hdiffers
    · exact floatEq_right hdelivered hdiffers
    · exact floatEq_right hfirst hdiffers
    · exact floatEq_right hexpires hdiffers

end

theorem lookup_filter {d : Dict} {p : String → Bool} {key : String} (h : p key = true) :
    (d.filter fun item => p item.1).lookup key = d.lookup key := by
  induction d with
  | nil => rfl
  | cons item rest ih =>
      obtain ⟨k, v⟩ := item
      by_cases hkey : key = k
      · subst hkey
        simp [h]
      · have hne : (key == k) = false := by simpa using hkey
        by_cases hp : p k = true
        · simp [hp, List.lookup_cons, hne, ih]
        · simp [hp, List.lookup_cons, hne, ih]

theorem withTransport_get {payload : Dict} {b : Bool} {t : PyFloat} {e key : String}
    (h : key ∉ ["reattachable", "accepted_notified_at", "parked_transport_epoch",
      "lease_expires_at"]) :
    (withTransport payload b t e).get key = payload.get key := by
  have hfilter := @lookup_filter payload (fun k => !(["reattachable", "accepted_notified_at",
    "parked_transport_epoch", "lease_expires_at"].contains k)) key (by simpa using h)
  simp only [List.mem_cons, List.not_mem_nil, or_false, not_or] at h
  obtain ⟨h1, h2, h3, h4⟩ := h
  simp only [withTransport, Dict.get, List.lookup_cons, beq_eq_false_iff_ne.mpr h1,
    beq_eq_false_iff_ne.mpr h2, beq_eq_false_iff_ne.mpr h3, beq_eq_false_iff_ne.mpr h4, hfilter]

theorem requiredString_ok_iff {payload : Dict} {field value : String} :
    requiredString payload field = .ok value ↔ payload.get field = .str value ∧ value ≠ "" := by
  simp only [requiredString]
  split
  · rename_i found hfound
    by_cases hempty : found = ""
    · subst hempty
      simp [hfound, eq_comm]
    · simp only [hempty, if_false, Except.ok.injEq, hfound, Json.str.injEq]
      constructor
      · intro h
        subst h
        exact ⟨rfl, hempty⟩
      · exact fun h => h.1
  · rename_i hother
    simp only [reduceCtorEq, false_iff, not_and]
    intro hget
    exact (hother value hget).elim

section
variable {py : Interpreter} {codec : RelayCodec}

theorem mapError_eq_ok_iff {ε ε' α : Type} {x : Except ε α} {f : ε → ε'} {a : α} :
    x.mapError f = .ok a ↔ x = .ok a := by
  cases x <;> simp [Except.mapError]

/-- What a body decodes to does not depend on the payload around it. -/
theorem decodeBody_payload {body : Json} {payload payload' : Dict} {decoded : Json × Bytes}
    (h : decodeBody py codec body payload = .ok decoded) :
    decodeBody py codec body payload' = .ok decoded := by
  simp only [decodeBody, decodeBody.malformed] at h ⊢
  cases hbody : body.asDict with
  | none => simp [hbody] at h
  | some fields =>
      simp only [hbody] at h ⊢
      split_ifs at h ⊢ with hkeys hjson
      · rw [mapError_eq_ok_iff] at h ⊢
        exact h
      · grind

/-- The payload decodes to the lease with the other transport state and expiry. -/
theorem fromPayload_withTransport {payload : Dict} {r : RelayRequest}
    (h : RelayRequest.fromPayload py codec payload = .ok r) (b : Bool) (t : PyFloat) (e : String) :
    RelayRequest.fromPayload py codec (withTransport payload b t e) = .ok { r with
      leaseExpiresAt := some (.finite 0), reattachable := b, acceptedNotifiedAt := some t
      parkedTransportEpoch := some e } := by
  obtain ⟨requestId, hrequestId, h⟩ := bind_eq_ok h
  obtain ⟨rolloutId, hrolloutId, h⟩ := bind_eq_ok h
  obtain ⟨registrationToken, hregistrationToken, h⟩ := bind_eq_ok h
  obtain ⟨leaseId, hleaseId, h⟩ := bind_eq_ok h
  obtain ⟨⟨⟩, htoken, h⟩ := bind_eq_ok h
  obtain ⟨⟨body, bodyBytes⟩, hbody, h⟩ := bind_eq_ok h
  obtain ⟨⟨⟩, hsize, h⟩ := bind_eq_ok h
  obtain ⟨createdAt, hcreatedAt, h⟩ := bind_eq_ok h
  obtain ⟨deliveredAt, hdeliveredAt, h⟩ := bind_eq_ok h
  obtain ⟨firstDeliveredAt, hfirstDeliveredAt, h⟩ := bind_eq_ok h
  obtain ⟨leaseExpiresAt, _, h⟩ := bind_eq_ok h
  obtain ⟨deliveryCount, hdeliveryCount, h⟩ := bind_eq_ok h
  obtain ⟨sandboxGeneration, hsandboxGeneration, h⟩ := bind_eq_ok h
  obtain ⟨expiresAt, hexpiresAt, h⟩ := bind_eq_ok h
  obtain ⟨reattachable, _, h⟩ := bind_eq_ok h
  obtain ⟨acceptedNotifiedAt, _, h⟩ := bind_eq_ok h
  cases h
  have hget : ∀ key, key ∉ ["reattachable", "accepted_notified_at", "parked_transport_epoch",
      "lease_expires_at"] → (withTransport payload b t e).get key = payload.get key :=
    fun key => withTransport_get
  have hrequired : ∀ field value, field ∉ ["reattachable", "accepted_notified_at",
      "parked_transport_epoch", "lease_expires_at"] → requiredString payload field = .ok value →
      requiredString (withTransport payload b t e) field = .ok value := by
    intro field value hfield hvalue
    rw [requiredString_ok_iff] at hvalue ⊢
    rw [hget field hfield]
    exact hvalue
  have hreattachable : optionalBool ((withTransport payload b t e).get "reattachable") false =
      .ok b := rfl
  have haccepted : optionalFloat py codec
      ((withTransport payload b t e).get "accepted_notified_at") = .ok (some t) := rfl
  have hepoch : optionalString py
      ((withTransport payload b t e).get "parked_transport_epoch") = some e := rfl
  have hexpiry : optionalFloat py codec
      ((withTransport payload b t e).get "lease_expires_at") = .ok (some (.finite 0)) := rfl
  simp only [RelayRequest.fromPayload, hrequired _ _ (by decide) hrequestId,
    hrequired _ _ (by decide) hrolloutId, hrequired _ _ (by decide) hregistrationToken,
    hrequired _ _ (by decide) hleaseId, htoken, hget "body" (by decide), decodeBody_payload hbody,
    hsize, hget "created_at" (by decide), hcreatedAt, hget "delivered_at" (by decide), hdeliveredAt,
    hget "first_delivered_at" (by decide), hfirstDeliveredAt, hexpiry,
    hget "delivery_count" (by decide), hdeliveryCount, hget "sandbox_generation" (by decide),
    hsandboxGeneration, hget "expires_at" (by decide), hexpiresAt, hreattachable, haccepted, hepoch,
    hget "endpoint" (by decide), hget "method" (by decide), hget "headers" (by decide),
    hget "leased_by" (by decide), hget "sandbox_id" (by decide),
    hget "idempotency_key" (by decide), bind, Except.bind, pure, Except.pure]

variable {sameNan : String → Bool} {payload : Dict} {r : RelayRequest}

/-- An answer whose transport state goes forward from that of the lease is accepted. -/
theorem renewRequest_transportAnswer (h : RelayRequest.fromPayload py codec payload = .ok r)
    (hrepeatable : ¬ r.Unrepeatable sameNan) {b : Bool} {t : PyFloat} {e : String} (ht : t ≠ .nan)
    (hb : r.reattachable = true → b = true) (haccepted : ∀ u, r.acceptedNotifiedAt = some u → u = t)
    (hparked : ∀ f, r.parkedTransportEpoch = some f → f = e) :
    renewRequest py codec sameNan (.ok (transportAnswer payload b t e)) r = .ok { r with
      leaseExpiresAt := some (.finite 0), reattachable := b, acceptedNotifiedAt := some t
      parkedTransportEpoch := some e } := by
  set renewed : RelayRequest := { r with
    leaseExpiresAt := some (.finite 0), reattachable := b, acceptedNotifiedAt := some t
    parkedTransportEpoch := some e } with hrenewed
  have hdecoded : RelayRequest.fromPayload py codec (withTransport payload b t e) = .ok renewed :=
    fromPayload_withTransport h b t e
  have ht' : floatEq false (some t) (some t) = true :=
    floatEq_self_iff.mpr fun hnan => ht (Option.some.inj hnan.1)
  have hvalid : validTransportStateTransition r renewed = true := by
    have hreattachable : (r.reattachable && !b) = false := by
      cases hr : r.reattachable with
      | false => rfl
      | true => rw [hb hr]; rfl
    have hnotified : (r.acceptedNotifiedAt.isSome &&
        !floatEq false (some t) r.acceptedNotifiedAt) = false := by
      cases hr : r.acceptedNotifiedAt with
      | none => rfl
      | some u => rw [haccepted u hr, ht']; rfl
    have hepoch : (r.parkedTransportEpoch.isSome && some e != r.parkedTransportEpoch) = false := by
      cases hr : r.parkedTransportEpoch with
      | none => rfl
      | some f => simp [hparked f hr]
    simp [validTransportStateTransition, hrenewed, hreattachable, hnotified, hepoch]
  have hsame : renewed.eq sameNan (r.renewedAs renewed) = true := by
    have htimes : ∀ field ∈ [("created_at", r.createdAt), ("delivered_at", r.deliveredAt),
        ("first_delivered_at", r.firstDeliveredAt), ("expires_at", r.expiresAt)],
        floatEq (sameNan field.1) field.2 field.2 = true := by
      intro field hfield
      rw [floatEq_self_iff]
      exact fun hnan => hrepeatable (.inr ⟨field, hfield, hnan⟩)
    have hexpiry : floatEq (sameNan "lease_expires_at") (some (.finite 0)) (some (.finite 0)) =
        true := floatEq_self_iff.mpr (by simp)
    have hnotified : floatEq (sameNan "accepted_notified_at") (some t) (some t) = true :=
      floatEq_self_iff.mpr fun hnan => ht (Option.some.inj hnan.1)
    simp only [List.forall_mem_cons] at htimes
    obtain ⟨hcreated, hdelivered, hfirst, hexpires, -⟩ := htimes
    have hheaders : headersEq r.headers r.headers = true := by simp [headersEq]
    simp [RelayRequest.eq, RelayRequest.renewedAs, hrenewed, hcreated, hdelivered, hfirst, hexpires,
      hexpiry, hnotified, hheaders, Json.eq_refl]
  simp [renewRequest, renewedRequest, transportAnswer, Dict.get, Json.asDict, hdecoded, hvalid,
    hsame, bind, Except.bind]

/-- Two accepted answers, the second of which shows a rollback from the first. -/
theorem not_rejectsRollbacks (h : RelayRequest.fromPayload py codec payload = .ok r)
    {b b' : Bool} {t t' : PyFloat} {e e' : String} {s s' : RelayRequest}
    (hs : renewRequest py codec sameNan (.ok (transportAnswer payload b t e)) r = .ok s)
    (hs' : renewRequest py codec sameNan (.ok (transportAnswer payload b' t' e')) r = .ok s')
    (hback : RolledBack s { r with
      leaseExpiresAt := some (.finite 0), reattachable := b', acceptedNotifiedAt := some t'
      parkedTransportEpoch := some e' }) :
    ¬ RejectsRollbacks py codec
      [.ok (transportAnswer payload b t e), .ok (transportAnswer payload b' t' e')]
      (renewLease py codec sameNan r
        [.ok (transportAnswer payload b t e), .ok (transportAnswer payload b' t' e')]) := by
  intro hrejects
  have hverdicts : renewLease py codec sameNan r
      [.ok (transportAnswer payload b t e), .ok (transportAnswer payload b' t' e')] =
      [.ok s, .ok s'] := by
    simp only [renewLease, hs, hs']
  have hshown := fromPayload_withTransport h b' t' e'
  have hverdict := hrejects 0 1 s _ (transportAnswer payload b' t' e') (.ok s') (by omega)
    (by rw [hverdicts]; rfl) rfl hshown hback (by rw [hverdicts]; rfl)
  cases hverdict

/-- Where something is left to be set, two answers may set it differently. -/
theorem exists_not_rejectsRollbacks (h : RelayRequest.fromPayload py codec payload = .ok r)
    (hunsettled : ¬ r.Settled) (hrepeatable : ¬ r.Unrepeatable sameNan) :
    ∃ answers, ¬ RejectsRollbacks py codec answers (renewLease py codec sameNan r answers) := by
  have haccepts := fun {b t e} => @renewRequest_transportAnswer py codec sameNan payload r h
    hrepeatable b t e
  set t := r.acceptedNotifiedAt.getD (.finite 4) with ht
  set e := r.parkedTransportEpoch.getD "a" with he
  have hnan : t ≠ .nan := by
    cases hr : r.acceptedNotifiedAt with
    | none => simp [ht, hr]
    | some u =>
        intro hu
        rw [ht, hr, Option.getD_some] at hu
        exact hrepeatable (.inl (by rw [hr, hu]))
  have htime : ∀ u, r.acceptedNotifiedAt = some u → u = t := fun u hu => by rw [ht, hu]; rfl
  have hepoch : ∀ f, r.parkedTransportEpoch = some f → f = e := fun f hf => by rw [he, hf]; rfl
  by_cases hreattachable : r.reattachable = true
  · by_cases haccepted : r.acceptedNotifiedAt.isSome = true
    · -- The epoch is left to be set.
      have hnone : r.parkedTransportEpoch = none := by
        rw [← Option.not_isSome_iff_eq_none]
        exact fun hparked => hunsettled ⟨hreattachable, haccepted, hparked⟩
      refine ⟨_, not_rejectsRollbacks h
        (haccepts hnan (b := true) (e := "a") (fun _ => rfl) htime (by simp [hnone]))
        (haccepts hnan (b := true) (e := "b") (fun _ => rfl) htime (by simp [hnone])) ?_⟩
      exact .inr (.inr ⟨"a", rfl, by simp⟩)
    · have hnone : r.acceptedNotifiedAt = none := Option.not_isSome_iff_eq_none.mp haccepted
      refine ⟨_, not_rejectsRollbacks h
        (haccepts (b := true) (t := .finite 4) (by simp) (fun _ => rfl) (by simp [hnone]) hepoch)
        (haccepts (b := true) (t := .finite 5) (by simp) (fun _ => rfl) (by simp [hnone]) hepoch) ?_⟩
      exact .inr (.inl ⟨.finite 4, rfl, by simp⟩)
  · refine ⟨_, not_rejectsRollbacks h (haccepts (b := true) hnan (fun _ => rfl) htime hepoch)
      (haccepts (b := false) hnan (fun hr => absurd hr hreattachable) htime hepoch) ?_⟩
    exact .inl ⟨rfl, rfl⟩

/-- **Renewal loops.** The loop of a lease rejects every rollback exactly when the lease leaves
nothing of its transport state to be set, or is never renewed because of a NaN. -/
theorem renewLease_rejectsRollbacks_iff (py : Interpreter) (codec : RelayCodec)
    (sameNan : String → Bool) (payload : Dict) (r : RelayRequest)
    (h : RelayRequest.fromPayload py codec payload = .ok r) :
    (∀ answers,
      RejectsRollbacks py codec answers (renewSyncLease py codec sameNan r answers) ∧
        RejectsRollbacks py codec answers (renewAsyncLease py codec sameNan r answers)) ↔
      r.Settled ∨ r.Unrepeatable sameNan := by
  constructor
  · intro hrejects
    by_contra hneither
    rw [not_or] at hneither
    obtain ⟨answers, hanswers⟩ := exists_not_rejectsRollbacks h hneither.1 hneither.2
    exact hanswers (hrejects answers).1
  · intro hcases answers
    have hloop : RejectsRollbacks py codec answers (renewLease py codec sameNan r answers) := by
      rcases hcases with hsettled | hunrepeatable
      · exact renewLease_rejectsRollbacks hsettled answers
      · intro i j accepted shown response verdict _ haccepted _ _ _ _
        obtain ⟨answer, _, hok⟩ := renewLease_verdict haccepted
        obtain ⟨earlier, _, hrenewed⟩ := bind_eq_ok hok
        exact absurd hunrepeatable (renewedRequest_repeats hrenewed)
    exact ⟨hloop, hloop⟩

end

/-- A lease whose transport state is set already. -/
def settledPayload : Dict := withTransport leasedPayload true (.finite 4) "a"

/-- The relay accepts the request at second 4, and then at second 5. -/
def reacceptedAnswers : List (Except Raised Dict) :=
  [.ok (transportAnswer leasedPayload true (.finite 4) "a"),
    .ok (transportAnswer leasedPayload true (.finite 5) "a")]

/-- Both answers are accepted when the lease has no time of acceptance. -/
theorem reaccepted_not_rejected :
    ¬ RejectsRollbacks nullInterpreter nullCodec reacceptedAnswers
      (renewSyncLease nullInterpreter nullCodec (fun _ => true) (decodedRequest leasedPayload)
        reacceptedAnswers) ∧
    ¬ RejectsRollbacks nullInterpreter nullCodec reacceptedAnswers
      (renewAsyncLease nullInterpreter nullCodec (fun _ => true) (decodedRequest leasedPayload)
        reacceptedAnswers) := by
  have hleased := ok_getD (x := RelayRequest.fromPayload nullInterpreter nullCodec leasedPayload)
    default (by decide +kernel)
  have hfirst := ok_getD (x := renewRequest nullInterpreter nullCodec (fun _ => true)
    (.ok (transportAnswer leasedPayload true (.finite 4) "a")) (decodedRequest leasedPayload))
    default (by decide +kernel)
  have hsecond := ok_getD (x := renewRequest nullInterpreter nullCodec (fun _ => true)
    (.ok (transportAnswer leasedPayload true (.finite 5) "a")) (decodedRequest leasedPayload))
    default (by decide +kernel)
  have hback := not_rejectsRollbacks hleased hfirst hsecond
    (.inr (.inl ⟨.finite 4, by decide +kernel, by simp⟩))
  exact ⟨hback, hback⟩

/-- They are not when it was accepted at second 4. -/
theorem renewLease_rejectsRollbacks_settled :
    RejectsRollbacks nullInterpreter nullCodec reacceptedAnswers
      (renewSyncLease nullInterpreter nullCodec (fun _ => true) (decodedRequest settledPayload)
        reacceptedAnswers) :=
  ((renewLease_rejectsRollbacks_iff nullInterpreter nullCodec (fun _ => true) settledPayload
    (decodedRequest settledPayload) (ok_getD default (by decide +kernel))).mpr
      (.inl (by decide +kernel)) reacceptedAnswers).1

end UcloudSandboxes.Relay
