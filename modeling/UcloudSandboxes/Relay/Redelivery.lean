import UcloudSandboxes.Relay.Handling

/-!
# Lost acknowledgements

In an `Outage` the relay answers `n` completion calls with retryable failures and then accepts. A
completion is `Redelivered` if it is sent identically until it is accepted, after one call of the
handler or the upstream, and the handling ends as the renewals say.

## Main results

* `redelivered_iff`: a forwarded response is redelivered as long as the failures ask for it again;
  a handler's result, and an error completion, only if nothing is lost.
* `handler_result_lost`: one lost acknowledgement ends a worker in handler mode.
-/
namespace UcloudSandboxes.Relay
open Python Http

variable {V : Type}

/-- A failure that does not say that the completion is refused. -/
def RetryableFailure (e : ApiError) : Prop :=
  e.statusCode = none ∨
    (∃ status, e.statusCode = some status ∧ (500 ≤ status ∧ status < 600 ∨ status = 429)) ∨
    retryable e = some true

/-- The relay fails `n` completion calls and accepts the next one. -/
structure Outage (c : RelayClient V) (relay : ℕ → Reply) (request : RelayRequest) (n : ℕ) :
    Prop where
  bounded : n < 60
  failures : ∀ i < n, ∃ e, c.receipt request (relay i) = .error (.api e) ∧ RetryableFailure e
  accepts : ∃ receipt, c.receipt request (relay n) = .ok receipt

/-- The completion of the request: the one that is chosen, or the error that takes its place. -/
def CompletedBy (c : RelayClient V) (request : RelayRequest) (work : Work V)
    (p : CompletionPayload V) : Prop :=
  c.chosen request work = .ok p ∨
    ∃ exc, unsent c.rt (c.chosen request work) = some exc ∧ Foreign exc ∧
      errorPayload request (c.errorText exc) 502 = .ok p

/-- The completion is sent `n + 1` times, and the handling ends as if it had been sent once. -/
def Redelivered (c : RelayClient V) (relay : ℕ → Reply) (request : RelayRequest) (work : Work V)
    (renewal : Option Raised) (n : ℕ) : Prop :=
  ∃ p, CompletedBy c request work p ∧ c.handleRequest relay request work renewal =
    ({ invocations := 1, completions := List.replicate (n + 1) p },
      RelayClient.afterRenewals renewal)

/-- The failure says that it may be repeated, or says nothing and has no status or a transient one;
and its status is not one that refuses the completion. -/
def AsksAgain (e : ApiError) : Prop :=
  (∀ status, e.statusCode = some status → status ∉ [400, 401, 403, 404, 409, 410, 422]) ∧
    (retryable e = some true ∨ retryable e = none ∧
      ∀ status, e.statusCode = some status → status ∈ [408, 425, 429, 500, 502, 503, 504])

/-- The completion of the `try` block can be sent, and nothing is lost or it is a forwarded
response and every failure asks for it again; or the error completion is sent, and nothing is
lost. -/
def Redelivers (c : RelayClient V) (relay : ℕ → Reply) (request : RelayRequest) (work : Work V)
    (n : ℕ) : Prop :=
  (∃ p, c.chosen request work = .ok p ∧ unsent c.rt (.ok p) = none ∧
    (n = 0 ∨ (∃ baseUrl send, work = .upstream baseUrl send) ∧
      ∀ i < n, ∀ e, c.receipt request (relay i) = .error (.api e) → AsksAgain e)) ∨
  (∃ exc, unsent c.rt (c.chosen request work) = some exc ∧ Foreign exc ∧
    unsent c.rt (errorPayload (V := V) request (c.errorText exc) 502) = none ∧ n = 0)

section
variable {c : RelayClient V} {relay : ℕ → Reply} {request : RelayRequest} {work : Work V} {n : ℕ}

theorem invocations_eq_one (hmodel : isStreamingModelRequest request = false)
    (hchosen : ∀ e, c.chosen request work ≠ .error (.api e)) :
    RelayClient.invocations request work = 1 := by
  simp only [RelayClient.invocations]
  rw [hmodel]
  cases work with
  | handler run => rfl
  | upstream baseUrl send =>
      simp only [RelayClient.chosen] at hchosen
      rw [hmodel] at hchosen
      simp only [Bool.false_eq_true, if_false]
      cases hsize : validateHttpBodySize request.bodyBytes with
      | ok _ => rfl
      | error exc =>
          simp only [validateHttpBodySize] at hsize
          split at hsize
          · cases hsize
            simp only [validateHttpBodySize] at hchosen
            rename_i hlarge
            rw [if_pos hlarge] at hchosen
            exact absurd rfl (hchosen _)
          · cases hsize

theorem relayErrorIsRetryable_iff {e : ApiError} :
    relayErrorIsRetryable e = true ↔ AsksAgain e := by
  unfold relayErrorIsRetryable AsksAgain
  split
  next status hstatus =>
    have hcontains (codes : List ℤ) : codes.contains status = true ↔ status ∈ codes :=
      List.contains_iff_mem
    simp only [hstatus, Option.some.injEq, forall_eq']
    by_cases hrefused : status ∈ [400, 401, 403, 404, 409, 410, 422]
    · rw [if_pos ((hcontains _).mpr hrefused)]
      exact iff_of_false Bool.false_ne_true fun hasks => hasks.1 hrefused
    · rw [if_neg (mt (hcontains _).mp hrefused), and_iff_right hrefused, ← hcontains]
      cases retryable e <;> simp
  next hstatus =>
    rw [hstatus]
    cases retryable e <;> simp

/-- During an outage the loop goes on over the failures that ask for the completion again. -/
theorem Outage.retried_iff (h : Outage c relay request n) :
    (∀ i < n, c.retried request (relay i) = true) ↔
      ∀ i < n, ∀ e, c.receipt request (relay i) = .error (.api e) → AsksAgain e := by
  refine forall₂_congr fun i hi => ?_
  obtain ⟨e, hreceipt, -⟩ := h.failures i hi
  simp only [RelayClient.retried, hreceipt, relayErrorIsRetryable_iff]
  constructor
  · rintro hasks e' he
    cases he
    exact hasks
  · exact fun hasks => hasks e rfl

/-- The accepting reply ends the loop at the latest. -/
theorem Outage.index_le (h : Outage c relay request n) {k : ℕ}
    (hbefore : ∀ j < k, c.retried request (relay j) = true) : k ≤ n := by
  by_contra hlt
  obtain ⟨receipt, haccepts⟩ := h.accepts
  have hretried := hbefore n (by omega)
  simp only [RelayClient.retried] at hretried
  rw [haccepts] at hretried
  cases hretried

theorem not_redelivered_of_length {renewal : Option Raised} {t : Trace V}
    {result : Except Raised Unit} (hrun : c.handleRequest relay request work renewal = (t, result))
    (hlength : t.completions.length ≠ n + 1) : ¬ Redelivered c relay request work renewal n := by
  rintro ⟨p, -, hp⟩
  rw [hrun] at hp
  cases hp
  exact hlength (List.length_replicate)

/-- When the `try` block has sent its completion. -/
theorem redelivered_iff_of_sent (hmodel : isStreamingModelRequest request = false)
    (houtage : Outage c relay request n) (renewal : Option Raised) {p : CompletionPayload V} {k : ℕ}
    (hchosen : c.chosen request work = .ok p)
    (hsent : unsent c.rt (.ok p) = none) (hk : k < RelayClient.attempts request work)
    (hbefore : ∀ j < k, c.retried request (relay j) = true)
    (hlast : c.retried request (relay k) = true → k + 1 = RelayClient.attempts request work)
    (hblock : c.tryBlock relay request work {} =
      ({ invocations := RelayClient.invocations request work
         completions := List.replicate (k + 1) p }, c.receipt request (relay k))) :
    Redelivered c relay request work renewal n ↔ Redelivers c relay request work n := by
  have hinvocations : RelayClient.invocations request work = 1 :=
    invocations_eq_one hmodel fun e he => by rw [hchosen] at he; cases he
  have hexcluded : ¬ ∃ exc, unsent c.rt (c.chosen request work) = some exc ∧ Foreign exc ∧
      unsent c.rt (errorPayload (V := V) request (c.errorText exc) 502) = none ∧ n = 0 := by
    rintro ⟨exc, hunsent, -⟩
    rw [hchosen, hsent] at hunsent
    cases hunsent
  have hresult (result : Except Raised Dict) (hreceipt : c.receipt request (relay k) = result)
      (hforeign : ∀ exc, result = .error exc → ¬ Foreign exc) :
      c.handleRequest relay request work renewal =
        ({ invocations := 1, completions := List.replicate (k + 1) p },
          result.bind fun _ => RelayClient.afterRenewals renewal) := by
    simp only [RelayClient.handleRequest]
    rw [hblock, hreceipt, c.afterTry_of_not_foreign relay hforeign, hinvocations]
  rcases Nat.lt_or_eq_of_le (houtage.index_le hbefore) with hlt | rfl
  · -- a failure ended the loop
    obtain ⟨e, hreceipt, -⟩ := houtage.failures k hlt
    have hrun := hresult _ hreceipt fun exc hexc => by cases hexc; exact not_foreign_api e
    refine iff_of_false (not_redelivered_of_length hrun (by simp; omega)) ?_
    rintro (⟨-, -, -, hnone | ⟨⟨baseUrl, send, rfl⟩, hall⟩⟩ | hforeign)
    · omega
    · have hattempts := hlast (houtage.retried_iff.mpr hall k hlt)
      simp only [RelayClient.attempts, hmodel, Bool.false_eq_true, if_false] at hattempts
      have := houtage.bounded
      omega
    · exact hexcluded hforeign
  · obtain ⟨receipt, hreceipt⟩ := houtage.accepts
    have hrun := hresult _ hreceipt fun exc hexc => by cases hexc
    refine iff_of_true ⟨p, .inl hchosen, hrun⟩ (.inl ⟨p, hchosen, hsent, ?_⟩)
    cases work with
    | upstream baseUrl send =>
        exact .inr ⟨⟨baseUrl, send, rfl⟩, houtage.retried_iff.mp hbefore⟩
    | handler run =>
        left
        simp only [RelayClient.attempts] at hk
        omega

/-- During an outage a completion is redelivered iff its loop outlasts the outage. -/
theorem redelivered_iff (hmodel : isStreamingModelRequest request = false)
    (houtage : Outage c relay request n) (renewal : Option Raised) :
    Redelivered c relay request work renewal n ↔ Redelivers c relay request work n := by
  rcases c.tryBlock_sends relay request work with
    ⟨exc, hunsent, hblock⟩ | ⟨p, k, hchosen, hsent, hk, hbefore, hlast, hblock⟩
  · have hexcluded : ¬ ∃ p, c.chosen request work = .ok p ∧ unsent c.rt (.ok p) = none ∧
        (n = 0 ∨ (∃ baseUrl send, work = .upstream baseUrl send) ∧
          ∀ i < n, ∀ e, c.receipt request (relay i) = .error (.api e) → AsksAgain e) := by
      rintro ⟨p, hchosen, hsent, -⟩
      rw [hchosen, hsent] at hunsent
      cases hunsent
    have hhandle : c.handleRequest relay request work renewal =
        c.afterTry relay request renewal
          ({ invocations := RelayClient.invocations request work }, .error exc) := by
      rw [RelayClient.handleRequest, hblock]
    by_cases hforeign : Foreign exc
    · have hne : ∀ e, c.chosen request work ≠ .error (.api e) := by
        intro e he
        rw [he] at hunsent
        cases hunsent
        exact not_foreign_api e hforeign
      have hinvocations := invocations_eq_one hmodel hne
      rcases c.afterTry_foreign_cases relay request renewal
          { invocations := RelayClient.invocations request work } hforeign with
        ⟨e, hnot, hafter⟩ | ⟨q, hq, hsent, hafter⟩
      · have hrun := hhandle.trans hafter
        refine iff_of_false (not_redelivered_of_length hrun (by simp)) ?_
        rintro (hsent | ⟨exc', hunsent', -, hsent, -⟩)
        · exact hexcluded hsent
        · rw [hunsent] at hunsent'
          cases hunsent'
          rw [hsent] at hnot
          cases hnot
      · have hrun := hhandle.trans hafter
        cases n with
        | succ n =>
            refine iff_of_false (not_redelivered_of_length hrun (by simp)) ?_
            rintro (hsent | ⟨-, -, -, -, hzero⟩)
            · exact hexcluded hsent
            · cases hzero
        | zero =>
            obtain ⟨receipt, hreceipt⟩ := houtage.accepts
            refine iff_of_true ⟨q, .inr ⟨exc, hunsent, hforeign, hq⟩, ?_⟩
              (.inr ⟨exc, hunsent, hforeign, hsent, rfl⟩)
            simp only [List.length_nil, List.nil_append] at hrun
            rw [hrun, hreceipt, hinvocations]
            rfl
    · have hrun : c.handleRequest relay request work renewal =
          ({ invocations := RelayClient.invocations request work }, .error exc) := by
        rw [hhandle, c.afterTry_of_not_foreign relay (by rintro e ⟨⟩; exact hforeign)]
        rfl
      refine iff_of_false (not_redelivered_of_length hrun (by simp)) ?_
      rintro (hsent | ⟨exc', hunsent', hforeign', -⟩)
      · exact hexcluded hsent
      · rw [hunsent] at hunsent'
        cases hunsent'
        exact hforeign hforeign'
  · exact redelivered_iff_of_sent hmodel houtage renewal hchosen hsent hk hbefore hlast hblock

end

/-- For both clients: during an outage of fewer failures than the attempts of a forwarded response,
the completion of a request for the handler or the upstream is redelivered iff its loop outlasts the
outage. -/
theorem completion_redelivered (rt : Runtime V) (forwardTimeout : ℚ) (relay : ℕ → Reply)
    (request : RelayRequest) (hmodel : isStreamingModelRequest request = false) (work : Work V)
    (renewal : Option Raised) (n : ℕ) :
    (Outage (syncClient rt forwardTimeout) relay request n →
      (Redelivered (syncClient rt forwardTimeout) relay request work renewal n ↔
        Redelivers (syncClient rt forwardTimeout) relay request work n)) ∧
    (Outage (asyncClient rt forwardTimeout) relay request n →
      (Redelivered (asyncClient rt forwardTimeout) relay request work renewal n ↔
        Redelivers (asyncClient rt forwardTimeout) relay request work n)) :=
  ⟨fun houtage => redelivered_iff hmodel houtage renewal,
    fun houtage => redelivered_iff hmodel houtage renewal⟩

/-- The first acknowledgement is lost, every later call is accepted. -/
def lostOnce (i : ℕ) : Reply :=
  if i = 0 then
    .error (.os { kind := .reset, text := "Connection reset by peer", name := "ConnectionResetError" })
  else acceptedReply

theorem outage_lostOnce : Outage (syncClient plainRuntime 600) lostOnce leasedRequest 1 where
  bounded := by decide
  failures i hi := by
    obtain rfl : i = 0 := by omega
    exact ⟨_, rfl, .inl rfl⟩
  accepts := exists_of_isOk (by decide +kernel)

/-- An upstream that answers with the body `ok`. -/
def okUpstream : Work String :=
  .upstream "http://model" fun _ =>
    .ok ⟨200, [], { length := some 2, chunks := ["ok".toUTF8.toList], ending := .complete }⟩

/-- The forwarded response is sent twice. -/
theorem completion_redelivered_forwarded :
    Redelivered (syncClient plainRuntime 600) lostOnce leasedRequest okUpstream none 1 := by
  refine ((completion_redelivered plainRuntime 600 lostOnce leasedRequest (by decide +kernel)
    okUpstream none 1).1 outage_lostOnce).mpr ?_
  obtain ⟨p, hchosen⟩ : ∃ p,
      (syncClient plainRuntime 600).chosen leasedRequest okUpstream = .ok p :=
    exists_of_isOk (by decide +kernel)
  have hsent : unsent plainRuntime
      ((syncClient plainRuntime 600).chosen leasedRequest okUpstream) = none :=
    Option.isNone_iff_eq_none.mp (by decide +kernel)
  rw [hchosen] at hsent
  refine .inl ⟨p, hchosen, hsent, .inr ⟨⟨_, _, rfl⟩, outage_lostOnce.retried_iff.mp fun i hi => ?_⟩⟩
  obtain rfl : i = 0 := by omega
  rfl

/-- With a handler, the lost acknowledgement ends the worker. -/
theorem handler_result_lost :
    Outage (syncClient plainRuntime 600) lostOnce leasedRequest 1 ∧
      ¬ Redelivered (syncClient plainRuntime 600) lostOnce leasedRequest
        (.handler fun _ => .ok (.plain (.value "done"))) none 1 := by
  have hlength : ((syncClient plainRuntime 600).handleRequest lostOnce leasedRequest
      (.handler fun _ => .ok (.plain (.value "done"))) none).1.completions.length = 1 := by
    decide +kernel
  exact ⟨outage_lostOnce, not_redelivered_of_length (Prod.eta _).symm (by rw [hlength]; decide)⟩

end UcloudSandboxes.Relay
