import UcloudSandboxes.Relay.Handling

/-!
# Requests that are abandoned

A healthy relay accepts every completion call. Then one completion is sent and accepted, the one
that was chosen or an error with status 502 in its place, except in two situations: something is
beyond a size limit, which raises a `RelayApiError` that the handling lets through, or the handler
or the upstream raises a `BaseException` that is no `Exception`.

`healthy_completion` is the exact account, for both clients.
-/
namespace UcloudSandboxes.Relay
open Python Http

variable {V : Type}

/-- What `RelayRequest.from_payload` checks of a leased request. -/
structure RelayRequest.Leased (request : RelayRequest) : Prop where
  token : validateRegistrationToken request.registrationToken = .ok ()
  requestId : request.requestId ≠ ""
  leaseId : request.leaseId ≠ ""
  body : request.bodyBytes.length ≤ maxRelayHttpBodyBytes

/-- The relay accepts every completion call. -/
def Healthy (c : RelayClient V) (relay : ℕ → Reply) (request : RelayRequest) : Prop :=
  ∀ i, ∃ receipt, c.receipt request (relay i) = .ok receipt

def HandlerResult.body : HandlerResult V → BodyValue V
  | .plain body => body
  | .response r => r.body

/-- The body of the completion is beyond `MAX_RELAY_HTTP_BODY_BYTES`. `received` is what the
client's reader sees of a body. -/
inductive LargeBody (c : RelayClient V) (received : Body → Bytes) (request : RelayRequest) :
    Work V → Prop
  | result {run : RelayRequest → Except Raised (HandlerResult V)} {result : HandlerResult V}
      {body : Bytes} (hrun : run request = .ok result) (hbody : result.body = .bytes body)
      (hsize : maxRelayHttpBodyBytes < body.length) : LargeBody c received request (.handler run)
  /-- The upstream declares a body that is, or sends one. -/
  | upstream {baseUrl : String} {send : UpstreamRequest → Reply} {r : Response}
      (hreply : send (upstreamRequest request baseUrl) = .ok r)
      (hsize : r.Exceeds c.rt.py received maxRelayHttpBodyBytes) :
      LargeBody c received request (.upstream baseUrl send)
  /-- The report of a failed upstream is. -/
  | report {baseUrl : String} {send : UpstreamRequest → Reply} {exc : Raised}
      (hread : c.forwardRead (send (upstreamRequest request baseUrl)) = .failed exc)
      (hsize : maxRelayHttpBodyBytes < (forwardErrorBody c.rt exc c.forwardTimeout).length) :
      LargeBody c received request (.upstream baseUrl send)

/-- The JSON text of the completion is beyond `MAX_RELAY_JSON_BYTES`. -/
def LargeText (rt : Runtime V) (payload : Except Raised (CompletionPayload V)) : Prop :=
  ∃ p text, payload = .ok p ∧ p.dumps rt = .ok text ∧ maxRelayJsonBytes < text.utf8ByteSize

/-- A size limit is exceeded: by the body of the completion, by its text, or by the text of the
error completion that takes its place. -/
def Oversized (c : RelayClient V) (received : Body → Bytes) (request : RelayRequest)
    (work : Work V) : Prop :=
  isStreamingModelRequest request = false ∧ LargeBody c received request work ∨
  LargeText c.rt (c.chosen request work) ∨
  ∃ exc, unsent c.rt (c.chosen request work) = some exc ∧ Foreign exc ∧
    LargeText c.rt (errorPayload (V := V) request (c.errorText exc) 502)

/-- The handler, or the exchange with the upstream, raises `exc`. -/
inductive WorkRaises (request : RelayRequest) (exc : Raised) : Work V → Prop
  | handler {run : RelayRequest → Except Raised (HandlerResult V)}
      (hrun : run request = .error exc) : WorkRaises request exc (.handler run)
  | upstream {baseUrl : String} {send : UpstreamRequest → Reply} {failure : Failure}
      (hreply : send (upstreamRequest request baseUrl) = .error failure)
      (hraised : failure.raised = exc) : WorkRaises request exc (.upstream baseUrl send)

/-- The handler or the upstream raises an exception that `except Exception` does not catch. -/
def Interrupted (request : RelayRequest) (work : Work V) : Prop :=
  isStreamingModelRequest request = false ∧ ∃ name, WorkRaises request (.base name) work

/-- What `forward_to` refuses of an upstream, and what it lets through. -/
structure Bounded (c : RelayClient V) (received : Body → Bytes) : Prop where
  refused : ∀ reply, (∃ e, c.forwardRead reply = .raised (.api e)) ↔
    ∃ r, reply = .ok r ∧ r.Exceeds c.rt.py received maxRelayHttpBodyBytes
  interrupted : ∀ reply name, c.forwardRead reply = .raised (.base name) ↔
    ∃ failure, reply = .error failure ∧ failure.raised = .base name
  body : ∀ reply body status headers, c.forwardRead reply = .body body status headers →
    body.length ≤ maxRelayHttpBodyBytes

section
variable {c : RelayClient V} {received : Body → Bytes} {relay : ℕ → Reply}
  {request : RelayRequest} {work : Work V}

theorem RelayRequest.Leased.payload (hleased : request.Leased) :
    ∃ lease, leasedRequestPayload request = .ok lease := by
  simp only [leasedRequestPayload]
  rw [hleased.token]
  simp only [bind, Except.bind, hleased.requestId, hleased.leaseId, or_self, if_false]
  exact ⟨_, rfl⟩

theorem errorPayload_leased (hleased : request.Leased) (message : String) (status : ℤ) :
    ∃ lease, errorPayload (V := V) request message status = .ok (.error lease status message) := by
  obtain ⟨lease, hlease⟩ := hleased.payload
  refine ⟨lease, ?_⟩
  simp only [errorPayload]
  rw [hlease]
  rfl

/-- `json.dumps` raises only for a value that it cannot write. -/
theorem dumps_error {rt : Runtime V} {p : CompletionPayload V} {exc : Raised}
    (h : p.dumps rt = .error exc) : ∃ cls text, exc = .builtin cls text := by
  cases p with
  | error lease status message => cases h
  | response lease status body headers =>
      simp only [CompletionPayload.dumps] at h
      cases hbody : body.dumps rt with
      | ok text =>
          rw [hbody] at h
          cases h
      | error e =>
          rw [hbody] at h
          cases h
          simp only [EncodedBody.dumps] at hbody
          split at hbody
          · cases hbody
          · split at hbody <;> cases hbody
            exact ⟨_, _, rfl⟩

/-- A payload is sent, or its text is too large, or it cannot be written. -/
theorem unsent_ok_cases (rt : Runtime V) (p : CompletionPayload V) :
    unsent rt (.ok p) = none ∧ ¬ LargeText rt (.ok p) ∨
      (∃ e, unsent rt (.ok p) = some (.api e)) ∧ LargeText rt (.ok p) ∨
      (∃ exc, unsent rt (.ok p) = some exc ∧ Foreign exc ∧ p.dumps rt = .error exc) ∧
        ¬ LargeText rt (.ok p) := by
  simp only [unsent, LargeText]
  cases hdumps : p.dumps rt with
  | error exc =>
      right; right
      obtain ⟨cls, text, rfl⟩ := dumps_error hdumps
      refine ⟨⟨_, rfl, ⟨rfl, fun e he => by cases he⟩, rfl⟩, ?_⟩
      rintro ⟨q, text, hq, htext, -⟩
      cases hq
      rw [hdumps] at htext
      cases htext
  | ok text =>
      simp only
      by_cases hsize : maxRelayJsonBytes < text.utf8ByteSize
      · rw [if_pos hsize]
        exact .inr (.inl ⟨⟨_, rfl⟩, p, text, rfl, hdumps, hsize⟩)
      · rw [if_neg hsize]
        left
        refine ⟨rfl, ?_⟩
        rintro ⟨q, text', hq, htext, hlarge⟩
        cases hq
        rw [hdumps] at htext
        cases htext
        exact hsize hlarge

/-- An error completion is sent unless its text is too large. -/
theorem unsent_errorPayload (hleased : request.Leased) (rt : Runtime V) (message : String)
    (status : ℤ) :
    unsent rt (errorPayload request message status) = none ∧
        ¬ LargeText rt (errorPayload request message status) ∨
      (∃ e, unsent rt (errorPayload request message status) = some (.api e)) ∧
        LargeText rt (errorPayload request message status) := by
  obtain ⟨lease, hpayload⟩ := errorPayload_leased (V := V) hleased message status
  rw [hpayload]
  rcases unsent_ok_cases rt (.error lease status message) with h | h | ⟨⟨exc, -, -, hdumps⟩, -⟩
  · exact .inl h
  · exact .inr h
  · cases hdumps

theorem responsePayload_leased (hleased : request.Leased) (body : BodyValue V) (status : ℤ)
    (headers : Option Headers) :
    (∃ p, responsePayload request body status headers = .ok p) ∧
        (∀ b, body = .bytes b → b.length ≤ maxRelayHttpBodyBytes) ∨
      (∃ e, responsePayload request body status headers = .error (.api e)) ∧
        ∃ b, body = .bytes b ∧ maxRelayHttpBodyBytes < b.length := by
  obtain ⟨lease, hlease⟩ := hleased.payload
  simp only [responsePayload]
  cases body with
  | value v =>
      left
      simp only [encodedBody, hlease]
      exact ⟨⟨_, rfl⟩, fun b hb => by cases hb⟩
  | bytes b =>
      simp only [encodedBody, validateHttpBodySize]
      by_cases hsize : maxRelayHttpBodyBytes < b.length
      · rw [if_pos hsize]
        exact .inr ⟨⟨_, rfl⟩, b, rfl, hsize⟩
      · rw [if_neg hsize, hlease]
        left
        refine ⟨⟨_, rfl⟩, fun b' hb => ?_⟩
        cases hb
        exact Nat.le_of_not_lt hsize

/-- What the `try` block chooses: a completion, unless its body is too large or the handler or the
upstream raises. -/
inductive Choice (c : RelayClient V) (received : Body → Bytes) (request : RelayRequest)
    (work : Work V) : Prop
  | sent (p : CompletionPayload V) (hchosen : c.chosen request work = .ok p)
      (hbody : ¬ (isStreamingModelRequest request = false ∧ LargeBody c received request work))
      (hinterrupted : ¬ Interrupted request work)
  | large (e : ApiError) (hchosen : c.chosen request work = .error (.api e))
      (hbody : isStreamingModelRequest request = false ∧ LargeBody c received request work)
      (hinterrupted : ¬ Interrupted request work)
  | raised (exc : Raised) (hforeign : Foreign exc) (hchosen : c.chosen request work = .error exc)
      (hbody : ¬ (isStreamingModelRequest request = false ∧ LargeBody c received request work))
      (hinterrupted : ¬ Interrupted request work)
  | interrupted (name : String) (hchosen : c.chosen request work = .error (.base name))
      (hbody : ¬ (isStreamingModelRequest request = false ∧ LargeBody c received request work))
      (hinterrupted : Interrupted request work)

/-- An exception that is neither the client's own error nor foreign is a `BaseException`. -/
theorem foreign_or_base {exc : Raised} (h : ∀ e, exc ≠ .api e) :
    Foreign exc ∨ ∃ name, exc = .base name := by
  cases exc with
  | base name => exact .inr ⟨name, rfl⟩
  | _ => exact .inl ⟨rfl, h⟩

/-- The choice when an exception is raised that is not the client's own error. -/
theorem choice_of_raises {exc : Raised} (happ : ∀ e, exc ≠ .api e)
    (hchosen : c.chosen request work = .error exc) (hbody : ¬ LargeBody c received request work)
    (hinterrupted : Interrupted request work ↔ ∃ name, exc = .base name) :
    Choice c received request work := by
  rcases foreign_or_base happ with hforeign | ⟨name, rfl⟩
  · refine .raised exc hforeign hchosen (fun h => hbody h.2) ?_
    rw [hinterrupted]
    rintro ⟨name, rfl⟩
    cases hforeign.1
  · exact .interrupted name hchosen (fun h => hbody h.2) (hinterrupted.mpr ⟨name, rfl⟩)

/-- The choice for a completion that is a response. -/
theorem choice_of_response (hleased : request.Leased)
    (hmodel : isStreamingModelRequest request = false) {body : BodyValue V} {status : ℤ}
    {headers : Option Headers}
    (hchosen : c.chosen request work = responsePayload request body status headers)
    (hbody : LargeBody c received request work ↔
      ∃ b, body = .bytes b ∧ maxRelayHttpBodyBytes < b.length)
    (hinterrupted : ¬ Interrupted request work) : Choice c received request work := by
  rcases responsePayload_leased hleased body status headers with
    ⟨⟨p, hp⟩, hsmall⟩ | ⟨⟨e, he⟩, hlarge⟩
  · refine .sent p (hchosen.trans hp) ?_ hinterrupted
    rintro ⟨-, h⟩
    obtain ⟨b, hb, hsize⟩ := hbody.mp h
    exact absurd (hsmall b hb) (Nat.not_le_of_lt hsize)
  · exact .large e (hchosen.trans he) ⟨hmodel, hbody.mpr hlarge⟩ hinterrupted

/-- A streaming model request is refused with an error completion. -/
theorem choice_of_streaming (hleased : request.Leased)
    (hmodel : isStreamingModelRequest request = true) : Choice c received request work := by
  obtain ⟨lease, hpayload⟩ := errorPayload_leased (V := V) hleased
    "streaming model requests are not supported by the relay protocol" 400
  have hchosen : ∃ p, c.chosen request work = .ok p := by
    simp only [RelayClient.chosen]
    rw [if_pos hmodel, hpayload]
    exact ⟨_, rfl⟩
  obtain ⟨p, hchosen⟩ := hchosen
  refine .sent p hchosen ?_ ?_
  · rintro ⟨h, -⟩
    rw [hmodel] at h
    cases h
  · rintro ⟨h, -⟩
    rw [hmodel] at h
    cases h

/-- The choice of a handler. -/
theorem choice_of_handler (hleased : request.Leased)
    (hmodel : isStreamingModelRequest request = false)
    {run : RelayRequest → Except Raised (HandlerResult V)}
    (hhandler : ∀ e, run request ≠ .error (.api e)) : Choice c received request (.handler run) := by
  have hchosen : c.chosen request (.handler run) =
      run request >>= RelayClient.handlerPayload request := by
    rw [RelayClient.chosen, hmodel]
    rfl
  cases hrun : run request with
  | error exc =>
      rw [hrun] at hchosen
      refine choice_of_raises (fun e he => hhandler e (he ▸ hrun)) hchosen ?_ ⟨?_, ?_⟩
      · rintro (⟨hok, -, -⟩)
        rw [hrun] at hok
        cases hok
      · rintro ⟨-, name, ⟨h⟩⟩
        rw [hrun] at h
        exact ⟨name, Except.error.inj h⟩
      · rintro ⟨name, rfl⟩
        exact ⟨hmodel, name, .handler hrun⟩
  | ok result =>
      rw [hrun] at hchosen
      have hresponse : ∃ status headers, c.chosen request (.handler run) =
          responsePayload request result.body status headers := by
        cases result with
        | plain body => exact ⟨200, none, hchosen⟩
        | response r => exact ⟨r.status, r.headers, hchosen⟩
      obtain ⟨status, headers, hresponse⟩ := hresponse
      refine choice_of_response hleased hmodel hresponse ⟨?_, ?_⟩ ?_
      · rintro (⟨hok, hbody, hsize⟩)
        rw [hrun] at hok
        cases hok
        exact ⟨_, hbody, hsize⟩
      · rintro ⟨b, hb, hsize⟩
        exact .result hrun hb hsize
      · rintro ⟨-, name, ⟨h⟩⟩
        rw [hrun] at h
        cases h

/-- The choice of an upstream. -/
theorem choice_of_upstream (hleased : request.Leased)
    (hmodel : isStreamingModelRequest request = false) {baseUrl : String}
    {send : UpstreamRequest → Reply} (hbounded : Bounded c received) :
    Choice c received request (.upstream baseUrl send) := by
  have hchosen : c.chosen request (.upstream baseUrl send) =
      c.forwardPayload request (send (upstreamRequest request baseUrl)) := by
    rw [RelayClient.chosen, hmodel, validateHttpBodySize,
      if_neg (Nat.not_lt_of_le hleased.body)]
    rfl
  have hlarge : (∃ r, send (upstreamRequest request baseUrl) = .ok r ∧
        r.Exceeds c.rt.py received maxRelayHttpBodyBytes) ↔
      ∃ e, c.forwardRead (send (upstreamRequest request baseUrl)) = .raised (.api e) :=
    (hbounded.refused _).symm
  have hbase : Interrupted request (.upstream (V := V) baseUrl send) ↔
      ∃ name, c.forwardRead (send (upstreamRequest request baseUrl)) = .raised (.base name) := by
    simp only [hbounded.interrupted]
    constructor
    · rintro ⟨-, name, _ | ⟨hreply, hraised⟩⟩
      exact ⟨name, _, hreply, hraised⟩
    · rintro ⟨name, failure, hreply, hraised⟩
      exact ⟨hmodel, name, .upstream hreply hraised⟩
  simp only [RelayClient.forwardPayload] at hchosen
  cases hread : c.forwardRead (send (upstreamRequest request baseUrl)) with
  | raised exc =>
      rw [hread] at hchosen hlarge hbase
      by_cases happ : ∃ e, exc = .api e
      · obtain ⟨e, rfl⟩ := happ
        obtain ⟨r, hreply, hsize⟩ := hlarge.mpr ⟨e, rfl⟩
        refine .large e hchosen ⟨hmodel, .upstream hreply hsize⟩ ?_
        rw [hbase]
        rintro ⟨name, h⟩
        cases h
      · refine choice_of_raises (fun e he => happ ⟨e, he⟩) hchosen ?_ ?_
        · rintro (_ | ⟨hreply, hsize⟩ | ⟨h, -⟩)
          · obtain ⟨e, h⟩ := hlarge.mp ⟨_, hreply, hsize⟩
            cases h
            exact happ ⟨e, rfl⟩
          · rw [hread] at h
            cases h
        · simp only [hbase, ForwardRead.raised.injEq]
  | failed exc =>
      rw [hread] at hchosen hlarge hbase
      refine choice_of_response hleased hmodel hchosen ⟨?_, ?_⟩ ?_
      · rintro (_ | ⟨hreply, hsize⟩ | ⟨h, hsize⟩)
        · obtain ⟨e, h⟩ := hlarge.mp ⟨_, hreply, hsize⟩
          cases h
        · rw [hread] at h
          cases h
          exact ⟨_, rfl, hsize⟩
      · rintro ⟨b, hb, hsize⟩
        cases hb
        exact .report hread hsize
      · rw [hbase]
        rintro ⟨name, h⟩
        cases h
  | body body status headers =>
      rw [hread] at hchosen hlarge hbase
      refine choice_of_response hleased hmodel hchosen ⟨?_, ?_⟩ ?_
      · rintro (_ | ⟨hreply, hsize⟩ | ⟨h, -⟩)
        · obtain ⟨e, h⟩ := hlarge.mp ⟨_, hreply, hsize⟩
          cases h
        · rw [hread] at h
          cases h
      · rintro ⟨b, hb, hsize⟩
        cases hb
        exact absurd (hbounded.body _ _ _ _ hread) (Nat.not_le_of_lt hsize)
      · rw [hbase]
        rintro ⟨name, h⟩
        cases h

theorem choice (hleased : request.Leased) (hbounded : Bounded c received)
    (hhandler : ∀ run e, work = .handler run → run request ≠ .error (.api e)) :
    Choice c received request work := by
  cases hmodel : isStreamingModelRequest request with
  | true => exact choice_of_streaming hleased hmodel
  | false =>
      cases work with
      | handler run => exact choice_of_handler hleased hmodel fun e => hhandler run e rfl
      | upstream baseUrl send => exact choice_of_upstream hleased hmodel hbounded

/-- How a request ends: with one accepted completion, abandoned, or interrupted. -/
inductive Handled (c : RelayClient V) (received : Body → Bytes) (relay : ℕ → Reply)
    (request : RelayRequest) (work : Work V) : Prop
  /-- The completion is the chosen one. -/
  | completed (p : CompletionPayload V) (hpayload : c.chosen request work = .ok p)
      (hrun : c.handleRequest relay request work none =
        ({ invocations := RelayClient.invocations request work, completions := [p] }, .ok ()))
      (hsize : ¬ Oversized c received request work) (hinterrupted : ¬ Interrupted request work)
  /-- The chosen one failed with `exc`, and the completion is an error with the text of `exc`. -/
  | failed (exc : Raised) (p : CompletionPayload V)
      (hunsent : unsent c.rt (c.chosen request work) = some exc) (hforeign : Foreign exc)
      (hpayload : errorPayload request (c.errorText exc) 502 = .ok p)
      (hrun : c.handleRequest relay request work none =
        ({ invocations := RelayClient.invocations request work, completions := [p] }, .ok ()))
      (hsize : ¬ Oversized c received request work) (hinterrupted : ¬ Interrupted request work)
  | abandoned (e : ApiError)
      (hrun : c.handleRequest relay request work none =
        ({ invocations := RelayClient.invocations request work }, .error (.api e)))
      (hsize : Oversized c received request work) (hinterrupted : ¬ Interrupted request work)
  | interrupted (name : String)
      (hrun : c.handleRequest relay request work none =
        ({ invocations := RelayClient.invocations request work }, .error (.base name)))
      (hsize : ¬ Oversized c received request work) (hinterrupted : Interrupted request work)

/-- Nothing is sent by the `try` block. -/
theorem handle_of_unsent {exc : Raised} (hunsent : unsent c.rt (c.chosen request work) = some exc) :
    c.handleRequest relay request work none =
      c.afterTry relay request none
        ({ invocations := RelayClient.invocations request work }, .error exc) := by
  rcases c.tryBlock_sends relay request work with
    ⟨e, he, hblock⟩ | ⟨p, k, hchosen, hsent, -⟩
  · rw [hunsent] at he
    cases he
    rw [RelayClient.handleRequest, hblock]
  · rw [hchosen, hsent] at hunsent
    cases hunsent

/-- The completion is sent once. -/
theorem handle_of_sent (hhealthy : Healthy c relay request) {p : CompletionPayload V}
    (hchosen : c.chosen request work = .ok p) (hsent : unsent c.rt (.ok p) = none) :
    c.handleRequest relay request work none =
      ({ invocations := RelayClient.invocations request work, completions := [p] }, .ok ()) := by
  rcases c.tryBlock_sends relay request work with
    ⟨e, hunsent, -⟩ | ⟨q, k, hq, -, -, hbefore, -, hblock⟩
  · rw [hchosen, hsent] at hunsent
    cases hunsent
  · rw [hchosen] at hq
    cases hq
    obtain ⟨receipt, hreceipt⟩ := hhealthy 0
    have hzero : k = 0 := by
      by_contra hk
      have hretried := hbefore 0 (Nat.pos_of_ne_zero hk)
      rw [RelayClient.retried, hreceipt] at hretried
      cases hretried
    subst hzero
    rw [RelayClient.handleRequest, hblock, hreceipt]
    rfl

/-- A foreign exception is answered with an error completion, unless that is too large. -/
theorem handled_of_foreign (hleased : request.Leased) (hhealthy : Healthy c relay request)
    {exc : Raised} (hforeign : Foreign exc)
    (hunsent : unsent c.rt (c.chosen request work) = some exc)
    (hbody : ¬ (isStreamingModelRequest request = false ∧ LargeBody c received request work))
    (htext : ¬ LargeText c.rt (c.chosen request work))
    (hinterrupted : ¬ Interrupted request work) : Handled c received relay request work := by
  have hhandle : c.handleRequest relay request work none =
      c.afterTry relay request none
        ({ invocations := RelayClient.invocations request work }, .error exc) :=
    handle_of_unsent hunsent
  rcases c.afterTry_foreign_cases relay request none
      { invocations := RelayClient.invocations request work } hforeign with
    ⟨e, hnot, hafter⟩ | ⟨q, hpayload, hsent, hafter⟩
  · rcases unsent_errorPayload hleased c.rt (c.errorText exc) 502 with
      ⟨hsent, -⟩ | ⟨⟨e', he'⟩, hlarge⟩
    · rw [hsent] at hnot
      cases hnot
    · rw [he'] at hnot
      cases hnot
      exact .abandoned e' (hhandle.trans hafter) (.inr (.inr ⟨exc, hunsent, hforeign, hlarge⟩))
        hinterrupted
  · rcases unsent_errorPayload hleased c.rt (c.errorText exc) 502 with
      ⟨-, hsmall⟩ | ⟨⟨e', he'⟩, -⟩
    · obtain ⟨receipt, hreceipt⟩ := hhealthy 0
      simp only [List.nil_append, List.length_nil, hreceipt] at hafter
      refine .failed exc q hunsent hforeign hpayload (hhandle.trans hafter) ?_ hinterrupted
      rintro (h | h | ⟨exc', hunsent', -, hlarge⟩)
      · exact hbody h
      · exact htext h
      · rw [hunsent] at hunsent'
        cases hunsent'
        exact hsmall hlarge
    · rw [he'] at hsent
      cases hsent

/-- A healthy relay gets one completion of every request unless a size limit is exceeded or the
handler or the upstream is interrupted. -/
theorem handled (hleased : request.Leased) (hhealthy : Healthy c relay request)
    (hbounded : Bounded c received)
    (hhandler : ∀ run e, work = .handler run → run request ≠ .error (.api e)) :
    Handled c received relay request work := by
  have hnotForeign {exc : Raised} (h : unsent c.rt (c.chosen request work) = some exc)
      (hexc : ¬ Foreign exc) : ¬ ∃ e, unsent c.rt (c.chosen request work) = some e ∧ Foreign e ∧
        LargeText c.rt (errorPayload (V := V) request (c.errorText e) 502) := by
    rintro ⟨e, he, hf, -⟩
    rw [h] at he
    cases he
    exact hexc hf
  cases choice hleased hbounded hhandler with
  | sent p hchosen hbody hinterrupted =>
      rcases unsent_ok_cases c.rt p with
        ⟨hsent, htext⟩ | ⟨⟨e, hunsent⟩, htext⟩ | ⟨⟨exc, hunsent, hforeign, -⟩, htext⟩
      · rw [← hchosen] at hsent htext
        refine .completed p hchosen (handle_of_sent hhealthy hchosen (hchosen ▸ hsent)) ?_
          hinterrupted
        rintro (h | h | ⟨exc, hunsent, -⟩)
        · exact hbody h
        · exact htext h
        · rw [hsent] at hunsent
          cases hunsent
      · rw [← hchosen] at hunsent htext
        refine .abandoned e ?_ (.inr (.inl htext)) hinterrupted
        rw [handle_of_unsent hunsent]
        rfl
      · rw [← hchosen] at hunsent htext
        exact handled_of_foreign hleased hhealthy hforeign hunsent hbody htext hinterrupted
  | large e hchosen hbody hinterrupted =>
      have hunsent : unsent c.rt (c.chosen request work) = some (.api e) := by rw [hchosen]; rfl
      refine .abandoned e ?_ (.inl hbody) hinterrupted
      rw [handle_of_unsent hunsent]
      rfl
  | raised exc hforeign hchosen hbody hinterrupted =>
      have hunsent : unsent c.rt (c.chosen request work) = some exc := by rw [hchosen]; rfl
      refine handled_of_foreign hleased hhealthy hforeign hunsent hbody ?_ hinterrupted
      rintro ⟨p, -, hp, -⟩
      rw [hchosen] at hp
      cases hp
  | interrupted name hchosen hbody hinterrupted =>
      have hunsent : unsent c.rt (c.chosen request work) = some (.base name) := by
        rw [hchosen]; rfl
      refine .interrupted name ?_ ?_ hinterrupted
      · rw [handle_of_unsent hunsent]
        rfl
      · rintro (h | ⟨p, -, hp, -⟩ | h)
        · exact hbody h
        · rw [hchosen] at hp
          cases hp
        · exact hnotForeign hunsent (fun h => by cases h.1) h

end

theorem length_syncForwardRead_le {rt : Runtime V} {reply : Reply} {body : Bytes} {status : ℤ}
    {headers : Headers} (h : syncForwardRead rt reply = .body body status headers) :
    body.length ≤ maxRelayHttpBodyBytes := by
  simp only [syncForwardRead] at h
  split at h
  · split at h <;> cases h
  · split at h
    · rename_i hread
      cases h
      exact length_readSyncResponse_le hread
    · cases h
    · split at h <;> cases h

theorem length_asyncForwardRead_le {rt : Runtime V} {reply : Reply} {body : Bytes} {status : ℤ}
    {headers : Headers} (h : asyncForwardRead rt reply = .body body status headers) :
    body.length ≤ maxRelayHttpBodyBytes := by
  simp only [asyncForwardRead] at h
  split at h
  · split at h <;> cases h
  · split at h
    · rename_i hread
      cases h
      exact length_readAsyncResponse_le hread
    · cases h
    · split at h <;> cases h

theorem bounded_syncClient (rt : Runtime V) (forwardTimeout : ℚ) :
    Bounded (syncClient rt forwardTimeout) Body.due where
  refused reply := by
    show (∃ e, syncForwardRead rt reply = .raised (.api e)) ↔
      ∃ r, reply = .ok r ∧ r.Exceeds rt.py Body.due maxRelayHttpBodyBytes
    cases reply with
    | error failure => cases failure <;> simp [syncForwardRead, Failure.raised, Raised.isOsError]
    | ok r =>
        simp only [syncForwardRead, Except.ok.injEq, exists_eq_left',
          ← readSyncResponse_tooLarge_iff]
        cases hread : readSyncResponse rt.py r maxRelayHttpBodyBytes with
        | ok body => simp
        | error exc =>
            rcases readSyncResponse_error hread with rfl | ⟨e, -, rfl⟩ | ⟨text, -, rfl⟩ <;>
              simp [Raised.isOsError]
  interrupted reply name := by
    show syncForwardRead rt reply = .raised (.base name) ↔ _
    cases reply with
    | error failure => cases failure <;> simp [syncForwardRead, Failure.raised, Raised.isOsError]
    | ok r =>
        simp only [syncForwardRead]
        cases hread : readSyncResponse rt.py r maxRelayHttpBodyBytes with
        | ok body => simp
        | error exc =>
            rcases readSyncResponse_error hread with rfl | ⟨e, -, rfl⟩ | ⟨text, -, rfl⟩ <;>
              simp [Raised.isOsError]
  body _ _ _ _ h := length_syncForwardRead_le h

theorem bounded_asyncClient (rt : Runtime V) (forwardTimeout : ℚ) :
    Bounded (asyncClient rt forwardTimeout) Body.streamed where
  refused reply := by
    show (∃ e, asyncForwardRead rt reply = .raised (.api e)) ↔
      ∃ r, reply = .ok r ∧ r.Exceeds rt.py Body.streamed maxRelayHttpBodyBytes
    cases reply with
    | error failure => cases failure <;> simp [asyncForwardRead, Failure.raised, Raised.isException]
    | ok r =>
        simp only [asyncForwardRead, Except.ok.injEq, exists_eq_left',
          ← readAsyncResponse_tooLarge_iff]
        cases hread : readAsyncResponse rt.py r maxRelayHttpBodyBytes with
        | ok body => simp
        | error exc =>
            rcases readAsyncResponse_error hread with rfl | ⟨e, rfl⟩ | ⟨cls, text, rfl⟩ <;>
              simp [Raised.isException]
  interrupted reply name := by
    show asyncForwardRead rt reply = .raised (.base name) ↔ _
    cases reply with
    | error failure => cases failure <;> simp [asyncForwardRead, Failure.raised, Raised.isException]
    | ok r =>
        simp only [asyncForwardRead]
        cases hread : readAsyncResponse rt.py r maxRelayHttpBodyBytes with
        | ok body => simp
        | error exc =>
            rcases readAsyncResponse_error hread with rfl | ⟨e, rfl⟩ | ⟨cls, text, rfl⟩ <;>
              simp [Raised.isException]
  body _ _ _ _ h := length_asyncForwardRead_le h

theorem leased_leasedRequest : leasedRequest.Leased where
  token := by
    obtain ⟨u, hu⟩ := exists_of_isOk
      (show (validateRegistrationToken leasedRequest.registrationToken).isOk = true by
        decide +kernel)
    exact hu
  requestId := by decide
  leaseId := by decide
  body := Nat.zero_le _

theorem healthy_acceptedReply :
    Healthy (syncClient plainRuntime 600) (fun _ => acceptedReply) leasedRequest ∧
      Healthy (asyncClient plainRuntime 600) (fun _ => acceptedReply) leasedRequest :=
  ⟨fun _ => exists_of_isOk
      (show ((syncClient plainRuntime 600).receipt leasedRequest acceptedReply).isOk = true by
        decide +kernel),
    fun _ => exists_of_isOk
      (show ((asyncClient plainRuntime 600).receipt leasedRequest acceptedReply).isOk = true by
        decide +kernel)⟩

/-- An upstream that does not answer in time. -/
def slowUpstream : Work String :=
  .upstream "http://model" fun _ => .error (.os { kind := .timeout, text := "timed out" })

/-- An upstream that declares a body one byte beyond the limit. -/
def largeUpstream : Work String :=
  .upstream "http://model" fun _ =>
    .ok ⟨200, [("Content-Length", "16777217")],
      { length := some 16777217, chunks := [], ending := .closed }⟩

end UcloudSandboxes.Relay
