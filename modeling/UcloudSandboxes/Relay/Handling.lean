import UcloudSandboxes.Relay.Completion

/-!
# Handling a leased request

`forward_to`, the handlers' results and `_handle_sync_request` / `_handle_async_request`. A `Work`
is what the worker was started with, a handler or an upstream; both are functions, so their
behaviour is arbitrary. The renewals of the lease run beside and send no completion; `renewal` is
the error that ended them, if one did.

The `try` block chooses a completion and sends it, once or in a loop: `tryBlock_sends`.
-/
namespace UcloudSandboxes.Relay
open Python Http

variable {V : Type}

/-- `RelayResponse`. -/
structure RelayResponse (V : Type) where
  body : BodyValue V
  status : ℤ := 200
  headers : Option Headers := none

/-- What a handler returns. -/
inductive HandlerResult (V : Type)
  | plain (body : BodyValue V)
  | response (r : RelayResponse V)

/-- The request that `forward_to` sends. -/
structure UpstreamRequest where
  url : String
  method : String
  headers : Headers
  body : Option Bytes

/-- What the worker was started with: exactly one of `handler` and `upstream_base_url`. -/
inductive Work (V : Type)
  | handler (run : RelayRequest → Except Raised (HandlerResult V))
  | upstream (baseUrl : String) (send : UpstreamRequest → Reply)

/-- `dict(headers)` of received headers: a repeated name takes its first value. -/
def messageDict (headers : Headers) : Headers :=
  headers.foldl
    (fun d kv => insertHeader d kv.1 ((findHeader headers kv.1.toLower).getD kv.2)) []

/-- `_safe_http_headers`. -/
def safeHttpHeaders (headers : Headers) : Headers :=
  headers.filter fun kv =>
    !(["connection", "content-length", "host", "keep-alive", "proxy-authenticate",
      "proxy-authorization", "te", "trailer", "transfer-encoding", "upgrade"].contains kv.1.toLower)

/-- `text.rstrip("/")`. -/
def rstripSlash (text : String) : String :=
  String.ofList (text.toList.reverse.dropWhile (· == '/')).reverse

/-- The request of `forward_to`. -/
def upstreamRequest (request : RelayRequest) (baseUrl : String) : UpstreamRequest where
  url := rstripSlash baseUrl ++ request.endpoint
  method := request.method
  headers := safeHttpHeaders request.headers
  body := if request.bodyBytes = [] then none else some request.bodyBytes

/-- `_is_forward_timeout`. -/
def isForwardTimeout : Raised → Bool
  | .os e => e.kind == .timeout
  | .url reason => reason.kind == .timeout
  | _ => false

/-- `str(exc) or type(exc).__name__`. -/
def textOrName (rt : Runtime V) (exc : Raised) : String :=
  if exc.text = "" then rt.typeName exc else exc.text

/-- `_forward_error_body`. -/
def forwardErrorBody (rt : Runtime V) (exc : Raised) (timeout : ℚ) : Bytes :=
  let message :=
    if isForwardTimeout exc then
      "upstream request timed out (forwarding timeout: " ++ rt.formatG timeout ++ " seconds)"
    else "upstream request failed: " ++ textOrName rt exc
  (dumpsDict [("error", dumpsText message)]).toUTF8.toList

/-- How the sync `forward_to` takes the upstream's reply. -/
def syncForwardRead (rt : Runtime V) : Reply → ForwardRead
  | .error failure =>
      if failure.raised.isOsError then .failed failure.raised else .raised failure.raised
  | .ok r =>
      match readSyncResponse rt.py r maxRelayHttpBodyBytes with
      | .ok body => .body body r.status (safeHttpHeaders (messageDict r.headers))
      | .error (.tooLarge text) => .raised (.api { message := text })
      | .error exc => if exc.isOsError then .failed exc else .raised exc

/-- How the async `forward_to` takes it. -/
def asyncForwardRead (rt : Runtime V) : Reply → ForwardRead
  | .error failure =>
      if failure.raised.isException then .failed failure.raised else .raised failure.raised
  | .ok r =>
      match readAsyncResponse rt.py r maxRelayHttpBodyBytes with
      | .ok body => .body body r.status (safeHttpHeaders (messageDict r.headers))
      | .error (.tooLarge text) => .raised (.api { message := text })
      | .error exc => if exc.isException then .failed exc else .raised exc

/-- `RelayWorkerClient`. -/
def syncClient (rt : Runtime V) (forwardTimeout : ℚ) : RelayClient V where
  rt := rt
  forwardTimeout := forwardTimeout
  answer := syncAnswer rt
  forwardRead := syncForwardRead rt
  errorText := Raised.text

/-- `AsyncRelayWorkerClient`. -/
def asyncClient (rt : Runtime V) (forwardTimeout : ℚ) : RelayClient V where
  rt := rt
  forwardTimeout := forwardTimeout
  answer := asyncAnswer rt
  forwardRead := asyncForwardRead rt
  errorText := textOrName rt

/-- `_is_streaming_model_request`. -/
def isStreamingModelRequest (request : RelayRequest) : Bool :=
  let path := rstripSlash (String.ofList (request.endpoint.toList.takeWhile (· != '?')))
  let modelEndpoint :=
    ["/chat/completions", "/completions", "/responses"].any fun suffix => path.endsWith suffix
  modelEndpoint &&
    match request.body.asDict with
    | some body => (body.get "stream").isTrue
    | none => false

namespace RelayClient
variable (c : RelayClient V) (relay : ℕ → Reply)

/-- `forward_to`. -/
def forwardTo (request : RelayRequest) (baseUrl : String) (send : UpstreamRequest → Reply)
    (t : Trace V) : Trace V × Except Raised Dict :=
  match validateHttpBodySize request.bodyBytes with
  | .error exc => (t, .error exc)
  | .ok _ =>
      let t := { t with invocations := t.invocations + 1 }
      match c.forwardRead (send (upstreamRequest request baseUrl)) with
      | .raised exc => (t, .error exc)
      | .failed exc =>
          c.commitResponseBytesTo relay request (forwardErrorBody c.rt exc c.forwardTimeout)
            (if isForwardTimeout exc then 504 else 502)
            (some [("Content-Type", "application/json")]) 60 t
      | .body body status headers =>
          c.commitResponseBytesTo relay request body status (some headers) 60 t

/-- `_commit_sync_handler_result` and `_commit_async_handler_result`. -/
def commitHandlerResult (request : RelayRequest) (result : HandlerResult V) (t : Trace V) :
    Trace V × Except Raised Dict :=
  match result with
  | .response r => c.respondTo relay request r.body r.status r.headers t
  | .plain body => c.respondTo relay request body 200 none t

/-- The `try` block. -/
def tryBlock (request : RelayRequest) (work : Work V) (t : Trace V) :
    Trace V × Except Raised Dict :=
  if isStreamingModelRequest request then
    c.errorRequest relay request
      "streaming model requests are not supported by the relay protocol" 400 t
  else match work with
    | .upstream baseUrl send => c.forwardTo relay request baseUrl send t
    | .handler run =>
        let t := { t with invocations := t.invocations + 1 }
        match run request with
        | .error exc => (t, .error exc)
        | .ok result => c.commitHandlerResult relay request result t

/-- What follows the completions: an error of the renewals counts unless it says that the request
is completed. -/
def afterRenewals (renewal : Option Raised) : Except Raised Unit :=
  match renewal with
  | none => .ok ()
  | some (.api exc) => if relayRequestAlreadyCompleted exc then .ok () else .error (.api exc)
  | some exc => .error exc

/-- The `except` clauses of the handling and what follows them. -/
def afterTry (request : RelayRequest) (renewal : Option Raised) :
    Trace V × Except Raised Dict → Trace V × Except Raised Unit
  | (t, .ok _) => (t, afterRenewals renewal)
  | (t, .error (.api exc)) => (t, .error (.api exc))
  | (t, .error exc) =>
      if exc.isException then
        match c.errorRequest relay request (c.errorText exc) 502 t with
        | (t', .ok _) => (t', afterRenewals renewal)
        | (t', .error exc') => (t', .error exc')
      else (t, .error exc)

/-- `_handle_sync_request` and `_handle_async_request`. In the sync worker only a `RelayApiError`
of the renewals is kept. -/
def handleRequest (request : RelayRequest) (work : Work V) (renewal : Option Raised) :
    Trace V × Except Raised Unit :=
  c.afterTry relay request renewal (c.tryBlock relay request work {})

end RelayClient

/-- `_handle_sync_request`. -/
def handleSyncRequest (rt : Runtime V) (forwardTimeout : ℚ) (relay : ℕ → Reply)
    (request : RelayRequest) (work : Work V) (renewal : Option Raised) :
    Trace V × Except Raised Unit :=
  (syncClient rt forwardTimeout).handleRequest relay request work renewal

/-- `_handle_async_request`. -/
def handleAsyncRequest (rt : Runtime V) (forwardTimeout : ℚ) (relay : ℕ → Reply)
    (request : RelayRequest) (work : Work V) (renewal : Option Raised) :
    Trace V × Except Raised Unit :=
  (asyncClient rt forwardTimeout).handleRequest relay request work renewal

/-- The exception is not the client's own error, and a handler of `Exception` catches it. -/
def Foreign (exc : Raised) : Prop := exc.isException = true ∧ ∀ e, exc ≠ .api e

theorem not_foreign_api (e : ApiError) : ¬ Foreign (.api e) := fun h => h.2 e rfl

/-! ## What the `try` block sends -/

namespace RelayClient
variable (c : RelayClient V) (relay : ℕ → Reply)

/-- The completion for an upstream's reply. -/
def forwardPayload (request : RelayRequest) (reply : Reply) :
    Except Raised (CompletionPayload V) :=
  match c.forwardRead reply with
  | .raised exc => .error exc
  | .failed exc =>
      responsePayload request (.bytes (forwardErrorBody c.rt exc c.forwardTimeout))
        (if isForwardTimeout exc then 504 else 502) (some [("Content-Type", "application/json")])
  | .body body status headers => responsePayload request (.bytes body) status (some headers)

/-- The completion for a handler's result. -/
def handlerPayload (request : RelayRequest) (result : HandlerResult V) :
    Except Raised (CompletionPayload V) :=
  match result with
  | .response r => responsePayload request r.body r.status r.headers
  | .plain body => responsePayload request body 200 none

/-- The completion that the `try` block chooses. -/
def chosen (request : RelayRequest) (work : Work V) : Except Raised (CompletionPayload V) :=
  if isStreamingModelRequest request then
    errorPayload request "streaming model requests are not supported by the relay protocol" 400
  else match work with
    | .upstream baseUrl send => do
        validateHttpBodySize request.bodyBytes
        c.forwardPayload request (send (upstreamRequest request baseUrl))
    | .handler run => run request >>= handlerPayload request

/-- How often it is sent at most: only forwarded responses are sent again. -/
def attempts (request : RelayRequest) : Work V → ℕ
  | .upstream _ _ => if isStreamingModelRequest request then 1 else 60
  | .handler _ => 1

/-- How often the handler or the upstream is called. -/
def invocations (request : RelayRequest) (work : Work V) : ℕ :=
  if isStreamingModelRequest request then 0
  else match work with
    | .upstream _ _ =>
        match validateHttpBodySize request.bodyBytes with
        | .ok _ => 1
        | .error _ => 0
    | .handler _ => 1

theorem attempts_pos (request : RelayRequest) (work : Work V) :
    0 < attempts request work := by
  simp only [attempts]
  split
  · split <;> decide
  · decide

/-- One attempt of the loop is one call. -/
theorem commitLoop_one (call : Trace V → Trace V × Except Raised Dict) (t : Trace V) :
    commitLoop call 1 t = call t := by
  simp only [commitLoop]
  cases call t with
  | mk t' result =>
  cases result with
  | ok receipt => rfl
  | error exc => cases exc <;> simp

theorem commitResponseBytesTo_eq (request : RelayRequest) (body : Bytes) (status : ℤ)
    (headers : Option Headers) (t : Trace V) :
    c.commitResponseBytesTo relay request body status headers 60 t =
      commitLoop (c.complete relay request (responsePayload request (.bytes body) status headers))
        60 t := rfl

/-- The `try` block is the loop that sends the chosen completion. -/
theorem tryBlock_eq (request : RelayRequest) (work : Work V) :
    c.tryBlock relay request work {} =
      commitLoop (c.complete relay request (c.chosen request work)) (attempts request work)
        { invocations := invocations request work } := by
  have hfailed (exc : Raised) (n : ℕ) (t : Trace V) :
      commitLoop (c.complete relay request (.error exc)) (n + 1) t = (t, .error exc) :=
    c.commitLoop_unsent relay rfl n t
  simp only [tryBlock, chosen, attempts, invocations]
  by_cases hstreaming : isStreamingModelRequest request
  · simp only [hstreaming, if_true]
    cases work with
    | handler run => exact (commitLoop_one _ _).symm
    | upstream baseUrl send => exact (commitLoop_one _ _).symm
  · simp only [hstreaming]
    cases work with
    | handler run =>
        cases hrun : run request with
        | error exc =>
            simp only [Bool.false_eq_true, if_false, hrun]
            exact (hfailed exc 0 _).symm
        | ok result =>
            simp only [Bool.false_eq_true, if_false, hrun]
            rw [commitLoop_one]
            cases result <;> rfl
    | upstream baseUrl send =>
        simp only [Bool.false_eq_true, if_false, forwardTo]
        cases hsize : validateHttpBodySize request.bodyBytes with
        | error exc => exact (hfailed exc 59 _).symm
        | ok _ =>
            simp only [bind, Except.bind, forwardPayload]
            cases c.forwardRead (send (upstreamRequest request baseUrl)) with
            | raised exc => exact (hfailed exc 59 _).symm
            | failed exc => exact c.commitResponseBytesTo_eq relay request _ _ _ _
            | body body status headers => exact c.commitResponseBytesTo_eq relay request _ _ _ _

/-- The `try` block sends nothing and raises, or it sends the chosen completion, identical each
time, until a reply ends it. -/
theorem tryBlock_sends (request : RelayRequest) (work : Work V) :
    (∃ exc, unsent c.rt (c.chosen request work) = some exc ∧
        c.tryBlock relay request work {} =
          ({ invocations := invocations request work }, .error exc)) ∨
      ∃ p k, c.chosen request work = .ok p ∧ unsent c.rt (.ok p) = none ∧
        k < attempts request work ∧ (∀ j < k, c.retried request (relay j) = true) ∧
        (c.retried request (relay k) = true → k + 1 = attempts request work) ∧
        c.tryBlock relay request work {} =
          ({ invocations := invocations request work
             completions := List.replicate (k + 1) p }, c.receipt request (relay k)) := by
  rw [tryBlock_eq]
  obtain ⟨n, hn⟩ := Nat.exists_eq_succ_of_ne_zero (attempts_pos request work).ne'
  rw [hn]
  cases hunsent : unsent c.rt (c.chosen request work) with
  | some exc => exact .inl ⟨exc, rfl, c.commitLoop_unsent relay hunsent n _⟩
  | none =>
      right
      cases hchosen : c.chosen request work with
      | error exc =>
          rw [hchosen] at hunsent
          cases hunsent
      | ok p =>
          rw [hchosen] at hunsent
          obtain ⟨k, hk, hbefore, hlast, hrun⟩ :=
            c.commitLoop_sends relay hunsent n { invocations := invocations request work }
          simp only [List.length_nil, Nat.zero_add] at hbefore hlast hrun
          refine ⟨p, k, rfl, hunsent, hk, hbefore, fun h => by rw [hlast h], ?_⟩
          simpa using hrun

/-- Only a foreign exception leads to an error completion. -/
theorem afterTry_of_not_foreign {request : RelayRequest} {renewal : Option Raised} {t : Trace V}
    {result : Except Raised Dict} (h : ∀ exc, result = .error exc → ¬ Foreign exc) :
    c.afterTry relay request renewal (t, result) =
      (t, result.bind fun _ => afterRenewals renewal) := by
  cases result with
  | ok receipt => rfl
  | error exc =>
      have hforeign := h exc rfl
      cases exc with
      | api e => rfl
      | base name => rfl
      | _ => exact absurd ⟨rfl, fun e he => by cases he⟩ hforeign

/-- A foreign exception leads to one, if it can be sent. -/
theorem afterTry_foreign_cases (request : RelayRequest) (renewal : Option Raised) (t : Trace V)
    {exc : Raised} (h : Foreign exc) :
    (∃ e, unsent c.rt (errorPayload (V := V) request (c.errorText exc) 502) = some e ∧
        c.afterTry relay request renewal (t, .error exc) = (t, .error e)) ∨
      ∃ q, errorPayload request (c.errorText exc) 502 = .ok q ∧
        unsent c.rt (errorPayload (V := V) request (c.errorText exc) 502) = none ∧
        c.afterTry relay request renewal (t, .error exc) =
          ({ t with completions := t.completions ++ [q] },
            (c.receipt request (relay t.completions.length)).bind fun _ =>
              afterRenewals renewal) := by
  have hafter : c.afterTry relay request renewal (t, .error exc) =
      match c.errorRequest relay request (c.errorText exc) 502 t with
      | (t', .ok _) => (t', afterRenewals renewal)
      | (t', .error exc') => (t', .error exc') := by
    cases exc with
    | api e => exact absurd h (not_foreign_api e)
    | base name => cases h.1
    | _ => rfl
  rw [hafter]
  rcases c.complete_cases relay request (errorPayload request (c.errorText exc) 502) t with
    ⟨e, hunsent, hcomplete⟩ | ⟨q, hq, hunsent, hcomplete⟩
  · refine .inl ⟨e, hunsent, ?_⟩
    rw [errorRequest, hcomplete]
  · refine .inr ⟨q, hq, hunsent, ?_⟩
    rw [errorRequest, hcomplete]
    cases c.receipt request (relay t.completions.length) <;> rfl

end RelayClient

/-! ## A small worker -/

/-- A runtime for text values. -/
def plainRuntime : Runtime String where
  py := .ascii [("{}", .dict [])]
  dumpsValue v := .ok (dumpsText v)
  formatG _ := "600"
  typeName _ := "Exception"
  undecodable _ := "'utf-8' codec can't decode byte 0xff in position 0: invalid start byte"

/-- A leased request. -/
def leasedRequest : RelayRequest where
  requestId := "r1"
  rolloutId := "run"
  registrationToken := "0123456789abcdef0123456789abcdef"
  endpoint := "/v1/chat/completions"
  method := "POST"
  headers := []
  body := .null
  bodyBytes := []
  leaseId := "l1"

/-- An empty object. -/
def acceptedReply : Reply :=
  .ok ⟨200, [], { length := some 2, chunks := ["{}".toUTF8.toList], ending := .complete }⟩

end UcloudSandboxes.Relay
