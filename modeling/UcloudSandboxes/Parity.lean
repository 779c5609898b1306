import UcloudSandboxes.Client.Deadline
import UcloudSandboxes.Relay.Handling

/-!
# Both flavours on the same answers

The sync and the async client read an answer with separate code. Here both are run on the same
answers, with the same clock readings and random draws. An answer is what the transport hands over,
a complete body in any pieces; content codings are the transport's.

Both flavours decode an answer alike unless it is a success beyond the size limit, a success whose
bytes are not UTF-8, a text on which `json.loads` raises something else than `JSONDecodeError`, or a
retryable error whose `error_code` is no hashable value. The relay clients differ on every answer
within the limit whose bytes are not UTF-8.

## Main results

* `answer_alike`: one attempt of the two sandbox clients.
* `reply_alike_iff`: one exchange of the two relay clients.
* `alike_iff`: whole calls, and exchanges.
-/
namespace UcloudSandboxes
open Python Http Client Relay

/-- How the two decoders of the interpreter go together: `errors="replace"` changes nothing in bytes
that are UTF-8. -/
def ReplaceExtends (py : Interpreter) : Prop :=
  ∀ body text, py.utf8 body = some text → py.utf8Replace body = text

/-- The body is within the limit, and so is its declared length. -/
def WithinLimit (py : Interpreter) (r : Response) (limit : ℕ) : Prop :=
  readWhole py r limit = .ok r.body.delivered

namespace Client

/-- An answer, and how an attempt came by it. -/
structure Delivery where
  start : ℚ
  /-- The sync client got it on an idle connection of the pool. -/
  reused : Bool
  response : Response

/-- The passes through `open_reusing` that bring the answer. -/
def Delivery.wires (x : Delivery) : List Wire :=
  [⟨x.start, if x.reused then .reused (.answered x.response 0) else .fresh (.answered x.response 0)⟩]

/-- What `client.request` of `aiohttp` does when it brings the answer. -/
def Delivery.asyncWire (x : Delivery) : AsyncWire := .answered x.start x.response

/-- The same attempt on another transport. -/
def Attempt.on {ω ω' : Type} (f : ω → ω') (a : Attempt ω) : Attempt ω' where
  now := a.now
  wire := f a.wire
  later := a.later
  jitter := a.jitter

section Call
variable (py : Interpreter) (call : Call)

/-- The sync client on a schedule of answers. -/
def syncOn (schedule : List (Attempt Delivery)) : Outcome (Dict × Headers) × List Transmission :=
  requestJsonResponse py call (schedule.map (Attempt.on Delivery.wires))

/-- The async client on a schedule of answers. -/
def asyncOn (schedule : List (Attempt Delivery)) : Outcome (Dict × Headers) × List Transmission :=
  asyncRequestJsonResponse py call (schedule.map (Attempt.on Delivery.asyncWire))

/-- The attempts that a call makes. -/
def answersTaken (schedule : List (Attempt Delivery)) : List (Attempt Delivery) :=
  attemptsMade call.maxAttempts (fun n a => syncAttempt py jsonReader call n (a.on Delivery.wires)) 0
    schedule

end Call

/-- Both calls still run, or both return the same object, or both raise a `SandboxApiError` with the
same status, body and headers. -/
def SameEnd : Outcome (Dict × Headers) → Outcome (Dict × Headers) → Prop
  | .running, .running => True
  | .returned v, .returned w => v = w
  | .raised (.api e), .raised (.api e') =>
      e.statusCode = e'.statusCode ∧ e.body = e'.body ∧ e.headers = e'.headers
  | _, _ => False

/-- Both flavours make the same attempts with the same delays, and end alike. -/
structure Alike (py : Interpreter) (call : Call) (schedule : List (Attempt Delivery)) : Prop where
  sent : (syncOn py call schedule).2 = (asyncOn py call schedule).2
  sleeps : syncSleeps py jsonReader call (schedule.map (Attempt.on Delivery.wires)) =
    asyncSleeps py maxJsonResponseBytes call (schedule.map (Attempt.on Delivery.asyncWire))
  ending : SameEnd (syncOn py call schedule).1 (asyncOn py call schedule).1

/-- The error that an answer which is no success carries, within the limit. -/
def errorBody (py : Interpreter) (r : Response) : Json :=
  match if py.utf8Replace r.body.delivered = "" then .value (.dict [])
    else py.loads (py.utf8Replace r.body.delivered) with
  | .value decoded => decoded
  | _ => .dict [("error", .str (py.utf8Replace r.body.delivered))]

/-- The answer is one that both flavours read alike. -/
def Legible (py : Interpreter) (req : HttpRequest) (r : Response) : Prop :=
  if isSuccess r.status then
    WithinLimit py r maxJsonResponseBytes ∧
      ∃ text, py.utf8 r.body.delivered = some text ∧ ¬ LoadsRaises py text
  else WithinLimit py r maxJsonResponseBytes →
    ¬ LoadsRaises py (py.utf8Replace r.body.delivered) ∧
      ¬ (looksUpCode req.method.toUpper req.path r.status (errorBody py r) = true ∧
        unhashable (errorCode (errorBody py r)) = true)

section Decode
variable {py : Interpreter} {r : Response}

/-- A complete body that is not within the limit is refused. -/
theorem readWhole_of_not_within {limit : ℕ} (h : ¬ WithinLimit py r limit) :
    readWhole py r limit = .error (.tooLarge (tooLargeText limit)) :=
  (readWhole_cases py r limit).resolve_left h

/-- Both flavours make the same error of an answer that is no success. -/
theorem nodeError_alike (hcomplete : r.body.Complete) : syncNodeError py r = asyncNodeError py r := by
  simp only [syncNodeError, asyncNodeError]
  rw [readSyncResponse_complete py hcomplete, readAsyncResponse_complete py hcomplete]

/-- The error of an answer that is no success, unless `json.loads` raises. -/
theorem syncNodeError_ok (hcomplete : r.body.Complete) (hstatus : isSuccess r.status = false)
    (hwithin : WithinLimit py r maxJsonResponseBytes)
    (h : ¬ LoadsRaises py (py.utf8Replace r.body.delivered)) :
    ∃ e, syncNodeError py r = .ok e ∧ e.statusCode = some r.status ∧ e.body = errorBody py r := by
  simp only [syncNodeError]
  rw [readSyncResponse_complete py hcomplete,
    show readWhole py r maxJsonResponseBytes = .ok r.body.delivered from hwithin]
  simp only [nodeError, decodeNodeJson, decodeJsonObject, decodeJsonObject.failed, hstatus,
    Bool.not_false, if_true, errorBody]
  cases hloaded : if py.utf8Replace r.body.delivered = "" then Loaded.value (.dict [])
      else py.loads (py.utf8Replace r.body.delivered) with
  | value decoded => exact ⟨_, rfl, rfl, rfl⟩
  | decodeError text => exact ⟨_, rfl, rfl, rfl⟩
  | raised cls text =>
      split_ifs at hloaded with hempty
      exact absurd ⟨hempty, cls, text, hloaded⟩ h

/-- An answer beyond the limit is an error of its own. -/
theorem syncNodeError_tooLarge (hcomplete : r.body.Complete)
    (h : ¬ WithinLimit py r maxJsonResponseBytes) :
    ∃ e, syncNodeError py r = .error (.api e) := by
  simp only [syncNodeError]
  rw [readSyncResponse_complete py hcomplete, readWhole_of_not_within h]
  exact ⟨_, rfl⟩

/-- Where `json.loads` raises, so does the decoder. -/
theorem syncNodeError_raises (hcomplete : r.body.Complete)
    (hwithin : WithinLimit py r maxJsonResponseBytes)
    (h : LoadsRaises py (py.utf8Replace r.body.delivered)) :
    ∃ cls text, syncNodeError py r = .error (.builtin cls text) := by
  simp only [syncNodeError]
  rw [readSyncResponse_complete py hcomplete,
    show readWhole py r maxJsonResponseBytes = .ok r.body.delivered from hwithin]
  obtain ⟨hne, cls, text, hloads⟩ := h
  refine ⟨cls, text, ?_⟩
  have hdecode : decodeNodeJson py (py.utf8Replace r.body.delivered) r.status
      (responseHeaders r.headers) = .error (.builtin cls text) :=
    decode_builtin_iff.mpr ⟨hne, hloads⟩
  simp only [nodeError, hdecode]

/-- What follows an answer that is no success: the next attempt, or an exception. -/
def Next.ofRaised {α : Type} : Option Raised → Next α
  | none => .again
  | some exc => .stop (.raised exc)

/-- A legible error leads to the next attempt or to a `SandboxApiError`. -/
theorem afterError_legible {ω : Type} {call : Call} (attempt : ℕ) (a : Attempt ω)
    (hcomplete : r.body.Complete) (hstatus : isSuccess r.status = false)
    (h : Legible py call.req r) :
    ∃ exit : Option Raised, (∀ exc, exit = some exc → ∃ e, exc = .api e) ∧
      ∀ α, afterError (α := α) py call attempt a (syncNodeError py r) = Next.ofRaised exit := by
  simp only [Legible, hstatus, Bool.false_eq_true, if_false] at h
  by_cases hwithin : WithinLimit py r maxJsonResponseBytes
  case neg =>
    obtain ⟨e, he⟩ := syncNodeError_tooLarge hcomplete hwithin
    exact ⟨some (.api e), by simp, fun _ => by simp only [afterError, he]; rfl⟩
  obtain ⟨hraises, hlooks⟩ := h hwithin
  obtain ⟨e, he, hcode, hbody⟩ := syncNodeError_ok hcomplete hstatus hwithin hraises
  rw [← hbody] at hlooks
  obtain ⟨retries, hretries⟩ := shouldRetry_ok hlooks attempt call.maxAttempts
  simp only [afterError, he, retryError, hcode, hretries, bind, Except.bind, pure, Except.pure]
  cases retries with
  | false => exact ⟨some (.api e), by simp, fun _ => rfl⟩
  | true =>
      simp only [if_true]
      by_cases hsleep : sleepForRetry (ucloudUnavailableRetryDelay py attempt e.headers
          call.req.method call.req.path a.jitter) call.deadline a.later = true
      · exact ⟨none, by simp, fun _ => by rw [if_pos hsleep]; rfl⟩
      · exact ⟨some (.api (retryBudgetExhausted e (attempt + 1))), by simp,
          fun _ => by rw [if_neg hsleep]; rfl⟩

/-- An error that is not legible leads to another exception. -/
theorem afterError_not_legible {ω : Type} {call : Call} (attempt : ℕ) (a : Attempt ω)
    (hcomplete : r.body.Complete) (hstatus : isSuccess r.status = false)
    (h : ¬ Legible py call.req r) :
    ∃ cls text, ∀ α, afterError (α := α) py call attempt a (syncNodeError py r) =
      .stop (.raised (.builtin cls text)) := by
  simp only [Legible, hstatus, Bool.false_eq_true, if_false, not_forall] at h
  obtain ⟨hwithin, h⟩ := h
  by_cases hraises : LoadsRaises py (py.utf8Replace r.body.delivered)
  · obtain ⟨cls, text, he⟩ := syncNodeError_raises hcomplete hwithin hraises
    exact ⟨cls, text, fun _ => by simp only [afterError, he]⟩
  · have hlooks : looksUpCode call.req.method.toUpper call.req.path r.status (errorBody py r) = true ∧
        unhashable (errorCode (errorBody py r)) = true := by
      by_contra hn
      exact h ⟨hraises, hn⟩
    obtain ⟨e, he, hcode, hbody⟩ := syncNodeError_ok hcomplete hstatus hwithin hraises
    rw [← hbody] at hlooks
    obtain ⟨cls, text, hretries⟩ := shouldRetry_typeError hlooks.1 hlooks.2 attempt call.maxAttempts
    refine ⟨cls, text, fun _ => ?_⟩
    simp only [afterError, he, retryError, hcode, hretries, bind, Except.bind]

/-- How the two flavours end on a success. -/
theorem success_alike (hpy : ReplaceExtends py) {call : Call} {attempt : ℕ}
    {a : Attempt (List Wire)} (hcomplete : r.body.Complete) (hstatus : isSuccess r.status = true) :
    ∃ o o', (match jsonReader.read py r with
        | .ok v => Next.stop (.returned v)
        | .error exc => afterRaised call attempt a exc) = .stop o ∧
      (match asyncRead py maxJsonResponseBytes r with
        | .ok v => Next.stop (.returned v)
        | .error exc => .stop (.raised exc)) = .stop o' ∧
      (SameEnd o (asyncDecoded py o') ↔ Legible py call.req r) := by
  simp only [Legible, hstatus, if_true]
  simp only [jsonReader, asyncRead, bind, Except.bind, pure, Except.pure]
  rw [readSyncResponse_complete py hcomplete, readAsyncResponse_complete py hcomplete]
  by_cases hwithin : WithinLimit py r maxJsonResponseBytes
  · rw [show readWhole py r maxJsonResponseBytes = .ok r.body.delivered from hwithin]
    simp only [hwithin, true_and]
    cases hutf8 : py.utf8 r.body.delivered with
    | none =>
        refine ⟨_, _, rfl, rfl, ?_⟩
        simp [SameEnd]
    | some text =>
        have hreplace : py.utf8Replace r.body.delivered = text := hpy _ _ hutf8
        have hraises := loadsRaises_node py text r.status (responseHeaders r.headers)
        simp only [Option.some.injEq, exists_eq_left', hraises]
        cases hdecode : decodeNodeJson py text r.status (responseHeaders r.headers) with
        | ok answer =>
            refine ⟨_, _, rfl, rfl, ?_⟩
            simp [asyncDecoded, hreplace, hdecode, SameEnd]
        | error exc =>
            rcases decode_error hdecode with ⟨e, rfl⟩ | ⟨cls, message, _, rfl⟩
            · refine ⟨_, _, rfl, rfl, ?_⟩
              simp [asyncDecoded, hreplace, hdecode, SameEnd]
            · refine ⟨_, _, rfl, rfl, ?_⟩
              simp [SameEnd]
  · rw [readWhole_of_not_within hwithin]
    refine ⟨_, _, rfl, rfl, ?_⟩
    simp [SameEnd, asyncDecoded, hwithin]

/-- `open_reusing` on an answer. -/
theorem openReusing_answer (req : HttpRequest) (timeout : ℚ) (x : Delivery) :
    openReusing req timeout 0 x.wires = (some (.ok x.response),
      [{ start := x.start, timeout, method := req.method, path := req.path, headers := req.headers
         body := req.content.sentFrom 0, ending := .answered x.response }]) := by
  cases hreused : x.reused <;>
    simp [Delivery.wires, hreused, openReusing, Exchange.result, Exchange.ending, Exchange.dropped]

/-- One attempt of both flavours: the same transmission and the same delay. Either both go on, or
both stop, and then alike exactly when the answer came in time and is legible. -/
structure AttemptAlike (py : Interpreter) (call : Call) (attempt : ℕ) (a : Attempt Delivery) :
    Prop where
  sent : (syncAttempt py jsonReader call attempt (a.on Delivery.wires)).2 =
    (asyncAttempt py maxJsonResponseBytes call attempt (a.on Delivery.asyncWire)).2
  delay : syncDelay py jsonReader call attempt (a.on Delivery.wires) =
    asyncDelay py call attempt (a.on Delivery.asyncWire)
  next : ((syncAttempt py jsonReader call attempt (a.on Delivery.wires)).1 = .again ∧
      (asyncAttempt py maxJsonResponseBytes call attempt (a.on Delivery.asyncWire)).1 = .again ∧
      call.OpenAt a.now ∧ Legible py call.req a.wire.response) ∨
    ∃ o o', (syncAttempt py jsonReader call attempt (a.on Delivery.wires)).1 = .stop o ∧
      (asyncAttempt py maxJsonResponseBytes call attempt (a.on Delivery.asyncWire)).1 = .stop o' ∧
      (SameEnd o (asyncDecoded py o') ↔ call.OpenAt a.now ∧ Legible py call.req a.wire.response)

section Attempt
variable {call : Call} {attempt : ℕ} {a : Attempt Delivery}

/-- The attempt comes too late. -/
theorem late_alike {exc : Raised}
    (hremaining : requiredRemainingSeconds call.deadline a.now = .error exc) :
    AttemptAlike py call attempt a := by
  obtain ⟨⟨deadline, hdeadline, hle⟩, e, rfl⟩ := requiredRemaining_error hremaining
  have hnot : ¬ call.OpenAt a.now := fun h => absurd (h deadline hdeadline) (not_lt.mpr hle)
  have hsync : syncAttempt py jsonReader call attempt (a.on Delivery.wires) =
      (.stop (.raised (.os e)), []) := by
    simp [syncAttempt, Attempt.on, hremaining, jsonReader]
  have hasync : asyncAttempt py maxJsonResponseBytes call attempt (a.on Delivery.asyncWire) =
      (.stop (.raised (.os e)), []) := by
    simp [asyncAttempt, Attempt.on, hremaining]
  constructor
  case sent => rw [hsync, hasync]
  case delay => simp [syncDelay, asyncDelay, Attempt.on, hremaining]
  case next =>
    rw [hsync, hasync]
    exact .inr ⟨_, _, rfl, rfl, by simp [SameEnd, hnot]⟩

/-- The answer is a success. -/
theorem success_attempt_alike (hpy : ReplaceExtends py) (hcomplete : a.wire.response.body.Complete)
    {remaining : Option ℚ}
    (hremaining : requiredRemainingSeconds call.deadline a.now = .ok remaining)
    (hstatus : isSuccess a.wire.response.status = true) : AttemptAlike py call attempt a := by
  have hintime : call.OpenAt a.now := requiredRemaining_ok hremaining
  obtain ⟨o, o', hsync, hasync, hiff⟩ := @success_alike py _ hpy call attempt
    (a.on Delivery.wires) hcomplete hstatus
  constructor
  case sent =>
    simp only [syncAttempt, asyncAttempt, Attempt.on, hremaining, openReusing_answer,
      Delivery.asyncWire, hstatus, if_true]
    cases jsonReader.read py a.wire.response <;> rfl
  case delay =>
    simp only [syncDelay, asyncDelay, Attempt.on, hremaining, openReusing_answer,
      Delivery.asyncWire, hstatus, if_true]
    cases hread : jsonReader.read py a.wire.response with
    | ok v => rfl
    | error exc =>
        simp only [raisedDelay]
        rw [jsonReader_plain py _ exc hread, if_neg Bool.false_ne_true]
  case next =>
    refine .inr ⟨o, o', ?_, ?_, by simpa only [hintime, true_and] using hiff⟩
    · rw [← hsync]
      simp only [syncAttempt, Attempt.on, hremaining, openReusing_answer, hstatus, if_true]
      cases jsonReader.read py a.wire.response <;> rfl
    · rw [← hasync]
      cases hread : asyncRead py maxJsonResponseBytes a.wire.response <;>
        simp [asyncAttempt, Attempt.on, hremaining, Delivery.asyncWire, hstatus, hread]

/-- The answer is an error: both flavours pass the same exception to the same rule. -/
theorem error_attempt_alike (hcomplete : a.wire.response.body.Complete) {remaining : Option ℚ}
    (hremaining : requiredRemainingSeconds call.deadline a.now = .ok remaining)
    (hstatus : isSuccess a.wire.response.status = false) : AttemptAlike py call attempt a := by
  have hintime : call.OpenAt a.now := requiredRemaining_ok hremaining
  have hsync : syncAttempt py jsonReader call attempt (a.on Delivery.wires) =
      (afterError py call attempt (a.on Delivery.wires) (syncNodeError py a.wire.response),
        (openReusing call.req (requestTimeoutSeconds remaining call.timeout) 0
          a.wire.wires).2) := by
    simp [syncAttempt, Attempt.on, hremaining, openReusing_answer, hstatus]
  have hasync : asyncAttempt py maxJsonResponseBytes call attempt (a.on Delivery.asyncWire) =
      (afterError py call attempt (a.on Delivery.wires) (syncNodeError py a.wire.response),
        (openReusing call.req (requestTimeoutSeconds remaining call.timeout) 0
          a.wire.wires).2) := by
    rw [nodeError_alike hcomplete]
    simp only [asyncAttempt, Attempt.on, hremaining, openReusing_answer, hstatus,
      Delivery.asyncWire, Bool.false_eq_true, if_false]
    rfl
  constructor
  case sent => rw [hsync, hasync]
  case delay =>
    rw [syncDelay, asyncDelay]
    simp only [Attempt.on, hremaining, openReusing_answer, hstatus, Delivery.asyncWire,
      nodeError_alike hcomplete, Bool.false_eq_true, if_false]
    rfl
  case next =>
    rw [hsync, hasync]
    simp only [hintime, true_and]
    by_cases hlegible : Legible py call.req a.wire.response
    · obtain ⟨exit, hapi, hexit⟩ :=
        afterError_legible attempt (a.on Delivery.wires) hcomplete hstatus hlegible
      simp only [hexit, hlegible]
      cases exit with
      | none => exact .inl ⟨rfl, rfl, trivial⟩
      | some exc =>
          obtain ⟨e, rfl⟩ := hapi exc rfl
          exact .inr ⟨_, _, rfl, rfl, by simp [SameEnd, asyncDecoded]⟩
    · obtain ⟨cls, text, hexit⟩ :=
        afterError_not_legible attempt (a.on Delivery.wires) hcomplete hstatus hlegible
      simp only [hexit, hlegible]
      exact .inr ⟨_, _, rfl, rfl, by simp [SameEnd]⟩

end Attempt

theorem answer_alike (hpy : ReplaceExtends py) (call : Call) (attempt : ℕ) (a : Attempt Delivery)
    (hcomplete : a.wire.response.body.Complete) : AttemptAlike py call attempt a := by
  cases hremaining : requiredRemainingSeconds call.deadline a.now with
  | error exc => exact late_alike hremaining
  | ok remaining =>
      cases hstatus : isSuccess a.wire.response.status with
      | true => exact success_attempt_alike hpy hcomplete hremaining hstatus
      | false => exact error_attempt_alike hcomplete hremaining hstatus

end Decode

/-- Both loops from some attempt on. -/
theorem loop_alike {py : Interpreter} (hpy : ReplaceExtends py) (call : Call) (attempt : ℕ)
    (schedule : List (Attempt Delivery)) (hcomplete : ∀ a ∈ schedule, a.wire.response.body.Complete)
    (hstart : ∀ most, call.maxAttempts = some most → attempt < most) :
    (attemptLoop call.maxAttempts (syncAttempt py jsonReader call) attempt
        (schedule.map (Attempt.on Delivery.wires))).2 =
      (attemptLoop call.maxAttempts (asyncAttempt py maxJsonResponseBytes call) attempt
        (schedule.map (Attempt.on Delivery.asyncWire))).2 ∧
    loopSleeps call.maxAttempts (syncAttempt py jsonReader call) (syncDelay py jsonReader call) attempt
        (schedule.map (Attempt.on Delivery.wires)) =
      loopSleeps call.maxAttempts (asyncAttempt py maxJsonResponseBytes call) (asyncDelay py call)
        attempt (schedule.map (Attempt.on Delivery.asyncWire)) ∧
    (SameEnd (attemptLoop call.maxAttempts (syncAttempt py jsonReader call) attempt
          (schedule.map (Attempt.on Delivery.wires))).1
        (asyncDecoded py (attemptLoop call.maxAttempts (asyncAttempt py maxJsonResponseBytes call)
          attempt (schedule.map (Attempt.on Delivery.asyncWire))).1) ↔
      ∀ a ∈ attemptsMade call.maxAttempts
          (fun n a => syncAttempt py jsonReader call n (a.on Delivery.wires)) attempt schedule,
        call.OpenAt a.now ∧ Legible py call.req a.wire.response) := by
  have hopen := exhausted_eq_false hstart
  induction schedule generalizing attempt with
  | nil => simp [attemptLoop, loopSleeps, attemptsMade, hopen, SameEnd, asyncDecoded]
  | cons a rest ih =>
      obtain ⟨hsent, hdelay, hends⟩ := answer_alike hpy call attempt a (hcomplete a (by simp))
      have hnext : (syncAttempt py jsonReader call attempt (a.on Delivery.wires)).1 = .again →
          ∀ most, call.maxAttempts = some most → attempt + 1 < most :=
        fun h most hmost => syncAttempt_again.2 most hmost h
      simp only [List.map_cons, attemptLoop, loopSleeps, attemptsMade, hopen, Bool.false_eq_true,
        if_false]
      generalize syncAttempt py jsonReader call attempt (a.on Delivery.wires) = s at *
      generalize asyncAttempt py maxJsonResponseBytes call attempt (a.on Delivery.asyncWire) = t at *
      obtain ⟨next, sent⟩ := s
      obtain ⟨next', sent'⟩ := t
      obtain rfl : sent = sent' := hsent
      rcases hends with ⟨rfl, rfl, hgood⟩ | ⟨o, o', rfl, rfl, hiff⟩
      · obtain ⟨ihsent, ihsleeps, ihends⟩ := ih (attempt + 1)
          (fun b hb => hcomplete b (by simp [hb])) (hnext rfl) (exhausted_eq_false (hnext rfl))
        refine ⟨by simp only [ihsent], ?_, ?_⟩
        · rw [hdelay, ihsleeps]
          cases asyncDelay py call attempt (a.on Delivery.asyncWire) <;> rfl
        · simp only [ihends, List.forall_mem_cons, hgood, true_and]
      · refine ⟨rfl, rfl, ?_⟩
        simpa using hiff

/-- **Whole calls.** Both flavours are alike exactly when every attempt they make comes in time and
brings a legible answer. -/
theorem call_alike_iff {py : Interpreter} (hpy : ReplaceExtends py) (call : Call)
    (schedule : List (Attempt Delivery)) (hcomplete : ∀ a ∈ schedule, a.wire.response.body.Complete) :
    Alike py call schedule ↔ ∀ a ∈ answersTaken py call schedule,
      call.OpenAt a.now ∧ Legible py call.req a.wire.response := by
  obtain ⟨hsent, hsleeps, hends⟩ := loop_alike hpy call 0 schedule hcomplete
    fun _ hmost => maxAttempts_pos hmost
  exact ⟨fun h => hends.mp h.ending, fun h => ⟨hsent, hsleeps, hends.mpr h⟩⟩

end Client

namespace Relay
variable {V : Type}

/-- Both clients return the same object, or both raise a `RelayApiError` with the same status, body
and headers. -/
def SameAnswer : Except Raised Dict → Except Raised Dict → Prop
  | .ok d, .ok d' => d = d'
  | .error (.api e), .error (.api e') =>
      e.statusCode = e'.statusCode ∧ e.body = e'.body ∧ e.headers = e'.headers
  | _, _ => False

/-- The answer is one that both relay clients read alike. -/
def LegibleReply (py : Interpreter) (r : Response) : Prop :=
  WithinLimit py r maxRelayJsonBytes →
    ∃ text, py.utf8 r.body.delivered = some text ∧ ¬ LoadsRaises py text

/-- An answer that is no success is an error with its status, or `json.loads` raises. -/
theorem decodeRelay_failed (py : Interpreter) (text : String) {status : ℤ}
    (h : isSuccess status = false) (headers : Headers) :
    (∃ e, decodeRelayJson py text status headers = .error (.api e) ∧
        e.statusCode = some status) ∨
      ∃ cls message, decodeRelayJson py text status headers = .error (.builtin cls message) := by
  simp only [decodeRelayJson, decodeJsonObject, decodeJsonObject.failed, h, Bool.not_false, if_true,
    Bool.false_eq_true, if_false]
  cases (if text = "" then Loaded.value (.dict []) else py.loads text) with
  | value decoded => exact .inl ⟨_, rfl, rfl⟩
  | decodeError message => exact .inl ⟨_, rfl, rfl⟩
  | raised cls message => exact .inr ⟨cls, message, rfl⟩

/-- **One exchange.** Both relay clients are alike exactly on legible answers. -/
theorem reply_alike_iff (rt : Runtime V) (hpy : ReplaceExtends rt.py) {r : Response}
    (hcomplete : r.body.Complete) :
    SameAnswer (syncAnswer rt (.ok r)) (asyncAnswer rt (.ok r)) ↔ LegibleReply rt.py r := by
  simp only [syncAnswer, asyncAnswer]
  rw [readSyncResponse_complete rt.py hcomplete, readAsyncResponse_complete rt.py hcomplete]
  by_cases hwithin : WithinLimit rt.py r maxRelayJsonBytes
  · rw [show readWhole rt.py r maxRelayJsonBytes = .ok r.body.delivered from hwithin]
    simp only [LegibleReply, hwithin, forall_const]
    cases hutf8 : rt.py.utf8 r.body.delivered with
    | none =>
        -- The sync client replaces what it cannot decode only in an error.
        cases hstatus : isSuccess r.status with
        | true => simp [SameAnswer]
        | false =>
            rcases decodeRelay_failed rt.py (rt.py.utf8Replace r.body.delivered) hstatus
              (responseHeaders r.headers) with ⟨e, he, hcode⟩ | ⟨cls, text, he⟩
            · simp [he, SameAnswer, Except.mapError, wrapped, requestFailed, hcode]
            · simp [he, SameAnswer]
    | some text =>
        have hreplace : rt.py.utf8Replace r.body.delivered = text := hpy _ _ hutf8
        have hraises : LoadsRaises rt.py text ↔ ∃ cls message,
            decodeRelayJson rt.py text r.status (responseHeaders r.headers) =
              .error (.builtin cls message) := loadsRaises_iff
        simp only [hreplace, ite_self, Option.some.injEq, exists_eq_left', hraises]
        cases hdecode : decodeRelayJson rt.py text r.status (responseHeaders r.headers) with
        | ok answer => simp [SameAnswer, Except.mapError]
        | error exc =>
            rcases decode_error hdecode with ⟨e, rfl⟩ | ⟨cls, message, _, rfl⟩
            · simp [SameAnswer, Except.mapError, wrapped]
            · simp [SameAnswer]
  · rw [(readWhole_cases rt.py r maxRelayJsonBytes).resolve_left hwithin]
    simp [SameAnswer, answerTooLarge, Except.mapError, wrapped, LegibleReply, hwithin]

end Relay

theorem replaceExtends_ascii (known : List (String × Json)) :
    ReplaceExtends (.ascii known) := by
  intro body text h
  simp only [Interpreter.ascii] at h ⊢
  split_ifs at h with hascii
  cases h
  congr 1
  refine List.map_congr_left fun b hb => ?_
  have hb' : b < 128 := by simpa using List.all_eq_true.mp hascii b hb
  rw [if_pos hb']

/-- A success with this body. -/
def bodyAnswer (body : Bytes) : Response where
  status := 200
  headers := []
  body := { length := some body.length, chunks := [body], ending := .complete }

theorem complete_bodyAnswer {body : Bytes} (h : body ≠ []) : (bodyAnswer body).body.Complete where
  ending := rfl
  length := by simp [bodyAnswer, Body.delivered]
  chunks := by simpa [bodyAnswer] using h

theorem withinLimit_bodyAnswer (py : Interpreter) {body : Bytes} {limit : ℕ}
    (h : body.length ≤ limit) : WithinLimit py (bodyAnswer body) limit := by
  have hcheck : checkContentLength py [] limit = .ok () :=
    checkContentLength_ok py _ limit fun n hn => by cases hn
  have hle : ¬ limit < body.length := by omega
  simp only [WithinLimit, readWhole, bodyAnswer, Body.delivered, List.flatten_cons,
    List.flatten_nil, List.append_nil, hcheck, bind, Except.bind, if_neg hle]

/-- Reading a sandbox, answered with this body. -/
def bodySchedule (body : Bytes) : List (Attempt Delivery) :=
  [{ now := 0, wire := { start := 0, reused := false, response := bodyAnswer body }, later := 0
     jitter := 0 }]

theorem answersTaken_bodySchedule (py : Interpreter) (body : Bytes) :
    answersTaken py (Call.within statusRequest 30 0) (bodySchedule body) = bodySchedule body := by
  have hopen : attemptLoop.exhausted (Call.within statusRequest 30 0).maxAttempts 0 = false := by
    decide +kernel
  simp only [answersTaken, bodySchedule, attemptsMade, hopen, Bool.false_eq_true, if_false]
  split <;> rfl

/-- The text of an answer that may be retried, and a runtime that knows it. -/
def unavailableText : String := "\x7b\"retryable\": true\x7d"

def unavailableRuntime : Runtime String :=
  { plainRuntime with
    py := .ascii [("{}", .dict []), (unavailableText, .dict [("retryable", .bool true)])] }

/-- A retryable answer on a pooled connection, and an empty object on a new one. -/
def retriedSchedule : List (Attempt Delivery) :=
  [{ now := 0, later := 1, jitter := 0
     wire := {
      start := 0, reused := true
      response := { bodyAnswer unavailableText.toUTF8.toList with status := 503 } } },
    { now := 2, later := 2, jitter := 0
      wire := { start := 2, reused := false, response := bodyAnswer [123, 125] } }]

theorem decodable_object :
    ∃ text, unavailableRuntime.py.utf8 (bodyAnswer [123, 125]).body.delivered = some text ∧
      ¬ LoadsRaises unavailableRuntime.py text := by
  refine ⟨"{}", by decide +kernel, ?_⟩
  rintro ⟨-, cls, message, h⟩
  have hloads : unavailableRuntime.py.loads "{}" = .value (.dict []) := rfl
  rw [hloads] at h
  cases h

theorem legible_retriedSchedule :
    ∀ a ∈ retriedSchedule, (Call.within statusRequest 30 0).OpenAt a.now ∧
      Legible unavailableRuntime.py statusRequest a.wire.response := by
  have hopen (now : ℚ) (h : now < 30) : (Call.within statusRequest 30 0).OpenAt now := by
    intro deadline hdeadline
    cases hdeadline
    norm_num [deadlineFor, h]
  intro a ha
  obtain rfl | rfl := List.mem_pair.mp ha
  · refine ⟨hopen 0 (by norm_num), fun _ => ⟨?_, by decide +kernel⟩⟩
    rintro ⟨-, cls, message, h⟩
    have htext : unavailableRuntime.py.utf8Replace
        (bodyAnswer unavailableText.toUTF8.toList).body.delivered = unavailableText := by
      decide +kernel
    have hloads : unavailableRuntime.py.loads (unavailableRuntime.py.utf8Replace
        (bodyAnswer unavailableText.toUTF8.toList).body.delivered) =
        .value (.dict [("retryable", .bool true)]) := by
      rw [htext]
      rfl
    cases hloads.symm.trans h
  · exact ⟨hopen 2 (by norm_num), withinLimit_bodyAnswer _ (by decide), decodable_object⟩

end UcloudSandboxes
