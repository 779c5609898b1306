import UcloudSandboxes.Client.Deadline

/-!
# The attempts of a request loop

What an attempt of one of the three loops comes to: the deadline has passed before it, it is
answered without success, it fails to connect, or it ends the call. `RetryLoop` carries a loop with
these kinds and with what follows each of them, so that results about the end of a call are proved
once.

## Main results

* `attemptLoop_ends`: the last attempt decides how a call ends, and the ones before it what was
  received.
* `jsonLoop`, `bytesLoop`, `sendLoop`: the three loops.
-/
namespace UcloudSandboxes.Client
open Python Http

/-- What an attempt comes to. -/
inductive AttemptKind
  /-- The deadline has passed. -/
  | late
  /-- An answer that is no success. -/
  | answered (r : Response)
  | connectFailed (cause : OsError)
  /-- The call ends, or the schedule does. -/
  | other

/-- The answer of an attempt that goes on. -/
def AttemptKind.answer : AttemptKind → Option Response
  | .answered r => some r
  | _ => none

/-- The responses that were received. -/
def responses (sent : List Transmission) : List Response :=
  sent.filterMap fun t =>
    match t.ending with
    | .answered r => some r
    | _ => none

@[simp] theorem responses_append (sent sent' : List Transmission) :
    responses (sent ++ sent') = responses sent ++ responses sent' := List.filterMap_append

/-- A loop over attempts, with what each kind of attempt leads to. -/
structure RetryLoop (ω α : Type) where
  py : Interpreter
  call : Call
  body : ℕ → Attempt ω → Next α × List Transmission
  kind : Attempt ω → AttemptKind
  /-- How the client reads an answer that is no success. -/
  decode : Response → Except Raised ApiError
  late : ∀ n a, kind a = .late → ∃ exc, (body n a).1 = .stop (.raised exc) ∧
    (∀ e, exc = .api e → e.statusCode = none) ∧ (body n a).2 = []
  answered : ∀ n a r, kind a = .answered r →
    (body n a).1 = afterError py call n a (decode r) ∧ responses (body n a).2 = [r]
  decoded : ∀ a r e, kind a = .answered r → decode r = .ok e →
    e.statusCode = some r.status ∧ e.headers = responseHeaders r.headers
  connectFailed : ∀ n a cause, kind a = .connectFailed cause →
    (body n a).1 = afterConnectFailure call n a cause ∧ responses (body n a).2 = []
  other : ∀ n a, kind a = .other → (body n a).1 ≠ .again

section Loop
variable {ω α : Type} {maxAttempts : Option ℕ} {body : ℕ → Attempt ω → Next α × List Transmission}

/-- Every attempt that is followed by another goes on. -/
theorem attemptsMade_again {attempt : ℕ} {schedule init rest : List (Attempt ω)} {a : Attempt ω}
    (h : attemptsMade maxAttempts body attempt schedule = init ++ a :: rest) (hrest : rest ≠ []) :
    (body (attempt + init.length) a).1 = .again := by
  induction schedule generalizing attempt init with
  | nil => simp [attemptsMade] at h
  | cons b later ih =>
      simp only [attemptsMade] at h
      split at h
      · simp at h
      · split at h
        · cases init with
          | nil =>
              simp only [List.nil_append, List.cons.injEq] at h
              exact absurd h.2.symm hrest
          | cons c init => simp at h
        · rename_i hagain
          cases init with
          | nil =>
              simp only [List.nil_append, List.cons.injEq] at h
              rw [← h.1]
              exact hagain
          | cons c init =>
              simp only [List.cons_append, List.cons.injEq] at h
              have hlater := ih h.2
              rwa [List.length_cons, Nat.add_comm init.length, ← Nat.add_assoc]

/-- So does every attempt before it. -/
theorem attemptsMade_init {attempt : ℕ} {schedule init rest : List (Attempt ω)} {a b : Attempt ω}
    (h : attemptsMade maxAttempts body attempt schedule = init ++ a :: rest) (hb : b ∈ init) :
    ∃ n, (body n b).1 = .again := by
  obtain ⟨front, back, rfl⟩ := List.append_of_mem hb
  rw [List.append_assoc, List.cons_append] at h
  exact ⟨_, attemptsMade_again h (by simp)⟩

/-- **The end of a loop.** The attempt that stops is the last one. The call ends as it says, and the
responses received before it are those of the attempts before it. -/
theorem attemptLoop_ends {answer : Attempt ω → Option Response}
    (hbody : ∀ n a, (body n a).1 = .again → responses (body n a).2 = (answer a).toList)
    {attempt : ℕ} {schedule init : List (Attempt ω)} {a : Attempt ω} {outcome : Outcome α}
    (h : attemptsMade maxAttempts body attempt schedule = init ++ [a])
    (hstop : (body (attempt + init.length) a).1 = .stop outcome) :
    (attemptLoop maxAttempts body attempt schedule).1 = outcome ∧
      responses (attemptLoop maxAttempts body attempt schedule).2 =
        init.filterMap answer ++ responses (body (attempt + init.length) a).2 := by
  induction schedule generalizing attempt init with
  | nil => simp [attemptsMade] at h
  | cons b later ih =>
      have hsent := hbody attempt b
      simp only [attemptsMade] at h
      simp only [attemptLoop]
      split at h
      · simp at h
      · rename_i hopen
        rw [if_neg hopen]
        cases hb : body attempt b with
        | mk next sent =>
            simp only [hb] at h hsent ⊢
            cases next with
            | stop stopped =>
                cases init with
                | nil =>
                    simp only [List.nil_append, List.cons.injEq, and_true] at h
                    subst h
                    simp only [List.length_nil, Nat.add_zero, hb] at hstop ⊢
                    cases hstop
                    exact ⟨rfl, by simp⟩
                | cons c init => simp at h
            | again =>
                cases init with
                | nil =>
                    simp only [List.nil_append, List.cons.injEq] at h
                    obtain ⟨rfl, _⟩ := h
                    simp only [List.length_nil, Nat.add_zero, hb] at hstop
                    cases hstop
                | cons c init =>
                    simp only [List.cons_append, List.cons.injEq] at h
                    obtain ⟨rfl, h⟩ := h
                    have hindex : attempt + (b :: init).length = attempt + 1 + init.length := by
                      rw [List.length_cons]
                      omega
                    rw [hindex] at hstop ⊢
                    obtain ⟨houtcome, hresponses⟩ := ih h hstop
                    refine ⟨houtcome, ?_⟩
                    rw [responses_append, hresponses, hsent rfl]
                    cases hanswer : answer b <;> simp [hanswer]

end Loop

namespace RetryLoop
variable {ω α : Type} (L : RetryLoop ω α)

/-- A run of the loop. -/
def run (schedule : List (Attempt ω)) : Outcome α × List Transmission :=
  attemptLoop L.call.maxAttempts L.body 0 schedule

/-- The attempts it makes. -/
def made (schedule : List (Attempt ω)) : List (Attempt ω) :=
  attemptsMade L.call.maxAttempts L.body 0 schedule

/-- Only an answered attempt and one that fails to connect go on. -/
theorem kind_of_again {n : ℕ} {a : Attempt ω} (h : (L.body n a).1 = .again) :
    (∃ r, L.kind a = .answered r) ∨ ∃ cause, L.kind a = .connectFailed cause := by
  cases hkind : L.kind a with
  | late =>
      obtain ⟨exc, hstop, _⟩ := L.late n a hkind
      rw [hstop] at h
      cases h
  | answered r => exact .inl ⟨r, rfl⟩
  | connectFailed cause => exact .inr ⟨cause, rfl⟩
  | other => exact absurd h (L.other n a hkind)

theorem responses_of_again {n : ℕ} {a : Attempt ω} (h : (L.body n a).1 = .again) :
    responses (L.body n a).2 = (L.kind a).answer.toList := by
  rcases L.kind_of_again h with ⟨r, hkind⟩ | ⟨cause, hkind⟩
  · rw [(L.answered n a r hkind).2, hkind]
    rfl
  · rw [(L.connectFailed n a cause hkind).2, hkind]
    rfl

/-- How a call ends with an attempt that stops. -/
theorem run_ends {schedule init : List (Attempt ω)} {a : Attempt ω} {outcome : Outcome α}
    (h : L.made schedule = init ++ [a]) (hstop : (L.body init.length a).1 = .stop outcome) :
    (L.run schedule).1 = outcome ∧
      responses (L.run schedule).2 =
        (init.filterMap fun b => (L.kind b).answer) ++ responses (L.body init.length a).2 := by
  have hends := @attemptLoop_ends ω α L.call.maxAttempts L.body (fun b => (L.kind b).answer)
    (fun n b hb => L.responses_of_again hb) 0 schedule init a outcome h
  rw [Nat.zero_add] at hends
  exact hends hstop

end RetryLoop

/-- The error of an answer that is no success carries its status and its headers. -/
theorem nodeError_decoded {py : Interpreter} {raw : String} {status : ℤ} {headers : Headers}
    {e : ApiError} (hstatus : isSuccess status = false)
    (h : nodeError py raw status headers = .ok e) :
    e.statusCode = some status ∧ e.headers = headers := by
  simp only [nodeError, decodeNodeJson, decodeJsonObject, decodeJsonObject.failed, hstatus,
    Bool.not_false, if_true] at h
  cases hloaded : if raw = "" then Loaded.value (.dict []) else py.loads raw with
  | value decoded =>
      simp only [hloaded] at h
      cases h
      exact ⟨rfl, rfl⟩
  | decodeError text =>
      simp only [hloaded] at h
      cases h
      exact ⟨rfl, rfl⟩
  | raised cls text =>
      simp only [hloaded] at h
      cases h

theorem syncNodeError_decoded {py : Interpreter} {r : Response} {e : ApiError}
    (hstatus : isSuccess r.status = false) (h : syncNodeError py r = .ok e) :
    e.statusCode = some r.status ∧ e.headers = responseHeaders r.headers := by
  simp only [syncNodeError] at h
  split at h
  · exact nodeError_decoded hstatus h
  · cases h
  · cases h

theorem asyncNodeError_decoded {py : Interpreter} {r : Response} {e : ApiError}
    (hstatus : isSuccess r.status = false) (h : asyncNodeError py r = .ok e) :
    e.statusCode = some r.status ∧ e.headers = responseHeaders r.headers := by
  simp only [asyncNodeError] at h
  split at h
  · exact nodeError_decoded hstatus h
  · cases h
  · cases h

/-- An attempt of a sync loop. -/
def syncKind (call : Call) (a : Attempt (List Wire)) : AttemptKind :=
  match requiredRemainingSeconds call.deadline a.now with
  | .error _ => .late
  | .ok remaining =>
      match (openReusing call.req (requestTimeoutSeconds remaining call.timeout) 0 a.wire).1 with
      | some (.error (.url cause)) =>
          if syncConnectFailure (.url cause) then .connectFailed cause else .other
      | some (.ok r) => if isSuccess r.status then .other else .answered r
      | _ => .other

/-- An attempt of `_send`. -/
def sendKind (call : Call) (a : Attempt AsyncWire) : AttemptKind :=
  match requiredRemainingSeconds call.deadline a.now with
  | .error _ => .late
  | .ok _ =>
      match a.wire with
      | .unconnected _ certificate cause => if certificate then .other else .connectFailed cause
      | .answered _ r => if isSuccess r.status then .other else .answered r
      | .lost _ _ => .other

/-- What `open_reusing` receives. -/
theorem openReusing_responses (req : HttpRequest) (timeout : ℚ) (position : ℕ) (wires : List Wire) :
    responses (openReusing req timeout position wires).2 =
      match (openReusing req timeout position wires).1 with
      | some (.ok r) => [r]
      | _ => [] := by
  induction wires generalizing position with
  | nil => rfl
  | cons w ws ih =>
      simp only [openReusing]
      cases w.link with
      | refused e => rfl
      | fresh exchange => cases exchange <;> rfl
      | reused exchange =>
          by_cases hagain : (exchange.dropped && resendable req.method) = true
          · have hlost : exchange.ending = .lost := by
              simp only [Bool.and_eq_true] at hagain
              cases exchange with
              | answered r consumed => simp [Exchange.dropped] at hagain
              | _ => rfl
            simp only [hagain, if_true]
            rw [← ih]
            simp [responses, hlost]
          · simp only [hagain]
            cases exchange <;> rfl

section Sync
variable {α : Type} (py : Interpreter) (reader : Reader α) (call : Call)

/-- An attempt behind the deadline raises, without an answer. -/
theorem syncAttempt_late (n : ℕ) (a : Attempt (List Wire)) (h : syncKind call a = .late) :
    ∃ exc, (syncAttempt py reader call n a).1 = .stop (.raised exc) ∧
      (∀ e, exc = .api e → e.statusCode = none) ∧ (syncAttempt py reader call n a).2 = [] := by
  cases hremaining : requiredRemainingSeconds call.deadline a.now with
  | error exc =>
      obtain ⟨-, e, rfl⟩ := requiredRemaining_error hremaining
      simp only [syncAttempt, hremaining]
      by_cases hinside : reader.checksInside = true
      · refine ⟨_, by rw [if_pos hinside]; rfl, fun api hapi => ?_, trivial⟩
        cases hapi
        rfl
      · refine ⟨_, by rw [if_neg hinside], fun api hapi => ?_, trivial⟩
        cases hapi
  | ok remaining =>
      simp only [syncKind, hremaining] at h
      grind

theorem syncAttempt_answered (n : ℕ) (a : Attempt (List Wire)) (r : Response)
    (h : syncKind call a = .answered r) :
    (syncAttempt py reader call n a).1 = afterError py call n a (syncNodeError py r) ∧
      responses (syncAttempt py reader call n a).2 = [r] := by
  cases hremaining : requiredRemainingSeconds call.deadline a.now with
  | error exc => simp [syncKind, hremaining] at h
  | ok remaining =>
      have hresponses := openReusing_responses call.req
        (requestTimeoutSeconds remaining call.timeout) 0 a.wire
      simp only [syncKind, hremaining] at h
      simp only [syncAttempt, hremaining]
      grind

/-- A failure to connect has received nothing. -/
theorem syncAttempt_connectFailed (n : ℕ) (a : Attempt (List Wire)) (cause : OsError)
    (h : syncKind call a = .connectFailed cause) :
    (syncAttempt py reader call n a).1 = afterConnectFailure call n a cause ∧
      responses (syncAttempt py reader call n a).2 = [] := by
  cases hremaining : requiredRemainingSeconds call.deadline a.now with
  | error exc => simp [syncKind, hremaining] at h
  | ok remaining =>
      have hresponses := openReusing_responses call.req
        (requestTimeoutSeconds remaining call.timeout) 0 a.wire
      simp only [syncKind, hremaining] at h
      simp only [syncAttempt, hremaining]
      grind [afterRaised]

theorem syncAttempt_other (hreader : reader.Plain) (n : ℕ) (a : Attempt (List Wire))
    (h : syncKind call a = .other) : (syncAttempt py reader call n a).1 ≠ .again := by
  cases hremaining : requiredRemainingSeconds call.deadline a.now with
  | error exc => simp [syncKind, hremaining] at h
  | ok remaining =>
      have hraised : ∀ exc, syncConnectFailure exc = false →
          afterRaised (α := α) call n a exc ≠ .again := by
        intro exc hexc hagain
        rw [(afterRaised_again hagain).1] at hexc
        cases hexc
      simp only [syncKind, hremaining] at h
      simp only [syncAttempt, hremaining]
      cases hopened : (openReusing call.req
          (requestTimeoutSeconds remaining call.timeout) 0 a.wire).1 with
      | none => simp
      | some result =>
          cases result with
          | error exc =>
              refine hraised exc ?_
              cases exc with
              | url cause => simpa [hopened] using h
              | _ => rfl
          | ok r =>
              by_cases hsuccess : isSuccess r.status = true
              · simp only [hsuccess, if_true]
                cases hread : reader.read py r with
                | ok v => simp
                | error exc => exact hraised exc (hreader py r exc hread)
              · simp [hopened, hsuccess] at h

theorem syncKind_answered {a : Attempt (List Wire)} {r : Response}
    (h : syncKind call a = .answered r) : isSuccess r.status = false := by
  simp only [syncKind] at h
  grind

/-- A sync loop. -/
def syncLoop (hreader : reader.Plain) : RetryLoop (List Wire) α where
  py
  call
  body := syncAttempt py reader call
  kind := syncKind call
  decode := syncNodeError py
  late := syncAttempt_late py reader call
  answered := syncAttempt_answered py reader call
  decoded _ _ _ hkind h := syncNodeError_decoded (syncKind_answered call hkind) h
  connectFailed := syncAttempt_connectFailed py reader call
  other := syncAttempt_other py reader call hreader

/-- The loop of `SandboxClient._request_json_response`. -/
def jsonLoop : RetryLoop (List Wire) (Dict × Headers) :=
  syncLoop py jsonReader call jsonReader_plain

/-- The loop of `SandboxClient._request_bytes`. -/
def bytesLoop : RetryLoop (List Wire) Bytes := syncLoop py bytesReader call bytesReader_plain

theorem run_jsonLoop (schedule : List (Attempt (List Wire))) :
    (jsonLoop py call).run schedule = requestJsonResponse py call schedule := rfl

theorem run_bytesLoop (schedule : List (Attempt (List Wire))) :
    (bytesLoop py call).run schedule = requestBytes py call schedule := rfl

end Sync

section Async
variable (py : Interpreter) (successLimit : ℕ) (call : Call)

theorem asyncAttempt_late (n : ℕ) (a : Attempt AsyncWire) (h : sendKind call a = .late) :
    ∃ exc, (asyncAttempt py successLimit call n a).1 = .stop (.raised exc) ∧
      (∀ e, exc = .api e → e.statusCode = none) ∧
      (asyncAttempt py successLimit call n a).2 = [] := by
  cases hremaining : requiredRemainingSeconds call.deadline a.now with
  | error exc =>
      obtain ⟨-, e, rfl⟩ := requiredRemaining_error hremaining
      simp only [asyncAttempt, hremaining]
      refine ⟨_, rfl, fun api hapi => ?_, trivial⟩
      cases hapi
  | ok remaining =>
      simp only [sendKind, hremaining] at h
      grind

theorem asyncAttempt_answered (n : ℕ) (a : Attempt AsyncWire) (r : Response)
    (h : sendKind call a = .answered r) :
    (asyncAttempt py successLimit call n a).1 = afterError py call n a (asyncNodeError py r) ∧
      responses (asyncAttempt py successLimit call n a).2 = [r] := by
  cases hremaining : requiredRemainingSeconds call.deadline a.now with
  | error exc => simp [sendKind, hremaining] at h
  | ok remaining =>
      simp only [sendKind, hremaining] at h
      simp only [asyncAttempt, hremaining]
      cases hwire : a.wire with
      | unconnected start certificate cause => grind
      | lost start exc => simp [hwire] at h
      | answered start r' =>
          by_cases hsuccess : isSuccess r'.status = true
          · simp [hwire, hsuccess] at h
          · simp only [hwire, hsuccess, Bool.false_eq_true, if_false,
              AttemptKind.answered.injEq] at h
            subst h
            exact ⟨by simp [hsuccess], rfl⟩

theorem asyncAttempt_connectFailed (n : ℕ) (a : Attempt AsyncWire) (cause : OsError)
    (h : sendKind call a = .connectFailed cause) :
    (asyncAttempt py successLimit call n a).1 = afterConnectFailure call n a cause ∧
      responses (asyncAttempt py successLimit call n a).2 = [] := by
  cases hremaining : requiredRemainingSeconds call.deadline a.now with
  | error exc => simp [sendKind, hremaining] at h
  | ok remaining =>
      simp only [sendKind, hremaining] at h
      simp only [asyncAttempt, hremaining]
      cases hwire : a.wire with
      | unconnected start certificate e =>
          by_cases hcertificate : certificate = true
          · simp [hwire, hcertificate] at h
          · simp only [hwire, hcertificate, Bool.false_eq_true, if_false,
              AttemptKind.connectFailed.injEq] at h
            subst h
            exact ⟨by simp [hcertificate], rfl⟩
      | lost start exc => simp [hwire] at h
      | answered start r => grind

theorem asyncAttempt_other (n : ℕ) (a : Attempt AsyncWire) (h : sendKind call a = .other) :
    (asyncAttempt py successLimit call n a).1 ≠ .again := by
  cases hremaining : requiredRemainingSeconds call.deadline a.now with
  | error exc => simp [sendKind, hremaining] at h
  | ok remaining =>
      simp only [sendKind, hremaining] at h
      simp only [asyncAttempt, hremaining]
      grind

theorem sendKind_answered {a : Attempt AsyncWire} {r : Response}
    (h : sendKind call a = .answered r) : isSuccess r.status = false := by
  simp only [sendKind] at h
  grind

/-- The loop of `AsyncSandboxClient._send`. -/
def sendLoop : RetryLoop AsyncWire (Bytes × ℤ × Headers) where
  py
  call
  body := asyncAttempt py successLimit call
  kind := sendKind call
  decode := asyncNodeError py
  late := asyncAttempt_late py successLimit call
  answered := asyncAttempt_answered py successLimit call
  decoded _ _ _ hkind h := asyncNodeError_decoded (sendKind_answered call hkind) h
  connectFailed := asyncAttempt_connectFailed py successLimit call
  other := asyncAttempt_other py successLimit call

theorem run_sendLoop (schedule : List (Attempt AsyncWire)) :
    (sendLoop py successLimit call).run schedule = asyncSend py successLimit call schedule := rfl

end Async

end UcloudSandboxes.Client
