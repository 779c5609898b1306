import UcloudSandboxes.Client.Group

/-!
# What a failed group create reports

`SandboxGroupError` carries the last list of members that the gateway sent. Not in every run: an
exception that is no `SandboxApiError` does not pass through `retry_delay`, and a malformed list is
a plain `SandboxApiError`.

## Main results

* `afterRequest_spec`: one round.
* `group_tracked_iff`: the runs in which a failure reports the last list.
-/
namespace UcloudSandboxes.Client
open Python Http

namespace GroupCreate
variable (py : Interpreter)

/-- The call still runs, returns handles, or raises a `SandboxGroupError`, and one that is no
`SandboxGroupUnavailableError` carries the last list. -/
def Tracked (outcome : GroupOutcome) (listed : List SandboxGroupStatus) : Prop :=
  match outcome with
  | .running | .returned _ | .raised (.unavailable _) => True
  | .raised (.group _ group) => listed ≠ [] → group = listed.getLast?
  | .raised (.other _) => False

/-- The list in the payload is well formed, and `on_progress` returns. -/
def Accepted (payload : Json) (progress : Option Raised) : Prop :=
  (SandboxGroupStatus.fromPayload py payload).isOk = true ∧ progress = none

/-- The request loop ends without an exception of its own making. -/
def Reported : RequestEnd → Prop
  | .running | .returned _ | .raised (.api _) => True
  | .raised _ | .unreachable => False

/-- The answer is one that the loop can account for: a success carries a well-formed list, an error
that carries members carries them well formed, and the retry rule can look its `error_code` up. -/
def SoundAnswer (progress : Option Raised) : RequestEnd → Prop
  | .returned (answer, _) => Accepted py (.dict answer) progress
  | .raised (.api e) => unavailableStatus e = true ∨
      (carriesMembers e = true → Accepted py e.body progress) ∧
        ∀ status, e.statusCode = some status →
          ¬ (looksUpCode "POST" "/v1/sandboxes" status e.body = true ∧
            unhashable (errorCode e.body) = true)
  | _ => True

/-- The end of a request is one that the loop can account for. -/
def SoundEnd (progress : Option Raised) (ended : RequestEnd) : Prop :=
  Reported ended ∧ SoundAnswer py progress ended

variable {py} {create : GroupCreate} {ω : Type}

theorem lists_append (ends more : List RequestEnd) :
    lists py (ends ++ more) = lists py ends ++ lists py more := List.filterMap_append

/-- `accept` keeps the list, unless the list is malformed; only then, or when `on_progress` raises,
it raises. -/
theorem accept_cases (s : GroupState) (payload : Json) (progress : Option Raised) :
    (∃ exc, (accept py s payload progress).2.2 = .error exc ∧ ¬ Accepted py payload progress) ∨
      ∃ status, SandboxGroupStatus.fromPayload py payload = .ok status ∧ progress = none ∧
        (accept py s payload progress).2 =
          ({ s with records := keepRecords s.records status.members, last := some status },
            .ok status) := by
  simp only [accept, Accepted]
  cases hpayload : SandboxGroupStatus.fromPayload py payload with
  | error exc => exact .inl ⟨exc, rfl, fun h => by cases h.1⟩
  | ok status =>
      cases progress with
      | some exc => exact .inl ⟨exc, rfl, fun h => by cases h.2⟩
      | none => exact .inr ⟨status, rfl, rfl, rfl⟩

/-- The lists so far, with the state that goes with them. -/
def Follows (py : Interpreter) (s : GroupState) (ends : List RequestEnd) : Prop :=
  s.last = (lists py ends).getLast?

theorem lists_snoc (ends : List RequestEnd) (ended : RequestEnd) :
    lists py (ends ++ [ended]) = lists py ends ++ (listedIn py ended).toList := by
  rw [lists_append]
  cases h : listedIn py ended <;> simp [lists, h]

/-- A list that comes with the end of a request is the last one. -/
theorem getLast_lists_snoc {ends : List RequestEnd} {ended : RequestEnd} {status : SandboxGroupStatus}
    (h : listedIn py ended = some status) :
    (lists py (ends ++ [ended])).getLast? = some status := by
  rw [lists_snoc, h]
  simp

/-- `retry_delay` up to its retry rule: it raises on a malformed list, and otherwise keeps the last
list. -/
theorem acceptError_cases {s : GroupState} {ends : List RequestEnd} (hs : Follows py s ends)
    (e : ApiError) (r : Round ω) :
    (∃ exc, (acceptError py s e r).2.2 = .error exc ∧
      ¬ (carriesMembers e = true → Accepted py e.body r.progress)) ∨
    ∃ s' group, (acceptError py s e r).2 = (s', .ok group) ∧
      Follows py s' (ends ++ [.raised (.api e)]) ∧ group.or s'.last = s'.last ∧
      (carriesMembers e = true → Accepted py e.body r.progress) := by
  simp only [acceptError]
  cases hcarries : carriesMembers e with
  | true =>
      rcases accept_cases s e.body r.progress with
        ⟨exc, hexc, hnot⟩ | ⟨status, hstatus, hprogress, hok⟩
      · exact .inl ⟨exc, by simp [hexc, Except.map], fun h => hnot (h rfl)⟩
      · refine .inr ⟨_, _, by simp only [hok, Except.map, if_true]; rfl, ?_, rfl, fun _ => ?_⟩
        · exact (getLast_lists_snoc (by simp [listedIn, hstatus, Except.toOption])).symm
        · exact ⟨by simp [hstatus, Except.isOk, Except.toBool], hprogress⟩
  | false =>
      refine .inr ⟨s, none, rfl, ?_, by simp, fun h => by cases h⟩
      have hnone : listedIn py (.raised (.api e)) = none := by
        simp only [listedIn]
        cases hpayload : SandboxGroupStatus.fromPayload py e.body with
        | error exc => rfl
        | ok status => simp [carriesMembers_of_listed hpayload] at hcarries
      simpa [Follows, lists_snoc, hnone] using hs

/-- The retry rule raises only where it looks up an `error_code` that is not hashable. -/
theorem retries_cases (s : GroupState) (e : ApiError) :
    ((∃ b, retries s e = .ok b) ∧ ∀ status, e.statusCode = some status →
        ¬ (looksUpCode "POST" "/v1/sandboxes" status e.body = true ∧
          unhashable (errorCode e.body) = true)) ∨
      (∃ exc, retries s e = .error exc) ∧ ∃ status, e.statusCode = some status ∧
        looksUpCode "POST" "/v1/sandboxes" status e.body = true ∧
          unhashable (errorCode e.body) = true := by
  have hupper : "POST".toUpper = "POST" := by decide +kernel
  simp only [retries]
  cases hstatus : e.statusCode with
  | none => exact .inl ⟨⟨false, rfl⟩, fun _ h => by cases h⟩
  | some status =>
      by_cases h : looksUpCode "POST" "/v1/sandboxes" status e.body = true ∧
          unhashable (errorCode e.body) = true
      · obtain ⟨cls, text, hraises⟩ := shouldRetry_typeError (hupper.symm ▸ h.1) h.2 s.attempt none
        exact .inr ⟨⟨_, hraises⟩, status, rfl, h⟩
      · refine .inl ⟨shouldRetry_ok (hupper.symm ▸ h) s.attempt none, fun _ hs => ?_⟩
        cases hs
        exact h

variable (create) in
/-- What becomes of an error. -/
theorem retryDelay_spec {s : GroupState} {ends : List RequestEnd} (hs : Follows py s ends)
    (e : ApiError) (r : Round ω) :
    (∃ s' delay, (retryDelay py create s e r).2 = (s', .ok delay) ∧
        Follows py s' (ends ++ [.raised (.api e)]) ∧ SoundEnd py r.progress (.raised (.api e))) ∨
      ∃ exc, (retryDelay py create s e r).2.2 = .error exc ∧
        (Tracked (.raised exc) (lists py (ends ++ [.raised (.api e)])) ↔
          SoundEnd py r.progress (.raised (.api e))) := by
  simp only [retryDelay]
  cases hunavailable : unavailableStatus e with
  | true => exact .inr ⟨_, rfl, by simp [Tracked, SoundEnd, Reported, SoundAnswer, hunavailable]⟩
  | false =>
      simp only [SoundEnd, Reported, SoundAnswer, hunavailable, Bool.false_eq_true, if_false,
        false_or, true_and]
      rcases acceptError_cases hs e r with
        ⟨exc, hexc, hnot⟩ | ⟨s', group, hok, hfollows, hgroup, haccepted⟩
      · refine .inr ⟨.other exc, ?_, by simp [Tracked, hnot]⟩
        generalize acceptError py s e r = accepted at hexc ⊢
        obtain ⟨log, s', result⟩ := accepted
        cases hexc
        rfl
      · generalize acceptError py s e r = accepted at hok ⊢
        obtain ⟨log, accepted⟩ := accepted
        cases hok
        simp only
        rcases retries_cases s' e with
          ⟨⟨retry, hretry⟩, hcode⟩ | ⟨⟨exc, hexc⟩, status, hstatus, hcode⟩
        · simp only [hretry]
          have hsound : (carriesMembers e = true → Accepted py e.body r.progress) ∧
              ∀ status, e.statusCode = some status →
                ¬ (looksUpCode "POST" "/v1/sandboxes" status e.body = true ∧
                  unhashable (errorCode e.body) = true) := ⟨haccepted, hcode⟩
          have htracked : ∀ e', Tracked (.raised (GroupCreate.error s' e' group))
              (lists py (ends ++ [.raised (.api e)])) := fun e' _ => by
            rw [hgroup]
            exact hfollows
          cases retry with
          | false => exact .inr ⟨_, rfl, iff_of_true (htracked e) hsound⟩
          | true =>
              simp only
              split
              · exact .inr ⟨_, rfl, iff_of_true (htracked _) hsound⟩
              · exact .inl ⟨_, _, rfl, hfollows, hsound⟩
        · simp only [hexc]
          refine .inr ⟨_, rfl, iff_of_false (fun h => h) fun h => ?_⟩
          exact h.2 status hstatus hcode

variable (create) in
/-- **One round.** It goes on only when its request ended in a way the loop can account for, and
keeps the last list; where it stops, it reports the last list exactly in that case. -/
theorem afterRequest_spec {s : GroupState} {ends : List RequestEnd} (hs : Follows py s ends)
    (r : Round ω) (ended : RequestEnd) :
    (∃ s', (afterRequest py create s r ended).2 = .next s' ∧ Follows py s' (ends ++ [ended]) ∧
        SoundEnd py r.progress ended) ∨
      ∃ outcome, (afterRequest py create s r ended).2 = .stop outcome ∧
        (Tracked outcome (lists py (ends ++ [ended])) ↔ SoundEnd py r.progress ended) := by
  cases ended with
  | running => exact .inr ⟨_, rfl, by simp [Tracked, SoundEnd, Reported, SoundAnswer]⟩
  | unreachable => exact .inr ⟨_, rfl, by simp [Tracked, SoundEnd, Reported]⟩
  | returned v =>
      refine .inr ?_
      simp only [afterRequest, SoundEnd, Reported, SoundAnswer, true_and]
      rcases accept_cases s (.dict v.1) r.progress with
        ⟨exc, hexc, hnot⟩ | ⟨status, hstatus, hprogress, hok⟩
      · generalize accept py s (.dict v.1) r.progress = accepted at hexc ⊢
        obtain ⟨log, s', result⟩ := accepted
        cases hexc
        exact ⟨_, rfl, by simp [Tracked, hnot]⟩
      · have haccepted : Accepted py (.dict v.1) r.progress :=
          ⟨by simp [hstatus, Except.isOk, Except.toBool], hprogress⟩
        have hlast : (lists py (ends ++ [.returned v])).getLast? = some status :=
          getLast_lists_snoc (by simp [listedIn, hstatus, Except.toOption])
        generalize accept py s (.dict v.1) r.progress = accepted at hok ⊢
        obtain ⟨log, accepted⟩ := accepted
        cases hok
        simp only [handles]
        by_cases hcomplete : status.complete = true
        · simp only [hcomplete, if_true]
          exact ⟨_, rfl, iff_of_true trivial haccepted⟩
        · simp only [hcomplete]
          exact ⟨_, rfl, iff_of_true (fun _ => hlast.symm) haccepted⟩
  | raised exc =>
      cases exc with
      | api e =>
          simp only [afterRequest]
          rcases retryDelay_spec create hs e r with ⟨s', delay, hok, h⟩ | ⟨exc, hexc, h⟩
          · refine .inl ⟨s', ?_, h⟩
            generalize retryDelay py create s e r = result at hok ⊢
            obtain ⟨log, result⟩ := result
            cases hok
            rfl
          · refine .inr ⟨.raised exc, ?_, h⟩
            generalize retryDelay py create s e r = result at hexc ⊢
            obtain ⟨log, s', result⟩ := result
            cases hexc
            rfl
      | _ => exact .inr ⟨_, rfl, by simp [Tracked, SoundEnd, Reported]⟩

/-- A round that the loop can account for: it starts before the deadline, and so does its
request. -/
def SoundRound (py : Interpreter) (create : GroupCreate)
    (send : Call → List (Attempt ω) → RequestEnd × List Transmission) (r : Round ω) : Prop :=
  r.now < create.deadline ∧ SoundEnd py r.progress (send (create.call r) r.attempts).1

section Run
variable {send : Call → List (Attempt ω) → RequestEnd × List Transmission}

variable (create send) in
/-- The run from some state on. -/
theorem run_tracked {s : GroupState} {ends : List RequestEnd} (hs : Follows py s ends)
    (rounds : List (Round ω)) :
    Tracked (run py create send s rounds).1 (lists py (ends ++ (run py create send s rounds).2)) ↔
      ∀ r ∈ roundsMade py create send s rounds, SoundRound py create send r := by
  induction rounds generalizing s ends with
  | nil => simp [run, loop, roundsMade, Tracked]
  | cons r rest ih =>
      cases hremaining : requiredRemainingSeconds (some create.deadline) r.now with
      | error exc =>
          obtain ⟨⟨d, hd, hle⟩, -⟩ := requiredRemaining_error hremaining
          cases hd
          have hnot : ¬ SoundRound py create send r := fun h => absurd h.1 (not_lt.mpr hle)
          rw [run_expired hremaining]
          simp [roundsMade, round, leave, hremaining, Tracked, hnot]
      | ok remaining =>
          have hnow : r.now < create.deadline := requiredRemaining_ok hremaining _ rfl
          rcases afterRequest_spec create hs r (send (create.call r) r.attempts).1 with
            ⟨s', hnext, hs', hsound⟩ | ⟨outcome, hstop, hiff⟩
          · have hround : SoundRound py create send r := ⟨hnow, hsound⟩
            have hrest := ih hs'
            rw [run_next hremaining hnext]
            simp only [roundsMade, round, hremaining, hnext, List.forall_mem_cons, hround, true_and]
            rw [← hrest, List.append_assoc, List.singleton_append]
          · rw [run_stop hremaining hstop]
            simp only [roundsMade, round, hremaining, hstop, List.forall_mem_singleton, SoundRound,
              hnow, true_and]
            exact hiff

end Run

section Transport

/-- The sync client makes an object or a `SandboxApiError` of the response. -/
def SyncReadable (py : Interpreter) (r : Response) : Prop :=
  match readSyncResponse py r maxJsonResponseBytes with
  | .ok raw =>
      if isSuccess r.status then ∃ text, py.utf8 raw = some text ∧ ¬ LoadsRaises py text
      else ¬ LoadsRaises py (py.utf8Replace raw)
  | .error (.tooLarge _) => True
  | .error exc => isSuccess r.status = true ∧ exc.isOsError = true

/-- The async client makes an object or a `SandboxApiError` of the response. -/
def AsyncReadable (py : Interpreter) (r : Response) : Prop :=
  match readAsyncResponse py r maxJsonResponseBytes with
  | .ok raw => ¬ LoadsRaises py (py.utf8Replace raw)
  | .error (.tooLarge _) => True
  | .error _ => False

/-- What `open_reusing` returns is readable, and what it raises is caught. -/
def SyncWrapped (py : Interpreter) : Except Raised Response → Prop
  | .ok r => SyncReadable py r
  | .error exc =>
      match exc with
      | .api _ | .tooLarge _ | .os _ | .url _ => True
      | .protocol _ | .builtin _ _ | .base _ => False

/-- What `client.request` of `aiohttp` returns is readable, and what it raises is caught. -/
def AsyncWrapped (py : Interpreter) : AsyncWire → Prop
  | .unconnected _ certificate _ => certificate = false
  | .lost _ exc => ∃ e, exc = .api e
  | .answered _ r => AsyncReadable py r

/-- An attempt of the sync client that ends well. -/
def SyncSound (py : Interpreter) (call : Call) (a : Attempt (List Wire)) : Prop :=
  call.OpenAt a.now ∧
    ∀ result, (openReusing call.req 0 0 a.wire).1 = some result → SyncWrapped py result

/-- An attempt of the async client that ends well. -/
def AsyncSound (py : Interpreter) (call : Call) (a : Attempt AsyncWire) : Prop :=
  call.OpenAt a.now ∧ AsyncWrapped py a.wire

/-- What `open_reusing` yields does not depend on the timeout nor on the position of a file. -/
theorem openReusing_result (req : HttpRequest) (timeout timeout' : ℚ) (position position' : ℕ)
    (ws : List Wire) :
    (openReusing req timeout position ws).1 = (openReusing req timeout' position' ws).1 := by
  induction ws generalizing position position' with
  | nil => rfl
  | cons w ws ih =>
      simp only [openReusing]
      split
      · rfl
      · rfl
      · split
        · exact ih _ _
        · rfl

/-- The request loop leaves the answers to a group create to the loop around it. -/
theorem afterError_group {α : Type} {call : Call} (hmethod : call.req.method = "POST")
    (hpath : call.req.path = sandboxGroupPath) (attempt : ℕ) (a : Attempt ω) (e : ApiError) :
    afterError (α := α) py call attempt a (.ok e) = .stop (.raised (.api e)) := by
  have hretry : retryError py e attempt call.req.method call.req.path call.maxAttempts a.jitter =
      .ok none := by
    have hupper : ("POST".toUpper == "POST" && sandboxGroupPath == sandboxGroupPath) = true := by
      decide +kernel
    simp only [retryError, shouldRetryUcloudUnavailable]
    rw [hmethod, hpath]
    simp only [hupper, if_true]
    cases e.statusCode <;> rfl
  simp only [afterError, hretry]

/-- What follows an exception of a sync attempt. -/
theorem afterRaised_decides (call : Call) (attempt : ℕ) (a : Attempt ω) (exc : Raised) :
    (afterRaised call attempt a exc).Decides Reported (SyncWrapped py (.error exc)) := by
  have hconnect : ∀ cause,
      (afterConnectFailure (α := Dict × Headers) call attempt a cause).Decides Reported True := by
    intro cause
    simp only [afterConnectFailure]
    split
    · split <;> simp [Next.Decides, Reported]
    · simp [Next.Decides, Reported]
  cases exc with
  | url cause =>
      simp only [afterRaised, SyncWrapped]
      split
      · exact hconnect cause
      · simp [Next.Decides, Reported]
  | _ => simp [afterRaised, SyncWrapped, Next.Decides, Reported]

variable (py) in
/-- How the sync client reads a success. -/
theorem jsonReader_readable {r : Response} (hstatus : isSuccess r.status = true) :
    match jsonReader.read py r with
    | .ok _ => SyncReadable py r
    | .error exc => (SyncWrapped py (.error exc) ↔ SyncReadable py r) := by
  simp only [jsonReader, SyncReadable, bind, Except.bind, pure, Except.pure, hstatus, if_true]
  cases hread : readSyncResponse py r maxJsonResponseBytes with
  | error exc =>
      rcases readSyncResponse_error hread with rfl | ⟨e, -, rfl⟩ | ⟨text, -, rfl⟩ <;>
        simp [SyncWrapped, Raised.isOsError]
  | ok raw =>
      simp only
      cases hutf8 : py.utf8 raw with
      | none => simp [SyncWrapped]
      | some text =>
          have hraises := loadsRaises_node py text r.status (responseHeaders r.headers)
          simp only [Option.some.injEq, exists_eq_left', hraises]
          cases hdecode : decodeNodeJson py text r.status (responseHeaders r.headers) with
          | ok answer => simp
          | error exc =>
              rcases decode_error hdecode with ⟨e, rfl⟩ | ⟨cls, message, -, rfl⟩ <;>
                simp [SyncWrapped]

variable (py) in
/-- How both clients make an error of an answer that they have read. -/
theorem nodeError_reported {raw : String} {status : ℤ} (headers : Headers)
    (hstatus : isSuccess status = false) :
    (∃ e, nodeError py raw status headers = .ok e ∧ ¬ LoadsRaises py raw) ∨
      ∃ cls text, nodeError py raw status headers = .error (.builtin cls text) ∧
        LoadsRaises py raw := by
  simp only [nodeError, decodeNodeJson, decodeJsonObject, decodeJsonObject.failed, hstatus,
    Bool.not_false, if_true, LoadsRaises]
  cases hloaded : if raw = "" then Loaded.value (.dict []) else py.loads raw with
  | value decoded => exact .inl ⟨_, rfl, by grind⟩
  | decodeError text => exact .inl ⟨_, rfl, by grind⟩
  | raised cls text => exact .inr ⟨cls, text, rfl, by grind⟩

/-- What follows an answer to a group create that is no success. -/
theorem afterError_decides {call : Call} (hmethod : call.req.method = "POST")
    (hpath : call.req.path = sandboxGroupPath) (attempt : ℕ) (a : Attempt ω) {r : Response}
    (hstatus : isSuccess r.status = false) :
    (afterError py call attempt a (syncNodeError py r)).Decides Reported (SyncReadable py r) := by
  simp only [syncNodeError, SyncReadable]
  cases hread : readSyncResponse py r maxJsonResponseBytes with
  | error exc =>
      rcases readSyncResponse_error hread with rfl | ⟨e, -, rfl⟩ | ⟨text, -, rfl⟩ <;>
        simp [afterError, Next.Decides, Reported, hstatus]
  | ok raw =>
      simp only [hstatus, Bool.false_eq_true, if_false]
      rcases nodeError_reported py (responseHeaders r.headers) hstatus with
        ⟨e, he, hnot⟩ | ⟨cls, text, he, hraises⟩
      · rw [he, afterError_group hmethod hpath]
        simpa [Next.Decides, Reported] using hnot
      · rw [he]
        simpa [afterError, Next.Decides, Reported] using hraises

theorem syncAttempt_decides {call : Call} (hmethod : call.req.method = "POST")
    (hpath : call.req.path = sandboxGroupPath) (attempt : ℕ) (a : Attempt (List Wire)) :
    (syncAttempt py jsonReader call attempt a).1.Decides Reported (SyncSound py call a) := by
  simp only [syncAttempt, SyncSound]
  cases hremaining : requiredRemainingSeconds call.deadline a.now with
  | error exc =>
      obtain ⟨⟨d, hd, hle⟩, e, rfl⟩ := requiredRemaining_error hremaining
      have hlate : ¬ call.OpenAt a.now := fun h => absurd (h d hd) (not_lt.mpr hle)
      simp [jsonReader, Next.Decides, Reported, hlate]
  | ok remaining =>
      have hnow : call.OpenAt a.now := requiredRemaining_ok hremaining
      rw [openReusing_result call.req 0 (requestTimeoutSeconds remaining call.timeout) 0 0]
      simp only [hnow, true_and]
      cases (openReusing call.req (requestTimeoutSeconds remaining call.timeout) 0 a.wire).1 with
      | none => simp [Next.Decides, Reported]
      | some result =>
          simp only [Option.some.injEq, forall_eq']
          cases result with
          | error exc => exact afterRaised_decides call attempt a exc
          | ok r =>
              cases hstatus : isSuccess r.status with
              | true =>
                  have hread := jsonReader_readable py hstatus
                  simp only [SyncWrapped]
                  cases hresult : jsonReader.read py r with
                  | ok v =>
                      rw [hresult] at hread
                      simpa [hstatus, Next.Decides, Reported] using hread
                  | error exc =>
                      rw [hresult] at hread
                      simp only at hread
                      rw [← hread]
                      simp only [hstatus, if_true]
                      exact afterRaised_decides call attempt a exc
              | false =>
                  simp only [hstatus, Bool.false_eq_true, if_false]
                  exact afterError_decides hmethod hpath attempt a hstatus

/-- The request of the sync client ends well exactly when every attempt that it makes does. -/
theorem sync_reported_iff {call : Call} (hmethod : call.req.method = "POST")
    (hpath : call.req.path = sandboxGroupPath) (schedule : List (Attempt (List Wire))) :
    Reported (requestJsonResponse py call schedule).1 ↔
      ∀ a ∈ syncAttempts py jsonReader call schedule, SyncSound py call a :=
  attemptLoop_outcome_iff trivial (syncAttempt_decides hmethod hpath)
    (fun _ _ most hmost => syncAttempt_again.2 most hmost) (fun _ h => maxAttempts_pos h) schedule

/-- What follows an answer that the async client read and that is no success. -/
theorem asyncError_decides {call : Call} (hmethod : call.req.method = "POST")
    (hpath : call.req.path = sandboxGroupPath) (attempt : ℕ) (a : Attempt ω) {r : Response}
    (hstatus : isSuccess r.status = false) :
    (afterError py call attempt a (asyncNodeError py r)).Decides
      (fun o => Reported (asyncDecoded py o)) (AsyncReadable py r) := by
  simp only [asyncNodeError, AsyncReadable]
  cases hread : readAsyncResponse py r maxJsonResponseBytes with
  | error exc =>
      rcases readAsyncResponse_error hread with rfl | ⟨e, rfl⟩ | ⟨cls, text, rfl⟩ <;>
        simp [afterError, Next.Decides, Reported, asyncDecoded]
  | ok raw =>
      simp only
      rcases nodeError_reported py (responseHeaders r.headers) hstatus with
        ⟨e, he, hnot⟩ | ⟨cls, text, he, hraises⟩
      · rw [he, afterError_group hmethod hpath]
        simpa [Next.Decides, Reported, asyncDecoded] using hnot
      · rw [he]
        simpa [afterError, Next.Decides, Reported, asyncDecoded] using hraises

/-- How the async client reads a success. -/
theorem asyncRead_readable (py : Interpreter) (r : Response) :
    Reported (asyncDecoded py (match asyncRead py maxJsonResponseBytes r with
      | .ok v => .returned v
      | .error exc => .raised exc)) ↔ AsyncReadable py r := by
  simp only [asyncRead, AsyncReadable]
  cases hread : readAsyncResponse py r maxJsonResponseBytes with
  | error exc =>
      rcases readAsyncResponse_error hread with rfl | ⟨e, rfl⟩ | ⟨cls, text, rfl⟩ <;>
        simp [Reported, asyncDecoded]
  | ok raw =>
      have hraises := loadsRaises_node py (py.utf8Replace raw) r.status (responseHeaders r.headers)
      simp only [asyncDecoded, hraises]
      cases hdecode : decodeNodeJson py (py.utf8Replace raw) r.status
          (responseHeaders r.headers) with
      | ok answer => simp [Reported]
      | error exc =>
          rcases decode_error hdecode with ⟨e, rfl⟩ | ⟨cls, message, -, rfl⟩ <;> simp [Reported]

theorem asyncAttempt_decides {call : Call} (hmethod : call.req.method = "POST")
    (hpath : call.req.path = sandboxGroupPath) (attempt : ℕ) (a : Attempt AsyncWire) :
    (asyncAttempt py maxJsonResponseBytes call attempt a).1.Decides
      (fun o => Reported (asyncDecoded py o)) (AsyncSound py call a) := by
  simp only [asyncAttempt, AsyncSound]
  cases hremaining : requiredRemainingSeconds call.deadline a.now with
  | error exc =>
      obtain ⟨⟨d, hd, hle⟩, e, rfl⟩ := requiredRemaining_error hremaining
      have hlate : ¬ call.OpenAt a.now := fun h => absurd (h d hd) (not_lt.mpr hle)
      simp [Next.Decides, Reported, asyncDecoded, hlate]
  | ok remaining =>
      have hnow : call.OpenAt a.now := requiredRemaining_ok hremaining
      simp only [hnow, true_and]
      cases a.wire with
      | unconnected start certificate e =>
          cases certificate with
          | true => simp [Next.Decides, Reported, asyncDecoded, AsyncWrapped]
          | false =>
              simp only [AsyncWrapped, Bool.false_eq_true, if_false, afterConnectFailure]
              split
              · split <;> simp [Next.Decides, Reported, asyncDecoded]
              · simp [Next.Decides, Reported, asyncDecoded]
      | lost start exc =>
          cases exc <;> simp [Next.Decides, Reported, asyncDecoded, AsyncWrapped]
      | answered start r =>
          simp only [AsyncWrapped]
          cases hstatus : isSuccess r.status with
          | true =>
              have hread := asyncRead_readable py r
              simp only [if_true]
              cases hresult : asyncRead py maxJsonResponseBytes r with
              | ok v =>
                  rw [hresult] at hread
                  exact hread
              | error exc =>
                  rw [hresult] at hread
                  exact hread
          | false =>
              simp only [Bool.false_eq_true, if_false]
              exact asyncError_decides hmethod hpath attempt a hstatus

/-- The attempts that the async client makes. -/
def asyncAttempts (py : Interpreter) (call : Call) (schedule : List (Attempt AsyncWire)) :
    List (Attempt AsyncWire) :=
  attemptsMade call.maxAttempts (asyncAttempt py maxJsonResponseBytes call) 0 schedule

/-- The request of the async client ends well exactly when every attempt that it makes does. -/
theorem async_reported_iff {call : Call} (hmethod : call.req.method = "POST")
    (hpath : call.req.path = sandboxGroupPath) (schedule : List (Attempt AsyncWire)) :
    Reported (asyncRequestJsonResponse py call schedule).1 ↔
      ∀ a ∈ asyncAttempts py call schedule, AsyncSound py call a :=
  attemptLoop_outcome_iff (P := fun o => Reported (asyncDecoded py o)) trivial
    (asyncAttempt_decides hmethod hpath)
    (fun n a most hmost => (asyncAttempt_again n a).2 most hmost) (fun _ h => maxAttempts_pos h)
    schedule

end Transport

/-- The answer lists a placed member. -/
def placedIn (py : Interpreter) (ended : RequestEnd) : Bool :=
  (listedIn py ended).any fun status => status.members.any SandboxGroupMember.placed

end GroupCreate

open GroupCreate

/-- **A failed group create reports the placed members**, for both clients, exactly in the runs
whose rounds all start before the deadline, make attempts whose exceptions are wrapped, and end in
answers that the loop can account for. -/
theorem group_tracked_iff (py : Interpreter) (create : GroupCreate) :
    (∀ rounds, Tracked (createSandboxGroup py create rounds).1
        (lists py (createSandboxGroup py create rounds).2) ↔
      ∀ r ∈ create.roundsMade py (requestJsonResponse py) {} rounds, r.now < create.deadline ∧
        (∀ a ∈ syncAttempts py jsonReader (create.call r) r.attempts,
          SyncSound py (create.call r) a) ∧
        SoundAnswer py r.progress (requestJsonResponse py (create.call r) r.attempts).1) ∧
    (∀ rounds, Tracked (asyncCreateSandboxGroup py create rounds).1
        (lists py (asyncCreateSandboxGroup py create rounds).2) ↔
      ∀ r ∈ create.roundsMade py (asyncRequestJsonResponse py) {} rounds, r.now < create.deadline ∧
        (∀ a ∈ asyncAttempts py (create.call r) r.attempts, AsyncSound py (create.call r) a) ∧
        SoundAnswer py r.progress (asyncRequestJsonResponse py (create.call r) r.attempts).1) := by
  have hstart : Follows py ({} : GroupState) [] := rfl
  constructor
  · intro rounds
    have hrun := run_tracked create (requestJsonResponse py) hstart rounds
    refine hrun.trans (forall₂_congr fun r _ => ?_)
    rw [SoundRound, SoundEnd, sync_reported_iff rfl rfl]
  · intro rounds
    have hrun := run_tracked create (asyncRequestJsonResponse py) hstart rounds
    refine hrun.trans (forall₂_congr fun r _ => ?_)
    rw [SoundRound, SoundEnd, async_reported_iff rfl rfl]

/-- A list with one placed member, in an answer that asks for a repeat. -/
def partialText : String :=
  "\x7b\"group\": \x7b\x7d, \"sandboxes\": [\x7b\"id\": \"g-0000\", \"status\": \"running\"\x7d, " ++
    "\x7b\"id\": \"g-0001\", \"status\": \"pending\"\x7d], \"retryable\": true\x7d"

def partialInterpreter : Interpreter :=
  .ascii [("{}", .dict []), (partialText, .dict [
    ("group", .dict []),
    ("sandboxes", .list [
      .dict [("id", .str "g-0000"), ("status", .str "running")],
      .dict [("id", .str "g-0001"), ("status", .str "pending")]]),
    ("retryable", .bool true)])]

/-- A group create with one second for it. -/
def hastyCreate : GroupCreate where
  headers := []
  body := []
  timeout := 1
  deadline := 1

/-- A response with this text. -/
def textResponse (status : ℤ) (text : String) : Response where
  status
  headers := []
  body := { length := some text.utf8ByteSize, chunks := [text.toUTF8.toList], ending := .complete }

/-- A round that starts at `now`, on a transport that does `wire`. -/
def wireRound {ω : Type} (now : ℚ) (wire : ω) : Round ω where
  now
  begun := now
  attempts := [{ now, wire, later := now, jitter := 0 }]
  later := now
  jitter := 0

/-- The members of the first answer are placed; the answer of the second round is `r`. -/
def partialRounds (now : ℚ) (r : Response) : List (Round (List Wire)) :=
  [wireRound 0 [⟨0, .fresh (.answered (textResponse 503 partialText) 0)⟩],
    wireRound now [⟨now, .fresh (.answered r 0)⟩]]

def asyncPartialRounds (now : ℚ) (r : Response) : List (Round AsyncWire) :=
  [wireRound 0 (.answered 0 (textResponse 503 partialText)), wireRound now (.answered now r)]

/-- An exception that is no `SandboxGroupError` left the call. -/
def escaped : GroupOutcome → Bool
  | .raised (.other _) => true
  | _ => false

theorem not_tracked_of_escaped {outcome : GroupOutcome} {listed : List SandboxGroupStatus}
    (h : escaped outcome = true) : ¬ Tracked outcome listed := by
  cases outcome with
  | raised exc =>
      cases exc with
      | other exc => exact id
      | _ => cases h
  | _ => cases h

/-- What the two rounds come to. -/
theorem partialRounds_escape :
    (placedIn partialInterpreter <$> (createSandboxGroup partialInterpreter hastyCreate
        (partialRounds 1 (textResponse 200 "{}"))).2) = [true] ∧
    escaped (createSandboxGroup partialInterpreter hastyCreate
        (partialRounds 1 (textResponse 200 "{}"))).1 = true := by
  decide +kernel

theorem asyncPartialRounds_escape :
    (placedIn partialInterpreter <$> (asyncCreateSandboxGroup partialInterpreter hastyCreate
        (asyncPartialRounds 1 (textResponse 200 "{}"))).2) = [true] ∧
    escaped (asyncCreateSandboxGroup partialInterpreter hastyCreate
        (asyncPartialRounds 1 (textResponse 200 "{}"))).1 = true := by
  decide +kernel

/-- A member is placed, and then the sleep lasts until the deadline: a `TimeoutError` leaves the
call of either client, and the list is lost. -/
theorem group_list_lost :
    (placedIn partialInterpreter <$> (createSandboxGroup partialInterpreter hastyCreate
        (partialRounds 1 (textResponse 200 "{}"))).2) = [true] ∧
    ¬ Tracked (createSandboxGroup partialInterpreter hastyCreate
        (partialRounds 1 (textResponse 200 "{}"))).1
      (lists partialInterpreter (createSandboxGroup partialInterpreter hastyCreate
        (partialRounds 1 (textResponse 200 "{}"))).2) ∧
    (placedIn partialInterpreter <$> (asyncCreateSandboxGroup partialInterpreter hastyCreate
        (asyncPartialRounds 1 (textResponse 200 "{}"))).2) = [true] ∧
    ¬ Tracked (asyncCreateSandboxGroup partialInterpreter hastyCreate
        (asyncPartialRounds 1 (textResponse 200 "{}"))).1
      (lists partialInterpreter (asyncCreateSandboxGroup partialInterpreter hastyCreate
        (asyncPartialRounds 1 (textResponse 200 "{}"))).2) :=
  ⟨partialRounds_escape.1, not_tracked_of_escaped partialRounds_escape.2,
    asyncPartialRounds_escape.1, not_tracked_of_escaped asyncPartialRounds_escape.2⟩

end UcloudSandboxes.Client
