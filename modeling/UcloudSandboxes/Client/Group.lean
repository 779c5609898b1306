import UcloudSandboxes.Client.Deadline

/-!
# Creating a group of sandboxes

`SandboxClient.create_sandbox_group` and its async twin repeat one identical request until the
gateway has placed every member. `_SandboxGroupCreate` keeps what the answers say about members. The
loop runs against a schedule with one `Round` for each request; what a request does inside a round
is the request loop of the client. The model logs what the caller can see: how the requests end, the
calls of `on_progress`, the sleeps, and how the call ends.

## Main definitions

* `SandboxGroupStatus.fromPayload`: the list of members in an answer.
* `GroupEvent`: an entry of the log.
* `GroupCreate.retryDelay`: what becomes of an error.
* `GroupCreate.loop`: the loop, with its log; `GroupCreate.run` keeps how its requests ended.
-/
namespace UcloudSandboxes.Client
open Python Http

/-- `SandboxGroupMember`. -/
structure SandboxGroupMember where
  id : String
  status : String
  generation : Option ℤ
  nodeId : Option String
  errorCode : Option String
  record : Dict
  payload : Dict

/-- `SANDBOX_GROUP_UNPLACED_STATES`. -/
def sandboxGroupUnplacedStates : List String :=
  ["pending", "creating", "failed", "conflict", "deleted"]

/-- `SandboxGroupMember.placed`. -/
def SandboxGroupMember.placed (m : SandboxGroupMember) : Bool :=
  !(sandboxGroupUnplacedStates.contains m.status)

/-- `SandboxGroupStatus`. -/
structure SandboxGroupStatus where
  id : String
  count : ℤ
  state : String
  members : List SandboxGroupMember
  payload : Json

/-- `SandboxGroupStatus.complete`. -/
def SandboxGroupStatus.complete (s : SandboxGroupStatus) : Bool :=
  s.members.all fun m => m.placed || m.status == "deleted"

/-- `value if isinstance(value, str) else None`. -/
def strOrNone : Json → Option String
  | .str s => some s
  | _ => none

/-- The member that an item of an answer describes; `none` when the item is malformed. -/
def groupMember (item : Json) : Option SandboxGroupMember := do
  let fields ← item.asDict
  let id ← strOrNone (fields.get "id")
  let status ← strOrNone (fields.get "status")
  if id = "" then none
  else some {
    id
    status
    generation := match fields.get "generation" with
      | .int n => some n
      | _ => none
    nodeId := strOrNone (fields.get "node_id")
    errorCode := (strOrNone (fields.get "error_code")).filter (· ≠ "")
    record := ((fields.get "sandbox").asDict).getD []
    payload := fields }

/-- `count if isinstance(count, int) else len(parsed)`; a bool is an int. -/
def groupCount (count : Json) (parsed : ℕ) : ℤ :=
  match count with
  | .int n => n
  | .bool b => if b then 1 else 0
  | _ => parsed

/-- `SandboxGroupStatus.from_payload`. -/
def SandboxGroupStatus.fromPayload (py : Interpreter) (payload : Json) :
    Except Raised SandboxGroupStatus :=
  let invalid (message : String) : Except Raised SandboxGroupStatus :=
    .error (.api { message, body := payload })
  match payload.asDict with
  | none => invalid "gateway returned an invalid sandbox group payload"
  | some fields =>
      match (fields.get "group").asDict, fields.get "sandboxes" with
      | some group, .list items =>
          match items.mapM groupMember with
          | none => invalid "gateway returned an invalid sandbox group member"
          | some members =>
              .ok {
                id := ((group.get "id").orElse (.str "")).toStr py
                count := groupCount (group.get "count") members.length
                state := ((group.get "state").orElse (.str "")).toStr py
                members
                payload }
      | _, _ => invalid "gateway returned an invalid sandbox group payload"

/-- One request of the loop: the clock in `request_timeout`, the clock when the request fixes its
own deadline, what happens to its attempts, the clock in `retry_delay`, the random draw, and the
exception of `on_progress`, if it raises one. -/
structure Round (ω : Type) where
  now : ℚ
  begun : ℚ
  attempts : List (Attempt ω)
  later : ℚ
  jitter : ℚ
  progress : Option Raised := none

/-- What `create_sandbox_group` raises. -/
inductive GroupRaised
  /-- `SandboxGroupUnavailableError`. -/
  | unavailable (e : ApiError)
  /-- `SandboxGroupError`, with its `group`. -/
  | group (e : ApiError) (group : Option SandboxGroupStatus)
  /-- Anything else. -/
  | other (exc : Raised)

/-- A handle: the id of a member, its record, and the answer. -/
structure GroupHandle where
  id : String
  record : Dict
  createResponse : Json

inductive GroupOutcome
  | running
  | returned (handles : List GroupHandle)
  | raised (exc : GroupRaised)

/-- The arguments of a group create that its requests repeat, and its deadline. -/
structure GroupCreate where
  headers : Headers
  body : Bytes
  timeout : ℚ
  deadline : ℚ

/-- What `_SandboxGroupCreate` keeps from one round to the next. -/
structure GroupState where
  attempt : ℕ := 0
  records : List (String × Dict) := []
  last : Option SandboxGroupStatus := none

namespace GroupCreate

/-- How a request ends. -/
abbrev RequestEnd := Outcome (Dict × Headers)

/-- What the caller of a group create can see. -/
inductive GroupEvent
  | ended (ended : RequestEnd)
  /-- A call of `on_progress`. -/
  | notified (status : SandboxGroupStatus)
  | slept (delay : ℚ)
  /-- The call returns or raises. -/
  | left (outcome : GroupOutcome)

/-- The ends of the requests in a log. -/
def requestEnds (log : List GroupEvent) : List RequestEnd :=
  log.filterMap fun
    | .ended ended => some ended
    | _ => none

/-- The calls of `on_progress` in a log. -/
def notifications (log : List GroupEvent) : List SandboxGroupStatus :=
  log.filterMap fun
    | .notified status => some status
    | _ => none

variable (py : Interpreter) (create : GroupCreate)

/-- The request that is repeated. -/
def request : HttpRequest where
  method := "POST"
  path := sandboxGroupPath
  headers := create.headers
  content := .bytes create.body

/-- Keep the records that an answer carries. -/
def keepRecords (records : List (String × Dict)) (members : List SandboxGroupMember) :
    List (String × Dict) :=
  members.foldl (fun kept m => if m.record.isEmpty then kept else (m.id, m.record) :: kept) records

/-- `accept`, with the call of `on_progress`. -/
def accept (s : GroupState) (payload : Json) (progress : Option Raised) :
    List GroupEvent × GroupState × Except Raised SandboxGroupStatus :=
  match SandboxGroupStatus.fromPayload py payload with
  | .error exc => ([], s, .error exc)
  | .ok status =>
      let s' := { s with records := keepRecords s.records status.members, last := some status }
      match progress with
      | some exc => ([.notified status], s', .error exc)
      | none => ([.notified status], s', .ok status)

/-- `error`. -/
def error (s : GroupState) (e : ApiError) (group : Option SandboxGroupStatus) : GroupRaised :=
  .group { e with kind := .plain } (group.or s.last)

/-- `exc.status_code in {404, 405, 501}`. -/
def unavailableStatus (e : ApiError) : Bool :=
  match e.statusCode with
  | some status => [404, 405, 501].contains status
  | none => false

/-- `isinstance(exc.body, dict) and "sandboxes" in exc.body`. -/
def carriesMembers (e : ApiError) : Bool :=
  match e.body.asDict with
  | some fields => fields.has "sandboxes"
  | none => false

/-- The list that `retry_delay` takes from the body of an error. -/
def acceptError {ω : Type} (s : GroupState) (e : ApiError) (r : Round ω) :
    List GroupEvent × GroupState × Except Raised (Option SandboxGroupStatus) :=
  if carriesMembers e then
    let (log, s, accepted) := accept py s e.body r.progress
    (log, s, accepted.map some)
  else ([], s, .ok none)

/-- The retry rule of `retry_delay`: that of the create request with an id the caller chose. -/
def retries (s : GroupState) (e : ApiError) : Except Raised Bool :=
  match e.statusCode with
  | none => .ok false
  | some status => shouldRetryUcloudUnavailable status e.body s.attempt "POST" "/v1/sandboxes" none

/-- `retry_delay`. -/
def retryDelay {ω : Type} (s : GroupState) (e : ApiError) (r : Round ω) :
    List GroupEvent × GroupState × Except GroupRaised ℚ :=
  if unavailableStatus e then ([], s, .error (.unavailable { e with kind := .plain }))
  else match acceptError py s e r with
    | (log, s, .error exc) => (log, s, .error (.other exc))
    | (log, s, .ok group) =>
        match retries s e with
        | .error exc => (log, s, .error (.other exc))
        | .ok false => (log, s, .error (error s e group))
        | .ok true =>
            let delay := ucloudUnavailableRetryDelay py s.attempt e.headers "POST" "/v1/sandboxes"
              r.jitter
            if max 0 (create.deadline - r.later) ≤ delay then
              (log, s, .error (error s (retryBudgetExhausted e (s.attempt + 1)) group))
            else (log, { s with attempt := s.attempt + 1 }, .ok delay)

/-- `handles`. -/
def handles (s : GroupState) (status : SandboxGroupStatus) : Except GroupRaised (List GroupHandle) :=
  if status.complete then
    .ok ((status.members.filter fun m => m.status != "deleted").map fun m =>
      { id := m.id, record := (s.records.lookup m.id).getD [], createResponse := status.payload })
  else .error (.group {
    message := "gateway answered a group create with unplaced members"
    body := status.payload } (some status))

/-- What one round leads to: another one, or the end of the call. -/
inductive Turn
  | next (s : GroupState)
  | stop (outcome : GroupOutcome)

/-- The call ends. -/
def leave (log : List GroupEvent) (outcome : GroupOutcome) : List GroupEvent × Turn :=
  (log ++ [.left outcome], .stop outcome)

/-- What follows the end of a request. -/
def afterRequest {ω : Type} (s : GroupState) (r : Round ω) : RequestEnd → List GroupEvent × Turn
  | .running => ([], .stop .running)
  | .unreachable => leave [] (.raised (.other (.builtin .other "unreachable")))
  | .raised (.api e) =>
      match retryDelay py create s e r with
      | (log, s, .ok delay) => (log ++ [.slept delay], .next s)
      | (log, _, .error exc) => leave log (.raised exc)
  | .raised exc => leave [] (.raised (.other exc))
  | .returned (answer, _) =>
      match accept py s (.dict answer) r.progress with
      | (log, _, .error exc) => leave log (.raised (.other exc))
      | (log, s, .ok status) =>
          match handles s status with
          | .ok made => leave log (.returned made)
          | .error exc => leave log (.raised exc)

variable {ω : Type} (send : Call → List (Attempt ω) → RequestEnd × List Transmission)

/-- The call that the client makes in one round; its timeout is what remains of the deadline. -/
def call (r : Round ω) : Call :=
  .within create.request (requestTimeoutSeconds (some (max 0 (create.deadline - r.now)))
    create.timeout) r.begun

/-- One round of the loop. -/
def round (s : GroupState) (r : Round ω) : List GroupEvent × Turn :=
  match requiredRemainingSeconds (some create.deadline) r.now with
  | .error exc => leave [] (.raised (.other exc))
  | .ok _ =>
      let ended := (send (create.call r) r.attempts).1
      let (log, turn) := afterRequest py create s r ended
      (.ended ended :: log, turn)

/-- The loop, with its log. -/
def loop (s : GroupState) : List (Round ω) → GroupOutcome × List GroupEvent
  | [] => (.running, [])
  | r :: rest =>
      match round py create send s r with
      | (log, .stop outcome) => (outcome, log)
      | (log, .next s) =>
          let later := loop s rest
          (later.1, log ++ later.2)

/-- The outcome of the loop, with the ends of its requests in order. -/
def run (s : GroupState) (rounds : List (Round ω)) : GroupOutcome × List RequestEnd :=
  ((loop py create send s rounds).1, requestEnds (loop py create send s rounds).2)

/-- The rounds that the loop makes. -/
def roundsMade (s : GroupState) : List (Round ω) → List (Round ω)
  | [] => []
  | r :: rest =>
      match (round py create send s r).2 with
      | .stop _ => [r]
      | .next s => r :: roundsMade s rest

/-! ## What an answer carries, and what a round logs -/

/-- The list of members that an answer carries. -/
def listedIn : RequestEnd → Option SandboxGroupStatus
  | .returned (answer, _) => (SandboxGroupStatus.fromPayload py (.dict answer)).toOption
  | .raised (.api e) => (SandboxGroupStatus.fromPayload py e.body).toOption
  | _ => none

/-- The lists that answers carried, in order. -/
def lists (ends : List RequestEnd) : List SandboxGroupStatus := ends.filterMap (listedIn py)

/-- The answer says that the gateway does not create groups. -/
def gone : RequestEnd → Bool
  | .raised (.api e) => unavailableStatus e
  | _ => false

/-- The list that `on_progress` is shown of an answer. -/
def shown (ended : RequestEnd) : Option SandboxGroupStatus :=
  if gone ended then none else listedIn py ended

variable {py}

/-- An error whose body is a well-formed list carries members. -/
theorem carriesMembers_of_listed {e : ApiError} {status : SandboxGroupStatus}
    (h : SandboxGroupStatus.fromPayload py e.body = .ok status) : carriesMembers e = true := by
  simp only [SandboxGroupStatus.fromPayload] at h
  simp only [carriesMembers]
  cases hbody : e.body.asDict with
  | none => simp [hbody] at h
  | some fields =>
      simp only [hbody] at h ⊢
      cases hlookup : fields.lookup "sandboxes" with
      | none =>
          have hget : fields.get "sandboxes" = .null := by simp [Dict.get, hlookup]
          rw [hget] at h
          cases hgroup : (fields.get "group").asDict <;> simp [hgroup] at h
      | some v => simp [Dict.has, hlookup]

@[simp] theorem requestEnds_append (log more : List GroupEvent) :
    requestEnds (log ++ more) = requestEnds log ++ requestEnds more := List.filterMap_append

@[simp] theorem notifications_append (log more : List GroupEvent) :
    notifications (log ++ more) = notifications log ++ notifications more := List.filterMap_append

theorem log_accept (s : GroupState) (payload : Json) (progress : Option Raised) :
    (accept py s payload progress).1 =
      (SandboxGroupStatus.fromPayload py payload).toOption.toList.map .notified := by
  simp only [accept]
  cases SandboxGroupStatus.fromPayload py payload with
  | error exc => rfl
  | ok status => cases progress <;> rfl

theorem log_acceptError (s : GroupState) (e : ApiError) (r : Round ω) :
    (acceptError py s e r).1 = (listedIn py (.raised (.api e))).toList.map .notified := by
  simp only [acceptError, listedIn]
  by_cases hcarries : carriesMembers e = true
  · rw [if_pos hcarries]
    exact log_accept s e.body r.progress
  · rw [if_neg hcarries]
    cases hpayload : SandboxGroupStatus.fromPayload py e.body with
    | error exc => rfl
    | ok status => exact absurd (carriesMembers_of_listed hpayload) hcarries

theorem log_retryDelay (s : GroupState) (e : ApiError) (r : Round ω) :
    (retryDelay py create s e r).1 = (shown py (.raised (.api e))).toList.map .notified := by
  have hlog := @log_acceptError py ω s e r
  simp only [retryDelay]
  by_cases hgone : unavailableStatus e = true
  · rw [if_pos hgone, show shown py (.raised (.api e)) = none from if_pos hgone]
    rfl
  · rw [if_neg hgone, show shown py (.raised (.api e)) = listedIn py (.raised (.api e)) from
      if_neg hgone, ← hlog]
    cases acceptError py s e r with
    | mk log accepted =>
        obtain ⟨s', result⟩ := accepted
        cases result with
        | error exc => rfl
        | ok group =>
            simp only
            split
            · rfl
            · rfl
            · split <;> rfl

/-- Behind the end of a request the list is shown first; then the call sleeps or ends. -/
theorem log_afterRequest (s : GroupState) (r : Round ω) (ended : RequestEnd) :
    ∃ rest, (afterRequest py create s r ended).1 =
        (shown py ended).toList.map .notified ++ rest ∧
      requestEnds rest = [] ∧ notifications rest = [] := by
  cases ended with
  | running => exact ⟨[], rfl, rfl, rfl⟩
  | unreachable => exact ⟨_, rfl, rfl, rfl⟩
  | returned v =>
      have hlog := @log_accept py s (.dict v.1) r.progress
      have hshown : shown py (.returned v) =
        (SandboxGroupStatus.fromPayload py (.dict v.1)).toOption := rfl
      rw [hshown, ← hlog]
      simp only [afterRequest]
      cases accept py s (.dict v.1) r.progress with
      | mk log accepted =>
          obtain ⟨s', result⟩ := accepted
          cases result with
          | error exc => exact ⟨_, rfl, rfl, rfl⟩
          | ok status =>
              simp only
              split
              · exact ⟨_, rfl, rfl, rfl⟩
              · exact ⟨_, rfl, rfl, rfl⟩
  | raised exc =>
      cases exc with
      | api e =>
          have hlog := @log_retryDelay py create ω s e r
          rw [← hlog]
          simp only [afterRequest]
          cases retryDelay py create s e r with
          | mk log delayed =>
              obtain ⟨s', result⟩ := delayed
              cases result with
              | error exc => exact ⟨_, rfl, rfl, rfl⟩
              | ok delay => exact ⟨_, rfl, rfl, rfl⟩
      | _ => exact ⟨_, rfl, rfl, rfl⟩

theorem requestEnds_shown (shown : Option SandboxGroupStatus) :
    requestEnds (shown.toList.map .notified) = [] := by
  cases shown <;> rfl

theorem requestEnds_afterRequest (s : GroupState) (r : Round ω) (ended : RequestEnd) :
    requestEnds (afterRequest py create s r ended).1 = [] := by
  obtain ⟨rest, hlog, hends, -⟩ := @log_afterRequest py create ω s r ended
  rw [hlog, requestEnds_append, requestEnds_shown, hends, List.append_nil]

/-! ## The first round of a run -/

section FirstRound
variable {create send} {s : GroupState} {r : Round ω}

/-- The call ends because there is no time for a request. -/
theorem loop_expired {exc : Raised}
    (h : requiredRemainingSeconds (some create.deadline) r.now = .error exc)
    (rest : List (Round ω)) :
    loop py create send s (r :: rest) =
      (.raised (.other exc), [.left (.raised (.other exc))]) := by
  simp only [loop, round, h, leave, List.nil_append]

/-- The call ends behind its first request. -/
theorem loop_stop {u : Option ℚ} {outcome : GroupOutcome}
    (h : requiredRemainingSeconds (some create.deadline) r.now = .ok u)
    (hstop : (afterRequest py create s r (send (create.call r) r.attempts).1).2 = .stop outcome)
    (rest : List (Round ω)) :
    loop py create send s (r :: rest) =
      (outcome, .ended (send (create.call r) r.attempts).1 ::
        (afterRequest py create s r (send (create.call r) r.attempts).1).1) := by
  simp only [loop, round, h, hstop]

/-- The call goes on behind its first request. -/
theorem loop_next {u : Option ℚ} {s' : GroupState}
    (h : requiredRemainingSeconds (some create.deadline) r.now = .ok u)
    (hnext : (afterRequest py create s r (send (create.call r) r.attempts).1).2 = .next s')
    (rest : List (Round ω)) :
    loop py create send s (r :: rest) =
      ((loop py create send s' rest).1, .ended (send (create.call r) r.attempts).1 ::
        ((afterRequest py create s r (send (create.call r) r.attempts).1).1 ++
          (loop py create send s' rest).2)) := by
  simp only [loop, round, h, hnext, List.cons_append]

theorem requestEnds_cons (ended : RequestEnd) (log : List GroupEvent) :
    requestEnds (.ended ended :: log) = ended :: requestEnds log := rfl

theorem run_expired {exc : Raised}
    (h : requiredRemainingSeconds (some create.deadline) r.now = .error exc)
    (rest : List (Round ω)) : run py create send s (r :: rest) = (.raised (.other exc), []) := by
  simp only [run, loop_expired h]
  rfl

theorem run_stop {u : Option ℚ} {outcome : GroupOutcome}
    (h : requiredRemainingSeconds (some create.deadline) r.now = .ok u)
    (hstop : (afterRequest py create s r (send (create.call r) r.attempts).1).2 = .stop outcome)
    (rest : List (Round ω)) :
    run py create send s (r :: rest) = (outcome, [(send (create.call r) r.attempts).1]) := by
  simp only [run, loop_stop h hstop, requestEnds_cons, requestEnds_afterRequest]

theorem run_next {u : Option ℚ} {s' : GroupState}
    (h : requiredRemainingSeconds (some create.deadline) r.now = .ok u)
    (hnext : (afterRequest py create s r (send (create.call r) r.attempts).1).2 = .next s')
    (rest : List (Round ω)) :
    run py create send s (r :: rest) =
      ((run py create send s' rest).1,
        (send (create.call r) r.attempts).1 :: (run py create send s' rest).2) := by
  simp only [run, loop_next h hnext, requestEnds_cons, requestEnds_append,
    requestEnds_afterRequest, List.nil_append]

end FirstRound

end GroupCreate

/-- `SandboxClient.create_sandbox_group`. -/
def createSandboxGroup (py : Interpreter) (create : GroupCreate)
    (rounds : List (Round (List Wire))) : GroupOutcome × List GroupCreate.RequestEnd :=
  create.run py (requestJsonResponse py) {} rounds

/-- `AsyncSandboxClient.create_sandbox_group`. -/
def asyncCreateSandboxGroup (py : Interpreter) (create : GroupCreate)
    (rounds : List (Round AsyncWire)) : GroupOutcome × List GroupCreate.RequestEnd :=
  create.run py (asyncRequestJsonResponse py) {} rounds

end UcloudSandboxes.Client
