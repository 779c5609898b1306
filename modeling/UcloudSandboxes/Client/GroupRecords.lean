import UcloudSandboxes.Client.GroupUnavailable

/-!
# The records of a group's members

`_SandboxGroupCreate` keeps the records of the members from answer to answer and shows every list to
`on_progress`.

## Main definitions

* `latestRecord`: the record of a member by what the answers gave for it.
* `Repeated`: the errors behind which the request is repeated.
* `RecordsSurvive`: what the handles carry, and when `on_progress` is called.

## Main results

* `request_at`, `returned_at`: how a run comes to one of its requests, and to its end.
* `records_survive`: every run keeps the records, and shows every list at once.
-/
namespace UcloudSandboxes.Client
open Python Http

namespace GroupCreate

/-- The last record that is not empty, if a list of members has one for this id. -/
def latestRecord (members : List SandboxGroupMember) (id : String) : Option Dict :=
  ((members.filter fun m => m.id == id && !m.record.isEmpty).map (·.record)).getLast?

variable {py : Interpreter} {create : GroupCreate} {ω : Type}

/-! ## One round -/

theorem lookup_keepRecords (records : List (String × Dict)) (members : List SandboxGroupMember)
    (id : String) :
    (keepRecords records members).lookup id =
      (latestRecord members id).or (records.lookup id) := by
  induction members generalizing records with
  | nil => rfl
  | cons m rest ih =>
      have hrest : keepRecords records (m :: rest) = keepRecords
          (if m.record.isEmpty then records else (m.id, m.record) :: records) rest := rfl
      rw [hrest, ih]
      have hlatest : latestRecord (m :: rest) id =
          (latestRecord rest id).or (if m.id == id && !m.record.isEmpty then some m.record
            else none) := by
        by_cases hm : (m.id == id && !m.record.isEmpty) = true
        · simp only [latestRecord, List.filter_cons, hm, if_true, List.map_cons,
            List.getLast?_cons]
          cases ((rest.filter fun m => m.id == id && !m.record.isEmpty).map (·.record)).getLast? <;>
            rfl
        · simp only [latestRecord, List.filter_cons, hm]
          cases (latestRecord rest id) <;> simp
      rw [hlatest, Option.or_assoc]
      congr 1
      by_cases hempty : m.record.isEmpty = true
      · simp [hempty]
      · by_cases hid : m.id = id
        · simp [hempty, hid]
        · have hid' : (id == m.id) = false := by
            rw [beq_eq_false_iff_ne]
            exact fun h => hid h.symm
          simp [hempty, hid, List.lookup_cons, hid']

theorem latestRecord_append (members more : List SandboxGroupMember) (id : String) :
    latestRecord (members ++ more) id = (latestRecord more id).or (latestRecord members id) := by
  simp only [latestRecord, List.filter_append, List.map_append, List.getLast?_append]

/-- The records behind these lists. -/
def recordsAfter (records : List (String × Dict)) (listed : List SandboxGroupStatus) :
    List (String × Dict) :=
  listed.foldl (fun kept status => keepRecords kept status.members) records

theorem lookup_recordsAfter (records : List (String × Dict)) (listed : List SandboxGroupStatus)
    (id : String) :
    (recordsAfter records listed).lookup id =
      (latestRecord (listed.flatMap (·.members)) id).or (records.lookup id) := by
  induction listed generalizing records with
  | nil => rfl
  | cons status rest ih =>
      have hrest : recordsAfter records (status :: rest) =
          recordsAfter (keepRecords records status.members) rest := rfl
      rw [hrest, ih, lookup_keepRecords, ← Option.or_assoc]
      congr 1
      exact (latestRecord_append _ _ id).symm

/-- What `retry_delay` has kept when it goes on to its retry rule. -/
theorem acceptError_ok {s s' : GroupState} {e : ApiError} {r : Round ω}
    {group : Option SandboxGroupStatus} (h : (acceptError py s e r).2 = (s', .ok group)) :
    s'.attempt = s.attempt ∧
      s'.records = recordsAfter s.records (listedIn py (.raised (.api e))).toList ∧
      (listedIn py (.raised (.api e)) ≠ none → r.progress = none) := by
  simp only [acceptError] at h
  by_cases hcarries : carriesMembers e = true
  · rw [if_pos hcarries] at h
    simp only [accept] at h
    simp only [listedIn]
    cases hpayload : SandboxGroupStatus.fromPayload py e.body with
    | error exc =>
        rw [hpayload] at h
        cases h
    | ok status =>
        rw [hpayload] at h
        cases hprogress : r.progress with
        | some exc =>
            rw [hprogress] at h
            cases h
        | none =>
            rw [hprogress] at h
            cases h
            exact ⟨rfl, rfl, fun _ => rfl⟩
  · rw [if_neg hcarries] at h
    cases h
    have hnone : listedIn py (.raised (.api e)) = none := by
      simp only [listedIn]
      cases hpayload : SandboxGroupStatus.fromPayload py e.body with
      | error exc => rfl
      | ok status => exact absurd (carriesMembers_of_listed hpayload) hcarries
    rw [hnone]
    exact ⟨rfl, rfl, fun hne => absurd rfl hne⟩

/-- The answer asks for a repeat: it has a transient status and says that it is retryable, with an
error code that can be looked up, or it is a 503 that speaks of an unavailable UCloud job. -/
def AsksRepeat (status : ℤ) (body : Json) : Prop :=
  transientStatus status = true ∧
      (∃ fields, body.asDict = some fields ∧ (fields.get "retryable").isTrue = true) ∧
      unhashable (errorCode body) = false ∨
    status = 503 ∧ retryableAnswer status body = false ∧
      mentions (ucloudUnavailableErrorText body) "job is unavailable" = true ∧
      mentions (ucloudUnavailableErrorText body) "ucloud" = true

/-- The delay before the repeat: what the answer asks for, with jitter and within a minute, or a
quarter of a second that doubles up to half a minute. -/
def repeatDelay (py : Interpreter) (attempt : ℕ) (headers : Headers) (jitter : ℚ) : ℚ :=
  match retryAfterSeconds py headers with
  | some seconds => min 60 (seconds * (1 + jitter * (1 / 4)))
  | none => min 30 (1 / 4 * 2 ^ min attempt 16)

/-- The request is repeated after this error. -/
def Repeated (py : Interpreter) (create : GroupCreate) (attempt : ℕ) (r : Round ω) (e : ApiError) :
    Prop :=
  unavailableStatus e = false ∧
    (∃ status, e.statusCode = some status ∧ AsksRepeat status e.body) ∧
    repeatDelay py attempt e.headers r.jitter < max 0 (create.deadline - r.later)

theorem retryableAnswer_iff {status : ℤ} {body : Json} :
    retryableAnswer status body = true ↔ transientStatus status = true ∧
      ∃ fields, body.asDict = some fields ∧ (fields.get "retryable").isTrue = true := by
  simp only [retryableAnswer, Bool.and_eq_true]
  cases body.asDict with
  | none => simp
  | some fields => simp

/-- When the retry rule of a create with an id of the caller's asks for a repeat. -/
theorem shouldRetry_create_iff {status : ℤ} {body : Json} {attempt : ℕ} :
    shouldRetryUcloudUnavailable status body attempt "POST" "/v1/sandboxes" none = .ok true ↔
      AsksRepeat status body := by
  have hupper : "POST".toUpper = "POST" := by decide +kernel
  have hgroup : ("POST" == "POST" && "/v1/sandboxes" == sandboxGroupPath) = false := by
    decide +kernel
  have hcreate : stableCreate "POST" "/v1/sandboxes" = true := by decide +kernel
  have hresolution : imageResolutionFence "POST" "/v1/sandboxes" body = .ok false := by
    simp only [imageResolutionFence]
    exact if_neg (by decide +kernel)
  have hbuilder : builderAdmissionFence "POST" "/v1/sandboxes" body = .ok false := by
    simp only [builderAdmissionFence]
    exact if_neg (by decide +kernel)
  have hasks : AsksRepeat status body ↔
      retryableAnswer status body = true ∧ unhashable (errorCode body) = false ∨
        status = 503 ∧ retryableAnswer status body = false ∧
          mentions (ucloudUnavailableErrorText body) "job is unavailable" = true ∧
          mentions (ucloudUnavailableErrorText body) "ucloud" = true := by
    rw [AsksRepeat, retryableAnswer_iff, and_assoc]
  rw [hasks]
  simp only [shouldRetryUcloudUnavailable, hupper, hgroup, preDispatchFence, hresolution, hbuilder,
    attemptLimit, hcreate, Bool.or_true, if_true, Option.any_none, Bool.false_eq_true, if_false,
    bind, Except.bind, pure, Except.pure, retriesAnswer]
  cases hretryable : retryableAnswer status body with
  | true =>
      cases hcode : unhashable (errorCode body) with
      | false =>
          obtain ⟨general, hgeneral⟩ := memberOf_hashable hcode preDispatchErrorCodes
          simp [hgeneral]
      | true =>
          obtain ⟨cls, text, hgeneral⟩ := memberOf_unhashable hcode preDispatchErrorCodes
          simp [hgeneral]
  | false =>
      by_cases hstatus : status = 503
      · simp [hstatus]
      · simp [hstatus]

theorem retries_iff {s : GroupState} {e : ApiError} :
    retries s e = .ok true ↔ ∃ status, e.statusCode = some status ∧ AsksRepeat status e.body := by
  simp only [retries]
  cases e.statusCode with
  | none => simp
  | some status => simp [shouldRetry_create_iff]

theorem createDelay_eq (py : Interpreter) (attempt : ℕ) (headers : Headers) (jitter : ℚ) :
    ucloudUnavailableRetryDelay py attempt headers "POST" "/v1/sandboxes" jitter =
      repeatDelay py attempt headers jitter := by
  have hcreate : stableCreate "POST".toUpper "/v1/sandboxes" = true := by decide +kernel
  cases hafter : retryAfterSeconds py headers with
  | none => simp only [ucloudUnavailableRetryDelay, repeatDelay, hcreate, hafter, if_true]
  | some seconds => simp only [ucloudUnavailableRetryDelay, repeatDelay, hafter]

/-- What `retry_delay` leaves when the request is to be repeated. -/
theorem retryDelay_ok {s s' : GroupState} {e : ApiError} {r : Round ω} {delay : ℚ}
    (h : (retryDelay py create s e r).2 = (s', .ok delay)) :
    Repeated py create s.attempt r e ∧ s'.attempt = s.attempt + 1 ∧
      s'.records = recordsAfter s.records (listedIn py (.raised (.api e))).toList ∧
      (listedIn py (.raised (.api e)) ≠ none → r.progress = none) := by
  simp only [retryDelay] at h
  cases hunavailable : unavailableStatus e with
  | true =>
      rw [if_pos hunavailable] at h
      cases h
  | false =>
      simp only [hunavailable, Bool.false_eq_true, if_false] at h
      split at h
      · cases h
      · rename_i log s1 group haccept
        obtain ⟨hattempt, hrecords, hprogress⟩ := acceptError_ok (congrArg Prod.snd haccept)
        split at h
        · cases h
        · cases h
        · rename_i hretries
          split at h
          · cases h
          · rename_i hdelay
            cases h
            rw [hattempt, createDelay_eq] at hdelay
            exact ⟨⟨hunavailable, retries_iff.mp hretries, not_le.mp hdelay⟩,
              by simp only [hattempt], hrecords, hprogress⟩

/-- The round goes on only behind an error that is to be repeated. -/
theorem afterRequest_next {s s' : GroupState} {r : Round ω} {ended : RequestEnd}
    (h : (afterRequest py create s r ended).2 = .next s') :
    ∃ e, ended = .raised (.api e) ∧ Repeated py create s.attempt r e ∧
      s'.attempt = s.attempt + 1 ∧
      s'.records = recordsAfter s.records (listedIn py ended).toList ∧
      (listedIn py ended ≠ none → r.progress = none) := by
  cases ended with
  | running => cases h
  | unreachable => cases h
  | returned v =>
      simp only [afterRequest] at h
      split at h
      · cases h
      · split at h <;> cases h
  | raised exc =>
      cases exc with
      | api e =>
          simp only [afterRequest] at h
          split at h
          · rename_i log s1 delay hdelay
            cases h
            exact ⟨e, rfl, retryDelay_ok (congrArg Prod.snd hdelay)⟩
          · cases h
      | _ => cases h

theorem afterRequest_running {s : GroupState} {r : Round ω} {ended : RequestEnd}
    (h : (afterRequest py create s r ended).2 = .stop .running) : ended = .running := by
  cases ended with
  | running => rfl
  | unreachable => cases h
  | returned v =>
      simp only [afterRequest] at h
      split at h
      · cases h
      · split at h <;> cases h
  | raised exc =>
      cases exc with
      | api e =>
          simp only [afterRequest] at h
          split at h <;> cases h
      | _ => cases h

/-- The call returns only behind a complete list. -/
theorem afterRequest_returned {s : GroupState} {r : Round ω} {ended : RequestEnd}
    {made : List GroupHandle}
    (h : (afterRequest py create s r ended).2 = .stop (.returned made)) :
    ∃ answer headers status, ended = .returned (answer, headers) ∧
      SandboxGroupStatus.fromPayload py (.dict answer) = .ok status ∧ r.progress = none ∧
      status.complete = true ∧
      made = (status.members.filter fun m => m.status != "deleted").map fun m =>
        { id := m.id
          record := ((keepRecords s.records status.members).lookup m.id).getD []
          createResponse := status.payload } := by
  cases ended with
  | running => cases h
  | unreachable => cases h
  | raised exc =>
      cases exc with
      | api e =>
          simp only [afterRequest] at h
          split at h <;> cases h
      | _ => cases h
  | returned v =>
      obtain ⟨answer, headers⟩ := v
      simp only [afterRequest, accept] at h
      cases hpayload : SandboxGroupStatus.fromPayload py (.dict answer) with
      | error exc =>
          rw [hpayload] at h
          cases h
      | ok status =>
          rw [hpayload] at h
          cases hprogress : r.progress with
          | some exc =>
              rw [hprogress] at h
              cases h
          | none =>
              rw [hprogress] at h
              simp only [handles] at h
              by_cases hcomplete : status.complete = true
              · rw [if_pos hcomplete] at h
                cases h
                exact ⟨answer, headers, status, rfl, hpayload, rfl, hcomplete, rfl⟩
              · rw [if_neg hcomplete] at h
                cases h

/-! ## Runs -/

/-- How the call stands behind a round. -/
def Turn.outcome : Turn → GroupOutcome
  | .next _ => .running
  | .stop outcome => outcome

section Run
variable {send : Call → List (Attempt ω) → RequestEnd × List Transmission}

/-- How the loop came to its request number `k`, and what follows it. -/
structure RequestAt (py : Interpreter) (create : GroupCreate)
    (send : Call → List (Attempt ω) → RequestEnd × List Transmission) (s : GroupState)
    (rounds : List (Round ω)) (k : ℕ) (ended : RequestEnd) (r : Round ω) (s' : GroupState) :
    Prop where
  round : rounds[k]? = some r
  attempt : s'.attempt = s.attempt + k
  records : s'.records = recordsAfter s.records (lists py ((run py create send s rounds).2.take k))
  here : (run py create send s (rounds.take (k + 1))).1 =
    (afterRequest py create s' r ended).2.outcome
  last : ∀ outcome, (afterRequest py create s' r ended).2 = .stop outcome →
    (run py create send s rounds).1 = outcome ∧ (run py create send s rounds).2.length = k + 1

/-- What the first round makes of a run. -/
theorem run_cons (py : Interpreter) (create : GroupCreate)
    (send : Call → List (Attempt ω) → RequestEnd × List Transmission) (s : GroupState)
    (r : Round ω) :
    (∃ exc, ∀ rest, run py create send s (r :: rest) = (.raised exc, [])) ∨
    (∃ ended outcome, (afterRequest py create s r ended).2 = .stop outcome ∧
      ∀ rest, run py create send s (r :: rest) = (outcome, [ended])) ∨
    ∃ ended s1, (afterRequest py create s r ended).2 = .next s1 ∧
      ∀ rest, run py create send s (r :: rest) =
        ((run py create send s1 rest).1, ended :: (run py create send s1 rest).2) := by
  cases hremaining : requiredRemainingSeconds (some create.deadline) r.now with
  | error exc => exact .inl ⟨.other exc, run_expired hremaining⟩
  | ok remaining =>
      right
      cases hturn : (afterRequest py create s r (send (create.call r) r.attempts).1).2 with
      | stop outcome => exact .inl ⟨_, outcome, hturn, run_stop hremaining hturn⟩
      | next s1 => exact .inr ⟨_, s1, hturn, run_next hremaining hturn⟩

theorem request_at {s : GroupState} {rounds : List (Round ω)} {k : ℕ} {ended : RequestEnd}
    (h : (run py create send s rounds).2[k]? = some ended) :
    ∃ r s', RequestAt py create send s rounds k ended r s' := by
  induction rounds generalizing s k with
  | nil => cases h
  | cons r rest ih =>
      rcases run_cons py create send s r with
        ⟨exc, hrun⟩ | ⟨first, outcome, hturn, hrun⟩ | ⟨first, s1, hturn, hrun⟩
      · rw [hrun] at h
        cases h
      · rw [hrun] at h
        cases k with
        | succ k => cases h
        | zero =>
            cases h
            refine ⟨r, s, rfl, rfl, rfl, ?_, ?_⟩
            · rw [List.take_succ_cons, hrun, hturn]
              rfl
            · intro outcome' houtcome
              rw [hturn] at houtcome
              cases houtcome
              rw [hrun]
              exact ⟨rfl, rfl⟩
      · rw [hrun] at h
        cases k with
        | zero =>
            cases h
            refine ⟨r, s, rfl, rfl, rfl, ?_, ?_⟩
            · rw [List.take_succ_cons, hrun, hturn]
              rfl
            · intro outcome houtcome
              rw [hturn] at houtcome
              cases houtcome
        | succ k =>
            obtain ⟨e, -, -, hattempt, hrecords, -⟩ := afterRequest_next hturn
            obtain ⟨r', s', H⟩ := ih h
            refine ⟨r', s', H.round, ?_, ?_, ?_, ?_⟩
            · rw [H.attempt, hattempt]
              omega
            · rw [hrun, List.take_succ_cons, H.records, hrecords]
              simp only [recordsAfter, lists, List.filterMap_cons]
              cases listedIn py first <;> rfl
            · rw [List.take_succ_cons, hrun, H.here]
            · rw [hrun]
              intro outcome houtcome
              obtain ⟨hout, hlength⟩ := H.last outcome houtcome
              exact ⟨hout, by rw [List.length_cons, hlength]⟩

/-- A call that returns has done so behind its last request. -/
theorem returned_last {s : GroupState} {rounds : List (Round ω)} {made : List GroupHandle}
    (h : (run py create send s rounds).1 = .returned made) :
    ∃ k, (run py create send s rounds).2.length = k + 1 ∧
      (run py create send s (rounds.take (k + 1))).1 = .returned made := by
  induction rounds generalizing s with
  | nil => cases h
  | cons r rest ih =>
      rcases run_cons py create send s r with
        ⟨exc, hrun⟩ | ⟨first, outcome, hturn, hrun⟩ | ⟨first, s1, hturn, hrun⟩
      · rw [hrun] at h
        cases h
      · rw [hrun] at h ⊢
        refine ⟨0, rfl, ?_⟩
        rw [List.take_succ_cons, hrun]
        exact h
      · rw [hrun] at h ⊢
        obtain ⟨k, hlength, hreturned⟩ := ih h
        refine ⟨k + 1, by rw [List.length_cons, hlength], ?_⟩
        rw [List.take_succ_cons, hrun]
        exact hreturned

theorem returned_at {s : GroupState} {rounds : List (Round ω)} {made : List GroupHandle}
    (h : (run py create send s rounds).1 = .returned made) :
    ∃ k ended r s', (run py create send s rounds).2[k]? = some ended ∧
      (run py create send s rounds).2.length = k + 1 ∧
      RequestAt py create send s rounds k ended r s' ∧
      (afterRequest py create s' r ended).2 = .stop (.returned made) := by
  obtain ⟨k, hlength, hreturned⟩ := returned_last h
  obtain ⟨ended, hended⟩ : ∃ ended, (run py create send s rounds).2[k]? = some ended :=
    ⟨_, List.getElem?_eq_getElem (by omega)⟩
  obtain ⟨r, s', H⟩ := request_at hended
  refine ⟨k, ended, r, s', hended, hlength, H, ?_⟩
  rw [H.here] at hreturned
  cases hturn : (afterRequest py create s' r ended).2 with
  | next s1 =>
      rw [hturn] at hreturned
      cases hreturned
  | stop outcome =>
      rw [hturn] at hreturned
      exact congrArg Turn.stop hreturned

/-! ## The records of the members -/

/-- The lists that `on_progress` sees in a run. -/
theorem notifications_loop (send : Call → List (Attempt ω) → RequestEnd × List Transmission)
    (s : GroupState) (rounds : List (Round ω)) :
    notifications (loop py create send s rounds).2 =
      (run py create send s rounds).2.filterMap (shown py) := by
  induction rounds generalizing s with
  | nil => rfl
  | cons r rest ih =>
      cases hremaining : requiredRemainingSeconds (some create.deadline) r.now with
      | error exc =>
          rw [loop_expired hremaining, run_expired hremaining]
          rfl
      | ok remaining =>
          have hround : ∀ log, notifications (.ended (send (create.call r) r.attempts).1 ::
              ((afterRequest py create s r (send (create.call r) r.attempts).1).1 ++ log)) =
                (shown py (send (create.call r) r.attempts).1).toList ++ notifications log := by
            intro log
            obtain ⟨after, hlog, -, hnone⟩ :=
              @log_afterRequest py create ω s r (send (create.call r) r.attempts).1
            rw [hlog]
            show notifications (_ ++ after ++ log) = _
            rw [notifications_append, notifications_append, hnone, List.append_nil]
            cases shown py (send (create.call r) r.attempts).1 <;> rfl
          cases hturn : (afterRequest py create s r (send (create.call r) r.attempts).1).2 with
          | stop outcome =>
              have hlast := hround []
              rw [List.append_nil] at hlast
              rw [loop_stop hremaining hturn, run_stop hremaining hturn, hlast,
                List.filterMap_cons]
              cases shown py (send (create.call r) r.attempts).1 <;> rfl
          | next s' =>
              rw [loop_next hremaining hturn, run_next hremaining hturn, hround, ih,
                List.filterMap_cons]
              cases shown py (send (create.call r) r.attempts).1 <;> rfl

/-- In this log each list that is shown to `on_progress` is shown right behind the answer that
carries it. -/
def Prompt (py : Interpreter) (log : List GroupEvent) : Prop :=
  ∀ (k : ℕ) ended status, log[k]? = some (.ended ended) → shown py ended = some status →
    log[k + 1]? = some (.notified status)

/-- A part of a log that no request ends in. -/
theorem ne_ended_of_requestEnds {log : List GroupEvent} (h : requestEnds log = []) (k : ℕ)
    (ended : RequestEnd) : log[k]? ≠ some (.ended ended) := by
  intro hk
  have hnone := List.filterMap_eq_nil_iff.mp h _ (List.mem_of_getElem? hk)
  cases hnone

theorem prompt_round {s : GroupState} {r : Round ω} {ended : RequestEnd} {later : List GroupEvent}
    (hlater : Prompt py later) :
    Prompt py (.ended ended :: ((afterRequest py create s r ended).1 ++ later)) := by
  have hquiet := @requestEnds_afterRequest py create ω s r ended
  obtain ⟨after, hlog, -, -⟩ := @log_afterRequest py create ω s r ended
  intro k ended' status hended hshown
  cases k with
  | zero =>
      cases hended
      rw [hlog, hshown]
      rfl
  | succ k =>
      rw [List.getElem?_cons_succ] at hended ⊢
      rcases Nat.lt_or_ge k (afterRequest py create s r ended).1.length with hlt | hge
      · rw [List.getElem?_append_left hlt] at hended
        exact absurd hended (ne_ended_of_requestEnds hquiet k ended')
      · rw [List.getElem?_append_right hge] at hended
        rw [List.getElem?_append_right (Nat.le_succ_of_le hge), Nat.succ_sub hge]
        exact hlater _ ended' status hended hshown

/-- A call that has ended has logged so last. -/
def Finished (done : GroupOutcome × List GroupEvent) : Prop :=
  done.1 = .running ∨ done.2.getLast? = some (.left done.1)

theorem getLast?_append_some {α : Type} {before l : List α} {a : α} (h : l.getLast? = some a) :
    (before ++ l).getLast? = some a := by
  rw [List.getLast?_append, h, Option.some_or]

theorem finished_afterRequest {s : GroupState} {r : Round ω} {ended : RequestEnd}
    {outcome : GroupOutcome} (h : (afterRequest py create s r ended).2 = .stop outcome) :
    Finished (outcome, (afterRequest py create s r ended).1) := by
  have hleave : ∀ log outcome', (leave log outcome').2 = .stop outcome →
      Finished (outcome, (leave log outcome').1) := by
    intro log outcome' hstop
    cases hstop
    exact .inr List.getLast?_concat
  cases ended with
  | running =>
      cases h
      exact .inl rfl
  | unreachable => exact hleave _ _ h
  | returned v =>
      simp only [afterRequest] at h ⊢
      cases haccept : accept py s (.dict v.1) r.progress with
      | mk log accepted =>
          obtain ⟨s', result⟩ := accepted
          rw [haccept] at h
          cases result with
          | error exc => exact hleave _ _ h
          | ok status =>
              simp only at h ⊢
              split at h
              · exact hleave _ _ h
              · exact hleave _ _ h
  | raised exc =>
      cases exc with
      | api e =>
          simp only [afterRequest] at h ⊢
          cases hdelay : retryDelay py create s e r with
          | mk log delayed =>
              obtain ⟨s', result⟩ := delayed
              rw [hdelay] at h
              cases result with
              | error exc => exact hleave _ _ h
              | ok delay => cases h
      | _ => exact hleave _ _ h

/-- Every run shows the lists promptly, and logs its end. -/
theorem loop_log (send : Call → List (Attempt ω) → RequestEnd × List Transmission)
    (s : GroupState) (rounds : List (Round ω)) :
    Prompt py (loop py create send s rounds).2 ∧ Finished (loop py create send s rounds) := by
  have hempty : Prompt py [] := by
    intro k ended status h
    cases h
  induction rounds generalizing s with
  | nil => exact ⟨hempty, .inl rfl⟩
  | cons r rest ih =>
      cases hremaining : requiredRemainingSeconds (some create.deadline) r.now with
      | error exc =>
          rw [loop_expired hremaining]
          refine ⟨fun k ended status h => ?_, .inr rfl⟩
          cases k <;> cases h
      | ok remaining =>
          cases hturn : (afterRequest py create s r (send (create.call r) r.attempts).1).2 with
          | stop outcome =>
              rw [loop_stop hremaining hturn, ← List.singleton_append]
              refine ⟨?_, ?_⟩
              · have hround := @prompt_round py create ω s r (send (create.call r) r.attempts).1 []
                  hempty
                rwa [List.append_nil] at hround
              · rcases finished_afterRequest hturn with hrunning | hleft
                · exact .inl hrunning
                · exact .inr (getLast?_append_some hleft)
          | next s' =>
              obtain ⟨hprompt, hfinished⟩ := ih s'
              rw [loop_next hremaining hturn]
              refine ⟨prompt_round hprompt, ?_⟩
              rcases hfinished with hrunning | hleft
              · exact .inl hrunning
              · rw [← List.singleton_append]
                exact .inr (getLast?_append_some (getLast?_append_some hleft))

end Run

/-- What a call makes of the answers it got, with its log. -/
structure RecordsSurvive (py : Interpreter) (done : GroupOutcome × List GroupEvent) : Prop where
  /-- A handle carries the last record that any answer gave for its id. -/
  records : ∀ made, done.1 = .returned made → ∀ handle ∈ made, handle.record =
    (latestRecord ((lists py (requestEnds done.2)).flatMap (·.members)) handle.id).getD []
  /-- `on_progress` sees each well-formed list once, in order, but not that of an answer which says
  that there are no groups. -/
  progress : notifications done.2 =
    lists py (if Unavailable done.1 then (requestEnds done.2).dropLast else requestEnds done.2)
  /-- It sees the list right behind the answer that carries it: before the call sleeps, sends
  again or ends. -/
  prompt : ∀ (k : ℕ) ended status, done.2[k]? = some (.ended ended) → gone ended = false →
    listedIn py ended = some status → done.2[k + 1]? = some (.notified status)
  /-- The log goes on until the call has ended. -/
  finished : done.1 = .running ∨ done.2.getLast? = some (.left done.1)

theorem filterMap_shown {ends : List RequestEnd} (h : ∀ ended ∈ ends, gone ended = false) :
    ends.filterMap (shown py) = lists py ends := by
  refine List.filterMap_congr fun ended hended => ?_
  simp only [shown, h ended hended, Bool.false_eq_true, if_false]

theorem mem_dropLast_or {α : Type} {l : List α} {a : α} (h : a ∈ l) :
    a ∈ l.dropLast ∨ l.getLast? = some a := by
  rcases List.eq_nil_or_concat l with rfl | ⟨before, last, rfl⟩
  · cases h
  · rw [List.concat_eq_append] at h ⊢
    rw [List.dropLast_concat, List.getLast?_concat]
    rcases List.mem_append.mp h with hbefore | hsame
    · exact .inl hbefore
    · exact .inr (congrArg some (List.mem_singleton.mp hsame).symm)

/-- The lists that are shown in a run: all, but for the last one of a gateway without groups. -/
theorem run_shown (send : Call → List (Attempt ω) → RequestEnd × List Transmission)
    (rounds : List (Round ω)) :
    (run py create send {} rounds).2.filterMap (shown py) =
      lists py (if Unavailable (run py create send {} rounds).1
        then (run py create send {} rounds).2.dropLast
        else (run py create send {} rounds).2) := by
  obtain ⟨hdrop, hlast⟩ := @run_gone py create ω send {} rounds
  generalize run py create send {} rounds = result at hdrop hlast ⊢
  by_cases hunavailable : Unavailable result.1
  · rw [if_pos hunavailable]
    obtain ⟨o, ho, hgone⟩ := hlast.mp hunavailable
    obtain ⟨before, hends⟩ := List.getLast?_eq_some_iff.mp ho
    have hnone : shown py o = none := if_pos hgone
    rw [hends, List.dropLast_concat] at hdrop ⊢
    rw [List.filterMap_append, filterMap_shown hdrop, List.filterMap_cons_none hnone,
      List.filterMap_nil, List.append_nil]
  · rw [if_neg hunavailable]
    apply filterMap_shown
    intro ended hended
    cases hgone : gone ended with
    | false => rfl
    | true =>
        rcases mem_dropLast_or hended with hbefore | hsame
        · rw [hdrop ended hbefore] at hgone
          cases hgone
        · exact absurd (hlast.mpr ⟨ended, hsame, hgone⟩) hunavailable

theorem eq_take_append {α : Type} {l : List α} {k : ℕ} {a : α} (h : l[k]? = some a)
    (hlength : l.length = k + 1) : l = l.take k ++ [a] := by
  obtain ⟨hk, rfl⟩ := List.getElem?_eq_some_iff.mp h
  rw [List.take_append_getElem hk, List.take_of_length_le (by omega)]

theorem loop_records_survive (py : Interpreter) (create : GroupCreate)
    (send : Call → List (Attempt ω) → RequestEnd × List Transmission) (rounds : List (Round ω)) :
    RecordsSurvive py (loop py create send {} rounds) := by
  obtain ⟨hprompt, hfinished⟩ := @loop_log py create ω send {} rounds
  refine ⟨?_, ?_, ?_, hfinished⟩
  · intro made hmade handle hhandle
    obtain ⟨k, ended, r, s', hended, hlength, H, hturn⟩ := returned_at hmade
    obtain ⟨answer, headers, status, rfl, hstatus, -, -, rfl⟩ := afterRequest_returned hturn
    obtain ⟨m, -, rfl⟩ := List.mem_map.mp hhandle
    simp only
    rw [lookup_keepRecords, H.records, lookup_recordsAfter]
    have hlisted : listedIn py (.returned (answer, headers)) = some status := by
      simp only [listedIn, hstatus, Except.toOption]
    have hlists : lists py (run py create send {} rounds).2 =
        lists py ((run py create send {} rounds).2.take k) ++ [status] := by
      conv_lhs => rw [eq_take_append hended hlength, lists_snoc, hlisted]
      rfl
    show _ = (latestRecord ((lists py (run py create send {} rounds).2).flatMap _) _).getD []
    rw [hlists, List.flatMap_append, latestRecord_append, List.flatMap_singleton]
    simp
  · rw [notifications_loop]
    exact run_shown send rounds
  · intro k ended status hended hgone hlisted
    refine hprompt k ended status hended ?_
    rw [shown, if_neg (by rw [hgone]; exact Bool.false_ne_true), hlisted]

/-- **The records of the members**, in both clients. -/
theorem records_survive (py : Interpreter) (create : GroupCreate) :
    (∀ rounds, RecordsSurvive py (create.loop py (requestJsonResponse py) {} rounds)) ∧
    ∀ rounds, RecordsSurvive py (create.loop py (asyncRequestJsonResponse py) {} rounds) :=
  ⟨loop_records_survive py create _, loop_records_survive py create _⟩

/-- A gateway that answers 501 and lists a member all the same. -/
def goneRounds : List (Round (List Wire)) :=
  [wireRound 0 [⟨0, .fresh (.answered (textResponse 501 partialText) 0)⟩]]

/-- `on_progress` does not see it. -/
theorem unavailable_list_unnoticed :
    (notifications (hastyCreate.loop partialInterpreter (requestJsonResponse partialInterpreter) {}
      goneRounds).2).length = 0 ∧
    (lists partialInterpreter (requestEnds (hastyCreate.loop partialInterpreter
      (requestJsonResponse partialInterpreter) {} goneRounds).2)).length = 1 := by
  decide +kernel

end GroupCreate
end UcloudSandboxes.Client
