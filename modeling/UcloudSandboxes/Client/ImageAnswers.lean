import UcloudSandboxes.Client.ImageRequest

/-!
# What both clients make of an answer

Both readers agree on a body that is whole and on one that is too long, however it would have ended.
An answer that is no success becomes an error with its status, or an exception that ends the wait.

## Main results

* `readSyncResponse_determined`, `readAsyncResponse_determined`: the bodies on which the readers
  agree.
* `syncNodeError_status`, `afterError_exit`: what a loop stops with behind an error.
-/
namespace UcloudSandboxes.Client
open Python Http

/-! ## The two readers -/

section Readers
variable {py : Interpreter} {r : Response} {limit : ℕ}

theorem Framed.whole (hframed : Framed r.body) (hending : r.body.ending = .complete) :
    r.body.Complete where
  ending := hending
  length := hframed.complete hending
  chunks := hframed.chunks

/-- The async reader stops as soon as there is too much, however the body would have ended. -/
theorem readAsyncLoop_exceeds (ending : Http.Ending) {chunks : List Bytes} {acc : Bytes}
    (hchunks : ∀ chunk ∈ chunks, chunk ≠ []) (hacc : acc.length ≤ limit)
    (hlimit : limit < (acc ++ chunks.flatten).length) :
    readAsyncLoop limit ending chunks acc = .error (.tooLarge (tooLargeText limit)) := by
  induction chunks generalizing acc with
  | nil =>
      simp only [List.flatten_nil, List.append_nil] at hlimit
      omega
  | cons chunk rest ih =>
      simp only [readAsyncLoop]
      rw [if_neg (hchunks chunk List.mem_cons_self)]
      by_cases hnow : limit < (acc ++ chunk).length
      · rw [if_pos hnow]
      · rw [if_neg hnow]
        apply ih (fun c hc => hchunks c (List.mem_cons_of_mem _ hc)) (Nat.le_of_not_lt hnow)
        rw [List.append_assoc]
        exact hlimit

/-- What arrives is all there is, or too much to tell. -/
def Determined (py : Interpreter) (r : Response) (limit : ℕ) : Prop :=
  r.body.ending = .complete ∨ ¬ WithinLimit py r limit

/-- A body that is too long is refused before it ends. -/
theorem exceeds_of_not_within {u : Unit} (h : ¬ WithinLimit py r limit)
    (hcheck : checkContentLength py r.headers limit = .ok u) : limit < r.body.delivered.length := by
  by_contra hle
  apply h
  simp only [WithinLimit, readWhole, hcheck, bind, Except.bind]
  rw [if_neg hle]

theorem readSyncResponse_determined (hframed : Framed r.body) (h : Determined py r limit) :
    readSyncResponse py r limit = readWhole py r limit := by
  rcases h with hending | hbeyond
  · exact readSyncResponse_complete py (hframed.whole hending) limit
  · rw [readWhole_of_not_within hbeyond]
    cases hcheck : checkContentLength py r.headers limit with
    | error exc =>
        have hwhole := readWhole_of_not_within hbeyond
        simp only [readWhole, hcheck, bind, Except.bind] at hwhole
        simp only [readSyncResponse, hcheck, bind, Except.bind]
        exact hwhole
    | ok u =>
        have hlimit := exceeds_of_not_within hbeyond hcheck
        have hread : r.body.read (limit + 1) = .ok (r.body.delivered.take (limit + 1)) := by
          simp only [Body.read]
          cases hlength : r.body.length with
          | none =>
              simp only
              rw [if_pos (by omega)]
          | some n =>
              have hn := hframed.length n hlength
              simp only
              rw [Nat.min_eq_left (by omega), if_pos (by omega)]
        simp only [readSyncResponse, hcheck, hread, bind, Except.bind, List.length_take]
        rw [if_pos (by omega)]

theorem readAsyncResponse_determined (hframed : Framed r.body) (h : Determined py r limit) :
    readAsyncResponse py r limit = readWhole py r limit := by
  rcases h with hending | hbeyond
  · exact readAsyncResponse_complete py (hframed.whole hending) limit
  · rw [readWhole_of_not_within hbeyond]
    cases hcheck : checkContentLength py r.headers limit with
    | error exc =>
        have hwhole := readWhole_of_not_within hbeyond
        simp only [readWhole, hcheck, bind, Except.bind] at hwhole
        simp only [readAsyncResponse, hcheck, bind, Except.bind]
        exact hwhole
    | ok u =>
        have hlimit := exceeds_of_not_within hbeyond hcheck
        simp only [readAsyncResponse, hcheck, bind, Except.bind]
        exact readAsyncLoop_exceeds _ hframed.chunks (Nat.zero_le _) hlimit

/-- Both flavours make the same error of such an answer. -/
theorem nodeError_determined (hframed : Framed r.body)
    (h : Determined py r maxJsonResponseBytes) : syncNodeError py r = asyncNodeError py r := by
  simp only [syncNodeError, asyncNodeError]
  rw [readSyncResponse_determined hframed h, readAsyncResponse_determined hframed h]

/-- A body that breaks off is an exception of the transport in the async client. -/
theorem readAsyncLoop_breaks {ending : Http.Ending} (hending : ending ≠ .complete)
    {chunks : List Bytes} {acc : Bytes} (hchunks : ∀ chunk ∈ chunks, chunk ≠ [])
    (hlimit : (acc ++ chunks.flatten).length ≤ limit) :
    ∃ exc, readAsyncLoop limit ending chunks acc = .error exc ∧
      ((∃ e, exc = .os e) ∨ ∃ cls text, exc = .builtin cls text) := by
  induction chunks generalizing acc with
  | nil =>
      simp only [readAsyncLoop]
      cases ending with
      | complete => exact absurd rfl hending
      | closed => exact ⟨_, rfl, .inr ⟨_, _, rfl⟩⟩
      | osError e => exact ⟨_, rfl, .inl ⟨e, rfl⟩⟩
      | protocol text => exact ⟨_, rfl, .inr ⟨_, _, rfl⟩⟩
  | cons chunk rest ih =>
      have hlength : (acc ++ chunk).length ≤ limit := by
        simp only [List.flatten_cons, List.length_append] at hlimit ⊢
        omega
      simp only [readAsyncLoop]
      rw [if_neg (hchunks chunk List.mem_cons_self), if_neg (Nat.not_lt.mpr hlength)]
      apply ih fun c hc => hchunks c (List.mem_cons_of_mem _ hc)
      rw [List.append_assoc]
      exact hlimit

theorem readAsyncResponse_breaks (hframed : Framed r.body) (hending : r.body.ending ≠ .complete)
    (hwithin : WithinLimit py r limit) :
    ∃ exc, readAsyncResponse py r limit = .error exc ∧
      ((∃ e, exc = .os e) ∨ ∃ cls text, exc = .builtin cls text) := by
  simp only [WithinLimit, readWhole] at hwithin
  obtain ⟨u, hcheck, hlength⟩ := bind_eq_ok hwithin
  simp only [readAsyncResponse, hcheck, bind, Except.bind]
  apply readAsyncLoop_breaks hending hframed.chunks
  by_contra hlimit
  rw [if_pos (by simpa [Body.delivered] using hlimit)] at hlength
  cases hlength

end Readers

/-! ## Errors and their statuses -/

section Status
variable {py : Interpreter} {r : Response}

/-- An error that is no transient one. -/
theorem transient_of_status {e : ApiError} {status : ℤ} (hstatus : isSuccess status = true)
    (hcode : e.statusCode = some status) (osCause : Bool) :
    ({ raised := .api e, osCause } : CallError).transient = false := by
  simp only [isSuccess, decide_eq_true_eq] at hstatus
  simp only [CallError.transient, hcode, List.contains_cons, List.contains_nil, Bool.or_false,
    Bool.or_eq_false_iff, beq_eq_false_iff_ne]
  omega

/-- If it is a `SandboxApiError`, it has a status. -/
def HasStatus (exc : Raised) : Prop := ∀ e, exc = .api e → e.statusCode ≠ none

theorem hasStatus_api {e : ApiError} (h : e.statusCode ≠ none) : HasStatus (.api e) := by
  intro e' he
  cases he
  exact h

theorem hasStatus_builtin (cls : Builtin) (text : String) : HasStatus (.builtin cls text) := by
  intro e he
  cases he

/-- The cause matters only to an error without a status. -/
theorem transient_congr {exc : Raised} (h : HasStatus exc)
    (cause cause' : Bool) :
    ({ raised := exc, osCause := cause } : CallError).transient =
      ({ raised := exc, osCause := cause' } : CallError).transient := by
  cases exc with
  | api e =>
      cases hcode : e.statusCode with
      | none => exact absurd hcode (h e rfl)
      | some status => simp only [CallError.transient, hcode]
  | _ => rfl

/-- The error of an answer that is no success has its status. -/
theorem decodeNodeJson_failed {text : String} {status : ℤ} {headers : Headers} {e : ApiError}
    (hstatus : isSuccess status = false)
    (h : decodeNodeJson py text status headers = .error (.api e)) : e.statusCode = some status := by
  simp only [decodeNodeJson, decodeJsonObject, decodeJsonObject.failed, hstatus, Bool.not_false,
    if_true, Bool.false_eq_true, if_false] at h
  split at h
  · cases h
  · cases h
    rfl
  · cases h
    rfl

/-- The error of a success is final. -/
theorem decodeNodeJson_final {text : String} {status : ℤ} {headers : Headers} {exc : Raised}
    (hstatus : isSuccess status = true)
    (h : decodeNodeJson py text status headers = .error exc) :
    exc.isOsError = false ∧ ({ raised := exc } : CallError).transient = false := by
  simp only [decodeNodeJson, decodeJsonObject, decodeJsonObject.failed, hstatus, Bool.not_true,
    if_true, Bool.false_eq_true, if_false] at h
  split at h
  · cases h
    exact ⟨rfl, rfl⟩
  · cases h
    exact ⟨rfl, transient_of_status hstatus rfl false⟩
  · split at h
    · cases h
    · cases h
      exact ⟨rfl, rfl⟩

/-- Every error of an answer that is no success has a status, or is no `SandboxApiError`. -/
theorem syncNodeError_status (py : Interpreter) (hstatus : isSuccess r.status = false) :
    (∀ e, syncNodeError py r = .ok e → e.statusCode ≠ none) ∧
      ∀ exc, syncNodeError py r = .error exc → HasStatus exc := by
  simp only [syncNodeError]
  split
  · rename_i raw hread
    simp only [nodeError]
    split
    · rename_i e hdecode
      have hcode := decodeNodeJson_failed hstatus hdecode
      constructor
      · intro e' h
        cases h
        rw [hcode]
        exact Option.some_ne_none _
      · intro exc h
        cases h
    · rename_i exc hnot hdecode
      constructor
      · intro e h
        cases h
      · intro exc' h e hexc
        cases h
        exact absurd hexc (hnot e)
    · constructor
      · intro e h
        cases h
      · intro exc h
        cases h
        exact hasStatus_builtin _ _
  · constructor
    · intro e h
      cases h
    · intro exc h
      cases h
      exact hasStatus_api (Option.some_ne_none _)
  · rename_i exc hnot hread
    constructor
    · intro e h
      cases h
    · intro exc' h e hexc
      cases h
      subst hexc
      have hkind := readSyncResponse_error hread
      simp at hkind

theorem shouldRetry_error {status : ℤ} {body : Json} {attempt : ℕ} {method path : String}
    {maxAttempts : Option ℕ} {exc : Raised}
    (h : shouldRetryUcloudUnavailable status body attempt method path maxAttempts = .error exc) :
    ∃ cls text, exc = .builtin cls text := by
  by_cases hlooks : looksUpCode method.toUpper path status body = true ∧
      unhashable (errorCode body) = true
  · obtain ⟨cls, text, htype⟩ := shouldRetry_typeError hlooks.1 hlooks.2 attempt maxAttempts
    rw [htype] at h
    cases h
    exact ⟨cls, text, rfl⟩
  · obtain ⟨b, hb⟩ := shouldRetry_ok hlooks attempt maxAttempts
    rw [hb] at h
    cases h

/-- What follows such an answer, for both loops. -/
theorem afterError_exit {ω : Type} {call : Call} (attempt : ℕ) (a : Attempt ω)
    (hstatus : isSuccess r.status = false) :
    ∃ exit : Option Raised, (∀ exc, exit = some exc → HasStatus exc) ∧
      ∀ α, afterError (α := α) py call attempt a (syncNodeError py r) = Next.ofRaised exit := by
  obtain ⟨hok, herror⟩ := syncNodeError_status py hstatus
  have hstops : ∀ {exc}, HasStatus exc → ∀ exc', some exc = some exc' → HasStatus exc' := by
    intro exc hexc exc' h
    cases h
    exact hexc
  cases hnode : syncNodeError py r with
  | error exc => exact ⟨some exc, hstops (herror exc hnode), fun _ => rfl⟩
  | ok e =>
      have hcode := hok e hnode
      obtain ⟨status, hsome⟩ := Option.ne_none_iff_exists'.mp hcode
      simp only [afterError, retryError, hsome]
      cases hshould : shouldRetryUcloudUnavailable status e.body attempt call.req.method
          call.req.path call.maxAttempts with
      | error exc =>
          obtain ⟨cls, text, rfl⟩ := shouldRetry_error hshould
          exact ⟨_, hstops (hasStatus_builtin cls text), fun _ => rfl⟩
      | ok retries =>
          cases retries with
          | false => exact ⟨_, hstops (hasStatus_api hcode), fun _ => rfl⟩
          | true =>
              by_cases hsleep : sleepForRetry (ucloudUnavailableRetryDelay py attempt e.headers
                  call.req.method call.req.path a.jitter) call.deadline a.later = true
              · refine ⟨none, ?_, fun _ => if_pos hsleep⟩
                intro exc h
                cases h
              · have hbudget : HasStatus (.api (retryBudgetExhausted e (attempt + 1))) :=
                  hasStatus_api hcode
                exact ⟨_, hstops hbudget, fun _ => if_neg hsleep⟩

end Status

end UcloudSandboxes.Client
