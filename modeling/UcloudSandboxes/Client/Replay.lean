import UcloudSandboxes.Client.Request

/-!
# What a request loop sends again

A mutating request may be sent again only after a transmission that cannot have been executed, or
whose repetition is harmless. `Repeatable` says which those are, in terms of what the client saw.
The async loop keeps to it in every run. The sync loops keep to it in every run in which no exchange
on an established connection fails like a failure to connect: `open_reusing` wraps what
`conn.request` raises in a `URLError`, as it does for `conn.connect`, and `_sync_connect_failure`
cannot tell the two apart.

## Main results

* `retryError_repeatable`: the classifier admits only repeatable answers.
* `attemptLoop_trace`, `attemptLoop_ne_unreachable`: the rules for the loop over attempts.
* `never_replayed`: the runs of all three loops.
-/
namespace UcloudSandboxes.Client
open Python Http

/-- A request whose repetition may change something. -/
def Mutating (method : String) : Prop := readOnly method.toUpper = false

instance (method : String) : Decidable (Mutating method) :=
  inferInstanceAs (Decidable (readOnly method.toUpper = false))

/-- The answer refuses the request before it is dispatched, with an error code that does so for
this method and path. -/
def FencedBeforeDispatch (method path : String) (e : ApiError) : Prop :=
  ∃ status code, e.statusCode = some status ∧ retryableAnswer status e.body = true ∧
    errorCode e.body = .str code ∧
    (code ∈ preDispatchErrorCodes ∨
      (method = "POST" ∧ path ∈ imageResolutionPreDispatchPaths ∧
        code ∈ imageResolutionPreDispatchErrorCodes) ∨
      (method = "POST" ∧ path = "/v1/images/build" ∧ code ∈ builderAdmissionErrorCodes))

/-- A retryable answer, or one that says the ingress is unavailable, to the create request whose id
the caller chose. -/
def AnswersStableCreate (method path : String) (e : ApiError) : Prop :=
  method = "POST" ∧ path = "/v1/sandboxes" ∧ ∃ status, e.statusCode = some status ∧
    (retryableAnswer status e.body = true ∨ status = 503 ∧
      mentions (ucloudUnavailableErrorText e.body) "job is unavailable" = true ∧
      mentions (ucloudUnavailableErrorText e.body) "ucloud" = true)

/-- A retryable answer to the delete of a sandbox or of a group. -/
def AnswersIdempotentDelete (method path : String) (e : ApiError) : Prop :=
  method = "DELETE" ∧ (isSandboxPath path = true ∨ startsWith path (sandboxGroupPath ++ "/") = true) ∧
    ∃ status, e.statusCode = some status ∧ retryableAnswer status e.body = true

/-- The endings after which the request may be sent again. `decode` is how the client reads an
answer that is no success. -/
def Repeatable (decode : Response → Except Raised ApiError) (method path : String) : Ending → Prop
  | .unconnected => True
  | .lost => False
  | .answered r => ∃ e, decode r = .ok e ∧
      (FencedBeforeDispatch method.toUpper path e ∨ AnswersStableCreate method.toUpper path e ∨
        AnswersIdempotentDelete method.toUpper path e)

/-- Every transmission sends the whole request, and a mutating request is followed by another
transmission only where it may be. -/
structure Lawful (decode : Response → Except Raised ApiError) (req : HttpRequest)
    (sent : List Transmission) : Prop where
  same : ∀ t ∈ sent, t.method = req.method ∧ t.path = req.path ∧ t.headers = req.headers ∧
    t.body = req.content.whole
  repeats : Mutating req.method → ∀ t ∈ sent.dropLast, Repeatable decode req.method req.path t.ending

theorem memberOf_true {v : Json} {texts : List String} (h : v.memberOf texts = .ok true) :
    ∃ code, v = .str code ∧ code ∈ texts := by
  cases v with
  | str s => exact ⟨s, rfl, by simpa [Json.memberOf] using h⟩
  | _ => simp [Json.memberOf] at h

/-- What the fence of the classifier stands for. -/
theorem preDispatchFence_true {status : ℤ} {body : Json} {method path : String}
    (h : preDispatchFence status body method path = .ok true) :
    retryableAnswer status body = true ∧
      ((∃ code, errorCode body = .str code ∧
        (code ∈ preDispatchErrorCodes ∨
          (method = "POST" ∧ path ∈ imageResolutionPreDispatchPaths ∧
            code ∈ imageResolutionPreDispatchErrorCodes) ∨
          (method = "POST" ∧ path = "/v1/images/build" ∧ code ∈ builderAdmissionErrorCodes))) ∨
      (method = "DELETE" ∧
        (isSandboxPath path = true ∨ startsWith path (sandboxGroupPath ++ "/") = true))) := by
  obtain ⟨imageResolution, himage, h⟩ := bind_eq_ok h
  obtain ⟨builderAdmission, hbuilder, h⟩ := bind_eq_ok h
  by_cases hretryable : retryableAnswer status body = true
  · rw [if_pos hretryable] at h
    obtain ⟨general, hgeneral, h⟩ := bind_eq_ok h
    refine ⟨hretryable, ?_⟩
    simp only [pure, Except.pure, Except.ok.injEq, Bool.or_eq_true] at h
    rcases h with (((rfl | rfl) | rfl) | h) | h
    · obtain ⟨code, hcode, hmem⟩ := memberOf_true hgeneral
      exact .inl ⟨code, hcode, .inl hmem⟩
    · simp only [imageResolutionFence] at himage
      split at himage
      · rename_i hwhere
        obtain ⟨code, hcode, hmem⟩ := memberOf_true himage
        simp only [Bool.and_eq_true, beq_iff_eq, List.contains_iff_mem] at hwhere
        exact .inl ⟨code, hcode, .inr (.inl ⟨hwhere.1, hwhere.2, hmem⟩)⟩
      · cases himage
    · simp only [builderAdmissionFence] at hbuilder
      split at hbuilder
      · rename_i hwhere
        obtain ⟨code, hcode, hmem⟩ := memberOf_true hbuilder
        simp only [Bool.and_eq_true, beq_iff_eq] at hwhere
        exact .inl ⟨code, hcode, .inr (.inr ⟨hwhere.1, hwhere.2, hmem⟩)⟩
      · cases hbuilder
    · simp only [deleteDrain, Bool.and_eq_true, beq_iff_eq] at h
      exact .inr ⟨h.1.1, .inl h.1.2⟩
    · simp only [groupDelete, Bool.and_eq_true, beq_iff_eq] at h
      exact .inr ⟨h.1, .inr h.2⟩
  · rw [if_neg hretryable] at h
    cases h

/-- What the classifier admits, and the attempts it leaves. -/
theorem shouldRetry_true {status : ℤ} {body : Json} {attempt : ℕ} {method path : String}
    {maxAttempts : Option ℕ}
    (h : shouldRetryUcloudUnavailable status body attempt method path maxAttempts = .ok true) :
    ∃ fence, preDispatchFence status body method.toUpper path = .ok fence ∧
      retriesAnswer fence status body method.toUpper path = true ∧
      ∀ limit, attemptLimit fence method.toUpper path maxAttempts = some limit →
        attempt + 1 < limit := by
  unfold shouldRetryUcloudUnavailable at h
  simp only at h
  split at h
  · cases h
  · obtain ⟨fence, hfence, h⟩ := bind_eq_ok h
    split at h
    · cases h
    · rename_i hlimit
      refine ⟨fence, hfence, by simpa [pure, Except.pure] using h, fun limit hl => ?_⟩
      simpa [hl] using hlimit

/-- A mutating request is retried after the answers it may be repeated after. -/
theorem retryError_repeatable {py : Interpreter} {e : ApiError} {attempt : ℕ}
    {method path : String} {maxAttempts : Option ℕ} {jitter delay : ℚ}
    (h : retryError py e attempt method path maxAttempts jitter = .ok (some delay))
    (hmutating : Mutating method) :
    FencedBeforeDispatch method.toUpper path e ∨ AnswersStableCreate method.toUpper path e ∨
      AnswersIdempotentDelete method.toUpper path e := by
  simp only [retryError] at h
  split at h
  · cases h
  · rename_i status hstatus
    obtain ⟨retries, hretries, h⟩ := bind_eq_ok h
    split at h
    · rename_i htrue
      subst htrue
      obtain ⟨fence, hfence, hanswer, _⟩ := shouldRetry_true hretries
      simp only [retriesAnswer] at hanswer
      simp only [show readOnly method.toUpper = false from hmutating, Bool.false_or] at hanswer
      split_ifs at hanswer with hf hc h503 hs
      · subst hf
        obtain ⟨hretryable, ⟨code, hcode, hwhere⟩ | ⟨hdelete, hpath⟩⟩ := preDispatchFence_true hfence
        · exact .inl ⟨status, code, hstatus, hretryable, hcode, hwhere⟩
        · exact .inr (.inr ⟨hdelete, hpath, status, hstatus, hretryable⟩)
      · simp only [Bool.and_eq_true, stableCreate, beq_iff_eq] at hc
        exact .inr (.inl ⟨hc.2.1, hc.2.2, status, hstatus, .inl hc.1⟩)
      · simp only [stableCreate, Bool.not_eq_true', Bool.not_eq_false, Bool.and_eq_true,
          beq_iff_eq] at hs
        simp only [bne_iff_ne, ne_eq, not_not] at h503
        simp only [Bool.and_eq_true] at hanswer
        exact .inr (.inl ⟨hs.1, hs.2, status, hstatus, .inr ⟨h503, hanswer⟩⟩)
    · cases h

/-- A retry leaves another attempt. -/
theorem retryError_attempts {py : Interpreter} {e : ApiError} {attempt most : ℕ}
    {method path : String} {jitter delay : ℚ}
    (h : retryError py e attempt method path (some most) jitter = .ok (some delay))
    (hmost : 0 < most) : attempt + 1 < most := by
  simp only [retryError] at h
  split at h
  · cases h
  · obtain ⟨retries, hretries, h⟩ := bind_eq_ok h
    split at h
    · rename_i htrue
      subst htrue
      obtain ⟨fence, _, _, hlimit⟩ := shouldRetry_true hretries
      obtain ⟨n, rfl⟩ := Nat.exists_eq_succ_of_ne_zero (Nat.pos_iff_ne_zero.mp hmost)
      simp only [attemptLimit] at hlimit
      split_ifs at hlimit
      · exact hlimit _ rfl
      · have := hlimit _ rfl
        omega
    · cases h

theorem connectionRetryDelay_attempts {attempt most : ℕ} {delay : ℚ}
    (h : connectionRetryDelay attempt (some most) = some delay) (hmost : 0 < most) :
    attempt + 1 < most := by
  obtain ⟨n, rfl⟩ := Nat.exists_eq_succ_of_ne_zero (Nat.pos_iff_ne_zero.mp hmost)
  unfold connectionRetryDelay at h
  simp only at h
  split_ifs at h with hle
  omega

theorem maxAttempts_pos {call : Call} {most : ℕ} (h : call.maxAttempts = some most) : 0 < most := by
  simp only [Call.maxAttempts, ucloudUnavailableAttempts] at h
  grind [ucloudUnavailableRetryAttempts]

section Loop
variable {ω α : Type} (maxAttempts : Option ℕ) (body : ℕ → Attempt ω → Next α × List Transmission)

/-- The attempts of a schedule that a loop makes. -/
def attemptsMade : ℕ → List (Attempt ω) → List (Attempt ω)
  | _, [] => []
  | attempt, a :: rest =>
      if attemptLoop.exhausted maxAttempts attempt then []
      else match (body attempt a).1 with
        | .stop _ => [a]
        | .again => a :: attemptsMade (attempt + 1) rest

variable {maxAttempts body}

theorem mem_of_attemptsMade {attempt : ℕ} {schedule : List (Attempt ω)} {a : Attempt ω}
    (h : a ∈ attemptsMade maxAttempts body attempt schedule) : a ∈ schedule := by
  induction schedule generalizing attempt with
  | nil => exact h
  | cons first rest ih =>
      simp only [attemptsMade] at h
      split at h
      · cases h
      · split at h
        · rw [List.mem_singleton.mp h]
          exact List.mem_cons_self
        · rcases List.mem_cons.mp h with rfl | hrest
          · exact List.mem_cons_self
          · exact List.mem_cons_of_mem _ (ih hrest)

/-- **The trace rule.** `P` holds of every transmission of a loop and `Q` of every one that is
followed by another, if each attempt keeps to that and ends in `Q` where it goes on. -/
theorem attemptLoop_trace {P Q : Transmission → Prop} (attempt : ℕ) (schedule : List (Attempt ω))
    (hsent : ∀ n, ∀ a ∈ attemptsMade maxAttempts body attempt schedule,
      (∀ t ∈ (body n a).2, P t) ∧ (∀ t ∈ (body n a).2.dropLast, Q t) ∧
        ((body n a).1 = .again → ∀ t ∈ (body n a).2, Q t)) :
    (∀ t ∈ (attemptLoop maxAttempts body attempt schedule).2, P t) ∧
      ∀ t ∈ (attemptLoop maxAttempts body attempt schedule).2.dropLast, Q t := by
  induction schedule generalizing attempt with
  | nil =>
      simp only [attemptLoop]
      split <;> simp
  | cons a rest ih =>
      simp only [attemptLoop, attemptsMade] at hsent ⊢
      split
      · simp
      · rename_i hopen
        rw [if_neg hopen] at hsent
        cases hbody : body attempt a with
        | mk next sent =>
        rw [hbody] at hsent
        cases next with
        | stop outcome =>
          obtain ⟨hP, hdrop, -⟩ := hsent attempt a (by simp)
          rw [hbody] at hP hdrop
          exact ⟨hP, hdrop⟩
        | again =>
          obtain ⟨hP, -, hagain⟩ := hsent attempt a (by simp)
          obtain ⟨ihP, ihQ⟩ := ih (attempt + 1) fun n b hb => hsent n b (by simp [hb])
          rw [hbody] at hP hagain
          refine ⟨fun t ht => ?_, fun t ht => ?_⟩
          · rcases List.mem_append.mp ht with ht | ht
            · exact hP t ht
            · exact ihP t ht
          · rw [List.dropLast_append] at ht
            split at ht
            · exact hagain rfl t (List.dropLast_subset _ ht)
            · rcases List.mem_append.mp ht with ht | ht
              · exact hagain rfl t ht
              · exact ihQ t ht

theorem exhausted_eq_false {attempt : ℕ} (h : ∀ most, maxAttempts = some most → attempt < most) :
    attemptLoop.exhausted maxAttempts attempt = false := by
  cases hmost : maxAttempts with
  | none => rfl
  | some most => simpa [attemptLoop.exhausted] using h most hmost

/-- **The loop never falls through**, if no attempt goes on when it is the last one. -/
theorem attemptLoop_ne_unreachable (attempt : ℕ) (schedule : List (Attempt ω))
    (hstart : ∀ most, maxAttempts = some most → attempt < most)
    (hstop : ∀ n a, (body n a).1 ≠ .stop .unreachable)
    (hagain : ∀ n a most, maxAttempts = some most → (body n a).1 = .again → n + 1 < most) :
    (attemptLoop maxAttempts body attempt schedule).1 ≠ .unreachable := by
  induction schedule generalizing attempt with
  | nil =>
      simp only [attemptLoop]
      rw [exhausted_eq_false hstart]
      simp
  | cons a rest ih =>
      simp only [attemptLoop]
      rw [exhausted_eq_false hstart]
      simp only [Bool.false_eq_true, if_false]
      split
      · rename_i outcome sent hbody
        have := hstop attempt a
        rw [hbody] at this
        exact fun h => this (congrArg Next.stop h)
      · rename_i sent hbody
        exact ih (attempt + 1) fun most hm => hagain attempt a most hm (by rw [hbody])

end Loop

section Answers
variable {ω α : Type} {py : Interpreter} {call : Call} {attempt : ℕ} {a : Attempt ω}

theorem afterError_again {e : Except Raised ApiError}
    (h : afterError (α := α) py call attempt a e = .again) :
    ∃ err delay, e = .ok err ∧ retryError py err attempt call.req.method call.req.path
      call.maxAttempts a.jitter = .ok (some delay) := by
  simp only [afterError] at h
  grind

theorem afterConnectFailure_again {cause : OsError}
    (h : afterConnectFailure (α := α) call attempt a cause = .again) :
    ∃ delay, connectionRetryDelay attempt call.maxAttempts = some delay := by
  simp only [afterConnectFailure] at h
  grind

theorem afterRaised_again {exc : Raised} (h : afterRaised (α := α) call attempt a exc = .again) :
    syncConnectFailure exc = true ∧
      ∃ delay, connectionRetryDelay attempt call.maxAttempts = some delay := by
  simp only [afterRaised] at h
  split at h
  · cases h
  · split at h
    · rename_i hfail
      exact ⟨hfail, afterConnectFailure_again h⟩
    · cases h
  · cases h
  · cases h

theorem afterError_ne_unreachable (e : Except Raised ApiError) :
    afterError (α := α) py call attempt a e ≠ .stop .unreachable := by
  simp only [afterError]
  grind

theorem afterConnectFailure_ne_unreachable (cause : OsError) :
    afterConnectFailure (α := α) call attempt a cause ≠ .stop .unreachable := by
  simp only [afterConnectFailure]
  grind

theorem afterRaised_ne_unreachable (exc : Raised) :
    afterRaised (α := α) call attempt a exc ≠ .stop .unreachable := by
  simp only [afterRaised]
  have (cause : OsError) : afterConnectFailure (α := α) call attempt a cause ≠ .stop .unreachable :=
    afterConnectFailure_ne_unreachable cause
  grind

end Answers

/-- The passes through `open_reusing` that one attempt makes. -/
def passes (req : HttpRequest) : List Wire → List Wire
  | [] => []
  | w :: ws =>
      match w.link with
      | .reused exchange =>
          if exchange.dropped && resendable req.method then w :: passes req ws else [w]
      | _ => [w]

/-- The passes of an attempt, which makes none when no time is left. -/
def passesMade (call : Call) (a : Attempt (List Wire)) : List Wire :=
  match requiredRemainingSeconds call.deadline a.now with
  | .error _ => []
  | .ok _ => passes call.req a.wire

/-- The attempts that a sync loop makes. -/
def syncAttempts {α : Type} (py : Interpreter) (reader : Reader α) (call : Call)
    (schedule : List (Attempt (List Wire))) : List (Attempt (List Wire)) :=
  attemptsMade call.maxAttempts (syncAttempt py reader call) 0 schedule

/-- The transport does not lead the client to send too much: no exchange on an established
connection fails like a failure to connect while the request is mutating, and no streamed body of
which a part was read is sent again on another connection. -/
structure Clean (req : HttpRequest) (w : Wire) : Prop where
  failure : Mutating req.method → ∀ exchange, w.link.exchange = some exchange →
    ∀ exc, exchange.result = .error exc → syncConnectFailure exc = false
  position : ∀ exchange, w.link = .reused exchange → exchange.dropped = true →
    resendable req.method = true → ∀ file, req.content = .stream file → exchange.consumed = 0

/-- The transmission sends the whole request. -/
def Whole (req : HttpRequest) (t : Transmission) : Prop :=
  t.method = req.method ∧ t.path = req.path ∧ t.headers = req.headers ∧ t.body = req.content.whole

theorem sentFrom_whole {content : Content} {position : ℕ}
    (h : ∀ file, content = .stream file → position = 0) :
    content.sentFrom position = content.whole := by
  cases content with
  | stream file =>
      obtain rfl := h file rfl
      simp [Content.sentFrom, Content.whole]
  | _ => rfl

section Open
variable {req : HttpRequest} {timeout : ℚ}

/-- The first pass is made. -/
theorem mem_passes (req : HttpRequest) (w : Wire) (ws : List Wire) : w ∈ passes req (w :: ws) := by
  simp only [passes]
  cases w.link with
  | reused exchange =>
      simp only
      split <;> simp
  | _ => simp

theorem mem_of_passes {w : Wire} {ws : List Wire} (h : w ∈ passes req ws) : w ∈ ws := by
  induction ws with
  | nil => exact h
  | cons v vs ih =>
      have hsingle (h : w ∈ [v]) : w ∈ v :: vs := List.mem_cons.mpr (.inl (List.mem_singleton.mp h))
      simp only [passes] at h
      split at h
      · split at h
        · rcases List.mem_cons.mp h with rfl | hrest
          · exact List.mem_cons_self
          · exact List.mem_cons_of_mem _ (ih hrest)
        · exact hsingle h
      · exact hsingle h

theorem mem_of_passesMade {call : Call} {a : Attempt (List Wire)} {w : Wire}
    (h : w ∈ passesMade call a) : w ∈ a.wire := by
  simp only [passesMade] at h
  split at h
  · cases h
  · exact mem_of_passes h

/-- Every pass through `open_reusing` sends the whole request. -/
theorem openReusing_whole {position : ℕ} {wires : List Wire}
    (hclean : ∀ w ∈ passes req wires, Clean req w)
    (hposition : ∀ file, req.content = .stream file → position = 0) :
    ∀ t ∈ (openReusing req timeout position wires).2, Whole req t := by
  induction wires generalizing position with
  | nil => simp [openReusing]
  | cons w ws ih =>
      have hbody := sentFrom_whole hposition
      have hw := hclean w (mem_passes req w ws)
      simp only [openReusing]
      split
      · simp [Whole, hbody]
      · simp [Whole, hbody]
      · rename_i exchange hlink
        split
        · rename_i hagain
          simp only [passes, hlink, hagain, if_true] at hclean
          simp only [Bool.and_eq_true] at hagain
          have hnext : ∀ file, req.content = .stream file → position + exchange.consumed = 0 := by
            intro file hfile
            have := hposition file hfile
            have := hw.position exchange hlink hagain.1 hagain.2 file hfile
            omega
          have hrest := ih (fun v hv => hclean v (by simp [hv])) hnext
          intro t ht
          rcases List.mem_cons.mp ht with rfl | ht
          · exact ⟨rfl, rfl, rfl, hbody⟩
          · exact hrest t ht
        · simp [Whole, hbody]

theorem resendable_readOnly {method : String} (h : resendable method = true) :
    readOnly method.toUpper = true := by
  simp only [resendable, List.contains_iff_mem, List.mem_cons, List.not_mem_nil, or_false] at h
  rcases h with rfl | rfl <;> decide +kernel

/-- A mutating request passes through `open_reusing` once, and is on no connection if that ends like
a failure to connect. -/
theorem openReusing_mutating (hmutating : Mutating req.method) {position : ℕ} {wires : List Wire}
    (hclean : ∀ w ∈ passes req wires, Clean req w) :
    (openReusing req timeout position wires).2.dropLast = [] ∧
      (∀ exc, (openReusing req timeout position wires).1 = some (.error exc) →
        syncConnectFailure exc = true →
        ∀ t ∈ (openReusing req timeout position wires).2, t.ending = .unconnected) ∧
      ∀ r, (openReusing req timeout position wires).1 = some (.ok r) →
        ∀ t ∈ (openReusing req timeout position wires).2, t.ending = .answered r := by
  cases wires with
  | nil => simp [openReusing]
  | cons w ws =>
      have hw := hclean w (mem_passes req w ws)
      have hno : resendable req.method = false := by
        by_contra h
        have := resendable_readOnly (by simpa using h)
        simp [show readOnly req.method.toUpper = false from hmutating] at this
      have hexchange : ∀ exchange, w.link.exchange = some exchange →
          (∀ exc, exchange.result = .error exc → syncConnectFailure exc = true → False) ∧
          ∀ r, exchange.result = .ok r → exchange.ending = .answered r := by
        intro exchange hlink
        refine ⟨fun exc hexc hfail => ?_, fun r hr => ?_⟩
        · have := hw.failure hmutating exchange hlink exc hexc
          simp [hfail] at this
        · cases exchange <;> simp_all [Exchange.result, Exchange.ending]
      simp only [openReusing]
      cases hlink : w.link with
      | refused e => simp
      | fresh exchange =>
          obtain ⟨hfail, hok⟩ := hexchange exchange (by rw [hlink]; rfl)
          refine ⟨rfl, fun exc hexc hf => ?_, fun r hr => ?_⟩
          · exact (hfail exc (by simpa using hexc) hf).elim
          · simpa using hok r (by simpa using hr)
      | reused exchange =>
          obtain ⟨hfail, hok⟩ := hexchange exchange (by rw [hlink]; rfl)
          simp only [hno, Bool.and_false, Bool.false_eq_true, if_false]
          refine ⟨rfl, fun exc hexc hf => ?_, fun r hr => ?_⟩
          · exact (hfail exc (by simpa using hexc) hf).elim
          · simpa using hok r (by simpa using hr)

end Open

/-- A reader whose errors are never taken for a failure to connect. -/
def Reader.Plain {α : Type} (reader : Reader α) : Prop :=
  ∀ py r exc, reader.read py r = .error exc → syncConnectFailure exc = false

theorem readSyncResponse_plain {py : Interpreter} {r : Response} {limit : ℕ} {exc : Raised}
    (h : readSyncResponse py r limit = .error exc) : syncConnectFailure exc = false := by
  rcases readSyncResponse_error h with rfl | ⟨e, _, rfl⟩ | ⟨text, _, rfl⟩ <;> rfl

theorem bytesReader_plain : bytesReader.Plain := fun _ _ _ h => readSyncResponse_plain h

theorem jsonReader_plain : jsonReader.Plain := by
  intro py r exc h
  simp only [jsonReader, bind, Except.bind] at h
  split at h
  · rename_i hread
    cases h
    exact readSyncResponse_plain hread
  · split at h
    · cases h
      rfl
    · split at h
      · rename_i hdecode
        cases h
        rcases decode_error hdecode with ⟨e, rfl⟩ | ⟨cls, text, _, rfl⟩ <;> rfl
      · cases h

section Sync
variable {α : Type} {py : Interpreter} {reader : Reader α} {call : Call}

/-- What one attempt of a sync loop sends. -/
theorem syncAttempt_trace (hreader : reader.Plain) {attempt : ℕ} {a : Attempt (List Wire)}
    (hclean : ∀ w ∈ passesMade call a, Clean call.req w) :
    (∀ t ∈ (syncAttempt py reader call attempt a).2, Whole call.req t) ∧
      (∀ t ∈ (syncAttempt py reader call attempt a).2.dropLast, Mutating call.req.method →
        Repeatable (syncNodeError py) call.req.method call.req.path t.ending) ∧
      ((syncAttempt py reader call attempt a).1 = .again →
        ∀ t ∈ (syncAttempt py reader call attempt a).2, Mutating call.req.method →
          Repeatable (syncNodeError py) call.req.method call.req.path t.ending) := by
  unfold syncAttempt
  split
  · simp
  · rename_i remaining hremaining
    simp only [passesMade, hremaining] at hclean
    have hwhole : ∀ t ∈ (openReusing call.req (requestTimeoutSeconds remaining call.timeout) 0
        a.wire).2, Whole call.req t := openReusing_whole hclean fun _ _ => rfl
    have hdrop : ∀ t ∈ (openReusing call.req (requestTimeoutSeconds remaining call.timeout) 0
        a.wire).2.dropLast, Mutating call.req.method →
        Repeatable (syncNodeError py) call.req.method call.req.path t.ending := by
      intro t ht hmutating
      rw [(openReusing_mutating hmutating hclean).1] at ht
      cases ht
    simp only
    split
    · exact ⟨hwhole, hdrop, fun h => by cases h⟩
    · rename_i exc hresult
      refine ⟨hwhole, hdrop, fun hagain t ht hmutating => ?_⟩
      obtain ⟨_, hunconnected, _⟩ := openReusing_mutating hmutating hclean
      rw [hunconnected exc hresult (afterRaised_again hagain).1 t ht]
      trivial
    · rename_i r hresult
      split
      · split
        · exact ⟨hwhole, hdrop, fun h => by cases h⟩
        · rename_i exc hread
          refine ⟨hwhole, hdrop, fun hagain => ?_⟩
          have := hreader py r exc hread
          simp [(afterRaised_again hagain).1] at this
      · refine ⟨hwhole, hdrop, fun hagain t ht hmutating => ?_⟩
        obtain ⟨_, _, hanswered⟩ := openReusing_mutating hmutating hclean
        obtain ⟨e, delay, hdecode, hretry⟩ := afterError_again hagain
        rw [hanswered r hresult t ht]
        exact ⟨e, hdecode, retryError_repeatable hretry hmutating⟩

/-- An attempt goes on only when another one is left, and never asserts. -/
theorem syncAttempt_again {attempt : ℕ} {a : Attempt (List Wire)} :
    (syncAttempt py reader call attempt a).1 ≠ .stop .unreachable ∧
      ∀ most, call.maxAttempts = some most → (syncAttempt py reader call attempt a).1 = .again →
        attempt + 1 < most := by
  have hraised : ∀ exc, (afterRaised (α := α) call attempt a exc) ≠ .stop .unreachable ∧
      ∀ most, call.maxAttempts = some most → afterRaised (α := α) call attempt a exc = .again →
        attempt + 1 < most := by
    refine fun exc => ⟨afterRaised_ne_unreachable exc, fun most hmost hagain => ?_⟩
    obtain ⟨_, delay, hdelay⟩ := afterRaised_again hagain
    rw [hmost] at hdelay
    exact connectionRetryDelay_attempts hdelay (maxAttempts_pos hmost)
  unfold syncAttempt
  split
  · split
    · exact hraised _
    · exact ⟨by simp, fun _ _ h => by cases h⟩
  · simp only
    split
    · exact ⟨by simp, fun _ _ h => by cases h⟩
    · exact hraised _
    · split
      · split
        · exact ⟨by simp, fun _ _ h => by cases h⟩
        · exact hraised _
      · refine ⟨afterError_ne_unreachable _, fun most hmost hagain => ?_⟩
        obtain ⟨e, delay, _, hretry⟩ := afterError_again hagain
        rw [hmost] at hretry
        exact retryError_attempts hretry (maxAttempts_pos hmost)

theorem syncRequest_lawful (hreader : reader.Plain) {schedule : List (Attempt (List Wire))}
    (hclean : ∀ a ∈ syncAttempts py reader call schedule, ∀ w ∈ passesMade call a,
      Clean call.req w) :
    Lawful (syncNodeError py) call.req (syncRequest py reader call schedule).2 := by
  simp only [syncRequest]
  obtain ⟨hsame, hrepeats⟩ := attemptLoop_trace 0 schedule fun _ a ha =>
    syncAttempt_trace hreader (hclean a ha)
  exact ⟨hsame, fun hmutating t ht => hrepeats t ht hmutating⟩

theorem syncRequest_ne_unreachable (schedule : List (Attempt (List Wire))) :
    (syncRequest py reader call schedule).1 ≠ .unreachable :=
  attemptLoop_ne_unreachable 0 schedule (fun _ h => maxAttempts_pos h)
    (fun _ _ => syncAttempt_again.1) fun _ _ most hmost => syncAttempt_again.2 most hmost

end Sync

section Async
variable {py : Interpreter} {successLimit : ℕ} {call : Call}

/-- What one attempt of `_send` sends. -/
theorem asyncAttempt_trace (attempt : ℕ) (a : Attempt AsyncWire) :
    (∀ t ∈ (asyncAttempt py successLimit call attempt a).2, Whole call.req t) ∧
      (∀ t ∈ (asyncAttempt py successLimit call attempt a).2.dropLast, Mutating call.req.method →
        Repeatable (asyncNodeError py) call.req.method call.req.path t.ending) ∧
      ((asyncAttempt py successLimit call attempt a).1 = .again →
        ∀ t ∈ (asyncAttempt py successLimit call attempt a).2, Mutating call.req.method →
          Repeatable (asyncNodeError py) call.req.method call.req.path t.ending) := by
  have hbody : call.req.content.sentFrom 0 = call.req.content.whole :=
    sentFrom_whole fun _ _ => rfl
  unfold asyncAttempt
  split
  · simp
  · simp only
    split
    · refine ⟨by simp [Whole, hbody], by simp, fun _ t ht _ => ?_⟩
      obtain rfl := List.mem_singleton.mp ht
      trivial
    · exact ⟨by simp [Whole, hbody], by simp, fun h => by cases h⟩
    · rename_i start r _
      refine ⟨by simp [Whole, hbody], by simp, fun hagain t ht hmutating => ?_⟩
      obtain rfl := List.mem_singleton.mp ht
      split at hagain
      · split at hagain <;> cases hagain
      · obtain ⟨e, delay, hdecode, hretry⟩ := afterError_again hagain
        exact ⟨e, hdecode, retryError_repeatable hretry hmutating⟩

theorem asyncAttempt_again (attempt : ℕ) (a : Attempt AsyncWire) :
    (asyncAttempt py successLimit call attempt a).1 ≠ .stop .unreachable ∧
      ∀ most, call.maxAttempts = some most →
        (asyncAttempt py successLimit call attempt a).1 = .again → attempt + 1 < most := by
  unfold asyncAttempt
  split
  · exact ⟨by simp, fun _ _ h => by cases h⟩
  · simp only
    split
    · split
      · exact ⟨by simp, fun _ _ h => by cases h⟩
      · refine ⟨afterConnectFailure_ne_unreachable _, fun most hmost hagain => ?_⟩
        obtain ⟨delay, hdelay⟩ := afterConnectFailure_again hagain
        rw [hmost] at hdelay
        exact connectionRetryDelay_attempts hdelay (maxAttempts_pos hmost)
    · exact ⟨by simp, fun _ _ h => by cases h⟩
    · split
      · split <;> exact ⟨by simp, fun _ _ h => by cases h⟩
      · refine ⟨afterError_ne_unreachable _, fun most hmost hagain => ?_⟩
        obtain ⟨e, delay, _, hretry⟩ := afterError_again hagain
        rw [hmost] at hretry
        exact retryError_attempts hretry (maxAttempts_pos hmost)

theorem asyncSend_lawful (schedule : List (Attempt AsyncWire)) :
    Lawful (asyncNodeError py) call.req (asyncSend py successLimit call schedule).2 := by
  simp only [asyncSend]
  obtain ⟨hsame, hrepeats⟩ := attemptLoop_trace 0 schedule fun n a _ => asyncAttempt_trace n a
  exact ⟨hsame, fun hmutating t ht => hrepeats t ht hmutating⟩

theorem asyncSend_ne_unreachable (schedule : List (Attempt AsyncWire)) :
    (asyncSend py successLimit call schedule).1 ≠ .unreachable :=
  attemptLoop_ne_unreachable 0 schedule (fun _ h => maxAttempts_pos h)
    (fun n a => (asyncAttempt_again n a).1)
    fun n a most hmost => (asyncAttempt_again n a).2 most hmost

end Async

/-- **No mutating request is replayed after it may have been executed**: in every run of the sync
loops whose transport is clean, and in every run of `_send`. The loops never fall through, whatever
the transport does. -/
theorem never_replayed (py : Interpreter) (call : Call) :
    (∀ schedule, (requestJsonResponse py call schedule).1 ≠ .unreachable ∧
      ((∀ a ∈ syncAttempts py jsonReader call schedule, ∀ w ∈ passesMade call a, Clean call.req w) →
        Lawful (syncNodeError py) call.req (requestJsonResponse py call schedule).2)) ∧
    (∀ schedule, (requestBytes py call schedule).1 ≠ .unreachable ∧
      ((∀ a ∈ syncAttempts py bytesReader call schedule, ∀ w ∈ passesMade call a, Clean call.req w) →
        Lawful (syncNodeError py) call.req (requestBytes py call schedule).2)) ∧
    (∀ successLimit schedule, (asyncSend py successLimit call schedule).1 ≠ .unreachable ∧
      Lawful (asyncNodeError py) call.req (asyncSend py successLimit call schedule).2) :=
  ⟨fun schedule => ⟨syncRequest_ne_unreachable schedule, syncRequest_lawful jsonReader_plain⟩,
    fun schedule => ⟨syncRequest_ne_unreachable schedule, syncRequest_lawful bytesReader_plain⟩,
    fun _ schedule => ⟨asyncSend_ne_unreachable schedule, asyncSend_lawful schedule⟩⟩

/-- Starting a command in a sandbox, with 30 seconds for it. -/
def execCall : Call where
  req := {
    method := "POST", path := "/v1/sandboxes/s1/exec", headers := []
    content := .bytes "{}".toUTF8.toList }
  timeout := 30
  deadline := some 30

/-- An attempt that is answered with an empty object. -/
def answeredAttempt : Attempt (List Wire) where
  now := 1
  wire := [⟨1, .fresh (.answered
    ⟨200, [], { length := some 2, chunks := ["{}".toUTF8.toList], ending := .complete }⟩ 0)⟩]
  later := 1
  jitter := 0

/-- Two attempts: the transport fails on `link` in the first one and answers in the second. -/
def execSchedule (link : Link) : List (Attempt (List Wire)) :=
  [{ now := 0, wire := [⟨0, link⟩], later := 0, jitter := 0 }, answeredAttempt]

/-- The interpreter that knows the empty object. -/
def objectInterpreter : Interpreter := .ascii [("{}", .dict [])]

/-- A command is started a second time after its first request was lost on a pooled connection:
sending it failed with `EHOSTUNREACH`. -/
theorem exec_replayed :
    ¬ Lawful (syncNodeError objectInterpreter) execCall.req
      (requestJsonResponse objectInterpreter execCall
        (execSchedule (.reused (.sendFailed { kind := .other, errno := some 113 } 0)))).2 := by
  intro h
  have hmutating : Mutating execCall.req.method := by decide +kernel
  have hlost : ∃ t ∈ (requestJsonResponse objectInterpreter execCall
      (execSchedule (.reused (.sendFailed { kind := .other, errno := some 113 } 0)))).2.dropLast,
      t.ending.isLost = true := List.any_eq_true.mp (by decide +kernel)
  obtain ⟨t, ht, hending⟩ := hlost
  have hrepeatable := h.repeats hmutating t ht
  cases hcases : t.ending with
  | lost =>
      rw [hcases] at hrepeatable
      exact hrepeatable
  | _ => simp [hcases, Ending.isLost] at hending

/-- Refused once, the command is started with one more request. -/
theorem never_replayed_refused :
    Lawful (syncNodeError objectInterpreter) execCall.req
      (requestJsonResponse objectInterpreter execCall
        (execSchedule (.refused { kind := .other, errno := some 111 }))).2 ∧
    (requestJsonResponse objectInterpreter execCall
        (execSchedule (.refused { kind := .other, errno := some 111 }))).2.length = 2 := by
  refine ⟨((never_replayed objectInterpreter execCall).1 _).2 fun a ha w hmade => ?_,
    by decide +kernel⟩
  have hw : w ∈ a.wire := mem_of_passesMade hmade
  rcases List.mem_pair.mp (mem_of_attemptsMade ha) with rfl | rfl
  · obtain rfl := List.mem_singleton.mp hw
    refine ⟨fun _ exchange h => ?_, fun exchange h => ?_⟩ <;> cases h
  · obtain rfl := List.mem_singleton.mp hw
    refine ⟨fun _ exchange h exc hexc => ?_, fun exchange h => ?_⟩
    · cases h
      cases hexc
    · cases h

end UcloudSandboxes.Client
