import UcloudSandboxes.Client.ImageAnswers

/-!
# One request for images in both clients

The sync loop wraps an `OSError` in a `SandboxApiError`, so that the wait goes on. `_send` catches
only the failure to connect. A connection that fails later ends the async wait.

## Main results

* `attempt_ends`: what one attempt leads to in both clients.
* `request_alike_iff`: the requests with the same result in both clients.
-/
namespace UcloudSandboxes.Client
open Python Http

/-- At this attempt both clients see the same. -/
def EnsureRequest.Fair (py : Interpreter) (q : EnsureRequest) (a : Attempt Exchanged) : Prop :=
  q.call.OpenAt a.now → ¬ a.wire.Lost py ∧ ¬ a.wire.Garbled py

/-- What one attempt leads to. If it stops only one of the loops, it is the async one, because the
connection was lost. -/
inductive AttemptEnds (py : Interpreter) (q : EnsureRequest) (a : Attempt Exchanged)
    (next : Next (Dict × Headers)) (next' : Next (Bytes × ℤ × Headers)) : Prop
  | again (sync : next = .again) (async : next' = .again) (fair : q.Fair py a)
  | lost (o : Outcome (Bytes × ℤ × Headers)) (async : next' = .stop o)
      (intime : q.call.OpenAt a.now) (lost : a.wire.Lost py) (e : CallError)
      (result : concluded (asyncCause (a.on Exchanged.asyncWire)) (asyncDecoded py o) = .error e)
      (final : e.transient = false)
  | stop (o : Outcome (Dict × Headers)) (o' : Outcome (Bytes × ℤ × Headers)) (sync : next = .stop o)
      (async : next' = .stop o') (notLost : q.call.OpenAt a.now → ¬ a.wire.Lost py)
      (alike : SameResult (concluded (syncCause py q.call (a.on Exchanged.wires)) o)
          (concluded (asyncCause (a.on Exchanged.asyncWire)) (asyncDecoded py o')) ↔ q.Fair py a)

section Attempts
variable {py : Interpreter} {q : EnsureRequest} {attempt : ℕ} {a : Attempt Exchanged}

theorem late_ends {exc : Raised}
    (h : requiredRemainingSeconds q.call.deadline a.now = .error exc) :
    AttemptEnds py q a (syncAttempt py jsonReader q.call attempt (a.on Exchanged.wires)).1
      (asyncAttempt py maxJsonResponseBytes q.call attempt (a.on Exchanged.asyncWire)).1 := by
  obtain ⟨⟨deadline, hdeadline, hle⟩, e, rfl⟩ := requiredRemaining_error h
  have hclosed : ¬ q.call.OpenAt a.now := fun hopen =>
    absurd (hopen deadline hdeadline) (not_lt.mpr hle)
  refine .stop (.raised (.os e)) (.raised (.os e)) ?_ ?_ (fun hopen => absurd hopen hclosed) ?_
  · simp [syncAttempt, Attempt.on, h, jsonReader]
  · simp [asyncAttempt, Attempt.on, h]
  · exact iff_of_true rfl fun hopen => absurd hopen hclosed

/-- The connection is refused: both loops count the attempts alike. -/
theorem refused_ends {remaining : Option ℚ} {start : ℚ} {e : OsError}
    {connect : connectErrno e = true}
    (h : requiredRemainingSeconds q.call.deadline a.now = .ok remaining)
    (hwire : a.wire = .refused start e connect) :
    AttemptEnds py q a (syncAttempt py jsonReader q.call attempt (a.on Exchanged.wires)).1
      (asyncAttempt py maxJsonResponseBytes q.call attempt (a.on Exchanged.asyncWire)).1 := by
  have hfair : q.Fair py a := by
    intro _
    rw [hwire]
    exact ⟨id, id⟩
  have hsync : (syncAttempt py jsonReader q.call attempt (a.on Exchanged.wires)).1 =
      afterConnectFailure q.call attempt (a.on Exchanged.wires) e := by
    simp only [syncAttempt, Attempt.on, h, hwire, Exchanged.wires, openReusing, afterRaised,
      syncConnectFailure, connect, if_true]
  have hasync : (asyncAttempt py maxJsonResponseBytes q.call attempt
      (a.on Exchanged.asyncWire)).1 =
        afterConnectFailure q.call attempt (a.on Exchanged.asyncWire) e := by
    simp only [asyncAttempt, Attempt.on, h, hwire, Exchanged.asyncWire, Bool.false_eq_true,
      if_false]
  have hcause : syncCause py q.call (a.on Exchanged.wires) = true := by
    simp only [syncCause, Attempt.on, h, hwire, Exchanged.wires, openReusing, Raised.isOsError]
  have hcause' : asyncCause (a.on Exchanged.asyncWire) = true := by
    simp only [asyncCause, Attempt.on, hwire, Exchanged.asyncWire, Bool.not_false]
  rw [hsync, hasync]
  have hstop : ∀ next next', next = .stop (.raised (.api (connectionError e (attempt + 1)))) →
      next' = .stop (.raised (.api (connectionError e (attempt + 1)))) →
        AttemptEnds py q a next next' := by
    intro next next' hnext hnext'
    refine .stop _ _ hnext hnext' (fun hopen => (hfair hopen).1) (iff_of_true ?_ hfair)
    rw [hcause, hcause']
    rfl
  simp only [afterConnectFailure]
  cases connectionRetryDelay attempt q.call.maxAttempts with
  | none => exact hstop _ _ rfl rfl
  | some delay =>
      by_cases hsleep : sleepForRetry delay q.call.deadline a.later = true
      · exact .again (if_pos hsleep) (if_pos hsleep) hfair
      · exact hstop _ _ (if_neg hsleep) (if_neg hsleep)

/-- The connection is lost: the async loop raises what `aiohttp` does. -/
theorem lost_ends {remaining : Option ℚ} {start : ℚ} {reused : Bool} {loss : Loss}
    (h : requiredRemainingSeconds q.call.deadline a.now = .ok remaining)
    (hwire : a.wire = .lost start reused loss) (next : Next (Dict × Headers)) :
    AttemptEnds py q a next
      (asyncAttempt py maxJsonResponseBytes q.call attempt (a.on Exchanged.asyncWire)).1 := by
  refine .lost (.raised loss.asyncError) ?_ (requiredRemaining_ok h) ?_
    { raised := loss.asyncError, osCause := false } ?_ ?_
  · simp only [asyncAttempt, Attempt.on, h, hwire, Exchanged.asyncWire]
  · rw [hwire]
    trivial
  · simp only [asyncCause, Attempt.on, hwire, Exchanged.asyncWire, asyncDecoded, concluded]
  · cases loss <;> rfl

/-- An answer that is no success. -/
theorem error_ends {remaining : Option ℚ} {x : Delivery} {framed : Framed x.response.body}
    (h : requiredRemainingSeconds q.call.deadline a.now = .ok remaining)
    (hwire : a.wire = .answered x framed) (hstatus : isSuccess x.response.status = false) :
    AttemptEnds py q a (syncAttempt py jsonReader q.call attempt (a.on Exchanged.wires)).1
      (asyncAttempt py maxJsonResponseBytes q.call attempt (a.on Exchanged.asyncWire)).1 := by
  have hsync : (syncAttempt py jsonReader q.call attempt (a.on Exchanged.wires)).1 =
      afterError py q.call attempt (a.on Exchanged.wires) (syncNodeError py x.response) := by
    simp [syncAttempt, Attempt.on, h, hwire, Exchanged.wires, openReusing_answer, hstatus]
  have hasync : (asyncAttempt py maxJsonResponseBytes q.call attempt
      (a.on Exchanged.asyncWire)).1 =
        afterError py q.call attempt (a.on Exchanged.wires) (asyncNodeError py x.response) := by
    simp only [asyncAttempt, Attempt.on, h, hwire, Exchanged.asyncWire, Delivery.asyncWire,
      hstatus, Bool.false_eq_true, if_false]
    rfl
  have hcause : asyncCause (a.on Exchanged.asyncWire) = false := by
    simp only [asyncCause, Attempt.on, hwire, Exchanged.asyncWire, Delivery.asyncWire]
  by_cases hdetermined : Determined py x.response maxJsonResponseBytes
  · have hlost : ¬ a.wire.Lost py := by
      rw [hwire]
      rintro ⟨hending, hwithin⟩
      exact hdetermined.elim hending fun hbeyond => hbeyond hwithin
    have hfair : q.Fair py a := by
      intro _
      refine ⟨hlost, fun hgarbled => ?_⟩
      rw [hwire] at hgarbled
      have hsuccess := hgarbled.1
      rw [hstatus] at hsuccess
      cases hsuccess
    obtain ⟨exit, hexit, hnext⟩ :=
      @afterError_exit py x.response _ q.call attempt (a.on Exchanged.wires) hstatus
    rw [hsync, hasync, ← nodeError_determined framed hdetermined, hnext, hnext]
    cases exit with
    | none => exact .again rfl rfl hfair
    | some exc =>
        refine .stop _ _ rfl rfl (fun _ => hlost) (iff_of_true ?_ hfair)
        exact transient_congr (hexit exc rfl) _ _
  · rw [Determined, not_or, not_not] at hdetermined
    obtain ⟨hending, hwithin⟩ := hdetermined
    obtain ⟨exc, hread, hkind⟩ := readAsyncResponse_breaks framed hending hwithin
    have hnode : asyncNodeError py x.response = .error exc := by
      simp only [asyncNodeError, hread]
      rcases hkind with ⟨e, rfl⟩ | ⟨cls, text, rfl⟩ <;> rfl
    refine .lost (.raised exc) ?_ (requiredRemaining_ok h) ?_
      { raised := exc, osCause := false } ?_ ?_
    · rw [hasync, hnode]
      rfl
    · rw [hwire]
      exact ⟨hending, hwithin⟩
    · rw [hcause]
      rfl
    · rcases hkind with ⟨e, rfl⟩ | ⟨cls, text, rfl⟩ <;> rfl

/-- A success whose body breaks off. -/
theorem broken_success_ends {remaining : Option ℚ} {x : Delivery} {framed : Framed x.response.body}
    (h : requiredRemainingSeconds q.call.deadline a.now = .ok remaining)
    (hwire : a.wire = .answered x framed) (hstatus : isSuccess x.response.status = true)
    (hending : x.response.body.ending ≠ .complete)
    (hwithin : WithinLimit py x.response maxJsonResponseBytes) (next : Next (Dict × Headers)) :
    AttemptEnds py q a next
      (asyncAttempt py maxJsonResponseBytes q.call attempt (a.on Exchanged.asyncWire)).1 := by
  obtain ⟨exc, hread, hkind⟩ := readAsyncResponse_breaks framed hending hwithin
  have hasync : asyncRead py maxJsonResponseBytes x.response = .error exc := by
    simp only [asyncRead, hread]
    rcases hkind with ⟨e, rfl⟩ | ⟨cls, text, rfl⟩ <;> rfl
  refine .lost (.raised exc) ?_ (requiredRemaining_ok h) ?_
    { raised := exc, osCause := false } ?_ ?_
  · simp only [asyncAttempt, Attempt.on, h, hwire, Exchanged.asyncWire, Delivery.asyncWire,
      hstatus, if_true, hasync]
  · rw [hwire]
    exact ⟨hending, hwithin⟩
  · simp only [asyncCause, Attempt.on, hwire, Exchanged.asyncWire, Delivery.asyncWire,
      asyncDecoded, concluded]
  · rcases hkind with ⟨e, rfl⟩ | ⟨cls, text, rfl⟩ <;> rfl

/-- What both loops do with a success. -/
structure SuccessAttempt (py : Interpreter) (q : EnsureRequest) (attempt : ℕ)
    (a : Attempt Exchanged) (r : Response) : Prop where
  sync : (syncAttempt py jsonReader q.call attempt (a.on Exchanged.wires)).1 =
    match jsonReader.read py r with
    | .ok v => .stop (.returned v)
    | .error exc => afterRaised q.call attempt (a.on Exchanged.wires) exc
  async : (asyncAttempt py maxJsonResponseBytes q.call attempt (a.on Exchanged.asyncWire)).1 =
    match asyncRead py maxJsonResponseBytes r with
    | .ok v => .stop (.returned v)
    | .error exc => .stop (.raised exc)
  cause : syncCause py q.call (a.on Exchanged.wires) =
    match jsonReader.read py r with
    | .ok _ => false
    | .error exc => exc.isOsError
  asyncCause : asyncCause (a.on Exchanged.asyncWire) = false

theorem success_attempt {remaining : Option ℚ} {x : Delivery} {framed : Framed x.response.body}
    (h : requiredRemainingSeconds q.call.deadline a.now = .ok remaining)
    (hwire : a.wire = .answered x framed) (hstatus : isSuccess x.response.status = true) :
    SuccessAttempt py q attempt a x.response := by
  constructor
  · cases hread : jsonReader.read py x.response <;>
      simp [syncAttempt, Attempt.on, h, hwire, Exchanged.wires, openReusing_answer, hstatus, hread]
  · cases hread : asyncRead py maxJsonResponseBytes x.response <;>
      simp [asyncAttempt, Attempt.on, h, hwire, Exchanged.asyncWire, Delivery.asyncWire, hstatus,
        hread]
  · cases hread : jsonReader.read py x.response <;>
      simp [syncCause, Attempt.on, h, hwire, Exchanged.wires, openReusing_answer, hstatus, hread]
  · simp only [Client.asyncCause, Attempt.on, hwire, Exchanged.asyncWire, Delivery.asyncWire]

/-- Too long a success is refused by both. -/
theorem beyond_ends {r : Response} (H : SuccessAttempt py q attempt a r)
    (hstatus : isSuccess r.status = true)
    (hraw : readSyncResponse py r maxJsonResponseBytes =
      .error (.tooLarge (tooLargeText maxJsonResponseBytes)))
    (hraw' : readAsyncResponse py r maxJsonResponseBytes =
      .error (.tooLarge (tooLargeText maxJsonResponseBytes)))
    (hlost : ¬ a.wire.Lost py) (hfair : q.Fair py a) :
    AttemptEnds py q a (syncAttempt py jsonReader q.call attempt (a.on Exchanged.wires)).1
      (asyncAttempt py maxJsonResponseBytes q.call attempt (a.on Exchanged.asyncWire)).1 := by
  have hread : jsonReader.read py r = .error (.tooLarge (tooLargeText maxJsonResponseBytes)) := by
    simp only [jsonReader, hraw, bind, Except.bind]
  have hsync := H.sync
  have hcause := H.cause
  have hasync := H.async
  rw [hread] at hsync hcause
  simp only [asyncRead, hraw'] at hasync
  refine .stop _ _ hsync hasync (fun _ => hlost) (iff_of_true ?_ hfair)
  rw [hcause, H.asyncCause]
  exact (transient_of_status hstatus rfl false).symm

/-- A success that is no UTF-8 is alike unless it is an object once its bytes are replaced. -/
theorem undecodable_ends {r : Response} {raw : Bytes} (H : SuccessAttempt py q attempt a r)
    (hstatus : isSuccess r.status = true)
    (hraw : readSyncResponse py r maxJsonResponseBytes = .ok raw)
    (hraw' : readAsyncResponse py r maxJsonResponseBytes = .ok raw) (hutf8 : py.utf8 raw = none)
    (hlost : ¬ a.wire.Lost py)
    (hfair : q.Fair py a ↔ ¬ ∃ d, decodeNodeJson py (py.utf8Replace raw) r.status
      (responseHeaders r.headers) = .ok d) :
    AttemptEnds py q a (syncAttempt py jsonReader q.call attempt (a.on Exchanged.wires)).1
      (asyncAttempt py maxJsonResponseBytes q.call attempt (a.on Exchanged.asyncWire)).1 := by
  have hread : jsonReader.read py r =
      .error (.builtin .valueError "'utf-8' codec can't decode") := by
    simp only [jsonReader, hraw, hutf8, bind, Except.bind]
  have hsync := H.sync
  have hcause := H.cause
  have hasync := H.async
  rw [hread] at hsync hcause
  simp only [asyncRead, hraw'] at hasync
  refine .stop _ _ hsync hasync (fun _ => hlost) ?_
  rw [hfair, hcause, H.asyncCause]
  simp only [asyncDecoded]
  cases hdecode : decodeNodeJson py (py.utf8Replace raw) r.status (responseHeaders r.headers) with
  | ok d => exact iff_of_false id (not_not.mpr ⟨d, rfl⟩)
  | error exc =>
      refine iff_of_true (decodeNodeJson_final hstatus hdecode).2.symm ?_
      rintro ⟨d, hd⟩
      cases hd

/-- A success in UTF-8 is decoded alike. -/
theorem decoded_ends {r : Response} {raw : Bytes} {text : String}
    (H : SuccessAttempt py q attempt a r) (hstatus : isSuccess r.status = true)
    (hraw : readSyncResponse py r maxJsonResponseBytes = .ok raw)
    (hraw' : readAsyncResponse py r maxJsonResponseBytes = .ok raw)
    (hutf8 : py.utf8 raw = some text) (hreplace : py.utf8Replace raw = text)
    (hlost : ¬ a.wire.Lost py) (hfair : q.Fair py a) :
    AttemptEnds py q a (syncAttempt py jsonReader q.call attempt (a.on Exchanged.wires)).1
      (asyncAttempt py maxJsonResponseBytes q.call attempt (a.on Exchanged.asyncWire)).1 := by
  have hread : jsonReader.read py r =
      (decodeNodeJson py text r.status (responseHeaders r.headers)).map
        fun answer => (answer, responseHeaders r.headers) := by
    simp only [jsonReader, hraw, hutf8, bind, Except.bind]
    rfl
  have hsync := H.sync
  have hcause := H.cause
  have hasync := H.async
  simp only [asyncRead, hraw'] at hasync
  cases hdecode : decodeNodeJson py text r.status (responseHeaders r.headers) with
  | ok d =>
      rw [hread, hdecode] at hsync
      refine .stop _ _ hsync hasync (fun _ => hlost) (iff_of_true ?_ hfair)
      simp only [asyncDecoded, hreplace, hdecode]
      rfl
  | error exc =>
      rw [hread, hdecode] at hsync hcause
      have hfinal := (decodeNodeJson_final hstatus hdecode).1
      have hraised : afterRaised (α := Dict × Headers) q.call attempt
          (a.on Exchanged.wires) exc = .stop (.raised exc) := by
        rcases decode_error hdecode with ⟨e, rfl⟩ | ⟨cls, message, -, rfl⟩ <;> rfl
      refine .stop (.raised exc) _ (hsync.trans hraised) hasync (fun _ => hlost)
        (iff_of_true ?_ hfair)
      simp only [asyncDecoded, hreplace, hdecode, hcause, H.asyncCause, Except.map, hfinal]
      rfl

/-- A success whose end is known. -/
theorem success_ends (hpy : ReplaceExtends py) {remaining : Option ℚ} {x : Delivery}
    {framed : Framed x.response.body}
    (h : requiredRemainingSeconds q.call.deadline a.now = .ok remaining)
    (hwire : a.wire = .answered x framed) (hstatus : isSuccess x.response.status = true)
    (hdetermined : Determined py x.response maxJsonResponseBytes) :
    AttemptEnds py q a (syncAttempt py jsonReader q.call attempt (a.on Exchanged.wires)).1
      (asyncAttempt py maxJsonResponseBytes q.call attempt (a.on Exchanged.asyncWire)).1 := by
  have hopen : q.call.OpenAt a.now := requiredRemaining_ok h
  have hlost : ¬ a.wire.Lost py := by
    rw [hwire]
    rintro ⟨hending, hwithin⟩
    exact hdetermined.elim hending fun hbeyond => hbeyond hwithin
  have hfair : q.Fair py a ↔ ¬ a.wire.Garbled py :=
    ⟨fun hfair => (hfair hopen).2, fun hgarbled _ => ⟨hlost, hgarbled⟩⟩
  rw [hwire] at hfair
  have H : SuccessAttempt py q attempt a x.response := success_attempt h hwire hstatus
  have hraw := readSyncResponse_determined framed hdetermined
  have hraw' := readAsyncResponse_determined framed hdetermined
  by_cases hwithin : WithinLimit py x.response maxJsonResponseBytes
  case neg =>
    rw [readWhole_of_not_within hwithin] at hraw hraw'
    exact beyond_ends H hstatus hraw hraw' hlost
      (hfair.mpr fun hgarbled => hwithin hgarbled.2.2.1)
  case pos =>
    have hending : x.response.body.ending = .complete :=
      hdetermined.resolve_right fun hbeyond => hbeyond hwithin
    rw [show readWhole py x.response maxJsonResponseBytes = .ok x.response.body.delivered
      from hwithin] at hraw hraw'
    cases hutf8 : py.utf8 x.response.body.delivered with
    | none =>
        refine undecodable_ends H hstatus hraw hraw' hutf8 hlost (hfair.trans (not_congr ?_))
        exact ⟨fun hgarbled => hgarbled.2.2.2.2,
          fun hobject => ⟨hstatus, hending, hwithin, hutf8, hobject⟩⟩
    | some text =>
        refine decoded_ends H hstatus hraw hraw' hutf8 (hpy _ _ hutf8) hlost (hfair.mpr ?_)
        rintro ⟨-, -, -, hnone, -⟩
        rw [hutf8] at hnone
        cases hnone

/-- One attempt of both loops. -/
theorem attempt_ends (hpy : ReplaceExtends py) (q : EnsureRequest) (attempt : ℕ)
    (a : Attempt Exchanged) :
    AttemptEnds py q a (syncAttempt py jsonReader q.call attempt (a.on Exchanged.wires)).1
      (asyncAttempt py maxJsonResponseBytes q.call attempt (a.on Exchanged.asyncWire)).1 := by
  cases hremaining : requiredRemainingSeconds q.call.deadline a.now with
  | error exc => exact late_ends hremaining
  | ok remaining =>
      cases hwire : a.wire with
      | refused start e connect => exact refused_ends hremaining hwire
      | lost start reused loss => exact lost_ends hremaining hwire _
      | answered x framed =>
          cases hstatus : isSuccess x.response.status with
          | false => exact error_ends hremaining hwire hstatus
          | true =>
              by_cases hdetermined : Determined py x.response maxJsonResponseBytes
              · exact success_ends hpy hremaining hwire hstatus hdetermined
              · rw [Determined, not_or, not_not] at hdetermined
                exact broken_success_ends hremaining hwire hstatus hdetermined.1 hdetermined.2 _

end Attempts

/-- The wait goes on behind this result. -/
def GoesOn (result : Except CallError Dict) : Prop := ∀ e, result = .error e → e.transient = true

/-- Both clients make the same of the request, and no lost connection makes them raise. -/
structure EnsureRequest.Alike (py : Interpreter) (q : EnsureRequest) : Prop where
  result : SameResult (q.syncResult py) (q.asyncResult py)
  losses : ∀ a ∈ q.made py, q.call.OpenAt a.now → a.wire.Lost py →
    GoesOn (q.syncResult py) ∧ GoesOn (q.asyncResult py)

/-- Both loops, from some attempt on. -/
theorem attempts_alike {py : Interpreter} (hpy : ReplaceExtends py) (q : EnsureRequest)
    (attempt : ℕ) (schedule : List (Attempt Exchanged)) :
    (SameResult (q.syncFrom py attempt schedule) (q.asyncFrom py attempt schedule) ∧
        ∀ a ∈ q.madeFrom py attempt schedule, q.call.OpenAt a.now → a.wire.Lost py →
          GoesOn (q.asyncFrom py attempt schedule)) ↔
      ∀ a ∈ q.madeFrom py attempt schedule, q.Fair py a := by
  induction schedule generalizing attempt with
  | nil =>
      refine iff_of_true ⟨?_, ?_⟩ ?_
      · simp only [EnsureRequest.syncFrom, EnsureRequest.asyncFrom, List.map_nil, attemptLoop]
        by_cases hexhausted : attemptLoop.exhausted q.call.maxAttempts attempt = true
        · rw [if_pos hexhausted, if_pos hexhausted]
          rfl
        · rw [if_neg hexhausted, if_neg hexhausted]
          rfl
      · intro a ha
        cases ha
      · intro a ha
        cases ha
  | cons a rest ih =>
      have hrest := ih (attempt + 1)
      simp only [EnsureRequest.syncFrom, EnsureRequest.asyncFrom, EnsureRequest.madeFrom,
        List.map_cons, attemptLoop, lastAttempt, attemptsMade] at hrest ⊢
      by_cases hexhausted : attemptLoop.exhausted q.call.maxAttempts attempt = true
      · simp only [hexhausted, if_true, List.not_mem_nil, false_implies, implies_true, and_true,
          iff_true]
        rfl
      · simp only [hexhausted, Bool.false_eq_true, if_false]
        have hends := attempt_ends hpy q attempt a
        generalize syncAttempt py jsonReader q.call attempt (a.on Exchanged.wires) = s at hends ⊢
        generalize asyncAttempt py maxJsonResponseBytes q.call attempt
          (a.on Exchanged.asyncWire) = t at hends ⊢
        obtain ⟨next, sent⟩ := s
        obtain ⟨next', sent'⟩ := t
        cases hends with
        | again hsync hasync hfair =>
            obtain rfl : next = .again := hsync
            obtain rfl : next' = .again := hasync
            simp only [List.forall_mem_cons]
            constructor
            · rintro ⟨hsame, -, hlosses⟩
              exact ⟨hfair, hrest.mp ⟨hsame, hlosses⟩⟩
            · rintro ⟨-, hall⟩
              obtain ⟨hsame, hlosses⟩ := hrest.mpr hall
              exact ⟨hsame, fun hopen hlost => absurd hlost (hfair hopen).1, hlosses⟩
        | lost o hasync hintime hlost e hresult hfinal =>
            obtain rfl : next' = .stop o := hasync
            have hmade : ∀ made : List (Attempt Exchanged), a ∈ made → ¬ ∀ b ∈ made, q.Fair py b :=
              fun made ha hall => (hall a ha hintime).1 hlost
            have hraises : ∀ made : List (Attempt Exchanged), a ∈ made →
                ¬ ∀ b ∈ made, q.call.OpenAt b.now → b.wire.Lost py → GoesOn (concluded
                  (asyncCause (a.on Exchanged.asyncWire)) (asyncDecoded py o)) := by
              intro made ha hlosses
              have htransient := hlosses a ha hintime hlost e hresult
              rw [hfinal] at htransient
              cases htransient
            cases next with
            | again =>
                exact iff_of_false (fun h => hraises _ List.mem_cons_self h.2)
                  (hmade _ List.mem_cons_self)
            | stop o =>
                exact iff_of_false (fun h => hraises _ List.mem_cons_self h.2)
                  (hmade _ List.mem_cons_self)
        | stop o o' hsync hasync hnotLost halike =>
            obtain rfl : next = .stop o := hsync
            obtain rfl : next' = .stop o' := hasync
            simp only [List.forall_mem_cons, List.not_mem_nil, false_implies, implies_true,
              and_true]
            constructor
            · rintro ⟨hsame, -⟩
              exact halike.mp hsame
            · intro hfair
              exact ⟨halike.mpr hfair, fun hopen hlost => absurd hlost (hnotLost hopen)⟩

theorem request_alike_iff {py : Interpreter} (hpy : ReplaceExtends py) (q : EnsureRequest) :
    q.Alike py ↔ ∀ a ∈ q.made py, q.Fair py a := by
  have hloops := attempts_alike hpy q 0 q.schedule
  constructor
  · intro halike
    exact hloops.mp ⟨halike.result, fun a ha hopen hlost => (halike.losses a ha hopen hlost).2⟩
  · intro hfair
    refine ⟨(hloops.mpr hfair).1, fun a ha hopen hlost => ?_⟩
    exact absurd hlost (hfair a ha hopen).1

end UcloudSandboxes.Client
