import UcloudSandboxes.Client.LastAnswer

/-!
# The budget for failures to connect

`_connection_retry_delay` allows four failures to connect and gives up on the fifth. What it is told
is the index of the attempt, which counts the answers that were retried as well: behind four of
them, the first failure to connect ends the call, and the error reports five attempts.

## Main results

* `RetryLoop.countsFailures_iff`: the runs of any of the loops whose failures are counted rightly.
* `failures_counted_iff`: the three loops.
-/
namespace UcloudSandboxes.Client
open Python Http

/-- The attempt fails to connect. -/
def AttemptKind.failed : AttemptKind → Bool
  | .connectFailed _ => true
  | _ => false

theorem connectionError_injective {cause : OsError} {m n : ℕ}
    (h : connectionError cause m = connectionError cause n) : m = n := by
  have hbody := congrArg ApiError.body h
  simp only [connectionError, Json.dict.injEq, List.cons.injEq, Prod.mk.injEq, Json.int.injEq,
    Nat.cast_inj, and_true, true_and] at hbody
  exact hbody

/-- A call without a limit of its own, or with the six attempts of the others, allows the same
failures to connect. -/
theorem connectionRetryDelay_call (call : Call) (n : ℕ) :
    connectionRetryDelay n call.maxAttempts =
      if 5 ≤ n + 1 then none else some (min 2 (1 / 4 * 2 ^ n)) := by
  have hattempts : call.maxAttempts = none ∨ call.maxAttempts = some 6 := by
    simp only [Call.maxAttempts, ucloudUnavailableAttempts, ucloudUnavailableRetryAttempts]
    grind
  rcases hattempts with hmost | hmost
  · rw [hmost]
    rfl
  · rw [hmost]
    rfl

namespace RetryLoop
variable {ω α : Type} (L : RetryLoop ω α)

/-- The failures to connect among these attempts. -/
def failures (attempts : List (Attempt ω)) : ℕ := attempts.countP fun a => (L.kind a).failed

/-- There is time for the delay that the given number of failures to connect is followed by. -/
def TimeRemains (failures : ℕ) (a : Attempt ω) : Prop :=
  sleepForRetry (min 2 (1 / 4 * 2 ^ (failures - 1))) L.call.deadline a.later = true

/-- A call that gives up on a failure to connect reports how many there were, and as long as time
remains there were at least five. -/
def CountsFailures (schedule : List (Attempt ω)) : Prop :=
  ∀ init a cause exc, L.made schedule = init ++ [a] → L.kind a = .connectFailed cause →
    (L.run schedule).1 = .raised exc →
    exc = .api (connectionError cause (L.failures (init ++ [a]))) ∧
      (L.TimeRemains (L.failures (init ++ [a])) a → 5 ≤ L.failures (init ++ [a]))

/-- The attempt is the fifth one, or there is no time for its delay. -/
def GivesUp (n : ℕ) (a : Attempt ω) : Prop :=
  5 ≤ n + 1 ∨ L.TooLate a (min 2 (1 / 4 * 2 ^ n))

/-- No answer was retried before the failure to connect that a call gives up on. -/
def UnansweredBefore (schedule : List (Attempt ω)) : Prop :=
  ∀ init a cause, L.made schedule = init ++ [a] → L.kind a = .connectFailed cause →
    L.GivesUp init.length a → ∀ b ∈ init, ∀ r, L.kind b ≠ .answered r

section
variable {L} {schedule init : List (Attempt ω)} {a : Attempt ω}

/-- Where a failure to connect is given up on, the error reports the index of the attempt. -/
theorem stop_of_givesUp {cause : OsError} (hkind : L.kind a = .connectFailed cause)
    (h : L.GivesUp init.length a) :
    (L.body init.length a).1 =
      .stop (.raised (.api (connectionError cause (init.length + 1)))) := by
  rw [(L.connectFailed _ a cause hkind).1]
  simp only [afterConnectFailure, connectionRetryDelay_call]
  by_cases hfifth : 5 ≤ init.length + 1
  · simp [hfifth]
  · have hlate : sleepForRetry (min 2 (1 / 4 * 2 ^ init.length)) L.call.deadline a.later = false :=
      h.resolve_left hfifth
    simp only [hfifth, if_false, hlate, Bool.false_eq_true]

/-- Otherwise the attempt goes on. -/
theorem again_of_not_givesUp {cause : OsError} (hkind : L.kind a = .connectFailed cause)
    (h : ¬ L.GivesUp init.length a) : (L.body init.length a).1 = .again := by
  simp only [GivesUp, TooLate, not_or, Bool.not_eq_false] at h
  rw [(L.connectFailed _ a cause hkind).1]
  simp only [afterConnectFailure, connectionRetryDelay_call, h.1, h.2, if_false, if_true]

/-- A schedule that ends with an attempt that goes on leaves the call running. -/
theorem run_of_again {attempt : ℕ} {maxAttempts : Option ℕ}
    {body : ℕ → Attempt ω → Next α × List Transmission} {schedule init : List (Attempt ω)}
    (h : attemptsMade maxAttempts body attempt schedule = init ++ [a])
    (hagain : (body (attempt + init.length) a).1 = .again) (exc : Raised) :
    (attemptLoop maxAttempts body attempt schedule).1 ≠ .raised exc := by
  induction schedule generalizing attempt init with
  | nil => simp [attemptsMade] at h
  | cons b later ih =>
      simp only [attemptsMade] at h
      simp only [attemptLoop]
      split at h
      · simp at h
      · rename_i hopen
        rw [if_neg hopen]
        cases hb : body attempt b with
        | mk next sent =>
            simp only [hb] at h ⊢
            cases next with
            | stop stopped =>
                cases init with
                | nil =>
                    simp only [List.nil_append, List.cons.injEq, and_true] at h
                    subst h
                    simp [hb] at hagain
                | cons c init => simp at h
            | again =>
                cases init with
                | nil =>
                    simp only [List.nil_append, List.cons.injEq] at h
                    cases later with
                    | nil =>
                        simp only [attemptLoop]
                        split <;> simp
                    | cons c later =>
                        obtain ⟨-, h⟩ := h
                        simp only [attemptsMade] at h
                        simp only [attemptLoop]
                        split at h
                        · rename_i hexhausted
                          simp [hexhausted]
                        · split at h <;> cases h
                | cons c init =>
                    simp only [List.cons_append, List.cons.injEq] at h
                    refine ih h.2 ?_
                    rw [List.length_cons] at hagain
                    rwa [Nat.add_assoc, Nat.add_comm 1]

/-- Each attempt before the last one is answered or fails to connect. -/
theorem failures_init (h : L.made schedule = init ++ [a]) :
    L.failures init = init.length ↔ ∀ b ∈ init, ∀ r, L.kind b ≠ .answered r := by
  rw [failures, List.countP_eq_length]
  refine forall₂_congr fun b hb => ?_
  obtain ⟨n, hagain⟩ := attemptsMade_init h hb
  rcases L.kind_of_again hagain with ⟨r, hkind⟩ | ⟨cause, hkind⟩
  · simp [hkind, AttemptKind.failed]
  · simp [hkind, AttemptKind.failed]

theorem failures_snoc {cause : OsError} (hkind : L.kind a = .connectFailed cause) :
    L.failures (init ++ [a]) = L.failures init + 1 := by
  simp [failures, hkind, AttemptKind.failed]

end

/-- **The failures of a loop.** A run counts its failures to connect rightly exactly when no answer
was retried before the one it gives up on. -/
theorem countsFailures_iff (schedule : List (Attempt ω)) :
    L.CountsFailures schedule ↔ L.UnansweredBefore schedule := by
  constructor
  · intro hcounts init a cause hmade hkind hgives
    obtain ⟨houtcome, _⟩ := L.run_ends hmade (stop_of_givesUp hkind hgives)
    obtain ⟨hexc, _⟩ := hcounts init a cause _ hmade hkind houtcome
    have hindex := connectionError_injective (Raised.api.inj hexc)
    rw [failures_snoc hkind] at hindex
    exact (failures_init hmade).mp (by omega)
  · intro hunanswered init a cause exc hmade hkind hraised
    have hgives : L.GivesUp init.length a := by
      by_contra hnot
      have hagain := again_of_not_givesUp hkind hnot
      refine run_of_again hmade ?_ exc hraised
      rwa [Nat.zero_add]
    obtain ⟨houtcome, _⟩ := L.run_ends hmade (stop_of_givesUp hkind hgives)
    have hfailures : L.failures (init ++ [a]) = init.length + 1 := by
      rw [failures_snoc hkind,
        (failures_init hmade).mpr (hunanswered init a cause hmade hkind hgives)]
    rw [hraised] at houtcome
    rw [hfailures]
    refine ⟨by simpa using houtcome, fun htime => ?_⟩
    by_contra hfifth
    have hlate := hgives.resolve_left hfifth
    simp only [TimeRemains, Nat.add_sub_cancel] at htime
    rw [show sleepForRetry (min 2 (1 / 4 * 2 ^ init.length)) L.call.deadline a.later = false from
      hlate] at htime
    cases htime

end RetryLoop

/-- **Failures to connect.** In all three loops, a call reports how many failures to connect it had,
and gives up before the fifth only for lack of time, exactly when no answer was retried before the
failure that it gives up on. -/
theorem failures_counted_iff (py : Interpreter) (call : Call) :
    (∀ schedule, (jsonLoop py call).CountsFailures schedule ↔
      (jsonLoop py call).UnansweredBefore schedule) ∧
    (∀ schedule, (bytesLoop py call).CountsFailures schedule ↔
      (bytesLoop py call).UnansweredBefore schedule) ∧
    (∀ successLimit schedule, (sendLoop py successLimit call).CountsFailures schedule ↔
      (sendLoop py successLimit call).UnansweredBefore schedule) :=
  ⟨(jsonLoop py call).countsFailures_iff, (bytesLoop py call).countsFailures_iff,
    fun successLimit => (sendLoop py successLimit call).countsFailures_iff⟩

/-- Four retried answers, and a failure to connect. -/
theorem RetryLoop.late_failure_miscounted {ω α : Type} (L : RetryLoop ω α) {a : ℕ → Attempt ω}
    {b : Attempt ω} (hopen : ∀ n < 5, attemptLoop.exhausted L.call.maxAttempts n = false)
    (hagain : ∀ n < 4, (L.body n (a n)).1.goesOn = true) {r : Response}
    (hanswered : L.kind (a 0) = .answered r) {e : OsError}
    (hfailed : L.kind b = .connectFailed e) :
    ¬ L.CountsFailures [a 0, a 1, a 2, a 3, b] := by
  rw [L.countsFailures_iff]
  intro hunanswered
  have hmade : L.made [a 0, a 1, a 2, a 3, b] = [a 0, a 1, a 2, a 3] ++ [b] := by
    simp only [RetryLoop.made, attemptsMade, hopen 0 (by omega), hopen 1 (by omega),
      hopen 2 (by omega), hopen 3 (by omega), hopen 4 (by omega),
      Next.goesOn_iff.mp (hagain 0 (by omega)), Next.goesOn_iff.mp (hagain 1 (by omega)),
      Next.goesOn_iff.mp (hagain 2 (by omega)), Next.goesOn_iff.mp (hagain 3 (by omega)),
      Bool.false_eq_true, if_false, Nat.zero_add, Nat.reduceAdd]
    cases (L.body 4 b).1 <;> rfl
  exact hunanswered _ b e hmade hfailed (.inl (by simp)) (a 0) (by simp) r hanswered

/-- One attempt every five seconds. -/
def everyFiveSeconds {ω : Type} (wire : ω) (n : ℕ) : Attempt ω where
  now := 5 * n
  wire
  later := 5 * n
  jitter := 0

/-- Four answers that may be retried, and a refused connection with ten seconds left. -/
def refusedLate {ω : Type} (answered refused : ω) : List (Attempt ω) :=
  [everyFiveSeconds answered 0, everyFiveSeconds answered 1, everyFiveSeconds answered 2,
    everyFiveSeconds answered 3, everyFiveSeconds refused 4]

/-- The first failure to connect is taken for the fifth. -/
theorem failure_miscounted :
    ¬ (jsonLoop retryableInterpreter (Call.within statusRequest 30 0)).CountsFailures
      (refusedLate [⟨0, .fresh (.answered retryableResponse 0)⟩]
        [⟨0, .refused { kind := .other, errno := some 111 }⟩]) ∧
    ¬ (sendLoop retryableInterpreter maxJsonResponseBytes
        (Call.within statusRequest 30 0)).CountsFailures
      (refusedLate (.answered 0 retryableResponse)
        (.unconnected 0 false { kind := .other, errno := some 111 })) := by
  have hfirst :
      requiredRemainingSeconds (some (deadlineFor 30 0)) (5 * (0 : ℕ)) = .ok (some 30) := by
    norm_num [requiredRemainingSeconds, remainingSeconds, deadlineFor]
  have hlast :
      requiredRemainingSeconds (some (deadlineFor 30 0)) (5 * (4 : ℕ)) = .ok (some 10) := by
    norm_num [requiredRemainingSeconds, remainingSeconds, deadlineFor]
  refine ⟨RetryLoop.late_failure_miscounted (r := retryableResponse)
    (e := { kind := .other, errno := some 111 }) _ (by decide +kernel) (by decide +kernel) ?_ ?_,
    RetryLoop.late_failure_miscounted (r := retryableResponse)
    (e := { kind := .other, errno := some 111 }) _ (by decide +kernel) (by decide +kernel) ?_ ?_⟩
  · simp only [jsonLoop, syncLoop, syncKind, everyFiveSeconds, Call.within, hfirst]
    rfl
  · simp only [jsonLoop, syncLoop, syncKind, everyFiveSeconds, Call.within, hlast]
    rfl
  · simp only [sendLoop, sendKind, everyFiveSeconds, Call.within, hfirst]
    rfl
  · simp only [sendLoop, sendKind, everyFiveSeconds, Call.within, hlast]
    rfl

end UcloudSandboxes.Client
