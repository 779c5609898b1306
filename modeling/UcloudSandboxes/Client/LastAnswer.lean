import UcloudSandboxes.Client.Attempts

/-!
# The last answer of a call that runs out of time

A loop asks twice whether time remains: before it sleeps, where it wraps the answer it has, and at
the head of the next attempt, where it raises a `TimeoutError`. When the sleep overshoots the
deadline, the second check fails and the answer is lost. A failure to connect that leaves no time
for its delay is reported in place of an earlier answer as well.

## Main results

* `RetryLoop.keepsLastAnswer_iff`: the runs of any of the loops that keep the last answer.
* `last_answer_kept_iff`: the three loops.
-/
namespace UcloudSandboxes.Client
open Python Http

/-- The error carries the status, the headers and the body of the answer. -/
def Carries (decode : Response → Except Raised ApiError) (r : Response) (e : ApiError) : Prop :=
  e.statusCode = some r.status ∧ e.headers = responseHeaders r.headers ∧
    ∃ answer, decode r = .ok answer ∧ e.body = answer.body

namespace RetryLoop
variable {ω α : Type} (L : RetryLoop ω α)

/-- There is no time for the delay. -/
def TooLate (a : Attempt ω) (delay : ℚ) : Prop :=
  sleepForRetry delay L.call.deadline a.later = false

/-- The call ends with this attempt because its deadline leaves no time for another one. -/
def TimesOut (n : ℕ) (a : Attempt ω) : Prop :=
  match L.kind a with
  | .late => True
  | .answered r => ∃ e delay, L.decode r = .ok e ∧ L.TooLate a delay ∧
      retryError L.py e n L.call.req.method L.call.req.path L.call.maxAttempts a.jitter =
        .ok (some delay)
  | .connectFailed _ =>
      ∃ delay, connectionRetryDelay n L.call.maxAttempts = some delay ∧ L.TooLate a delay
  | .other => False

/-- A call that ends because of its deadline raises the last response that it received. -/
def KeepsLastAnswer (schedule : List (Attempt ω)) : Prop :=
  ∀ init a, L.made schedule = init ++ [a] → L.TimesOut init.length a →
    ∀ r, (responses (L.run schedule).2).getLast? = some r →
      ∃ e, (L.run schedule).1 = .raised (.api e) ∧ Carries L.decode r e

/-- Once an attempt was answered, no later one begins behind the deadline, or fails to connect
without time for the delay. -/
def InTimeOnceAnswered (schedule : List (Attempt ω)) : Prop :=
  ∀ init a rest, L.made schedule = init ++ a :: rest → (∃ b ∈ init, ∃ r, L.kind b = .answered r) →
    match L.kind a with
    | .late => False
    | .connectFailed _ =>
        ∀ delay, connectionRetryDelay init.length L.call.maxAttempts = some delay →
          ¬ L.TooLate a delay
    | _ => True

section
variable {L} {schedule init : List (Attempt ω)} {a : Attempt ω}

/-- Something was received exactly when an attempt was answered. -/
theorem exists_answered_iff {tail : List Response} :
    (∃ r, ((init.filterMap fun b => (L.kind b).answer) ++ tail).getLast? = some r) ↔
      (∃ b ∈ init, ∃ r, L.kind b = .answered r) ∨ tail ≠ [] := by
  rw [← Option.isSome_iff_exists, Option.isSome_iff_ne_none, ne_eq, List.getLast?_eq_none_iff,
    List.append_eq_nil_iff, List.filterMap_eq_nil_iff, not_and_or]
  refine or_congr_left ?_
  constructor
  · intro h
    push Not at h
    obtain ⟨b, hb, hanswer⟩ := h
    refine ⟨b, hb, ?_⟩
    cases hkind : L.kind b with
    | answered r => exact ⟨r, rfl⟩
    | _ => simp [hkind, AttemptKind.answer] at hanswer
  · rintro ⟨b, hb, r, hkind⟩ hnone
    have hb := hnone b hb
    simp [hkind, AttemptKind.answer] at hb

/-- An answered attempt that runs out of time keeps its answer. -/
theorem TimesOut.answered {r : Response} (hmade : L.made schedule = init ++ [a])
    (hkind : L.kind a = .answered r) (h : L.TimesOut init.length a) :
    (responses (L.run schedule).2).getLast? = some r ∧
      ∃ e, (L.run schedule).1 = .raised (.api e) ∧ Carries L.decode r e := by
  simp only [TimesOut, hkind] at h
  obtain ⟨e, delay, hdecode, hlate, hretry⟩ := h
  obtain ⟨hbody, hresponses⟩ := L.answered init.length a r hkind
  have hstop : (L.body init.length a).1 =
      .stop (.raised (.api (retryBudgetExhausted e (init.length + 1)))) := by
    rw [hbody]
    simp [afterError, hdecode, hretry,
      show sleepForRetry delay L.call.deadline a.later = false from hlate]
  obtain ⟨houtcome, hreceived⟩ := L.run_ends hmade hstop
  rw [hreceived, hresponses]
  refine ⟨by simp, _, houtcome, ?_⟩
  obtain ⟨hstatus, hheaders⟩ := L.decoded a r e hkind hdecode
  exact ⟨hstatus, hheaders, e, hdecode, rfl⟩

/-- An attempt behind the deadline, or one that fails to connect without time for its delay, raises
no answer, and has received none. -/
theorem TimesOut.unanswered (hkind : ∀ r, L.kind a ≠ .answered r)
    (h : L.TimesOut init.length a) :
    ∃ exc, (L.body init.length a).1 = .stop (.raised exc) ∧
      (∀ e, exc = .api e → e.statusCode = none) ∧ responses (L.body init.length a).2 = [] := by
  cases hcase : L.kind a with
  | late =>
      obtain ⟨exc, hstop, hexc, hsent⟩ := L.late init.length a hcase
      exact ⟨exc, hstop, hexc, by rw [hsent]; rfl⟩
  | answered r => exact absurd hcase (hkind r)
  | connectFailed cause =>
      simp only [TimesOut, hcase] at h
      obtain ⟨delay, hdelay, hlate⟩ := h
      obtain ⟨hbody, hresponses⟩ := L.connectFailed init.length a cause hcase
      refine ⟨.api (connectionError cause (init.length + 1)), ?_, fun e he => ?_, hresponses⟩
      · rw [hbody]
        simp [afterConnectFailure, hdelay,
          show sleepForRetry delay L.call.deadline a.later = false from hlate]
      · cases he
        rfl
  | other => simp [TimesOut, hcase] at h

end

/-- **The last answer of a loop.** A run that ends because of its deadline raises the last response
exactly when everything behind the first answer is in time. -/
theorem keepsLastAnswer_iff (schedule : List (Attempt ω)) :
    L.KeepsLastAnswer schedule ↔ L.InTimeOnceAnswered schedule := by
  constructor
  · intro hkeeps init a rest hmade hanswered
    -- The attempt would be the last one, and raise something else.
    have hlast : L.TimesOut init.length a → (∀ r, L.kind a ≠ .answered r) → False := by
      intro htimes hkind
      obtain ⟨exc, hstop, hexc, hresponses⟩ := htimes.unanswered hkind
      have hrest : rest = [] := by
        by_contra hne
        have hagain := attemptsMade_again hmade hne
        rw [Nat.zero_add, hstop] at hagain
        cases hagain
      subst hrest
      obtain ⟨houtcome, hreceived⟩ := L.run_ends hmade hstop
      obtain ⟨r, hr⟩ := exists_answered_iff.mpr (.inl hanswered)
      obtain ⟨e, he, hstatus, _⟩ :=
        hkeeps init a hmade htimes r (by rw [hreceived, hresponses]; exact hr)
      rw [houtcome] at he
      have hnone := hexc e (by simpa using he)
      rw [hstatus] at hnone
      cases hnone
    cases hkind : L.kind a with
    | late => exact hlast (by simp [TimesOut, hkind]) (by simp [hkind])
    | connectFailed cause =>
        intro delay hdelay hlate
        exact hlast (by simp only [TimesOut, hkind]; exact ⟨delay, hdelay, hlate⟩) (by simp [hkind])
    | answered r => trivial
    | other => trivial
  · intro hintime init a hmade htimes r hr
    by_cases hkind : ∃ r', L.kind a = .answered r'
    · obtain ⟨r', hkind⟩ := hkind
      obtain ⟨hlast, hcarries⟩ := htimes.answered hmade hkind
      rw [hlast] at hr
      cases hr
      exact hcarries
    · have hkind : ∀ r', L.kind a ≠ .answered r' := fun r' h => hkind ⟨r', h⟩
      obtain ⟨exc, hstop, _, hresponses⟩ := htimes.unanswered hkind
      rw [(L.run_ends hmade hstop).2, hresponses] at hr
      have hanswered := (exists_answered_iff.mp ⟨r, hr⟩).resolve_right (by simp)
      have htime := hintime init a [] hmade hanswered
      cases hcase : L.kind a with
      | late => simp [hcase] at htime
      | answered r' => exact absurd hcase (hkind r')
      | connectFailed cause =>
          simp only [hcase] at htime
          simp only [TimesOut, hcase] at htimes
          obtain ⟨delay, hdelay, hlate⟩ := htimes
          exact absurd hlate (htime delay hdelay)
      | other => simp [TimesOut, hcase] at htimes

end RetryLoop

/-- **The last answer.** On all three paths, a call that ends because of its deadline raises the
last response that it received exactly when everything behind its first answer is in time. -/
theorem last_answer_kept_iff (py : Interpreter) (call : Call) :
    (∀ schedule, (jsonLoop py call).KeepsLastAnswer schedule ↔
      (jsonLoop py call).InTimeOnceAnswered schedule) ∧
    (∀ schedule, (bytesLoop py call).KeepsLastAnswer schedule ↔
      (bytesLoop py call).InTimeOnceAnswered schedule) ∧
    (∀ successLimit schedule, (sendLoop py successLimit call).KeepsLastAnswer schedule ↔
      (sendLoop py successLimit call).InTimeOnceAnswered schedule) :=
  ⟨(jsonLoop py call).keepsLastAnswer_iff, (bytesLoop py call).keepsLastAnswer_iff,
    fun successLimit => (sendLoop py successLimit call).keepsLastAnswer_iff⟩

/-- The attempt goes on. -/
def Next.goesOn {α : Type} : Next α → Bool
  | .again => true
  | .stop _ => false

theorem Next.goesOn_iff {α : Type} {next : Next α} : next.goesOn = true ↔ next = .again := by
  cases next <;> simp [Next.goesOn]

/-- A retried answer, and a sleep that overshoots the deadline. -/
theorem RetryLoop.overshoot_loses {ω α : Type} (L : RetryLoop ω α) {a b : Attempt ω}
    (hopen : attemptLoop.exhausted L.call.maxAttempts 0 = false ∧
      attemptLoop.exhausted L.call.maxAttempts 1 = false)
    (ha : (L.body 0 a).1.goesOn = true) {r : Response} (hanswered : L.kind a = .answered r)
    (hlate : L.kind b = .late) : ¬ L.KeepsLastAnswer [a, b] := by
  rw [L.keepsLastAnswer_iff]
  intro htime
  have hmade : L.made [a, b] = [a] ++ b :: [] := by
    simp only [RetryLoop.made, attemptsMade, hopen.1, hopen.2, Next.goesOn_iff.mp ha,
      Bool.false_eq_true, if_false, Nat.zero_add]
    cases (L.body 1 b).1 <;> rfl
  have hlost := htime [a] b [] hmade ⟨a, by simp, r, hanswered⟩
  simp [hlate] at hlost

/-- The text of an answer that may be retried, and an interpreter that knows it. -/
def retryableText : String := "\x7b\"retryable\": true\x7d"

def retryableInterpreter : Interpreter :=
  .ascii [(retryableText, .dict [("retryable", .bool true)])]

def retryableResponse : Response :=
  ⟨503, [], {
    length := some retryableText.length, chunks := [retryableText.toUTF8.toList]
    ending := .complete }⟩

/-- The answer arrives after 29 of the 30 seconds of a call, and the sleep of a quarter of a second
takes two. -/
def overshootAttempts {ω : Type} (answered : ω) (unused : ω) : List (Attempt ω) :=
  [{ now := 0, wire := answered, later := 29, jitter := 0 },
    { now := 31, wire := unused, later := 31, jitter := 0 }]

/-- None of the three loops raises the answer. -/
theorem last_answer_lost :
    ¬ (jsonLoop retryableInterpreter (Call.within statusRequest 30 0)).KeepsLastAnswer
      (overshootAttempts [⟨0, .fresh (.answered retryableResponse 0)⟩] []) ∧
    ¬ (bytesLoop retryableInterpreter (Call.within statusRequest 30 0)).KeepsLastAnswer
      (overshootAttempts [⟨0, .fresh (.answered retryableResponse 0)⟩] []) ∧
    ¬ (sendLoop retryableInterpreter maxJsonResponseBytes
        (Call.within statusRequest 30 0)).KeepsLastAnswer
      (overshootAttempts (.answered 0 retryableResponse) (.answered 31 retryableResponse)) := by
  have hopen : requiredRemainingSeconds (some (deadlineFor 30 0)) 0 = .ok (some 30) := by
    norm_num [requiredRemainingSeconds, remainingSeconds, deadlineFor]
  have hpassed : ∃ exc, requiredRemainingSeconds (some (deadlineFor 30 0)) 31 = .error exc := by
    norm_num [requiredRemainingSeconds, remainingSeconds, deadlineFor]
  obtain ⟨exc, hpassed⟩ := hpassed
  refine ⟨RetryLoop.overshoot_loses (r := retryableResponse) _ (by decide +kernel)
    (by decide +kernel) ?_ ?_, RetryLoop.overshoot_loses (r := retryableResponse) _
    (by decide +kernel) (by decide +kernel) ?_ ?_, RetryLoop.overshoot_loses
    (r := retryableResponse) _ (by decide +kernel) (by decide +kernel) ?_ ?_⟩
  · simp only [jsonLoop, syncLoop, syncKind, Call.within, hopen]
    rfl
  · simp only [jsonLoop, syncLoop, syncKind, Call.within, hpassed]
  · simp only [bytesLoop, syncLoop, syncKind, Call.within, hopen]
    rfl
  · simp only [bytesLoop, syncLoop, syncKind, Call.within, hpassed]
  · simp only [sendLoop, sendKind, Call.within, hopen]
    rfl
  · simp only [sendLoop, sendKind, Call.within, hpassed]

end UcloudSandboxes.Client
