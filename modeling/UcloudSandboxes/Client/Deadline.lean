import Mathlib.Algebra.Order.Ring.Rat
import Mathlib.Tactic.Linarith
import Mathlib.Tactic.Positivity
import UcloudSandboxes.Client.Replay

/-!
# One deadline for all attempts

A call fixes its deadline once, and every attempt takes its timeout from the time that then remains.
`open_reusing` does not know the deadline: when it sends a request again, it does so with the
timeout of the pass that failed. `Sleep` makes the pauses of a loop visible, next to its
transmissions.

## Main results

* `syncAttempt_again_iff`: an attempt is followed by another exactly when there is time for its
  delay.
* `passes_eq`: the transmissions of an attempt are its passes through `open_reusing`.
* `deadline_kept_iff`: the runs of both sync loops.
-/
namespace UcloudSandboxes.Client
open Python Http

/-- `_deadline`, for a timeout. -/
def deadlineFor (timeout begun : ℚ) : ℚ := begun + max 0 timeout

/-- A call with a timeout whose deadline is fixed when the clock shows `begun`. -/
def Call.within (req : HttpRequest) (timeout begun : ℚ) : Call where
  req
  timeout
  deadline := some (deadlineFor timeout begun)

/-- A pause before the next attempt. -/
structure Sleep where
  start : ℚ
  delay : ℚ
  deriving DecidableEq

section Delays
variable {ω : Type} (py : Interpreter) (call : Call) (attempt : ℕ) (a : Attempt ω)

/-- The delay after an answer that is no success. -/
def errorDelay (e : Except Raised ApiError) : Option ℚ :=
  match e with
  | .error _ => none
  | .ok e =>
      match retryError py e attempt call.req.method call.req.path call.maxAttempts a.jitter with
      | .ok delay => delay
      | .error _ => none

/-- The delay after an exception of a sync loop. -/
def raisedDelay (exc : Raised) : Option ℚ :=
  if syncConnectFailure exc then connectionRetryDelay attempt call.maxAttempts else none

end Delays

/-- The delay of one attempt of a sync loop, if there is one. -/
def syncDelay {α : Type} (py : Interpreter) (reader : Reader α) (call : Call) (attempt : ℕ)
    (a : Attempt (List Wire)) : Option ℚ :=
  match requiredRemainingSeconds call.deadline a.now with
  | .error _ => none
  | .ok remaining =>
      match (openReusing call.req (requestTimeoutSeconds remaining call.timeout) 0 a.wire).1 with
      | none => none
      | some (.error exc) => raisedDelay call attempt exc
      | some (.ok r) =>
          if isSuccess r.status then
            match reader.read py r with
            | .ok _ => none
            | .error exc => raisedDelay call attempt exc
          else errorDelay py call attempt a (syncNodeError py r)

/-- The delay of one attempt of `_send`, if there is one. -/
def asyncDelay (py : Interpreter) (call : Call) (attempt : ℕ) (a : Attempt AsyncWire) : Option ℚ :=
  match requiredRemainingSeconds call.deadline a.now with
  | .error _ => none
  | .ok _ =>
      match a.wire with
      | .unconnected _ certificate _ =>
          if certificate then none else connectionRetryDelay attempt call.maxAttempts
      | .lost _ _ => none
      | .answered _ r =>
          if isSuccess r.status then none
          else errorDelay py call attempt a (asyncNodeError py r)

section Loop
variable {ω α : Type} (maxAttempts : Option ℕ) (body : ℕ → Attempt ω → Next α × List Transmission)

/-- The sleeps of a loop: one after each attempt that is followed by another. -/
def loopSleeps (delay : ℕ → Attempt ω → Option ℚ) : ℕ → List (Attempt ω) → List Sleep
  | _, [] => []
  | attempt, a :: rest =>
      if attemptLoop.exhausted maxAttempts attempt then []
      else match (body attempt a).1, delay attempt a with
        | .again, some delayed => ⟨a.later, delayed⟩ :: loopSleeps delay (attempt + 1) rest
        | _, _ => []

end Loop

/-- The sleeps of a sync loop. -/
def syncSleeps {α : Type} (py : Interpreter) (reader : Reader α) (call : Call)
    (schedule : List (Attempt (List Wire))) : List Sleep :=
  loopSleeps call.maxAttempts (syncAttempt py reader call) (syncDelay py reader call) 0 schedule

/-- The sleeps of `_send`. -/
def asyncSleeps (py : Interpreter) (successLimit : ℕ) (call : Call)
    (schedule : List (Attempt AsyncWire)) : List Sleep :=
  loopSleeps call.maxAttempts (asyncAttempt py successLimit call) (asyncDelay py call) 0 schedule

section Again
variable {ω α : Type} {py : Interpreter} {call : Call} {attempt : ℕ}

/-- There is a delay, and time for it. -/
def Pauses (call : Call) (a : Attempt ω) (delay : Option ℚ) : Prop :=
  ∃ delayed, delay = some delayed ∧ sleepForRetry delayed call.deadline a.later = true

theorem afterError_again_iff (a : Attempt ω) (e : Except Raised ApiError) :
    afterError (α := α) py call attempt a e = .again ↔
      Pauses call a (errorDelay py call attempt a e) := by
  simp only [afterError, errorDelay, Pauses]
  grind

theorem afterConnectFailure_again_iff (a : Attempt ω) (cause : OsError) :
    afterConnectFailure (α := α) call attempt a cause = .again ↔
      Pauses call a (connectionRetryDelay attempt call.maxAttempts) := by
  simp only [afterConnectFailure, Pauses]
  grind

theorem afterRaised_again_iff (a : Attempt ω) (exc : Raised) :
    afterRaised (α := α) call attempt a exc = .again ↔
      Pauses call a (raisedDelay call attempt exc) := by
  simp only [raisedDelay]
  cases exc with
  | url cause =>
      by_cases h : syncConnectFailure (.url cause) = true
      · simpa [afterRaised, h] using afterConnectFailure_again_iff a cause
      · simp [afterRaised, h, Pauses]
  | _ => simp [afterRaised, syncConnectFailure, Pauses]

/-- An attempt of a sync loop is followed by another exactly when there is time for its delay. -/
theorem syncAttempt_again_iff (reader : Reader α) (a : Attempt (List Wire)) :
    (syncAttempt py reader call attempt a).1 = .again ↔
      Pauses call a (syncDelay py reader call attempt a) := by
  simp only [syncAttempt, syncDelay]
  cases hremaining : requiredRemainingSeconds call.deadline a.now with
  | error exc =>
      have hexc : raisedDelay call attempt exc = none := by
        simp only [requiredRemainingSeconds] at hremaining
        grind [raisedDelay, syncConnectFailure]
      have hraised := @afterRaised_again_iff _ α call attempt a exc
      rw [hexc] at hraised
      by_cases h : reader.checksInside = true
      · simpa [h] using hraised
      · simp [h, Pauses]
  | ok remaining =>
      simp only
      cases (openReusing call.req (requestTimeoutSeconds remaining call.timeout) 0 a.wire).1 with
      | none => simp [Pauses]
      | some result =>
          cases result with
          | error exc => exact afterRaised_again_iff a exc
          | ok r =>
              by_cases h : isSuccess r.status = true
              · simp only [h, if_true]
                cases reader.read py r with
                | ok v => simp [Pauses]
                | error exc => exact afterRaised_again_iff a exc
              · simp only [h]
                exact afterError_again_iff a _

end Again

section Nonneg
variable {ω : Type} {py : Interpreter} {call : Call} {attempt : ℕ}

theorem connectionRetryDelay_nonneg {maxAttempts : Option ℕ} {delay : ℚ}
    (h : connectionRetryDelay attempt maxAttempts = some delay) : 0 ≤ delay := by
  unfold connectionRetryDelay at h
  simp only at h
  split_ifs at h
  cases h
  positivity

theorem retryAfterSeconds_nonneg {headers : Headers} {delay : ℚ}
    (h : retryAfterSeconds py headers = some delay) : 0 ≤ delay := by
  simp only [retryAfterSeconds] at h
  split at h
  · cases h
  · split at h
    · rename_i f _
      cases h
      cases f <;> simp [PyFloat.clamp]
    · obtain ⟨d, _, rfl⟩ := Option.map_eq_some_iff.mp h
      exact le_max_left 0 _

theorem ucloudUnavailableRetryDelay_nonneg (headers : Headers) (method path : String) {jitter : ℚ}
    (hjitter : 0 ≤ jitter) :
    0 ≤ ucloudUnavailableRetryDelay py attempt headers method path jitter := by
  unfold ucloudUnavailableRetryDelay
  simp only
  split
  · rename_i retryAfter h
    have := retryAfterSeconds_nonneg h
    positivity
  · split <;> positivity

theorem errorDelay_nonneg {a : Attempt ω} (hjitter : 0 ≤ a.jitter) {e : Except Raised ApiError}
    {delay : ℚ} (h : errorDelay py call attempt a e = some delay) : 0 ≤ delay := by
  simp only [errorDelay] at h
  split at h
  · cases h
  · rename_i e
    split at h
    · rename_i hretry
      subst h
      simp only [retryError] at hretry
      split at hretry
      · cases hretry
      · obtain ⟨retries, _, hretry⟩ := bind_eq_ok hretry
        split at hretry
        · cases hretry
          exact ucloudUnavailableRetryDelay_nonneg _ _ _ hjitter
        · cases hretry
    · cases h

theorem raisedDelay_nonneg {exc : Raised} {delay : ℚ}
    (h : raisedDelay call attempt exc = some delay) : 0 ≤ delay := by
  simp only [raisedDelay] at h
  split at h
  · exact connectionRetryDelay_nonneg h
  · cases h

theorem syncDelay_nonneg {α : Type} {reader : Reader α} {a : Attempt (List Wire)}
    (hjitter : 0 ≤ a.jitter) {delay : ℚ}
    (h : syncDelay py reader call attempt a = some delay) : 0 ≤ delay := by
  simp only [syncDelay] at h
  split at h
  · cases h
  · split at h
    · cases h
    · exact raisedDelay_nonneg h
    · split at h
      · split at h
        · cases h
        · exact raisedDelay_nonneg h
      · exact errorDelay_nonneg hjitter h

end Nonneg

/-- The deadline of the call, if it has one, has not passed. -/
def Call.OpenAt (call : Call) (now : ℚ) : Prop :=
  ∀ deadline, call.deadline = some deadline → now < deadline

/-- No time remains only behind the deadline, and then `TimeoutError` is raised. -/
theorem requiredRemaining_error {deadline : Option ℚ} {now : ℚ} {exc : Raised}
    (h : requiredRemainingSeconds deadline now = .error exc) :
    (∃ d, deadline = some d ∧ d ≤ now) ∧ ∃ e, exc = .os e := by
  cases deadline with
  | none => cases h
  | some d =>
      simp only [requiredRemainingSeconds, remainingSeconds, Option.map_some] at h
      split_ifs at h with hle
      cases h
      exact ⟨⟨d, rfl, by simpa using hle⟩, _, rfl⟩

theorem requiredRemaining_ok {deadline remaining : Option ℚ} {now : ℚ}
    (h : requiredRemainingSeconds deadline now = .ok remaining) :
    ∀ d, deadline = some d → now < d := by
  rintro d rfl
  simp only [requiredRemainingSeconds, remainingSeconds, Option.map_some] at h
  split_ifs at h with hle
  simpa using hle

/-- A pause that is not negative ends before the deadline. -/
theorem Pauses.inTime {ω : Type} {call : Call} {a : Attempt ω} {delay : Option ℚ}
    {delayed deadline : ℚ}
    (h : Pauses call a delay) (hdelay : delay = some delayed) (hnonneg : 0 ≤ delayed)
    (hdeadline : call.deadline = some deadline) : a.later + delayed < deadline := by
  obtain ⟨d, hd, htime⟩ := h
  rw [hdelay] at hd
  cases hd
  simp only [sleepForRetry, remainingSeconds, hdeadline, Option.map_some, decide_eq_true_eq,
    lt_max_iff] at htime
  rcases htime with hneg | htime
  · linarith
  · linarith

/-- No sleep of a loop extends past the deadline. -/
theorem loopSleeps_inTime {ω α : Type} {call : Call} {deadline : ℚ}
    (hdeadline : call.deadline = some deadline)
    {body : ℕ → Attempt ω → Next α × List Transmission} {delay : ℕ → Attempt ω → Option ℚ}
    (hbody : ∀ n a, (body n a).1 = .again → Pauses call a (delay n a))
    {attempt : ℕ} {schedule : List (Attempt ω)}
    (hnonneg : ∀ n, ∀ a ∈ schedule, ∀ delayed, delay n a = some delayed → 0 ≤ delayed) :
    ∀ s ∈ loopSleeps call.maxAttempts body delay attempt schedule, s.start + s.delay < deadline := by
  induction schedule generalizing attempt with
  | nil => simp [loopSleeps]
  | cons a rest ih =>
      simp only [loopSleeps]
      split
      · simp
      · split
        · rename_i delayed hagain hdelay
          intro s hs
          rcases List.mem_cons.mp hs with rfl | hs
          · exact (hbody attempt a hagain).inTime hdelay
              (hnonneg attempt a (by simp) delayed hdelay) hdeadline
          · exact ih (fun n b hb => hnonneg n b (by simp [hb])) s hs
        · simp

/-- Each pass is a transmission with the timeout of the attempt. -/
theorem passes_eq (req : HttpRequest) (timeout : ℚ) (position : ℕ) (ws : List Wire) :
    (openReusing req timeout position ws).2.map (fun t => (t.start, t.timeout)) =
      (passes req ws).map fun w => (w.start, timeout) := by
  induction ws generalizing position with
  | nil => rfl
  | cons w ws ih =>
      simp only [openReusing, passes]
      split
      · rename_i hlink
        simp [hlink]
      · rename_i hlink
        simp [hlink]
      · rename_i exchange hlink
        simp only [hlink]
        split
        · simp only [List.map_cons, ih]
        · rfl

/-- Something holds of the readings of all transmissions of an attempt exactly when it holds of
those of its passes. -/
theorem openReusing_forall_iff {req : HttpRequest} {timeout : ℚ} {position : ℕ} {ws : List Wire}
    {P : ℚ → ℚ → Prop} :
    (∀ t ∈ (openReusing req timeout position ws).2, P t.start t.timeout) ↔
      ∀ w ∈ passes req ws, P w.start timeout := by
  have hleft := List.forall_mem_map (f := fun t : Transmission => (t.start, t.timeout))
    (l := (openReusing req timeout position ws).2) (P := fun p => P p.1 p.2)
  rw [passes_eq, List.forall_mem_map] at hleft
  exact hleft.symm

theorem mem_of_mem_passes {req : HttpRequest} {ws : List Wire} {w : Wire} (h : w ∈ passes req ws) :
    w ∈ ws := by
  induction ws with
  | nil => cases h
  | cons v ws ih =>
      simp only [passes] at h
      split at h
      · split at h
        · rcases List.mem_cons.mp h with rfl | h
          · simp
          · exact List.mem_cons_of_mem _ (ih h)
        · simpa using Or.inl (List.mem_singleton.mp h)
      · simpa using Or.inl (List.mem_singleton.mp h)

/-- A step that goes on only if `q` holds, and that stops with an outcome in `P` exactly if
it does. -/
def Next.Decides {α : Type} (P : Outcome α → Prop) (q : Prop) : Next α → Prop
  | .again => q
  | .stop outcome => P outcome ↔ q

/-- **The rule for the end of a loop.** If each attempt decides whether it is good, a loop ends well
exactly when every attempt that it makes is good. -/
theorem attemptLoop_outcome_iff {ω α : Type} {maxAttempts : Option ℕ}
    {body : ℕ → Attempt ω → Next α × List Transmission} {P : Outcome α → Prop} {Q : Attempt ω → Prop}
    (hrunning : P .running) (hbody : ∀ n a, (body n a).1.Decides P (Q a))
    (hmore : ∀ n a most, maxAttempts = some most → (body n a).1 = .again → n + 1 < most)
    {attempt : ℕ} (hstart : ∀ most, maxAttempts = some most → attempt < most)
    (schedule : List (Attempt ω)) :
    P (attemptLoop maxAttempts body attempt schedule).1 ↔
      ∀ a ∈ attemptsMade maxAttempts body attempt schedule, Q a := by
  induction schedule generalizing attempt with
  | nil => simpa [attemptLoop, attemptsMade, exhausted_eq_false hstart] using hrunning
  | cons a rest ih =>
      have hgood := hbody attempt a
      have hlater := hmore attempt a
      simp only [attemptLoop, attemptsMade, exhausted_eq_false hstart, Bool.false_eq_true, if_false]
      generalize body attempt a = turn at hgood hlater ⊢
      obtain ⟨next, sent⟩ := turn
      cases next with
      | stop outcome => simpa [Next.Decides] using hgood
      | again =>
          have hrest := ih fun most hmost => hlater most hmost rfl
          have hgood : Q a := hgood
          simp only [hrest, List.forall_mem_cons, hgood, true_and]

/-- **The rule for every transmission.** Something holds of all transmissions of a loop exactly when
it holds of those of every attempt the loop makes. -/
theorem attemptLoop_forall_iff {ω α : Type} {maxAttempts : Option ℕ}
    {body : ℕ → Attempt ω → Next α × List Transmission} {P : Transmission → Prop}
    {Q : Attempt ω → Prop} {attempt : ℕ} {schedule : List (Attempt ω)}
    (hbody : ∀ n, ∀ a ∈ schedule, (∀ t ∈ (body n a).2, P t) ↔ Q a) :
    (∀ t ∈ (attemptLoop maxAttempts body attempt schedule).2, P t) ↔
      ∀ a ∈ attemptsMade maxAttempts body attempt schedule, Q a := by
  induction schedule generalizing attempt with
  | nil =>
      simp only [attemptLoop, attemptsMade]
      split <;> simp
  | cons a rest ih =>
      have ha := hbody attempt a (by simp)
      have hrest := @ih (attempt + 1) fun n b hb => hbody n b (by simp [hb])
      simp only [attemptLoop, attemptsMade]
      split
      · simp
      · cases hnext : body attempt a with
        | mk next sent =>
            rw [hnext] at ha
            cases next with
            | stop outcome => simpa using ha
            | again =>
                simp only [List.mem_append, or_imp, forall_and, List.forall_mem_cons, ha, hrest]

/-- Something starts before the deadline, with a timeout no larger than the time that remains then,
or a millisecond. -/
def InTime (deadline start timeout : ℚ) : Prop :=
  start < deadline ∧ timeout ≤ max (1 / 1000) (deadline - start)

instance (deadline start timeout : ℚ) : Decidable (InTime deadline start timeout) :=
  inferInstanceAs (Decidable (_ ∧ _))

/-- What a call with a deadline promises of its transmissions and its sleeps. -/
def KeepsDeadline (deadline : ℚ) (sent : List Transmission) (sleeps : List Sleep) : Prop :=
  (∀ t ∈ sent, InTime deadline t.start t.timeout) ∧ ∀ s ∈ sleeps, s.start + s.delay ≤ deadline

instance (deadline : ℚ) (sent : List Transmission) (sleeps : List Sleep) :
    Decidable (KeepsDeadline deadline sent sleeps) := inferInstanceAs (Decidable (_ ∧ _))

/-- The readings of a schedule: the clock does not go back behind the start of the call nor behind
the reading an attempt takes its timeout from, and `random.random()` is not negative. The first pass
of an attempt starts at the reading its timeout was taken from: what passes between the two is left
out. -/
structure Timed (begun : ℚ) (schedule : List (Attempt (List Wire))) : Prop where
  begun_le : ∀ a ∈ schedule, begun ≤ a.now
  first : ∀ a ∈ schedule, ∀ w ws, a.wire = w :: ws → w.start = a.now
  now_le : ∀ a ∈ schedule, ∀ w ∈ a.wire, a.now ≤ w.start
  jitter : ∀ a ∈ schedule, 0 ≤ a.jitter

/-- Each pass after the first starts before the deadline, and at the reading the timeout of the
attempt was taken from, unless no more than a millisecond was left then. -/
def ResendsInTime (req : HttpRequest) (deadline : ℚ) (a : Attempt (List Wire)) : Prop :=
  a.now < deadline → ∀ w ∈ (passes req a.wire).tail,
    w.start < deadline ∧ (w.start = a.now ∨ deadline ≤ a.now + 1 / 1000)

/-- The timeout of an attempt is what remains of the call, or a millisecond. -/
theorem requestTimeoutSeconds_eq {timeout begun now : ℚ} (h : begun ≤ now) :
    requestTimeoutSeconds (some (max 0 (deadlineFor timeout begun - now))) timeout =
      max (1 / 1000) (deadlineFor timeout begun - now) := by
  simp only [requestTimeoutSeconds, deadlineFor]
  grind

/-- With the timeout of an attempt, something is in time when it starts with the attempt, or when
the timeout is the least there is. -/
theorem inTime_iff {deadline now start : ℚ} (hstart : now ≤ start) :
    InTime deadline start (max (1 / 1000) (deadline - now)) ↔
      start < deadline ∧ (start = now ∨ deadline ≤ now + 1 / 1000) := by
  simp only [InTime]
  rw [max_le_iff]
  refine and_congr_right fun _ => ?_
  constructor
  · intro h
    rcases le_max_iff.mp h.2 with hleast | hleft
    · exact .inr (by linarith)
    · exact .inl (by linarith)
  · intro h
    refine ⟨le_max_left _ _, le_max_iff.mpr ?_⟩
    rcases h with hsame | hleast
    · exact .inr (by linarith)
    · exact .inl (by linarith)

section Sync
variable {α : Type} {py : Interpreter} {reader : Reader α} {req : HttpRequest}
  {timeout begun : ℚ} {schedule : List (Attempt (List Wire))}

/-- What one attempt of a sync loop sends. -/
theorem syncAttempt_sent (py : Interpreter) (reader : Reader α) (attempt : ℕ)
    (a : Attempt (List Wire)) :
    (syncAttempt py reader (Call.within req timeout begun) attempt a).2 =
      if a.now < deadlineFor timeout begun then
        (openReusing req (requestTimeoutSeconds
          (some (max 0 (deadlineFor timeout begun - a.now))) timeout) 0 a.wire).2
      else [] := by
  simp only [syncAttempt]
  simp only [requiredRemainingSeconds, remainingSeconds, Call.within, Option.map_some]
  by_cases h : a.now < deadlineFor timeout begun
  · have hpos : ¬ max 0 (deadlineFor timeout begun - a.now) ≤ 0 := by
      have : 0 < deadlineFor timeout begun - a.now := sub_pos.mpr h
      simpa using this
    simp only [hpos, h, if_true, if_false]
    split <;> try rfl
    split
    · split <;> rfl
    · rfl
  · have hzero : max 0 (deadlineFor timeout begun - a.now) ≤ 0 := by
      have : deadlineFor timeout begun - a.now ≤ 0 := sub_nonpos.mpr (not_lt.mp h)
      simpa using this
    simp only [hzero, h, if_true, if_false]

/-- The transmissions of an attempt are in time exactly when those that repeat it are. -/
theorem syncAttempt_inTime_iff (htimed : Timed begun schedule) (attempt : ℕ)
    {a : Attempt (List Wire)} (ha : a ∈ schedule) :
    (∀ t ∈ (syncAttempt py reader (Call.within req timeout begun) attempt a).2,
      InTime (deadlineFor timeout begun) t.start t.timeout) ↔
      ResendsInTime req (deadlineFor timeout begun) a := by
  rw [syncAttempt_sent]
  simp only [ResendsInTime]
  by_cases hnow : a.now < deadlineFor timeout begun
  · simp only [hnow, if_true, forall_const]
    rw [requestTimeoutSeconds_eq (htimed.begun_le a ha),
      openReusing_forall_iff (P := InTime (deadlineFor timeout begun))]
    have hpass : ∀ w ∈ passes req a.wire,
        InTime (deadlineFor timeout begun) w.start
            (max (1 / 1000) (deadlineFor timeout begun - a.now)) ↔
          w.start < deadlineFor timeout begun ∧
            (w.start = a.now ∨ deadlineFor timeout begun ≤ a.now + 1 / 1000) :=
      fun w hw => inTime_iff (htimed.now_le a ha w (mem_of_mem_passes hw))
    rw [forall₂_congr hpass]
    constructor
    · exact fun h w hw => h w (List.mem_of_mem_tail hw)
    · intro h w hw
      cases hwire : a.wire with
      | nil => simp [hwire, passes] at hw
      | cons v ws =>
          have hcons : passes req (v :: ws) = v :: (passes req (v :: ws)).tail := by
            simp only [passes]
            split
            · split <;> rfl
            · rfl
          rw [hwire, hcons] at hw
          rcases List.mem_cons.mp hw with rfl | hw
          · have hfirst := htimed.first a ha w ws hwire
            exact ⟨hfirst ▸ hnow, .inl hfirst⟩
          · exact h w (hwire ▸ hw)
  · simp [hnow]

/-- A sync loop keeps the deadline exactly when what `open_reusing` sends again does. -/
theorem syncRequest_keepsDeadline_iff (py : Interpreter) (reader : Reader α) (req : HttpRequest)
    (timeout : ℚ) (htimed : Timed begun schedule) :
    KeepsDeadline (deadlineFor timeout begun)
        (syncRequest py reader (Call.within req timeout begun) schedule).2
        (syncSleeps py reader (Call.within req timeout begun) schedule) ↔
      ∀ a ∈ syncAttempts py reader (Call.within req timeout begun) schedule,
        ResendsInTime req (deadlineFor timeout begun) a := by
  have hsleeps : ∀ s ∈ syncSleeps py reader (Call.within req timeout begun) schedule,
      s.start + s.delay ≤ deadlineFor timeout begun := fun s hs =>
    (loopSleeps_inTime rfl (fun _ a h => (syncAttempt_again_iff reader a).mp h)
      (fun _ a ha _ h => syncDelay_nonneg (htimed.jitter a ha) h) s hs).le
  have hsent : (∀ t ∈ (syncRequest py reader (Call.within req timeout begun) schedule).2,
      InTime (deadlineFor timeout begun) t.start t.timeout) ↔
      ∀ a ∈ syncAttempts py reader (Call.within req timeout begun) schedule,
        ResendsInTime req (deadlineFor timeout begun) a :=
    attemptLoop_forall_iff fun n a ha => syncAttempt_inTime_iff htimed n ha
  exact ⟨fun h => hsent.mp h.1, fun h => ⟨hsent.mpr h, hsleeps⟩⟩

end Sync

/-- **The deadline of a call.** A sync call keeps its deadline exactly when every request that
`open_reusing` sends again starts before it, and at the reading its attempt took the timeout from,
unless no more than a millisecond was left then. -/
theorem deadline_kept_iff (py : Interpreter) (req : HttpRequest) (timeout begun : ℚ)
    (schedule : List (Attempt (List Wire))) (htimed : Timed begun schedule) :
    (KeepsDeadline (deadlineFor timeout begun)
        (requestJsonResponse py (Call.within req timeout begun) schedule).2
        (syncSleeps py jsonReader (Call.within req timeout begun) schedule) ↔
      ∀ a ∈ syncAttempts py jsonReader (Call.within req timeout begun) schedule,
        ResendsInTime req (deadlineFor timeout begun) a) ∧
    (KeepsDeadline (deadlineFor timeout begun)
        (requestBytes py (Call.within req timeout begun) schedule).2
        (syncSleeps py bytesReader (Call.within req timeout begun) schedule) ↔
      ∀ a ∈ syncAttempts py bytesReader (Call.within req timeout begun) schedule,
        ResendsInTime req (deadlineFor timeout begun) a) :=
  ⟨syncRequest_keepsDeadline_iff py jsonReader req timeout htimed,
    syncRequest_keepsDeadline_iff py bytesReader req timeout htimed⟩

/-- Reading a sandbox, with 30 seconds for it. -/
def statusRequest : HttpRequest where
  method := "GET"
  path := "/v1/sandboxes/s1"
  headers := []
  content := .none

/-- A pooled connection is reset after `waited` seconds, and the request is sent again on a
new one. -/
def resetSchedule (waited : ℚ) : List (Attempt (List Wire)) :=
  [{ now := 0
     wire := [⟨0, .reused (.failed (.os { kind := .reset }) 0)⟩,
       ⟨waited, .fresh (.answered
         ⟨200, [], { length := some 2, chunks := ["{}".toUTF8.toList], ending := .complete }⟩ 0)⟩]
     later := waited
     jitter := 0 }]

theorem timed_resetSchedule {waited : ℚ} (h : 0 ≤ waited) : Timed 0 (resetSchedule waited) where
  begun_le := by simp [resetSchedule]
  first := by simp +contextual [resetSchedule]
  now_le := by simp [resetSchedule, h]
  jitter := by simp [resetSchedule]

/-- Sent again after 29 of its 30 seconds, the request may take another 30. -/
theorem deadline_missed :
    ¬ KeepsDeadline (deadlineFor 30 0)
      (requestJsonResponse objectInterpreter (Call.within statusRequest 30 0)
        (resetSchedule 29)).2
      (syncSleeps objectInterpreter jsonReader (Call.within statusRequest 30 0)
        (resetSchedule 29)) := by decide +kernel

/-- A request that is sent again at once keeps the deadline. -/
theorem deadline_kept_iff_reset :
    KeepsDeadline (deadlineFor 30 0)
      (requestJsonResponse objectInterpreter (Call.within statusRequest 30 0)
        (resetSchedule 0)).2
      (syncSleeps objectInterpreter jsonReader (Call.within statusRequest 30 0)
        (resetSchedule 0)) := by
  refine (deadline_kept_iff objectInterpreter statusRequest 30 0 (resetSchedule 0)
    (timed_resetSchedule le_rfl)).1.mpr fun a ha _ w hw => ?_
  have hmade : ∀ a ∈ syncAttempts objectInterpreter jsonReader (Call.within statusRequest 30 0)
      (resetSchedule 0),
      ∀ w ∈ (passes statusRequest a.wire).tail, w.start < 30 ∧ w.start = a.now := by
    decide +kernel
  obtain ⟨hstart, hsame⟩ := hmade a ha w hw
  exact ⟨hstart.trans_eq (by norm_num [deadlineFor]), .inl hsame⟩

end UcloudSandboxes.Client
