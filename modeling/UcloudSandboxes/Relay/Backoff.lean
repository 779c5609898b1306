import Mathlib.Algebra.Order.Field.Rat
import Mathlib.Tactic.Linarith
import Mathlib.Tactic.Positivity
import UcloudSandboxes.Relay.Poll

/-!
# How long a worker loop waits

The delays between the polls of a worker loop, over a whole outage and behind every success. Without
a `Retry-After` the delay doubles with each failure in a row, and the power of two is taken before
the cap is.

## Main results

* `relayRetryDelay_cases`: the delay, or why there is none.
* `backoff_defined_iff`: the runs in which every delay is defined.
-/
namespace UcloudSandboxes.Relay
open Lib Python Http

variable {py : Interpreter} {options : WorkerOptions}

/-- The delay after `n` failures in a row, without a `Retry-After`. -/
def backoff (n : ℕ) : ℚ := min 30 (1 / 4 * 2 ^ (n - 1))

theorem backoff_nonneg (n : ℕ) : 0 ≤ backoff n := by
  have hpower : (0 : ℚ) ≤ 1 / 4 * 2 ^ (n - 1) := by positivity
  exact le_min (by norm_num) hpower

theorem backoff_le (n : ℕ) : backoff n ≤ 30 := min_le_left _ _

theorem backoff_mono {m n : ℕ} (h : m ≤ n) : backoff m ≤ backoff n := by
  have hpower : (2 : ℚ) ^ (m - 1) ≤ 2 ^ (n - 1) :=
    pow_le_pow_right₀ (by norm_num) (Nat.sub_le_sub_right h 1)
  apply min_le_min_left
  apply mul_le_mul_of_nonneg_left hpower
  norm_num

/-- A `Retry-After` asks for at most a minute. -/
theorem retryAfterSeconds_range {headers : Headers} {delay : ℚ}
    (h : retryAfterSeconds py headers = some delay) : 0 ≤ delay ∧ delay ≤ 60 := by
  have hrange : ∀ q : ℚ, 0 ≤ max 0 (min 60 q) ∧ max 0 (min 60 q) ≤ 60 := by
    intro q
    exact ⟨le_max_left _ _, max_le (by norm_num) (min_le_left _ _)⟩
  simp only [retryAfterSeconds] at h
  split at h
  · cases h
  · split at h
    · rename_i f _
      cases h
      cases f with
      | finite q => exact hrange q
      | _ => simp [PyFloat.clamp]
    · obtain ⟨q, -, rfl⟩ := Option.map_eq_some_iff.mp h
      exact hrange q

/-- The delay is the one asked for, or it doubles, or the power of two is too large. -/
theorem relayRetryDelay_cases (py : Interpreter) (exc : ApiError) (n : ℕ) :
    (∃ delay, retryAfterSeconds py exc.headers = some delay ∧
        relayRetryDelay py exc n = .ok delay) ∨
      (retryAfterSeconds py exc.headers = none ∧ n ≤ 1024 ∧
        relayRetryDelay py exc n = .ok (backoff n)) ∨
      (retryAfterSeconds py exc.headers = none ∧ 1025 ≤ n ∧
        relayRetryDelay py exc n =
          .error (.builtin .overflowError "int too large to convert to float")) := by
  simp only [relayRetryDelay]
  cases hasked : retryAfterSeconds py exc.headers with
  | some delay => exact .inl ⟨delay, rfl, rfl⟩
  | none =>
      right
      by_cases hn : 1024 ≤ n - 1
      · right
        exact ⟨rfl, by omega, if_pos hn⟩
      · left
        exact ⟨rfl, by omega, if_neg hn⟩

/-- Poll `i` failed with a `RelayApiError` that says nothing about when to try again. -/
def Unasked (py : Interpreter) (polls : List PollEnd) (i : ℕ) : Prop :=
  ∃ exc, polls[i]? = some (.error (.api exc)) ∧ retryAfterSeconds py exc.headers = none

/-- Every delay of a loop is defined, and it ends as its options say. -/
structure BackoffDefined (py : Interpreter) (options : WorkerOptions) (polls : List PollEnd) :
    Prop where
  range : ∀ (i : ℕ) (delay : ℚ), (pollLoop py options polls)[i]? = some (Reaction.sleep delay) →
    0 ≤ delay ∧ delay ≤ 60
  capped : ∀ (i : ℕ) (delay : ℚ), (pollLoop py options polls)[i]? = some (Reaction.sleep delay) →
    Unasked py polls i → delay ≤ 30
  monotone : ∀ (i j : ℕ) (delay delay' : ℚ),
    (pollLoop py options polls)[i]? = some (Reaction.sleep delay) →
    (pollLoop py options polls)[j]? = some (Reaction.sleep delay') → Unasked py polls i →
    Unasked py polls j → failuresInRow polls i ≤ failuresInRow polls j → delay ≤ delay'
  /-- A success starts the count anew. -/
  resets : ∀ before after requests, polls = before ++ .ok requests :: after →
    before.length < (pollLoop py options polls).length →
    pollLoop py options polls =
      pollLoop py options before ++ .dispatch :: pollLoop py options after
  ends : ∀ (i : ℕ) (exc : Raised),
    (pollLoop py options polls)[i]? = some (Reaction.raise exc) →
    polls[i]? = some (.error exc) ∧ ∀ e, exc = .api e →
      relayErrorIsRetryable e = false ∨
        (failuresInRow polls i : ℤ) = max 1 options.maxConsecutivePollErrors

/-- The loop goes on after this poll, as its options say: the poll succeeded, or it failed in a
retryable way and the failures in a row are still below the limit. -/
def GoesOn (options : WorkerOptions) (polls : List PollEnd) (i : ℕ) : Prop :=
  ∀ exc, polls[i]? = some (.error exc) → ∃ e, exc = .api e ∧ relayErrorIsRetryable e = true ∧
    (failuresInRow polls i : ℤ) < max 1 options.maxConsecutivePollErrors

/-- An outage of 1025 polls without a `Retry-After` at its end. -/
def LongOutage (py : Interpreter) (polls : List PollEnd) (i : ℕ) : Prop :=
  Unasked py polls i ∧ 1025 ≤ failuresInRow polls i

/-- What may follow a poll, with the count of failures in hand. -/
inductive Reacts (py : Interpreter) (options : WorkerOptions) (n : ℕ) : PollEnd → Reaction → Prop
  | dispatches (requests : List RelayRequest) : Reacts py options n (.ok requests) .dispatch
  | gives (e : ApiError) : relayErrorIsRetryable e = false ∨
      max 1 options.maxConsecutivePollErrors ≤ (n : ℤ) →
      Reacts py options n (.error (.api e)) (.raise (.api e))
  | asked (e : ApiError) (delay : ℚ) : relayErrorIsRetryable e = true →
      (n : ℤ) < max 1 options.maxConsecutivePollErrors →
      retryAfterSeconds py e.headers = some delay →
      Reacts py options n (.error (.api e)) (.sleep delay)
  | doubles (e : ApiError) : relayErrorIsRetryable e = true →
      (n : ℤ) < max 1 options.maxConsecutivePollErrors →
      retryAfterSeconds py e.headers = none → n ≤ 1024 →
      Reacts py options n (.error (.api e)) (.sleep (backoff n))
  | overflows (e : ApiError) : relayErrorIsRetryable e = true →
      (n : ℤ) < max 1 options.maxConsecutivePollErrors →
      retryAfterSeconds py e.headers = none → 1025 ≤ n →
      Reacts py options n (.error (.api e))
        (.raise (.builtin .overflowError "int too large to convert to float"))
  | escapes (exc : Raised) : (∀ e, exc ≠ .api e) → Reacts py options n (.error exc) (.raise exc)

theorem reacts_afterPoll (py : Interpreter) (options : WorkerOptions) (n : ℕ) (poll : PollEnd) :
    Reacts py options n poll (afterPoll py options n poll) := by
  cases poll with
  | ok requests => exact .dispatches requests
  | error exc =>
      cases exc with
      | api e =>
          simp only [afterPoll]
          by_cases hgives : relayErrorIsRetryable e = false ∨
              max 1 options.maxConsecutivePollErrors ≤ (n : ℤ)
          · rw [if_pos (by simpa using hgives)]
            exact .gives e hgives
          · rw [if_neg (by simpa using hgives)]
            have hretryable : relayErrorIsRetryable e = true := by
              simpa using fun h => hgives (.inl h)
            have hlimit : (n : ℤ) < max 1 options.maxConsecutivePollErrors :=
              lt_of_not_ge fun h => hgives (.inr h)
            rcases relayRetryDelay_cases py e n with ⟨delay, hasked, h⟩ | ⟨hasked, hn, h⟩ |
                ⟨hasked, hn, h⟩
            · rw [h]
              exact .asked e delay hretryable hlimit hasked
            · rw [h]
              exact .doubles e hretryable hlimit hasked hn
            · rw [h]
              exact .overflows e hretryable hlimit hasked hn
      | _ => exact .escapes _ fun e he => by cases he

section
variable {polls : List PollEnd} {i : ℕ}

/-- The options let a loop go on behind a retryable failure below the limit. -/
theorem goesOn_of_retryable {e : ApiError} (hpoll : polls[i]? = some (.error (.api e)))
    (hretryable : relayErrorIsRetryable e = true)
    (hlimit : (failuresInRow polls i : ℤ) < max 1 options.maxConsecutivePollErrors) :
    GoesOn options polls i := by
  intro exc hexc
  rw [hpoll] at hexc
  cases hexc
  exact ⟨e, rfl, hretryable, hlimit⟩

/-- They let it go on behind no other failure. -/
theorem GoesOn.not_gives {e : ApiError} (hgoes : GoesOn options polls i)
    (hpoll : polls[i]? = some (.error (.api e))) :
    ¬ (relayErrorIsRetryable e = false ∨
      max 1 options.maxConsecutivePollErrors ≤ (failuresInRow polls i : ℤ)) := by
  intro hgives
  obtain ⟨_, he, hretryable, hlimit⟩ := hgoes _ hpoll
  cases he
  cases hgives with
  | inl hfinal =>
      rw [hretryable] at hfinal
      cases hfinal
  | inr hreached => omega

/-- A loop that sleeps goes on, and the delay could be computed. -/
theorem Reacts.slept {poll : PollEnd} {delay : ℚ} (hpoll : polls[i]? = some poll)
    (h : Reacts py options (failuresInRow polls i) poll (.sleep delay)) :
    (∃ exc, poll = .error exc) ∧ GoesOn options polls i ∧ ¬ LongOutage py polls i := by
  cases h with
  | asked e delay hretryable hlimit hasked =>
      refine ⟨⟨_, rfl⟩, goesOn_of_retryable hpoll hretryable hlimit, fun hlong => ?_⟩
      obtain ⟨e', he', hnone⟩ := hlong.1
      rw [hpoll] at he'
      cases he'
      rw [hnone] at hasked
      cases hasked
  | doubles e hretryable hlimit hasked hn =>
      refine ⟨⟨_, rfl⟩, goesOn_of_retryable hpoll hretryable hlimit, fun hlong => ?_⟩
      have := hlong.2
      omega

/-- The reactions of a loop, with the polls it came to before. -/
theorem reacts_pollLoop {reaction : Reaction}
    (h : (pollLoop py options polls)[i]? = some reaction) :
    ∃ poll, polls[i]? = some poll ∧ Reacts py options (failuresInRow polls i) poll reaction ∧
      ∀ j < i, GoesOn options polls j := by
  obtain ⟨poll, hpoll, hreaction, hbefore⟩ := of_getElem?_pollLoop h
  refine ⟨poll, hpoll, hreaction ▸ reacts_afterPoll .., fun j hj exc hexc => ?_⟩
  have hends := hbefore j hj _ hexc
  have hreacts := reacts_afterPoll py options (failuresInRow polls j) (.error exc)
  generalize afterPoll py options (failuresInRow polls j) (.error exc) = reaction at hends hreacts
  cases hreacts with
  | asked e delay hretryable hlimit hasked => exact ⟨e, rfl, hretryable, hlimit⟩
  | doubles e hretryable hlimit hasked hn => exact ⟨e, rfl, hretryable, hlimit⟩
  | _ => cases hends

/-- A loop goes on after a poll in time, unless its delay cannot be computed. -/
theorem ends_of_goesOn {poll : PollEnd} (hpoll : polls[i]? = some poll)
    (hgoes : GoesOn options polls i) (hlong : ¬ LongOutage py polls i) :
    (afterPoll py options (failuresInRow polls i) poll).ends = false := by
  have hreacts := reacts_afterPoll py options (failuresInRow polls i) poll
  generalize afterPoll py options (failuresInRow polls i) poll = reaction at hreacts
  cases hreacts with
  | gives e hgives => exact absurd hgives (hgoes.not_gives hpoll)
  | overflows e hretryable hlimit hasked hn => exact absurd ⟨⟨e, hpoll, hasked⟩, hn⟩ hlong
  | escapes exc hexc =>
      obtain ⟨e, he, -⟩ := hgoes _ hpoll
      exact absurd he (hexc e)
  | _ => rfl

/-- At the end of a long outage the delay cannot be computed. -/
theorem afterPoll_longOutage {poll : PollEnd} (hpoll : polls[i]? = some poll)
    (hgoes : GoesOn options polls i) (hlong : LongOutage py polls i) :
    afterPoll py options (failuresInRow polls i) poll =
      .raise (.builtin .overflowError "int too large to convert to float") := by
  obtain ⟨⟨e, he, hasked⟩, hn⟩ := hlong
  rw [hpoll] at he
  cases he
  have hreacts := reacts_afterPoll py options (failuresInRow polls i) (.error (.api e))
  generalize afterPoll py options (failuresInRow polls i) (.error (.api e)) = reaction at hreacts
  cases hreacts with
  | gives e hgives => exact absurd hgives (hgoes.not_gives hpoll)
  | asked e delay _ _ h =>
      rw [hasked] at h
      cases h
  | doubles e _ _ _ h => omega
  | overflows e => rfl
  | escapes exc hexc => exact absurd rfl (hexc e)

/-- The first poll at the end of a long outage ends the loop with an arithmetic error. -/
theorem pollLoop_longOutage (hgoes : ∀ j ≤ i, GoesOn options polls j)
    (hbefore : ∀ j < i, ¬ LongOutage py polls j) (hlong : LongOutage py polls i) :
    (pollLoop py options polls)[i]? = some (Reaction.raise
      (.builtin .overflowError "int too large to convert to float")) := by
  obtain ⟨e, hpoll, -⟩ := hlong.1
  rw [getElem?_pollLoop hpoll fun j hj p hp =>
    ends_of_goesOn hp (hgoes j (Nat.le_of_lt hj)) (hbefore j hj)]
  rw [afterPoll_longOutage hpoll (hgoes i le_rfl) hlong]

/-- The loop sleeps after a failure, if it goes on so far. -/
theorem sleeps_iff :
    (∃ delay, (pollLoop py options polls)[i]? = some (Reaction.sleep delay)) ↔
      (∃ exc, polls[i]? = some (.error exc)) ∧
        ∀ j ≤ i, GoesOn options polls j ∧ ¬ LongOutage py polls j := by
  constructor
  · rintro ⟨delay, hdelay⟩
    obtain ⟨poll, hpoll, hreacts, hbefore⟩ := reacts_pollLoop hdelay
    obtain ⟨-, -, -, hends⟩ := of_getElem?_pollLoop hdelay
    have hearlier : ∀ j < i, GoesOn options polls j ∧ ¬ LongOutage py polls j := by
      intro j hj
      refine ⟨hbefore j hj, fun hlong => ?_⟩
      obtain ⟨e, he, -⟩ := hlong.1
      have hend := hends j hj _ he
      rw [afterPoll_longOutage he (hbefore j hj) hlong] at hend
      cases hend
    obtain ⟨⟨exc, hexc⟩, hgoes, hshort⟩ := hreacts.slept hpoll
    refine ⟨⟨exc, hexc ▸ hpoll⟩, fun j hj => ?_⟩
    by_cases hlast : j = i
    · subst hlast
      exact ⟨hgoes, hshort⟩
    · exact hearlier j (by omega)
  · rintro ⟨⟨exc, hexc⟩, hall⟩
    have hreaction := @getElem?_pollLoop py options polls _ _ hexc fun j hj p hp =>
      ends_of_goesOn hp (hall j (Nat.le_of_lt hj)).1 (hall j (Nat.le_of_lt hj)).2
    have hends := ends_of_goesOn hexc (hall i le_rfl).1 (hall i le_rfl).2
    have hreacts := reacts_afterPoll py options (failuresInRow polls i) (.error exc)
    generalize afterPoll py options (failuresInRow polls i) (.error exc) = reaction
      at hreaction hends hreacts
    cases hreacts with
    | asked e delay => exact ⟨delay, hreaction⟩
    | doubles e => exact ⟨_, hreaction⟩
    | _ => cases hends

/-- A failure adds one to the failures in a row before it. -/
theorem failuresInRow_succ_le (polls : List PollEnd) (i : ℕ) :
    failuresInRow polls (i + 1) ≤ failuresInRow polls i + 1 := by
  simp only [failuresInRow]
  cases hnext : polls[i + 1]? with
  | none =>
      have hle : polls.length ≤ i + 1 := List.getElem?_eq_none_iff.mp hnext
      rw [List.take_of_length_le hle, List.take_of_length_le (by omega)]
      exact Nat.le_succ _
  | some poll =>
      rw [List.take_add_one, hnext, Option.toList_some, streak_snoc]
      split
      · exact le_rfl
      · exact Nat.zero_le _

/-- A loop that went on so far has not counted beyond its limit. -/
theorem failuresInRow_le (hpoll : ∃ e, polls[i]? = some (.error e))
    (hgoes : ∀ j < i, GoesOn options polls j) :
    (failuresInRow polls i : ℤ) ≤ max 1 options.maxConsecutivePollErrors := by
  cases i with
  | zero =>
      have hle : failuresInRow polls 0 ≤ 1 :=
        (streak_le_length _ _).trans (by rw [List.length_take]; exact Nat.min_le_left _ _)
      omega
  | succ i =>
      have hle := failuresInRow_succ_le polls i
      by_cases hfailed : ∃ exc, polls[i]? = some (.error exc)
      · obtain ⟨exc, hexc⟩ := hfailed
        obtain ⟨-, -, -, hlt⟩ := hgoes i (Nat.lt_succ_self i) exc hexc
        omega
      · have hzero : failuresInRow polls i = 0 := by
          simp only [failuresInRow]
          rw [List.take_add_one]
          cases hi : polls[i]? with
          | none =>
              obtain ⟨e, he⟩ := hpoll
              have hlen : i + 1 < polls.length := (List.getElem?_eq_some_iff.mp he).1
              have := List.getElem?_eq_none_iff.mp hi
              omega
          | some poll =>
              rw [Option.toList_some, streak_snoc]
              cases poll with
              | ok requests => rfl
              | error exc => exact absurd ⟨exc, hi⟩ hfailed
        omega

end

/-- Where nobody asked for a delay, it doubles. -/
theorem delay_of_unasked {polls : List PollEnd} {i : ℕ} {delay : ℚ}
    (hdelay : (pollLoop py options polls)[i]? = some (Reaction.sleep delay))
    (hunasked : Unasked py polls i) : delay = backoff (failuresInRow polls i) := by
  obtain ⟨poll, hpoll, hreacts, -⟩ := reacts_pollLoop hdelay
  obtain ⟨exc, hexc, hnone⟩ := hunasked
  rw [hexc] at hpoll
  cases hpoll
  cases hreacts with
  | asked e delay _ _ hasked =>
      rw [hnone] at hasked
      cases hasked
  | doubles e => rfl

/-- Behind a success the loop starts anew. -/
theorem pollLoop_success {before after : List PollEnd} {requests : List RelayRequest}
    (h : before.length < (pollLoop py options (before ++ .ok requests :: after)).length) :
    pollLoop py options (before ++ .ok requests :: after) =
      pollLoop py options before ++ .dispatch :: pollLoop py options after := by
  obtain ⟨-, hbefore⟩ := of_getElem?_reactions (List.getElem?_eq_getElem h)
  refine reactions_append (.ok requests :: after) fun i b hb => ?_
  have hi : i < before.length := by
    by_contra hle
    simp [reactionAt, List.getElem?_eq_none (not_lt.mp hle)] at hb
  refine hbefore i hi b ?_
  simp only [reactionAt] at hb ⊢
  rw [List.getElem?_append_left hi, List.take_append_of_le_length hi]
  exact hb

/-- The delays of a run are defined if no long outage comes before the limit. -/
theorem backoffDefined_of_not_longOutage {polls : List PollEnd}
    (h : ∀ i, (∀ j ≤ i, GoesOn options polls j) → ¬ LongOutage py polls i) :
    BackoffDefined py options polls where
  range := by
    intro i delay hdelay
    obtain ⟨poll, -, hreacts, -⟩ := reacts_pollLoop hdelay
    cases hreacts with
    | asked e delay _ _ hasked => exact retryAfterSeconds_range hasked
    | doubles e =>
        refine ⟨backoff_nonneg _, (backoff_le _).trans ?_⟩
        norm_num
  capped := by
    intro i delay hdelay hunasked
    rw [delay_of_unasked hdelay hunasked]
    exact backoff_le _
  monotone := by
    intro i j delay delay' hdelay hdelay' hunasked hunasked' hle
    rw [delay_of_unasked hdelay hunasked, delay_of_unasked hdelay' hunasked']
    exact backoff_mono hle
  resets := by
    intro before after requests hpolls hlength
    subst hpolls
    exact pollLoop_success hlength
  ends := by
    intro i exc hraise
    obtain ⟨poll, hpoll, hreacts, hbefore⟩ := reacts_pollLoop hraise
    cases hreacts with
    | gives e hgives =>
        refine ⟨hpoll, fun e' he' => ?_⟩
        cases he'
        rcases hgives with hfinal | hlimit
        · exact .inl hfinal
        · exact .inr (le_antisymm (failuresInRow_le ⟨_, hpoll⟩ hbefore) hlimit)
    | overflows e hretryable hlimit hasked hn =>
        refine absurd ⟨⟨e, hpoll, hasked⟩, hn⟩ (h i fun j hj => ?_)
        rcases Nat.lt_or_eq_of_le hj with hlt | rfl
        · exact hbefore j hlt
        · exact goesOn_of_retryable hpoll hretryable hlimit
    | escapes exc hexc => exact ⟨hpoll, fun e he => absurd he (hexc e)⟩

/-- A defined run has no long outage before the limit. -/
theorem not_longOutage_of_backoffDefined {polls : List PollEnd}
    (h : BackoffDefined py options polls) (i : ℕ) (hgoes : ∀ j ≤ i, GoesOn options polls j) :
    ¬ LongOutage py polls i := by
  induction i using Nat.strong_induction_on with
  | _ i ih =>
      intro hlong
      have hraise := pollLoop_longOutage hgoes
        (fun j hj => ih j hj fun k hk => hgoes k (hk.trans (Nat.le_of_lt hj))) hlong
      obtain ⟨⟨e, hpoll, -⟩, -⟩ := hlong
      have hsame := (h.ends i _ hraise).1
      rw [hpoll] at hsame
      cases hsame

/-- An outage: the same failure, again and again. -/
def outage (n : ℕ) : List PollEnd :=
  List.replicate n (.error (.api { message := "relay request failed: timed out" }))

theorem failuresInRow_outage {n i : ℕ} (h : i < n) : failuresInRow (outage n) i = i + 1 := by
  simp only [failuresInRow, outage, List.take_replicate]
  rw [streak_replicate rfl, Nat.min_eq_left h]

theorem unasked_outage {n i : ℕ} (h : i < n) : Unasked py (outage n) i := by
  refine ⟨_, List.getElem?_replicate_of_lt h, ?_⟩
  simp [retryAfterSeconds, findHeader]

theorem goesOn_outage {n i : ℕ} (h : (i : ℤ) + 1 < max 1 options.maxConsecutivePollErrors) :
    GoesOn options (outage n) i := by
  intro exc hexc
  have hi : i < n := by simpa [outage] using (List.getElem?_eq_some_iff.mp hexc).1
  simp only [outage, List.getElem?_replicate_of_lt hi] at hexc
  cases hexc
  refine ⟨_, rfl, rfl, ?_⟩
  rw [failuresInRow_outage hi]
  push_cast
  exact h

/-- **Backoff.** The delays of a run of polls are defined exactly if no poll the loop still makes is
the 1025th failure in a row without a `Retry-After`, or a later one. They are in every run exactly
if the limit is at most 1025. -/
theorem backoff_defined_iff (py : Interpreter) (options : WorkerOptions) :
    (∀ polls, BackoffDefined py options polls ↔
      ∀ i, (∀ j ≤ i, GoesOn options polls j) → ¬ LongOutage py polls i) ∧
    ((∀ polls, BackoffDefined py options polls) ↔
      options.maxConsecutivePollErrors ≤ 1025) := by
  refine ⟨fun polls => ⟨not_longOutage_of_backoffDefined, backoffDefined_of_not_longOutage⟩, ?_⟩
  constructor
  · intro h
    by_contra hlimit
    refine not_longOutage_of_backoffDefined (h (outage 1025)) 1024 (fun j hj => ?_) ?_
    · apply goesOn_outage
      omega
    · refine ⟨unasked_outage (by norm_num), ?_⟩
      rw [failuresInRow_outage (by norm_num)]
  · intro hlimit polls
    refine backoffDefined_of_not_longOutage fun i hgoes hlong => ?_
    obtain ⟨⟨e, hpoll, -⟩, hn⟩ := hlong
    obtain ⟨-, -, -, hlt⟩ := hgoes i le_rfl _ hpoll
    omega

/-- Far enough into an outage, a loop with room for 2000 failures ends with an arithmetic error. -/
theorem outage_overflows :
    ∃ options : WorkerOptions, options.maxConsecutivePollErrors = 2000 ∧
      (pollLoop (.ascii []) options (outage 1025))[1024]? = some (Reaction.raise
        (.builtin .overflowError "int too large to convert to float")) ∧
      ¬ BackoffDefined (.ascii []) options (outage 1025) := by
  have hgoes : ∀ j ≤ 1024, GoesOn ⟨4, 2000, by norm_num⟩ (outage 1025) j := by
    intro j hj
    apply goesOn_outage
    simp only
    omega
  have hlong : LongOutage (.ascii []) (outage 1025) 1024 := by
    refine ⟨unasked_outage (by norm_num), ?_⟩
    rw [failuresInRow_outage (by norm_num)]
  refine ⟨⟨4, 2000, by norm_num⟩, rfl, pollLoop_longOutage hgoes (fun j hj hearly => ?_) hlong,
    fun h => not_longOutage_of_backoffDefined h 1024 hgoes hlong⟩
  have hn := hearly.2
  rw [failuresInRow_outage (by omega)] at hn
  omega

end UcloudSandboxes.Relay
