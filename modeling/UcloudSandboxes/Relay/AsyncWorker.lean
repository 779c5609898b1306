import UcloudSandboxes.Lib.Crew
import UcloudSandboxes.Relay.Admission
import UcloudSandboxes.Relay.Worker

/-!
# The async worker loop

`_run_async_worker` as a step relation. Any number of loops run on one event loop and share one
`AsyncRequestBudget`. A step is what a coroutine does between two of its awaits, the end of a
request task, or the run of a done callback, which the event loop schedules separately. A loop can
be cancelled at each of its awaits, in `acquire` too.

What the environment decides is left open in the steps: when a stop event is set, how a poll or a
task ends, when a poll slot is free, and the order of all steps.

## Main results

* `AsyncWorker.Inv`: what holds of the budget and a loop at every step.
* `AsyncWorker.step_spec`: what a step does to the budget, its own loop and the others.
-/
namespace UcloudSandboxes.Relay
open Lib Python AsyncRequestBudget

universe u

/-- Where an async loop stands. -/
inductive AsyncPhase
  /-- At the head of the loop. -/
  | top
  /-- Waiting for one of `max_concurrency` tasks to end. -/
  | full
  /-- In `acquire`, waiting for its future or for the stop event. -/
  | acquiring (future : ℕ)
  /-- In `acquire`, waiting for the cancelled stop watcher. `done` says whether the watcher was
  among the tasks that were done; `none` is a cancellation in flight. -/
  | settling (future : ℕ) (done : Option Bool)
  /-- Waiting for one of the poll slots. -/
  | slot
  /-- A poll is under way. -/
  | polling (limit : ℕ)
  /-- Waiting before the next poll. -/
  | backoff
  /-- After the loop, waiting for the tasks. -/
  | gathering
  /-- An exception is in flight; the tasks were cancelled and are waited for. -/
  | draining
  /-- Returned or raised. -/
  | finished

/-- The future that the phase waits on. -/
def AsyncPhase.future : AsyncPhase → Option ℕ
  | .acquiring future | .settling future _ => some future
  | _ => none

structure AsyncWorker where
  phase : AsyncPhase := .top
  reserved : ℕ := 0
  pollErrors : ℕ := 0
  tasks : List Task := []

namespace AsyncWorker

/-- The loop has ended without an exception. -/
def left (a : AsyncWorker) : AsyncWorker :=
  { a with phase := if 0 < a.tasks.countP Task.tracked then .gathering else .finished }

/-- An exception leaves the loop. -/
def raised (a : AsyncWorker) : AsyncWorker := { a with phase := .draining, reserved := 0 }

/-- What follows a poll that raised, once its permit is back. -/
def pollFailed (py : Interpreter) (options : WorkerOptions) (a : AsyncWorker) :
    Raised → AsyncWorker
  | .api exc =>
      { a with
        phase := if retriesPoll py options exc (a.pollErrors + 1) then .backoff else .draining
        reserved := 0
        pollErrors := a.pollErrors + 1 }
  | _ => a.raised

variable {ι : Type u}

/-- One step of loop `k`, of one of its tasks, or of a done callback. -/
inductive Act (py : Interpreter) (options : ι → WorkerOptions) :
    Crew.Local ι (AsyncRequestBudget ι) AsyncWorker
  | leave {k b a} : a.phase = .top → Act py options k b a b a.left
  | collectFull {k b a} (completed : ℕ → Bool) : a.phase = .top → Completed completed a.tasks →
      ¬ AnyFailed completed a.tasks →
      (options k).maxConcurrency ≤ (collectTasks completed a.tasks).countP Task.tracked →
      Act py options k b a b { a with tasks := collectTasks completed a.tasks, phase := .full }
  | collectRaises {k b a} (completed : ℕ → Bool) : a.phase = .top →
      Completed completed a.tasks → AnyFailed completed a.tasks →
      Act py options k b a b { a with tasks := collectTasks completed a.tasks, phase := .draining }
  | enter {k b a b'} (completed : ℕ → Bool) : a.phase = .top → Completed completed a.tasks →
      ¬ AnyFailed completed a.tasks →
      (collectTasks completed a.tasks).countP Task.tracked < (options k).maxConcurrency →
      b.enter k = some b' →
      Act py options k b a b'
        { a with
          tasks := collectTasks completed a.tasks
          phase := .acquiring b.futures.length }
  | taskDone {k b a} (t : Task) : a.phase = .full → t ∈ a.tasks → t.tracked = true →
      t.live = false → Act py options k b a b { a with phase := .top }
  | resume {k b a} (future : ℕ) (stopDone : Bool) : a.phase = .acquiring future →
      stopDone = true ∨ b.stateOf future = some .granted →
      Act py options k b a b { a with phase := .settling future (some stopDone) }
  | cancelAcquire {k b a} (future : ℕ) : a.phase = .acquiring future →
      Act py options k b a b { a with phase := .settling future none }
  | claim {k b a} (future : ℕ) : a.phase = .settling future (some false) →
      Act py options k b a (b.claim future) { a with phase := .slot, reserved := 1 }
  | stopped {k b a b'} (future : ℕ) : a.phase = .settling future (some true) →
      b.giveUp future = some b' → Act py options k b a b' a.left
  /-- A cancellation leaves `acquire`: one that was in flight, or a further one. -/
  | cancelled {k b a b'} (future : ℕ) (done : Option Bool) : a.phase = .settling future done →
      b.giveUp future = some b' → Act py options k b a b' a.raised
  | enterSlot {k b a} : a.phase = .slot →
      Act py options k b a b { a with phase := .polling a.reserved }
  | cancelSlot {k b a b'} : a.phase = .slot → b.release a.reserved = some b' →
      Act py options k b a b' a.raised
  | pollReturns {k b a b'} (limit : ℕ) (requests : List RelayRequest) : a.phase = .polling limit →
      requests.length ≤ a.reserved → b.release (a.reserved - requests.length) = some b' →
      Act py options k b a b'
        { phase := .top, reserved := 0, pollErrors := 0, tasks := a.tasks ++ startTasks requests }
  | pollExceeds {k b a b'} (limit : ℕ) (requests : List RelayRequest) : a.phase = .polling limit →
      a.reserved < requests.length → b.release a.reserved = some b' →
      Act py options k b a b' { a.raised with pollErrors := 0 }
  | pollRaises {k b a b'} (limit : ℕ) (exc : Raised) : a.phase = .polling limit →
      b.release a.reserved = some b' → Act py options k b a b' (a.pollFailed py (options k) exc)
  | wake {k b a} : a.phase = .backoff → Act py options k b a b { a with phase := .top }
  | gathered {k b a} : a.phase = .gathering → (∀ t ∈ a.tasks, t.tracked = true → t.live = false) →
      Act py options k b a b { a with phase := .finished }
  | gatherRaises {k b a} (t : Task) : a.phase = .gathering → t ∈ a.tasks → t.tracked = true →
      t.failed = true → Act py options k b a b { a with phase := .draining }
  | cancel {k b a} : a.phase = .full ∨ a.phase = .backoff ∨ a.phase = .gathering →
      Act py options k b a b { a with phase := .draining }
  | drained {k b a} : a.phase = .draining → (∀ t ∈ a.tasks, t.tracked = true → t.live = false) →
      Act py options k b a b { a with phase := .finished }
  | taskEnds {k b a} (i : ℕ) (t : Task) (outcome : Option Raised) : a.tasks[i]? = some t →
      t.live = true →
      Act py options k b a b { a with tasks := a.tasks.set i { t with ended := some outcome } }
  | callback {k b a b'} (i : ℕ) (t : Task) : a.tasks[i]? = some t → t.live = false →
      t.callback = true → b.release 1 = some b' →
      Act py options k b a b'
        { a with tasks := a.tasks.set i { t with callback := false, released := true } }

/-- The permits a loop accounts for: those reserved for its poll, and one for every request task
that has not released its own. -/
def permits (a : AsyncWorker) : ℕ := a.reserved + a.tasks.countP Task.owing

/-- Room for tasks, by phase, in a loop with room for `max`. -/
def Room (max : ℕ) (a : AsyncWorker) : Prop :=
  match a.phase with
  | .acquiring _ | .settling _ _ => a.reserved = 0 ∧ a.tasks.countP Task.tracked < max
  | .slot => a.reserved = 1 ∧ a.tasks.countP Task.tracked < max
  | .polling limit => limit = a.reserved ∧ a.reserved = 1 ∧ a.tasks.countP Task.tracked < max
  | _ => a.reserved = 0

/-- What holds of a loop at every step, whatever the budget. -/
structure Sound (max : ℕ) (a : AsyncWorker) : Prop where
  live_le : a.tasks.countP Task.live ≤ max
  room : Room max a
  strays : a.tasks.countP Task.stray = 0
  owed : ∀ (i : ℕ) (t : Task), a.tasks[i]? = some t → t.callback = !t.released
  ended : a.phase = .finished → ∀ t ∈ a.tasks, t.live = false

/-- What holds of the budget and loop `k` at every step. -/
structure Inv (max : ℕ) (k : ι) (b : AsyncRequestBudget ι) (a : AsyncWorker) : Prop where
  queued : b.Queued
  sound : Sound max a
  /-- The loop waits on the one future its phase names. -/
  awaited : ∀ id, b.Awaited k id ↔ a.phase.future = some id
  /-- An `acquire` that saw no stop event has its permit. -/
  granted : ∀ future, a.phase = .settling future (some false) →
    b.futures[future]? = some ⟨k, .granted⟩

section Step
variable {py : Interpreter} {options : ι → WorkerOptions} {k : ι} {b b' : AsyncRequestBudget ι}
  {a a' : AsyncWorker}

/-- What a loop that waits for nothing owes: nothing is reserved and no task runs untracked. -/
theorem sound_of_phase {max : ℕ} (H : Sound max a) {a₁ : AsyncWorker} (htasks : a₁.tasks = a.tasks)
    (hroom : Room max a₁) (hended : a₁.phase = .finished → ∀ t ∈ a.tasks, t.live = false) :
    Sound max a₁ :=
  ⟨htasks ▸ H.live_le, hroom, htasks ▸ H.strays, htasks ▸ H.owed, htasks ▸ hended⟩

/-- With no tracked task left, every task has ended. -/
theorem Sound.not_live {max : ℕ} (H : Sound max a)
    (h : ∀ t ∈ a.tasks, t.tracked = true → t.live = false) : ∀ t ∈ a.tasks, t.live = false := by
  intro t ht
  have hstray : t.stray = false := by simpa using List.countP_eq_zero.mp H.strays t ht
  cases htracked : t.tracked
  · simpa [Task.stray, htracked] using hstray
  · exact h t ht htracked

theorem sound_left {max : ℕ} (H : Sound max a) (hzero : a.reserved = 0) : Sound max a.left := by
  refine sound_of_phase H rfl ?_ fun hf => ?_
  · simp only [left, Room]
    by_cases h : 0 < a.tasks.countP Task.tracked <;> simpa [h] using hzero
  · refine H.not_live fun t ht htracked => ?_
    have hpos : 0 < a.tasks.countP Task.tracked := List.countP_pos_iff.mpr ⟨t, ht, htracked⟩
    simp [left, hpos] at hf

theorem sound_raised {max : ℕ} (H : Sound max a) : Sound max a.raised :=
  sound_of_phase H rfl rfl fun hf => by cases hf

theorem sound_collect {max : ℕ} (H : Sound max a) {completed : ℕ → Bool}
    (hc : Completed completed a.tasks) {p : AsyncPhase} (hp : p ≠ .finished)
    (hroom : Room max { a with tasks := collectTasks completed a.tasks, phase := p }) :
    Sound max { a with tasks := collectTasks completed a.tasks, phase := p } := by
  refine ⟨?_, hroom, ?_, fun i t' ht' => ?_, fun hf => absurd hf hp⟩
  · simpa [countP_live_collect] using H.live_le
  · simpa [countP_stray_collect completed a.tasks hc] using H.strays
  · obtain ⟨t, ht, hcallback, hreleased, _⟩ := getElem?_collect completed a.tasks ht'
    rw [hcallback, hreleased]
    exact H.owed i t ht

/-- A task may end, and may run its callback. -/
theorem sound_set {max : ℕ} (H : Sound max a) {i : ℕ} {t : Task} (ht : a.tasks[i]? = some t)
    (t₁ : Task) (hlive : t₁.live = true → t.live = true) (htracked : t₁.tracked = t.tracked)
    (howed : t₁.callback = !t₁.released) :
    Sound max { a with tasks := a.tasks.set i t₁ } := by
  have hle : ∀ p : Task → Bool, (p t₁ = true → p t = true) → tally (p t₁) ≤ tally (p t) := by
    intro p hp
    cases h : p t₁
    · simp
    · simp [hp h]
  have hstray : t₁.stray = true → t.stray = true := by
    simp only [Task.stray, htracked, Bool.and_eq_true]
    exact fun h => ⟨hlive h.1, h.2⟩
  have hcountp := countP_set_add Task.tracked ht t₁
  rw [htracked] at hcountp
  have htrackedCount : (a.tasks.set i t₁).countP Task.tracked = a.tasks.countP Task.tracked := by
    omega
  refine ⟨?_, ?_, ?_, forall_set (fun j u _ hu => H.owed j u hu) howed, fun hf u hu => ?_⟩
  · have := countP_set_add Task.live ht t₁
    have := hle Task.live hlive
    have := H.live_le
    simp only
    omega
  · simpa only [Room, htrackedCount] using H.room
  · have := countP_set_add Task.stray ht t₁
    have := hle Task.stray hstray
    have := H.strays
    simp only
    omega
  · rcases List.mem_or_eq_of_mem_set hu with hu | rfl
    · exact H.ended hf u hu
    · have hdead := H.ended hf t (List.mem_of_getElem? ht)
      cases h : u.live
      · rfl
      · simp [hlive h] at hdead

/-- A step keeps the loop sound. -/
theorem step_sound (H : Inv (options k).maxConcurrency k b a) (h : Act py options k b a b' a') :
    Sound (options k).maxConcurrency a' := by
  have hsound := H.sound
  have hroom := hsound.room
  cases h with
  | leave hp => exact sound_left hsound (by simpa [Room, hp] using hroom)
  | collectFull completed hp hc hok hle =>
      exact sound_collect hsound hc (by simp) (by simpa [Room, hp] using hroom)
  | collectRaises completed hp hc hany =>
      exact sound_collect hsound hc (by simp) (by simpa [Room, hp] using hroom)
  | enter completed hp hc hok hlt hop =>
      have hzero : a.reserved = 0 := by simpa [Room, hp] using hroom
      exact sound_collect hsound hc (by simp) ⟨hzero, hlt⟩
  | taskDone t hp ht htracked hl =>
      exact sound_of_phase hsound rfl (by simpa [Room, hp] using hroom) fun hf => by cases hf
  | resume future stopDone hp hdone =>
      exact sound_of_phase hsound rfl (by simpa [Room, hp] using hroom) fun hf => by cases hf
  | cancelAcquire future hp =>
      exact sound_of_phase hsound rfl (by simpa [Room, hp] using hroom) fun hf => by cases hf
  | claim future hp =>
      simp only [Room, hp] at hroom
      exact sound_of_phase hsound rfl ⟨rfl, hroom.2⟩ fun hf => by cases hf
  | stopped future hp hop =>
      simp only [Room, hp] at hroom
      exact sound_left hsound hroom.1
  | cancelled future done hp hop => exact sound_raised hsound
  | enterSlot hp =>
      simp only [Room, hp] at hroom
      exact sound_of_phase hsound rfl ⟨rfl, hroom⟩ fun hf => by cases hf
  | cancelSlot hp hop => exact sound_raised hsound
  | pollReturns limit requests hp hle hop =>
      simp only [Room, hp] at hroom
      have hlive := countP_live_le a.tasks
      refine ⟨?_, rfl, ?_, fun i t ht => ?_, fun hf => by cases hf⟩
      · rw [hsound.strays] at hlive
        simp only [List.countP_append, countP_live_start]
        omega
      · simp [hsound.strays]
      · rcases List.mem_append.mp (List.mem_of_getElem? ht) with hmem | hmem
        · obtain ⟨j, hj⟩ := List.getElem?_of_mem hmem
          exact hsound.owed j t hj
        · simp only [startTasks, List.mem_map] at hmem
          obtain ⟨request, _, rfl⟩ := hmem
          rfl
  | pollExceeds limit requests hp hlt hop =>
      exact sound_of_phase hsound rfl rfl fun hf => by cases hf
  | pollRaises limit exc hp hop =>
      cases exc with
      | api exc =>
          by_cases hr : retriesPoll py (options k) exc (a.pollErrors + 1) = true <;>
            exact sound_of_phase hsound rfl (by simp [Room, pollFailed, hr])
              fun hf => by simp [pollFailed, hr] at hf
      | _ => exact sound_raised hsound
  | wake hp =>
      exact sound_of_phase hsound rfl (by simpa [Room, hp] using hroom) fun hf => by cases hf
  | gathered hp hall =>
      exact sound_of_phase hsound rfl (by simpa [Room, hp] using hroom) fun _ =>
        hsound.not_live hall
  | gatherRaises t hp ht =>
      exact sound_of_phase hsound rfl (by simpa [Room, hp] using hroom) fun hf => by cases hf
  | cancel hp =>
      refine sound_of_phase hsound rfl ?_ fun hf => by cases hf
      rcases hp with hp | hp | hp <;> simpa [Room, hp] using hroom
  | drained hp hall =>
      exact sound_of_phase hsound rfl (by simpa [Room, hp] using hroom) fun _ =>
        hsound.not_live hall
  | taskEnds i t outcome ht hl =>
      exact sound_set hsound ht _ (fun h => by cases h) rfl (hsound.owed i t ht)
  | callback i t ht hl hc hop => exact sound_set hsound ht _ (fun h => h) rfl rfl

/-- A step keeps the queue, and no other loop notices. -/
theorem step_store (H : Inv (options k).maxConcurrency k b a) (h : Act py options k b a b' a') :
    b'.Queued ∧ ∀ j, j ≠ k → b.Keeps j b' := by
  have hsame : b.Queued ∧ ∀ j, j ≠ k → b.Keeps j b :=
    ⟨H.queued, fun j _ => keeps_of_served (fun id => .refl b id) j⟩
  have hrelease : ∀ count, b.release count = some b' → b'.Queued ∧ ∀ j, j ≠ k → b.Keeps j b' := by
    intro count hop
    obtain ⟨hq, _, hserved⟩ := of_eq_some (release_spec H.queued count) hop
    exact ⟨hq, fun j _ => keeps_of_served hserved j⟩
  have hgiveUp : ∀ id, a.phase.future = some id → b.giveUp id = some b' →
      b'.Queued ∧ ∀ j, j ≠ k → b.Keeps j b' := by
    intro id hid hop
    obtain ⟨hq, _, _, hkeeps⟩ := of_eq_some (giveUp_spec H.queued ((H.awaited id).mpr hid)) hop
    exact ⟨hq, hkeeps⟩
  cases h with
  | enter completed hp hc hok hlt hop =>
      obtain ⟨hq, _, _, hkeeps⟩ := of_eq_some (enter_spec H.queued k) hop
      exact ⟨hq, hkeeps⟩
  | claim id hp =>
      obtain ⟨hq, _, _, hkeeps⟩ := claim_spec H.queued (H.granted id hp)
      exact ⟨hq, hkeeps⟩
  | stopped id hp hop => exact hgiveUp id (by rw [hp]; rfl) hop
  | cancelled id done hp hop => exact hgiveUp id (by rw [hp]; rfl) hop
  | cancelSlot hp hop => exact hrelease _ hop
  | pollReturns limit requests hp hle hop => exact hrelease _ hop
  | pollExceeds limit requests hp hlt hop => exact hrelease _ hop
  | pollRaises limit exc hp hop => exact hrelease _ hop
  | callback i t ht hl hc hop => exact hrelease _ hop
  | _ => exact hsame

@[simp] theorem tasks_left (a : AsyncWorker) : a.left.tasks = a.tasks := rfl
@[simp] theorem reserved_left (a : AsyncWorker) : a.left.reserved = a.reserved := rfl

/-- A step moves permits only between the budget, the loop and its tasks. -/
theorem step_permits (H : Inv (options k).maxConcurrency k b a) (h : Act py options k b a b' a') :
    b'.stock + a'.permits = b.stock + a.permits := by
  have hroom := H.sound.room
  simp only [Room] at hroom
  have hrelease : ∀ count, b.release count = some b' → b'.stock = b.stock + count :=
    fun count hop => (of_eq_some (release_spec H.queued count) hop).2.1
  have hgiveUp : ∀ id, a.phase.future = some id → b.giveUp id = some b' → b'.stock = b.stock :=
    fun id hid hop =>
      (of_eq_some (giveUp_spec H.queued ((H.awaited id).mpr hid)) hop).2.1
  cases h with
  | leave hp => rfl
  | collectFull completed hp hc hok hle => simp [permits, countP_owing_collect]
  | collectRaises completed hp hc hany => simp [permits, countP_owing_collect]
  | enter completed hp hc hok hlt hop =>
      have := (of_eq_some (enter_spec H.queued k) hop).2.1
      simpa [permits, countP_owing_collect] using this
  | claim id hp =>
      rw [hp] at hroom
      have := (claim_spec H.queued (H.granted id hp)).2.1
      simp only [permits]
      omega
  | stopped id hp hop =>
      have := hgiveUp id (by rw [hp]; rfl) hop
      simp only [permits, tasks_left, reserved_left]
      omega
  | cancelled id done hp hop =>
      rw [hp] at hroom
      have := hgiveUp id (by rw [hp]; rfl) hop
      simp only [permits, raised]
      omega
  | cancelSlot hp hop =>
      have := hrelease _ hop
      simp only [permits, raised]
      omega
  | pollReturns limit requests hp hle hop =>
      have := hrelease _ hop
      simp only [permits, List.countP_append, countP_owing_start]
      omega
  | pollExceeds limit requests hp hlt hop =>
      have := hrelease _ hop
      simp only [permits, raised]
      omega
  | pollRaises limit exc hp hop =>
      have := hrelease _ hop
      cases exc <;> simp only [permits, pollFailed, raised] <;> omega
  | taskEnds i t outcome ht hl =>
      have := countP_set_add Task.owing ht { t with ended := some outcome }
      simp only [Task.owing] at this
      simp only [permits]
      omega
  | callback i t ht hl hc hop =>
      have hreleased : t.released = false := by
        have := H.sound.owed i t ht
        simpa [hc] using this
      have := countP_set_add Task.owing ht { t with callback := false, released := true }
      simp only [Task.owing, hreleased, Bool.not_false, Bool.not_true, tally_true, tally_false]
        at this
      have := hrelease _ hop
      simp only [permits]
      omega
  | _ => rfl

theorem future_left (a : AsyncWorker) : a.left.phase.future = none := by
  simp only [left]
  split <;> rfl

theorem future_pollFailed (a : AsyncWorker) (exc : Raised) :
    (a.pollFailed py (options k) exc).phase.future = none := by
  cases exc with
  | api exc =>
      simp only [pollFailed]
      split <;> rfl
  | _ => rfl

/-- The loop waits on a future exactly while it is in `acquire`. -/
theorem step_awaited (H : Inv (options k).maxConcurrency k b a) (h : Act py options k b a b' a')
    (id : ℕ) : b'.Awaited k id ↔ a'.phase.future = some id := by
  have hold := H.awaited id
  have hrelease : ∀ count, a.phase.future = none → a'.phase.future = none →
      b.release count = some b' → (b'.Awaited k id ↔ a'.phase.future = some id) := by
    intro count hp hp' hop
    obtain ⟨_, _, hserved⟩ := of_eq_some (release_spec H.queued count) hop
    rw [(keeps_of_served hserved k).awaited id, hold, hp, hp']
  have hgiveUp : ∀ future, a.phase.future = some future → a'.phase.future = none →
      b.giveUp future = some b' → (b'.Awaited k id ↔ a'.phase.future = some id) := by
    intro future hp hp' hop
    have hawaited : ∀ j, b'.Awaited k j ↔ b.Awaited k j ∧ j ≠ future :=
      (of_eq_some (giveUp_spec H.queued ((H.awaited future).mpr hp)) hop).2.2.1
    rw [hawaited, hold, hp, hp']
    grind
  have hstay : a.phase.future = a'.phase.future → (b.Awaited k id ↔ a'.phase.future = some id) :=
    fun hp => hp ▸ hold
  cases h with
  | leave hp => exact hstay (by rw [hp, future_left]; rfl)
  | enter completed hp hc hok hlt hop =>
      have hawaited := (of_eq_some (enter_spec H.queued k) hop).2.2.1
      rw [hawaited, hold, hp]
      simp [AsyncPhase.future, eq_comm]
  | resume future stopDone hp hdone => exact hstay (by rw [hp]; rfl)
  | cancelAcquire future hp => exact hstay (by rw [hp]; rfl)
  | claim future hp =>
      have hawaited := (claim_spec H.queued (H.granted future hp)).2.2.1
      rw [hawaited, hold, hp]
      simp only [AsyncPhase.future]
      grind
  | stopped future hp hop => exact hgiveUp future (by rw [hp]; rfl) (future_left a) hop
  | cancelled future done hp hop => exact hgiveUp future (by rw [hp]; rfl) rfl hop
  | cancelSlot hp hop => exact hrelease _ (by rw [hp]; rfl) rfl hop
  | pollReturns limit requests hp hle hop => exact hrelease _ (by rw [hp]; rfl) rfl hop
  | pollExceeds limit requests hp hlt hop => exact hrelease _ (by rw [hp]; rfl) rfl hop
  | pollRaises limit exc hp hop =>
      exact hrelease _ (by rw [hp]; rfl) (future_pollFailed a exc) hop
  | taskEnds i t outcome ht hl => exact hold
  | callback i t ht hl hc hop =>
      obtain ⟨_, _, hserved⟩ := of_eq_some (release_spec H.queued 1) hop
      rw [(keeps_of_served hserved k).awaited id]
      exact hold
  | cancel hp =>
      refine hstay ?_
      rcases hp with hp | hp | hp <;> rw [hp] <;> rfl
  | collectFull completed hp hc hok hle => exact hstay (by rw [hp]; rfl)
  | collectRaises completed hp hc hany => exact hstay (by rw [hp]; rfl)
  | taskDone t hp ht htracked hl => exact hstay (by rw [hp]; rfl)
  | enterSlot hp => exact hstay (by rw [hp]; rfl)
  | wake hp => exact hstay (by rw [hp]; rfl)
  | gathered hp hall => exact hstay (by rw [hp]; rfl)
  | gatherRaises t hp ht => exact hstay (by rw [hp]; rfl)
  | drained hp hall => exact hstay (by rw [hp]; rfl)

/-- The loop has its permit once it has resumed without a stop event. -/
theorem step_granted (H : Inv (options k).maxConcurrency k b a) (h : Act py options k b a b' a')
    (future : ℕ) (hf : a'.phase = .settling future (some false)) :
    b'.futures[future]? = some ⟨k, .granted⟩ := by
  have hnone : a'.phase.future ≠ none := by
    rw [hf]
    simp [AsyncPhase.future]
  cases h with
  | leave hp => exact absurd (future_left a) hnone
  | stopped id hp hop => exact absurd (future_left a) hnone
  | pollRaises limit exc hp hop => exact absurd (future_pollFailed a exc) hnone
  | resume id stopDone hp hdone =>
      simp only [AsyncPhase.settling.injEq, Option.some.injEq] at hf
      obtain ⟨rfl, rfl⟩ := hf
      have hgranted : b.stateOf id = some .granted := by simpa using hdone
      have hawaited := (H.awaited id).mpr (by rw [hp]; rfl)
      rcases hawaited with hpending | h
      · simp [stateOf, hpending] at hgranted
      · exact h
  | taskEnds i t outcome ht hl => exact H.granted future hf
  | callback i t ht hl hc hop =>
      obtain ⟨_, _, hserved⟩ := of_eq_some (release_spec H.queued 1) hop
      exact (keeps_of_served hserved k).granted future (H.granted future hf)
  | _ => cases hf

/-- A step keeps the invariant of the loop that takes it. -/
theorem step_inv (H : Inv (options k).maxConcurrency k b a) (h : Act py options k b a b' a') :
    Inv (options k).maxConcurrency k b' a' :=
  ⟨(step_store H h).1, step_sound H h, step_awaited H h, step_granted H h⟩

end Step

/-- No loop disturbs another. -/
theorem guarded (py : Interpreter) (options : ι → WorkerOptions) :
    Crew.Guarded (Act py options) fun k b a => Inv (options k).maxConcurrency k b a := by
  refine ⟨fun _ _ _ _ _ H h => step_inv H h, fun k j b a b' a' o hne Hk Hj h => ?_⟩
  obtain ⟨hq, hkeeps⟩ := step_store Hk h
  have hkept := hkeeps j hne
  exact ⟨hq, Hj.sound, fun id => (hkept.awaited id).trans (Hj.awaited id),
    fun future hf => hkept.granted future (Hj.granted future hf)⟩

/-- Loops that have not started yet, on a fresh budget. -/
def start (ι : Type u) (capacity : ℕ) : Crew ι (AsyncRequestBudget ι) AsyncWorker :=
  ⟨.new capacity, fun _ => {}⟩

theorem inv_start (capacity max : ℕ) (k : ι) :
    Inv max k (AsyncRequestBudget.new capacity) {} where
  queued := ⟨by simp [AsyncRequestBudget.new], by simp [AsyncRequestBudget.new]⟩
  sound := ⟨by simp, rfl, by simp, fun i t h => by simp at h, fun h => by cases h⟩
  awaited id := by simp [Awaited, AsyncRequestBudget.new, AsyncPhase.future]
  granted _ h := by cases h

section Run
variable [DecidableEq ι] {py : Interpreter} {options : ι → WorkerOptions} {capacity : ℕ}
  {c : Crew ι (AsyncRequestBudget ι) AsyncWorker}

theorem reachable_inv (h : Crew.Reachable (Act py options) (start ι capacity) c) (k : ι) :
    Inv (options k).maxConcurrency k c.store (c.agent k) :=
  (guarded py options).reachable (fun k => inv_start capacity (options k).maxConcurrency k) h k

/-- **Conservation.** In every run, the permits on the counter, those on their way to an `acquire`
and those of the loops add up to the capacity. -/
theorem reachable_permits [Fintype ι]
    (h : Crew.Reachable (Act py options) (start ι capacity) c) :
    c.store.stock + ∑ k, (c.agent k).permits = capacity := by
  have := Crew.Reachable.conserved (guarded py options)
    (fun k => inv_start capacity (options k).maxConcurrency k) AsyncRequestBudget.stock permits
    (fun k s a s' a' H hact => step_permits H hact) h
  simpa [start, AsyncRequestBudget.new, stock, handed, permits] using this

end Run

/-- A loop that has finished and whose callbacks have run holds no permit. -/
theorem permits_eq_zero {max : ℕ} {a : AsyncWorker} (H : Sound max a) (hf : a.phase = .finished)
    (hc : ∀ t ∈ a.tasks, t.callback = false) : a.permits = 0 := by
  have hreserved : a.reserved = 0 := by simpa only [Room, hf] using H.room
  have howing : a.tasks.countP Task.owing = 0 := by
    refine List.countP_eq_zero.mpr fun t ht how => ?_
    obtain ⟨i, hi⟩ := List.getElem?_of_mem ht
    have := H.owed i t hi
    rw [hc t ht] at this
    simp [Task.owing, ← this] at how
  simp [permits, hreserved, howing]

/-- When no loop is in `acquire`, no permit is on its way to one. -/
theorem handed_eq_zero {b : AsyncRequestBudget ι} {agent : ι → AsyncWorker} {max : ι → ℕ}
    (H : ∀ k, Inv (max k) k b (agent k)) (hf : ∀ k, (agent k).phase = .finished) :
    b.handed = 0 := by
  refine List.countP_eq_zero.mpr fun f hmem hgranted => ?_
  obtain ⟨id, hid⟩ := List.getElem?_of_mem hmem
  obtain ⟨owner, state⟩ := f
  obtain rfl : state = .granted := by simpa [Future.isGranted] using hgranted
  have hawaited := ((H owner).awaited id).mp (.inr hid)
  rw [hf owner] at hawaited
  cases hawaited

end AsyncWorker
end UcloudSandboxes.Relay
