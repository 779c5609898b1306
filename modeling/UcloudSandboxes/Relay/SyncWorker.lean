import UcloudSandboxes.Lib.Crew
import UcloudSandboxes.Relay.Admission
import UcloudSandboxes.Relay.Worker

/-!
# The sync worker loop

`_run_sync_worker` as a step relation. Any number of loops, each on a thread of its own and with
threads for its request tasks, share one `SyncRequestBudget`. A step is what one of these threads
does between two points where the others can notice: a critical section of the budget, the end of a
task, or a change of the loop's own variables.

What a loop reads from its stop event, which the caller may share between loops and may set and
clear at any time, is left open in the steps that read it, and so are the answers to its polls, the
outcomes of its tasks and the order of all steps.

## Main results

* `SyncWorker.Inv`: what holds of a loop at every step.
* `SyncWorker.step_inv`, `SyncWorker.step_permits`: a step keeps it, and moves permits only between
  the budget, the loop and its tasks.
-/
namespace UcloudSandboxes.Relay
open Lib Python

universe u

/-- Where a sync loop stands. -/
inductive SyncPhase
  /-- At the head of the loop. -/
  | top
  /-- About to call `acquire`. -/
  | entering
  /-- In `acquire`, waiting for the condition. -/
  | waiting
  /-- A poll is under way. -/
  | polling (limit : ℕ)
  /-- In the loop over the requests of a poll. -/
  | dispatching (requests : List RelayRequest)
  /-- `submit` returned this task, which has no done callback yet. -/
  | registering (task : ℕ) (requests : List RelayRequest)
  /-- After the loop, waiting for the tasks one by one. -/
  | joining
  /-- Leaving the executor's block, normally or with an exception: its shutdown waits for every
  task. -/
  | closing
  /-- Returned or raised. -/
  | finished

structure SyncWorker where
  phase : SyncPhase := .top
  reserved : ℕ := 0
  pollErrors : ℕ := 0
  tasks : List Task := []

namespace SyncWorker

/-- What follows a pass through `acquire`. -/
def admitted (a : SyncWorker) : Option ℕ → SyncWorker
  | none => { a with phase := .waiting }
  | some 0 => { a with phase := .joining }
  | some (n + 1) => { a with phase := .polling (n + 1), reserved := n + 1 }

@[simp] theorem tasks_admitted (a : SyncWorker) (granted : Option ℕ) :
    (admitted a granted).tasks = a.tasks := by
  rcases granted with _ | _ | n <;> rfl

theorem phase_admitted_ne_finished (a : SyncWorker) (granted : Option ℕ) :
    (admitted a granted).phase ≠ .finished := by
  rcases granted with _ | _ | n <;> simp [admitted]

/-- What follows a poll that raised, once its permit is back. -/
def pollFailed (py : Interpreter) (options : WorkerOptions) (a : SyncWorker) : Raised → SyncWorker
  | .api exc =>
      { a with
        phase := if retriesPoll py options exc (a.pollErrors + 1) then .top else .closing
        reserved := 0
        pollErrors := a.pollErrors + 1 }
  | _ => { a with phase := .closing, reserved := 0 }

variable {ι : Type u} [DecidableEq ι]

/-- One step of loop `k`, of one of its tasks, or of a done callback. -/
inductive Act (py : Interpreter) (options : ι → WorkerOptions) :
    Crew.Local ι (SyncRequestBudget ι) SyncWorker
  | leave {k b a} : a.phase = .top → Act py options k b a b { a with phase := .joining }
  | collect {k b a} (completed : ℕ → Bool) : a.phase = .top → Completed completed a.tasks →
      ¬ AnyFailed completed a.tasks →
      Act py options k b a b
        { a with
          tasks := collectTasks completed a.tasks
          phase :=
            if (options k).maxConcurrency ≤ (collectTasks completed a.tasks).countP Task.tracked
            then .top else .entering }
  | collectRaises {k b a} (completed : ℕ → Bool) : a.phase = .top →
      Completed completed a.tasks → AnyFailed completed a.tasks →
      Act py options k b a b
        { a with tasks := collectTasks completed a.tasks, phase := .closing }
  | enter {k b a} (stopSet : Bool) : a.phase = .entering →
      Act py options k b a ((b.enter k).attempt k stopSet).2
        (a.admitted ((b.enter k).attempt k stopSet).1)
  | wake {k b a} (stopSet : Bool) : a.phase = .waiting →
      Act py options k b a (b.attempt k stopSet).2 (a.admitted (b.attempt k stopSet).1)
  | pollReturns {k b a} (limit : ℕ) (requests : List RelayRequest) : a.phase = .polling limit →
      requests.length ≤ a.reserved →
      Act py options k b a b { a with phase := .dispatching requests, pollErrors := 0 }
  | pollExceeds {k b a} (limit : ℕ) (requests : List RelayRequest) : a.phase = .polling limit →
      a.reserved < requests.length →
      Act py options k b a (b.release a.reserved)
        { a with phase := .closing, pollErrors := 0, reserved := 0 }
  | pollRaises {k b a} (limit : ℕ) (exc : Raised) : a.phase = .polling limit →
      Act py options k b a (b.release a.reserved) (a.pollFailed py (options k) exc)
  | submit {k b a} (request : RelayRequest) (requests : List RelayRequest) :
      a.phase = .dispatching (request :: requests) →
      Act py options k b a b
        { a with
          phase := .registering a.tasks.length requests
          reserved := a.reserved - 1
          tasks := a.tasks ++ [{ request }] }
  /-- The executor refuses: the interpreter is shutting down. -/
  | submitRaises {k b a} (request : RelayRequest) (requests : List RelayRequest) :
      a.phase = .dispatching (request :: requests) →
      Act py options k b a (b.release a.reserved) { a with phase := .closing, reserved := 0 }
  | register {k b a} (i : ℕ) (t : Task) (requests : List RelayRequest) :
      a.phase = .registering i requests → a.tasks[i]? = some t → t.live = true →
      Act py options k b a b
        { a with
          phase := .dispatching requests
          tasks := a.tasks.set i { t with callback := true, tracked := true } }
  /-- The task has ended before its callback is added, which then runs at once. -/
  | registerEnded {k b a} (i : ℕ) (t : Task) (requests : List RelayRequest) :
      a.phase = .registering i requests → a.tasks[i]? = some t → t.live = false →
      Act py options k b a (b.release 1)
        { a with
          phase := .dispatching requests
          tasks := a.tasks.set i { t with released := true, tracked := true } }
  | dispatched {k b a} : a.phase = .dispatching [] →
      Act py options k b a (b.release a.reserved) { a with phase := .top, reserved := 0 }
  | taskEnds {k b a} (i : ℕ) (t : Task) (outcome : Option Raised) : a.tasks[i]? = some t →
      t.live = true →
      Act py options k b a b { a with tasks := a.tasks.set i { t with ended := some outcome } }
  | callback {k b a} (i : ℕ) (t : Task) : a.tasks[i]? = some t → t.live = false →
      t.callback = true →
      Act py options k b a (b.release 1)
        { a with tasks := a.tasks.set i { t with callback := false, released := true } }
  | join {k b a} : a.phase = .joining → (∀ t ∈ a.tasks, t.tracked = true → t.live = false) →
      Act py options k b a b { a with phase := .closing }
  | joinRaises {k b a} (t : Task) : a.phase = .joining → t ∈ a.tasks → t.tracked = true →
      t.failed = true → Act py options k b a b { a with phase := .closing }
  | close {k b a} : a.phase = .closing → (∀ t ∈ a.tasks, t.live = false) →
      Act py options k b a b { a with phase := .finished }

/-- The permits a loop accounts for: those reserved for its poll, and one for every request task
that has not released its own. -/
def permits (a : SyncWorker) : ℕ := a.reserved + a.tasks.countP Task.owing

/-- Room for tasks, by phase, in a loop with room for `max`. -/
def Room (max : ℕ) (a : SyncWorker) : Prop :=
  match a.phase with
  | .entering | .waiting => a.reserved = 0 ∧ a.tasks.countP Task.tracked < max
  | .polling limit =>
      limit = a.reserved ∧ a.reserved = 1 ∧ a.tasks.countP Task.tracked < max
  | .dispatching requests =>
      requests.length ≤ a.reserved ∧ a.tasks.countP Task.tracked + a.reserved ≤ max
  | .registering _ requests =>
      requests.length ≤ a.reserved ∧ a.tasks.countP Task.tracked + 1 + a.reserved ≤ max
  | .top | .joining | .closing | .finished => a.reserved = 0

/-- No task runs outside the loop's set, except one that was just submitted. -/
def Strays (a : SyncWorker) : Prop :=
  match a.phase with
  | .registering i _ => ∃ t, a.tasks[i]? = some t ∧ t.tracked = false ∧ t.released = false ∧
      t.callback = false ∧ a.tasks.countP Task.stray = tally t.stray
  | _ => a.tasks.countP Task.stray = 0

/-- The task that is being registered. -/
theorem Strays.registering {a : SyncWorker} (H : Strays a) {i : ℕ} {requests : List RelayRequest}
    (hp : a.phase = .registering i requests) {t : Task} (ht : a.tasks[i]? = some t) :
    t.tracked = false ∧ t.released = false ∧ t.callback = false ∧
      a.tasks.countP Task.stray = tally t.stray := by
  simp only [Strays, hp] at H
  obtain ⟨t', ht', h⟩ := H
  obtain rfl : t = t' := Option.some.inj (ht.symm.trans ht')
  exact h

/-- A task keeps its permit until its callback runs. -/
def Owed (a : SyncWorker) : Prop :=
  ∀ i t, a.tasks[i]? = some t →
    (t.callback = true → t.released = false) ∧
      (t.released = false → t.callback = true ∨ ∃ requests, a.phase = .registering i requests)

/-- What holds of a loop at every step. -/
structure Inv (max : ℕ) (a : SyncWorker) : Prop where
  live_le : a.tasks.countP Task.live ≤ max
  room : Room max a
  strays : Strays a
  owed : Owed a
  ended : a.phase = .finished → ∀ t ∈ a.tasks, t.live = false

/-- A step moves permits only between the budget, the loop and its tasks. -/
theorem step_permits {py : Interpreter} {options : ι → WorkerOptions} {k : ι}
    {b b' : SyncRequestBudget ι} {a a' : SyncWorker} (H : Inv (options k).maxConcurrency a)
    (h : Act py options k b a b' a') :
    b'.available + a'.permits = b.available + a.permits := by
  have hroom := H.room
  have hstrays := H.strays
  simp only [Room] at hroom
  simp only [Strays] at hstrays
  cases h with
  | leave hp => rfl
  | collect completed hp hc => simp [permits, countP_owing_collect]
  | collectRaises completed hp hc => simp [permits, countP_owing_collect]
  | enter stopSet hp =>
      rw [hp] at hroom
      rcases (b.enter k).attempt_cases k stopSet with ⟨h₁, h₂⟩ | ⟨h₁, h₂⟩ | ⟨h₁, h₂⟩ <;>
        simp [h₁, admitted, permits] at h₂ ⊢ <;> omega
  | wake stopSet hp =>
      rw [hp] at hroom
      rcases b.attempt_cases k stopSet with ⟨h₁, h₂⟩ | ⟨h₁, h₂⟩ | ⟨h₁, h₂⟩ <;>
        simp [h₁, admitted, permits] at h₂ ⊢ <;> omega
  | pollReturns limit requests hp hle => rfl
  | pollExceeds limit requests hp hlt => simp [permits]; omega
  | pollRaises limit exc hp => cases exc <;> simp [permits, pollFailed] <;> omega
  | submit request requests hp =>
      rw [hp] at hroom
      simp only [List.length_cons] at hroom
      simp [permits, Task.owing]
      omega
  | submitRaises request requests hp => simp [permits]; omega
  | register i t requests hp ht hl =>
      have := countP_set_add Task.owing ht { t with callback := true, tracked := true }
      simp only [Task.owing] at this
      simp only [permits]
      omega
  | registerEnded i t requests hp ht hl =>
      have hreleased := (H.strays.registering hp ht).2.1
      have := countP_set_add Task.owing ht { t with released := true, tracked := true }
      simp [Task.owing, hreleased] at this
      simp [permits]
      omega
  | dispatched hp => simp [permits]; omega
  | taskEnds i t outcome ht hl =>
      have := countP_set_add Task.owing ht { t with ended := some outcome }
      simp only [Task.owing] at this
      simp only [permits]
      omega
  | callback i t ht hl hc =>
      have hreleased : t.released = false := (H.owed i t ht).1 hc
      have := countP_set_add Task.owing ht { t with callback := false, released := true }
      simp [Task.owing, hreleased] at this
      simp [permits]
      omega
  | join hp hall => rfl
  | joinRaises t hp ht => rfl
  | close hp hall => rfl

section Step
variable {py : Interpreter} {options : ι → WorkerOptions} {k : ι} {b b' : SyncRequestBudget ι}
  {a a' : SyncWorker}

/-- Only `submit` starts a task, and it has room for it. -/
theorem step_live (H : Inv (options k).maxConcurrency a) (h : Act py options k b a b' a') :
    a'.tasks.countP Task.live ≤ (options k).maxConcurrency := by
  have hlive := H.live_le
  have hroom := H.room
  have hstrays := H.strays
  simp only [Room] at hroom
  simp only [Strays] at hstrays
  cases h with
  | collect completed hp hc => simpa [countP_live_collect] using hlive
  | collectRaises completed hp hc => simpa [countP_live_collect] using hlive
  | enter stopSet hp => simpa using hlive
  | wake stopSet hp => simpa using hlive
  | pollRaises limit exc hp => cases exc <;> exact hlive
  | submit request requests hp =>
      rw [hp] at hroom hstrays
      simp only [List.length_cons] at hroom
      have := countP_live_le a.tasks
      simp only [countP_snoc, Task.live, Option.isNone_none, tally_true] at this ⊢
      omega
  | register i t requests hp ht hl =>
      have := countP_set_add Task.live ht { t with callback := true, tracked := true }
      simp only [Task.live] at this hlive ⊢
      omega
  | registerEnded i t requests hp ht hl =>
      have := countP_set_add Task.live ht { t with released := true, tracked := true }
      simp only [Task.live] at this hlive ⊢
      omega
  | taskEnds i t outcome ht hl =>
      have := countP_set_add Task.live ht { t with ended := some outcome }
      rw [hl] at this
      simp only [Task.live, Option.isNone_some, tally_true, tally_false] at this hlive ⊢
      omega
  | callback i t ht hl hc =>
      have := countP_set_add Task.live ht { t with callback := false, released := true }
      simp only [Task.live] at this hlive ⊢
      omega
  | _ => exact hlive

theorem step_room (H : Inv (options k).maxConcurrency a) (h : Act py options k b a b' a') :
    Room (options k).maxConcurrency a' := by
  have hroom := H.room
  cases h with
  | leave hp => simpa [Room, hp] using hroom
  | collect completed hp hc hok =>
      have hzero : a.reserved = 0 := by simpa [Room, hp] using hroom
      by_cases hfull : (options k).maxConcurrency ≤
          (collectTasks completed a.tasks).countP Task.tracked
      · simp [Room, hfull, hzero]
      · simp only [Room, hfull, if_false]
        omega
  | collectRaises completed hp hc hok => simpa [Room, hp] using hroom
  | enter stopSet hp =>
      simp only [Room, hp] at hroom
      rcases (b.enter k).attempt_cases k stopSet with ⟨h₁, _⟩ | ⟨h₁, _⟩ | ⟨h₁, _⟩ <;>
        simp [h₁, admitted, Room, hroom]
  | wake stopSet hp =>
      simp only [Room, hp] at hroom
      rcases b.attempt_cases k stopSet with ⟨h₁, _⟩ | ⟨h₁, _⟩ | ⟨h₁, _⟩ <;>
        simp [h₁, admitted, Room, hroom]
  | pollReturns limit requests hp hle =>
      simp only [Room, hp] at hroom ⊢
      omega
  | pollExceeds limit requests hp hlt => rfl
  | pollRaises limit exc hp =>
      cases exc with
      | api exc =>
          by_cases hr : retriesPoll py (options k) exc (a.pollErrors + 1) = true <;>
            simp [Room, pollFailed, hr]
      | _ => rfl
  | submit request requests hp =>
      simp only [Room, hp, List.length_cons] at hroom
      simp only [Room, countP_snoc, tally_false]
      omega
  | submitRaises request requests hp => rfl
  | register i t requests hp ht hl =>
      have := countP_set_add Task.tracked ht { t with callback := true, tracked := true }
      simp only [Room, hp, tally_true] at hroom this ⊢
      omega
  | registerEnded i t requests hp ht hl =>
      have := countP_set_add Task.tracked ht { t with released := true, tracked := true }
      simp only [Room, hp, tally_true] at hroom this ⊢
      omega
  | dispatched hp => rfl
  | taskEnds i t outcome ht hl =>
      have := countP_set_add Task.tracked ht { t with ended := some outcome }
      have heq : (a.tasks.set i { t with ended := some outcome }).countP Task.tracked =
          a.tasks.countP Task.tracked := by simpa using this
      simpa only [Room, heq] using hroom
  | callback i t ht hl hc =>
      have := countP_set_add Task.tracked ht { t with callback := false, released := true }
      have heq : (a.tasks.set i { t with callback := false, released := true }).countP
          Task.tracked = a.tasks.countP Task.tracked := by simpa using this
      simpa only [Room, heq] using hroom
  | join hp hall => simpa [Room, hp] using hroom
  | joinRaises t hp ht => simpa [Room, hp] using hroom
  | close hp hall => simpa [Room, hp] using hroom

/-- Overwriting a task that does not become stray, and is not the one being registered. -/
theorem strays_set (H : Strays a) {i : ℕ} {t : Task} (ht : a.tasks[i]? = some t) (t₁ : Task)
    (hstray : t₁.stray = true → t.stray = true)
    (hsame : ∀ requests, a.phase = .registering i requests →
      t₁.tracked = t.tracked ∧ t₁.released = t.released ∧ t₁.callback = t.callback) :
    Strays { a with tasks := a.tasks.set i t₁ } := by
  have hcount := countP_set_add Task.stray ht t₁
  have hle : tally t₁.stray ≤ tally t.stray := by
    cases h : t₁.stray
    · simp
    · simp [hstray h]
  unfold Strays at H ⊢
  split at H
  · rename_i j requests hp
    obtain ⟨t', ht', htracked, hreleased, hcallback, hone⟩ := H
    rw [hp]
    by_cases hij : i = j
    · subst hij
      obtain rfl : t = t' := Option.some.inj (ht.symm.trans ht')
      obtain ⟨h₁, h₂, h₃⟩ := hsame requests hp
      have hset : (a.tasks.set i t₁)[i]? = some t₁ := by
        simp [(List.getElem?_eq_some_iff.mp ht).1]
      refine ⟨t₁, hset, h₁ ▸ htracked, h₂ ▸ hreleased, h₃ ▸ hcallback, ?_⟩
      change (a.tasks.set i t₁).countP Task.stray = tally t₁.stray
      omega
    · have hother : (a.tasks.set i t₁)[j]? = some t' := by rwa [List.getElem?_set_ne hij]
      have := tally_le_countP Task.stray hother
      refine ⟨t', hother, htracked, hreleased, hcallback, ?_⟩
      change (a.tasks.set i t₁).countP Task.stray = tally t'.stray
      omega
  · change (a.tasks.set i t₁).countP Task.stray = 0
    omega

theorem strays_admitted (h : a.tasks.countP Task.stray = 0) (granted : Option ℕ) :
    Strays (admitted a granted) := by
  rcases granted with _ | _ | n <;> exact h

theorem step_strays (H : Inv (options k).maxConcurrency a) (h : Act py options k b a b' a') :
    Strays a' := by
  have hstrays := H.strays
  cases h with
  | leave hp => simpa [Strays, hp] using hstrays
  | collect completed hp hc hok =>
      have hzero : (collectTasks completed a.tasks).countP Task.stray = 0 := by
        rw [countP_stray_collect completed a.tasks hc]
        simpa only [Strays, hp] using hstrays
      by_cases hfull : (options k).maxConcurrency ≤
          (collectTasks completed a.tasks).countP Task.tracked <;>
        simpa only [Strays, hfull, if_true, if_false] using hzero
  | collectRaises completed hp hc hok =>
      simp only [Strays, hp] at hstrays ⊢
      rwa [countP_stray_collect completed a.tasks hc]
  | enter stopSet hp =>
      simp only [Strays, hp] at hstrays
      exact strays_admitted hstrays _
  | wake stopSet hp =>
      simp only [Strays, hp] at hstrays
      exact strays_admitted hstrays _
  | pollReturns limit requests hp hle => simpa only [Strays, hp] using hstrays
  | pollExceeds limit requests hp hlt => simpa only [Strays, hp] using hstrays
  | pollRaises limit exc hp =>
      simp only [Strays, hp] at hstrays
      cases exc with
      | api exc =>
          by_cases hr : retriesPoll py (options k) exc (a.pollErrors + 1) = true <;>
            simpa [Strays, pollFailed, hr] using hstrays
      | _ => exact hstrays
  | submit request requests hp =>
      simp only [Strays, hp] at hstrays ⊢
      exact ⟨{ request }, by simp, rfl, rfl, rfl, by rw [countP_snoc, hstrays, Nat.zero_add]⟩
  | submitRaises request requests hp => simpa only [Strays, hp] using hstrays
  | register i t requests hp ht hl =>
      have hcount := (hstrays.registering hp ht).2.2.2
      have := countP_set_add Task.stray ht { t with callback := true, tracked := true }
      rw [Task.stray_of_tracked (t := { t with callback := true, tracked := true }) rfl] at this
      simp only [Strays, tally_false] at this ⊢
      omega
  | registerEnded i t requests hp ht hl =>
      have hcount := (hstrays.registering hp ht).2.2.2
      have := countP_set_add Task.stray ht { t with released := true, tracked := true }
      rw [Task.stray_of_tracked (t := { t with released := true, tracked := true }) rfl] at this
      simp only [Strays, tally_false] at this ⊢
      omega
  | dispatched hp => simpa only [Strays, hp] using hstrays
  | taskEnds i t outcome ht hl =>
      refine strays_set hstrays ht _ (fun h => ?_) fun _ _ => ⟨rfl, rfl, rfl⟩
      rw [Task.stray_of_not_live rfl] at h
      cases h
  | callback i t ht hl hc =>
      refine strays_set hstrays ht _ (fun h => h) fun requests hp => ?_
      have hcallback := (hstrays.registering hp ht).2.2.1
      rw [hc] at hcallback
      cases hcallback
  | join hp hall => simpa only [Strays, hp] using hstrays
  | joinRaises t hp ht => simpa only [Strays, hp] using hstrays
  | close hp hall => simpa only [Strays, hp] using hstrays

/-- Entries keep `Owed` when the phase changes away from no registration. -/
theorem owed_of_phase (H : Owed a) (hp : ∀ i requests, a.phase ≠ .registering i requests)
    {a₁ : SyncWorker} (htasks : a₁.tasks = a.tasks) : Owed a₁ := by
  intro i t ht
  rw [htasks] at ht
  obtain ⟨h₁, h₂⟩ := H i t ht
  refine ⟨h₁, fun h => ?_⟩
  rcases h₂ h with hc | ⟨requests, hreg⟩
  · exact .inl hc
  · exact absurd hreg (hp i requests)

theorem step_owed (H : Inv (options k).maxConcurrency a) (h : Act py options k b a b' a') :
    Owed a' := by
  have howed := H.owed
  have hcollect : ∀ completed, a.phase = .top → ∀ p, Owed
      { a with tasks := collectTasks completed a.tasks, phase := p } := by
    intro completed hp p i t' ht'
    obtain ⟨t, ht, hcallback, hreleased, _⟩ := getElem?_collect completed a.tasks ht'
    rw [hcallback, hreleased]
    refine ⟨(howed i t ht).1, fun h => ?_⟩
    rcases (howed i t ht).2 h with hc | ⟨requests, hreg⟩
    · exact .inl hc
    · rw [hp] at hreg
      cases hreg
  cases h with
  | leave hp => exact owed_of_phase howed (by simp [hp]) rfl
  | collect completed hp hc hok => exact hcollect completed hp _
  | collectRaises completed hp hc hok => exact hcollect completed hp _
  | enter stopSet hp => exact owed_of_phase howed (by simp [hp]) (tasks_admitted a _)
  | wake stopSet hp => exact owed_of_phase howed (by simp [hp]) (tasks_admitted a _)
  | pollReturns limit requests hp hle => exact owed_of_phase howed (by simp [hp]) rfl
  | pollExceeds limit requests hp hlt => exact owed_of_phase howed (by simp [hp]) rfl
  | pollRaises limit exc hp =>
      refine owed_of_phase howed (by simp [hp]) ?_
      cases exc <;> rfl
  | submit request requests hp =>
      refine forall_snoc (fun j t ht => ?_) ⟨by simp, fun _ => .inr ⟨requests, rfl⟩⟩
      refine ⟨(howed j t ht).1, fun h => ?_⟩
      rcases (howed j t ht).2 h with hc | ⟨requests', hreg⟩
      · exact .inl hc
      · rw [hp] at hreg
        cases hreg
  | submitRaises request requests hp => exact owed_of_phase howed (by simp [hp]) rfl
  | register i t requests hp ht hl =>
      have hreleased := (H.strays.registering hp ht).2.1
      refine forall_set (fun j u hj hu => ⟨(howed j u hu).1, fun h => ?_⟩)
        ⟨fun _ => hreleased, fun _ => .inl rfl⟩
      rcases (howed j u hu).2 h with hc | ⟨requests', hreg⟩
      · exact .inl hc
      · rw [hp] at hreg
        cases hreg
        exact absurd rfl hj
  | registerEnded i t requests hp ht hl =>
      have hcallback := (H.strays.registering hp ht).2.2.1
      refine forall_set (fun j u hj hu => ⟨(howed j u hu).1, fun h => ?_⟩)
        ⟨fun h => by simp [hcallback] at h, fun h => by simp at h⟩
      rcases (howed j u hu).2 h with hc | ⟨requests', hreg⟩
      · exact .inl hc
      · rw [hp] at hreg
        cases hreg
        exact absurd rfl hj
  | dispatched hp => exact owed_of_phase howed (by simp [hp]) rfl
  | taskEnds i t outcome ht hl => exact forall_set (fun j u _ hu => howed j u hu) (howed i t ht)
  | callback i t ht hl hc =>
      exact forall_set (fun j u _ hu => howed j u hu) ⟨fun h => by simp at h, fun h => by simp at h⟩
  | join hp hall => exact owed_of_phase howed (by simp [hp]) rfl
  | joinRaises t hp ht => exact owed_of_phase howed (by simp [hp]) rfl
  | close hp hall => exact owed_of_phase howed (by simp [hp]) rfl

theorem step_ended (H : Inv (options k).maxConcurrency a) (h : Act py options k b a b' a')
    (hf : a'.phase = .finished) : ∀ t ∈ a'.tasks, t.live = false := by
  cases h with
  | collect completed hp hc hok =>
      simp only at hf
      split at hf <;> cases hf
  | enter stopSet hp => exact absurd hf (phase_admitted_ne_finished a _)
  | wake stopSet hp => exact absurd hf (phase_admitted_ne_finished a _)
  | pollRaises limit exc hp =>
      cases exc with
      | api exc =>
          simp only [pollFailed] at hf
          split at hf <;> cases hf
      | _ => cases hf
  | taskEnds i t outcome ht hl =>
      have := H.ended hf t (List.mem_of_getElem? ht)
      rw [hl] at this
      cases this
  | callback i t ht hl hc =>
      intro u hu
      rcases List.mem_or_eq_of_mem_set hu with hu | rfl
      · exact H.ended hf u hu
      · exact hl
  | close hp hall => exact hall
  | _ => cases hf

/-- A step keeps the invariant of the loop that takes it. -/
theorem step_inv (H : Inv (options k).maxConcurrency a) (h : Act py options k b a b' a') :
    Inv (options k).maxConcurrency a' :=
  ⟨step_live H h, step_room H h, step_strays H h, step_owed H h, step_ended H h⟩

end Step

theorem guarded (py : Interpreter) (options : ι → WorkerOptions) :
    Crew.Guarded (Act py options) fun k (_ : SyncRequestBudget ι) a =>
      Inv (options k).maxConcurrency a :=
  ⟨fun _ _ _ _ _ H h => step_inv H h, fun _ _ _ _ _ _ _ _ _ H _ => H⟩

theorem inv_start (max : ℕ) : Inv max {} :=
  ⟨by simp, rfl, rfl, fun i t h => by simp at h, fun h => by cases h⟩

/-- Loops that have not started yet, on a fresh budget. -/
def start (ι : Type u) (capacity : ℕ) : Crew ι (SyncRequestBudget ι) SyncWorker :=
  ⟨.new capacity, fun _ => {}⟩

section Run
variable {py : Interpreter} {options : ι → WorkerOptions} {capacity : ℕ}
  {c : Crew ι (SyncRequestBudget ι) SyncWorker}

theorem reachable_inv (h : Crew.Reachable (Act py options) (start ι capacity) c) (k : ι) :
    Inv (options k).maxConcurrency (c.agent k) :=
  (guarded py options).reachable (fun k => inv_start (options k).maxConcurrency) h k

/-- **Conservation.** In every run, the permits on the counter and those of the loops add up to the
capacity. -/
theorem reachable_permits [Fintype ι]
    (h : Crew.Reachable (Act py options) (start ι capacity) c) :
    c.store.available + ∑ k, (c.agent k).permits = capacity := by
  have := Crew.Reachable.conserved (guarded py options)
    (fun k => inv_start (options k).maxConcurrency) SyncRequestBudget.available permits
    (fun k s a s' a' H hact => step_permits H hact) h
  simpa [start, SyncRequestBudget.new, permits] using this

end Run

/-- A loop that has finished and whose callbacks have run holds no permit. -/
theorem permits_eq_zero {max : ℕ} {a : SyncWorker} (H : Inv max a) (hf : a.phase = .finished)
    (hc : ∀ t ∈ a.tasks, t.callback = false) : a.permits = 0 := by
  have hreserved : a.reserved = 0 := by simpa only [Room, hf] using H.room
  have howing : a.tasks.countP Task.owing = 0 := by
    refine List.countP_eq_zero.mpr fun t ht how => ?_
    obtain ⟨i, hi⟩ := List.getElem?_of_mem ht
    have hreleased : t.released = false := by simpa [Task.owing] using how
    rcases (H.owed i t hi).2 hreleased with h | ⟨requests, h⟩
    · rw [hc t ht] at h
      cases h
    · rw [hf] at h
      cases h
  simp [permits, hreserved, howing]

end SyncWorker
end UcloudSandboxes.Relay
