import UcloudSandboxes.Lib.Count
import UcloudSandboxes.Relay.Request

/-!
# What both worker loops share

The options of a worker loop, its decision after a poll that failed, and the table of the request
tasks it started. The sync loop calls its tasks `futures`, the async loop `tasks`; entries are never
dropped from the table here, they are only no longer `tracked`.
-/
namespace UcloudSandboxes.Relay
open Lib Python Http

/-- The options that steer a worker loop; `_validate_worker_options` refuses a loop without room. -/
structure WorkerOptions where
  maxConcurrency : ℕ
  maxConsecutivePollErrors : ℤ
  positive : 0 < maxConcurrency

/-- Whether the loop polls again after a `RelayApiError`. It raises when the error is not retryable,
after too many failures in a row, and when the delay cannot be computed. -/
def retriesPoll (py : Interpreter) (options : WorkerOptions) (exc : ApiError) (pollErrors : ℕ) :
    Bool :=
  relayErrorIsRetryable exc && decide ((pollErrors : ℤ) < max 1 options.maxConsecutivePollErrors) &&
    (relayRetryDelay py exc pollErrors).toBool

/-- A request task. -/
structure Task where
  request : RelayRequest
  /-- How the task ended, if it has: normally, or with an exception. -/
  ended : Option (Option Raised) := none
  /-- The loop still holds the task in its set. -/
  tracked : Bool := false
  /-- The done callback is registered and has not run. -/
  callback : Bool := false
  /-- The task's permit is back in the budget. -/
  released : Bool := false

namespace Task

def live (t : Task) : Bool := t.ended.isNone
def owing (t : Task) : Bool := !t.released
/-- Still running and in no set. -/
def stray (t : Task) : Bool := t.live && !t.tracked
def failed (t : Task) : Bool :=
  match t.ended with
  | some (some _) => true
  | _ => false

theorem stray_of_tracked {t : Task} (h : t.tracked = true) : t.stray = false := by
  simp [stray, h]

theorem stray_of_not_live {t : Task} (h : t.live = false) : t.stray = false := by
  simp [stray, h]

end Task

/-- Every live task is tracked or stray. -/
theorem countP_live_le (tasks : List Task) :
    tasks.countP Task.live ≤ tasks.countP Task.tracked + tasks.countP Task.stray := by
  induction tasks with
  | nil => simp
  | cons t tasks ih =>
      cases hl : t.live <;> cases ht : t.tracked <;>
        simp [Task.stray, hl, ht] <;> omega

/-- The tasks the loop found done leave its set. -/
def collectTasks (completed : ℕ → Bool) (tasks : List Task) : List Task :=
  tasks.mapIdx fun i t => if completed i then { t with tracked := false } else t

/-- `completed` holds tracked tasks that have ended. -/
def Completed (completed : ℕ → Bool) (tasks : List Task) : Prop :=
  ∀ i t, tasks[i]? = some t → completed i = true → t.tracked = true ∧ t.ended.isSome = true

/-- Some task in `completed` ended with an exception. -/
def AnyFailed (completed : ℕ → Bool) (tasks : List Task) : Prop :=
  ∃ i t, tasks[i]? = some t ∧ completed i = true ∧ t.failed = true

section Collect
variable (completed : ℕ → Bool) (tasks : List Task)

theorem countP_live_collect :
    (collectTasks completed tasks).countP Task.live = tasks.countP Task.live :=
  countP_mapIdx_eq _ _ _ fun i t _ => by split <;> rfl

theorem countP_owing_collect :
    (collectTasks completed tasks).countP Task.owing = tasks.countP Task.owing :=
  countP_mapIdx_eq _ _ _ fun i t _ => by split <;> rfl

/-- Collecting ended tasks makes none stray. -/
theorem countP_stray_collect (h : Completed completed tasks) :
    (collectTasks completed tasks).countP Task.stray = tasks.countP Task.stray := by
  refine countP_mapIdx_eq _ _ _ fun i t hi => ?_
  split
  · rename_i hc
    obtain ⟨_, hended⟩ := h i t hi hc
    have hlive : t.live = false := by simpa [Task.live] using hended
    rw [Task.stray_of_not_live hlive, Task.stray_of_not_live (by exact hlive)]
  · rfl

/-- Where a collected task comes from. -/
theorem getElem?_collect {i : ℕ} {t' : Task} (h : (collectTasks completed tasks)[i]? = some t') :
    ∃ t, tasks[i]? = some t ∧ t'.callback = t.callback ∧ t'.released = t.released ∧
      t'.ended = t.ended := by
  simp only [collectTasks, List.getElem?_mapIdx, Option.map_eq_some_iff] at h
  obtain ⟨t, ht, rfl⟩ := h
  refine ⟨t, ht, ?_⟩
  split <;> exact ⟨rfl, rfl, rfl⟩

end Collect

/-- The tasks the async loop creates for the requests of one poll. -/
def startTasks (requests : List RelayRequest) : List Task :=
  requests.map fun request => { request, tracked := true, callback := true }

section Start
variable (requests : List RelayRequest)

@[simp] theorem countP_live_start : (startTasks requests).countP Task.live = requests.length := by
  simp [startTasks, Task.live]

@[simp] theorem countP_owing_start : (startTasks requests).countP Task.owing = requests.length := by
  simp [startTasks, List.countP_eq_length.mpr, Task.owing]

@[simp] theorem countP_stray_start : (startTasks requests).countP Task.stray = 0 := by
  simp [startTasks, List.countP_eq_zero, Task.stray]

end Start
end UcloudSandboxes.Relay
