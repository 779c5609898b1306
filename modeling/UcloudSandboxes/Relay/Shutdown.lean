import UcloudSandboxes.Relay.Handling
import UcloudSandboxes.Lib.Count

/-!
# How the async worker shuts down

`_run_async_worker` from the side of its exceptions: the loop, the request tasks it creates, the
renewer that each of them creates, and the cancellations that one passes to the other. A
cancellation from outside may arrive at every await of the worker.

What the loop polls, how a `try` block or a renewer ends, and the order of all steps are left open.
`asyncio.gather` is modelled by what it passes on: it waits for its children; cancelled, it cancels
them and still waits; without `return_exceptions` the first child that ends with an exception
decides what it raises.

## Main results

* `Shutdown.Reachable.complete`: when the worker is done, its tasks and their renewers are.
* `shutdown_faithful`: what it raises is what it observed first, and no task raised it while it was
  being cancelled, in every run in which the cancellation from outside does not meet a cleanup.
-/
namespace UcloudSandboxes.Relay
open Lib Python

/-! ## Request tasks -/

/-- How a task ends. -/
inductive TaskExit
  | returned
  | failed (exc : Raised)
  /-- With `CancelledError`. -/
  | cancelled

/-- The lease renewer of a request task. -/
inductive Renewer
  | absent
  | running
  | ended (exit : TaskExit)

/-- Where `_handle_async_request` stands. `interrupted` says that a cancellation arrived which will
be raised at the await that is left. -/
inductive RequestPhase
  /-- The task is created; its coroutine has not begun. -/
  | created
  /-- In the `try` block. -/
  | trying
  /-- In `except BaseException`, waiting for the cancelled renewer. -/
  | cleaning (exit : TaskExit) (interrupted : Bool)
  /-- In the `else` branch, waiting for the renewer. -/
  | joining (interrupted : Bool)
  | ended (exit : TaskExit)

/-- A request task and its renewer. -/
structure RequestTask where
  phase : RequestPhase := .created
  renewer : Renewer := .absent
  /-- `cancel` was called on the task before it ended. -/
  cancelling : Bool := false
  /-- The worker still holds the task in its set. -/
  tracked : Bool := true

namespace RequestTask

def isEnded (t : RequestTask) : Bool :=
  match t.phase with
  | .ended _ => true
  | _ => false

def renewerDone (t : RequestTask) : Bool :=
  match t.renewer with
  | .running => false
  | _ => true

/-- `task.cancel()`. In the `else` branch the cancellation goes to the renewer, unless that one is
done. -/
def cancel (t : RequestTask) : RequestTask :=
  match t.phase with
  | .ended _ => t
  | .created | .trying => { t with cancelling := true }
  | .cleaning exit _ => { t with cancelling := true, phase := .cleaning exit true }
  | .joining interrupted =>
      { t with cancelling := true, phase := .joining (interrupted || t.renewerDone) }

/-- What awaiting the renewer leads to. -/
def joined : TaskExit → TaskExit
  | .failed exc =>
      match RelayClient.afterRenewals (some exc) with
      | .ok _ => .returned
      | .error exc => .failed exc
  | exit => exit

/-- One step of the task or of its renewer. -/
inductive Step : RequestTask → RequestTask → Prop
  | start {t : RequestTask} : t.phase = .created → t.cancelling = false →
      Step t { t with phase := .trying, renewer := .running }
  | startCancelled {t : RequestTask} : t.phase = .created → t.cancelling = true →
      Step t { t with phase := .ended .cancelled }
  | returns {t : RequestTask} : t.phase = .trying → t.renewerDone = false →
      Step t { t with phase := .joining false }
  /-- The renewer is done, so that nothing is waited for. -/
  | returnsJoined {t : RequestTask} (exit : TaskExit) : t.phase = .trying →
      t.renewer = .ended exit → Step t { t with phase := .ended (joined exit) }
  | raises {t : RequestTask} (exit : TaskExit) : t.phase = .trying → exit ≠ .returned →
      Step t { t with phase := .cleaning exit false }
  | cleaned {t : RequestTask} (exit : TaskExit) (interrupted : Bool) :
      t.phase = .cleaning exit interrupted → t.renewerDone = true →
      Step t { t with phase := .ended (if interrupted then .cancelled else exit) }
  | joined {t : RequestTask} (exit : TaskExit) (interrupted : Bool) :
      t.phase = .joining interrupted → t.renewer = .ended exit →
      Step t { t with phase := .ended (if interrupted then .cancelled else joined exit) }
  | renewerEnds {t : RequestTask} (exit : TaskExit) : t.renewer = .running →
      Step t { t with renewer := .ended exit }

/-- What holds of a task at every step: one that has ended has waited for its renewer, and one that
has not begun has none. -/
structure Sound (t : RequestTask) : Prop where
  ended : t.isEnded = true → t.renewerDone = true
  created : t.phase = .created → t.renewer = .absent

theorem sound_new : Sound {} := ⟨fun h => (by cases h), fun _ => rfl⟩

theorem Step.sound {t t' : RequestTask} (H : t.Sound) (h : Step t t') : t'.Sound := by
  cases h with
  | start hphase hcancel => exact ⟨fun h => (by cases h), fun h => by cases h⟩
  | startCancelled hphase hcancel =>
      refine ⟨fun _ => ?_, fun h => by cases h⟩
      simp [renewerDone, H.created hphase]
  | returns hphase hrenewer => exact ⟨fun h => (by cases h), fun h => by cases h⟩
  | returnsJoined exit hphase hrenewer =>
      exact ⟨fun _ => by simp [renewerDone, hrenewer], fun h => by cases h⟩
  | raises exit hphase hexit => exact ⟨fun h => (by cases h), fun h => by cases h⟩
  | cleaned exit interrupted hphase hrenewer => exact ⟨fun _ => hrenewer, fun h => by cases h⟩
  | joined exit interrupted hphase hrenewer =>
      exact ⟨fun _ => by simp [renewerDone, hrenewer], fun h => by cases h⟩
  | renewerEnds exit hrenewer =>
      refine ⟨fun _ => rfl, fun hphase => ?_⟩
      rw [H.created hphase] at hrenewer
      cases hrenewer

theorem isEnded_cancel (t : RequestTask) : t.cancel.isEnded = t.isEnded := by
  simp only [cancel, isEnded]
  cases h : t.phase <;> simp [h]

theorem sound_cancel {t : RequestTask} (H : t.Sound) : t.cancel.Sound := by
  refine ⟨fun hended => ?_, fun hcreated => ?_⟩
  · rw [isEnded_cancel] at hended
    have hdone := H.ended hended
    simp only [cancel]
    split <;> exact hdone
  · simp only [cancel] at hcreated ⊢
    split at hcreated <;> simp_all [H.created]

/-- Cancelling a task that has ended does nothing. -/
theorem cancel_of_ended {t : RequestTask} (h : t.isEnded = true) : t.cancel = t := by
  simp only [isEnded] at h
  simp only [cancel]
  split at h
  · rename_i hphase
    rw [hphase]
  · cases h

/-- A task that has ended takes no more steps. -/
theorem Step.not_ended {t t' : RequestTask} (H : t.Sound) (h : Step t t') : t.isEnded = false := by
  simp only [isEnded]
  cases h with
  | renewerEnds exit hrenewer =>
      split
      · rename_i hphase
        have hdone := H.ended (by simp [isEnded, hphase])
        simp [renewerDone, hrenewer] at hdone
      · rfl
  | _ => simp_all

/-- A step neither cancels the task nor takes it out of the worker's set. -/
theorem Step.same {t t' : RequestTask} (h : Step t t') :
    t'.cancelling = t.cancelling ∧ t'.tracked = t.tracked := by
  cases h <;> exact ⟨rfl, rfl⟩

end RequestTask

/-! ## The worker -/

/-- What the worker raises: the error of a poll, the exception of the task at a place in its table,
or `CancelledError`. -/
inductive WorkerExit
  | poll (exc : Raised)
  | task (i : ℕ) (exc : Raised)
  | cancelled

/-- What the exit of a task raises in whoever asks for its result. -/
def TaskExit.raised (i : ℕ) : TaskExit → Option WorkerExit
  | .returned => none
  | .failed exc => some (.task i exc)
  | .cancelled => some .cancelled

/-- Where `_run_async_worker` stands. -/
inductive ShutdownPhase
  /-- In the loop. -/
  | looping
  /-- In the last `gather`: whether it was cancelled, and what it is going to raise. -/
  | gathering (cancelled : Bool) (outer : Option WorkerExit)
  /-- In `except BaseException` with this exception, waiting for the cancelled tasks. `interrupted`
  says that a cancellation arrived there. -/
  | cleaning (exit : WorkerExit) (interrupted : Bool)
  /-- Returned, or raised this. -/
  | finished (raised : Option WorkerExit)

/-- The worker, every task it created, and what its `except` clause caught. -/
structure Shutdown where
  phase : ShutdownPhase := .looping
  tasks : List RequestTask := []
  observed : Option WorkerExit := none

namespace Shutdown

/-- Cancel the tasks in the worker's set. -/
def cancelTracked (tasks : List RequestTask) : List RequestTask :=
  tasks.map fun t => if t.tracked then t.cancel else t

/-- Take tasks out of the worker's set. -/
def untrack (removed : ℕ → Bool) (tasks : List RequestTask) : List RequestTask :=
  tasks.mapIdx fun i t => if removed i then { t with tracked := false } else t

/-- The `except` clause up to its `await`. -/
def caught (s : Shutdown) (exit : WorkerExit) : Shutdown where
  phase := .cleaning exit false
  tasks := cancelTracked s.tasks
  observed := some exit

/-- What the last `gather` makes of a task's step: the first exception decides. -/
def watch (phase : ShutdownPhase) (i : ℕ) (t : RequestTask) : ShutdownPhase :=
  match phase, t.phase with
  | .gathering cancelled none, .ended exit =>
      if t.tracked then .gathering cancelled (exit.raised i) else phase
  | _, _ => phase

/-- Every task in the worker's set has ended. -/
def AllEnded (tasks : List RequestTask) : Prop :=
  ∀ t ∈ tasks, t.tracked = true → t.isEnded = true

/-- One step of the worker, of a task or of a renewer. In a `quiet` run the cancellation from
outside does not replace a failure that is being cleaned up, and no task that it reaches through the
last `gather` fails. -/
inductive Step (quiet : Bool) : Shutdown → Shutdown → Prop
  | poll {s : Shutdown} (requests : ℕ) : s.phase = .looping →
      Step quiet s { s with tasks := s.tasks ++ List.replicate requests {} }
  | collect {s : Shutdown} (removed : ℕ → Bool) : s.phase = .looping →
      (∀ i t, s.tasks[i]? = some t → removed i = true → t.phase = .ended .returned) →
      Step quiet s { s with tasks := untrack removed s.tasks }
  /-- The tasks found done are taken out one by one until one has an exception. -/
  | collectRaises {s : Shutdown} (removed : ℕ → Bool) (i : ℕ) (t : RequestTask) (exit : TaskExit)
      (raised : WorkerExit) : s.phase = .looping →
      (∀ j t, s.tasks[j]? = some t → removed j = true → j = i ∨ t.phase = .ended .returned) →
      s.tasks[i]? = some t → t.tracked = true → t.phase = .ended exit →
      exit.raised i = some raised →
      Step quiet s (caught { s with tasks := untrack removed s.tasks } raised)
  | pollRaises {s : Shutdown} (exc : Raised) : s.phase = .looping →
      Step quiet s (s.caught (.poll exc))
  | cancelLoop {s : Shutdown} : s.phase = .looping → Step quiet s (s.caught .cancelled)
  | returns {s : Shutdown} : s.phase = .looping → (∀ t ∈ s.tasks, t.tracked = false) →
      Step quiet s { s with phase := .finished none }
  | gather {s : Shutdown} : s.phase = .looping →
      (∀ (i : ℕ) (t : RequestTask) (exit : TaskExit), s.tasks[i]? = some t → t.tracked = true →
        t.phase = .ended exit → exit = .returned) →
      Step quiet s { s with phase := .gathering false none }
  /-- A task had an exception before the `gather`. -/
  | gatherFailed {s : Shutdown} (i : ℕ) (t : RequestTask) (exit : TaskExit) (raised : WorkerExit) :
      s.phase = .looping → s.tasks[i]? = some t → t.tracked = true → t.phase = .ended exit →
      exit.raised i = some raised →
      Step quiet s { s with phase := .gathering false (some raised) }
  | gathered {s : Shutdown} : s.phase = .gathering false none → AllEnded s.tasks →
      Step quiet s { s with phase := .finished none }
  | gatheredCancelled {s : Shutdown} : s.phase = .gathering true none → AllEnded s.tasks →
      Step quiet s (s.caught .cancelled)
  | gatherRaises {s : Shutdown} (cancelled : Bool) (raised : WorkerExit) :
      s.phase = .gathering cancelled (some raised) → Step quiet s (s.caught raised)
  /-- A cancellation reaches the `gather` before it is done. -/
  | cancelGather {s : Shutdown} (cancelled : Bool) (outer : Option WorkerExit) :
      s.phase = .gathering cancelled outer →
      Step quiet s { s with phase := .gathering true outer, tasks := cancelTracked s.tasks }
  /-- A cancellation reaches the worker after the `gather` is done. -/
  | cancelGathered {s : Shutdown} (cancelled : Bool) (raised : WorkerExit) :
      s.phase = .gathering cancelled (some raised) → Step quiet s (s.caught .cancelled)
  | cancelCleaning {s : Shutdown} (exit : WorkerExit) (interrupted : Bool) :
      s.phase = .cleaning exit interrupted → (∃ t ∈ s.tasks, t.tracked = true) →
      (quiet = true → exit = .cancelled) →
      Step quiet s { s with phase := .cleaning exit true, tasks := cancelTracked s.tasks }
  | cleaned {s : Shutdown} (exit : WorkerExit) (interrupted : Bool) :
      s.phase = .cleaning exit interrupted → AllEnded s.tasks →
      Step quiet s
        { s with phase := .finished (some (if interrupted then .cancelled else exit)) }
  | task {s : Shutdown} (i : ℕ) (t t' : RequestTask) : s.tasks[i]? = some t → t.Step t' →
      (quiet = true → s.phase = .gathering true none → t.tracked = true → t.cancelling = true →
        ∀ exc, t'.phase ≠ .ended (.failed exc)) →
      Step quiet s { s with phase := watch s.phase i t', tasks := s.tasks.set i t' }

/-- What some interleaving leads to from the call of the worker. -/
inductive Reachable (quiet : Bool) : Shutdown → Prop
  | start : Reachable quiet {}
  | next {s s' : Shutdown} : Reachable quiet s → Step quiet s s' → Reachable quiet s'

/-! ## Everything is done -/

/-- What every step keeps: the tasks are sound, only tasks that have ended leave the worker's set,
and the worker is not done before them. -/
structure Kept (s : Shutdown) : Prop where
  sound : ∀ t ∈ s.tasks, t.Sound
  untracked : ∀ t ∈ s.tasks, t.tracked = false → t.isEnded = true
  finished : ∀ raised, s.phase = .finished raised → AllEnded s.tasks

/-- What holds of the tasks holds of them after the `cancel` of those in the worker's set. -/
theorem forall_cancelTracked {P : RequestTask → Prop} {tasks : List RequestTask}
    (h : ∀ t ∈ tasks, P t) (hcancel : ∀ t, P t → P t.cancel) : ∀ t ∈ cancelTracked tasks, P t := by
  intro t ht
  obtain ⟨t₀, ht₀, rfl⟩ := List.mem_map.mp ht
  split
  · exact hcancel t₀ (h t₀ ht₀)
  · exact h t₀ ht₀

theorem tracked_cancel (t : RequestTask) : t.cancel.tracked = t.tracked := by
  simp only [RequestTask.cancel]
  split <;> rfl

/-- A task that was taken out of the set is as it was but for that. -/
theorem mem_untrack {removed : ℕ → Bool} {tasks : List RequestTask} {t : RequestTask}
    (h : t ∈ untrack removed tasks) :
    ∃ (i : ℕ) (t₀ : RequestTask), tasks[i]? = some t₀ ∧
      t = if removed i then { t₀ with tracked := false } else t₀ := by
  obtain ⟨i, hi⟩ := List.getElem?_of_mem h
  simp only [untrack, List.getElem?_mapIdx, Option.map_eq_some_iff] at hi
  obtain ⟨t₀, ht₀, rfl⟩ := hi
  exact ⟨i, t₀, ht₀, rfl⟩

/-- Tasks that have ended may be taken out of the set. -/
theorem kept_untrack {s : Shutdown} (H : s.Kept) {removed : ℕ → Bool}
    (hremoved : ∀ i t, s.tasks[i]? = some t → removed i = true → t.isEnded = true)
    {phase : ShutdownPhase} (hphase : ∀ raised, phase ≠ .finished raised) :
    Kept { s with phase, tasks := untrack removed s.tasks } := by
  refine ⟨fun t ht => ?_, fun t ht htracked => ?_, fun raised h => absurd h (hphase raised)⟩ <;>
    obtain ⟨i, t₀, ht₀, rfl⟩ := mem_untrack ht <;> have hmem := List.mem_of_getElem? ht₀
  · have hsound := H.sound t₀ hmem
    split
    · exact ⟨hsound.ended, hsound.created⟩
    · exact hsound
  · by_cases hi : removed i = true
    · rw [if_pos hi]
      exact hremoved i t₀ ht₀ hi
    · rw [if_neg hi] at htracked ⊢
      exact H.untracked t₀ hmem htracked

theorem kept_cancel {s : Shutdown} (H : s.Kept) {phase : ShutdownPhase}
    (hphase : ∀ raised, phase ≠ .finished raised) (observed : Option WorkerExit) :
    Kept { phase, tasks := cancelTracked s.tasks, observed } where
  sound := forall_cancelTracked H.sound fun _ h => RequestTask.sound_cancel h
  untracked := forall_cancelTracked (P := fun t => t.tracked = false → t.isEnded = true)
    H.untracked fun t h => by rwa [tracked_cancel, RequestTask.isEnded_cancel]
  finished raised h := absurd h (hphase raised)

theorem kept_caught {s : Shutdown} (H : s.Kept) (exit : WorkerExit) : (s.caught exit).Kept :=
  kept_cancel H (fun _ h => by cases h) _

/-- A change of phase, to the end only with every task done. -/
theorem kept_phase {s : Shutdown} (H : s.Kept) {phase : ShutdownPhase}
    (hphase : ∀ raised, phase = .finished raised → AllEnded s.tasks) :
    Kept { s with phase } :=
  ⟨H.sound, H.untracked, hphase⟩

theorem watch_finished {phase : ShutdownPhase} {i : ℕ} {t : RequestTask}
    {raised : Option WorkerExit} (h : watch phase i t = .finished raised) :
    phase = .finished raised := by
  simp only [watch] at h
  split at h
  · split at h <;> cases h
  · exact h

/-- The last `gather` is going to raise what it was, or what a task in the set ended with. -/
theorem watch_gathering (cancelled : Bool) (outer : Option WorkerExit) (i : ℕ) (t : RequestTask) :
    ∃ outer', watch (.gathering cancelled outer) i t = .gathering cancelled outer' ∧
      ∀ raised, outer' = some raised → outer = some raised ∨
        ∃ exit : TaskExit, outer = none ∧ t.tracked = true ∧ t.phase = .ended exit ∧
          exit.raised i = some raised := by
  simp only [watch]
  split
  · rename_i h hended
    cases h
    split
    · rename_i htracked
      exact ⟨_, rfl, fun raised hraised => .inr ⟨_, rfl, htracked, hended, hraised⟩⟩
    · exact ⟨_, rfl, fun _ h => .inl h⟩
  · exact ⟨_, rfl, fun _ h => .inl h⟩

/-- A step keeps all that. -/
theorem Step.kept {quiet : Bool} {s s' : Shutdown} (H : s.Kept) (h : Step quiet s s') : s'.Kept := by
  cases h with
  | poll requests hphase =>
      have hnew : ∀ t ∈ s.tasks ++ List.replicate requests ({} : RequestTask),
          t ∈ s.tasks ∨ t = ({} : RequestTask) := by
        intro t ht
        exact (List.mem_append.mp ht).imp_right List.eq_of_mem_replicate
      refine ⟨fun t ht => ?_, fun t ht htracked => ?_, fun raised h => ?_⟩
      · rcases hnew t ht with hold | rfl
        · exact H.sound t hold
        · exact RequestTask.sound_new
      · rcases hnew t ht with hold | rfl
        · exact H.untracked t hold htracked
        · cases htracked
      · rw [hphase] at h
        cases h
  | collect removed hphase hremoved =>
      refine kept_untrack H (fun i t ht hi => ?_) fun raised h => ?_
      · simp [RequestTask.isEnded, hremoved i t ht hi]
      · rw [hphase] at h
        cases h
  | collectRaises removed i t exit raised hphase hremoved ht htracked hended hraised =>
      have hkept : Kept { s with tasks := untrack removed s.tasks } := by
        refine kept_untrack H (fun j u hu hj => ?_) fun r h => ?_
        · rcases hremoved j u hu hj with rfl | hreturned
          · rw [ht] at hu
            cases hu
            simp [RequestTask.isEnded, hended]
          · simp [RequestTask.isEnded, hreturned]
        · rw [hphase] at h
          cases h
      exact kept_caught hkept _
  | pollRaises exc hphase => exact kept_caught H _
  | cancelLoop hphase => exact kept_caught H _
  | returns hphase hnone =>
      refine kept_phase H fun raised _ t ht htracked => ?_
      rw [hnone t ht] at htracked
      cases htracked
  | gather hphase hreturned => exact kept_phase H fun _ h => by cases h
  | gatherFailed i t exit raised hphase ht htracked hended hraised =>
      exact kept_phase H fun _ h => by cases h
  | gathered hphase hall => exact kept_phase H fun _ _ => hall
  | gatheredCancelled hphase hall => exact kept_caught H _
  | gatherRaises cancelled raised hphase => exact kept_caught H _
  | cancelGather cancelled outer hphase => exact kept_cancel H (fun _ h => by cases h) _
  | cancelGathered cancelled raised hphase => exact kept_caught H _
  | cancelCleaning exit interrupted hphase htracked hquiet =>
      exact kept_cancel H (fun _ h => by cases h) _
  | cleaned exit interrupted hphase hall => exact kept_phase H fun _ _ => hall
  | task i t t' ht hstep hquiet =>
      have hmem := List.mem_of_getElem? ht
      have hrunning := hstep.not_ended (H.sound t hmem)
      have htracked : t.tracked = true := by
        by_contra huntracked
        rw [H.untracked t hmem (by simpa using huntracked)] at hrunning
        cases hrunning
      refine ⟨fun u hu => ?_, fun u hu huntracked => ?_, fun raised h => ?_⟩
      · rcases List.mem_or_eq_of_mem_set hu with hold | rfl
        · exact H.sound u hold
        · exact hstep.sound (H.sound t hmem)
      · rcases List.mem_or_eq_of_mem_set hu with hold | rfl
        · exact H.untracked u hold huntracked
        · rw [hstep.same.2, htracked] at huntracked
          cases huntracked
      · rw [H.finished raised (watch_finished h) t hmem htracked] at hrunning
        cases hrunning

theorem Reachable.kept {quiet : Bool} {s : Shutdown} (h : Reachable quiet s) : s.Kept := by
  induction h with
  | start => exact ⟨fun t ht => (by cases ht), fun t ht => (by cases ht), fun _ h => (by cases h)⟩
  | next _ hstep ih => exact hstep.kept ih

/-- When the worker is done, every task it created and every renewer of those is. -/
theorem Reachable.complete {quiet : Bool} {s : Shutdown} (h : Reachable quiet s)
    {raised : Option WorkerExit} (hfinished : s.phase = .finished raised) :
    ∀ t ∈ s.tasks, t.isEnded = true ∧ t.renewerDone = true := by
  intro t ht
  have hended : t.isEnded = true := by
    cases htracked : t.tracked
    · exact h.kept.untracked t ht htracked
    · exact h.kept.finished raised hfinished t ht htracked
  exact ⟨hended, (h.kept.sound t ht).ended hended⟩

/-! ## What is raised -/

/-- The exception is no task's, or it is how that task ended, which nobody had cancelled. A renewer
is cancelled only by its task, on the way out or when the task is cancelled. -/
def Blames (tasks : List RequestTask) : WorkerExit → Prop
  | .poll _ | .cancelled => True
  | .task i exc => ∃ t, tasks[i]? = some t ∧ t.phase = .ended (.failed exc) ∧ t.cancelling = false

/-- What a quiet run keeps. -/
def Faithful (s : Shutdown) : Prop :=
  match s.phase with
  | .looping => ∀ t ∈ s.tasks, t.cancelling = false
  | .gathering cancelled outer =>
      (cancelled = false → ∀ t ∈ s.tasks, t.cancelling = false) ∧
        ∀ raised, outer = some raised → Blames s.tasks raised
  | .cleaning exit interrupted =>
      s.observed = some exit ∧ Blames s.tasks exit ∧ (interrupted = true → exit = .cancelled)
  | .finished raised =>
      ∀ exit, raised = some exit → s.observed = some exit ∧ Blames s.tasks exit

/-- An exit that is blamed on a task stays so while that task stays as it ended. -/
theorem Blames.congr {tasks tasks' : List RequestTask} {exit : WorkerExit} (h : Blames tasks exit)
    (hsame : ∀ (i : ℕ) (t : RequestTask), tasks[i]? = some t → t.isEnded = true →
      ∃ t', tasks'[i]? = some t' ∧ t'.phase = t.phase ∧ t'.cancelling = t.cancelling) :
    Blames tasks' exit := by
  cases exit with
  | poll | cancelled => trivial
  | task i exc =>
      obtain ⟨t, ht, hphase, hcancel⟩ := h
      obtain ⟨t', ht', hphase', hcancel'⟩ :=
        hsame i t ht (by simp [RequestTask.isEnded, hphase])
      exact ⟨t', ht', hphase'.trans hphase, hcancel'.trans hcancel⟩

theorem Blames.cancelTracked {tasks : List RequestTask} {exit : WorkerExit}
    (h : Blames tasks exit) : Blames (cancelTracked tasks) exit := by
  refine h.congr fun i t ht hended => ⟨t, ?_, rfl, rfl⟩
  simp [Shutdown.cancelTracked, ht, RequestTask.cancel_of_ended hended]

theorem Blames.untrack {tasks : List RequestTask} {exit : WorkerExit} (h : Blames tasks exit)
    (removed : ℕ → Bool) : Blames (untrack removed tasks) exit := by
  refine h.congr fun i t ht _ =>
    ⟨if removed i then { t with tracked := false } else t, by simp [Shutdown.untrack, ht], ?_, ?_⟩ <;>
    split <;> rfl

/-- What is caught is reported. -/
theorem faithful_caught {s : Shutdown} {exit : WorkerExit} (h : Blames s.tasks exit) :
    (s.caught exit).Faithful :=
  ⟨rfl, h.cancelTracked, fun h => by cases h⟩

/-- The exception of a task that nobody has cancelled is blamed on it. -/
theorem blames_of_ended {tasks : List RequestTask} {i : ℕ} {t : RequestTask} {exit : TaskExit}
    {raised : WorkerExit} (ht : tasks[i]? = some t) (hended : t.phase = .ended exit)
    (hraised : exit.raised i = some raised)
    (hcancel : ∀ exc, exit = .failed exc → t.cancelling = false) : Blames tasks raised := by
  cases exit with
  | returned => cases hraised
  | cancelled =>
      cases hraised
      trivial
  | failed exc =>
      cases hraised
      exact ⟨t, ht, hended, hcancel exc rfl⟩

/-- Nothing is blamed on a task that has not ended. -/
theorem Blames.set {tasks : List RequestTask} {exit : WorkerExit} (h : Blames tasks exit) {i : ℕ}
    {t : RequestTask} (ht : tasks[i]? = some t) (hrunning : t.isEnded = false) (t' : RequestTask) :
    Blames (tasks.set i t') exit := by
  refine h.congr fun j u hu hended => ⟨u, ?_, rfl, rfl⟩
  have hne : i ≠ j := by
    rintro rfl
    rw [ht] at hu
    cases hu
    rw [hrunning] at hended
    cases hended
  rw [List.getElem?_set_ne hne]
  exact hu

/-- A step of a task, while the worker does anything. -/
theorem faithful_task {s : Shutdown} (K : s.Kept) (H : s.Faithful) {i : ℕ} {t t' : RequestTask}
    (ht : s.tasks[i]? = some t) (hstep : t.Step t')
    (hquiet : s.phase = .gathering true none → t.tracked = true → t.cancelling = true →
      ∀ exc, t'.phase ≠ .ended (.failed exc)) :
    Faithful { s with phase := watch s.phase i t', tasks := s.tasks.set i t' } := by
  have hmem := List.mem_of_getElem? ht
  have hrunning := hstep.not_ended (K.sound t hmem)
  have hcancel : (∀ u ∈ s.tasks, u.cancelling = false) →
      ∀ u ∈ s.tasks.set i t', u.cancelling = false := by
    intro h u hu
    rcases List.mem_or_eq_of_mem_set hu with hold | rfl
    · exact h u hold
    · rw [hstep.same.1]
      exact h t hmem
  cases hphase : s.phase with
  | looping =>
      simp only [Faithful, hphase] at H
      simpa only [Faithful, watch] using hcancel H
  | cleaning exit interrupted =>
      simp only [Faithful, hphase] at H
      exact ⟨H.1, H.2.1.set ht hrunning t', H.2.2⟩
  | finished raised =>
      simp only [Faithful, hphase] at H
      exact fun exit h => ⟨(H exit h).1, (H exit h).2.set ht hrunning t'⟩
  | gathering cancelled outer =>
      simp only [Faithful, hphase] at H
      obtain ⟨outer', hwatch, houter⟩ := watch_gathering cancelled outer i t'
      simp only [Faithful, hwatch]
      refine ⟨fun h => hcancel (H.1 h), fun raised hraised => ?_⟩
      rcases houter raised hraised with hold | ⟨exit, rfl, htracked, hended, hexit⟩
      · exact (H.2 raised hold).set ht hrunning t'
      · -- the first of the children that ends with an exception
        have hset : (s.tasks.set i t')[i]? = some t' :=
          List.getElem?_set_self (List.getElem?_eq_some_iff.mp ht).1
        refine blames_of_ended hset hended hexit fun exc hfailed => ?_
        rw [hstep.same.1]
        cases cancelled with
        | false => exact H.1 rfl t hmem
        | true =>
            by_contra hcancelling
            rw [hstep.same.2] at htracked
            exact hquiet hphase htracked (by simpa using hcancelling) exc (hfailed ▸ hended)

/-- A step of a quiet run keeps all that. -/
theorem Step.faithful {s s' : Shutdown} (K : s.Kept) (H : s.Faithful) (h : Step true s s') :
    s'.Faithful := by
  have hloop : s.phase = .looping → ∀ t ∈ s.tasks, t.cancelling = false := by
    intro hphase
    simpa only [Faithful, hphase] using H
  cases h with
  | poll requests hphase =>
      have hold := hloop hphase
      simp only [Faithful, hphase]
      intro t ht
      rcases List.mem_append.mp ht with hmem | hnew
      · exact hold t hmem
      · rw [List.eq_of_mem_replicate hnew]
  | collect removed hphase hremoved =>
      have hold := hloop hphase
      simp only [Faithful, hphase]
      intro t ht
      obtain ⟨i, t₀, ht₀, rfl⟩ := mem_untrack ht
      have hcancel := hold t₀ (List.mem_of_getElem? ht₀)
      split <;> exact hcancel
  | collectRaises removed i t exit raised hphase hremoved ht htracked hended hraised =>
      have hcancel := hloop hphase t (List.mem_of_getElem? ht)
      exact faithful_caught ((blames_of_ended ht hended hraised fun _ _ => hcancel).untrack removed)
  | pollRaises exc hphase => exact faithful_caught trivial
  | cancelLoop hphase => exact faithful_caught trivial
  | returns hphase hnone => exact fun exit h => by cases h
  | gather hphase hreturned => exact ⟨fun _ => hloop hphase, fun raised h => by cases h⟩
  | gatherFailed i t exit raised hphase ht htracked hended hraised =>
      refine ⟨fun _ => hloop hphase, fun r h => ?_⟩
      cases h
      exact blames_of_ended ht hended hraised fun _ _ => hloop hphase t (List.mem_of_getElem? ht)
  | gathered hphase hall => exact fun exit h => by cases h
  | gatheredCancelled hphase hall => exact faithful_caught trivial
  | gatherRaises cancelled raised hphase =>
      simp only [Faithful, hphase] at H
      exact faithful_caught (H.2 raised rfl)
  | cancelGather cancelled outer hphase =>
      simp only [Faithful, hphase] at H
      exact ⟨fun h => (by cases h), fun raised h => (H.2 raised h).cancelTracked⟩
  | cancelGathered cancelled raised hphase => exact faithful_caught trivial
  | cancelCleaning exit interrupted hphase htracked hquiet =>
      simp only [Faithful, hphase] at H
      exact ⟨H.1, H.2.1.cancelTracked, fun _ => hquiet rfl⟩
  | cleaned exit interrupted hphase hall =>
      simp only [Faithful, hphase] at H
      intro raised hraised
      obtain rfl : exit = raised := by
        cases interrupted
        · exact Option.some.inj hraised
        · rw [H.2.2 rfl]
          exact Option.some.inj hraised
      exact ⟨H.1, H.2.1⟩
  | task i t t' ht hstep hquiet => exact faithful_task K H ht hstep (hquiet rfl)

theorem Reachable.faithful {s : Shutdown} (h : Reachable true s) : s.Faithful := by
  induction h with
  | start => exact fun t ht => by cases ht
  | next hreach hstep ih => exact hstep.faithful hreach.kept ih

/-- In every run, when the worker returns or raises, its tasks and their renewers are done; and in
every quiet run, what it raises is what it caught, and no task raised it while it was being
cancelled. -/
theorem shutdown_faithful (s : Shutdown) :
    (∀ raised, Reachable false s → s.phase = .finished raised →
      ∀ t ∈ s.tasks, t.isEnded = true ∧ t.renewerDone = true) ∧
    ∀ exit, Reachable true s → s.phase = .finished (some exit) →
      s.observed = some exit ∧ Blames s.tasks exit := by
  constructor
  · exact fun raised h hfinished => h.complete hfinished
  · intro exit h hfinished
    have H := h.faithful
    simp only [Faithful, hfinished] at H
    exact H exit rfl

/-- An error of a handler that is being cancelled. -/
def cleanupError : Raised := .api { message := "relay request failed: timed out" }

/-- What a request fails with. -/
def commitError : Raised := .api { message := "relay request failed: connection reset" }

/-- Two requests are handled. The first fails; the second one is cancelled, and fails in its cleanup
with an error of its own. -/
theorem sibling_failure :
    ∃ s, (∀ quiet, Reachable quiet s) ∧ s.phase = .finished (some (.task 0 commitError)) ∧
      ∃ t ∈ s.tasks, t.phase = .ended (.failed cleanupError) := by
  have hbegun (quiet : Bool) := (((Reachable.start : Reachable quiet {}).next (.poll 2 rfl)).next
    (.task 0 {} _ rfl (.start rfl rfl) fun _ h => by cases h)).next
    (.task 1 {} _ rfl (.start rfl rfl) fun _ h => by cases h)
  have hfailed (quiet : Bool) := (((hbegun quiet).next
    (.task 0 _ _ rfl (.raises (.failed commitError) rfl (by simp)) fun _ h => by cases h)).next
    (.task 0 _ _ rfl (.renewerEnds .cancelled rfl) fun _ h => by cases h)).next
    (.task 0 _ _ rfl (.cleaned (.failed commitError) false rfl rfl) fun _ h => by cases h)
  have hcaught (quiet : Bool) := (hfailed quiet).next (.collectRaises (fun j => j == 0) 0 _
    (.failed commitError) (.task 0 commitError) rfl (fun j t _ hj => .inl (by simpa using hj))
    rfl rfl rfl rfl)
  have hended (quiet : Bool) := (((hcaught quiet).next
    (.task 1 _ _ rfl (.raises (.failed cleanupError) rfl (by simp)) fun _ h => by cases h)).next
    (.task 1 _ _ rfl (.renewerEnds .cancelled rfl) fun _ h => by cases h)).next
    (.task 1 _ _ rfl (.cleaned (.failed cleanupError) false rfl rfl) fun _ h => by cases h)
  refine ⟨_, fun quiet => (hended quiet).next (.cleaned _ false rfl ?_), rfl, ?_⟩
  · intro t ht _
    obtain rfl | rfl := List.mem_pair.mp ht <;> rfl
  · exact ⟨_, List.mem_of_getElem? (i := 1) rfl, rfl⟩

/-- The worker raises the failure, and both tasks and their renewers are done. -/
theorem shutdown_faithful_sibling :
    ∃ s : Shutdown, s.phase = .finished (some (.task 0 commitError)) ∧
      (∃ t ∈ s.tasks, t.phase = .ended (.failed cleanupError)) ∧
      (∀ t ∈ s.tasks, t.isEnded = true ∧ t.renewerDone = true) ∧
      s.observed = some (.task 0 commitError) ∧ Blames s.tasks (.task 0 commitError) := by
  obtain ⟨s, hreach, hfinished, hsibling⟩ := sibling_failure
  obtain ⟨hdone, hfaithful⟩ := shutdown_faithful s
  exact ⟨s, hfinished, hsibling, hdone _ (hreach false) hfinished,
    hfaithful _ (hreach true) hfinished⟩

/-- A task is created, and begins. -/
def begun : Shutdown where
  tasks := [{ phase := .trying, renewer := .running }]

theorem reachable_begun : Reachable false begun :=
  (Reachable.start.next (.poll 1 rfl)).next (.task 0 {} _ rfl (.start rfl rfl) fun h => by cases h)

/-- The error of a poll. -/
def pollError : Raised := .api { message := "relay request failed: connection refused" }

/-- The cancellation from outside reaches the task through the last `gather`, and what the handler
raises then is raised. Or it arrives while the task is cleaned up, and replaces the error of the
poll. -/
theorem shutdown_unfaithful :
    (∃ s, Reachable false s ∧ s.phase = .finished (some (.task 0 cleanupError)) ∧
      ¬ Blames s.tasks (.task 0 cleanupError)) ∧
    ∃ s, Reachable false s ∧ s.phase = .finished (some .cancelled) ∧
      s.observed = some (.poll pollError) := by
  have hquiet {P : Prop} : false = true → P := fun h => by cases h
  have hrunning : ∀ (i : ℕ) (t : RequestTask) (exit : TaskExit), begun.tasks[i]? = some t →
      t.tracked = true → t.phase = .ended exit → exit = .returned := by
    intro i t exit ht _ hended
    obtain rfl := List.mem_singleton.mp (List.mem_of_getElem? ht)
    cases hended
  constructor
  · have hcancelled := (reachable_begun.next (.gather rfl hrunning)).next
      (.cancelGather false none rfl)
    have hended := ((hcancelled.next (.task 0 _ _ rfl (.raises (.failed cleanupError) rfl
      (by simp)) hquiet)).next (.task 0 _ _ rfl (.renewerEnds .cancelled rfl) hquiet)).next
      (.task 0 _ _ rfl (.cleaned (.failed cleanupError) false rfl rfl) hquiet)
    have hfinished := (hended.next (.gatherRaises true _ rfl)).next (.cleaned _ false rfl
      fun t ht _ => by rw [List.mem_singleton.mp ht]; rfl)
    refine ⟨_, hfinished, rfl, fun h => ?_⟩
    obtain ⟨t, ht, -, hcancel⟩ := h
    cases ht
    cases hcancel
  · have hcaught := (reachable_begun.next (.pollRaises pollError rfl)).next
      (.cancelCleaning _ false rfl ⟨_, List.mem_singleton.mpr rfl, rfl⟩ hquiet)
    have hended := ((hcaught.next (.task 0 _ _ rfl (.raises .cancelled rfl (by simp))
      hquiet)).next (.task 0 _ _ rfl (.renewerEnds .cancelled rfl) hquiet)).next
      (.task 0 _ _ rfl (.cleaned .cancelled false rfl rfl) hquiet)
    have hfinished := hended.next (.cleaned _ true rfl
      fun t ht _ => by rw [List.mem_singleton.mp ht]; rfl)
    exact ⟨_, hfinished, rfl, rfl⟩

end Shutdown
end UcloudSandboxes.Relay
