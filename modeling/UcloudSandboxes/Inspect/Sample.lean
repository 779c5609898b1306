import UcloudSandboxes.Client.Deadline
import UcloudSandboxes.Inspect.Gateway
import UcloudSandboxes.Lib.Crew

/-!
# The sandboxes of an evaluation

`sample_init` creates a sandbox and lists it in `_running_sandboxes`; `sample_cleanup` and
`task_cleanup` delete what is there and take it off the list. Many samples are under way at once,
and they share the list: each call is a task of a `Lib.Crew`, and its events are the ends of its
awaits. `sample_init` is modelled from its create request on.

## Main results

* `owned_reachable`: a sample that is being undone has attempted its delete.
* `leaves_acknowledged`: what leaves the list was deleted.
* `never_orphaned_iff`: the runs in which no `sample_init` leaves a sandbox that nobody owns.
-/
namespace UcloudSandboxes.Inspect
open Python Client Http Lib

/-- A sandbox of a gateway. -/
structure SandboxKey where
  baseUrl : String
  id : String
  deriving DecidableEq

/-- An entry of `running_sandboxes()`. -/
structure SandboxRecord extends SandboxKey where
  headers : Headers
  deriving DecidableEq

/-- What the tasks share: the list of `_running_sandboxes`, which is `none` in a context where no
`task_init` has set it, the deletes that were sent, and those that were acknowledged or answered
404. -/
structure Store where
  running : Option (List SandboxRecord)
  attempted : List SandboxKey := []
  acknowledged : List SandboxKey := []

namespace Store

/-- `running_sandboxes`. The list it returns when none is set is not kept. -/
def runningSandboxes (s : Store) : List SandboxRecord := s.running.getD []

/-- `sandbox_cleanup_startup`. -/
def sandboxCleanupStartup (s : Store) : Store := { s with running := some [] }

/-- `running_sandboxes().append(..)`. -/
def append (s : Store) (sample : SandboxRecord) : Store :=
  { s with running := s.running.map (· ++ [sample]) }

/-- `_forget_running_sandbox`. -/
def forgetRunningSandbox (s : Store) (target : SandboxKey) : Store :=
  { s with
    running := s.running.map fun records =>
      records.filter fun r => !(r.baseUrl == target.baseUrl && r.id == target.id) }

/-- A delete is sent. -/
def attempt (s : Store) (target : SandboxKey) : Store :=
  { s with attempted := target :: s.attempted }

/-- A delete is acknowledged or answered 404. -/
def acknowledge (s : Store) (target : SandboxKey) : Store :=
  { s with acknowledged := target :: s.acknowledged }

/-- The sandbox is on the list. -/
def Lists (s : Store) (target : SandboxKey) : Prop :=
  ∃ r ∈ s.runningSandboxes, r.toSandboxKey = target

end Store

/-- Whose delete it is. -/
inductive Work
  /-- The `except` clause of `sample_init`. -/
  | undo (cause : CallError)
  /-- `sample_cleanup`, with the environments that follow. -/
  | cleanup (interrupted : Bool) (rest : List SandboxKey)
  /-- `task_cleanup`, with the failures so far and the records that follow. -/
  | sweep (failures : List (String × CallError)) (rest : List SandboxRecord)

/-- What a task waits for, or how its call stopped. -/
inductive Task
  | idle
  | creating (sample : SandboxRecord)
  | deleting (work : Work) (target : SandboxKey) (deadline : ℚ)
  | sleeping (work : Work) (target : SandboxKey) (deadline seconds : ℚ)
  /-- `client.close()` in the `finally` clause, with the exception in flight. -/
  | closing (work : Work) (target : SandboxKey) (exc : Option CallError)
  /-- `sample_init` has returned or raised, and its client was closed or not. -/
  | initStopped (sample : SandboxKey) (closed : Bool) (exc : Option CallError)
  | cleanupStopped (exc : Option CallError)

/-- A call begins, or one of its awaits ends. `now` is the clock that is read next. -/
inductive Event
  | sampleInit (sample : SandboxRecord)
  | created
  | createRaised (exc : CallError) (now : ℚ)
  | sampleCleanup (environments : List SandboxKey) (interrupted : Bool) (now : ℚ)
  | taskCleanup (cleanup : Bool) (now : ℚ)
  | deleteReturned
  | deleteRaised (exc : CallError) (now : ℚ)
  | woke
  | sleepRaised (exc : CallError)
  | closed (now : ℚ)
  /-- `client.close()` is cut short. `shut` says whether its session is closed all the same. -/
  | closeRaised (exc : CallError) (shut : Bool)

/-- `DEFAULT_CLEANUP_TIMEOUT_SECONDS`. -/
def defaultCleanupTimeoutSeconds : ℚ := 60

/-- `_delete_sandbox_with_wait`, up to its first await. -/
def startDelete (s : Store) (work : Work) (target : SandboxKey) (now : ℚ) : Store × Task :=
  (s.attempt target, .deleting work target (deadlineFor defaultCleanupTimeoutSeconds now))

/-- `sample_cleanup`, from the top of its loop. -/
def nextEnvironment (s : Store) (interrupted : Bool) (environments : List SandboxKey) (now : ℚ) :
    Store × Task :=
  match environments with
  | [] => (s, .cleanupStopped none)
  | target :: rest =>
      if interrupted then (s, .closing (.cleanup interrupted rest) target none)
      else startDelete s (.cleanup interrupted rest) target now

/-- The `RuntimeError` of `task_cleanup`. -/
def sweepError (failures : List (String × CallError)) : Option CallError :=
  if failures.isEmpty then none
  else some (.other ("Failed to clean up UCloud sandboxes: " ++
    "; ".intercalate (failures.map fun failure => failure.1 ++ ": " ++ failure.2.text)))

/-- `task_cleanup`, from the top of its loop. -/
def nextRecord (s : Store) (failures : List (String × CallError)) (records : List SandboxRecord)
    (now : ℚ) : Store × Task :=
  match records with
  | [] => (s, .cleanupStopped (sweepError failures))
  | r :: rest => startDelete s (.sweep failures rest) r.toSandboxKey now

/-- `_delete_sandbox_with_wait` returns. -/
def deleted (s : Store) (work : Work) (target : SandboxKey) : Store × Task :=
  match work with
  | .undo _ => (s.acknowledge target, .closing work target none)
  | .cleanup _ _ | .sweep _ _ =>
      ((s.acknowledge target).forgetRunningSandbox target, .closing work target none)

/-- `_delete_sandbox_with_wait` raises. -/
def deleteFailed (s : Store) (work : Work) (target : SandboxKey) (exc : CallError) : Store × Task :=
  match work with
  | .undo _ => (s, .closing work target (if exc.isException then none else some exc))
  | .cleanup _ _ => (s, .closing work target (some exc))
  | .sweep failures rest =>
      if exc.isException then
        (s, .closing (.sweep (failures ++ [(target.id, exc)]) rest) target none)
      else (s, .closing work target (some exc))

/-- A failure that is tried again while there is time. -/
def deleteAgain (s : Store) (work : Work) (target : SandboxKey) (deadline : ℚ) (exc : CallError)
    (delay now : ℚ) : Store × Task :=
  if deadline - now ≤ 0 then
    deleteFailed s work target (.transport
      ("Timed out deleting UCloud sandbox " ++ target.id ++ ": " ++ exc.text))
  else (s, .sleeping work target deadline (min (max 0 delay) (deadline - now)))

/-- `client.delete_sandbox` raises in `_delete_sandbox_with_wait`. -/
def deleteRaised (py : Interpreter) (s : Store) (work : Work) (target : SandboxKey) (deadline : ℚ)
    (exc : CallError) (now : ℚ) : Store × Task :=
  match exc with
  | .api e =>
      if e.statusCode == some 404 then deleted s work target
      else if !isRetryableGatewayError py e then deleteFailed s work target exc
      else
        let delay := max 1 ((retryAfterSeconds py e.headers).getD 0)
        deleteAgain s work target deadline exc delay now
  | .transport _ => deleteAgain s work target deadline exc 1 now
  | .other _ | .base _ => deleteFailed s work target exc

/-- `client.close()` returns. -/
def closeReturned (s : Store) (work : Work) (target : SandboxKey) (exc : Option CallError)
    (now : ℚ) :
    Store × Task :=
  match work, exc with
  | .undo cause, exc => (s, .initStopped target true (some (exc.getD cause)))
  | .cleanup interrupted rest, none => nextEnvironment s interrupted rest now
  | .sweep failures rest, none => nextRecord s failures rest now
  | _, some exc => (s, .cleanupStopped (some exc))

/-- `client.close()` raises. -/
def closeRaised (s : Store) (work : Work) (target : SandboxKey) (exc : CallError) (shut : Bool) :
    Store × Task :=
  match work with
  | .undo _ => (s, .initStopped target shut (some exc))
  | .cleanup _ _ | .sweep _ _ => (s, .cleanupStopped (some exc))

/-- One event of a task, where it can happen. -/
def advance (py : Interpreter) (s : Store) : Task → Event → Option (Store × Task)
  | .idle, .sampleInit sample => some (s, .creating sample)
  | .idle, .sampleCleanup environments interrupted now =>
      some (nextEnvironment s interrupted environments now)
  | .idle, .taskCleanup cleanup now =>
      if cleanup then some (nextRecord s [] s.runningSandboxes now)
      else some (s, .cleanupStopped none)
  | .creating sample, .created =>
      some (s.append sample, .initStopped sample.toSandboxKey false none)
  | .creating sample, .createRaised exc now =>
      -- `except Exception` lets a cancellation through.
      if exc.isException then some (startDelete s (.undo exc) sample.toSandboxKey now)
      else some (s, .initStopped sample.toSandboxKey false (some exc))
  | .deleting work target _, .deleteReturned => some (deleted s work target)
  | .deleting work target deadline, .deleteRaised exc now =>
      some (deleteRaised py s work target deadline exc now)
  | .sleeping work target deadline _, .woke =>
      some (s.attempt target, .deleting work target deadline)
  | .sleeping work target _ _, .sleepRaised exc => some (deleteFailed s work target exc)
  | .closing work target exc, .closed now => some (closeReturned s work target exc now)
  | .closing work target _, .closeRaised exc shut => some (closeRaised s work target exc shut)
  | _, _ => none

/-- The sandbox whose `sample_init` is in its `except` clause. -/
def Task.undoing : Task → Option SandboxKey
  | .deleting (.undo _) target _ | .sleeping (.undo _) target _ _ | .closing (.undo _) target _ =>
      some target
  | _ => none

/-- The sandbox whose `sample_init` has stopped, and whether its client is closed. -/
def Task.initResult : Task → Option (SandboxKey × Bool)
  | .initStopped sample closed _ => some (sample, closed)
  | _ => none

theorem Task.undoing_of_initResult {t : Task} {result : SandboxKey × Bool}
    (h : t.initResult = some result) : t.undoing = none := by
  cases t with
  | initStopped sample closed exc => rfl
  | _ => cases h

/-- A sample that is being undone has attempted its delete. -/
def Owned (s : Store) (t : Task) : Prop := ∀ target, t.undoing = some target → target ∈ s.attempted

/-- What is undone has attempted its delete. -/
def Work.OwnedBy (work : Work) (target : SandboxKey) (s : Store) : Prop :=
  ∀ cause, work = .undo cause → target ∈ s.attempted

/-- What every part of a call does that is not the end of a `sample_init`. -/
structure Effect (s : Store) (p : Store × Task) : Prop where
  attempted : s.attempted ⊆ p.1.attempted
  kept : ∀ r ∈ s.runningSandboxes, r ∈ p.1.runningSandboxes ∨ r.toSandboxKey ∈ p.1.acknowledged
  owned : Owned p.1 p.2
  goesOn : p.2.initResult = none

theorem Owned.of_none {s : Store} {t : Task} (h : t.undoing = none) : Owned s t := by
  intro target htarget
  rw [h] at htarget
  cases htarget

/-- A step that leaves the store alone. -/
theorem Effect.still {s : Store} {t : Task} (howned : Owned s t) (hgoes : t.initResult = none) :
    Effect s (s, t) :=
  ⟨fun _ h => h, fun _ h => Or.inl h, howned, hgoes⟩

theorem attempt_effect (s : Store) (work : Work) (target : SandboxKey) (deadline : ℚ) :
    Effect s (s.attempt target, .deleting work target deadline) := by
  refine ⟨fun key hkey => List.mem_cons_of_mem _ hkey, fun r hr => Or.inl hr, ?_, rfl⟩
  intro key hkey
  cases work <;> cases hkey
  exact List.mem_cons_self

theorem startDelete_effect (s : Store) (work : Work) (target : SandboxKey) (now : ℚ) :
    Effect s (startDelete s work target now) := attempt_effect s work target _

theorem nextEnvironment_effect (s : Store) (interrupted : Bool) (environments : List SandboxKey)
    (now : ℚ) : Effect s (nextEnvironment s interrupted environments now) := by
  cases environments with
  | nil => exact .still (.of_none rfl) rfl
  | cons target rest =>
      by_cases hinterrupted : interrupted = true
      · simp only [nextEnvironment, hinterrupted, if_true]
        exact .still (.of_none rfl) rfl
      · simp only [nextEnvironment, hinterrupted, Bool.false_eq_true, if_false]
        exact startDelete_effect s _ target now

theorem nextRecord_effect (s : Store) (failures : List (String × CallError))
    (records : List SandboxRecord) (now : ℚ) : Effect s (nextRecord s failures records now) := by
  cases records with
  | nil => exact .still (.of_none rfl) rfl
  | cons r rest => exact startDelete_effect s _ _ now

/-- What `_forget_running_sandbox` takes off the list is the sandbox it was given. -/
theorem forget_kept (s : Store) (target : SandboxKey) :
    ∀ r ∈ s.runningSandboxes,
      r ∈ (s.forgetRunningSandbox target).runningSandboxes ∨ r.toSandboxKey = target := by
  intro r hr
  cases hrunning : s.running with
  | none => simp [Store.runningSandboxes, hrunning] at hr
  | some records =>
      have hmem : r ∈ records := by simpa [Store.runningSandboxes, hrunning] using hr
      by_cases hkey : r.toSandboxKey = target
      · exact Or.inr hkey
      · left
        have hne : ¬ (r.baseUrl = target.baseUrl ∧ r.id = target.id) := by
          intro h
          apply hkey
          cases r with
          | mk key headers =>
              cases key
              cases target
              simpa using h
        have hfilter : (!(r.baseUrl == target.baseUrl && r.id == target.id)) = true := by
          rw [Bool.not_eq_true', Bool.eq_false_iff]
          intro hboth
          exact hne (by simpa using hboth)
        simp only [Store.runningSandboxes, Store.forgetRunningSandbox, hrunning]
        exact List.mem_filter.mpr ⟨hmem, hfilter⟩

section Delete
variable {s : Store} {work : Work} {target : SandboxKey}

theorem deleted_effect (h : work.OwnedBy target s) : Effect s (deleted s work target) := by
  cases work with
  | undo cause =>
      refine ⟨fun _ hkey => hkey, fun r hr => Or.inl hr, ?_, rfl⟩
      intro key hkey
      cases hkey
      exact h cause rfl
  | cleanup interrupted rest =>
      refine ⟨fun _ hkey => hkey, fun r hr => ?_, .of_none rfl, rfl⟩
      rcases forget_kept s target r hr with hkept | rfl
      · exact Or.inl hkept
      · exact Or.inr List.mem_cons_self
  | sweep failures rest =>
      refine ⟨fun _ hkey => hkey, fun r hr => ?_, .of_none rfl, rfl⟩
      rcases forget_kept s target r hr with hkept | rfl
      · exact Or.inl hkept
      · exact Or.inr List.mem_cons_self

theorem deleteFailed_effect (h : work.OwnedBy target s) (exc : CallError) :
    Effect s (deleteFailed s work target exc) := by
  cases work with
  | undo cause =>
      refine .still (fun key hkey => ?_) rfl
      cases hkey
      exact h cause rfl
  | cleanup interrupted rest => exact .still (.of_none rfl) rfl
  | sweep failures rest =>
      by_cases hexc : exc.isException = true
      · simp only [deleteFailed, hexc, if_true]
        exact .still (.of_none rfl) rfl
      · simp only [deleteFailed, hexc, Bool.false_eq_true, if_false]
        exact .still (.of_none rfl) rfl

theorem deleteAgain_effect (h : work.OwnedBy target s) (deadline : ℚ) (exc : CallError)
    (delay now : ℚ) : Effect s (deleteAgain s work target deadline exc delay now) := by
  by_cases hlate : deadline - now ≤ 0
  · simp only [deleteAgain, hlate, if_true]
    exact deleteFailed_effect h _
  · simp only [deleteAgain, hlate, if_false]
    refine .still (fun key hkey => ?_) rfl
    cases work <;> cases hkey
    exact h _ rfl

theorem deleteRaised_effect (py : Interpreter) (h : work.OwnedBy target s) (deadline : ℚ)
    (exc : CallError) (now : ℚ) : Effect s (deleteRaised py s work target deadline exc now) := by
  cases exc with
  | api e =>
      simp only [deleteRaised]
      split_ifs
      · exact deleted_effect h
      · exact deleteFailed_effect h _
      · exact deleteAgain_effect h _ _ _ _
  | transport text => exact deleteAgain_effect h _ _ _ _
  | other text => exact deleteFailed_effect h _
  | base name => exact deleteFailed_effect h _

/-- The close of a cleanup. -/
theorem closeReturned_effect (h : ∀ cause, work ≠ .undo cause) (exc : Option CallError) (now : ℚ) :
    Effect s (closeReturned s work target exc now) := by
  cases work with
  | undo cause => exact absurd rfl (h cause)
  | cleanup interrupted rest =>
      cases exc with
      | none => exact nextEnvironment_effect s interrupted rest now
      | some exc => exact .still (.of_none rfl) rfl
  | sweep failures rest =>
      cases exc with
      | none => exact nextRecord_effect s failures rest now
      | some exc => exact .still (.of_none rfl) rfl

theorem closeRaised_effect (h : ∀ cause, work ≠ .undo cause) (exc : CallError) (shut : Bool) :
    Effect s (closeRaised s work target exc shut) := by
  cases work with
  | undo cause => exact absurd rfl (h cause)
  | cleanup interrupted rest => exact .still (.of_none rfl) rfl
  | sweep failures rest => exact .still (.of_none rfl) rfl

end Delete

/-- How a `sample_init` stops: what it leaves in the store and whether its client is closed. -/
inductive Stops : Store → Task → Event → Store → SandboxKey → Bool → Prop
  | created (s : Store) (sample : SandboxRecord) :
      Stops s (.creating sample) .created (s.append sample) sample.toSandboxKey false
  | cancelled (s : Store) (sample : SandboxRecord) (exc : CallError) (now : ℚ)
      (hexc : exc.isException = false) :
      Stops s (.creating sample) (.createRaised exc now) s sample.toSandboxKey false
  | closed (s : Store) (cause : CallError) (target : SandboxKey) (exc : Option CallError)
      (now : ℚ) :
      Stops s (.closing (.undo cause) target exc) (.closed now) s target true
  | closeRaised (s : Store) (cause : CallError) (target : SandboxKey) (exc : Option CallError)
      (raised : CallError) (shut : Bool) :
      Stops s (.closing (.undo cause) target exc) (.closeRaised raised shut) s target shut

/-- Every event either stops a `sample_init` or has the effect of one that goes on. -/
theorem advance_cases {py : Interpreter} {s s' : Store} {t t' : Task} {e : Event} (h : Owned s t)
    (hstep : advance py s t e = some (s', t')) :
    Effect s (s', t') ∨
      ∃ sample closed, t'.initResult = some (sample, closed) ∧ Stops s t e s' sample closed := by
  cases t with
  | idle =>
      left
      cases e with
      | sampleInit sample =>
          cases hstep
          exact .still (.of_none rfl) rfl
      | sampleCleanup environments interrupted now =>
          simp only [advance, Option.some.injEq] at hstep
          rw [← hstep]
          exact nextEnvironment_effect s interrupted environments now
      | taskCleanup cleanup now =>
          simp only [advance] at hstep
          split_ifs at hstep
          · rw [← Option.some.inj hstep]
            exact nextRecord_effect s _ _ now
          · cases hstep
            exact .still (.of_none rfl) rfl
      | _ => cases hstep
  | creating sample =>
      cases e with
      | created =>
          cases hstep
          exact Or.inr ⟨_, _, rfl, .created s sample⟩
      | createRaised exc now =>
          simp only [advance] at hstep
          split_ifs at hstep with hexc
          · cases hstep
            exact Or.inl (startDelete_effect s _ _ now)
          · cases hstep
            exact Or.inr ⟨_, _, rfl, .cancelled s sample exc now (by simpa using hexc)⟩
      | _ => cases hstep
  | deleting work target deadline =>
      left
      have howned : work.OwnedBy target s := fun cause hwork => h target (by subst hwork; rfl)
      cases e with
      | deleteReturned =>
          simp only [advance, Option.some.injEq] at hstep
          rw [← hstep]
          exact deleted_effect howned
      | deleteRaised exc now =>
          simp only [advance, Option.some.injEq] at hstep
          rw [← hstep]
          exact deleteRaised_effect py howned deadline exc now
      | _ => cases hstep
  | sleeping work target deadline seconds =>
      left
      have howned : work.OwnedBy target s := fun cause hwork => h target (by subst hwork; rfl)
      cases e with
      | woke =>
          cases hstep
          exact attempt_effect s work target deadline
      | sleepRaised exc =>
          simp only [advance, Option.some.injEq] at hstep
          rw [← hstep]
          exact deleteFailed_effect howned exc
      | _ => cases hstep
  | closing work target exc =>
      cases e with
      | closed now =>
          simp only [advance, Option.some.injEq] at hstep
          cases work with
          | undo cause =>
              cases hstep
              exact Or.inr ⟨_, _, rfl, .closed s cause target exc now⟩
          | _ =>
              rw [← hstep]
              exact Or.inl (closeReturned_effect (fun cause h => by cases h) exc now)
      | closeRaised raised shut =>
          simp only [advance, Option.some.injEq] at hstep
          cases work with
          | undo cause =>
              cases hstep
              exact Or.inr ⟨_, _, rfl, .closeRaised s cause target exc raised shut⟩
          | _ =>
              rw [← hstep]
              exact Or.inl (closeRaised_effect (fun cause h => by cases h) raised shut)
      | _ => cases hstep
  | _ => cases e <;> cases hstep

/-- The tasks of an evaluation. -/
abbrev World := Crew ℕ Store Task

/-- What a task may do. -/
def act (py : Interpreter) : Crew.Local ℕ Store Task := fun _ s t s' t' =>
  ∃ e, advance py s t e = some (s', t')

/-- No call has begun. -/
def World.start (s : Store) : World := ⟨s, fun _ => .idle⟩

/-- One event of a run, and the states before and after it. -/
structure Transition where
  before : World
  task : ℕ
  event : Event
  after : World

/-- The transitions of a run. It ends at an event that cannot happen. -/
def transitions (py : Interpreter) (w : World) : List (ℕ × Event) → List Transition
  | [] => []
  | (k, e) :: rest =>
      match advance py w.store (w.agent k) e with
      | none => []
      | some (s, t) => ⟨w, k, e, w.put k s t⟩ :: transitions py (w.put k s t) rest

/-- A transition of a run is a step of its task, from a state that the tasks reach. -/
theorem transitions_step {py : Interpreter} {w₀ w : World} (hw : Crew.Reachable (act py) w₀ w)
    {events : List (ℕ × Event)} {τ : Transition} (h : τ ∈ transitions py w events) :
    Crew.Reachable (act py) w₀ τ.before ∧
      ∃ s t, advance py τ.before.store (τ.before.agent τ.task) τ.event = some (s, t) ∧
        τ.after = τ.before.put τ.task s t := by
  induction events generalizing w with
  | nil => cases h
  | cons entry rest ih =>
      obtain ⟨k, e⟩ := entry
      cases hstep : advance py w.store (w.agent k) e with
      | none => simp [transitions, hstep] at h
      | some p =>
          obtain ⟨s, t⟩ := p
          simp only [transitions, hstep, List.mem_cons] at h
          rcases h with rfl | h
          · exact ⟨hw, s, t, hstep, rfl⟩
          · exact ih (hw.next (.move w k s t ⟨e, hstep⟩)) h

theorem owned_guarded (py : Interpreter) : Crew.Guarded (act py) fun _ s t => Owned s t where
  own k s t s' t' h hact := by
    obtain ⟨e, hstep⟩ := hact
    rcases advance_cases h hstep with heffect | ⟨sample, closed, hresult, -⟩
    · exact heffect.owned
    · exact .of_none (Task.undoing_of_initResult hresult)
  rest k j s t s' t' other hne h hother hact := by
    obtain ⟨e, hstep⟩ := hact
    intro target htarget
    have hattempted := hother target htarget
    rcases advance_cases h hstep with heffect | ⟨sample, closed, -, hstops⟩
    · exact heffect.attempted hattempted
    · cases hstops <;> exact hattempted

/-- Whatever the tasks did, a sample that is being undone has attempted its delete. -/
theorem owned_reachable {py : Interpreter} {s : Store} {w : World}
    (h : Crew.Reachable (act py) (World.start s) w) (k : ℕ) : Owned w.store (w.agent k) :=
  (owned_guarded py).reachable (fun _ => .of_none rfl) h k

namespace Transition

/-- A `sample_init` that stops has its sandbox on the list, or has attempted its delete and closed
its client. -/
def LeavesNoOrphan (τ : Transition) : Prop :=
  ∀ sample closed, (τ.after.agent τ.task).initResult = some (sample, closed) →
    τ.after.store.Lists sample ∨ (sample ∈ τ.after.store.attempted ∧ closed = true)

/-- What leaves the list was acknowledged. -/
def ForgetsAcknowledged (τ : Transition) : Prop :=
  ∀ r ∈ τ.before.store.runningSandboxes, r ∉ τ.after.store.runningSandboxes →
    r.toSandboxKey ∈ τ.after.store.acknowledged

/-- The create request returns where there is a list, or it ends in an `Exception`; and the close
that follows is not cut short before its session is closed. A sandbox of that gateway and id that is
already on the list makes up for either. -/
def Tidy (τ : Transition) : Prop :=
  match τ.before.agent τ.task, τ.event with
  | .creating _, .created => τ.before.store.running.isSome = true
  | .creating sample, .createRaised exc _ =>
      exc.isException = true ∨ τ.before.store.Lists sample.toSandboxKey
  | .closing (.undo _) target _, .closeRaised _ shut =>
      shut = true ∨ τ.before.store.Lists target
  | _, _ => True

end Transition

/-- What `append` adds is on the list if there is one. -/
theorem lists_append_iff (s : Store) (sample : SandboxRecord) :
    (s.append sample).Lists sample.toSandboxKey ↔ s.running.isSome = true := by
  cases hrunning : s.running with
  | none => simp [Store.Lists, Store.append, Store.runningSandboxes, hrunning]
  | some records =>
      simp only [Store.Lists, Store.append, Store.runningSandboxes, hrunning, Option.map_some,
        Option.getD_some, Option.isSome_some, iff_true]
      exact ⟨sample, by simp, rfl⟩

/-- The stops that leave no orphan. -/
theorem stops_iff {τ : Transition} {s : Store} {t : Task} {sample : SandboxKey}
    {closed : Bool} (howned : Owned τ.before.store (τ.before.agent τ.task))
    (hafter : τ.after = τ.before.put τ.task s t) (hresult : t.initResult = some (sample, closed))
    (hstops : Stops τ.before.store (τ.before.agent τ.task) τ.event s sample closed) :
    τ.LeavesNoOrphan ↔ τ.Tidy := by
  have hleaves : τ.LeavesNoOrphan ↔
      s.Lists sample ∨ (sample ∈ s.attempted ∧ closed = true) := by
    simp [Transition.LeavesNoOrphan, hafter, hresult]
  rw [hleaves]
  obtain ⟨before, k, e, after⟩ := τ
  simp only at howned hstops
  generalize htask : before.agent k = task at howned hstops
  generalize hstore : before.store = store at howned hstops
  cases hstops with
  | created record =>
      simp [Transition.Tidy, htask, hstore, lists_append_iff]
  | cancelled record exc now hexc =>
      simp [Transition.Tidy, htask, hstore, hexc]
  | closed cause exc now =>
      simp only [Transition.Tidy, htask, and_true, iff_true]
      exact Or.inr (howned sample rfl)
  | closeRaised cause exc raised =>
      have hattempted : sample ∈ s.attempted := howned sample rfl
      simp [Transition.Tidy, htask, hstore, hattempted, or_comm]

/-- What stops no `sample_init` is tidy. -/
theorem tidy_of_goesOn {py : Interpreter} {τ : Transition} {s : Store} {t : Task}
    (hstep : advance py τ.before.store (τ.before.agent τ.task) τ.event = some (s, t))
    (hgoes : t.initResult = none) : τ.Tidy := by
  obtain ⟨before, k, e, after⟩ := τ
  simp only at hstep
  cases htask : before.agent k with
  | creating sample =>
      cases e with
      | created =>
          rw [htask] at hstep
          cases hstep
          cases hgoes
      | createRaised exc now =>
          by_cases hexc : exc.isException = true
          · simp [Transition.Tidy, htask, hexc]
          · simp only [htask, advance, hexc, Bool.false_eq_true, if_false] at hstep
            cases hstep
            cases hgoes
      | _ => simp [Transition.Tidy, htask]
  | closing work target exc =>
      cases e with
      | closeRaised raised shut =>
          rw [htask] at hstep
          cases work with
          | undo cause =>
              cases hstep
              cases hgoes
          | _ => simp [Transition.Tidy, htask]
      | _ => simp [Transition.Tidy, htask]
  | _ => simp [Transition.Tidy, htask]

section Run
variable {py : Interpreter} {s : Store} {events : List (ℕ × Event)} {τ : Transition}

/-- In every run, a transition leaves no orphan exactly when it is tidy. -/
theorem leavesNoOrphan_iff (h : τ ∈ transitions py (World.start s) events) :
    τ.LeavesNoOrphan ↔ τ.Tidy := by
  obtain ⟨hreach, s', t', hstep, hafter⟩ := transitions_step .start h
  have howned := owned_reachable hreach τ.task
  rcases advance_cases howned hstep with heffect | ⟨sample, closed, hresult, hstops⟩
  · have hgoes : t'.initResult = none := heffect.goesOn
    constructor
    · intro _
      exact tidy_of_goesOn hstep hgoes
    · intro _ sample closed hresult
      rw [hafter, Crew.agent_put_self, hgoes] at hresult
      cases hresult
  · exact stops_iff howned hafter hresult hstops

/-- In every run, what leaves the list was acknowledged or answered 404. -/
theorem leaves_acknowledged (h : τ ∈ transitions py (World.start s) events) :
    τ.ForgetsAcknowledged := by
  obtain ⟨hreach, s', t', hstep, hafter⟩ := transitions_step .start h
  have howned := owned_reachable hreach τ.task
  intro r hr hgone
  rw [hafter, Crew.store_put] at hgone ⊢
  rcases advance_cases howned hstep with heffect | ⟨sample, closed, -, hstops⟩
  · exact (heffect.kept r hr).resolve_left hgone
  · refine absurd ?_ hgone
    generalize τ.before.store = store at hstops hr
    generalize τ.before.agent τ.task = task at hstops
    generalize τ.event = e at hstops
    cases hstops with
    | created record =>
        cases hrunning : store.running with
        | none => simp [Store.runningSandboxes, hrunning] at hr
        | some records =>
            have hmem : r ∈ records := by simpa [Store.runningSandboxes, hrunning] using hr
            simp [Store.append, Store.runningSandboxes, hrunning, hmem]
    | _ => exact hr

end Run

/-- **No orphaned sandbox.** A run leaves no `sample_init` whose sandbox is neither on the list nor
deleted by a client that was closed, and takes off the list only what was acknowledged, exactly when
every create request of it returns where there is a list or ends in an `Exception`, and no close
behind such an exception is cut short before its session is closed, unless the list has a sandbox of
that gateway and id already. -/
theorem never_orphaned_iff (py : Interpreter) (s : Store) (events : List (ℕ × Event)) :
    (∀ τ ∈ transitions py (World.start s) events, τ.LeavesNoOrphan ∧ τ.ForgetsAcknowledged) ↔
      ∀ τ ∈ transitions py (World.start s) events, τ.Tidy := by
  constructor
  · intro h τ hτ
    exact (leavesNoOrphan_iff hτ).mp (h τ hτ).1
  · intro h τ hτ
    exact ⟨(leavesNoOrphan_iff hτ).mpr (h τ hτ), leaves_acknowledged hτ⟩

/-- A `sample_init` is cancelled while it waits for its create request. -/
def cancelledCreate : List (ℕ × Event) :=
  [(0, .sampleInit { baseUrl := "http://gateway.invalid", id := "inspect-1", headers := [] }),
    (0, .createRaised (.base "CancelledError") 0)]

/-- The sandbox may exist, and nobody owns it. -/
theorem cancelledCreate_orphans :
    ¬ ∀ τ ∈ transitions (.ascii []) (World.start (Store.sandboxCleanupStartup ⟨none, [], []⟩))
      cancelledCreate, τ.LeavesNoOrphan ∧ τ.ForgetsAcknowledged := by
  intro h
  have hlast := h _ (List.mem_cons_of_mem _ List.mem_cons_self)
  rcases hlast.1 ⟨"http://gateway.invalid", "inspect-1"⟩ false rfl with hlisted | hclosed
  · obtain ⟨r, hr, -⟩ := hlisted
    cases hr
  · cases hclosed.2

end UcloudSandboxes.Inspect
