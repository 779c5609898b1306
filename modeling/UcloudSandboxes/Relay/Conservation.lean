import UcloudSandboxes.Relay.AsyncWorker
import UcloudSandboxes.Relay.SyncWorker

/-!
# Admission over whole runs

The worker loops of one client, in either transport, over every interleaving of their steps: permits
are conserved, a poll is sent with a permit, the number of live tasks is bounded, and all permits
are back when every loop is done. `budget_never_fails` says that no operation on the async budget
runs into a future that is already resolved, so the steps of `AsyncWorker.Act` that ask for the
result of such an operation leave no behaviour out.
-/
namespace UcloudSandboxes.Relay
open Lib Python

universe u
variable {ι : Type u} [DecidableEq ι]

/-- **No `set_result` on a resolved future.** In every run, whatever a loop asks of the budget is
done without an exception. -/
theorem budget_never_fails {py : Interpreter} {options : ι → WorkerOptions} {capacity : ℕ}
    {c : Crew ι (AsyncRequestBudget ι) AsyncWorker}
    (h : Crew.Reachable (AsyncWorker.Act py options) (AsyncWorker.start ι capacity) c) (k : ι) :
    (∃ b, c.store.enter k = some b) ∧ (∀ count, ∃ b, c.store.release count = some b) ∧
      ∀ future, (c.agent k).phase.future = some future → ∃ b, c.store.giveUp future = some b := by
  have H := AsyncWorker.reachable_inv h k
  refine ⟨?_, fun count => ?_, fun future hf => ?_⟩
  · obtain ⟨b, hb, _⟩ := AsyncRequestBudget.enter_spec H.queued k
    exact ⟨b, hb⟩
  · obtain ⟨b, hb, _⟩ := AsyncRequestBudget.release_spec H.queued count
    exact ⟨b, hb⟩
  · obtain ⟨b, hb, _⟩ := AsyncRequestBudget.giveUp_spec H.queued ((H.awaited future).mpr hf)
    exact ⟨b, hb⟩

/-- **Admission is conserved** across any number of sync loops, and across any number of async
loops, that share one client. The permits reserved for polls are those a loop has reserved and, for
async loops, those handed to an `acquire` that has not returned yet. -/
theorem admission_conserved [Fintype ι] (py : Interpreter) (options : ι → WorkerOptions)
    (capacity : ℕ) :
    (∀ c, Crew.Reachable (SyncWorker.Act py options) (SyncWorker.start ι capacity) c →
      c.store.available + ∑ k, (c.agent k).reserved +
          ∑ k, (c.agent k).tasks.countP Task.owing = capacity ∧
        (∀ k limit, (c.agent k).phase = .polling limit →
          limit = (c.agent k).reserved ∧ 0 < (c.agent k).reserved) ∧
        (∀ k, (c.agent k).tasks.countP Task.live ≤ (options k).maxConcurrency) ∧
        ((∀ k, (c.agent k).phase = .finished) →
          (∀ k, ∀ t ∈ (c.agent k).tasks, t.callback = false) → c.store.available = capacity)) ∧
    (∀ c, Crew.Reachable (AsyncWorker.Act py options) (AsyncWorker.start ι capacity) c →
      c.store.available + (c.store.handed + ∑ k, (c.agent k).reserved) +
          ∑ k, (c.agent k).tasks.countP Task.owing = capacity ∧
        (∀ k limit, (c.agent k).phase = .polling limit →
          limit = (c.agent k).reserved ∧ 0 < (c.agent k).reserved) ∧
        (∀ k, (c.agent k).tasks.countP Task.live ≤ (options k).maxConcurrency) ∧
        ((∀ k, (c.agent k).phase = .finished) →
          (∀ k, ∀ t ∈ (c.agent k).tasks, t.callback = false) → c.store.available = capacity)) := by
  constructor
  · intro c h
    have H := SyncWorker.reachable_inv h
    have htotal := SyncWorker.reachable_permits h
    refine ⟨?_, fun k limit hp => ?_, fun k => (H k).live_le, fun hf hc => ?_⟩
    · simp only [SyncWorker.permits, Finset.sum_add_distrib] at htotal
      omega
    · have hroom := (H k).room
      simp only [SyncWorker.Room, hp] at hroom
      omega
    · have hzero : ∑ k, (c.agent k).permits = 0 := Finset.sum_eq_zero fun k _ =>
        SyncWorker.permits_eq_zero (H k) (hf k) (hc k)
      omega
  · intro c h
    have H := AsyncWorker.reachable_inv h
    have htotal := AsyncWorker.reachable_permits h
    refine ⟨?_, fun k limit hp => ?_, fun k => (H k).sound.live_le, fun hf hc => ?_⟩
    · simp only [AsyncRequestBudget.stock, AsyncWorker.permits, Finset.sum_add_distrib] at htotal
      omega
    · have hroom := (H k).sound.room
      simp only [AsyncWorker.Room, hp] at hroom
      omega
    · have hzero : ∑ k, (c.agent k).permits = 0 := Finset.sum_eq_zero fun k _ =>
        AsyncWorker.permits_eq_zero (H k).sound (hf k) (hc k)
      have hhanded := AsyncWorker.handed_eq_zero H hf
      simp only [AsyncRequestBudget.stock] at htotal
      omega

/-- The options both loops of the runs below have. -/
def defaultOptions : Fin 2 → WorkerOptions := fun _ => ⟨4, 8, by decide⟩

/-- No task is found done in an empty set. -/
theorem completed_nil : Completed (fun _ => false) [] ∧ ¬ AnyFailed (fun _ => false) [] :=
  ⟨fun i t h => by simp at h, fun ⟨i, t, h, _⟩ => by simp at h⟩

/-- Two sync loops and one permit: the first loop polls with it. -/
def syncPolling : Crew (Fin 2) (SyncRequestBudget (Fin 2)) SyncWorker :=
  ((SyncWorker.start (Fin 2) 1).put 0 (.new 1) { phase := .entering }).put 0
    { capacity := 1, available := 0 } { phase := .polling 1, reserved := 1 }

theorem reachable_syncPolling :
    Crew.Reachable (SyncWorker.Act (.ascii []) defaultOptions) (SyncWorker.start (Fin 2) 1)
      syncPolling :=
  .next (.next .start (.move _ 0 _ _ (.collect _ rfl completed_nil.1 completed_nil.2)))
    (.move _ 0 _ _ (.enter false rfl))

/-- Two async loops and one permit: the first loop polls with it. -/
def asyncPolling : Crew (Fin 2) (AsyncRequestBudget (Fin 2)) AsyncWorker :=
  ((((AsyncWorker.start (Fin 2) 1).put 0
      { capacity := 1, available := 0, futures := [⟨0, .granted⟩] } { phase := .acquiring 0 }).put 0
      { capacity := 1, available := 0, futures := [⟨0, .granted⟩] }
      { phase := .settling 0 (some false) }).put 0
      { capacity := 1, available := 0, futures := [⟨0, .taken⟩] }
      { phase := .slot, reserved := 1 }).put 0
    { capacity := 1, available := 0, futures := [⟨0, .taken⟩] }
    { phase := .polling 1, reserved := 1 }

theorem reachable_asyncPolling :
    Crew.Reachable (AsyncWorker.Act (.ascii []) defaultOptions) (AsyncWorker.start (Fin 2) 1)
      asyncPolling :=
  .next (.next (.next (.next .start
    (.move _ 0 _ _ (.enter _ rfl completed_nil.1 completed_nil.2 (by decide) rfl)))
    (.move _ 0 _ _ (.resume 0 false rfl (.inr rfl))))
    (.move _ 0 _ _ (.claim 0 rfl)))
    (.move _ 0 _ _ (.enterSlot rfl))

/-- The polling loops hold the one permit there is, and poll for one request. -/
theorem admission_conserved_polling :
    (syncPolling.store.available + ∑ k, (syncPolling.agent k).reserved +
        ∑ k, (syncPolling.agent k).tasks.countP Task.owing = 1 ∧
      1 = (syncPolling.agent 0).reserved) ∧
    asyncPolling.store.available +
        (asyncPolling.store.handed + ∑ k, (asyncPolling.agent k).reserved) +
        ∑ k, (asyncPolling.agent k).tasks.countP Task.owing = 1 ∧
      1 = (asyncPolling.agent 0).reserved := by
  obtain ⟨hsync, hasync⟩ := admission_conserved (.ascii []) defaultOptions 1
  obtain ⟨hs, hsp, _⟩ := hsync _ reachable_syncPolling
  obtain ⟨ha, hap, _⟩ := hasync _ reachable_asyncPolling
  exact ⟨⟨hs, (hsp 0 1 rfl).1⟩, ha, (hap 0 1 rfl).1⟩

end UcloudSandboxes.Relay
