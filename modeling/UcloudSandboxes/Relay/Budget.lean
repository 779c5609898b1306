import UcloudSandboxes.Lib.Crew
import UcloudSandboxes.Relay.Admission

/-!
# The request budgets over whole runs

Any number of callers share a budget: threads a `SyncRequestBudget`, tasks an `AsyncRequestBudget`.
A caller acquires permits one by one, holds some, and releases what it holds when it likes. In
`AsyncRequestBudget.acquire` it can be cancelled at each of the two awaits, also while a
cancellation is in flight; a stop event can be set at any time. A step is what a caller does in one
critical section, or between two awaits.

`budgets_fair`: no permit is lost or made up, permits are granted in the order of arrival, no future
is resolved twice, and no permit of the async budget is idle while somebody waits for one. Whoever
has left `acquire`, cancelled or stopped, has left neither a ticket nor a future behind: every
permit that is on its way has a caller that will claim it or give it back.
-/
namespace UcloudSandboxes.Relay
open Lib

universe u
variable {ι : Type u}

/-! ## The async budget -/

namespace AsyncRequestBudget

/-- The queue is in the order of arrival and holds every pending future; no future that arrived
behind a pending one has been granted. -/
structure Ordered (b : AsyncRequestBudget ι) (queue : List ℕ) : Prop where
  sorted : queue.Pairwise (· < ·)
  pending : ∀ id, b.stateOf id = some .pending → id ∈ queue
  fifo : ∀ i j, j < i → b.stateOf j = some .pending →
    b.stateOf i ≠ some .granted ∧ b.stateOf i ≠ some .taken

/-- There is no permit left, or nobody waits. -/
def Busy (b : AsyncRequestBudget ι) : Prop := b.available = 0 ∨ b.waiters = []

/-- Granting the first waiter keeps the order. -/
theorem ordered_grant {b : AsyncRequestBudget ι} {id : ℕ} {rest : List ℕ}
    (h : b.Ordered (id :: rest)) : (b.grant id).Ordered rest := by
  obtain ⟨hfirst, hrest⟩ := List.pairwise_cons.mp h.sorted
  have hstate : ∀ j, (b.grant id).stateOf j = (b.mark id .granted).stateOf j := fun _ => rfl
  -- a future that is still pending arrived behind `id`
  have hbehind : ∀ j, (b.grant id).stateOf j = some .pending →
      b.stateOf j = some .pending ∧ j ∈ rest ∧ id < j := by
    intro j hj
    rw [hstate, stateOf_mark] at hj
    split at hj
    · cases hstate' : b.stateOf j <;> simp [hstate'] at hj
    · rename_i hne
      have hmem : j ∈ rest := (List.mem_cons.mp (h.pending j hj)).resolve_left (Ne.symm hne)
      exact ⟨hj, hmem, hfirst j hmem⟩
  refine ⟨hrest, fun j hj => (hbehind j hj).2.1, fun i j hji hj => ?_⟩
  obtain ⟨hpending, -, hlt⟩ := hbehind j hj
  rw [hstate, stateOf_mark_of_ne b (by omega)]
  exact h.fifo i j hji hpending

/-- Serving the queue keeps the order, and leaves no permit idle while somebody waits. -/
theorem drainLoop_ordered {queue : List ℕ} {b b' : AsyncRequestBudget ι} (h : b.Ordered queue)
    (hdrain : b.drainLoop queue = some b') : b'.Ordered b'.waiters ∧ b'.Busy := by
  induction queue generalizing b with
  | nil =>
      cases hdrain
      exact ⟨⟨h.sorted, h.pending, h.fifo⟩, .inr rfl⟩
  | cons id rest ih =>
      simp only [drainLoop] at hdrain
      split_ifs at hdrain with hcancelled hnone hpending
      · refine ih ⟨(List.pairwise_cons.mp h.sorted).2, fun j hj => ?_, h.fifo⟩ hdrain
        refine (List.mem_cons.mp (h.pending j hj)).resolve_left fun heq => ?_
        rw [heq, hcancelled] at hj
        cases hj
      · cases hdrain
        exact ⟨⟨h.sorted, h.pending, h.fifo⟩, .inl hnone⟩
      · exact ih (ordered_grant h) hdrain

theorem ordered_create {b : AsyncRequestBudget ι} (hq : b.Queued) (h : b.Ordered b.waiters)
    (owner : ι) : (b.create owner).Ordered (b.create owner).waiters := by
  have hold : ∀ id, (b.create owner).stateOf id = some .pending →
      b.stateOf id = some .pending ∨ id = b.futures.length := by
    intro id hid
    by_cases hlt : id < b.futures.length
    · exact .inl (by simpa [stateOf, create, List.getElem?_append_left hlt] using hid)
    · by_cases heq : id = b.futures.length
      · exact .inr heq
      · have hnone : (b.create owner).futures[id]? = none :=
          List.getElem?_eq_none (by simp [create]; omega)
        simp [stateOf, hnone] at hid
  refine ⟨?_, fun id hid => ?_, fun i j hji hj => ?_⟩
  · refine List.pairwise_append.mpr ⟨h.sorted, List.pairwise_singleton _ _, fun id hid j hj => ?_⟩
    obtain rfl := List.mem_singleton.mp hj
    exact hq.lt_length hid
  · rcases hold id hid with hid | rfl
    · exact List.mem_append_left _ (h.pending id hid)
    · exact List.mem_append_right _ (List.mem_singleton.mpr rfl)
  · by_cases hlt : i < b.futures.length
    · have hpending := (hold j hj).resolve_right (by omega)
      have hstate : (b.create owner).stateOf i = b.stateOf i := by
        simp [stateOf, create, List.getElem?_append_left hlt]
      rw [hstate]
      exact h.fifo i j hji hpending
    · by_cases heq : i = b.futures.length
      · subst heq
        simp [stateOf, create]
      · have hnone : (b.create owner).futures[i]? = none :=
          List.getElem?_eq_none (by simp [create]; omega)
        simp [stateOf, hnone]

/-- Cancelling a pending future, or taking a granted one, keeps the order. -/
theorem ordered_mark {b : AsyncRequestBudget ι} (h : b.Ordered b.waiters) {id : ℕ}
    {state : FutureState}
    (hs : state = .cancelled ∨ (state = .taken ∧ b.stateOf id = some .granted)) :
    (b.mark id state).Ordered (b.mark id state).waiters := by
  have hpending : ∀ j, (b.mark id state).stateOf j = some .pending → b.stateOf j = some .pending := by
    intro j hj
    rw [stateOf_mark] at hj
    split at hj
    · rcases hs with rfl | ⟨rfl, -⟩ <;> cases hstate : b.stateOf j <;> simp [hstate] at hj
    · exact hj
  refine ⟨h.sorted, fun j hj => h.pending j (hpending j hj), fun i j hji hj => ?_⟩
  have hfifo := h.fifo i j hji (hpending j hj)
  rw [stateOf_mark]
  split
  · rename_i heq
    subst heq
    rcases hs with rfl | ⟨rfl, hgranted⟩
    · cases b.stateOf id <;> simp
    · exact absurd hgranted hfifo.1
  · exact hfifo

/-- The budget is in order and busy. -/
structure Fair (b : AsyncRequestBudget ι) : Prop where
  ordered : b.Ordered b.waiters
  busy : b.Busy

theorem fair_drain {b b' : AsyncRequestBudget ι} (h : b.Ordered b.waiters)
    (hdrain : b.drain = some b') : b'.Fair :=
  ⟨(drainLoop_ordered h hdrain).1, (drainLoop_ordered h hdrain).2⟩

theorem fair_enter {b b' : AsyncRequestBudget ι} (hq : b.Queued) (h : b.Fair) {owner : ι}
    (henter : b.enter owner = some b') : b'.Fair :=
  fair_drain (ordered_create hq h.ordered owner) henter

theorem fair_release {b b' : AsyncRequestBudget ι} (h : b.Ordered b.waiters) {count : ℕ}
    (hrelease : b.release count = some b') : b'.Fair :=
  fair_drain (b := { b with available := b.available + count })
    ⟨h.sorted, h.pending, h.fifo⟩ hrelease

theorem fair_claim {b : AsyncRequestBudget ι} (h : b.Fair) {id : ℕ}
    (hid : b.stateOf id = some .granted) : (b.claim id).Fair :=
  ⟨ordered_mark h.ordered (.inr ⟨rfl, hid⟩), h.busy⟩

theorem fair_giveUp {b b' : AsyncRequestBudget ι} (h : b.Fair) {id : ℕ}
    (hgiveUp : b.giveUp id = some b') : b'.Fair := by
  simp only [giveUp] at hgiveUp
  split at hgiveUp
  · exact fair_drain (ordered_mark h.ordered (.inl rfl)) hgiveUp
  · rename_i hgranted
    exact fair_release (fair_claim h hgranted).ordered hgiveUp
  · cases hgiveUp
    exact h

end AsyncRequestBudget

/-- Where a task stands in `AsyncRequestBudget.acquire`. -/
inductive AcquirePhase
  | outside
  /-- Waiting for the future or for the stop event. -/
  | waiting (future : ℕ)
  /-- Waiting for the cancelled stop watcher. `done` says whether the watcher was among the tasks
  that were done; `none` is a cancellation in flight. -/
  | settling (future : ℕ) (done : Option Bool)

/-- The future that the phase waits on. -/
def AcquirePhase.future : AcquirePhase → Option ℕ
  | .outside => none
  | .waiting future | .settling future _ => some future

/-- A task, and the permits it holds. -/
structure AsyncCaller where
  phase : AcquirePhase := .outside
  held : ℕ := 0

namespace AsyncCaller
open AsyncRequestBudget

/-- What task `k` does. -/
inductive Act : Crew.Local ι (AsyncRequestBudget ι) AsyncCaller
  | enter {k b a b'} : a.phase = .outside → b.enter k = some b' →
      Act k b a b' { a with phase := .waiting b.futures.length }
  | resume {k b a} (future : ℕ) (stopDone : Bool) : a.phase = .waiting future →
      stopDone = true ∨ b.stateOf future = some .granted →
      Act k b a b { a with phase := .settling future (some stopDone) }
  | cancelWait {k b a} (future : ℕ) : a.phase = .waiting future →
      Act k b a b { a with phase := .settling future none }
  | claim {k b a} (future : ℕ) : a.phase = .settling future (some false) →
      Act k b a (b.claim future) { phase := .outside, held := a.held + 1 }
  | stopped {k b a b'} (future : ℕ) : a.phase = .settling future (some true) →
      b.giveUp future = some b' → Act k b a b' { a with phase := .outside }
  /-- A cancellation leaves `acquire`: one that was in flight, or a further one. -/
  | cancelled {k b a b'} (future : ℕ) (done : Option Bool) : a.phase = .settling future done →
      b.giveUp future = some b' → Act k b a b' { a with phase := .outside }
  | release {k b a b'} (count : ℕ) : count ≤ a.held → b.release count = some b' →
      Act k b a b' { a with held := a.held - count }

/-- What holds of the budget and task `k` at every step. -/
structure Inv (k : ι) (b : AsyncRequestBudget ι) (a : AsyncCaller) : Prop where
  queued : b.Queued
  fair : b.Fair
  awaited : ∀ id, b.Awaited k id ↔ a.phase.future = some id
  /-- An `acquire` that saw no stop event has its permit. -/
  granted : ∀ future, a.phase = .settling future (some false) →
    b.futures[future]? = some ⟨k, .granted⟩

section Step
variable {k : ι} {b b' : AsyncRequestBudget ι} {a a' : AsyncCaller}

/-- A future that is awaited and resolved has its permit. -/
theorem Inv.granted_of_stateOf (H : Inv k b a) {future : ℕ} (hphase : a.phase.future = some future)
    (hstate : b.stateOf future = some .granted) : b.futures[future]? = some ⟨k, .granted⟩ := by
  rcases (H.awaited future).mpr hphase with hpending | hgranted
  · simp [stateOf, hpending] at hstate
  · exact hgranted

/-- The permits in the budget and those of the task. -/
def total (b : AsyncRequestBudget ι) (a : AsyncCaller) : ℕ := b.stock + a.held

/-- What a step does: the budget stays fair, no permit is lost or made up, the task waits on the
future its phase names, and nobody else notices. -/
theorem step_spec (H : Inv k b a) (h : Act k b a b' a') :
    Inv k b' a' ∧ total b' a' = total b a ∧ ∀ j, j ≠ k → b.Keeps j b' := by
  have hsame : ∀ j, j ≠ k → b.Keeps j b := fun j _ => keeps_of_served (fun id => .refl b id) j
  have hgiveUp : ∀ future, a.phase.future = some future → b.giveUp future = some b' →
      Inv k b' { a with phase := .outside } ∧ total b' { a with phase := .outside } = total b a ∧
        ∀ j, j ≠ k → b.Keeps j b' := by
    intro future hphase hop
    obtain ⟨hq, hstock, hawaited, hkeeps⟩ :=
      of_eq_some (giveUp_spec H.queued ((H.awaited future).mpr hphase)) hop
    refine ⟨⟨hq, fair_giveUp H.fair hop, fun id => ?_, fun _ hf => by cases hf⟩, ?_, hkeeps⟩
    · rw [hawaited, H.awaited, hphase]
      simp [AcquirePhase.future, eq_comm]
    · simp only [total, hstock]
  cases h with
  | enter hphase hop =>
      obtain ⟨hq, hstock, hawaited, hkeeps⟩ := of_eq_some (enter_spec H.queued k) hop
      refine ⟨⟨hq, fair_enter H.queued H.fair hop, fun id => ?_, fun _ hf => by cases hf⟩, ?_, hkeeps⟩
      · rw [hawaited, H.awaited, hphase]
        simp [AcquirePhase.future, eq_comm]
      · simp only [total, hstock]
  | resume future stopDone hphase hdone =>
      refine ⟨⟨H.queued, H.fair, fun id => ?_, fun f hf => ?_⟩, rfl, hsame⟩
      · rw [H.awaited, hphase]
        rfl
      · cases hf
        exact H.granted_of_stateOf (by rw [hphase]; rfl) (hdone.resolve_left (by simp))
  | cancelWait future hphase =>
      refine ⟨⟨H.queued, H.fair, fun id => ?_, fun f hf => by cases hf⟩, rfl, hsame⟩
      rw [H.awaited, hphase]
      rfl
  | claim future hphase =>
      have hgranted := H.granted future hphase
      obtain ⟨hq, hstock, hawaited, hkeeps⟩ := claim_spec H.queued hgranted
      refine ⟨⟨hq, fair_claim H.fair (by simp [stateOf, hgranted]), fun id => ?_,
        fun f hf => by cases hf⟩, ?_, hkeeps⟩
      · rw [hawaited, H.awaited, hphase]
        simp [AcquirePhase.future, eq_comm]
      · simp only [total]
        omega
  | stopped future hphase hop => exact hgiveUp future (by rw [hphase]; rfl) hop
  | cancelled future done hphase hop => exact hgiveUp future (by rw [hphase]; rfl) hop
  | release count hle hop =>
      obtain ⟨hq, hstock, hserved⟩ := of_eq_some (release_spec H.queued count) hop
      have hkeeps := keeps_of_served hserved
      refine ⟨⟨hq, fair_release H.fair.ordered hop, fun id => ?_, fun f hf => ?_⟩, ?_,
        fun j _ => hkeeps j⟩
      · rw [(hkeeps k).awaited id, H.awaited]
      · exact (hkeeps k).granted f (H.granted f hf)
      · simp only [total, hstock]
        omega

end Step

/-- The budget before anybody asks. -/
def start (ι : Type u) (capacity : ℕ) : Crew ι (AsyncRequestBudget ι) AsyncCaller where
  store := .new capacity
  agent _ := {}

section Runs

theorem guarded : Crew.Guarded (Act (ι := ι)) Inv where
  own _ _ _ _ _ H h := (step_spec H h).1
  rest _ j _ _ _ _ _ hj H Hj h := by
    obtain ⟨H', -, hkeeps⟩ := step_spec H h
    have hk := hkeeps j hj
    exact ⟨H'.queued, H'.fair, fun id => (hk.awaited id).trans (Hj.awaited id),
      fun f hf => hk.granted f (Hj.granted f hf)⟩

theorem fair_new (capacity : ℕ) : (new capacity : AsyncRequestBudget ι).Fair := by
  refine ⟨⟨List.Pairwise.nil, fun id hid => ?_, fun i j _ hj => ?_⟩, .inr rfl⟩
  · simp [stateOf, new] at hid
  · simp [stateOf, new] at hj

theorem queued_new (capacity : ℕ) : (new capacity : AsyncRequestBudget ι).Queued :=
  ⟨List.nodup_nil, fun id hid => by cases hid⟩

theorem inv_start (capacity : ℕ) : Crew.Holds Inv (start ι capacity) := by
  intro k
  refine ⟨queued_new capacity, fair_new capacity, fun id => ?_, fun f hf => by cases hf⟩
  simp [Awaited, start, new, AcquirePhase.future]

variable [DecidableEq ι]

theorem reachable_inv {capacity : ℕ} {c : Crew ι (AsyncRequestBudget ι) AsyncCaller}
    (h : Crew.Reachable Act (start ι capacity) c) : Crew.Holds Inv c :=
  guarded.reachable (inv_start capacity) h

omit [DecidableEq ι] in
/-- With nobody in `acquire` no permit is on its way. -/
theorem handed_eq_zero {c : Crew ι (AsyncRequestBudget ι) AsyncCaller} (H : Crew.Holds Inv c)
    (hout : ∀ k, (c.agent k).phase = .outside) : c.store.handed = 0 := by
  refine List.countP_eq_zero.mpr fun f hf hgranted => ?_
  obtain ⟨id, hid⟩ := List.getElem?_of_mem hf
  obtain ⟨owner, state⟩ := f
  obtain rfl : state = .granted := of_decide_eq_true hgranted
  have hphase := ((H owner).awaited id).mp (.inr hid)
  rw [hout] at hphase
  cases hphase

theorem reachable_total [Fintype ι] {capacity : ℕ}
    {c : Crew ι (AsyncRequestBudget ι) AsyncCaller}
    (h : Crew.Reachable Act (start ι capacity) c) :
    c.store.stock + ∑ k, (c.agent k).held = capacity := by
  have hconserved := Crew.Reachable.conserved guarded (inv_start capacity) stock held
    (fun _ _ _ _ _ H hact => (step_spec H hact).2.1) h
  rw [hconserved]
  simp [start, stock, handed, new]

end Runs
end AsyncCaller

/-! ## The sync budget -/

/-- A `SyncRequestBudget` with the tickets numbered as they are made. -/
structure SyncQueue where
  budget : SyncRequestBudget ℕ
  arrivals : ℕ := 0

/-- A thread: its ticket while it is in `acquire`, and the permits it holds. -/
structure SyncCaller where
  ticket : Option ℕ := none
  held : ℕ := 0

namespace SyncCaller

/-- What a pass through the loop of `acquire` leads to. -/
def passed (a : SyncCaller) : Option ℕ → SyncCaller
  | none => a
  | some count => { ticket := none, held := a.held + count }

/-- What thread `k` does. -/
inductive Act : Crew.Local ι SyncQueue SyncCaller
  | enter {k q a} : a.ticket = none →
      Act k q a ⟨q.budget.enter q.arrivals, q.arrivals + 1⟩ { a with ticket := some q.arrivals }
  | pass {k q a} (ticket : ℕ) (stopSet : Bool) : a.ticket = some ticket →
      Act k q a { q with budget := (q.budget.attempt ticket stopSet).2 }
        (a.passed (q.budget.attempt ticket stopSet).1)
  | release {k q a} (count : ℕ) : count ≤ a.held →
      Act k q a { q with budget := q.budget.release count } { a with held := a.held - count }

/-- The queue is in the order of arrival, and the thread is in it while it waits. -/
structure Inv (q : SyncQueue) (a : SyncCaller) : Prop where
  sorted : q.budget.waiters.Pairwise (· < ·)
  bound : ∀ t ∈ q.budget.waiters, t < q.arrivals
  waits : ∀ t, a.ticket = some t → t ∈ q.budget.waiters

/-- Two threads have different tickets. -/
def Differ (a o : SyncCaller) : Prop := ∀ t, a.ticket = some t → o.ticket ≠ some t

section Step
variable {k : ι} {q q' : SyncQueue} {a a' : SyncCaller}

/-- What the queue loses in a pass is the ticket of the thread, which then is out of `acquire`. -/
theorem waiters_attempt (b : SyncRequestBudget ℕ) (t : ℕ) (stopSet : Bool) :
    ((b.attempt t stopSet).1 = none ∧ (b.attempt t stopSet).2.waiters = b.waiters) ∨
      ((b.attempt t stopSet).1 ≠ none ∧ (b.attempt t stopSet).2.waiters = b.waiters.erase t) := by
  simp only [SyncRequestBudget.attempt]
  split
  · exact .inr ⟨by simp, rfl⟩
  · split
    · exact .inr ⟨by simp, rfl⟩
    · exact .inl ⟨rfl, rfl⟩

/-- The queue after a step: one more ticket at the end, or one less. -/
theorem waiters_cases (h : Act k q a q' a') :
    (a.ticket = none ∧ a'.ticket = some q.arrivals ∧ q'.arrivals = q.arrivals + 1 ∧
        q'.budget.waiters = q.budget.waiters ++ [q.arrivals]) ∨
      (a'.ticket = a.ticket ∧ q'.arrivals = q.arrivals ∧ q'.budget.waiters = q.budget.waiters) ∨
      ∃ t, a.ticket = some t ∧ a'.ticket = none ∧ q'.arrivals = q.arrivals ∧
        q'.budget.waiters = q.budget.waiters.erase t := by
  cases h with
  | enter hticket => exact .inl ⟨hticket, rfl, rfl, rfl⟩
  | pass ticket stopSet hticket =>
      rcases waiters_attempt q.budget ticket stopSet with ⟨hnone, hw⟩ | ⟨hsome, hw⟩
      · exact .inr (.inl ⟨by rw [hnone]; rfl, rfl, hw⟩)
      · obtain ⟨count, hcount⟩ := Option.ne_none_iff_exists'.mp hsome
        exact .inr (.inr ⟨ticket, hticket, by rw [hcount]; rfl, rfl, hw⟩)
  | release count hle => exact .inr (.inl ⟨rfl, rfl, rfl⟩)

/-- A step keeps the queue in order, for the thread and for every other one. -/
theorem step_inv (H : Inv q a) (h : Act k q a q' a') : Inv q' a' := by
  obtain ⟨hsorted, hbound, hwaits⟩ := H
  have hnodup : q.budget.waiters.Nodup := hsorted.imp fun hlt => Nat.ne_of_lt hlt
  rcases waiters_cases h with ⟨-, ha', harr, hw⟩ | ⟨ha', harr, hw⟩ | ⟨t, -, ha', harr, hw⟩ <;>
    refine ⟨?_, ?_, ?_⟩ <;> rw [hw]
  · refine List.pairwise_append.mpr ⟨hsorted, List.pairwise_singleton _ _, fun t ht u hu => ?_⟩
    obtain rfl := List.mem_singleton.mp hu
    exact hbound t ht
  · intro t ht
    rcases List.mem_append.mp ht with ht | ht
    · have := hbound t ht
      omega
    · obtain rfl := List.mem_singleton.mp ht
      omega
  · intro t ht
    obtain rfl : q.arrivals = t := by simpa [ha'] using ht
    exact List.mem_append_right _ (List.mem_singleton.mpr rfl)
  · exact hsorted
  · rwa [harr]
  · rwa [ha']
  · exact hsorted.sublist List.erase_sublist
  · rw [harr]
    exact fun u hu => hbound u (List.mem_of_mem_erase hu)
  · rw [ha']
    intro u hu
    cases hu

theorem step_rest {o : SyncCaller} (hao : Differ a o) (H : Inv q a) (Ho : Inv q o)
    (h : Act k q a q' a') : Inv q' o := by
  obtain ⟨hsorted, hbound, -⟩ := step_inv H h
  refine ⟨hsorted, hbound, fun u hu => ?_⟩
  have hmem := Ho.waits u hu
  rcases waiters_cases h with ⟨-, -, -, hw⟩ | ⟨-, -, hw⟩ | ⟨t, ht, -, -, hw⟩ <;> rw [hw]
  · exact List.mem_append_left _ hmem
  · exact hmem
  · have hne : u ≠ t := by
      rintro rfl
      exact hao u ht hu
    exact (List.mem_erase_of_ne hne).mpr hmem

theorem step_differ {o : SyncCaller} (hao : Differ a o) (Ho : Inv q o) (h : Act k q a q' a') :
    Differ a' o := by
  intro u hu ho
  rcases waiters_cases h with ⟨-, ha', -, -⟩ | ⟨ha', -, -⟩ | ⟨t, -, ha', -, -⟩
  · obtain rfl : q.arrivals = u := by simpa [ha'] using hu
    exact absurd (Ho.bound _ (Ho.waits _ ho)) (Nat.lt_irrefl _)
  · exact hao u (ha' ▸ hu) ho
  · rw [ha'] at hu
    cases hu

/-- A step loses no permit and makes none up. -/
theorem step_total (h : Act k q a q' a') :
    q'.budget.available + a'.held = q.budget.available + a.held := by
  cases h with
  | enter hticket => rfl
  | pass ticket stopSet hticket =>
      rcases q.budget.attempt_cases ticket stopSet with ⟨hr, hav⟩ | ⟨hr, hav⟩ | ⟨hr, hav⟩ <;>
        simp only [hr, passed] <;> omega
  | release count hle =>
      simp only [SyncRequestBudget.available_release]
      omega

end Step

/-- The budget before anybody asks. -/
def start (ι : Type u) (capacity : ℕ) : Crew ι SyncQueue SyncCaller where
  store := { budget := .new capacity }
  agent _ := {}

theorem separated : Crew.Separated (Act (ι := ι)) (fun _ => Inv) Differ where
  symm _ _ h t ho ha := h t ha ho
  own _ _ _ _ _ H h := step_inv H h
  rest _ _ _ _ _ _ _ _ hao H Ho h := step_rest hao H Ho h
  apart _ _ _ _ _ _ _ _ hao _ Ho h := step_differ hao Ho h

section Runs

/-- A permit goes to the first of those who wait. -/
theorem attempt_first {c : Crew ι SyncQueue SyncCaller} (H : Crew.Holds (fun _ => Inv) c)
    {t : ℕ} {stopSet : Bool} (hgrant : (c.store.budget.attempt t stopSet).1 = some 1) {j : ι}
    {u : ℕ} (hu : (c.agent j).ticket = some u) : t ≤ u := by
  have hhead : c.store.budget.waiters.head? = some t := by
    simp only [SyncRequestBudget.attempt] at hgrant
    split at hgrant
    · cases hgrant
    · split at hgrant
      · rename_i hfirst
        exact hfirst.1
      · cases hgrant
  obtain ⟨rest, hrest⟩ := List.head?_eq_some_iff.mp hhead
  have hsorted := (H j).sorted
  have hmem := (H j).waits u hu
  rw [hrest] at hsorted hmem
  rcases List.mem_cons.mp hmem with rfl | hmem
  · exact le_rfl
  · exact Nat.le_of_lt ((List.pairwise_cons.mp hsorted).1 u hmem)

/-- The first of those who wait gets the permit that is available. -/
theorem attempt_served {c : Crew ι SyncQueue SyncCaller} (H : Crew.Holds (fun _ => Inv) c)
    (hqueue : ∀ t ∈ c.store.budget.waiters, ∃ j, (c.agent j).ticket = some t)
    (hpos : 0 < c.store.budget.available) {k : ι} {t : ℕ} (ht : (c.agent k).ticket = some t)
    (hfirst : ∀ j u, (c.agent j).ticket = some u → t ≤ u) :
    (c.store.budget.attempt t false).1 = some 1 := by
  have hsorted := (H k).sorted
  have hmem := (H k).waits t ht
  obtain ⟨head, rest, hw⟩ := List.exists_cons_of_ne_nil (List.ne_nil_of_mem hmem)
  rw [hw] at hsorted hmem
  -- the head of the queue belongs to a thread as well, and `t` arrived no later
  obtain ⟨j, hj⟩ := hqueue head (by rw [hw]; exact List.mem_cons_self)
  have hle := hfirst j head hj
  have heq : t = head := by
    rcases List.mem_cons.mp hmem with heq | hrest
    · exact heq
    · have hlt := (List.pairwise_cons.mp hsorted).1 t hrest
      omega
  simp [SyncRequestBudget.attempt, hw, heq, hpos]

variable [DecidableEq ι]

/-- Every ticket in the queue is that of a thread which is in `acquire`. -/
theorem step_owned {c : Crew ι SyncQueue SyncCaller} (H : Crew.Holds (fun _ => Inv) c)
    {k : ι} {q : SyncQueue} {a : SyncCaller} (h : Act k c.store (c.agent k) q a)
    (howned : ∀ t ∈ c.store.budget.waiters, ∃ j, (c.agent j).ticket = some t) :
    ∀ t ∈ q.budget.waiters, ∃ j, ((c.put k q a).agent j).ticket = some t := by
  -- a ticket whose thread does not move is still there
  have hstay : ∀ t ∈ c.store.budget.waiters, (c.agent k).ticket ≠ some t →
      ∃ j, ((c.put k q a).agent j).ticket = some t := by
    intro t ht hne
    obtain ⟨j, hj⟩ := howned t ht
    have hjk : j ≠ k := by
      rintro rfl
      exact hne hj
    exact ⟨j, by rwa [Crew.agent_put_of_ne c hjk]⟩
  intro t ht
  rcases waiters_cases h with ⟨hnone, ha, -, hw⟩ | ⟨ha, -, hw⟩ | ⟨u, hu, -, -, hw⟩ <;> rw [hw] at ht
  · rcases List.mem_append.mp ht with ht | ht
    · exact hstay t ht (by simp [hnone])
    · obtain rfl := List.mem_singleton.mp ht
      exact ⟨k, by rw [Crew.agent_put_self, ha]⟩
  · by_cases hk : (c.agent k).ticket = some t
    · exact ⟨k, by rw [Crew.agent_put_self, ha, hk]⟩
    · exact hstay t ht hk
  · have hnodup : c.store.budget.waiters.Nodup := (H k).sorted.imp fun hlt => Nat.ne_of_lt hlt
    obtain ⟨hne, hmem⟩ := hnodup.mem_erase_iff.mp ht
    refine hstay t hmem ?_
    rw [hu]
    exact fun heq => hne (Option.some.inj heq).symm

theorem reachable_inv {capacity : ℕ} {c : Crew ι SyncQueue SyncCaller}
    (h : Crew.Reachable Act (start ι capacity) c) : Crew.Holds (fun _ => Inv) c := by
  refine (separated.reachable (fun k => ⟨List.Pairwise.nil, fun t ht => ?_, fun t ht => ?_⟩)
    (fun j k _ t ht => ?_) h).1
  · cases ht
  · cases ht
  · cases ht

theorem reachable_owned {capacity : ℕ} {c : Crew ι SyncQueue SyncCaller}
    (h : Crew.Reachable Act (start ι capacity) c) :
    ∀ t ∈ c.store.budget.waiters, ∃ k, (c.agent k).ticket = some t := by
  induction h with
  | start =>
      intro t ht
      cases ht
  | next hreach hstep ih =>
      obtain ⟨k, q, a, hact⟩ := hstep
      exact step_owned (reachable_inv hreach) hact ih

theorem reachable_total [Fintype ι] {capacity : ℕ} {c : Crew ι SyncQueue SyncCaller}
    (h : Crew.Reachable Act (start ι capacity) c) :
    c.store.budget.available + ∑ k, (c.agent k).held = capacity := by
  have hguarded : Crew.Guarded (Act (ι := ι)) fun _ _ _ => True :=
    ⟨fun _ _ _ _ _ _ _ => trivial, fun _ _ _ _ _ _ _ _ _ _ _ => trivial⟩
  have hconserved := Crew.Reachable.conserved hguarded (fun _ => trivial)
    (fun q : SyncQueue => q.budget.available) held (fun _ _ _ _ _ _ hact => step_total hact) h
  rw [hconserved]
  simp [start, SyncRequestBudget.new]

end Runs
end SyncCaller

/-! ## Both -/

section Runs
variable [DecidableEq ι] [Fintype ι]

/-- The sync budget in a state of a run. -/
structure SyncOrderly (capacity : ℕ) (c : Crew ι SyncQueue SyncCaller) : Prop where
  conserved : c.store.budget.available + ∑ k, (c.agent k).held = capacity
  /-- The tickets in the queue are those of the threads in `acquire`. -/
  waiting : ∀ t, t ∈ c.store.budget.waiters ↔ ∃ k, (c.agent k).ticket = some t
  /-- Whoever gets a permit arrived before all others that wait. -/
  fifo : ∀ k t stopSet, (c.agent k).ticket = some t →
    (c.store.budget.attempt t stopSet).1 = some 1 → ∀ j u, (c.agent j).ticket = some u → t ≤ u
  /-- While a permit is available, the next pass of the first of those who wait takes it. -/
  served : 0 < c.store.budget.available → ∀ k t, (c.agent k).ticket = some t →
    (∀ j u, (c.agent j).ticket = some u → t ≤ u) → (c.store.budget.attempt t false).1 = some 1

/-- The async budget in a state of a run. -/
structure AsyncOrderly (capacity : ℕ) (c : Crew ι (AsyncRequestBudget ι) AsyncCaller) : Prop where
  conserved : c.store.available + c.store.handed + ∑ k, (c.agent k).held = capacity
  /-- A future that is pending or granted is the one its task waits for in `acquire`. -/
  awaited : ∀ k id, c.store.Awaited k id ↔ (c.agent k).phase.future = some id
  /-- Once nobody is in `acquire`, every permit that nobody holds is available. -/
  settled : (∀ k, (c.agent k).phase = .outside) →
    c.store.available + ∑ k, (c.agent k).held = capacity
  /-- No call runs into a future that is already resolved. -/
  enters : ∀ k, ∃ b, c.store.enter k = some b
  releases : ∀ count, ∃ b, c.store.release count = some b
  settles : ∀ k future, (c.agent k).phase.future = some future →
    ∃ b, c.store.giveUp future = some b
  /-- No future was granted behind one that waits. -/
  fifo : ∀ i j, j < i → c.store.stateOf j = some .pending →
    c.store.stateOf i ≠ some .granted ∧ c.store.stateOf i ≠ some .taken
  /-- While a permit is available nobody waits. -/
  conserving : 0 < c.store.available → ∀ id, c.store.stateOf id ≠ some .pending

/-- Both budgets, for any number of callers and every interleaving of what they do. -/
theorem budgets_fair (capacity : ℕ) :
    (∀ c, Crew.Reachable SyncCaller.Act (SyncCaller.start ι capacity) c →
      SyncOrderly capacity c) ∧
    ∀ c, Crew.Reachable AsyncCaller.Act (AsyncCaller.start ι capacity) c →
      AsyncOrderly capacity c := by
  constructor
  · intro c h
    have H := SyncCaller.reachable_inv h
    have howned := SyncCaller.reachable_owned h
    constructor
    case conserved => exact SyncCaller.reachable_total h
    case waiting => exact fun t => ⟨howned t, fun ⟨k, hk⟩ => (H k).waits t hk⟩
    case fifo => exact fun k t stopSet _ hgrant j u hu => SyncCaller.attempt_first H hgrant hu
    case served => exact fun hpos k t ht hfirst => SyncCaller.attempt_served H howned hpos ht hfirst
  · intro c h
    have H := AsyncCaller.reachable_inv h
    have hqueued : c.store.Queued := h.store (AsyncCaller.queued_new capacity) fun k => (H k).queued
    have hfair : c.store.Fair := h.store (AsyncCaller.fair_new capacity) fun k => (H k).fair
    constructor
    case conserved => exact AsyncCaller.reachable_total h
    case awaited => exact fun k id => (H k).awaited id
    case settled =>
      intro hout
      have htotal := AsyncCaller.reachable_total h
      rwa [AsyncRequestBudget.stock, AsyncCaller.handed_eq_zero H hout] at htotal
    case enters =>
      intro k
      obtain ⟨b, hb, -⟩ := AsyncRequestBudget.enter_spec hqueued k
      exact ⟨b, hb⟩
    case releases =>
      intro count
      obtain ⟨b, hb, -⟩ := AsyncRequestBudget.release_spec hqueued count
      exact ⟨b, hb⟩
    case settles =>
      intro k future hphase
      obtain ⟨b, hb, -⟩ :=
        AsyncRequestBudget.giveUp_spec hqueued (((H k).awaited future).mpr hphase)
      exact ⟨b, hb⟩
    case fifo => exact hfair.ordered.fifo
    case conserving =>
      intro hpos id hid
      have hmem := hfair.ordered.pending id hid
      rcases hfair.busy with hzero | hnobody
      · omega
      · rw [hnobody] at hmem
        cases hmem

end Runs

/-- One permit. Of three threads the first takes it, the second is stopped while it waits, and the
first gives the permit back for the third. Of three tasks the first takes it and the last is
cancelled while it waits, and asks again; the second is cancelled, gets the permit all the same
before its cancellation is through, and gives it up; the last sees the stop event together with the
permit and gives it up as well. -/
theorem budgets_fair_contended :
    (∃ c : Crew (Fin 3) SyncQueue SyncCaller, (c.agent 0).held = 0 ∧ (c.agent 1).ticket = none ∧
      (c.agent 2).ticket = some 2 ∧ c.store.budget.available = 1 ∧ SyncOrderly 1 c) ∧
    ∃ c : Crew (Fin 3) (AsyncRequestBudget (Fin 3)) AsyncCaller,
      c.store.futures = [⟨0, .taken⟩, ⟨1, .taken⟩, ⟨2, .cancelled⟩, ⟨2, .taken⟩] ∧
      (∀ k, (c.agent k).phase = .outside) ∧ c.store.available = 1 ∧ AsyncOrderly 1 c := by
  constructor
  · have hstart : Crew.Reachable SyncCaller.Act (SyncCaller.start (Fin 3) 1) _ := .start
    have hheld := hstart.solo 0 <| .head (.enter rfl) <| .head (.pass 0 false rfl) <| .refl _ _
    have hqueued := (hheld.solo 1 <| .head (.enter rfl) <| .refl _ _).solo 2 <|
      .head (.enter rfl) <| .refl _ _
    have hstopped := hqueued.solo 1 <| .head (.pass 1 true rfl) <| .refl _ _
    have hreleased := hstopped.solo 0 <| .head (.release 1 (by decide)) <| .refl _ _
    exact ⟨_, rfl, rfl, rfl, rfl, (budgets_fair 1).1 _ hreleased⟩
  · have hstart : Crew.Reachable AsyncCaller.Act (AsyncCaller.start (Fin 3) 1) _ := .start
    have hheld := hstart.solo 0 <| .head (.enter rfl rfl) <|
      .head (.resume 0 false rfl (.inr rfl)) <| .head (.claim 0 rfl) <| .refl _ _
    have hqueued := (hheld.solo 1 <| .head (.enter rfl rfl) <| .refl _ _).solo 2 <|
      .head (.enter rfl rfl) <| .head (.cancelWait 2 rfl) <| .head (.cancelled 2 none rfl rfl) <|
      .head (.enter rfl rfl) <| .refl _ _
    have hcancelled := hqueued.solo 1 <| .head (.cancelWait 1 rfl) <| .refl _ _
    have hgranted := hcancelled.solo 0 <| .head (.release 1 (by decide) rfl) <| .refl _ _
    have hgivenUp := hgranted.solo 1 <| .head (.cancelled 1 none rfl rfl) <| .refl _ _
    have hstopped := hgivenUp.solo 2 <| .head (.resume 3 true rfl (.inl rfl)) <|
      .head (.stopped 3 rfl rfl) <| .refl _ _
    refine ⟨_, rfl, fun k => ?_, rfl, (budgets_fair 1).2 _ hstopped⟩
    match k with
    | 0 | 1 | 2 => rfl

end UcloudSandboxes.Relay
