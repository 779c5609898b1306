import Mathlib.Data.List.Basic
import UcloudSandboxes.Lib.Count

/-!
# Request admission

`_relay_admission.py`: the budget of permits that all worker loops of one client share. A loop takes
a permit before it polls, in the order in which the loops asked.

## Main definitions

* `SyncRequestBudget`: permits behind a condition variable. A waiting thread is known by its ticket,
  here the loop that waits.
* `AsyncRequestBudget`: permits handed to futures. `drain` is `_drain`; it fails where `set_result`
  would raise because the future is already done.

`AsyncRequestBudget.Queued` is the invariant of the queue, under which `drain` never fails.
-/
namespace UcloudSandboxes.Relay
open Lib

universe u
variable {ι : Type u}

/-- What holds of the result of an operation that succeeds holds of every result it has. -/
theorem of_eq_some {α : Type u} {P : α → Prop} {o : Option α} {x : α}
    (h : ∃ y, o = some y ∧ P y) (hx : o = some x) : P x := by
  obtain ⟨y, hy, hP⟩ := h
  exact Option.some.inj (hy.symm.trans hx) ▸ hP

/-- `SyncRequestBudget`. -/
structure SyncRequestBudget (ι : Type u) where
  capacity : ℕ
  available : ℕ
  waiters : List ι := []

namespace SyncRequestBudget
variable [DecidableEq ι]

def new (capacity : ℕ) : SyncRequestBudget ι := { capacity, available := capacity }

/-- `acquire` up to its loop: the ticket is appended. -/
def enter (b : SyncRequestBudget ι) (ticket : ι) : SyncRequestBudget ι :=
  { b with waiters := b.waiters ++ [ticket] }

/-- One pass of the loop in `acquire`, with the condition held: what `acquire` returns, `none` when
it goes on waiting, and the budget left behind. -/
def attempt (b : SyncRequestBudget ι) (ticket : ι) (stopSet : Bool) :
    Option ℕ × SyncRequestBudget ι :=
  if stopSet then (some 0, { b with waiters := b.waiters.erase ticket })
  else if b.waiters.head? = some ticket ∧ 0 < b.available then
    (some 1, { b with available := b.available - 1, waiters := b.waiters.erase ticket })
  else (none, b)

def release (b : SyncRequestBudget ι) (count : ℕ) : SyncRequestBudget ι :=
  { b with available := b.available + count }

omit [DecidableEq ι] in
@[simp] theorem available_enter (b : SyncRequestBudget ι) (ticket : ι) :
    (b.enter ticket).available = b.available := rfl
omit [DecidableEq ι] in
@[simp] theorem available_release (b : SyncRequestBudget ι) (count : ℕ) :
    (b.release count).available = b.available + count := rfl

/-- A pass hands out one permit, or none. -/
theorem attempt_cases (b : SyncRequestBudget ι) (ticket : ι) (stopSet : Bool) :
    ((b.attempt ticket stopSet).1 = none ∧ (b.attempt ticket stopSet).2.available = b.available) ∨
    ((b.attempt ticket stopSet).1 = some 0 ∧
      (b.attempt ticket stopSet).2.available = b.available) ∨
    ((b.attempt ticket stopSet).1 = some 1 ∧
      (b.attempt ticket stopSet).2.available + 1 = b.available) := by
  simp only [attempt]
  split
  · exact .inr (.inl ⟨rfl, rfl⟩)
  · split
    · rename_i h
      exact .inr (.inr ⟨rfl, by simp; omega⟩)
    · exact .inl ⟨rfl, rfl⟩

end SyncRequestBudget

/-- The state of a future that `AsyncRequestBudget.acquire` created. A future that `set_result` has
resolved is `granted` until the `acquire` that waits on it has returned the permit or given it
back, and `taken` from then on. -/
inductive FutureState
  | pending
  | granted
  | taken
  | cancelled
  deriving DecidableEq, Repr

/-- A future, and the loop whose `acquire` created it. -/
structure Future (ι : Type u) where
  owner : ι
  state : FutureState
  deriving DecidableEq, Repr

/-- The future's permit is on its way to the `acquire` that waits. -/
def Future.isGranted (f : Future ι) : Bool := f.state = .granted

/-- `AsyncRequestBudget`. `futures` holds every future ever created; `waiters` refers to them by
their position. -/
structure AsyncRequestBudget (ι : Type u) where
  capacity : ℕ
  available : ℕ
  futures : List (Future ι) := []
  waiters : List ℕ := []

namespace AsyncRequestBudget

def new (capacity : ℕ) : AsyncRequestBudget ι := { capacity, available := capacity }

/-- The state of a future. -/
def stateOf (b : AsyncRequestBudget ι) (id : ℕ) : Option FutureState :=
  (b.futures[id]?).map Future.state

/-- Overwrite the state of a future. -/
def mark (b : AsyncRequestBudget ι) (id : ℕ) (state : FutureState) : AsyncRequestBudget ι :=
  { b with futures := b.futures.modify id fun f => { f with state } }

/-- Take a permit off the counter and resolve a future with it. -/
def grant (b : AsyncRequestBudget ι) (id : ℕ) : AsyncRequestBudget ι :=
  { b.mark id .granted with available := b.available - 1 }

/-- The loop of `_drain` over the queue. -/
def drainLoop (b : AsyncRequestBudget ι) : List ℕ → Option (AsyncRequestBudget ι)
  | [] => some { b with waiters := [] }
  | id :: rest =>
      if b.stateOf id = some .cancelled then drainLoop b rest
      else if b.available = 0 then some { b with waiters := id :: rest }
      else if b.stateOf id = some .pending then
        drainLoop (b.grant id) rest
      else none

/-- `_drain`; `none` is `InvalidStateError`. -/
def drain (b : AsyncRequestBudget ι) : Option (AsyncRequestBudget ι) := b.drainLoop b.waiters

def release (b : AsyncRequestBudget ι) (count : ℕ) : Option (AsyncRequestBudget ι) :=
  drain { b with available := b.available + count }

/-- Create a future and append it to the queue. -/
def create (b : AsyncRequestBudget ι) (owner : ι) : AsyncRequestBudget ι :=
  { b with
    futures := b.futures ++ [⟨owner, .pending⟩], waiters := b.waiters ++ [b.futures.length] }

/-- `acquire` up to its first suspension: the future is created and queued, and the queue served. -/
def enter (b : AsyncRequestBudget ι) (owner : ι) : Option (AsyncRequestBudget ι) :=
  (b.create owner).drain

/-- Take the result of a resolved future. -/
def claim (b : AsyncRequestBudget ι) (id : ℕ) : AsyncRequestBudget ι := b.mark id .taken

/-- The `finally` of an `acquire` that did not claim its permit. -/
def giveUp (b : AsyncRequestBudget ι) (id : ℕ) : Option (AsyncRequestBudget ι) :=
  match b.stateOf id with
  | some .pending => (b.mark id .cancelled).drain
  | some .granted => (b.claim id).release 1
  | _ => some b

/-- Permits that are on their way to an `acquire`. -/
def handed (b : AsyncRequestBudget ι) : ℕ := b.futures.countP Future.isGranted

/-- Permits that no loop holds: those on the counter and those on their way. -/
def stock (b : AsyncRequestBudget ι) : ℕ := b.available + b.handed

/-- The queue holds distinct futures, each of them pending or cancelled. -/
structure Queued (b : AsyncRequestBudget ι) : Prop where
  nodup : b.waiters.Nodup
  idle : ∀ id ∈ b.waiters, b.stateOf id = some .pending ∨ b.stateOf id = some .cancelled

/-- At position `id` nothing changed, except that a pending future may have been granted. -/
def Served (b b' : AsyncRequestBudget ι) (id : ℕ) : Prop :=
  b'.futures[id]? = b.futures[id]? ∨
    ∃ owner, b.futures[id]? = some ⟨owner, .pending⟩ ∧ b'.futures[id]? = some ⟨owner, .granted⟩

theorem Served.refl (b : AsyncRequestBudget ι) (id : ℕ) : Served b b id := .inl rfl

theorem Served.trans {a b c : AsyncRequestBudget ι} {id : ℕ} (h : Served a b id)
    (h' : Served b c id) : Served a c id := by
  rcases h with h | ⟨o, h, hb⟩
  · rcases h' with h' | ⟨o, hb, hc⟩
    · exact .inl (h'.trans h)
    · exact .inr ⟨o, h ▸ hb, hc⟩
  · rcases h' with h' | ⟨o', hb', _⟩
    · exact .inr ⟨o, h, h'.trans hb⟩
    · rw [hb] at hb'
      cases hb'

@[simp] theorem stateOf_mark (b : AsyncRequestBudget ι) (id j : ℕ) (state : FutureState) :
    (b.mark id state).stateOf j =
      if id = j then (b.stateOf j).map fun _ => state else b.stateOf j := by
  simp only [stateOf, mark]
  by_cases h : id = j
  · subst h
    simp [Function.comp_def]
  · simp [h]

theorem stateOf_mark_of_ne (b : AsyncRequestBudget ι) {id j : ℕ} (h : id ≠ j)
    (state : FutureState) : (b.mark id state).stateOf j = b.stateOf j := by simp [h]

/-- Overwriting a state exchanges the permits on their way. -/
theorem handed_mark (b : AsyncRequestBudget ι) {id : ℕ} {old : FutureState}
    (h : b.stateOf id = some old) (state : FutureState) :
    (b.mark id state).handed + tally (old = .granted) = b.handed + tally (state = .granted) := by
  obtain ⟨f, hf, rfl⟩ := Option.map_eq_some_iff.mp h
  exact countP_modify_add Future.isGranted hf fun f => { f with state }

/-- Granting moves a permit from the counter to a future. -/
theorem stock_grant {b : AsyncRequestBudget ι} {id : ℕ} (h : b.stateOf id = some .pending)
    (ha : b.available ≠ 0) : (b.grant id).stock = b.stock := by
  have hmark := handed_mark b h .granted
  simp only [reduceCtorEq, decide_false, tally_false, decide_true, tally_true] at hmark
  change b.available - 1 + (b.mark id .granted).handed = b.available + b.handed
  omega

theorem served_grant {b : AsyncRequestBudget ι} {id : ℕ} (h : b.stateOf id = some .pending)
    (j : ℕ) : Served b (b.grant id) j := by
  obtain ⟨⟨owner, state⟩, hf, rfl⟩ := Option.map_eq_some_iff.mp h
  by_cases hj : id = j
  · subst hj
    exact .inr ⟨owner, hf, by simp [grant, mark, hf]⟩
  · exact .inl (by simp [grant, mark, hj])

/-- What serving the queue does: it always succeeds, moves permits from the counter to futures,
and grants nothing but pending futures. -/
theorem drainLoop_spec (queue : List ℕ) (b : AsyncRequestBudget ι) (hnodup : queue.Nodup)
    (hidle : ∀ id ∈ queue, b.stateOf id = some .pending ∨ b.stateOf id = some .cancelled) :
    ∃ b', b.drainLoop queue = some b' ∧ Queued b' ∧ b'.stock = b.stock ∧
      ∀ id, Served b b' id := by
  induction queue generalizing b with
  | nil => exact ⟨_, rfl, ⟨by simp, by simp⟩, rfl, fun id => .inl rfl⟩
  | cons id rest ih =>
      have hid := hidle id (by simp)
      obtain ⟨hnotin, hrest⟩ := List.nodup_cons.mp hnodup
      simp only [drainLoop]
      split_ifs with hc ha hp
      · exact ih b hrest fun j hj => hidle j (by simp [hj])
      · exact ⟨_, rfl, ⟨hnodup, hidle⟩, rfl, fun id => .inl rfl⟩
      · have hsame : ∀ j ∈ rest, (b.grant id).stateOf j = b.stateOf j := by
          intro j hj
          have hne : id ≠ j := fun h => hnotin (by rwa [h])
          exact stateOf_mark_of_ne b hne .granted
        obtain ⟨b', hb', hq, hstock, hserved⟩ := ih (b.grant id) hrest fun j hj => by
          rw [hsame j hj]
          exact hidle j (by simp [hj])
        exact ⟨b', hb', hq, hstock.trans (stock_grant hp ha),
          fun j => (served_grant hp j).trans (hserved j)⟩
      · exact absurd hid (by simp [hc, hp])

theorem drain_spec {b : AsyncRequestBudget ι} (h : Queued b) :
    ∃ b', b.drain = some b' ∧ Queued b' ∧ b'.stock = b.stock ∧ ∀ id, Served b b' id :=
  drainLoop_spec b.waiters b h.nodup h.idle

/-- Releasing adds to the stock, and grants nothing but pending futures. -/
theorem release_spec {b : AsyncRequestBudget ι} (h : Queued b) (count : ℕ) :
    ∃ b', b.release count = some b' ∧ Queued b' ∧ b'.stock = b.stock + count ∧
      ∀ id, Served b b' id := by
  obtain ⟨b', hb', hq, hstock, hserved⟩ :=
    drain_spec (b := { b with available := b.available + count }) ⟨h.nodup, h.idle⟩
  refine ⟨b', hb', hq, ?_, hserved⟩
  rw [hstock]
  simp only [stock, handed]
  omega

/-- A queued future exists. -/
theorem Queued.lt_length {b : AsyncRequestBudget ι} (h : Queued b) {id : ℕ} (hid : id ∈ b.waiters) :
    id < b.futures.length := by
  by_contra hlt
  have hnone : b.stateOf id = none := by simp [stateOf, List.getElem?_eq_none (Nat.le_of_not_lt hlt)]
  have := h.idle id hid
  simp [hnone] at this

theorem queued_create {b : AsyncRequestBudget ι} (h : Queued b) (owner : ι) :
    Queued (b.create owner) := by
  refine ⟨?_, fun id hid => ?_⟩
  · have hnotin : b.futures.length ∉ b.waiters := fun hid => Nat.lt_irrefl _ (h.lt_length hid)
    exact List.nodup_append.mpr ⟨h.nodup, by simp, by
      rintro id hid _ hj rfl
      obtain rfl := List.mem_singleton.mp hj
      exact hnotin hid⟩
  · rcases List.mem_append.mp hid with hid | hid
    · have hlt := h.lt_length hid
      simpa [stateOf, create, List.getElem?_append_left hlt] using h.idle id hid
    · obtain rfl := List.mem_singleton.mp hid
      exact .inl (by simp [stateOf, create])

@[simp] theorem stock_create (b : AsyncRequestBudget ι) (owner : ι) :
    (b.create owner).stock = b.stock := by
  simp [stock, handed, create, Future.isGranted]

/-- Overwriting the state of a future that has left the queue, or cancelling it, keeps the queue. -/
theorem queued_mark {b : AsyncRequestBudget ι} (h : Queued b) {id : ℕ} {state : FutureState}
    (hs : state = .cancelled ∨ id ∉ b.waiters) : Queued (b.mark id state) := by
  refine ⟨h.nodup, fun j hj => ?_⟩
  rw [stateOf_mark]
  split_ifs with heq
  · subst heq
    have hs' : state = .cancelled := hs.resolve_right fun hnot => hnot hj
    rcases h.idle id hj with hi | hi <;> simp [hi, hs']
  · exact h.idle j hj

/-- A future that loop `k` created and that its `acquire` has not settled. -/
def Awaited (b : AsyncRequestBudget ι) (k : ι) (id : ℕ) : Prop :=
  b.futures[id]? = some ⟨k, .pending⟩ ∨ b.futures[id]? = some ⟨k, .granted⟩

/-- What loop `k` may count on while other loops change the budget: it waits on the same futures,
and what was granted to it stays granted. -/
structure Keeps (k : ι) (b b' : AsyncRequestBudget ι) : Prop where
  awaited : ∀ id, Awaited b' k id ↔ Awaited b k id
  granted : ∀ id : ℕ, b.futures[id]? = some ⟨k, .granted⟩ → b'.futures[id]? = some ⟨k, .granted⟩

theorem Keeps.trans {k : ι} {a b c : AsyncRequestBudget ι} (h : Keeps k a b) (h' : Keeps k b c) :
    Keeps k a c :=
  ⟨fun id => (h'.awaited id).trans (h.awaited id), fun id hid => h'.granted id (h.granted id hid)⟩

theorem keeps_of_served {b b' : AsyncRequestBudget ι} (h : ∀ id, Served b b' id) (k : ι) :
    Keeps k b b' := by
  refine ⟨fun id => ?_, fun id hid => ?_⟩
  · simp only [Awaited]
    rcases h id with heq | ⟨o, hb, hb'⟩
    · rw [heq]
    · simp [hb, hb']
  · rcases h id with heq | ⟨o, hb, hb'⟩
    · rwa [heq]
    · rw [hb] at hid
      cases hid

/-- A budget whose futures of `k` are the same keeps what `k` counts on. -/
theorem keeps_of_same {k : ι} {b b' : AsyncRequestBudget ι}
    (h : ∀ (id : ℕ) s, b'.futures[id]? = some ⟨k, s⟩ ↔ b.futures[id]? = some ⟨k, s⟩) : Keeps k b b' :=
  ⟨fun id => by simp only [Awaited, h], fun id hid => (h id _).mpr hid⟩

theorem keeps_create (b : AsyncRequestBudget ι) {k owner : ι} (hk : k ≠ owner) :
    Keeps k b (b.create owner) := by
  refine keeps_of_same fun id s => ?_
  simp only [create, List.getElem?_append]
  split_ifs with hlt
  · rfl
  · have hnone : b.futures[id]? = none := List.getElem?_eq_none (Nat.le_of_not_lt hlt)
    rw [hnone]
    grind

theorem keeps_mark (b : AsyncRequestBudget ι) {k owner : ι} (hk : k ≠ owner) {id : ℕ}
    {old : FutureState} (h : b.futures[id]? = some ⟨owner, old⟩) (state : FutureState) :
    Keeps k b (b.mark id state) := by
  refine keeps_of_same fun j s => ?_
  by_cases hj : id = j
  · subst hj
    simp [mark, h, Ne.symm hk]
  · simp [mark, hj]

/-- Asking for a permit: the stock stays, the caller waits on one more future, and nobody else
notices. -/
theorem enter_spec {b : AsyncRequestBudget ι} (h : Queued b) (owner : ι) :
    ∃ b', b.enter owner = some b' ∧ Queued b' ∧ b'.stock = b.stock ∧
      (∀ id, Awaited b' owner id ↔ Awaited b owner id ∨ id = b.futures.length) ∧
      ∀ k, k ≠ owner → Keeps k b b' := by
  obtain ⟨b', hb', hq, hstock, hserved⟩ := drain_spec (queued_create h owner)
  refine ⟨b', hb', hq, by simpa using hstock, fun id => ?_, fun k hk =>
    (keeps_create b hk).trans (keeps_of_served hserved k)⟩
  rw [(keeps_of_served hserved owner).awaited id]
  simp only [Awaited, create, List.getElem?_append]
  grind

/-- A future that is cancelled or taken is no longer awaited. -/
theorem awaited_mark (b : AsyncRequestBudget ι) (k : ι) (id j : ℕ) {state : FutureState}
    (hs : state = .cancelled ∨ state = .taken) :
    Awaited (b.mark id state) k j ↔ Awaited b k j ∧ j ≠ id := by
  by_cases hj : id = j
  · subst hj
    rcases hs with rfl | rfl <;> simp [Awaited, mark]
  · simp [Awaited, mark, hj, Ne.symm hj]

theorem Queued.notMem_of_granted {b : AsyncRequestBudget ι} (h : Queued b) {id : ℕ}
    (hid : b.stateOf id = some .granted) : id ∉ b.waiters := by
  intro hmem
  rcases h.idle id hmem with hi | hi <;> simp [hid] at hi

/-- Returning the permit: it leaves the stock, the caller no longer waits on the future, and nobody
else notices. -/
theorem claim_spec {b : AsyncRequestBudget ι} (h : Queued b) {owner : ι} {id : ℕ}
    (hid : b.futures[id]? = some ⟨owner, .granted⟩) :
    Queued (b.claim id) ∧ (b.claim id).stock + 1 = b.stock ∧
      (∀ j, Awaited (b.claim id) owner j ↔ Awaited b owner j ∧ j ≠ id) ∧
      ∀ k, k ≠ owner → Keeps k b (b.claim id) := by
  have hstate : b.stateOf id = some .granted := by simp [stateOf, hid]
  have hmark := handed_mark b hstate .taken
  refine ⟨queued_mark h (.inr (h.notMem_of_granted hstate)), ?_,
    fun j => awaited_mark b owner id j (.inr rfl), fun k hk => keeps_mark b hk hid _⟩
  simp only [decide_true, tally_true, reduceCtorEq, decide_false, tally_false] at hmark
  change b.available + (b.mark id .taken).handed + 1 = b.available + b.handed
  omega

/-- Settling an `acquire` without its permit: the stock stays, the caller no longer waits on the
future, and nobody else notices. -/
theorem giveUp_spec {b : AsyncRequestBudget ι} (h : Queued b) {owner : ι} {id : ℕ}
    (hid : Awaited b owner id) :
    ∃ b', b.giveUp id = some b' ∧ Queued b' ∧ b'.stock = b.stock ∧
      (∀ j, Awaited b' owner j ↔ Awaited b owner j ∧ j ≠ id) ∧
      ∀ k, k ≠ owner → Keeps k b b' := by
  rcases hid with hid | hid
  · have hstate : b.stateOf id = some .pending := by simp [stateOf, hid]
    have hmark := handed_mark b hstate .cancelled
    have hqueued : Queued (b.mark id .cancelled) := queued_mark h (.inl rfl)
    obtain ⟨b', hb', hq, hstock, hserved⟩ := drain_spec hqueued
    refine ⟨b', by simpa [giveUp, hstate] using hb', hq, ?_, fun j => ?_, fun k hk => ?_⟩
    · rw [hstock]
      change b.available + (b.mark id .cancelled).handed = b.available + b.handed
      simpa using hmark
    · rw [(keeps_of_served hserved owner).awaited j]
      exact awaited_mark b owner id j (.inl rfl)
    · exact (keeps_mark b hk hid _).trans (keeps_of_served hserved k)
  · have hstate : b.stateOf id = some .granted := by simp [stateOf, hid]
    obtain ⟨hqueued, hstock₁, hawaited, hkeeps⟩ := claim_spec h hid
    obtain ⟨b', hb', hq, hstock, hserved⟩ := release_spec hqueued 1
    refine ⟨b', by simpa [giveUp, hstate] using hb', hq, hstock.trans hstock₁, fun j => ?_,
      fun k hk => (hkeeps k hk).trans (keeps_of_served hserved k)⟩
    rw [(keeps_of_served hserved owner).awaited j]
    exact hawaited j

end AsyncRequestBudget
end UcloudSandboxes.Relay
