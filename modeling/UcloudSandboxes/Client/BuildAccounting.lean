import Mathlib.Algebra.BigOperators.Group.Finset.Piecewise
import Mathlib.Algebra.Order.BigOperators.Group.Finset
import UcloudSandboxes.Client.BuildContext

/-!
# The permits and archives of a loop

What the calls of one loop hold together, in every state of a run.

## Main results

* `BuildCall.reachable_stock`: the permits in the semaphore and those out for a call.
* `BuildCall.Inv.settles`: whatever its caller does, the rest of a call can run to its end.
* `BuildCall.build_contexts_accounted`: no permit and no archive leaks, and two preparations are the
  most.
-/
namespace UcloudSandboxes.Client
open Lib

universe u
variable {ι : Type u} [DecidableEq ι]

namespace BuildCall

/-! ## What holds of a call and its loop -/

/-- What a step of `k` does to the loop, and the permits it takes and gives back. -/
inductive Change (k : ι) : BuildLoop ι → BuildLoop ι → ℕ → ℕ → Prop
  | same {s : BuildLoop ι} : Change k s s 0 0
  | call {s : BuildLoop ι} : Change k s (s.buildContextLimiter k) 0 0
  | take {s : BuildLoop ι} (value : ℕ) : s.limiter = some (value + 1) →
      Change k s { s with limiter := some value } 1 0
  | release {s : BuildLoop ι} : Change k s s.release 0 1
  | forget {s : BuildLoop ι} : Change k s { s with holders := s.holders.erase k } 0 0
  | collect {s : BuildLoop ι} : s.isOpen = true → s.holders = ∅ →
      Change k s { s with limiter := none } 0 0
  | close {s : BuildLoop ι} : Change k s { s with isOpen := false } 0 0

/-- What holds of call `k` and of the loop at every step. -/
structure Inv (k : ι) (s : BuildLoop ι) (a : BuildCall) : Prop where
  sound : a.Sound
  referred : a.Refers → k ∈ s.holders
  limiter : k ∈ s.holders → s.limiter ≠ none
  dropped : a.release = .dropped → s.isOpen = false

section Step
variable {k : ι} {s s' : BuildLoop ι} {a a' : BuildCall}

/-- Nothing comes to refer to the semaphore but by a call. -/
theorem Act.refers (h : Act k s a s' a') (hrefers : a'.Refers) : a.Refers ∨ k ∈ s'.holders := by
  cases h with
  | call hopen hphase => exact .inr (Finset.mem_insert_self _ _)
  | grant value hopen hadmission hcancel hlimiter =>
      exact .inl (.inr (.inl (by rw [hadmission]; rfl)))
  | acquire hopen hadmission hcancel => exact .inl (.inr (.inl (by rw [hadmission]; rfl)))
  | admissionCancelled hopen hadmission hcancel =>
      exact .inl (.inr (.inl (by rw [hadmission]; rfl)))
  | grantCancelled hopen hadmission hcancel => exact .inl (.inr (.inl (by rw [hadmission]; rfl)))
  | cancelAdmission =>
      refine .inl ?_
      simp only [BuildCall.cancelAdmission] at hrefers
      split at hrefers <;> exact hrefers
  | proceed hopen hphase hadmission => exact .inl (.inl (by simp [hphase]))
  | leaveAdmission hphase => exact .inl (.inl (by simp [hphase]))
  | refuse hphase => exact .inl (.inl (by simp [hphase]))
  | submit hphase => exact .inl (.inl (by simp [hphase]))
  | addFinished hphase => exact .inl (.inl (by simp [hphase]))
  | finished hjob hrelease => exact .inl (.inr (.inr (.inl hrelease)))
  | runRelease hopen hrelease => exact .inl (.inr (.inr (.inr hrelease)))
  | yields hopen hphase hwrapped hjob => exact .inl (.inl (by simp [hphase]))
  | leavePreparation hphase => exact .inl (.inl (by simp [hphase]))
  | cancelJob hphase => exact .inl (.inl (by simp [hphase]))
  | leaveBody hphase => exact .inl (.inl (by simp [hphase]))
  | forget hrefers' => exact absurd hrefers hrefers'
  | _ => exact .inl hrefers

theorem taken_cancelAdmission (a : BuildCall) :
    a.cancelAdmission.taken = a.taken ∧ a.cancelAdmission.released = a.released := by
  simp only [BuildCall.cancelAdmission]
  split <;> exact ⟨rfl, rfl⟩

/-- A permit is given back only while something refers to the semaphore. -/
theorem Act.change (h : Act k s a s' a') : ∃ taken released, Change k s s' taken released ∧
    a'.taken = a.taken + taken ∧ a'.released = a.released + released ∧
      (released ≠ 0 → a.Refers) := by
  cases h with
  | call hopen hphase => exact ⟨0, 0, .call, rfl, rfl, fun h => absurd rfl h⟩
  | grant value hopen hadmission hcancel hlimiter =>
      exact ⟨1, 0, .take value hlimiter, rfl, rfl, fun h => absurd rfl h⟩
  | grantCancelled hopen hadmission hcancel =>
      exact ⟨0, 1, .release, rfl, rfl, fun _ => .inr (.inl (by rw [hadmission]; rfl))⟩
  | cancelAdmission =>
      obtain ⟨htaken, hreleased⟩ := taken_cancelAdmission a
      exact ⟨0, 0, .same, htaken, hreleased, fun h => absurd rfl h⟩
  | leaveAdmission hphase =>
      simp only [BuildCall.leaveAdmission]
      split
      · exact ⟨0, 1, .release, rfl, rfl, fun _ => .inl (by simp [hphase])⟩
      · obtain ⟨htaken, hreleased⟩ := taken_cancelAdmission a
        exact ⟨0, 0, .same, htaken, hreleased, fun h => absurd rfl h⟩
  | refuse hphase => exact ⟨0, 1, .release, rfl, rfl, fun _ => .inl (by simp [hphase])⟩
  | runRelease hopen hrelease =>
      exact ⟨0, 1, .release, rfl, rfl, fun _ => .inr (.inr (.inr hrelease))⟩
  | addFinished hphase =>
      refine ⟨0, 0, .same, ?_, ?_, fun h => absurd rfl h⟩ <;>
        simp only [BuildCall.addFinished, BuildCall.finished] <;> split <;> rfl
  | leavePreparation hphase =>
      refine ⟨0, 0, .same, ?_, ?_, fun h => absurd rfl h⟩ <;>
        simp only [BuildCall.addDiscard, BuildCall.discardImageBuildRequest] <;> split <;> rfl
  | cancelJob hphase =>
      refine ⟨0, 0, .same, ?_, ?_, fun h => absurd rfl h⟩ <;>
        simp only [BuildCall.cancelJob] <;> split <;> rfl
  | forget hrefers => exact ⟨0, 0, .forget, rfl, rfl, fun h => absurd rfl h⟩
  | collect hopen hholders => exact ⟨0, 0, .collect hopen hholders, rfl, rfl, fun h => absurd rfl h⟩
  | closeLoop => exact ⟨0, 0, .close, rfl, rfl, fun h => absurd rfl h⟩
  | _ => exact ⟨0, 0, .same, rfl, rfl, fun h => absurd rfl h⟩

section Change
variable {taken released : ℕ}

theorem Change.holders (h : Change k s s' taken released) {j : ι} (hj : j ≠ k) :
    j ∈ s'.holders ↔ j ∈ s.holders := by
  cases h <;> simp [BuildLoop.buildContextLimiter, BuildLoop.release, hj]

theorem Change.closed (h : Change k s s' taken released) (hs : s.isOpen = false) :
    s'.isOpen = false := by
  cases h <;> first | exact hs | rfl

/-- A semaphore that something refers to stays. -/
theorem Change.limiter (h : Change k s s' taken released) {j : ι}
    (hs : j ∈ s.holders → s.limiter ≠ none) (hj : j ∈ s'.holders) : s'.limiter ≠ none := by
  cases h with
  | same => exact hs hj
  | call => simp [BuildLoop.buildContextLimiter]
  | take value hlimiter => simp
  | release => simpa [BuildLoop.release] using hs hj
  | forget => exact hs (Finset.mem_of_mem_erase hj)
  | collect hopen hholders => simp [hholders] at hj
  | close => exact hs hj

/-- What a step takes out of the semaphore and puts back, if the semaphore that goes away was
whole. -/
theorem Change.stock (h : Change k s s' taken released) (hs : released ≠ 0 → s.limiter ≠ none)
    (hwhole : s.isOpen = true → s.holders = ∅ → s.stock = buildContextWorkers) :
    s'.stock + taken = s.stock + released := by
  cases h with
  | take value hlimiter => simp [BuildLoop.stock, hlimiter]
  | release =>
      obtain ⟨value, hvalue⟩ := Option.ne_none_iff_exists'.mp (hs (by simp))
      simp [BuildLoop.stock, BuildLoop.release, hvalue]
  | collect hopen hholders => simpa [BuildLoop.stock] using (hwhole hopen hholders).symm
  | _ => rfl

end Change

/-- A call does not forget the semaphore while something refers to it. -/
theorem Act.held (h : Act k s a s' a') (hrefers : a.Refers) (hk : k ∈ s.holders) :
    k ∈ s'.holders := by
  cases h with
  | call hopen hphase => exact Finset.mem_insert_self _ _
  | leaveAdmission hphase =>
      simp only [BuildCall.leaveAdmission]
      split <;> exact hk
  | forget hnot => exact absurd hrefers hnot
  | _ => exact hk

/-- The callback `finished` finds the loop closed. -/
theorem Act.dropped (h : Act k s a s' a') (hdropped : a'.release = .dropped) :
    a.release = .dropped ∨ s.isOpen = false := by
  have hfinished : (a.finished s).release = .dropped → s.isOpen = false := by
    intro h
    by_contra hopen
    simp [BuildCall.finished, Bool.of_not_eq_false hopen] at h
  cases h with
  | cancelAdmission =>
      simp only [BuildCall.cancelAdmission] at hdropped
      split at hdropped <;> exact .inl hdropped
  | leaveAdmission hphase =>
      simp only [BuildCall.leaveAdmission, BuildCall.cancelAdmission] at hdropped
      split at hdropped
      · exact .inl hdropped
      · split at hdropped <;> exact .inl hdropped
  | addFinished hphase =>
      simp only [BuildCall.addFinished] at hdropped
      split at hdropped
      · exact .inr (hfinished hdropped)
      · cases hdropped
  | finished hjob hrelease => exact .inr (hfinished hdropped)
  | runRelease hopen hrelease => cases hdropped
  | leavePreparation hphase =>
      simp only [BuildCall.addDiscard] at hdropped
      split at hdropped <;> exact .inl hdropped
  | cancelJob hphase =>
      simp only [BuildCall.cancelJob] at hdropped
      split at hdropped <;> exact .inl hdropped
  | _ => exact .inl hdropped

theorem Act.inv (h : Act k s a s' a') (H : Inv k s a) : Inv k s' a' := by
  obtain ⟨taken, released, hchange, -⟩ := h.change
  constructor
  case sound => exact h.sound H.sound
  case referred =>
    intro hrefers
    rcases h.refers hrefers with hold | hnew
    · exact h.held hold (H.referred hold)
    · exact hnew
  case limiter => exact hchange.limiter H.limiter
  case dropped =>
    intro hdropped
    exact hchange.closed ((h.dropped hdropped).elim H.dropped id)

/-- The other calls do not notice. -/
theorem Act.inv_rest (h : Act k s a s' a') {j : ι} (hj : j ≠ k) {o : BuildCall} (Ho : Inv j s o) :
    Inv j s' o := by
  obtain ⟨taken, released, hchange, -⟩ := h.change
  exact ⟨Ho.sound, fun hrefers => (hchange.holders hj).mpr (Ho.referred hrefers),
    hchange.limiter Ho.limiter, fun hdropped => hchange.closed (Ho.dropped hdropped)⟩

omit [DecidableEq ι] in
/-- What a call that refers to nothing holds, while the loop is open. -/
theorem Inv.share_eq_zero (H : Inv k s a) (hopen : s.isOpen = true) (hk : k ∉ s.holders) :
    a.share = 0 := by
  have hrefers : ¬ a.Refers := fun h => hk (H.referred h)
  have hdropped : a.release ≠ .dropped := fun h => by simp [H.dropped h] at hopen
  simp only [Refers, not_or, not_and] at hrefers
  obtain ⟨hphase, hadmission, hregistered, hscheduled⟩ := hrefers
  have hgranted : a.admission ≠ .granted := fun h => hadmission (by rw [h]; rfl)
  have hadmits : a.phase.admits = false := by
    cases h : a.phase <;> simp_all [BuildPhase.admits]
  simp [share, hgranted, hadmits, hregistered, hscheduled, hdropped]

/-- A step moves permits between the semaphore and the call. -/
theorem Act.stock (h : Act k s a s' a') (H : Inv k s a)
    (hwhole : s.isOpen = true → s.holders = ∅ → s.stock = buildContextWorkers) :
    s'.stock + a'.share = s.stock + a.share := by
  obtain ⟨taken, released, hchange, htaken, hreleased, hrefers⟩ := h.change
  have hstock := hchange.stock (fun hne => H.limiter (H.referred (hrefers hne))) hwhole
  have hpermits := H.sound.permits
  have hpermits' := (h.sound H.sound).permits
  omega

end Step

/-! ## Runs -/

/-- A loop that has just been opened. -/
def start (ι : Type u) : Crew ι (BuildLoop ι) BuildCall := ⟨{}, fun _ => {}⟩

theorem sound_new : ({} : BuildCall).Sound := by
  constructor <;> simp [BuildPhase.submits, BuildPhase.hooked, share]

theorem guarded : Crew.Guarded (Act (ι := ι)) Inv where
  own _ _ _ _ _ H h := h.inv H
  rest _ _ _ _ _ _ _ hj _ Ho h := h.inv_rest hj Ho

theorem reachable_inv {c : Crew ι (BuildLoop ι) BuildCall}
    (h : Crew.Reachable Act (start ι) c) : Crew.Holds Inv c := by
  refine guarded.reachable (fun k => ⟨sound_new, ?_, ?_, ?_⟩) h
  · rintro (⟨hphase, -⟩ | hadmission | hrelease | hrelease)
    · exact absurd rfl hphase
    · cases hadmission
    · cases hrelease
    · cases hrelease
  · intro hk
    cases hk
  · intro hrelease
    cases hrelease

theorem reachable_stock [Fintype ι] {c : Crew ι (BuildLoop ι) BuildCall}
    (h : Crew.Reachable Act (start ι) c) :
    c.store.stock + ∑ k, (c.agent k).share = buildContextWorkers := by
  have hstart : (start ι).store.stock + ∑ k, ((start ι).agent k).share = buildContextWorkers := by
    simp [start, BuildLoop.stock, share]
  rw [← hstart]
  refine h.balanced guarded (reachable_inv .start) BuildLoop.stock share
    fun d k s' a' H htotal hact => hact.stock (H k) fun hopen hholders => ?_
  -- nobody holds the semaphore, and so nobody has a permit
  have hshares : ∑ j, (d.agent j).share = 0 :=
    Finset.sum_eq_zero fun j _ => (H j).share_eq_zero hopen (by simp [hholders])
  omega

/-! ## What is left to the worker and the callbacks -/

/-- Nothing of the call is left to run: no worker, no callback and, while the loop is open, neither
the admission task nor a release. -/
structure Settled (isOpen : Bool) (a : BuildCall) : Prop where
  job : a.job.isPending = false
  discard : a.discard ≠ .registered
  admission : isOpen = true → a.admission.isDone = true
  release : isOpen = true → a.release ≠ .registered ∧ a.release ≠ .scheduled

/-- How many steps are left at most, without those of the caller. -/
def left (a : BuildCall) : ℕ :=
  (if a.job = .queued then 2 else if a.job = .running then 1 else 0) +
    (if a.discard = .registered then 1 else 0) + (if a.admission.isDone then 0 else 1) +
      match a.release with
      | .registered => 2
      | .scheduled => 1
      | _ => 0

section Left
variable {k : ι} {s : BuildLoop ι} {a : BuildCall}

omit [DecidableEq ι] in
/-- A permit is out while the preparation is pending. -/
theorem Sound.share_of_pending (H : a.Sound) (hjob : a.job.isPending = true) : a.share = 1 := by
  have hdone : a.job.isDone = false := by
    cases h : a.job <;> simp_all [BuildJob.isPending, BuildJob.isDone]
  have hne : a.job ≠ .absent := by
    intro h
    simp [h, BuildJob.isPending] at hjob
  rcases (H.unfinished hdone).1 with hrelease | hrelease
  · have hhooked := H.release.mp hrelease
    have hsubmits : a.phase.submits = true := by simpa [H.job] using hne
    have hadmission := H.acquired (.inr hsubmits)
    have hadmits : a.phase.admits = true := by
      cases h : a.phase <;>
        simp_all [BuildPhase.submits, BuildPhase.hooked, BuildPhase.admits]
    simp [share, hadmission, hadmits]
  · simp [share, hrelease]

omit [DecidableEq ι] in
/-- An admission that is left without its caller has been cancelled. -/
theorem Sound.abandoned (H : a.Sound) (hadmits : a.phase.admits = false)
    (hpending : a.admission.isDone = false) : a.cancelling = true := by
  rcases H.undecided hpending with hphase | hphase
  · rw [hphase] at hadmits
    cases hadmits
  · exact H.cancelling hphase hpending

omit [DecidableEq ι] in
/-- A preparation with a callback is done as soon as it is not pending. -/
theorem Sound.isDone (H : a.Sound) (hjob : a.job.isPending = false)
    (hcallback : a.release ≠ .absent ∨ a.discard ≠ .absent) : a.job.isDone = true := by
  have hne : a.job ≠ .absent := by
    intro habsent
    obtain ⟨-, hrelease, hdiscard, -⟩ := H.bare (H.job.mp habsent)
    simp [hrelease, hdiscard] at hcallback
  cases h : a.job <;> simp_all [BuildJob.isPending, BuildJob.isDone]

/-- A call is never stuck: once the permit is out of its caller's hands, what is left gets less by
steps that are not the caller's. -/
theorem Inv.progress (H : Inv k s a) (hadmits : a.phase.admits = false)
    (hleft : ¬ a.Settled s.isOpen) :
    ∃ s' a', Act k s a s' a' ∧ s'.isOpen = s.isOpen ∧ a'.phase = a.phase ∧ a'.left < a.left := by
  by_cases hqueued : a.job = .queued
  · refine ⟨s, _, .workerStarts hqueued, rfl, rfl, ?_⟩
    simp [left, hqueued]
  by_cases hrunning : a.job = .running
  · refine ⟨s, _, .workerFails hrunning, rfl, rfl, ?_⟩
    simp [left, hrunning]
  have hidle : a.job.isPending = false := by
    cases h : a.job <;> simp_all [BuildJob.isPending]
  by_cases hdiscard : a.discard = .registered
  · have hjob := H.sound.isDone hidle (.inr (by simp [hdiscard]))
    refine ⟨s, _, .runDiscard hjob hdiscard, rfl, rfl, ?_⟩
    simp only [left, BuildCall.discardImageBuildRequest, hdiscard, reduceCtorEq, if_true, if_false]
    exact Nat.add_lt_add_right (Nat.add_lt_add_right (Nat.lt_succ_self _) _) _
  -- what remains is up to the loop
  have hopen : s.isOpen = true := by
    by_contra hclosed
    exact hleft ⟨hidle, hdiscard, fun h => absurd h hclosed, fun h => absurd h hclosed⟩
  by_cases hadmission : a.admission.isDone = true
  · by_cases hregistered : a.release = .registered
    · have hjob := H.sound.isDone hidle (.inl (by simp [hregistered]))
      refine ⟨s, _, .finished hjob hregistered, rfl, rfl, ?_⟩
      simp [left, hregistered, BuildCall.finished, hopen]
    by_cases hscheduled : a.release = .scheduled
    · refine ⟨_, _, .runRelease hopen hscheduled, rfl, rfl, ?_⟩
      simp [left, hscheduled]
    exact absurd ⟨hidle, hdiscard, fun _ => hadmission, fun _ => ⟨hregistered, hscheduled⟩⟩ hleft
  · have hpending : a.admission.isDone = false := by simpa using hadmission
    have hcancel := H.sound.abandoned hadmits hpending
    cases h : a.admission with
    | waiting =>
        refine ⟨s, _, .admissionCancelled hopen h hcancel, rfl, rfl, ?_⟩
        simp [left, h, Admission.isDone]
    | granted =>
        refine ⟨_, _, .grantCancelled hopen h hcancel, rfl, rfl, ?_⟩
        simp [left, h, Admission.isDone]
    | _ => simp [h, Admission.isDone] at hpending

/-- Whatever the caller does, the rest of the call comes to an end. -/
theorem Inv.settles (H : Inv k s a) (hadmits : a.phase.admits = false) :
    ∃ s' a', Crew.Solo (Act k) s a s' a' ∧ s'.isOpen = s.isOpen ∧ a'.phase = a.phase ∧
      a'.Settled s'.isOpen := by
  induction hn : a.left using Nat.strong_induction_on generalizing s a with
  | _ n ih =>
      by_cases hsettled : a.Settled s.isOpen
      · exact ⟨s, a, .refl s a, rfl, rfl, hsettled⟩
      · obtain ⟨s₁, a₁, hact, hopen₁, hphase₁, hless⟩ := H.progress hadmits hsettled
        obtain ⟨s₂, a₂, hrun, hopen₂, hphase₂, hend⟩ :=
          ih a₁.left (hn ▸ hless) (hact.inv H) (by rw [hphase₁, hadmits]) rfl
        exact ⟨s₂, a₂, .head hact hrun, hopen₂.trans hopen₁, hphase₂.trans hphase₁, hend⟩

omit [DecidableEq ι] in
/-- Nothing is left, and so the permit is back. -/
theorem Inv.released (H : Inv k s a) (hadmits : a.phase.admits = false) (hend : a.Settled s.isOpen)
    (hopen : s.isOpen = true) : a.released = a.taken := by
  have hgranted : a.admission ≠ .granted := by
    intro h
    have := hend.admission hopen
    simp [h, Admission.isDone] at this
  have hdropped : a.release ≠ .dropped := fun h => by simp [H.dropped h] at hopen
  have hshare : a.share = 0 := by
    simp [share, hgranted, hadmits, hend.release hopen, hdropped]
  have hpermits := H.sound.permits
  omega

/-- Nothing is left, and so the archive is closed. -/
theorem Sound.closed (H : a.Sound) (hover : a.phase.isOver = true) {isOpen : Bool}
    (hend : a.Settled isOpen) (hjob : a.job = .succeeded) :
    if a.yielded then a.closedByExit = 1 ∧ a.closedByDiscard = 0
    else a.closedByExit = 0 ∧ a.closedByDiscard = 1 := by
  have hphase : a.phase = .ended := by
    have hsubmits : a.phase.submits = true := by simpa [hjob] using H.job
    cases h : a.phase <;> simp_all [BuildPhase.isOver, BuildPhase.submits]
  have hdiscard := H.discard
  have hexits := H.exits
  have hdiscards := H.discards
  cases hyielded : a.yielded
  · have hran : a.discard = .ran := by
      have hne : a.discard ≠ .absent := by simpa [hphase, hyielded] using hdiscard
      cases h : a.discard with
      | absent => exact absurd h hne
      | registered => exact absurd h hend.discard
      | ran => rfl
    simp only [Bool.false_eq_true, if_false]
    exact ⟨by simpa [hyielded] using hexits, by simpa [hran, hjob] using hdiscards⟩
  · have habsent : a.discard = .absent := by simpa [hphase, hyielded] using hdiscard
    simp only [if_true]
    exact ⟨by simpa [hyielded, hphase] using hexits, by simpa [habsent] using hdiscards⟩

end Left

/-! ## Whole runs -/

section Loops
variable [Fintype ι]

/-- The permits and the archives of a loop. -/
structure Accounted (c : Crew ι (BuildLoop ι) BuildCall) : Prop where
  /-- At most two preparations are submitted and unfinished. -/
  bounded :
    (Finset.univ.filter fun k => (c.agent k).job.isPending = true).card ≤ buildContextWorkers
  /-- A permit is in the semaphore, or it was taken for a call and is not back yet. -/
  permits : c.store.stock + ∑ k, ((c.agent k).taken - (c.agent k).released) = buildContextWorkers
  released_le : ∀ k, (c.agent k).released ≤ (c.agent k).taken ∧ (c.agent k).taken ≤ 1
  /-- An archive is closed at most once, and only where a worker produced one. -/
  closed_le : ∀ k, (c.agent k).closedByExit + (c.agent k).closedByDiscard ≤
    if (c.agent k).job = .succeeded then 1 else 0
  body : ∀ k, (c.agent k).phase = .body →
    (c.agent k).closedByExit = 0 ∧ (c.agent k).closedByDiscard = 0
  /-- Once the permit is out of the caller's hands, all that is left can run to its end, whatever
  the caller does. -/
  settles : ∀ k, (c.agent k).phase.admits = false → ∃ s a,
    Crew.Solo (Act k) c.store (c.agent k) s a ∧ s.isOpen = c.store.isOpen ∧
      a.phase = (c.agent k).phase ∧ a.Settled s.isOpen
  released : ∀ k, (c.agent k).phase.admits = false → (c.agent k).Settled c.store.isOpen →
    c.store.isOpen = true → (c.agent k).released = (c.agent k).taken
  closed : ∀ k, (c.agent k).phase.isOver = true → (c.agent k).Settled c.store.isOpen →
    (c.agent k).job = .succeeded →
      if (c.agent k).yielded then (c.agent k).closedByExit = 1 ∧ (c.agent k).closedByDiscard = 0
      else (c.agent k).closedByExit = 0 ∧ (c.agent k).closedByDiscard = 1

omit [DecidableEq ι] in
theorem bounded_of_stock {c : Crew ι (BuildLoop ι) BuildCall} (H : ∀ k, (c.agent k).Sound)
    (hstock : c.store.stock + ∑ k, (c.agent k).share = buildContextWorkers) :
    (Finset.univ.filter fun k => (c.agent k).job.isPending = true).card ≤ buildContextWorkers := by
  calc (Finset.univ.filter fun k => (c.agent k).job.isPending = true).card
      = ∑ k, if (c.agent k).job.isPending = true then 1 else 0 := Finset.card_filter _ _
    _ ≤ ∑ k, (c.agent k).share := by
        refine Finset.sum_le_sum fun k _ => ?_
        split
        · rename_i hjob
          rw [(H k).share_of_pending hjob]
        · exact Nat.zero_le _
    _ ≤ buildContextWorkers := by omega

omit [DecidableEq ι] [Fintype ι] in
theorem Sound.closed_le {a : BuildCall} (H : a.Sound) :
    a.closedByExit + a.closedByDiscard ≤ if a.job = .succeeded then 1 else 0 := by
  rw [H.exits, H.discards]
  cases hyielded : a.yielded with
  | false =>
      simp only [Bool.false_eq_true, and_false, if_false, Nat.zero_add]
      split <;> split <;> simp_all
  | true =>
      obtain ⟨hphase, hjob⟩ := H.yielded hyielded
      have habsent : a.discard = .absent := by
        rcases hphase with h | h <;> simp [H.discard, h, hyielded]
      simp only [habsent, hjob, reduceCtorEq, false_and, if_false, if_true, Nat.add_zero]
      split <;> simp

/-- For any number of calls on a loop and every interleaving of what their callers, admission tasks,
workers and callbacks do. -/
theorem build_contexts_accounted {c : Crew ι (BuildLoop ι) BuildCall}
    (h : Crew.Reachable Act (start ι) c) : Accounted c := by
  have H := reachable_inv h
  have hstock := reachable_stock h
  constructor
  case bounded => exact bounded_of_stock (fun k => (H k).sound) hstock
  case permits =>
    have hshare : ∀ k, (c.agent k).taken - (c.agent k).released = (c.agent k).share := by
      intro k
      have hpermits := (H k).sound.permits
      omega
    simpa only [hshare] using hstock
  case released_le =>
    intro k
    have hpermits := (H k).sound.permits
    exact ⟨by omega, (H k).sound.once⟩
  case closed_le => exact fun k => (H k).sound.closed_le
  case body =>
    intro k hphase
    have habsent : (c.agent k).discard = .absent := by simp [(H k).sound.discard, hphase]
    exact ⟨by simpa [hphase] using (H k).sound.exits, by simpa [habsent] using (H k).sound.discards⟩
  case settles => exact fun k hadmits => (H k).settles hadmits
  case released => exact fun k hadmits hend hopen => (H k).released hadmits hend hopen
  case closed => exact fun k hover hend hjob => (H k).sound.closed hover hend hjob

end Loops

/-- A caller that is cancelled when the worker is done and the loop has not seen it: the callback
closes the archive, and the permit goes back. -/
theorem build_contexts_accounted_late :
    ∃ c : Crew Unit (BuildLoop Unit) BuildCall, (c.agent ()).job = .succeeded ∧
      (c.agent ()).phase = .ended ∧ (c.agent ()).yielded = false ∧
      (c.agent ()).closedByDiscard = 1 ∧ (c.agent ()).released = 1 ∧ Accounted c := by
  have hstart : Crew.Reachable Act (start Unit) _ := .start
  have hrun := hstart.solo () <| .head (.call rfl rfl) <| .head (.grant 1 rfl rfl rfl rfl) <|
    .head (.acquire rfl rfl rfl) <| .head (.proceed rfl rfl rfl) <| .head (.submit rfl) <|
    .head (.addFinished rfl) <| .head (.workerStarts rfl) <| .head (.workerSucceeds rfl) <|
    .head (.finished rfl rfl) <| .head (.leavePreparation rfl) <| .head (.cancelJob rfl) <|
    .head (.runRelease rfl rfl) <| .refl _ _
  exact ⟨_, rfl, rfl, rfl, rfl, rfl, build_contexts_accounted hrun⟩

end BuildCall
end UcloudSandboxes.Client
