import UcloudSandboxes.Lib.Crew

/-!
# Preparing the context of an image build

`_async_image_build_request` asks the semaphore of its loop for a permit, lets a thread pool
prepare the archive and yields it. The permit goes back when the preparation is done; an archive
that nobody will use is closed by a callback of the preparation.

A step is what a caller, its admission task, a worker thread or a callback does between two awaits,
or in one critical section. When a caller is cancelled or out of time, when a worker succeeds or
fails, whether the pool drops queued work and when the loop is shut down are left open.

## Main results

* `BuildCall.Act.sound`: how far the parts of a call are in each phase, and what they have taken,
  given back and closed.
-/
namespace UcloudSandboxes.Client
open Lib

universe u
variable {ι : Type u} [DecidableEq ι]

/-! ## The loop -/

/-- `_BUILD_CONTEXT_WORKERS`. -/
def buildContextWorkers : ℕ := 2

/-- What the calls of one event loop share. -/
structure BuildLoop (ι : Type u) where
  isOpen : Bool := true
  /-- The value of the semaphore that the loop's weak reference leads to. -/
  limiter : Option ℕ := none
  /-- The calls that something refers to the semaphore for. -/
  holders : Finset ι := ∅

namespace BuildLoop

/-- `_build_context_limiter`, called by `k`. -/
def buildContextLimiter (s : BuildLoop ι) (k : ι) : BuildLoop ι :=
  { s with limiter := some (s.limiter.getD buildContextWorkers), holders := insert k s.holders }

/-- `Semaphore.release`. -/
def release (s : BuildLoop ι) : BuildLoop ι := { s with limiter := s.limiter.map (· + 1) }

/-- The permits there are to give. -/
def stock (s : BuildLoop ι) : ℕ := s.limiter.getD buildContextWorkers

end BuildLoop

/-! ## One call -/

/-- Where the caller stands. -/
inductive BuildPhase
  | outside
  /-- Waiting for the admission task. -/
  | admitting
  /-- Before `submit`. -/
  | admitted
  /-- Between `submit` and `add_done_callback`. -/
  | submitted
  /-- Waiting for the preparation. -/
  | preparing
  /-- Suspended at the `yield`. -/
  | body
  /-- Between `add_done_callback` and `cancel` in the `except` clause. -/
  | discarding
  /-- Left before there was a preparation. -/
  | refused
  | ended
deriving DecidableEq

namespace BuildPhase

/-- The permit is the caller's to give back or to hand on. -/
def admits : BuildPhase → Bool
  | .admitting | .admitted | .submitted => true
  | _ => false

/-- There is a preparation. -/
def submits : BuildPhase → Bool
  | .submitted | .preparing | .body | .discarding | .ended => true
  | _ => false

/-- The caller is done. -/
def isOver : BuildPhase → Bool
  | .refused | .ended => true
  | _ => false

/-- The preparation has the callback `finished`. -/
def hooked : BuildPhase → Bool
  | .preparing | .body | .discarding | .ended => true
  | _ => false

end BuildPhase

/-- The task of `limiter.acquire()`. -/
inductive Admission
  | absent
  | waiting
  /-- The semaphore has given it a permit, and it has not run since. -/
  | granted
  | acquired
  | cancelled
deriving DecidableEq

def Admission.isDone : Admission → Bool
  | .waiting | .granted => false
  | _ => true

/-- The preparation in the thread pool. -/
inductive BuildJob
  | absent
  | queued
  | running
  /-- The result holds an archive. -/
  | succeeded
  | failed
  | cancelled
deriving DecidableEq

namespace BuildJob

def isDone : BuildJob → Bool
  | .absent | .queued | .running => false
  | _ => true

/-- Submitted and unfinished. -/
def isPending : BuildJob → Bool
  | .queued | .running => true
  | _ => false

end BuildJob

/-- The callback `finished` and the `limiter.release` that it passes to the loop. -/
inductive ReleaseCallback
  | absent
  | registered
  | scheduled
  /-- The loop was closed. -/
  | dropped
  | ran
deriving DecidableEq

/-- The callback `_discard_image_build_request`. -/
inductive DiscardCallback
  | absent
  | registered
  | ran
deriving DecidableEq

/-- A call of `_async_image_build_request` with what it set going, and how often a permit was taken
and given back for it and its archive closed by the two who may. -/
structure BuildCall where
  phase : BuildPhase := .outside
  admission : Admission := .absent
  /-- `cancel` was called on the admission task before it was done. -/
  cancelling : Bool := false
  job : BuildJob := .absent
  /-- The wrapped future has the result of the preparation. -/
  wrapped : Bool := false
  release : ReleaseCallback := .absent
  discard : DiscardCallback := .absent
  /-- The caller's body has begun. -/
  yielded : Bool := false
  taken : ℕ := 0
  released : ℕ := 0
  closedByExit : ℕ := 0
  closedByDiscard : ℕ := 0
deriving DecidableEq

namespace BuildCall

/-- `admission.cancel()`. -/
def cancelAdmission (a : BuildCall) : BuildCall :=
  if a.admission.isDone then a else { a with cancelling := true }

/-- The `except` clause around the admission. -/
def leaveAdmission (s : BuildLoop ι) (a : BuildCall) : BuildLoop ι × BuildCall :=
  if a.admission = .acquired then
    (s.release, { a with phase := .refused, released := a.released + 1 })
  else (s, { a.cancelAdmission with phase := .refused })

/-- `finished`. -/
def finished (s : BuildLoop ι) (a : BuildCall) : BuildCall :=
  { a with release := if s.isOpen then .scheduled else .dropped }

/-- `future.add_done_callback(finished)`: a callback of a future that is done runs at once. -/
def addFinished (s : BuildLoop ι) (a : BuildCall) : BuildCall :=
  if a.job.isDone then a.finished s else { a with release := .registered }

/-- `_discard_image_build_request`. -/
def discardImageBuildRequest (a : BuildCall) : BuildCall :=
  { a with
    discard := .ran
    closedByDiscard := a.closedByDiscard + if a.job = .succeeded then 1 else 0 }

/-- `future.add_done_callback(_discard_image_build_request)`. -/
def addDiscard (a : BuildCall) : BuildCall :=
  if a.job.isDone then a.discardImageBuildRequest else { a with discard := .registered }

/-- `future.cancel()`. -/
def cancelJob (a : BuildCall) : BuildCall :=
  if a.job = .queued then { a with job := .cancelled } else a

/-- Something refers to the semaphore: the caller's frame, the admission task, or the callback. -/
def Refers (a : BuildCall) : Prop :=
  (a.phase ≠ .outside ∧ a.phase ≠ .refused ∧ a.phase ≠ .ended) ∨ a.admission.isDone = false ∨
    a.release = .registered ∨ a.release = .scheduled

/-- What happens in call `k`. -/
inductive Act : Crew.Local ι (BuildLoop ι) BuildCall
  | call {k s a} : s.isOpen = true → a.phase = .outside →
      Act k s a (s.buildContextLimiter k) { a with phase := .admitting, admission := .waiting }
  | grant {k s a} (value : ℕ) : s.isOpen = true → a.admission = .waiting → a.cancelling = false →
      s.limiter = some (value + 1) →
      Act k s a { s with limiter := some value }
        { a with admission := .granted, taken := a.taken + 1 }
  | acquire {k s a} : s.isOpen = true → a.admission = .granted → a.cancelling = false →
      Act k s a s { a with admission := .acquired }
  | admissionCancelled {k s a} : s.isOpen = true → a.admission = .waiting → a.cancelling = true →
      Act k s a s { a with admission := .cancelled }
  /-- `acquire` gives the permit back. -/
  | grantCancelled {k s a} : s.isOpen = true → a.admission = .granted → a.cancelling = true →
      Act k s a s.release { a with admission := .cancelled, released := a.released + 1 }
  /-- The loop is being shut down. -/
  | cancelAdmission {k s a} : Act k s a s a.cancelAdmission
  | proceed {k s a} : s.isOpen = true → a.phase = .admitting → a.admission = .acquired →
      Act k s a s { a with phase := .admitted }
  /-- The caller is cancelled or out of time, or the task was cancelled. -/
  | leaveAdmission {k s a} : a.phase = .admitting →
      Act k s a (a.leaveAdmission s).1 (a.leaveAdmission s).2
  /-- The deadline has passed, or `submit` raises. -/
  | refuse {k s a} : a.phase = .admitted →
      Act k s a s.release { a with phase := .refused, released := a.released + 1 }
  | submit {k s a} : a.phase = .admitted →
      Act k s a s { a with phase := .submitted, job := .queued }
  | addFinished {k s a} : a.phase = .submitted →
      Act k s a s { a.addFinished s with phase := .preparing }
  | workerStarts {k s a} : a.job = .queued → Act k s a s { a with job := .running }
  | workerSucceeds {k s a} : a.job = .running → Act k s a s { a with job := .succeeded }
  | workerFails {k s a} : a.job = .running → Act k s a s { a with job := .failed }
  /-- The pool drops queued work. -/
  | cancelQueued {k s a} : a.job = .queued → Act k s a s { a with job := .cancelled }
  | finished {k s a} : a.job.isDone = true → a.release = .registered → Act k s a s (a.finished s)
  | runRelease {k s a} : s.isOpen = true → a.release = .scheduled →
      Act k s a s.release { a with release := .ran, released := a.released + 1 }
  | setWrapped {k s a} : s.isOpen = true → a.phase = .preparing → a.job.isDone = true →
      Act k s a s { a with wrapped := true }
  | yields {k s a} : s.isOpen = true → a.phase = .preparing → a.wrapped = true →
      a.job = .succeeded → Act k s a s { a with phase := .body, yielded := true }
  /-- The caller is cancelled or out of time, or the preparation has no result. -/
  | leavePreparation {k s a} : a.phase = .preparing →
      Act k s a s { a.addDiscard with phase := .discarding }
  | cancelJob {k s a} : a.phase = .discarding → Act k s a s { a.cancelJob with phase := .ended }
  | runDiscard {k s a} : a.job.isDone = true → a.discard = .registered →
      Act k s a s a.discardImageBuildRequest
  | leaveBody {k s a} : a.phase = .body →
      Act k s a s { a with phase := .ended, closedByExit := a.closedByExit + 1 }
  | forget {k s a} : ¬ a.Refers → Act k s a { s with holders := s.holders.erase k } a
  /-- Nothing refers to the semaphore any more. -/
  | collect {k s a} : s.isOpen = true → s.holders = ∅ → Act k s a { s with limiter := none } a
  | closeLoop {k s a} : Act k s a { s with isOpen := false } a

/-! ## What holds of a call -/

/-- The permits that are out for the call. -/
def share (a : BuildCall) : ℕ :=
  if a.admission = .granted ∨ (a.admission = .acquired ∧ a.phase.admits = true) ∨
    a.release = .registered ∨ a.release = .scheduled ∨ a.release = .dropped then 1 else 0

/-- What holds of the call itself at every step: how far its parts are in each phase, and what they
have taken, given back and closed. -/
structure Sound (a : BuildCall) : Prop where
  absent : a.admission = .absent ↔ a.phase = .outside
  acquired : a.phase = .admitted ∨ a.phase.submits = true → a.admission = .acquired
  cancelling : a.phase = .refused → a.admission.isDone = false → a.cancelling = true
  job : a.job = .absent ↔ a.phase.submits = false
  queued : a.phase = .ended → a.job ≠ .queued
  release : a.release = .absent ↔ a.phase.hooked = false
  unfinished : a.job.isDone = false →
    (a.release = .absent ∨ a.release = .registered) ∧ a.discard ≠ .ran
  discard : a.discard = .absent ↔ ¬ (a.phase = .discarding ∨ a.phase = .ended ∧ a.yielded = false)
  yielded : a.yielded = true → (a.phase = .body ∨ a.phase = .ended) ∧ a.job = .succeeded
  body : a.phase = .body → a.yielded = true
  permits : a.taken = a.released + a.share
  once : a.taken ≤ 1
  untaken : a.admission = .absent ∨ a.admission = .waiting → a.taken = 0
  exits : a.closedByExit = if a.phase = .ended ∧ a.yielded = true then 1 else 0
  discards : a.closedByDiscard = if a.discard = .ran ∧ a.job = .succeeded then 1 else 0

section Step
variable {ι : Type u} {s : BuildLoop ι} {a : BuildCall}

/-- While the semaphore decides, there is no preparation. -/
theorem Sound.undecided (H : a.Sound) (h : a.admission.isDone = false) :
    a.phase = .admitting ∨ a.phase = .refused := by
  have hne : a.admission ≠ .acquired := by
    intro heq
    rw [heq] at h
    cases h
  have habsent : a.admission ≠ .absent := by
    intro heq
    rw [heq] at h
    cases h
  cases hphase : a.phase
  case admitting => exact .inl rfl
  case refused => exact .inr rfl
  case outside => exact absurd (H.absent.mpr hphase) habsent
  case admitted => exact absurd (H.acquired (.inl hphase)) hne
  all_goals exact absurd (H.acquired (.inr (by rw [hphase]; rfl))) hne

theorem Sound.cancelAdmission (H : a.Sound) : a.cancelAdmission.Sound := by
  simp only [BuildCall.cancelAdmission]
  split
  · exact H
  · exact { H with cancelling := fun _ _ => rfl }

theorem Sound.unyielded (H : a.Sound) (hbody : a.phase ≠ .body) (hover : a.phase ≠ .ended) :
    a.yielded = false := by
  rw [Bool.eq_false_iff]
  intro hyielded
  rcases (H.yielded hyielded).1 with h | h
  · exact hbody h
  · exact hover h

/-- Before there is a preparation, neither callback is there. -/
theorem Sound.bare (H : a.Sound) (h : a.phase.submits = false) :
    a.job = .absent ∧ a.release = .absent ∧ a.discard = .absent ∧ a.yielded = false := by
  have hhooked : a.phase.hooked = false := by
    cases hphase : a.phase <;> simp_all [BuildPhase.submits, BuildPhase.hooked]
  have hyielded : a.yielded = false := by
    refine H.unyielded ?_ ?_ <;> intro hphase <;> simp [hphase, BuildPhase.submits] at h
  refine ⟨H.job.mpr h, H.release.mpr hhooked, H.discard.mpr ?_, hyielded⟩
  rintro (hphase | ⟨hphase, -⟩) <;> simp [hphase, BuildPhase.submits] at h

theorem share_bare (H : a.Sound) (h : a.phase.submits = false) :
    a.share =
      if a.admission = .granted ∨ (a.admission = .acquired ∧ a.phase.admits = true) then 1
      else 0 := by
  simp [share, (H.bare h).2.1]

/-- The admission goes on, or the caller does without a preparation. -/
theorem Sound.early (H : a.Sound) (hold : a.phase.submits = false) {phase : BuildPhase}
    {admission : Admission} {cancelling : Bool} {taken released : ℕ}
    (hphase : phase.submits = false) (habsent : admission = .absent ↔ phase = .outside)
    (hacquired : phase = .admitted → admission = .acquired)
    (hcancelling : phase = .refused → admission.isDone = false → cancelling = true)
    (hpermits : taken = released +
      if admission = .granted ∨ (admission = .acquired ∧ phase.admits = true) then 1 else 0)
    (honce : taken ≤ 1) (huntaken : admission = .absent ∨ admission = .waiting → taken = 0) :
    { a with
      phase := phase, admission := admission, cancelling := cancelling, taken := taken
      released := released }.Sound := by
  obtain ⟨hjob, hrelease, hdiscard, hyielded⟩ := H.bare hold
  have hhooked : phase.hooked = false := by
    cases phase <;> simp_all [BuildPhase.submits, BuildPhase.hooked]
  have hlate : phase ≠ .body ∧ phase ≠ .discarding ∧ phase ≠ .ended := by
    refine ⟨?_, ?_, ?_⟩ <;> rintro rfl <;> cases hphase
  exact { H with
    absent := habsent
    acquired := by simpa [hphase] using hacquired
    cancelling := hcancelling
    job := by simp [hjob, hphase]
    queued := by simp [hlate]
    release := by simp [hrelease, hhooked]
    discard := by simp [hdiscard, hlate]
    yielded := by simp [hyielded]
    body := by simp [hlate]
    permits := by simpa [share, hrelease] using hpermits
    once := honce
    untaken := huntaken
    exits := by simpa [hyielded] using H.exits }

/-- The admission task takes a step. -/
theorem Sound.decided (H : a.Sound) (hpending : a.admission.isDone = false) {admission : Admission}
    {taken released : ℕ} (habsent : admission ≠ .absent)
    (hpermits : taken = released +
      if admission = .granted ∨ (admission = .acquired ∧ a.phase.admits = true) then 1 else 0)
    (honce : taken ≤ 1) (huntaken : admission = .waiting → taken = 0) :
    { a with admission := admission, taken := taken, released := released }.Sound := by
  have hphase := H.undecided hpending
  have hearly : a.phase.submits = false := by rcases hphase with h | h <;> rw [h] <;> rfl
  refine H.early hearly hearly ?_ ?_ (fun hrefused _ => H.cancelling hrefused hpending) hpermits
    honce fun h => huntaken (h.resolve_left habsent)
  · rcases hphase with h | h <;> simp [h, habsent]
  · rcases hphase with h | h <;> simp [h]

/-- The preparation goes on. -/
theorem Sound.setJob (H : a.Sound) {job : BuildJob} (hold : a.job = .queued ∨ a.job = .running)
    (habsent : job ≠ .absent) (hqueued : job ≠ .queued) : { a with job := job }.Sound := by
  have hdone : a.job.isDone = false := by rcases hold with h | h <;> rw [h] <;> rfl
  have hsubmits : a.phase.submits = true := by
    have hjob := H.job
    rcases hold with h | h <;> simpa [h] using hjob
  have hyielded : a.yielded = false := by
    rw [Bool.eq_false_iff]
    intro hy
    have hjob := (H.yielded hy).2
    rcases hold with h | h <;> rw [h] at hjob <;> cases hjob
  exact { H with
    job := by simp [habsent, hsubmits]
    queued := fun _ => hqueued
    unfinished := fun _ => H.unfinished hdone
    yielded := by simp [hyielded]
    discards := by simpa [(H.unfinished hdone).2] using H.discards }

/-- With the callback `finished` the permit has left the caller's hands. -/
theorem Sound.handedOn (H : a.Sound) (h : a.phase.hooked = true) :
    a.admission = .acquired ∧ a.phase.admits = false := by
  constructor
  · refine H.acquired (.inr ?_)
    cases hphase : a.phase <;> simp_all [BuildPhase.submits, BuildPhase.hooked]
  · cases hphase : a.phase <;> simp_all [BuildPhase.admits, BuildPhase.hooked]

theorem Sound.leaveAdmission (H : a.Sound) (hphase : a.phase = .admitting) :
    (a.leaveAdmission s).2.Sound := by
  have hearly : a.phase.submits = false := by rw [hphase]; rfl
  have hasked : a.admission ≠ .absent := by simp [H.absent, hphase]
  have hpermits := H.permits
  rw [share_bare H hearly] at hpermits
  simp only [BuildCall.leaveAdmission]
  split
  · rename_i hadmission
    refine H.early hearly rfl (by simp [hadmission]) (by simp)
      (by simp [hadmission, Admission.isDone]) ?_ H.once H.untaken
    simpa [hadmission, hphase, BuildPhase.admits] using hpermits
  · rename_i hadmission
    have hleft : { a.cancelAdmission with phase := .refused } =
        { a with phase := .refused, cancelling := a.cancelling || !a.admission.isDone } := by
      simp only [BuildCall.cancelAdmission]
      cases a.admission.isDone <;> simp
    rw [hleft]
    refine H.early hearly rfl (by simp [hasked]) (by simp) (by simp +contextual)
      ?_ H.once H.untaken
    simpa [hadmission] using hpermits

theorem Sound.addFinished (H : a.Sound) (hphase : a.phase = .submitted) :
    { a.addFinished s with phase := .preparing }.Sound := by
  have hadmission := H.acquired (.inr (by rw [hphase]; rfl))
  have hjob : a.job ≠ .absent := by simp [H.job, hphase, BuildPhase.submits]
  have hdiscard : a.discard = .absent := by simp [H.discard, hphase]
  have hyielded := H.unyielded (by simp [hphase]) (by simp [hphase])
  have hpermits : a.taken = a.released + 1 := by
    simpa [share, hadmission, hphase, BuildPhase.admits] using H.permits
  -- whatever the callback is now, the permit is with it
  have hmove : ∀ release : ReleaseCallback,
      (release = .registered ∨ release = .scheduled ∨ release = .dropped) →
      (a.job.isDone = false → release = .registered) →
      { a with phase := .preparing, release := release }.Sound := by
    intro release hrelease hregistered
    exact { H with
      absent := by simp [hadmission]
      acquired := fun _ => hadmission
      cancelling := by simp
      job := by simp [hjob, BuildPhase.submits]
      queued := by simp
      release := by rcases hrelease with rfl | rfl | rfl <;> simp [BuildPhase.hooked]
      unfinished := fun hdone => ⟨.inr (hregistered hdone), (H.unfinished hdone).2⟩
      discard := by simp [hdiscard]
      yielded := by simp [hyielded]
      body := by simp
      permits := by simpa [share, hadmission, hrelease] using hpermits
      exits := by simpa [hphase] using H.exits }
  simp only [BuildCall.addFinished, BuildCall.finished]
  split
  · rename_i hdone
    cases hopen : s.isOpen
    · exact hmove .dropped (.inr (.inr rfl)) (by simp [hdone])
    · exact hmove .scheduled (.inr (.inl rfl)) (by simp [hdone])
  · exact hmove .registered (.inl rfl) (fun _ => rfl)

theorem Sound.submit (H : a.Sound) (hphase : a.phase = .admitted) :
    { a with phase := .submitted, job := .queued }.Sound := by
  have hadmission := H.acquired (.inl hphase)
  obtain ⟨hjob, hrelease, hdiscard, hyielded⟩ := H.bare (by rw [hphase]; rfl)
  exact { H with
    absent := by simp [hadmission]
    acquired := fun _ => hadmission
    cancelling := by simp
    job := by simp [BuildPhase.submits]
    queued := by simp
    release := by simp [hrelease, BuildPhase.hooked]
    unfinished := fun _ => ⟨.inl hrelease, by simp [hdiscard]⟩
    discard := by simp [hdiscard]
    yielded := by simp [hyielded]
    body := by simp
    permits := by simpa [share, hphase, BuildPhase.admits] using H.permits
    exits := by simpa [hyielded] using H.exits
    discards := by simpa [hdiscard] using H.discards }

/-- The caller stops waiting for the preparation. -/
theorem Sound.leavePreparation (H : a.Sound) (hphase : a.phase = .preparing) :
    { a.addDiscard with phase := .discarding }.Sound := by
  have hadmission := H.acquired (.inr (by rw [hphase]; rfl))
  have hjob : a.job ≠ .absent := by simp [H.job, hphase, BuildPhase.submits]
  have hrelease : a.release ≠ .absent := by simp [H.release, hphase, BuildPhase.hooked]
  have hdiscard : a.discard = .absent := by simp [H.discard, hphase]
  have hyielded := H.unyielded (by simp [hphase]) (by simp [hphase])
  have hdiscards : a.closedByDiscard = 0 := by simpa [hdiscard] using H.discards
  have hexits : a.closedByExit = 0 := by simpa [hyielded] using H.exits
  -- the callback runs if and only if the preparation is done
  have hmove : ∀ (discard : DiscardCallback) (closed : ℕ), discard ≠ .absent →
      (a.job.isDone = false → discard ≠ .ran) →
      closed = (if discard = .ran ∧ a.job = .succeeded then 1 else 0) →
      { a with phase := .discarding, discard := discard, closedByDiscard := closed }.Sound := by
    intro discard closed hne hran hclosed
    exact { H with
      absent := by simp [hadmission]
      acquired := fun _ => hadmission
      cancelling := by simp
      job := by simp [hjob, BuildPhase.submits]
      queued := by simp
      release := by simp [hrelease, BuildPhase.hooked]
      unfinished := fun hdone => ⟨(H.unfinished hdone).1, hran hdone⟩
      discard := by simp [hne]
      yielded := by simp [hyielded]
      body := by simp
      permits := by
        simpa [share, hadmission, hphase, BuildPhase.admits] using H.permits
      exits := by simpa using hexits
      discards := hclosed }
  simp only [BuildCall.addDiscard, BuildCall.discardImageBuildRequest]
  split
  · rename_i hdone
    exact hmove .ran _ (by simp) (by simp [hdone]) (by simp [hdiscards])
  · exact hmove .registered _ (by simp) (by simp) (by simpa using hdiscards)

/-- A preparation that is cancelled has no archive, and the others are past the queue. -/
theorem Sound.cancelJob (H : a.Sound) (hphase : a.phase = .discarding) :
    { a.cancelJob with phase := .ended }.Sound := by
  have hadmission := H.acquired (.inr (by rw [hphase]; rfl))
  have hdiscard : a.discard ≠ .absent := by simp [H.discard, hphase]
  have hyielded := H.unyielded (by simp [hphase]) (by simp [hphase])
  have hmove : ∀ b : BuildCall, b.Sound → b.phase = .discarding → b.admission = .acquired →
      b.discard ≠ .absent → b.yielded = false → b.job ≠ .queued →
      { b with phase := .ended }.Sound := by
    intro b Hb hphase hadmission hdiscard hyielded hqueued
    have hjob : b.job ≠ .absent := by simp [Hb.job, hphase, BuildPhase.submits]
    have hrelease : b.release ≠ .absent := by simp [Hb.release, hphase, BuildPhase.hooked]
    exact { Hb with
      absent := by simp [hadmission]
      acquired := fun _ => hadmission
      cancelling := by simp
      job := by simp [hjob, BuildPhase.submits]
      queued := fun _ => hqueued
      release := by simp [hrelease, BuildPhase.hooked]
      discard := by simp [hdiscard, hyielded]
      yielded := by simp [hyielded]
      body := by simp
      permits := by simpa [share, hphase, BuildPhase.admits] using Hb.permits
      exits := by simpa [hyielded] using Hb.exits }
  simp only [BuildCall.cancelJob]
  split
  · rename_i hjob
    exact hmove _ (H.setJob (.inl hjob) (by simp) (by simp)) hphase hadmission hdiscard hyielded
      (by simp)
  · rename_i hjob
    exact hmove a H hphase hadmission hdiscard hyielded hjob

/-- The callback `finished`, and what it hands to the loop, keep the permit. -/
theorem Sound.finished (H : a.Sound) (hjob : a.job.isDone = true)
    (hrelease : a.release = .registered) : (a.finished s).Sound := by
  have hhooked : a.phase.hooked = true := by simpa [hrelease] using H.release
  simp only [BuildCall.finished]
  cases s.isOpen <;> exact { H with
    release := by simp [hhooked]
    unfinished := by simp [hjob]
    permits := by simpa [share, hrelease] using H.permits }

theorem Sound.runRelease (H : a.Sound) (hrelease : a.release = .scheduled) :
    { a with release := .ran, released := a.released + 1 }.Sound := by
  have hhooked : a.phase.hooked = true := by simpa [hrelease] using H.release
  obtain ⟨hadmission, hadmits⟩ := H.handedOn hhooked
  have hdone : a.job.isDone = true := by
    by_contra hjob
    have := (H.unfinished (by simpa using hjob)).1
    simp [hrelease] at this
  exact { H with
    release := by simp [hhooked]
    unfinished := by simp [hdone]
    permits := by simpa [share, hrelease, hadmission, hadmits] using H.permits }

theorem Sound.yields (H : a.Sound) (hphase : a.phase = .preparing) (hjob : a.job = .succeeded) :
    { a with phase := .body, yielded := true }.Sound := by
  have hadmission := H.acquired (.inr (by rw [hphase]; rfl))
  have hrelease : a.release ≠ .absent := by simp [H.release, hphase, BuildPhase.hooked]
  have hdiscard : a.discard = .absent := by simp [H.discard, hphase]
  have hyielded := H.unyielded (by simp [hphase]) (by simp [hphase])
  exact { H with
    absent := by simp [hadmission]
    acquired := fun _ => hadmission
    cancelling := by simp
    job := by simp [hjob, BuildPhase.submits]
    queued := by simp
    release := by simp [hrelease, BuildPhase.hooked]
    discard := by simp [hdiscard]
    yielded := fun _ => ⟨.inl rfl, hjob⟩
    body := fun _ => rfl
    permits := by simpa [share, hphase, BuildPhase.admits] using H.permits
    exits := by simpa [hyielded] using H.exits }

theorem Sound.runDiscard (H : a.Sound) (hjob : a.job.isDone = true)
    (hdiscard : a.discard = .registered) : a.discardImageBuildRequest.Sound := by
  have hclosed : a.closedByDiscard = 0 := by simpa [hdiscard] using H.discards
  have hregistered := H.discard
  exact { H with
    unfinished := by simp [BuildCall.discardImageBuildRequest, hjob]
    discard := by simpa [BuildCall.discardImageBuildRequest, hdiscard] using hregistered
    discards := by simp [BuildCall.discardImageBuildRequest, hclosed] }

theorem Sound.leaveBody (H : a.Sound) (hphase : a.phase = .body) :
    { a with phase := .ended, closedByExit := a.closedByExit + 1 }.Sound := by
  have hadmission := H.acquired (.inr (by rw [hphase]; rfl))
  have hyielded := H.body hphase
  have hjob := (H.yielded hyielded).2
  have hrelease : a.release ≠ .absent := by simp [H.release, hphase, BuildPhase.hooked]
  have hdiscard : a.discard = .absent := by simp [H.discard, hphase]
  have hexits : a.closedByExit = 0 := by simpa [hphase] using H.exits
  exact { H with
    absent := by simp [hadmission]
    acquired := fun _ => hadmission
    cancelling := by simp
    job := by simp [hjob, BuildPhase.submits]
    queued := by simp [hjob]
    release := by simp [hrelease, BuildPhase.hooked]
    discard := by simp [hdiscard, hyielded]
    yielded := fun _ => ⟨.inr rfl, hjob⟩
    body := by simp
    permits := by simpa [share, hphase, BuildPhase.admits] using H.permits
    exits := by simp [hyielded, hexits] }

theorem Act.sound [DecidableEq ι] {k : ι} {s' : BuildLoop ι} {a' : BuildCall}
    (h : Act k s a s' a') (H : a.Sound) : a'.Sound := by
  have hpermits := H.permits
  cases h with
  | call hopen hphase =>
      have hadmission := H.absent.mpr hphase
      have hearly : a.phase.submits = false := by rw [hphase]; rfl
      refine H.early hearly rfl (by simp) (by simp) (by simp) ?_ H.once
        fun _ => H.untaken (.inl hadmission)
      simpa [share_bare H hearly, hadmission] using hpermits
  | grant value hopen hadmission hcancel hlimiter =>
      have hpending : a.admission.isDone = false := by rw [hadmission]; rfl
      have htaken := H.untaken (.inr hadmission)
      refine H.decided hpending (by simp) ?_ (by omega) (by simp)
      simp
      omega
  | acquire hopen hadmission hcancel =>
      have hpending : a.admission.isDone = false := by rw [hadmission]; rfl
      have hphase : a.phase = .admitting := by
        refine (H.undecided hpending).resolve_right fun hrefused => ?_
        have hcancelling := H.cancelling hrefused hpending
        simp [hcancel] at hcancelling
      refine H.decided hpending (by simp) ?_ H.once (by simp)
      simpa [share, hadmission, hphase, BuildPhase.admits] using hpermits
  | admissionCancelled hopen hadmission hcancel =>
      have hpending : a.admission.isDone = false := by rw [hadmission]; rfl
      have htaken := H.untaken (.inr hadmission)
      exact H.decided hpending (by simp) (by simp; omega) H.once (by simp)
  | grantCancelled hopen hadmission hcancel =>
      have hpending : a.admission.isDone = false := by rw [hadmission]; rfl
      refine H.decided hpending (by simp) ?_ H.once (by simp)
      simpa [share, hadmission] using hpermits
  | cancelAdmission => exact H.cancelAdmission
  | proceed hopen hphase hadmission =>
      have hearly : a.phase.submits = false := by rw [hphase]; rfl
      refine H.early hearly rfl (by simp [hadmission]) (fun _ => hadmission) (by simp) ?_ H.once
        H.untaken
      simpa [share_bare H hearly, hphase, BuildPhase.admits] using hpermits
  | leaveAdmission hphase => exact H.leaveAdmission hphase
  | refuse hphase =>
      have hearly : a.phase.submits = false := by rw [hphase]; rfl
      have hadmission := H.acquired (.inl hphase)
      refine H.early hearly rfl (by simp [hadmission]) (by simp)
        (by simp [hadmission, Admission.isDone]) ?_ H.once H.untaken
      simpa [share_bare H hearly, hadmission, hphase, BuildPhase.admits] using hpermits
  | submit hphase => exact H.submit hphase
  | addFinished hphase => exact H.addFinished hphase
  | workerStarts hjob => exact H.setJob (.inl hjob) (by simp) (by simp)
  | workerSucceeds hjob => exact H.setJob (.inr hjob) (by simp) (by simp)
  | workerFails hjob => exact H.setJob (.inr hjob) (by simp) (by simp)
  | cancelQueued hjob => exact H.setJob (.inl hjob) (by simp) (by simp)
  | finished hjob hrelease => exact H.finished hjob hrelease
  | runRelease hopen hrelease => exact H.runRelease hrelease
  | setWrapped hopen hphase hjob => exact { H with }
  | yields hopen hphase hwrapped hjob => exact H.yields hphase hjob
  | leavePreparation hphase => exact H.leavePreparation hphase
  | cancelJob hphase => exact H.cancelJob hphase
  | runDiscard hjob hdiscard => exact H.runDiscard hjob hdiscard
  | leaveBody hphase => exact H.leaveBody hphase
  | forget hrefers => exact H
  | collect hopen hholders => exact H
  | closeLoop => exact H

end Step

end BuildCall
end UcloudSandboxes.Client
