import Mathlib.Algebra.Order.Ring.Rat
import Mathlib.Data.List.Infix
import Mathlib.Tactic.Linarith
import UcloudSandboxes.Inspect.Gateway

/-!
# One submission of an image build

`_submit_image_build_with_recovery` submits a build until the gateway has accepted one. When it does
not know what became of a submission, it asks for the newest build of the image for a while. The
gateway goes on meanwhile: other clients submit builds of the same image, and builds finish or fail.
A state holds the gateway and the call, and an event is a change of the gateway or the end of an
await.

## Main definitions

* `Submission.step`: what one event does.
* `Submission.Reaches`: the states of the runs whose events meet a condition.
* `Submission.Safe`: what a call promises.
-/
namespace UcloudSandboxes.Inspect
open Python Client Http

/-- A build of the gateway: its identity and what changes while it runs. -/
structure Build where
  id : String
  imageId : String
  tag : Json := .null
  fields : Dict := []
  id_ne : id ≠ ""

namespace Build

/-- The record of it that the gateway sends. -/
def record (b : Build) : Dict :=
  ("build_id", .str b.id) :: ("image_id", .str b.imageId) :: ("tag", b.tag) :: b.fields

@[simp] theorem record_id (b : Build) : b.record.get "build_id" = .str b.id := rfl
@[simp] theorem record_imageId (b : Build) : b.record.get "image_id" = .str b.imageId := rfl
@[simp] theorem record_tag (b : Build) : b.record.get "tag" = b.tag := rfl

end Build

section Records
variable (py : Interpreter) (imageId : String) (tag : Option String)

/-- `_image_build_terminal`. -/
def imageBuildTerminal (build : Dict) : Bool :=
  ["succeeded", "failed"].contains
    (((build.get "status").orElse (.str "")).toStr py).toLower

/-- The key by which `_active_image_build` sorts. -/
def buildKey (build : Dict) : String × String :=
  (((build.get "created_at").orElse (.str "")).toStr py,
    ((build.get "build_id").orElse (.str "")).toStr py)

/-- `<=` of two pairs of texts. -/
def pairLe (a b : String × String) : Bool :=
  decide (a.1 < b.1) || (a.1 == b.1 && !decide (b.2 < a.2))

/-- `_active_image_build`, for the builds that were listed. -/
def activeImageBuild (builds : List Dict) : Option Dict :=
  let found := builds.filter fun build =>
    (build.get "image_id").eqStr imageId && tag.all (build.get "tag").eqStr &&
      !imageBuildTerminal py build
  (found.mergeSort fun a b => pairLe (buildKey py a) (buildKey py b)).getLast?

/-- A record without a tag counts as one of any tag. -/
def tagKnown (recorded : Json) : Bool :=
  match tag with
  | none => true
  | some tag => !recorded.truthy || recorded.eqStr tag

/-- `_known_image_build_ids`, for the builds that were listed. -/
def knownImageBuildIds (builds : List Dict) : List String :=
  builds.filterMap fun build =>
    match build.get "build_id" with
    | .str id =>
        if (build.get "image_id").eqStr imageId && tagKnown tag (build.get "tag") && id != "" then
          some id
        else none
    | _ => none

/-- `tag is None or recovered_tag in {None, "", tag}`. -/
def tagFits (recovered : Json) : Except CallError Bool :=
  match tag, recovered with
  | none, _ => .ok true
  | some _, .null => .ok true
  | some tag, .str s => .ok (s == "" || s == tag)
  | some _, .list _ => .error (.other "unhashable type: 'list'")
  | some _, .dict _ => .error (.other "unhashable type: 'dict'")
  | some _, _ => .ok false

/-- `_recovered_build_matches_attempt`. -/
def recoveredBuildMatchesAttempt (known : Option (List String)) (build : Dict) :
    Except CallError Bool :=
  if !(build.get "image_id").eqStr imageId then .ok false
  else
    match tagFits tag (build.get "tag") with
    | .error exc => .error exc
    | .ok false => .ok false
    | .ok true =>
        if !imageBuildTerminal py build then .ok true
        else
          match known, build.get "build_id" with
          | some ids, .str id => .ok (id != "" && !ids.contains id)
          | _, _ => .ok false

end Records

/-- The answers that are taken for a refusal. -/
def refusalMarkers : List String :=
  ["registry image-use state is unavailable", "routing state unavailable", "job is unavailable"]

/-- `_build_submit_error_may_be_ambiguous`. -/
def buildSubmitErrorMayBeAmbiguous (py : Interpreter) (e : ApiError) : Bool :=
  match e.body.asDict with
  | none => true
  | some body =>
      if isScaleUpPendingBody py body then false
      else !refusalMarkers.any (mentions (bodyText py e.body))

/-- `except (SandboxApiError, ClientError, TimeoutError)`. -/
def CallError.isGateway : CallError → Bool
  | .api _ | .transport _ => true
  | _ => false

/-- What a call is given. -/
structure SubmitCall where
  imageId : String
  tag : Option String := none
  deadline : ℚ
  retryInterval : ℚ
  timeoutSeconds : ℤ

/-- `retry_interval_seconds`. -/
def SubmitCall.retryIntervalSeconds (call : SubmitCall) : ℚ := max 0 call.retryInterval

/-- Where a call stands. The clock is read at `top` and at `polling`; the other stages are
awaits. -/
inductive Stage
  | top
  | listing (remaining : ℚ)
  | snapshotting (remaining : ℚ)
  /-- The builds that exist are known, and the submission is about to be sent. -/
  | ready (known : Option (List String)) (timeout : ℚ)
  /-- The submission was sent, and the gateway has made the build `fate` of it or nothing. -/
  | submitting (known : Option (List String)) (timeout : ℚ) (fate : Option String)
  | waiting (seconds : ℚ)
  | polling (known : Option (List String)) (pollDeadline : ℚ)
  | getting (known : Option (List String)) (pollDeadline timeout : ℚ)
  | pausing (known : Option (List String)) (pollDeadline seconds : ℚ)
  | returned (build : Dict)
  | raised (exc : CallError)

/-- The gateway's builds in the order they were made, the clock, and the call. `accepted` are the
builds made of its submissions, `listed` those that existed when it last asked for the known ones,
and `sentOver` those that existed when it last sent a submission. -/
structure Submission where
  builds : List Build
  now : ℚ
  stage : Stage := .top
  attempts : ℕ := 0
  lastError : Option CallError := none
  accepted : List String := []
  listed : List String := []
  sentOver : List String := []

/-- What happens. -/
inductive SubmitEvent
  | passes (now : ℚ)
  /-- Another client's build. -/
  | begins (b : Build)
  /-- A build goes on, finishes or fails. -/
  | becomes (id : String) (fields : Dict)
  | clock
  | listed
  | listRaised (exc : CallError)
  | sends
  | accepted (b : Build)
  | replied
  | submitRaised (exc : CallError)
  | got
  | getRaised (exc : CallError)
  | woke

/-- The call takes part in the event. -/
def SubmitEvent.ofCall : SubmitEvent → Bool
  | .passes _ | .begins _ | .becomes _ _ | .accepted _ => false
  | _ => true

namespace Submission

/-- The builds of the gateway. -/
def ids (s : Submission) : List String := s.builds.map Build.id

/-- The newest build of an image. -/
def newest (s : Submission) (imageId : String) : Option Build :=
  (s.builds.filter fun b => b.imageId == imageId).getLast?

variable (py : Interpreter) (call : SubmitCall)

/-- The clock is read at the top of the loop. -/
def begin (s : Submission) : Submission :=
  let remaining := call.deadline - s.now
  if remaining ≤ 0 then
    { s with
      attempts := s.attempts + 1
      stage := .raised (.transport
        ("Timed out waiting for UCloud builder node readiness after " ++
          toString call.timeoutSeconds ++ "s and " ++ toString s.attempts ++ " attempt(s): " ++
          s.lastError.elim "None" CallError.text)) }
  else { s with attempts := s.attempts + 1, stage := .listing remaining }

/-- `_recover_submitted_image_build`, up to its loop. -/
def recover (s : Submission) (known : Option (List String)) : Submission :=
  { s with stage := .polling known (min call.deadline (s.now + call.retryIntervalSeconds)) }

/-- `_sleep_with_deadline`, and the top of the loop behind it. -/
def sleepWithDeadline (s : Submission) (seconds : ℚ) : Submission :=
  let remaining := call.deadline - s.now
  if remaining ≤ 0 then { s with stage := .top }
  else { s with stage := .waiting (min (max 0 seconds) remaining) }

/-- `client.submit_image_build` raises. -/
def afterSubmitRaised (s : Submission) (known : Option (List String)) (exc : CallError) :
    Submission :=
  match exc with
  | .api e =>
      if !isRetryableGatewayError py e then { s with lastError := some exc, stage := .raised exc }
      else if buildSubmitErrorMayBeAmbiguous py e then
        { s with lastError := some exc }.recover call known
      else
        let seconds := max call.retryIntervalSeconds ((retryAfterSeconds py e.headers).getD 0)
        { s with lastError := some exc }.sleepWithDeadline call seconds
  | .transport _ => { s with lastError := some exc }.recover call known
  | _ => { s with stage := .raised exc }

/-- The clock is read at the top of the loop of `_recover_submitted_image_build`. -/
def poll (s : Submission) (known : Option (List String)) (pollDeadline : ℚ) : Submission :=
  let remaining := call.deadline - s.now
  if remaining ≤ 0 then { s with stage := .top }
  else { s with stage := .getting known pollDeadline (max (1 / 1000) (min 30 remaining)) }

/-- The end of that loop. -/
def pollAgain (s : Submission) (known : Option (List String)) (pollDeadline : ℚ) : Submission :=
  let remaining := pollDeadline - s.now
  if remaining ≤ 0 then { s with stage := .top }
  else { s with stage := .pausing known pollDeadline (min 1 remaining) }

/-- `client.get_image_build` answers with the newest build, or with 404. -/
def afterGot (s : Submission) (known : Option (List String)) (pollDeadline : ℚ) : Submission :=
  match s.newest call.imageId with
  | none => s.pollAgain known pollDeadline
  | some b =>
      match recoveredBuildMatchesAttempt py call.imageId call.tag known b.record with
      | .error exc => { s with stage := .raised exc }
      | .ok true => { s with stage := .returned b.record }
      | .ok false => s.pollAgain known pollDeadline

/-- `client.get_image_build` raises. -/
def afterGetRaised (s : Submission) (known : Option (List String)) (pollDeadline : ℚ)
    (exc : CallError) : Submission :=
  match exc with
  | .api e =>
      if e.statusCode != some 404 && !isRetryableGatewayError py e then
        { s with stage := .raised exc }
      else s.pollAgain known pollDeadline
  | .transport _ => s.pollAgain known pollDeadline
  | _ => { s with stage := .raised exc }

/-- `list_image_builds` answers, in `_active_image_build` or in `_known_image_build_ids`. -/
def afterListed (s : Submission) : Option Submission :=
  match s.stage with
  | .listing remaining =>
      match activeImageBuild py call.imageId call.tag (s.builds.map Build.record) with
      | some build => some { s with stage := .returned build }
      | none => some { s with stage := .snapshotting remaining }
  | .snapshotting remaining =>
      let known := knownImageBuildIds call.imageId call.tag (s.builds.map Build.record)
      some { s with
        listed := s.ids
        stage := .ready (some known) (max (1 / 1000) remaining) }
  | _ => none

/-- `list_image_builds` raises. -/
def afterListRaised (s : Submission) (exc : CallError) : Option Submission :=
  match s.stage with
  | .listing remaining =>
      if exc.isGateway then some { s with stage := .snapshotting remaining }
      else some { s with stage := .raised exc }
  | .snapshotting remaining =>
      if exc.isGateway then
        some { s with listed := s.ids, stage := .ready none (max (1 / 1000) remaining) }
      else some { s with stage := .raised exc }
  | _ => none

/-- The gateway accepts the submission that is in flight. A submission that it accepts only after
`submit_image_build` has raised is left out. -/
def accept (s : Submission) (b : Build) : Option Submission :=
  match s.stage with
  | .submitting known timeout none =>
      if b.id ∈ s.ids ∨ b.imageId ≠ call.imageId then none
      else some { s with
        builds := s.builds ++ [b]
        accepted := b.id :: s.accepted
        stage := .submitting known timeout (some b.id) }
  | _ => none

/-- One event, where it can happen. -/
def step (s : Submission) : SubmitEvent → Option Submission
  | .passes now => if s.now ≤ now then some { s with now } else none
  | .begins b => if b.id ∈ s.ids then none else some { s with builds := s.builds ++ [b] }
  | .becomes id fields =>
      some { s with builds := s.builds.map fun b => if b.id = id then { b with fields } else b }
  | .clock =>
      match s.stage with
      | .top => some (s.begin call)
      | .polling known pollDeadline => some (s.poll call known pollDeadline)
      | _ => none
  | .listed => s.afterListed py call
  | .listRaised exc => s.afterListRaised exc
  | .sends =>
      match s.stage with
      | .ready known timeout =>
          some { s with sentOver := s.ids, stage := .submitting known timeout none }
      | _ => none
  | .accepted b => s.accept call b
  | .replied =>
      match s.stage with
      | .submitting _ _ (some id) =>
          (s.builds.find? fun b => b.id == id).map fun b => { s with stage := .returned b.record }
      | _ => none
  | .submitRaised exc =>
      match s.stage with
      | .submitting known _ _ => some (s.afterSubmitRaised py call known exc)
      | _ => none
  | .got =>
      match s.stage with
      | .getting known pollDeadline _ => some (s.afterGot py call known pollDeadline)
      | _ => none
  | .getRaised exc =>
      match s.stage with
      | .getting known pollDeadline _ => some (s.afterGetRaised py known pollDeadline exc)
      | _ => none
  | .woke =>
      match s.stage with
      | .waiting _ => some { s with stage := .top }
      | .pausing known pollDeadline _ => some { s with stage := .polling known pollDeadline }
      | _ => none

/-- The states that some run reaches in which `Meets` holds at every event. -/
inductive Reaches (Meets : Submission → SubmitEvent → Prop) (s₀ : Submission) : Submission → Prop
  | start : Reaches Meets s₀ s₀
  | next {s s' : Submission} (e : SubmitEvent) :
      Reaches Meets s₀ s → Meets s e → s.step py call e = some s' → Reaches Meets s₀ s'

/-- The build that was made of the submission in flight. -/
def fate (s : Submission) : Option String :=
  match s.stage with
  | .submitting _ _ fate => fate
  | _ => none

/-- The list and get calls succeed, and an answer that tells of a pending scale-up accepts
nothing. -/
def Supposed (s : Submission) : SubmitEvent → Prop
  | .listRaised _ | .getRaised _ => False
  | .submitRaised (.api e) => e.body.asDict.any (isScaleUpPendingBody py) = true → s.fate = none
  | _ => True

/-- No answer that is taken for a refusal accepts anything, and the newest build has a tag that fits
when an accepted submission is looked for. -/
def Clear (s : Submission) : SubmitEvent → Prop
  | .submitRaised (.api e) =>
      isRetryableGatewayError py e = true → buildSubmitErrorMayBeAmbiguous py e = false →
        s.fate = none
  | .got =>
      s.accepted ≠ [] →
        (s.newest call.imageId).all fun b => (tagFits call.tag b.tag).toOption == some true
  | _ => True

/-- The build of the record is the one with the id, or was made after it. -/
def NotOlder (s : Submission) (id : String) (build : Dict) : Prop :=
  ∃ front back b, s.ids = front ++ id :: back ∧ build.get "build_id" = .str b ∧ b ∈ id :: back

/-- What a call promises, where `existed` are the builds from before its attempt. -/
structure Safe (s : Submission) (existed : List String) : Prop where
  once : s.accepted.length ≤ 1
  notAgain : ∀ known timeout,
    s.stage = .ready known timeout ∨ s.stage = .submitting known timeout none → s.accepted = []
  newer : ∀ build, s.stage = .returned build → ∀ id ∈ s.accepted, s.NotOlder id build
  fresh : ∀ build, s.stage = .returned build → imageBuildTerminal py build = true →
    ∀ id ∈ existed, build.get "build_id" ≠ .str id

end Submission
end UcloudSandboxes.Inspect
