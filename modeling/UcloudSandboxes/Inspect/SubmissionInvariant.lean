import UcloudSandboxes.Inspect.Submission

/-!
# What holds while a build is submitted

An accepted submission is not among the builds that were known before it, and the call stands where
it will look for that build. Whatever the gateway does meanwhile keeps this.

## Main results

* `Inv.safe`: the invariant gives the promises.
* `Inv.move`: what a step of the call has to show.
-/
namespace UcloudSandboxes.Inspect
open Python Client Http

namespace Submission
variable (py : Interpreter) (call : SubmitCall)

/-- `known` are builds from before the attempt, and all of those that could match. -/
def Covers (s : Submission) (known : Option (List String)) : Prop :=
  ∃ ids, known = some ids ∧ ids ⊆ s.listed ∧ ∀ b ∈ s.builds, b.id ∈ s.listed →
    b.imageId = call.imageId → tagKnown call.tag b.tag = true → b.id ∈ ids

/-- What holds at a stage. -/
def StageOk (s : Submission) : Stage → Prop
  | .top => s.accepted = [] ∨ call.deadline ≤ s.now
  | .listing _ | .snapshotting _ | .waiting _ => s.accepted = []
  | .ready known _ => s.accepted = [] ∧ s.Covers call known
  | .submitting known _ fate => s.accepted = fate.toList ∧ s.Covers call known
  | .polling known _ | .getting known _ _ => s.Covers call known
  | .pausing known _ _ => s.accepted = [] ∧ s.Covers call known
  | .returned build =>
      (∀ id ∈ s.accepted, s.NotOlder id build) ∧
        (imageBuildTerminal py build = true → ∀ id ∈ s.listed, build.get "build_id" ≠ .str id)
  | .raised _ => True

/-- The invariant of a run. -/
structure Inv (s : Submission) : Prop where
  nodup : s.ids.Nodup
  listed : s.listed <+: s.ids
  once : s.accepted.length ≤ 1
  own : ∀ id ∈ s.accepted, id ∉ s.listed ∧ ∃ b ∈ s.builds, b.id = id ∧ b.imageId = call.imageId
  stage : s.StageOk py call s.stage

variable {py call}

theorem Inv.safe {s : Submission} (h : s.Inv py call) : s.Safe py s.listed where
  once := h.once
  notAgain known timeout hstage := by
    have hok := h.stage
    rcases hstage with hstage | hstage
    · rw [hstage] at hok
      exact hok.1
    · rw [hstage] at hok
      exact hok.1
  newer build hstage := by
    have hok := h.stage
    rw [hstage] at hok
    exact hok.1
  fresh build hstage := by
    have hok := h.stage
    rw [hstage] at hok
    exact hok.2

/-- A build that exists is not made again. -/
theorem NotOlder.append {s : Submission} {id : String} {build : Dict} (h : s.NotOlder id build)
    {s' : Submission} {extra : List String} (hids : s'.ids = s.ids ++ extra) :
    s'.NotOlder id build := by
  obtain ⟨front, back, b, hsplit, hbuild, hb⟩ := h
  refine ⟨front, back ++ extra, b, by simp [hids, hsplit], hbuild, ?_⟩
  rw [← List.cons_append]
  exact List.mem_append_left _ hb

/-- What was listed stays the same when a build is made. -/
theorem Inv.not_mem_listed {s : Submission} (h : s.Inv py call) {id : String} (hid : id ∉ s.ids) :
    id ∉ s.listed := fun hlisted => hid (h.listed.subset hlisted)

theorem Covers.append {s : Submission} {known : Option (List String)} (h : s.Covers call known)
    {s' : Submission} {b : Build} (hbuilds : s'.builds = s.builds ++ [b])
    (hlisted : s'.listed = s.listed) (hnew : b.id ∉ s.listed) : s'.Covers call known := by
  obtain ⟨ids, hknown, hsub, hall⟩ := h
  refine ⟨ids, hknown, by rwa [hlisted], fun other hother => ?_⟩
  rw [hbuilds, List.mem_append, List.mem_singleton] at hother
  rw [hlisted]
  rcases hother with hother | rfl
  · exact hall other hother
  · intro hmem
    exact absurd hmem hnew

/-- What holds at a stage goes on to hold while the gateway and the clock go on. -/
theorem StageOk.mono {s s' : Submission} (haccepted : s'.accepted = s.accepted)
    (hlisted : s'.listed = s.listed) (hnow : s.now ≤ s'.now)
    (hcovers : ∀ known, s.Covers call known → s'.Covers call known)
    (hnewer : ∀ id build, s.NotOlder id build → s'.NotOlder id build) {stage : Stage}
    (h : s.StageOk py call stage) : s'.StageOk py call stage := by
  cases stage with
  | top => exact h.imp (fun h => haccepted.trans h) (fun h => h.trans hnow)
  | listing remaining => exact haccepted.trans h
  | snapshotting remaining => exact haccepted.trans h
  | ready known timeout => exact ⟨haccepted.trans h.1, hcovers known h.2⟩
  | submitting known timeout fate => exact ⟨haccepted.trans h.1, hcovers known h.2⟩
  | waiting seconds => exact haccepted.trans h
  | polling known pollDeadline => exact hcovers known h
  | getting known pollDeadline timeout => exact hcovers known h
  | pausing known pollDeadline seconds => exact ⟨haccepted.trans h.1, hcovers known h.2⟩
  | returned build =>
      refine ⟨fun id hid => hnewer id build (h.1 id (haccepted ▸ hid)), fun hterminal => ?_⟩
      rw [hlisted]
      exact h.2 hterminal
  | raised exc => trivial

/-- The clock goes on. -/
theorem Inv.passes {s : Submission} (h : s.Inv py call) {now : ℚ} (hnow : s.now ≤ now) :
    ({ s with now } : Submission).Inv py call := by
  refine ⟨h.nodup, h.listed, h.once, h.own, StageOk.mono (s := s) ?_ ?_ ?_ ?_ ?_ h.stage⟩
  · rfl
  · rfl
  · exact hnow
  · exact fun _ hcovers => hcovers
  · exact fun _ _ hnewer => hnewer

/-- The parts of the invariant that a new build concerns. -/
theorem nodup_append_new {s : Submission} (h : s.Inv py call) {id : String} (hid : id ∉ s.ids) :
    (s.ids ++ [id]).Nodup := by
  refine List.nodup_append.mpr ⟨h.nodup, by simp, fun other hother new hnew => ?_⟩
  rw [List.mem_singleton.mp hnew]
  intro heq
  exact hid (heq ▸ hother)

/-- A build that another client makes changes nothing for the call. -/
theorem Inv.begins {s : Submission} (h : s.Inv py call) {b : Build} (hb : b.id ∉ s.ids) :
    ({ s with builds := s.builds ++ [b] } : Submission).Inv py call := by
  have hids : ({ s with builds := s.builds ++ [b] } : Submission).ids = s.ids ++ [b.id] := by
    simp [ids]
  refine ⟨?_, ?_, h.once, ?_, ?_⟩
  · rw [hids]
    exact nodup_append_new h hb
  · rw [hids]
    exact h.listed.trans (List.prefix_append _ _)
  · intro id hid
    obtain ⟨hlisted, own, hown, hfacts⟩ := h.own id hid
    exact ⟨hlisted, own, List.mem_append_left _ hown, hfacts⟩
  · refine StageOk.mono (s := s) ?_ ?_ ?_ ?_ ?_ h.stage
    · rfl
    · rfl
    · exact le_rfl
    · exact fun _ hcovers => hcovers.append rfl rfl (h.not_mem_listed hb)
    · exact fun _ _ hnewer => hnewer.append hids

/-- A build that goes on stays the build it is. -/
theorem Inv.becomes {s : Submission} (h : s.Inv py call) (id : String) (fields : Dict) :
    ({ s with builds := s.builds.map fun b => if b.id = id then { b with fields } else b } :
      Submission).Inv py call := by
  let update : Build → Build := fun b => if b.id = id then { b with fields } else b
  have hsame :
      ∀ b, (update b).id = b.id ∧ (update b).imageId = b.imageId ∧ (update b).tag = b.tag := by
    intro b
    by_cases hb : b.id = id
    · simp [update, hb]
    · simp [update, hb]
  have hids : ({ s with builds := s.builds.map update } : Submission).ids = s.ids := by
    simp only [ids, List.map_map]
    exact List.map_congr_left fun b _ => (hsame b).1
  change ({ s with builds := s.builds.map update } : Submission).Inv py call
  refine ⟨hids ▸ h.nodup, hids ▸ h.listed, h.once, ?_, ?_⟩
  · intro own hown
    obtain ⟨hlisted, b, hb, hid, himage⟩ := h.own own hown
    exact ⟨hlisted, update b, List.mem_map_of_mem hb, by rw [(hsame b).1, hid],
      by rw [(hsame b).2.1, himage]⟩
  · refine StageOk.mono (s := s) ?_ ?_ ?_ ?_ ?_ h.stage
    · rfl
    · rfl
    · exact le_rfl
    · intro known hcovers
      obtain ⟨known, hknown, hsub, hall⟩ := hcovers
      refine ⟨known, hknown, hsub, fun b hb => ?_⟩
      obtain ⟨old, hold, rfl⟩ := List.mem_map.mp hb
      rw [(hsame old).1, (hsame old).2.1, (hsame old).2.2]
      exact hall old hold
    · intro own build hnewer
      exact hnewer.append (by rw [hids, List.append_nil])

/-- The call goes on to another stage. -/
theorem Inv.move {s s' : Submission} (h : s.Inv py call) (hbuilds : s'.builds = s.builds)
    (hlisted : s'.listed = s.listed) (haccepted : s'.accepted = s.accepted)
    (hstage : s'.StageOk py call s'.stage) : s'.Inv py call := by
  have hids : s'.ids = s.ids := by simp only [ids, hbuilds]
  refine ⟨hids ▸ h.nodup, ?_, haccepted ▸ h.once, ?_, hstage⟩
  · rw [hids, hlisted]
    exact h.listed
  · rw [haccepted, hlisted, hbuilds]
    exact h.own

/-- Nothing accepted is lost when nothing is. -/
theorem accepted_nil_of_fate {s : Submission} {known : Option (List String)} {timeout : ℚ}
    {fate : Option String} (hstage : s.stage = .submitting known timeout fate)
    (h : s.accepted = fate.toList) (hfate : s.fate = none) : s.accepted = [] := by
  simp only [Submission.fate, hstage] at hfate
  simpa [hfate] using h

theorem begin_inv {s : Submission} (h : s.Inv py call) (hstage : s.stage = .top) :
    (s.begin call).Inv py call := by
  have hok := h.stage
  rw [hstage] at hok
  by_cases hlate : call.deadline - s.now ≤ 0
  · simp only [begin, hlate, if_true]
    exact h.move rfl rfl rfl trivial
  · simp only [begin, hlate, if_false]
    refine h.move rfl rfl rfl (hok.resolve_right fun hdeadline => ?_)
    exact hlate (by linarith)

theorem poll_inv {s : Submission} (h : s.Inv py call) {known : Option (List String)}
    {pollDeadline : ℚ} (hstage : s.stage = .polling known pollDeadline) :
    (s.poll call known pollDeadline).Inv py call := by
  have hok := h.stage
  rw [hstage] at hok
  by_cases hlate : call.deadline - s.now ≤ 0
  · simp only [poll, hlate, if_true]
    exact h.move rfl rfl rfl (Or.inr (by linarith))
  · simp only [poll, hlate, if_false]
    exact h.move rfl rfl rfl hok

theorem pollAgain_inv {s : Submission} (h : s.Inv py call) {known : Option (List String)}
    (pollDeadline : ℚ) (haccepted : s.accepted = []) (hcovers : s.Covers call known) :
    (s.pollAgain known pollDeadline).Inv py call := by
  by_cases hlate : pollDeadline - s.now ≤ 0
  · simp only [pollAgain, hlate, if_true]
    exact h.move rfl rfl rfl (Or.inl haccepted)
  · simp only [pollAgain, hlate, if_false]
    exact h.move rfl rfl rfl ⟨haccepted, hcovers⟩

theorem submitRaised_inv {s : Submission} (h : s.Inv py call) {known : Option (List String)}
    {timeout : ℚ} {fate : Option String} (hstage : s.stage = .submitting known timeout fate)
    {exc : CallError} (hclear : s.Clear py call (.submitRaised exc)) :
    (s.afterSubmitRaised py call known exc).Inv py call := by
  have hok := h.stage
  rw [hstage] at hok
  cases exc with
  | api e =>
      by_cases hretry : isRetryableGatewayError py e = true
      · by_cases hambiguous : buildSubmitErrorMayBeAmbiguous py e = true
        · simp only [afterSubmitRaised, hretry, hambiguous, Bool.not_true, Bool.false_eq_true,
            if_false, if_true]
          exact h.move rfl rfl rfl hok.2
        · have hnone : s.accepted = [] :=
            accepted_nil_of_fate hstage hok.1 (hclear hretry (by simpa using hambiguous))
          simp only [afterSubmitRaised, hretry, hambiguous, Bool.not_true, Bool.false_eq_true,
            if_false, sleepWithDeadline]
          split_ifs
          · exact h.move rfl rfl rfl (Or.inl hnone)
          · exact h.move rfl rfl rfl hnone
      · simp only [afterSubmitRaised, hretry, Bool.not_false, if_true]
        exact h.move rfl rfl rfl trivial
  | transport text => exact h.move rfl rfl rfl hok.2
  | other text => exact h.move rfl rfl rfl trivial
  | base name => exact h.move rfl rfl rfl trivial

/-- The newest build of an image stands behind every other of it. -/
theorem newest_after {s : Submission} {imageId : String} {newest own : Build}
    (hnewest : s.newest imageId = some newest) (hown : own ∈ s.builds)
    (himage : own.imageId = imageId) :
    ∃ front back, s.builds = front ++ own :: back ∧ newest ∈ own :: back := by
  obtain ⟨front, back, hsplit⟩ := List.append_of_mem hown
  refine ⟨front, back, hsplit, ?_⟩
  simp only [Submission.newest, hsplit, List.filter_append, List.filter_cons, himage,
    beq_self_eq_true, if_true] at hnewest
  rw [List.getLast?_append_of_ne_nil _ (by simp)] at hnewest
  have hmem := List.mem_of_getLast? hnewest
  rcases List.mem_cons.mp hmem with rfl | hmem
  · exact List.mem_cons_self
  · exact List.mem_cons_of_mem _ (List.mem_of_mem_filter hmem)

theorem newest_mem {s : Submission} {imageId : String} {b : Build}
    (h : s.newest imageId = some b) : b ∈ s.builds ∧ b.imageId = imageId := by
  have hmem := List.mem_filter.mp (List.mem_of_getLast? h)
  exact ⟨hmem.1, by simpa using hmem.2⟩

/-- What stands at or behind a build that was not listed was not listed either. -/
theorem Inv.not_listed {s : Submission} (h : s.Inv py call) {id other : String}
    {front back : List String} (hsplit : s.ids = front ++ id :: back) (hid : id ∉ s.listed)
    (hother : other ∈ id :: back) : other ∉ s.listed := by
  intro hlisted
  have hfront : s.listed <+: front := by
    have hlong : front ++ [id] <+: s.ids := ⟨back, by simp [hsplit]⟩
    rcases List.prefix_or_prefix_of_prefix h.listed hlong with hbegins | hbegins
    · rcases List.prefix_concat_iff.mp hbegins with heq | hbegins
      · exact absurd (by simp [heq]) hid
      · exact hbegins
    · exact absurd (hbegins.subset (by simp)) hid
  have hnodup := h.nodup
  rw [hsplit] at hnodup
  exact (List.nodup_append.mp hnodup).2.2 other (hfront.subset hlisted) other hother rfl

end Submission
end UcloudSandboxes.Inspect
