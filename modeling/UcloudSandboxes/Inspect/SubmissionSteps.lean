import UcloudSandboxes.Inspect.SubmissionInvariant

/-!
# The steps of a submission

A build that matches the attempt is the accepted one or newer than it, and no terminal build from
before the attempt matches.

## Main results

* `Inv.step`: what each event preserves.
* `Inv.reaches`: what holds along every run that meets the suppositions.
-/
namespace UcloudSandboxes.Inspect
open Python Client Http

namespace Submission
variable {py : Interpreter} {call : SubmitCall}

theorem eqStr_self (text : String) : (Json.str text).eqStr text = true := by simp [Json.eqStr]

/-- A tag that fits makes the record one that would have been known. -/
theorem tagKnown_of_fits {tag : Option String} {recorded : Json}
    (h : tagFits tag recorded = .ok true) :
    tagKnown tag recorded = true := by
  cases tag with
  | none => rfl
  | some tag =>
      cases recorded with
      | null => rfl
      | str s =>
          simp only [tagFits, Except.ok.injEq, Bool.or_eq_true, beq_iff_eq] at h
          rcases h with rfl | rfl
          · rfl
          · simp [tagKnown, eqStr_self]
      | _ => cases h

/-- A terminal build that was listed does not match. -/
theorem Covers.fresh {s : Submission} {known : Option (List String)} (h : s.Covers call known)
    {b : Build} (hb : b ∈ s.builds)
    (hmatches : recoveredBuildMatchesAttempt py call.imageId call.tag known b.record = .ok true)
    (hterminal : imageBuildTerminal py b.record = true) : b.id ∉ s.listed := by
  intro hlisted
  obtain ⟨ids, rfl, -, hall⟩ := h
  by_cases himage : b.imageId = call.imageId
  · cases hfits : tagFits call.tag b.tag with
    | error exc => simp [recoveredBuildMatchesAttempt, himage, eqStr_self, hfits] at hmatches
    | ok fits =>
        cases fits with
        | false => simp [recoveredBuildMatchesAttempt, himage, eqStr_self, hfits] at hmatches
        | true =>
            have hmem := hall b hb hlisted himage (tagKnown_of_fits hfits)
            simp [recoveredBuildMatchesAttempt, himage, eqStr_self, hfits, hterminal,
              hmem] at hmatches
  · simp [recoveredBuildMatchesAttempt, Json.eqStr, himage] at hmatches

/-- A build that was not listed matches if its tag fits. -/
theorem Covers.found {s : Submission} {known : Option (List String)} (h : s.Covers call known)
    {b : Build} (himage : b.imageId = call.imageId) (hfits : tagFits call.tag b.tag = .ok true)
    (hlisted : b.id ∉ s.listed) :
    recoveredBuildMatchesAttempt py call.imageId call.tag known b.record = .ok true := by
  obtain ⟨ids, rfl, hsub, -⟩ := h
  have hunknown : b.id ∉ ids := fun hmem => hlisted (hsub hmem)
  by_cases hterminal : imageBuildTerminal py b.record = true
  · simp [recoveredBuildMatchesAttempt, himage, eqStr_self, hfits, hterminal, hunknown, b.id_ne]
  · simp [recoveredBuildMatchesAttempt, himage, eqStr_self, hfits, hterminal]

/-- The poll of a call that has an accepted submission returns a build that is not older. -/
theorem Inv.got_own {s : Submission} (h : s.Inv py call) {known : Option (List String)}
    (pollDeadline : ℚ) (hcovers : s.Covers call known) (hclear : s.Clear py call .got) {id : String}
    (hid : id ∈ s.accepted) :
    ∃ b : Build, b.id ∉ s.listed ∧ s.NotOlder id b.record ∧
      s.afterGot py call known pollDeadline = { s with stage := .returned b.record } := by
  obtain ⟨hlisted, own, hown, rfl, himage⟩ := h.own id hid
  cases hnewest : s.newest call.imageId with
  | none =>
      have hmem : own ∈ s.builds.filter fun b => b.imageId == call.imageId :=
        List.mem_filter.mpr ⟨hown, by simpa using himage⟩
      rw [Submission.newest, List.getLast?_eq_none_iff] at hnewest
      rw [hnewest] at hmem
      cases hmem
  | some b =>
      obtain ⟨front, back, hsplit, hb⟩ := newest_after hnewest hown himage
      have hnewestImage := (newest_mem hnewest).2
      have hids : s.ids = front.map Build.id ++ own.id :: back.map Build.id := by simp [ids, hsplit]
      have hbid : b.id ∈ own.id :: back.map Build.id := by
        rcases List.mem_cons.mp hb with rfl | hb
        · exact List.mem_cons_self
        · exact List.mem_cons_of_mem _ (List.mem_map_of_mem hb)
      have hfits : tagFits call.tag b.tag = .ok true := by
        have hall := hclear (List.ne_nil_of_mem hid)
        rw [hnewest] at hall
        cases htag : tagFits call.tag b.tag with
        | error exc => simp [htag, Except.toOption] at hall
        | ok fits => simpa [htag, Except.toOption] using hall
      have hunlisted := h.not_listed hids hlisted hbid
      refine ⟨b, hunlisted, ⟨_, _, b.id, hids, rfl, hbid⟩, ?_⟩
      simp only [afterGot, hnewest, hcovers.found hnewestImage hfits hunlisted]

theorem got_inv {s : Submission} (h : s.Inv py call) {known : Option (List String)}
    {pollDeadline timeout : ℚ} (hstage : s.stage = .getting known pollDeadline timeout)
    (hclear : s.Clear py call .got) : (s.afterGot py call known pollDeadline).Inv py call := by
  have hcovers := h.stage
  rw [hstage] at hcovers
  cases haccepted : s.accepted with
  | nil =>
      cases hnewest : s.newest call.imageId with
      | none =>
          simp only [afterGot, hnewest]
          exact pollAgain_inv h _ haccepted hcovers
      | some b =>
          simp only [afterGot, hnewest]
          cases hmatches : recoveredBuildMatchesAttempt py call.imageId call.tag known b.record with
          | error exc => exact h.move rfl rfl rfl trivial
          | ok found =>
              cases found with
              | false => exact pollAgain_inv h _ haccepted hcovers
              | true =>
                  refine h.move rfl rfl rfl ⟨?_, fun hterminal id hid heq => ?_⟩
                  · simp [haccepted]
                  · have hfresh := hcovers.fresh (newest_mem hnewest).1 hmatches hterminal
                    simp only [Build.record_id, Json.str.injEq] at heq
                    exact hfresh (heq ▸ hid)
  | cons id rest =>
      have hrest : rest = [] := by
        have hlength := h.once
        rw [haccepted, List.length_cons] at hlength
        exact List.eq_nil_of_length_eq_zero (by omega)
      obtain ⟨b, hunlisted, hnewer, hgot⟩ :=
        h.got_own pollDeadline hcovers hclear (haccepted ▸ List.mem_cons_self)
      rw [hgot]
      refine h.move rfl rfl rfl ⟨fun other hother => ?_, fun _ other hother heq => ?_⟩
      · have heq : other = id := by simpa [haccepted, hrest] using hother
        rw [heq]
        exact hnewer
      · simp only [Build.record_id, Json.str.injEq] at heq
        exact hunlisted (heq ▸ hother)

theorem activeImageBuild_running {builds : List Dict} {build : Dict}
    (h : activeImageBuild py call.imageId call.tag builds = some build) :
    imageBuildTerminal py build = false := by
  have hmem := List.mem_of_getLast? h
  rw [List.mem_mergeSort, List.mem_filter] at hmem
  simpa using (Bool.and_eq_true_iff.mp hmem.2).2

/-- The builds that are known when the gateway lists them. -/
theorem known_covers {s : Submission} (h : s.listed = s.ids) :
    s.Covers call
      (some (knownImageBuildIds call.imageId call.tag (s.builds.map Build.record))) := by
  refine ⟨_, rfl, fun id hid => ?_, fun b hb _ himage htag => ?_⟩
  · obtain ⟨build, hbuild, hsome⟩ := List.mem_filterMap.mp hid
    obtain ⟨b, hb, rfl⟩ := List.mem_map.mp hbuild
    simp only [Build.record_id] at hsome
    split_ifs at hsome
    rw [h, ← Option.some.inj hsome]
    exact List.mem_map_of_mem hb
  · refine List.mem_filterMap.mpr ⟨b.record, List.mem_map_of_mem hb, ?_⟩
    simp [himage, eqStr_self, htag, b.id_ne]

theorem listed_inv {s s' : Submission} (h : s.Inv py call)
    (hstep : s.afterListed py call = some s') :
    s'.Inv py call := by
  have hok := h.stage
  simp only [afterListed] at hstep
  cases hstage : s.stage with
  | listing remaining =>
      rw [hstage] at hok
      simp only [hstage] at hstep
      cases hactive : activeImageBuild py call.imageId call.tag (s.builds.map Build.record) with
      | some build =>
          simp only [hactive, Option.some.injEq] at hstep
          rw [← hstep]
          refine h.move rfl rfl rfl ⟨fun id hid => ?_, fun hterminal => ?_⟩
          · rw [show s.accepted = [] from hok] at hid
            cases hid
          · rw [activeImageBuild_running hactive] at hterminal
            cases hterminal
      | none =>
          simp only [hactive, Option.some.injEq] at hstep
          rw [← hstep]
          exact h.move rfl rfl rfl hok
  | snapshotting remaining =>
      rw [hstage] at hok
      simp only [hstage, Option.some.injEq] at hstep
      have hnone : s.accepted = [] := hok
      rw [← hstep]
      refine ⟨h.nodup, List.prefix_refl _, h.once, fun id hid => ?_, hnone, known_covers rfl⟩
      rw [hnone] at hid
      cases hid
  | _ => simp [hstage] at hstep

theorem accept_inv {s s' : Submission} (h : s.Inv py call) {b : Build}
    (hstep : s.accept call b = some s') : s'.Inv py call := by
  have hok := h.stage
  simp only [accept] at hstep
  split at hstep
  · rename_i known timeout hstage
    rw [hstage] at hok
    split_ifs at hstep with hguard
    simp only [not_or, not_not] at hguard
    obtain ⟨hnew, himage⟩ := hguard
    have hnone : s.accepted = [] := hok.1
    have hinv := h.begins hnew
    simp only [Option.some.injEq] at hstep
    rw [← hstep]
    refine ⟨hinv.nodup, hinv.listed, by simp [hnone], ?_, by simp [hnone], ?_⟩
    · intro id hid
      have hid : id = b.id := by simpa [hnone] using hid
      refine ⟨?_, b, by simp, hid.symm, himage⟩
      rw [hid]
      exact h.not_mem_listed hnew
    · exact hok.2.append rfl rfl (h.not_mem_listed hnew)
  · cases hstep

/-- The reply names the build that was made. -/
theorem replied_inv {s : Submission} (h : s.Inv py call) {known : Option (List String)}
    {timeout : ℚ} {id : String} (hstage : s.stage = .submitting known timeout (some id)) {b : Build}
    (hfind : (s.builds.find? fun b => b.id == id) = some b) :
    ({ s with stage := .returned b.record } : Submission).Inv py call := by
  have hok := h.stage
  rw [hstage] at hok
  have haccepted : s.accepted = [id] := hok.1
  have hid : b.id = id := by simpa using List.find?_some hfind
  refine h.move rfl rfl rfl ⟨fun other hother => ?_, fun _ other hother heq => ?_⟩
  · obtain ⟨front, back, hsplit⟩ := List.append_of_mem
      (List.mem_map_of_mem (f := Build.id) (List.mem_of_find?_eq_some hfind))
    have hother : other = b.id := by simpa [haccepted, hid] using hother
    exact ⟨front, back, b.id, by rw [hother]; exact hsplit, rfl, by simp [hother]⟩
  · simp only [Build.record_id, Json.str.injEq] at heq
    have hmem : b.id ∈ s.accepted := by simp [haccepted, hid]
    exact (h.own b.id hmem).1 (heq ▸ hother)

/-! What the events of the call do, and where they can happen. -/

section Inversion

variable {s s' : Submission}

theorem step_clock (h : s.step py call .clock = some s') :
    (s.stage = .top ∧ s' = s.begin call) ∨
      ∃ known pollDeadline, s.stage = .polling known pollDeadline ∧
        s' = s.poll call known pollDeadline := by
  simp only [Submission.step] at h
  split at h
  · exact .inl ⟨‹_›, (Option.some.inj h).symm⟩
  · exact .inr ⟨_, _, ‹_›, (Option.some.inj h).symm⟩
  · cases h

theorem step_sends (h : s.step py call .sends = some s') :
    ∃ known timeout, s.stage = .ready known timeout ∧
      s' = { s with sentOver := s.ids, stage := .submitting known timeout none } := by
  simp only [Submission.step] at h
  split at h
  · exact ⟨_, _, ‹_›, (Option.some.inj h).symm⟩
  · cases h

theorem step_replied (h : s.step py call .replied = some s') :
    ∃ known timeout id b, s.stage = .submitting known timeout (some id) ∧
      (s.builds.find? fun b => b.id == id) = some b ∧
        s' = { s with stage := .returned b.record } := by
  simp only [Submission.step] at h
  split at h
  · obtain ⟨b, hfind, rfl⟩ := Option.map_eq_some_iff.mp h
    exact ⟨_, _, _, b, ‹_›, hfind, rfl⟩
  · cases h

theorem step_submitRaised {exc : CallError} (h : s.step py call (.submitRaised exc) = some s') :
    ∃ known timeout fate, s.stage = .submitting known timeout fate ∧
      s' = s.afterSubmitRaised py call known exc := by
  simp only [Submission.step] at h
  split at h
  · exact ⟨_, _, _, ‹_›, (Option.some.inj h).symm⟩
  · cases h

theorem step_got (h : s.step py call .got = some s') :
    ∃ known pollDeadline timeout, s.stage = .getting known pollDeadline timeout ∧
      s' = s.afterGot py call known pollDeadline := by
  simp only [Submission.step] at h
  split at h
  · exact ⟨_, _, _, ‹_›, (Option.some.inj h).symm⟩
  · cases h

theorem step_woke (h : s.step py call .woke = some s') :
    (∃ seconds, s.stage = .waiting seconds ∧ s' = { s with stage := .top }) ∨
      ∃ known pollDeadline seconds, s.stage = .pausing known pollDeadline seconds ∧
        s' = { s with stage := .polling known pollDeadline } := by
  simp only [Submission.step] at h
  split at h
  · exact .inl ⟨_, ‹_›, (Option.some.inj h).symm⟩
  · exact .inr ⟨_, _, _, ‹_›, (Option.some.inj h).symm⟩
  · cases h

end Inversion

/-- What one event preserves. -/
theorem Inv.step {s s' : Submission} (h : s.Inv py call) {e : SubmitEvent}
    (hsupposed : s.Supposed py e) (hclear : s.Clear py call e)
    (hstep : s.step py call e = some s') :
    s'.Inv py call := by
  have hok := h.stage
  cases e with
  | passes now =>
      simp only [Submission.step] at hstep
      split_ifs at hstep with hnow
      cases hstep
      exact h.passes hnow
  | begins b =>
      simp only [Submission.step] at hstep
      split_ifs at hstep with hnew
      cases hstep
      exact h.begins hnew
  | becomes id fields =>
      cases hstep
      exact h.becomes id fields
  | clock =>
      rcases step_clock hstep with ⟨hstage, rfl⟩ | ⟨known, pollDeadline, hstage, rfl⟩
      · exact begin_inv h hstage
      · exact poll_inv h hstage
  | listed => exact listed_inv h hstep
  | listRaised exc => exact hsupposed.elim
  | sends =>
      obtain ⟨known, timeout, hstage, rfl⟩ := step_sends hstep
      rw [hstage] at hok
      exact h.move rfl rfl rfl ⟨by simpa using hok.1, hok.2⟩
  | accepted b => exact accept_inv h hstep
  | replied =>
      obtain ⟨known, timeout, id, b, hstage, hfind, rfl⟩ := step_replied hstep
      exact replied_inv h hstage hfind
  | submitRaised exc =>
      obtain ⟨known, timeout, fate, hstage, rfl⟩ := step_submitRaised hstep
      exact submitRaised_inv h hstage hclear
  | got =>
      obtain ⟨known, pollDeadline, timeout, hstage, rfl⟩ := step_got hstep
      exact got_inv h hstage hclear
  | getRaised exc => exact hsupposed.elim
  | woke =>
      rcases step_woke hstep with
        ⟨seconds, hstage, rfl⟩ | ⟨known, pollDeadline, seconds, hstage, rfl⟩
      · rw [hstage] at hok
        exact h.move rfl rfl rfl (Or.inl hok)
      · rw [hstage] at hok
        exact h.move rfl rfl rfl hok.2

/-- The call begins. -/
def start (builds : List Build) (now : ℚ) : Submission := { builds, now }

theorem start_inv {builds : List Build} (h : (builds.map Build.id).Nodup) (now : ℚ) :
    (start builds now).Inv py call :=
  ⟨h, List.nil_prefix, by simp [start], by simp [start], Or.inl rfl⟩

/-- The invariant holds along every run that meets the suppositions. -/
theorem Inv.reaches {s₀ s : Submission} (h₀ : s₀.Inv py call)
    (h : Reaches py call (fun s e => s.Supposed py e ∧ s.Clear py call e) s₀ s) :
    s.Inv py call := by
  induction h with
  | start => exact h₀
  | next e _ hmeets hstep ih => exact ih.step hmeets.1 hmeets.2 hstep

end Submission

end UcloudSandboxes.Inspect
