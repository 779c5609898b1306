import UcloudSandboxes.Client.GroupTracking

/-!
# What an unavailable gateway has created

`SandboxGroupUnavailableError` says that the gateway does not create groups, and so that nothing was
created. The status of the last answer alone decides that, whatever the earlier ones listed.

## Main results

* `run_gone`: which answers a run has, and what it raises.
* `group_unavailable_iff`: the runs in which an unavailable gateway has placed nothing.
-/
namespace UcloudSandboxes.Client
open Python Http

namespace GroupCreate
variable {py : Interpreter} {create : GroupCreate} {ω : Type}

/-- The call raised `SandboxGroupUnavailableError`. -/
def Unavailable (outcome : GroupOutcome) : Prop := ∃ e, outcome = .raised (.unavailable e)

instance : DecidablePred Unavailable
  | .raised (.unavailable e) => .isTrue ⟨e, rfl⟩
  | .raised (.group _ _) | .raised (.other _) | .returned _ | .running =>
      .isFalse fun ⟨_, h⟩ => by cases h

variable (py create) in
/-- A round goes on only after an answer of a gateway that creates groups, and raises
`SandboxGroupUnavailableError` exactly after one of a gateway that does not. -/
theorem afterRequest_gone (s : GroupState) (r : Round ω) (ended : RequestEnd) :
    (∃ s', (afterRequest py create s r ended).2 = .next s' ∧ gone ended = false) ∨
      ∃ outcome, (afterRequest py create s r ended).2 = .stop outcome ∧
        (Unavailable outcome ↔ gone ended = true) := by
  cases ended with
  | returned v =>
      refine .inr ?_
      simp only [afterRequest, handles]
      split
      · exact ⟨_, rfl, by simp [Unavailable, gone]⟩
      · split
        · exact ⟨_, rfl, by simp [Unavailable, gone]⟩
        · rename_i hhandles
          split_ifs at hhandles
          cases hhandles
          exact ⟨_, rfl, by simp [Unavailable, gone]⟩
  | raised exc =>
      cases exc with
      | api e =>
          simp only [afterRequest, gone]
          cases hunavailable : unavailableStatus e with
          | true =>
              have hdelay : retryDelay py create s e r =
                  ([], s, .error (.unavailable { e with kind := .plain })) := by
                simp [retryDelay, hunavailable]
              rw [hdelay]
              exact .inr ⟨_, rfl, by simp [Unavailable]⟩
          | false =>
              cases hdelay : retryDelay py create s e r with
              | mk log delayed =>
                  obtain ⟨s', result⟩ := delayed
                  cases result with
                  | ok delay => exact .inl ⟨s', rfl, rfl⟩
                  | error exc =>
                      refine .inr ⟨_, rfl, ?_⟩
                      simp only [retryDelay, hunavailable, Bool.false_eq_true, if_false] at hdelay
                      have hexc : ∀ e', exc ≠ .unavailable e' := by
                        intro e' he
                        subst he
                        simp only [GroupCreate.error] at hdelay
                        grind
                      simpa [Unavailable] using hexc
      | _ => exact .inr ⟨_, rfl, by simp [Unavailable, gone]⟩
  | _ => exact .inr ⟨_, rfl, by simp [Unavailable, gone]⟩

/-- In a run, only the last answer can be that of a gateway that does not create groups, and it
decides. -/
theorem run_gone (send : Call → List (Attempt ω) → RequestEnd × List Transmission) (s : GroupState)
    (rounds : List (Round ω)) :
    (∀ o ∈ (run py create send s rounds).2.dropLast, gone o = false) ∧
      (Unavailable (run py create send s rounds).1 ↔
        ∃ o, (run py create send s rounds).2.getLast? = some o ∧ gone o = true) := by
  induction rounds generalizing s with
  | nil => simp [run, loop, requestEnds, Unavailable]
  | cons r rest ih =>
      cases hremaining : requiredRemainingSeconds (some create.deadline) r.now with
      | error exc =>
          rw [run_expired hremaining]
          simp [Unavailable]
      | ok remaining =>
          rcases afterRequest_gone py create s r (send (create.call r) r.attempts).1 with
            ⟨s', hnext, hgone⟩ | ⟨outcome, hstop, hiff⟩
          · obtain ⟨ihdrop, ihlast⟩ := ih s'
            rw [run_next hremaining hnext]
            generalize run py create send s' rest = later at ihdrop ihlast ⊢
            obtain ⟨outcome, ends⟩ := later
            cases ends with
            | nil => simpa [hgone] using ihlast
            | cons o ends =>
                refine ⟨?_, by simpa using ihlast⟩
                intro x hx
                rw [List.dropLast_cons_cons] at hx
                rcases List.mem_cons.mp hx with rfl | hx
                · exact hgone
                · exact ihdrop x hx
          · rw [run_stop hremaining hstop]
            simp [hiff]

/-- The last answer of a run decides what an unavailable gateway says about the earlier ones. -/
theorem unavailable_iff (result : GroupOutcome × List RequestEnd)
    (h : (∀ o ∈ result.2.dropLast, gone o = false) ∧
      (Unavailable result.1 ↔ ∃ o, result.2.getLast? = some o ∧ gone o = true)) :
    (Unavailable result.1 → ∀ o ∈ result.2.dropLast, placedIn py o = false) ↔
      ∀ before o after, result.2 = before ++ o :: after → gone o = true →
        ∀ o' ∈ before, placedIn py o' = false := by
  obtain ⟨hdrop, hlast⟩ := h
  constructor
  · intro hclean before o after hends hgone
    cases after with
    | nil =>
        have hbefore : result.2.dropLast = before := by simp [hends]
        rw [← hbefore]
        exact hclean (hlast.mpr ⟨o, by simp [hends], hgone⟩)
    | cons o₁ after =>
        have hmem : o ∈ result.2.dropLast := by
          rw [hends, List.dropLast_append_of_ne_nil (by simp), List.dropLast_cons_cons]
          simp
        simp [hdrop o hmem] at hgone
  · intro hclean hunavailable
    obtain ⟨o, ho, hgone⟩ := hlast.mp hunavailable
    have hends : result.2 = result.2.dropLast ++ [o] := by
      obtain ⟨l, hl⟩ := List.getLast?_eq_some_iff.mp ho
      simp [hl]
    exact hclean _ o [] hends hgone

end GroupCreate

open GroupCreate

/-- **`SandboxGroupUnavailableError` means that nothing was created**, for both clients, exactly in
the runs in which no answer that lists a placed member is followed by one of a gateway that does not
create groups. -/
theorem group_unavailable_iff (py : Interpreter) (create : GroupCreate) :
    (∀ rounds,
      (Unavailable (createSandboxGroup py create rounds).1 →
        ∀ o ∈ (createSandboxGroup py create rounds).2.dropLast, placedIn py o = false) ↔
      ∀ before o after, (createSandboxGroup py create rounds).2 = before ++ o :: after →
        gone o = true → ∀ o' ∈ before, placedIn py o' = false) ∧
    (∀ rounds,
      (Unavailable (asyncCreateSandboxGroup py create rounds).1 →
        ∀ o ∈ (asyncCreateSandboxGroup py create rounds).2.dropLast, placedIn py o = false) ↔
      ∀ before o after, (asyncCreateSandboxGroup py create rounds).2 = before ++ o :: after →
        gone o = true → ∀ o' ∈ before, placedIn py o' = false) := by
  constructor
  · intro rounds
    exact unavailable_iff _ (run_gone (requestJsonResponse py) {} rounds)
  · intro rounds
    exact unavailable_iff _ (run_gone (asyncRequestJsonResponse py) {} rounds)

/-- A member is placed, and then the gateway answers 404: the calls say that nothing was created. -/
theorem group_unavailable_placed :
    ¬ (Unavailable (createSandboxGroup partialInterpreter hastyCreate
          (partialRounds (1 / 2) (textResponse 404 "{}"))).1 →
        ∀ o ∈ (createSandboxGroup partialInterpreter hastyCreate
          (partialRounds (1 / 2) (textResponse 404 "{}"))).2.dropLast,
          placedIn partialInterpreter o = false) ∧
    ¬ (Unavailable (asyncCreateSandboxGroup partialInterpreter hastyCreate
          (asyncPartialRounds (1 / 2) (textResponse 404 "{}"))).1 →
        ∀ o ∈ (asyncCreateSandboxGroup partialInterpreter hastyCreate
          (asyncPartialRounds (1 / 2) (textResponse 404 "{}"))).2.dropLast,
          placedIn partialInterpreter o = false) := by
  decide +kernel

end UcloudSandboxes.Client
