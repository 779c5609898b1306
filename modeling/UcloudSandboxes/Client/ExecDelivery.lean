import UcloudSandboxes.Client.Exec
import Mathlib.Logic.Relation

/-!
# What an exec handle has delivered

Operations on one handle, one after the other: `events` iterators that the caller may stop, and
`wait` calls that may end in an exception. A `Run` is the handle, the operation in progress and the
events handed to the caller so far; a step is one input, an answer of the gateway or a move of the
caller. The answers are `Kept`: an event that carries the number `i` is event `i` of the history.

A read in progress moves the cursor over events it still holds. `Run.Exact` counts them in, and says
that between two operations the delivered events are those up to the cursor.

## Main results

* `exec_delivery`: `Exact` holds as long as no step forfeits events, and a step that does ends it.
* `exec_output_lost`: an iterator stopped within a page, and a later `wait` that returns without
  the rest of it.
-/
namespace UcloudSandboxes.Client
open Python Lib

/-- The operation in progress. -/
inductive Activity
  | idle
  /-- `events`, about to read a page. -/
  | reading
  /-- `events`, suspended at a `yield`: the page, and the rest of it. -/
  | yielding (page rest : List Dict)
  /-- `wait`, with the events it has collected. -/
  | waiting (collected : List Dict)

/-- The events that the operation has read and the caller has not received. -/
def Activity.held : Activity → List Dict
  | .idle | .reading => []
  | .yielding _ rest => rest
  | .waiting collected => collected

/-- What the caller or the gateway does next. -/
inductive Input
  /-- The caller begins to iterate over `events()`. -/
  | iterate
  /-- The caller asks the iterator for the next item. -/
  | next
  /-- The caller drops the iterator. -/
  | stop
  /-- The caller calls `wait()`. -/
  | wait
  /-- The deadline of `wait` has passed: `TimeoutError`. -/
  | expire
  /-- The read of a page returns or raises. -/
  | answer (page : Except Raised Dict)
  /-- The caller calls `get()`. -/
  | get (payload : Dict)

/-- A handle in use. -/
structure Run where
  handle : ExecHandle
  activity : Activity := .idle
  delivered : List Dict := []

namespace Run

/-- The iterator goes on within a page, up to its next `yield`, its next read or its end. -/
def resume (h : ExecHandle) (delivered page : List Dict) : List Dict → Run
  | event :: rest => ⟨h, .yielding page rest, delivered ++ [event]⟩
  | [] =>
      match h.eventsDrained page with
      | .ok false => ⟨h, .reading, delivered⟩
      | .ok true | .error _ => ⟨h, .idle, delivered⟩

/-- One input; `none` when it cannot happen. -/
def step (py : Interpreter) (r : Run) : Input → Option Run
  | .get payload => some { r with handle := r.handle.acceptSession payload }
  | .iterate =>
      match r.activity with
      | .idle => some { r with activity := .reading }
      | _ => none
  | .wait =>
      match r.activity with
      | .idle => some { r with activity := .waiting [] }
      | _ => none
  | .next =>
      match r.activity with
      | .yielding page rest => some (resume r.handle r.delivered page rest)
      | _ => none
  | .stop =>
      match r.activity with
      | .yielding _ _ => some { r with activity := .idle }
      | _ => none
  | .expire =>
      match r.activity with
      | .waiting _ => some { r with activity := .idle }
      | _ => none
  | .answer answer =>
      match r.activity with
      | .reading =>
          match r.handle.readPage answer with
          | (h, .ok page) => some (resume h r.delivered page page)
          | (h, .error _) => some ⟨h, .idle, r.delivered⟩
      | .waiting collected =>
          match r.handle.waitPass py collected answer with
          | (h, .again events) => some ⟨h, .waiting events, r.delivered⟩
          | (h, .returned result) => some ⟨h, .idle, r.delivered ++ result.events⟩
          | (h, .raised _) => some ⟨h, .idle, r.delivered⟩
      | _ => none

/-- The states of a run, which ends at an input that cannot happen. -/
def states (py : Interpreter) : Run → List Input → List Run
  | r, [] => [r]
  | r, input :: rest =>
      match r.step py input with
      | some r' => r :: states py r' rest
      | none => [r]

theorem mem_states (py : Interpreter) (r : Run) (inputs : List Input) : r ∈ states py r inputs := by
  cases inputs with
  | nil => simp [states]
  | cons input rest =>
      simp only [states]
      split <;> simp

/-- The steps of a run: the states they start from, and the inputs. -/
def moves (py : Interpreter) : Run → List Input → List (Run × Input)
  | _, [] => []
  | r, input :: rest =>
      match r.step py input with
      | some r' => (r, input) :: moves py r' rest
      | none => []

end Run

/-- Every numbered event of the payload is the event of the history with that number. -/
def Kept (history : List Dict) (sessionId : String) (payload : Dict) : Prop :=
  ∀ events, execEventPayloads sessionId (payload.get "events") = .ok events →
    ∀ event ∈ events, ∀ i : ℕ, event.get "sequence" = .int (i + 1) → history[i]? = some event

/-- The answers of a server that keeps the history. -/
def Input.Kept (history : List Dict) (sessionId : String) : Input → Prop
  | .answer (.ok payload) => Client.Kept history sessionId payload
  | _ => True

/-- A handle as `exec` returns it. -/
structure ExecHandle.Fresh (history : List Dict) (h : ExecHandle) : Prop where
  lastSequence : h.lastSequence = 0
  kept : ∀ payload, h.initialPayload = some payload → Kept history h.sessionId payload

/-- The delivered events and those the operation in progress holds are the events up to the
cursor. -/
structure Run.Exact (history : List Dict) (r : Run) : Prop where
  cursor_le : r.handle.lastSequence ≤ history.length
  events : r.delivered ++ r.activity.held = history.take r.handle.lastSequence

/-- The status is not a list or a dict, for which the membership test raises `TypeError`. -/
def Hashable (status : Json) : Prop :=
  match status with
  | .list _ | .dict _ => False
  | _ => True

/-- The page does not begin with the event behind the cursor. -/
def Misplaced (cursor : ℕ) (events : List Dict) : Prop :=
  ∀ event ∈ events.head?, event.get "sequence" ≠ .int (cursor + 1)

/-- A step forfeits no events: an iterator is stopped only at the end of a page, a page that is
refused is refused at its first event, and a `wait` ends in an exception only when it holds none. -/
def Run.Saves (r : Run) : Input → Prop
  | .stop => r.activity.held = []
  | .expire => r.activity.held = []
  | .answer answer =>
      match (r.handle.takePayload answer).2 with
      | .error _ => r.activity.held = []
      | .ok payload =>
          match execEventPayloads r.handle.sessionId (payload.get "events") with
          | .error _ => r.activity.held = []
          | .ok events =>
              Misplaced r.handle.lastSequence events ∧ r.activity.held = [] ∨
              Numbered r.handle.lastSequence events ∧
                (r.activity = .reading ∨
                  Hashable ((r.handle.acceptSession payload).session.get "status"))
  | _ => True

@[simp] theorem misplaced_nil (cursor : ℕ) : Misplaced cursor [] := by
  intro event h
  cases h

/-- A page is misplaced iff nothing of it stands before the event at which it is refused. -/
theorem misplaced_iff {cursor : ℕ} {accepted rest : List Dict} {event : Dict}
    (hnumbered : Numbered cursor accepted)
    (hbad : event.get "sequence" ≠ .int (cursor + accepted.length + 1)) :
    Misplaced cursor (accepted ++ event :: rest) ↔ accepted = [] := by
  cases accepted with
  | nil => simpa [Misplaced] using hbad
  | cons first accepted =>
      obtain ⟨hfirst, -⟩ := numbered_cons.mp hnumbered
      simp [Misplaced, hfirst]

/-- A page with the right numbers is misplaced only if it is empty. -/
theorem misplaced_iff_of_numbered {cursor : ℕ} {events : List Dict}
    (hnumbered : Numbered cursor events) : Misplaced cursor events ↔ events = [] := by
  cases events with
  | nil => simp
  | cons first rest => simp [Misplaced, (numbered_cons.mp hnumbered).1]

theorem not_numbered {cursor : ℕ} {accepted rest : List Dict} {event : Dict}
    (hbad : event.get "sequence" ≠ .int (cursor + accepted.length + 1)) :
    ¬ Numbered cursor (accepted ++ event :: rest) := by
  intro h
  apply hbad
  rw [h accepted.length event (by simp)]
  congr 1
  omega

/-- What the cursor accepts of a kept payload is the next page of the history. -/
theorem Kept.nextPage {history : List Dict} {sessionId : String} {payload : Dict}
    {accepted rest : List Dict} {cursor : ℕ} (hkept : Kept history sessionId payload)
    (hevents : execEventPayloads sessionId (payload.get "events") = .ok (accepted ++ rest))
    (hnumbered : Numbered cursor accepted) : NextPage history cursor accepted := by
  refine nextPage_of_getElem? fun i event hi => ?_
  refine hkept _ hevents event ?_ (cursor + i) ?_
  · exact List.mem_append_left _ (List.mem_of_getElem? hi)
  · rw [hnumbered i event hi]
    congr 1
    push_cast
    omega

namespace ExecHandle

/-- The status check raises exactly on a value that cannot be hashed. -/
theorem isTerminal_ok_iff (h : ExecHandle) :
    (∃ b, h.isTerminal = .ok b) ↔ Hashable (h.session.get "status") := by
  simp only [isTerminal, Json.memberOf, Hashable]
  cases h.session.get "status" <;> simp

theorem eventsDrained_ok_iff (h : ExecHandle) (page : List Dict) :
    (∃ b, h.eventsDrained page = .ok b) ↔ Hashable (h.session.get "status") := by
  rw [← isTerminal_ok_iff]
  simp only [eventsDrained]
  cases h.isTerminal with
  | error exc => simp [bind, Except.bind]
  | ok terminal =>
      cases terminal with
      | false => simp [bind, Except.bind, pure, Except.pure]
      | true =>
          simp only [bind, Except.bind, if_true]
          split <;> simp [pure, Except.pure]

end ExecHandle

namespace Run
variable {history : List Dict}

/-- When an operation ends, what it still held is what was lost. -/
theorem exact_idle_iff {h : ExecHandle} {delivered lost : List Dict}
    (hle : h.lastSequence ≤ history.length)
    (hevents : delivered ++ lost = history.take h.lastSequence) :
    Exact history ⟨h, .idle, delivered⟩ ↔ lost = [] := by
  constructor
  · intro hexact
    have hsame : delivered ++ [] = delivered ++ lost := hexact.events.trans hevents.symm
    exact (List.append_cancel_left hsame).symm
  · rintro rfl
    exact ⟨hle, hevents⟩

@[simp] theorem resume_handle (h : ExecHandle) (delivered page rest : List Dict) :
    (resume h delivered page rest).handle = h := by
  simp only [resume]
  split
  · rfl
  · split <;> rfl

theorem resume_exact {h : ExecHandle} {delivered page rest : List Dict}
    (hle : h.lastSequence ≤ history.length)
    (hevents : delivered ++ rest = history.take h.lastSequence) :
    Exact history (resume h delivered page rest) := by
  simp only [resume]
  split
  · exact ⟨hle, by simpa [Activity.held] using hevents⟩
  · split <;> exact ⟨hle, hevents⟩

/-- The payload of a pass is kept if the answer and the initial payload are. -/
theorem kept_takePayload {h : ExecHandle} {answer : Except Raised Dict} {payload : Dict}
    (hinitial : ∀ p, h.initialPayload = some p → Kept history h.sessionId p)
    (hanswer : (Input.answer answer).Kept history h.sessionId)
    (hpayload : (h.takePayload answer).2 = .ok payload) : Kept history h.sessionId payload := by
  simp only [ExecHandle.takePayload] at hpayload
  split at hpayload
  · rename_i p hp
    cases hpayload
    exact hinitial _ hp
  · cases answer with
    | error exc => cases hpayload
    | ok p =>
        cases hpayload
        exact hanswer

/-- What the cursor accepts extends the prefix that is delivered or held. -/
theorem Exact.extend {r : Run} {payload : Dict} {accepted rest : List Dict}
    (hexact : r.Exact history) (hkept : Kept history r.handle.sessionId payload)
    (hpage : execEventPayloads r.handle.sessionId (payload.get "events") = .ok (accepted ++ rest))
    (hnumbered : Numbered r.handle.lastSequence accepted) :
    r.handle.lastSequence + accepted.length ≤ history.length ∧
      r.delivered ++ (r.activity.held ++ accepted) =
        history.take (r.handle.lastSequence + accepted.length) := by
  have hnext := hkept.nextPage hpage hnumbered
  refine ⟨hnext.cursor_le hexact.cursor_le, ?_⟩
  rw [← hnext.take_append, ← List.append_assoc, hexact.events]

/-- A page that is read into an exact run: it is refused at its first event, it is refused with
events lost, or it extends what is held. -/
theorem readPage_reads {r : Run} {answer : Except Raised Dict} (hexact : r.Exact history)
    (hinitial : ∀ payload, r.handle.initialPayload = some payload →
      Kept history r.handle.sessionId payload)
    (hanswer : (Input.answer answer).Kept history r.handle.sessionId) :
    ∃ accepted,
      let h := (r.handle.readPage answer).1
      h.lastSequence ≤ history.length ∧
      r.delivered ++ (r.activity.held ++ accepted) = history.take h.lastSequence ∧
      ((∃ exc, (r.handle.readPage answer).2 = .error exc ∧
          (r.Saves (.answer answer) ↔ r.activity.held ++ accepted = [])) ∨
        (r.handle.readPage answer).2 = .ok accepted ∧
          (r.Saves (.answer answer) ↔ r.activity.held ++ accepted = [] ∨ r.activity = .reading ∨
            Hashable (h.session.get "status"))) := by
  have hevents := hexact.events
  have hsession := r.handle.takePayload_session answer
  simp only [ExecHandle.readPage]
  cases hsource : r.handle.takePayload answer with
  | mk h source =>
  have hid : h.sessionId = r.handle.sessionId := by
    rw [← r.handle.takePayload_sessionId answer, hsource]
  have hcursor : h.lastSequence = r.handle.lastSequence := by
    rw [← r.handle.takePayload_lastSequence answer, hsource]
  rw [hsource] at hsession
  cases source with
  | error exc =>
      refine ⟨[], by rw [hcursor]; exact hexact.cursor_le, ?_, .inl ⟨exc, rfl, ?_⟩⟩
      · simpa [hcursor] using hevents
      · simp [Saves, hsource]
  | ok payload =>
      have hkept := kept_takePayload hinitial hanswer (by rw [hsource])
      simp only
      cases hread : h.acceptEvents payload with
      | mk h' result =>
      have haccepts := h.acceptEvents_cases payload
      rw [hread] at haccepts
      cases haccepts with
      | malformed hpage =>
          rw [hid] at hpage
          refine ⟨[], by rw [hcursor]; exact hexact.cursor_le, ?_, .inl ⟨_, rfl, ?_⟩⟩
          · simpa [hcursor] using hevents
          · simp [Saves, hsource, hpage]
      | refused hpage hnumbered hbad =>
          rename_i accepted rest event exc
          rw [hid] at hpage
          rw [hcursor] at hnumbered hbad
          obtain ⟨hle, htake⟩ := hexact.extend hkept hpage hnumbered
          rw [← hcursor] at hle htake
          refine ⟨accepted, hle, htake, .inl ⟨_, rfl, ?_⟩⟩
          simp only [Saves, hsource, hpage, misplaced_iff hnumbered hbad, not_numbered hbad,
            false_and, or_false, List.append_eq_nil_iff]
          exact and_comm
      | accepted hpage hnumbered =>
          rename_i events
          rw [hid] at hpage
          rw [hcursor] at hnumbered
          have hwhole : execEventPayloads r.handle.sessionId (payload.get "events") =
              .ok (events ++ []) := by
            rw [List.append_nil]
            exact hpage
          obtain ⟨hle, htake⟩ := hexact.extend hkept hwhole hnumbered
          rw [← hcursor] at hle htake
          refine ⟨events, by simpa using hle, by simpa using htake, .inr ⟨rfl, ?_⟩⟩
          have hstatus : ({ h with lastSequence := h.lastSequence + events.length }.acceptSession
              payload).session = (r.handle.acceptSession payload).session :=
            ExecHandle.acceptSession_session (by exact hsession) payload
          simp only [Saves, hsource, hpage, hstatus, hnumbered, misplaced_iff_of_numbered hnumbered,
            true_and, List.append_eq_nil_iff]
          rw [and_comm]

/-- A read that raises loses what it held and the events it had accepted. -/
theorem exact_of_refused {r : Run} {answer : Except Raised Dict} {h : ExecHandle} {exc : Raised}
    (hexact : r.Exact history)
    (hinitial : ∀ payload, r.handle.initialPayload = some payload →
      Kept history r.handle.sessionId payload)
    (hanswer : (Input.answer answer).Kept history r.handle.sessionId)
    (hread : r.handle.readPage answer = (h, .error exc)) :
    Exact history ⟨h, .idle, r.delivered⟩ ↔ r.Saves (.answer answer) := by
  obtain ⟨accepted, hle, hevents, hcases⟩ := readPage_reads hexact hinitial hanswer
  rw [hread] at hle hevents hcases
  obtain ⟨_, -, hsaves⟩ | ⟨hok, -⟩ := hcases
  · rw [hsaves]
    exact exact_idle_iff hle hevents
  · cases hok

/-- A page that is read goes behind what the operation holds. -/
theorem readPage_extends {r : Run} {answer : Except Raised Dict} {h : ExecHandle}
    {page : List Dict} (hexact : r.Exact history)
    (hinitial : ∀ payload, r.handle.initialPayload = some payload →
      Kept history r.handle.sessionId payload)
    (hanswer : (Input.answer answer).Kept history r.handle.sessionId)
    (hread : r.handle.readPage answer = (h, .ok page)) :
    h.lastSequence ≤ history.length ∧
      r.delivered ++ (r.activity.held ++ page) = history.take h.lastSequence ∧
      (r.Saves (.answer answer) ↔ r.activity.held ++ page = [] ∨ r.activity = .reading ∨
        Hashable (h.session.get "status")) := by
  obtain ⟨accepted, hle, hevents, hcases⟩ := readPage_reads hexact hinitial hanswer
  rw [hread] at hle hevents hcases
  obtain ⟨_, herror, -⟩ | ⟨hok, hsaves⟩ := hcases
  · cases herror
  · cases hok
    exact ⟨hle, hevents, hsaves⟩

/-- The steps, one constructor for each outcome of an input. -/
inductive Steps (py : Interpreter) : Run → Input → Run → Prop
  | get {r : Run} (payload : Dict) :
      Steps py r (.get payload) { r with handle := r.handle.acceptSession payload }
  | iterate {h : ExecHandle} {d : List Dict} : Steps py ⟨h, .idle, d⟩ .iterate ⟨h, .reading, d⟩
  | wait {h : ExecHandle} {d : List Dict} : Steps py ⟨h, .idle, d⟩ .wait ⟨h, .waiting [], d⟩
  | next {h : ExecHandle} {d page rest : List Dict} :
      Steps py ⟨h, .yielding page rest, d⟩ .next (resume h d page rest)
  | stop {h : ExecHandle} {d page rest : List Dict} :
      Steps py ⟨h, .yielding page rest, d⟩ .stop ⟨h, .idle, d⟩
  | expire {h : ExecHandle} {d collected : List Dict} :
      Steps py ⟨h, .waiting collected, d⟩ .expire ⟨h, .idle, d⟩
  | page {h h' : ExecHandle} {d page : List Dict} {answer : Except Raised Dict}
      (hread : h.readPage answer = (h', .ok page)) :
      Steps py ⟨h, .reading, d⟩ (.answer answer) (resume h' d page page)
  | refused {h h' : ExecHandle} {d : List Dict} {answer : Except Raised Dict} {exc : Raised}
      (hread : h.readPage answer = (h', .error exc)) :
      Steps py ⟨h, .reading, d⟩ (.answer answer) ⟨h', .idle, d⟩
  | collected {h h' : ExecHandle} {d collected events : List Dict} {answer : Except Raised Dict}
      (hpass : h.waitPass py collected answer = (h', .again events)) :
      Steps py ⟨h, .waiting collected, d⟩ (.answer answer) ⟨h', .waiting events, d⟩
  | returned {h h' : ExecHandle} {d collected : List Dict} {answer : Except Raised Dict}
      {result : ExecResult} (hpass : h.waitPass py collected answer = (h', .returned result)) :
      Steps py ⟨h, .waiting collected, d⟩ (.answer answer) ⟨h', .idle, d ++ result.events⟩
  | raised {h h' : ExecHandle} {d collected : List Dict} {answer : Except Raised Dict}
      {exc : Raised} (hpass : h.waitPass py collected answer = (h', .raised exc)) :
      Steps py ⟨h, .waiting collected, d⟩ (.answer answer) ⟨h', .idle, d⟩

theorem step_cases {py : Interpreter} {r r' : Run} {input : Input}
    (hstep : r.step py input = some r') : Steps py r input r' := by
  obtain ⟨h, activity, d⟩ := r
  cases input with
  | get payload =>
      cases hstep
      exact .get payload
  | answer answer =>
      cases activity with
      | reading =>
          simp only [step] at hstep
          split at hstep
          · cases hstep
            exact .page ‹_›
          · cases hstep
            exact .refused ‹_›
      | waiting collected =>
          simp only [step] at hstep
          split at hstep
          · cases hstep
            exact .collected ‹_›
          · cases hstep
            exact .returned ‹_›
          · cases hstep
            exact .raised ‹_›
      | idle => cases hstep
      | yielding page rest => cases hstep
  | iterate =>
      cases activity <;> cases hstep
      exact .iterate
  | wait =>
      cases activity <;> cases hstep
      exact .wait
  | next =>
      cases activity <;> cases hstep
      exact .next
  | stop =>
      cases activity <;> cases hstep
      exact .stop
  | expire =>
      cases activity <;> cases hstep
      exact .expire

/-- A step from an exact run leads to an exact run iff it forfeits no events. -/
theorem step_exact_iff {py : Interpreter} {r r' : Run} {input : Input} (hexact : r.Exact history)
    (hinitial : ∀ payload, r.handle.initialPayload = some payload →
      Kept history r.handle.sessionId payload)
    (hinput : input.Kept history r.handle.sessionId) (hstep : Steps py r input r') :
    r'.Exact history ↔ r.Saves input := by
  have hle := hexact.cursor_le
  have hevents := hexact.events
  cases hstep with
  | get payload => exact iff_of_true ⟨by simpa using hle, by simpa using hevents⟩ trivial
  | iterate => exact iff_of_true ⟨hle, hevents⟩ trivial
  | wait => exact iff_of_true ⟨hle, hevents⟩ trivial
  | next => exact iff_of_true (resume_exact hle hevents) trivial
  | stop => exact exact_idle_iff hle hevents
  | expire => exact exact_idle_iff hle hevents
  | page hread =>
      obtain ⟨hle', hevents', hsaves⟩ := readPage_extends hexact hinitial hinput hread
      exact iff_of_true (resume_exact hle' hevents') (hsaves.mpr (.inr (.inl rfl)))
  | refused hread => exact exact_of_refused hexact hinitial hinput hread
  | collected hpass =>
      rename_i h h' d collected events answer
      have hcases := h.waitPass_cases py collected answer
      rw [hpass] at hcases
      cases hcases with
      | again hread hdrained =>
          obtain ⟨hle', hevents', hsaves⟩ := readPage_extends hexact hinitial hinput hread
          have hstatus := (h'.eventsDrained_ok_iff _).mp ⟨_, hdrained⟩
          exact iff_of_true ⟨hle', hevents'⟩ (hsaves.mpr (.inr (.inr hstatus)))
  | returned hpass =>
      rename_i h h' d collected answer result
      have hcases := h.waitPass_cases py collected answer
      rw [hpass] at hcases
      cases hcases with
      | returned hread hdrained =>
          obtain ⟨hle', hevents', hsaves⟩ := readPage_extends hexact hinitial hinput hread
          have hstatus := (h'.eventsDrained_ok_iff _).mp ⟨_, hdrained⟩
          refine iff_of_true ⟨hle', ?_⟩ (hsaves.mpr (.inr (.inr hstatus)))
          simpa [Activity.held, execResult] using hevents'
  | raised hpass =>
      rename_i h h' d collected answer exc
      have hcases := h.waitPass_cases py collected answer
      rw [hpass] at hcases
      cases hcases with
      | refused hread => exact exact_of_refused hexact hinitial hinput hread
      | unhashable hread hdrained =>
          rename_i page
          obtain ⟨hle', hevents', hsaves⟩ := readPage_extends hexact hinitial hinput hread
          have hstatus : ¬ Hashable (h'.session.get "status") := by
            rw [← h'.eventsDrained_ok_iff page, hdrained]
            rintro ⟨b, hb⟩
            cases hb
          rw [hsaves]
          simp only [hstatus, or_false, reduceCtorEq]
          exact exact_idle_iff hle' hevents'

/-- No step renames the session or brings an initial payload back. -/
theorem step_frame {py : Interpreter} {r r' : Run} {input : Input} (hstep : Steps py r input r') :
    r'.handle.sessionId = r.handle.sessionId ∧
      (r'.handle.initialPayload = r.handle.initialPayload ∨
        r'.handle.initialPayload = none) := by
  have hread {h h' : ExecHandle} (answer : Except Raised Dict) (hh : (h.readPage answer).1 = h') :
      h'.sessionId = h.sessionId ∧
        (h'.initialPayload = h.initialPayload ∨ h'.initialPayload = none) := by
    obtain ⟨hid, hinitial⟩ := h.readPage_frame answer
    rw [hh] at hid hinitial
    exact ⟨hid, .inr hinitial⟩
  have hpass {h h' : ExecHandle} {collected : List Dict} {answer : Except Raised Dict}
      {next : ExecHandle.WaitNext} (hpass : h.waitPass py collected answer = (h', next)) :
      (h.readPage answer).1 = h' := by
    rw [← h.waitPass_fst py collected answer, hpass]
  cases hstep with
  | get payload => simp
  | iterate => exact ⟨rfl, .inl rfl⟩
  | wait => exact ⟨rfl, .inl rfl⟩
  | next => simp
  | stop => exact ⟨rfl, .inl rfl⟩
  | expire => exact ⟨rfl, .inl rfl⟩
  | page h => simpa using hread _ (congrArg Prod.fst h)
  | refused h => exact hread _ (congrArg Prod.fst h)
  | collected h => exact hread _ (hpass h)
  | returned h => exact hread _ (hpass h)
  | raised h => exact hread _ (hpass h)

/-- A run is exact throughout iff no step of it forfeits events. -/
theorem states_exact_iff {py : Interpreter} {inputs : List Input} {r : Run}
    (hexact : r.Exact history)
    (hinitial : ∀ payload, r.handle.initialPayload = some payload →
      Kept history r.handle.sessionId payload)
    (hinputs : ∀ input ∈ inputs, input.Kept history r.handle.sessionId) :
    (∀ s ∈ states py r inputs, s.Exact history) ↔ ∀ m ∈ moves py r inputs, m.1.Saves m.2 := by
  induction inputs generalizing r with
  | nil => simpa [states, moves] using hexact
  | cons input rest ih =>
      simp only [states, moves]
      split
      · rename_i r' hstep
        have hsteps := step_cases hstep
        obtain ⟨hid, hpayload⟩ := step_frame hsteps
        have hiff := step_exact_iff hexact hinitial (hinputs input List.mem_cons_self) hsteps
        have hinitial' : ∀ payload, r'.handle.initialPayload = some payload →
            Kept history r'.handle.sessionId payload := by
          intro payload hp
          rw [hid]
          rcases hpayload with hsame | hnone
          · exact hinitial payload (hsame ▸ hp)
          · rw [hnone] at hp
            cases hp
        have hinputs' : ∀ i ∈ rest, i.Kept history r'.handle.sessionId := by
          intro i hi
          rw [hid]
          exact hinputs i (List.mem_cons_of_mem _ hi)
        simp only [List.forall_mem_cons]
        constructor
        · rintro ⟨-, hrest⟩
          have hr' : r'.Exact history := hrest r' (mem_states py r' rest)
          exact ⟨hiff.mp hr', (ih hr' hinitial' hinputs').mp hrest⟩
        · rintro ⟨hsaves, hrest⟩
          have hr' := hiff.mpr hsaves
          exact ⟨hexact, (ih hr' hinitial' hinputs').mpr hrest⟩
      · simpa using hexact

end Run

/-- The run the inputs lead to. -/
def Run.after (py : Interpreter) (r : Run) (inputs : List Input) : Option Run :=
  inputs.foldlM (Run.step py) r

@[simp] theorem Run.after_nil (py : Interpreter) (r : Run) : r.after py [] = some r := rfl

@[simp] theorem Run.after_cons (py : Interpreter) (r : Run) (input : Input) (rest : List Input) :
    r.after py (input :: rest) = (r.step py input).bind fun r' => r'.after py rest :=
  List.foldlM_cons

theorem Run.after_append (py : Interpreter) (r : Run) (inputs later : List Input) :
    r.after py (inputs ++ later) = (r.after py inputs).bind fun r' => r'.after py later :=
  List.foldlM_append

/-- The call left the run idle, with these events delivered, or it goes on. -/
def Run.Ends {α : Type} (r : Run) (h : ExecHandle) (running : List Dict) (returned : α → List Dict)
    (raised : List Dict) : ExecHandle.ReadOutcome α → Prop
  | .running => r.handle = h ∧ r.delivered = running
  | .returned v => r = ⟨h, .idle, returned v⟩
  | .raised _ => r = ⟨h, .idle, raised⟩

/-- A call of `wait` is a run: `events` are those it has collected so far. -/
theorem waitLoop_runs (py : Interpreter) (deadline : Option ℚ) (h : ExecHandle)
    (d events : List Dict) (schedule : List (ℚ × Except Raised Dict)) :
    ∃ (inputs : List Input) (r : Run), Run.after py ⟨h, .waiting events, d⟩ inputs = some r ∧
      r.Ends (ExecHandle.waitLoop py deadline h events schedule).1 d
        (fun result => d ++ result.events) d
        (ExecHandle.waitLoop py deadline h events schedule).2 := by
  induction schedule generalizing h events with
  | nil => exact ⟨[], _, rfl, rfl, rfl⟩
  | cons pass rest ih =>
      obtain ⟨now, answer⟩ := pass
      simp only [ExecHandle.waitLoop]
      split
      · exact ⟨[.expire], _, rfl, rfl⟩
      · cases hpass : h.waitPass py events answer with
        | mk h' next =>
        cases next with
        | again events' =>
            obtain ⟨inputs, r, hrun, hends⟩ := ih h' events'
            refine ⟨.answer answer :: inputs, r, ?_, hends⟩
            simpa [Run.step, hpass] using hrun
        | returned result => exact ⟨[.answer answer], _, by simp [Run.step, hpass], rfl⟩
        | raised exc => exact ⟨[.answer answer], _, by simp [Run.step, hpass], rfl⟩

/-- `wait` is one operation of the run. -/
theorem wait_runs (py : Interpreter) (deadline : Option ℚ) (h : ExecHandle) (d : List Dict)
    (schedule : List (ℚ × Except Raised Dict)) :
    ∃ (inputs : List Input) (r : Run), Run.after py ⟨h, .idle, d⟩ inputs = some r ∧
      r.Ends (h.wait py deadline schedule).1 d (fun result => d ++ result.events) d
        (h.wait py deadline schedule).2 := by
  obtain ⟨inputs, r, hrun, hends⟩ := waitLoop_runs py deadline h d [] schedule
  exact ⟨.wait :: inputs, r, by simpa [Run.step] using hrun, hends⟩

/-- Taking the rest of a page leads to the check behind it. -/
theorem resume_runs (py : Interpreter) (h : ExecHandle) (d page rest : List Dict) :
    ∃ inputs, (Run.resume h d page rest).after py inputs =
      some (Run.resume h (d ++ rest) page []) := by
  induction rest generalizing d with
  | nil => exact ⟨[], by simp⟩
  | cons event rest ih =>
      obtain ⟨inputs, hrun⟩ := ih (d ++ [event])
      refine ⟨.next :: inputs, ?_⟩
      simpa [Run.resume, Run.step] using hrun

/-- `events`, with every item taken, is one operation of the run. -/
theorem events_runs (py : Interpreter) (h : ExecHandle) (d : List Dict)
    (answers : List (Except Raised Dict)) :
    ∃ (inputs : List Input) (r : Run), Run.after py ⟨h, .reading, d⟩ inputs = some r ∧
      r.Ends (h.events answers).1 (d ++ (h.events answers).2.1)
        (fun _ => d ++ (h.events answers).2.1) (d ++ (h.events answers).2.1)
        (h.events answers).2.2 := by
  induction answers generalizing h d with
  | nil => exact ⟨[], _, rfl, rfl, by simp [ExecHandle.events]⟩
  | cons answer rest ih =>
      simp only [ExecHandle.events]
      cases hread : h.readPage answer with
      | mk h' page =>
      cases page with
      | error exc =>
          exact ⟨[.answer answer], ⟨h', .idle, d⟩, by simp [Run.step, hread], by simp [Run.Ends]⟩
      | ok page =>
          obtain ⟨inputs, hrun⟩ := resume_runs py h' d page page
          have hpage : Run.after py ⟨h, .reading, d⟩ (.answer answer :: inputs) =
              some (Run.resume h' (d ++ page) page []) := by
            simpa [Run.step, hread] using hrun
          simp only
          cases hdrained : h'.eventsDrained page with
          | error exc => exact ⟨_, _, hpage, by simp [Run.Ends, Run.resume, hdrained]⟩
          | ok drained =>
              cases drained with
              | true => exact ⟨_, _, hpage, by simp [Run.Ends, Run.resume, hdrained]⟩
              | false =>
                  obtain ⟨later, r, hlater, hends⟩ := ih h' (d ++ page)
                  refine ⟨Input.answer answer :: inputs ++ later, r, ?_, ?_⟩
                  · rw [Run.after_append, hpage]
                    simpa [Run.resume, hdrained] using hlater
                  · simpa only [List.append_assoc] using hends

/-- On a fresh handle, whatever the operations on it, the events handed to the caller and those
that the operation in progress holds are the events up to the cursor at every moment of a run iff
no step of the run forfeits events. -/
theorem exec_delivery (py : Interpreter) (history : List Dict) (h : ExecHandle)
    (hfresh : h.Fresh history) (inputs : List Input)
    (hinputs : ∀ input ∈ inputs, input.Kept history h.sessionId) :
    (∀ s ∈ Run.states py { handle := h } inputs, s.Exact history) ↔
      ∀ m ∈ Run.moves py { handle := h } inputs, m.1.Saves m.2 := by
  refine Run.states_exact_iff ⟨?_, ?_⟩ hfresh.kept hinputs
  · rw [hfresh.lastSequence]
    exact Nat.zero_le _
  · rw [hfresh.lastSequence]
    rfl

theorem kept_twoEvents : Kept twoEvents "e1" (exitedPage twoEvents) := by
  intro events hevents event hevent i hsequence
  rw [execEventPayloads_exitedPage] at hevents
  obtain rfl : twoEvents = events := by simpa using hevents
  simp only [twoEvents, List.mem_cons, List.not_mem_nil, or_false] at hevent
  rcases hevent with rfl | rfl
  · have hi : (1 : ℤ) = i + 1 := by simpa using hsequence
    obtain rfl : i = 0 := by omega
    rfl
  · have hi : (2 : ℤ) = i + 1 := by simpa using hsequence
    obtain rfl : i = 1 := by omega
    rfl

/-- An iterator over the two events, stopped after the first one. -/
def stoppedInputs : List Input := [.iterate, .answer (.ok (exitedPage twoEvents)), .stop]

/-- The handle after the iterator is stopped. -/
def stoppedRun : Run where
  handle := {
    sessionId := "e1"
    session := exitedSession
    lastSequence := 2 }
  delivered := [outputEvent 1 "a"]

/-- The iterator stopped within the page leaves the cursor behind it: the second event is never
delivered, and a `wait` that follows returns as if the output were complete. -/
theorem exec_output_lost :
    e1Handle.Fresh twoEvents ∧ (∀ input ∈ stoppedInputs, input.Kept twoEvents "e1") ∧
      stoppedRun ∈ Run.states (.ascii []) { handle := e1Handle } stoppedInputs ∧
      stoppedRun.activity = .idle ∧
      stoppedRun.delivered ≠ twoEvents.take stoppedRun.handle.lastSequence ∧
      ∃ result, (stoppedRun.handle.wait (.ascii []) none [(0, .ok (exitedPage []))]).2 =
          .returned result ∧ stoppedRun.delivered ++ result.events ≠ twoEvents := by
  refine ⟨⟨rfl, fun payload h => by cases h⟩, ?_, ?_, rfl, ?_, ?_⟩
  · intro input hinput
    simp only [stoppedInputs, List.mem_cons, List.not_mem_nil, or_false] at hinput
    rcases hinput with rfl | rfl | rfl
    · trivial
    · exact kept_twoEvents
    · trivial
  · have hstates : Run.states (.ascii []) { handle := e1Handle } stoppedInputs =
        [_, _, _, stoppedRun] := rfl
    rw [hstates]
    simp
  · intro h
    simpa [stoppedRun, twoEvents] using congrArg List.length h
  · refine ⟨execResult _ "e1" stoppedRun.handle.session [], rfl, fun h => ?_⟩
    simpa [stoppedRun, twoEvents, execResult] using congrArg List.length h

/-- Read to the end of the page, the same session is delivered exactly. -/
theorem exec_delivery_drained :
    (Run.states (.ascii []) { handle := e1Handle }
        [.iterate, .answer (.ok (exitedPage twoEvents)), .next, .next]).length = 5 ∧
      ∀ s ∈ Run.states (.ascii []) { handle := e1Handle }
        [.iterate, .answer (.ok (exitedPage twoEvents)), .next, .next], s.Exact twoEvents := by
  refine ⟨rfl, ?_⟩
  refine (exec_delivery (.ascii []) twoEvents e1Handle ⟨rfl, fun payload h => by cases h⟩ _ ?_).mpr ?_
  · intro input hinput
    simp only [List.mem_cons, List.not_mem_nil, or_false] at hinput
    rcases hinput with rfl | rfl | rfl | rfl
    · trivial
    · exact kept_twoEvents
    · trivial
    · trivial
  · intro m hm
    have hmoves : Run.moves (.ascii []) { handle := e1Handle }
        [.iterate, .answer (.ok (exitedPage twoEvents)), .next, .next] =
          [(_, .iterate), (⟨e1Handle, .reading, []⟩, .answer (.ok (exitedPage twoEvents))),
            (_, .next), (_, .next)] := rfl
    rw [hmoves] at hm
    simp only [List.mem_cons, List.not_mem_nil, or_false] at hm
    rcases hm with rfl | rfl | rfl | rfl
    · trivial
    · right
      refine ⟨?_, .inl rfl⟩
      simp [numbered_cons, e1Handle]
    · trivial
    · trivial

end UcloudSandboxes.Client
