import UcloudSandboxes.Lib.Paging
import UcloudSandboxes.Python.Value

/-!
# Exec handles

`_ExecState` and the two readers built on it, `ExecHandle.events` and `ExecHandle.wait`. The async
handle runs the same code with awaits, so one model stands for both. A pass of either reader takes
one page: the answer of the start request, once, and then what `read_exec_events` returns or raises.

## Main definitions

* `ExecHandle`: the session record, the cursor and the events the start request may have carried.
* `ExecHandle.acceptEvents`: how a page moves the cursor.
* `ExecHandle.waitPass`, `ExecHandle.wait`, `ExecHandle.events`: the readers.

`ExecHandle.acceptEvents_cases` says what a page can do to the cursor.
-/
namespace UcloudSandboxes.Client
open Python Lib

/-- `_ExecState`. -/
structure ExecHandle where
  sessionId : String
  session : Dict
  lastSequence : ℕ := 0
  initialPayload : Option Dict := none

/-- `SandboxExecResult`. -/
structure ExecResult where
  sessionId : String
  status : String
  exitCode : Json
  stdout : String
  stderr : String
  events : List Dict
  session : Dict

/-- `_exec_event_payloads`. -/
def execEventPayloads (sessionId : String) (value : Json) : Except Raised (List Dict) :=
  let body : Json := .dict [("session_id", .str sessionId), ("events", value)]
  match value with
  | .list items =>
      match items.mapM Json.asDict with
      | some events => .ok events
      | none =>
          .error (.api { message := "gateway returned a malformed exec event", body })
  | _ => .error (.api { message := "gateway returned an invalid exec event payload", body })

/-- `ExecEventHistoryLostError`. -/
def historyLost (sessionId : String) (expected received : ℤ) : ApiError where
  kind := .historyLost
  message :=
    "exec event history was truncated for " ++ sessionId ++ ": expected sequence " ++
      toString expected ++ ", received " ++ toString received
  body := .dict [("session_id", .str sessionId), ("expected_sequence", .int expected),
    ("received_sequence", .int received)]

/-- `_next_exec_sequence`: the event must carry the number behind the cursor. -/
def nextExecSequence (sessionId : String) (previous : ℕ) (event : Dict) : Except Raised ℕ :=
  match event.get "sequence" with
  | .int received =>
      if received = previous + 1 then .ok (previous + 1)
      else .error (.api (historyLost sessionId (previous + 1) received))
  | _ =>
      .error (.api {
        message := "gateway returned an exec event with an invalid sequence"
        body := .dict [("session_id", .str sessionId), ("event", .dict event)] })

/-- The loop of `_accept_events`: the cursor it leaves behind, and the error that ends it. -/
def acceptLoop (sessionId : String) : ℕ → List Dict → ℕ × Option Raised
  | cursor, [] => (cursor, none)
  | cursor, event :: rest =>
      match nextExecSequence sessionId cursor event with
      | .ok next => acceptLoop sessionId next rest
      | .error exc => (cursor, some exc)

/-- The text of one stream: the data of its events, joined. -/
def streamText (py : Interpreter) (events : List Dict) (stream : String) : String :=
  String.join ((events.filter fun event => (event.get "stream").eqStr stream).map fun event =>
    ((event.get "data").orElse (.str "")).toStr py)

/-- `_exec_result`. -/
def execResult (py : Interpreter) (sessionId : String) (session : Dict) (events : List Dict) :
    ExecResult where
  sessionId := sessionId
  status := ((session.get "status").orElse (.str "")).toStr py
  exitCode :=
    match session.get "exit_code" with
    | .int n => .int n
    | .bool b => .bool b
    | _ => .null
  stdout := streamText py events "stdout"
  stderr := streamText py events "stderr"
  events := events
  session := session

namespace ExecHandle

/-- `_accept_session`. -/
def acceptSession (h : ExecHandle) (payload : Dict) : ExecHandle :=
  match payload.get "session" with
  | .dict session => { h with session }
  | _ => h

/-- `_accept_events`. -/
def acceptEvents (h : ExecHandle) (payload : Dict) : ExecHandle × Except Raised (List Dict) :=
  match execEventPayloads h.sessionId (payload.get "events") with
  | .error exc => (h, .error exc)
  | .ok events =>
      match acceptLoop h.sessionId h.lastSequence events with
      | (cursor, some exc) => ({ h with lastSequence := cursor }, .error exc)
      | (cursor, none) => ({ h with lastSequence := cursor }.acceptSession payload, .ok events)

/-- `self.session.get("status") in TERMINAL_EXEC_STATUSES`. -/
def isTerminal (h : ExecHandle) : Except Raised Bool :=
  (h.session.get "status").memberOf ["exited", "failed"]

/-- `_events_drained`. -/
def eventsDrained (h : ExecHandle) (events : List Dict) : Except Raised Bool := do
  if ← h.isTerminal then
    match h.session.get "final_sequence" with
    | .int final => return if 0 ≤ final then decide (final ≤ h.lastSequence) else events.isEmpty
    | _ => return events.isEmpty
  else return false

/-- The payload of one pass: `_take_initial_payload`, and the answer of `read_exec_events` when it
has none. -/
def takePayload (h : ExecHandle) (answer : Except Raised Dict) :
    ExecHandle × Except Raised Dict :=
  match h.initialPayload with
  | some payload => ({ h with initialPayload := none }, .ok payload)
  | none => (h, answer)

/-- The page of one pass. -/
def readPage (h : ExecHandle) (answer : Except Raised Dict) :
    ExecHandle × Except Raised (List Dict) :=
  match h.takePayload answer with
  | (h', .error exc) => (h', .error exc)
  | (h', .ok payload) => h'.acceptEvents payload

/-- What one pass of `wait` leads to. -/
inductive WaitNext
  | again (events : List Dict)
  | returned (result : ExecResult)
  | raised (exc : Raised)

/-- One pass of `wait`, after its deadline check. -/
def waitPass (py : Interpreter) (h : ExecHandle) (events : List Dict)
    (answer : Except Raised Dict) : ExecHandle × WaitNext :=
  let read := h.readPage answer
  match read.2 with
  | .error exc => (read.1, .raised exc)
  | .ok new =>
      match read.1.eventsDrained new with
      | .error exc => (read.1, .raised exc)
      | .ok true =>
          (read.1, .returned (execResult py read.1.sessionId read.1.session (events ++ new)))
      | .ok false => (read.1, .again (events ++ new))

/-- How a `wait` or an exhausted `events` stands when its schedule ends. -/
inductive ReadOutcome (α : Type)
  | running
  | returned (v : α)
  | raised (exc : Raised)

/-- `wait`, after the events it has already collected. Each entry of the schedule is the clock at
the deadline check and the answer of the read, if the pass makes one. -/
def waitLoop (py : Interpreter) (deadline : Option ℚ) (h : ExecHandle) (events : List Dict) :
    List (ℚ × Except Raised Dict) → ExecHandle × ReadOutcome ExecResult
  | [] => (h, .running)
  | (now, answer) :: rest =>
      if deadline.any fun d => decide (d ≤ now) then
        (h, .raised (.os {
          kind := .timeout, text := "exec session timed out: " ++ h.sessionId
          name := "TimeoutError" }))
      else
        match h.waitPass py events answer with
        | (h', .again events') => waitLoop py deadline h' events' rest
        | (h', .returned result) => (h', .returned result)
        | (h', .raised exc) => (h', .raised exc)

/-- `ExecHandle.wait`. -/
def wait (py : Interpreter) (deadline : Option ℚ) (h : ExecHandle)
    (schedule : List (ℚ × Except Raised Dict)) : ExecHandle × ReadOutcome ExecResult :=
  waitLoop py deadline h [] schedule

/-- `ExecHandle.events`, for a caller that asks for every item: what it yields, and how it ends. -/
def events (h : ExecHandle) :
    List (Except Raised Dict) → ExecHandle × List Dict × ReadOutcome Unit
  | [] => (h, [], .running)
  | answer :: rest =>
      match h.readPage answer with
      | (h', .error exc) => (h', [], .raised exc)
      | (h', .ok page) =>
          match h'.eventsDrained page with
          | .error exc => (h', page, .raised exc)
          | .ok true => (h', page, .returned ())
          | .ok false =>
              let later := events h' rest
              (later.1, page ++ later.2.1, later.2.2)

end ExecHandle

/-- The events carry the numbers behind the cursor, in order. -/
def Numbered (cursor : ℕ) (events : List Dict) : Prop :=
  ∀ (i : ℕ) (event : Dict), events[i]? = some event → event.get "sequence" = .int (cursor + 1 + i)

@[simp] theorem numbered_nil (cursor : ℕ) : Numbered cursor [] := by
  intro i event h
  simp at h

theorem numbered_cons {cursor : ℕ} {event : Dict} {rest : List Dict} :
    Numbered cursor (event :: rest) ↔
      event.get "sequence" = .int (cursor + 1) ∧ Numbered (cursor + 1) rest := by
  constructor
  · intro h
    refine ⟨by simpa using h 0 event rfl, fun i e he => ?_⟩
    have := h (i + 1) e (by simpa using he)
    rw [this]
    congr 1
    push_cast
    omega
  · rintro ⟨hfirst, hrest⟩ i e he
    cases i with
    | zero =>
        obtain rfl : event = e := by simpa using he
        simpa using hfirst
    | succ i =>
        rw [hrest i e (by simpa using he)]
        congr 1
        push_cast
        omega

/-- `_next_exec_sequence` returns exactly on the number behind the cursor. -/
theorem nextExecSequence_cases (sessionId : String) (cursor : ℕ) (event : Dict) :
    event.get "sequence" = .int (cursor + 1) ∧
        nextExecSequence sessionId cursor event = .ok (cursor + 1) ∨
      event.get "sequence" ≠ .int (cursor + 1) ∧
        ∃ exc, nextExecSequence sessionId cursor event = .error exc := by
  simp only [nextExecSequence]
  split
  · rename_i received hreceived
    by_cases heq : received = cursor + 1
    · left
      exact ⟨by rw [hreceived, heq], if_pos heq⟩
    · right
      refine ⟨fun h => heq ?_, _, if_neg heq⟩
      rw [hreceived] at h
      exact Json.int.inj h
  · rename_i hne
    right
    exact ⟨fun h => hne _ h, _, rfl⟩

/-- The cursor counts the leading events that carry the right numbers; the loop ends in an error
exactly at an event that does not. -/
theorem acceptLoop_cases (sessionId : String) (cursor : ℕ) (events : List Dict) :
    Numbered cursor events ∧
        acceptLoop sessionId cursor events = (cursor + events.length, none) ∨
      ∃ accepted event rest exc, events = accepted ++ event :: rest ∧ Numbered cursor accepted ∧
        event.get "sequence" ≠ .int (cursor + accepted.length + 1) ∧
        acceptLoop sessionId cursor events = (cursor + accepted.length, some exc) := by
  induction events generalizing cursor with
  | nil => exact .inl ⟨numbered_nil cursor, rfl⟩
  | cons event rest ih =>
      rcases nextExecSequence_cases sessionId cursor event with ⟨hseq, hnext⟩ | ⟨hseq, exc, hnext⟩
      · rcases ih (cursor + 1) with ⟨hrest, hloop⟩ |
            ⟨accepted, bad, tail, exc, rfl, hacc, hbad, hloop⟩
        · left
          refine ⟨numbered_cons.mpr ⟨hseq, hrest⟩, ?_⟩
          simp only [acceptLoop, hnext, hloop, List.length_cons]
          congr 1
          omega
        · right
          refine ⟨event :: accepted, bad, tail, exc, rfl, numbered_cons.mpr ⟨hseq, hacc⟩, ?_, ?_⟩
          · intro h
            apply hbad
            rw [h, List.length_cons]
            congr 1
            push_cast
            omega
          · simp only [acceptLoop, hnext, hloop, List.length_cons]
            congr 1
            omega
      · right
        refine ⟨[], event, rest, exc, rfl, numbered_nil cursor, by simpa using hseq, ?_⟩
        simp only [acceptLoop, hnext, List.length_nil, Nat.add_zero]

namespace ExecHandle

@[simp] theorem acceptSession_sessionId (h : ExecHandle) (payload : Dict) :
    (h.acceptSession payload).sessionId = h.sessionId := by
  simp only [acceptSession]
  split <;> rfl

@[simp] theorem acceptSession_lastSequence (h : ExecHandle) (payload : Dict) :
    (h.acceptSession payload).lastSequence = h.lastSequence := by
  simp only [acceptSession]
  split <;> rfl

@[simp] theorem acceptSession_initialPayload (h : ExecHandle) (payload : Dict) :
    (h.acceptSession payload).initialPayload = h.initialPayload := by
  simp only [acceptSession]
  split <;> rfl

theorem acceptSession_session {h h' : ExecHandle} (hsession : h.session = h'.session)
    (payload : Dict) : (h.acceptSession payload).session = (h'.acceptSession payload).session := by
  simp only [acceptSession]
  split
  · rfl
  · exact hsession

@[simp] theorem takePayload_sessionId (h : ExecHandle) (answer : Except Raised Dict) :
    (h.takePayload answer).1.sessionId = h.sessionId := by
  simp only [takePayload]
  split <;> rfl

@[simp] theorem takePayload_session (h : ExecHandle) (answer : Except Raised Dict) :
    (h.takePayload answer).1.session = h.session := by
  simp only [takePayload]
  split <;> rfl

@[simp] theorem takePayload_lastSequence (h : ExecHandle) (answer : Except Raised Dict) :
    (h.takePayload answer).1.lastSequence = h.lastSequence := by
  simp only [takePayload]
  split <;> rfl

@[simp] theorem takePayload_initialPayload (h : ExecHandle) (answer : Except Raised Dict) :
    (h.takePayload answer).1.initialPayload = none := by
  simp only [takePayload]
  split
  · rfl
  · assumption

/-- How `_accept_events` ends. -/
inductive Accepts (h : ExecHandle) (payload : Dict) :
    ExecHandle × Except Raised (List Dict) → Prop
  /-- The payload has no list of event objects. -/
  | malformed {exc : Raised}
      (hevents : execEventPayloads h.sessionId (payload.get "events") = .error exc) :
      Accepts h payload (h, .error exc)
  /-- An event does not carry its number; the cursor stands before it. -/
  | refused {accepted rest : List Dict} {event : Dict} {exc : Raised}
      (hevents : execEventPayloads h.sessionId (payload.get "events") =
        .ok (accepted ++ event :: rest))
      (hnumbered : Numbered h.lastSequence accepted)
      (hbad : event.get "sequence" ≠ .int (h.lastSequence + accepted.length + 1)) :
      Accepts h payload ({ h with lastSequence := h.lastSequence + accepted.length }, .error exc)
  | accepted {events : List Dict}
      (hevents : execEventPayloads h.sessionId (payload.get "events") = .ok events)
      (hnumbered : Numbered h.lastSequence events) :
      Accepts h payload
        ({ h with lastSequence := h.lastSequence + events.length }.acceptSession payload, .ok events)

theorem acceptEvents_cases (h : ExecHandle) (payload : Dict) :
    Accepts h payload (h.acceptEvents payload) := by
  simp only [acceptEvents]
  split
  · exact .malformed ‹_›
  · rename_i events hevents
    rcases acceptLoop_cases h.sessionId h.lastSequence events with
      ⟨hnumbered, hloop⟩ | ⟨accepted, event, rest, exc, rfl, hnumbered, hbad, hloop⟩
    · rw [hloop]
      exact .accepted hevents hnumbered
    · rw [hloop]
      exact .refused hevents hnumbered hbad

/-- A read keeps the session's name and leaves no initial payload. -/
theorem readPage_frame (h : ExecHandle) (answer : Except Raised Dict) :
    (h.readPage answer).1.sessionId = h.sessionId ∧
      (h.readPage answer).1.initialPayload = none := by
  have hid := h.takePayload_sessionId answer
  have hinitial := h.takePayload_initialPayload answer
  simp only [readPage]
  cases hsource : h.takePayload answer with
  | mk h' source =>
  rw [hsource] at hid hinitial
  cases source with
  | error exc => exact ⟨hid, hinitial⟩
  | ok payload =>
      have haccepts := h'.acceptEvents_cases payload
      simp only
      generalize h'.acceptEvents payload = out at haccepts ⊢
      cases haccepts with
      | malformed => exact ⟨hid, hinitial⟩
      | refused => exact ⟨hid, hinitial⟩
      | accepted => exact ⟨by simpa using hid, by simpa using hinitial⟩

/-- What a page that is read does to the handle. -/
theorem readPage_ok {h h' : ExecHandle} {answer : Except Raised Dict} {page : List Dict}
    (hread : h.readPage answer = (h', .ok page)) :
    ∃ payload, (h.takePayload answer).2 = .ok payload ∧
      execEventPayloads h.sessionId (payload.get "events") = .ok page ∧
      Numbered h.lastSequence page ∧ h'.lastSequence = h.lastSequence + page.length ∧
      h'.session = (h.acceptSession payload).session := by
  have hid := h.takePayload_sessionId answer
  have hsession := h.takePayload_session answer
  have hcursor := h.takePayload_lastSequence answer
  simp only [readPage] at hread
  cases hsource : h.takePayload answer with
  | mk h₀ source =>
  rw [hsource] at hid hsession hcursor hread
  cases source with
  | error exc => cases hread
  | ok payload =>
      have haccepts := h₀.acceptEvents_cases payload
      simp only at hread
      rw [hread] at haccepts
      cases haccepts with
      | accepted hevents hnumbered =>
          refine ⟨payload, rfl, by rw [← hid]; exact hevents, by rw [← hcursor]; exact hnumbered,
            by simpa using hcursor, acceptSession_session (by exact hsession) payload⟩

/-- How a pass of `wait` ends. -/
inductive Passes (py : Interpreter) (h : ExecHandle) (collected : List Dict)
    (answer : Except Raised Dict) : ExecHandle × WaitNext → Prop
  | refused {h' : ExecHandle} {exc : Raised} (hread : h.readPage answer = (h', .error exc)) :
      Passes py h collected answer (h', .raised exc)
  /-- The membership test of the status raises. -/
  | unhashable {h' : ExecHandle} {page : List Dict} {exc : Raised}
      (hread : h.readPage answer = (h', .ok page)) (hdrained : h'.eventsDrained page = .error exc) :
      Passes py h collected answer (h', .raised exc)
  | again {h' : ExecHandle} {page : List Dict}
      (hread : h.readPage answer = (h', .ok page)) (hdrained : h'.eventsDrained page = .ok false) :
      Passes py h collected answer (h', .again (collected ++ page))
  | returned {h' : ExecHandle} {page : List Dict}
      (hread : h.readPage answer = (h', .ok page)) (hdrained : h'.eventsDrained page = .ok true) :
      Passes py h collected answer
        (h', .returned (execResult py h'.sessionId h'.session (collected ++ page)))

theorem waitPass_cases (py : Interpreter) (h : ExecHandle) (collected : List Dict)
    (answer : Except Raised Dict) :
    Passes py h collected answer (h.waitPass py collected answer) := by
  simp only [waitPass]
  cases hread : h.readPage answer with
  | mk h' page =>
  cases page with
  | error exc => exact .refused hread
  | ok page =>
      simp only
      cases hdrained : h'.eventsDrained page with
      | error exc => exact .unhashable hread hdrained
      | ok drained =>
          cases drained with
          | false => exact .again hread hdrained
          | true => exact .returned hread hdrained

/-- A pass of `wait` leaves the handle as the read does. -/
theorem waitPass_fst (py : Interpreter) (h : ExecHandle) (collected : List Dict)
    (answer : Except Raised Dict) :
    (h.waitPass py collected answer).1 = (h.readPage answer).1 := by
  have hcases := h.waitPass_cases py collected answer
  generalize h.waitPass py collected answer = out at hcases ⊢
  cases hcases with
  | refused hread => rw [hread]
  | unhashable hread => rw [hread]
  | again hread => rw [hread]
  | returned hread => rw [hread]

end ExecHandle

/-! ## A session with two events -/

/-- An event of standard output. -/
def outputEvent (number : ℤ) (data : String) : Dict :=
  [("sequence", .int number), ("stream", .str "stdout"), ("data", .str data)]

@[simp] theorem outputEvent_sequence (number : ℤ) (data : String) :
    (outputEvent number data).get "sequence" = .int number := rfl

/-- A history of two events. -/
def twoEvents : List Dict := [outputEvent 1 "a", outputEvent 2 "b"]

/-- The record of the session at its end. -/
def exitedSession : Dict := [("status", .str "exited"), ("final_sequence", .int 2)]

/-- An answer with some of its events and the record at its end. -/
def exitedPage (events : List Dict) : Dict :=
  [("events", .list (events.map .dict)), ("session", .dict exitedSession)]

theorem execEventPayloads_exitedPage (sessionId : String) (events : List Dict) :
    execEventPayloads sessionId ((exitedPage events).get "events") = .ok events := by
  have hmap : (events.map Json.dict).mapM Json.asDict = some events := by
    induction events with
    | nil => rfl
    | cons event rest ih => simp [Json.asDict, ih]
  simp [execEventPayloads, exitedPage, Dict.get, hmap]

/-- A handle of the session. -/
def e1Handle : ExecHandle := { sessionId := "e1", session := [] }

end UcloudSandboxes.Client
