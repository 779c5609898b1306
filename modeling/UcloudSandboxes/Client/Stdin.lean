import Mathlib.Data.List.Infix
import UcloudSandboxes.Python.Value

/-!
# The stdin of a sandbox process

`AsyncProcessStdin` buffers what `write` is given. A `drain` takes the whole buffer under a lock and
sends it with one `write_stdin`; it puts the bytes back when that raises an `Exception`. `close`
runs one more drain, and `close_stdin` after it. Tasks drain and close in any order, and a task that
waits for the lock or for its `write_stdin` may be cancelled.

## Main results

* `Stdin.Inv.step`: the accounting of the bytes, step by step.
* `accepted_kept_iff`: the runs in which every accepted byte was sent or is in the buffer.
-/
namespace UcloudSandboxes.Client
open Python

/-- What `write` is given. -/
inductive StdinData
  | bytes (data : Bytes)
  | str (text : String)
  | other

/-- What is appended to the buffer; `none` is a `TypeError`. -/
def StdinData.encoded : StdinData → Option Bytes
  | .bytes data => some data
  | .str text => some text.toUTF8.toList
  | .other => none

/-- The drain that holds the lock, and what it sends. `closes` says whether `close_stdin`
follows. -/
structure Sending where
  closes : Bool
  data : Bytes

/-- `AsyncProcessStdin`, with the drains that wait for its lock, all data that `write` accepted, the
data of the `write_stdin` calls that returned, and whether `close_stdin` was sent. -/
structure Stdin where
  buffer : Bytes := []
  closing : Bool := false
  waiting : List Bool := []
  sending : Option Sending := none
  accepted : Bytes := []
  sent : Bytes := []
  closeSent : Bool := false

/-- What happens to it. -/
inductive StdinEvent
  | write (data : StdinData)
  /-- A task calls `drain`. -/
  | drain
  | close
  /-- A waiting drain gets the lock. -/
  | acquire (i : ℕ)
  /-- A drain is cancelled while it waits for the lock. -/
  | abandoned (i : ℕ)
  /-- `write_stdin` returns. -/
  | sent
  /-- `write_stdin` raises, or the task is cancelled while it waits for it. -/
  | failed (exc : Raised)

namespace Stdin

/-- `write`. -/
def write (s : Stdin) (data : StdinData) : Stdin :=
  if s.closing then s
  else match data.encoded with
    | some encoded =>
        { s with buffer := s.buffer ++ encoded, accepted := s.accepted ++ encoded }
    | none => s

/-- `close`. The task it creates drains first. -/
def close (s : Stdin) : Stdin :=
  if s.closing then s else { s with closing := true, waiting := s.waiting ++ [true] }

/-- A drain, once it has the lock. -/
def takeBuffer (s : Stdin) (closes : Bool) : Stdin :=
  if s.buffer.isEmpty then { s with closeSent := s.closeSent || closes }
  else { s with buffer := [], sending := some { closes, data := s.buffer } }

/-- What follows `write_stdin`. -/
def finish (s : Stdin) (sending : Sending) : Stdin :=
  { s with
    sending := none
    sent := s.sent ++ sending.data
    closeSent := s.closeSent || sending.closes }

/-- `except Exception`; any other exception passes it. -/
def fail (s : Stdin) (sending : Sending) (exc : Raised) : Stdin :=
  { s with
    sending := none
    buffer := if exc.isException then sending.data ++ s.buffer else s.buffer }

/-- One event, where it can happen. -/
def step (s : Stdin) : StdinEvent → Option Stdin
  | .write data => some (s.write data)
  | .drain => some { s with waiting := s.waiting ++ [false] }
  | .close => some s.close
  | .acquire i =>
      match s.sending, s.waiting[i]? with
      | none, some closes => some ({ s with waiting := s.waiting.eraseIdx i }.takeBuffer closes)
      | _, _ => none
  | .abandoned i =>
      if i < s.waiting.length then some { s with waiting := s.waiting.eraseIdx i } else none
  | .sent => s.sending.map s.finish
  | .failed exc => s.sending.map fun sending => s.fail sending exc

/-- A run from the beginning. -/
def run (events : List StdinEvent) : Option Stdin := events.foldlM step {}

/-- The data in flight. -/
def inFlight (s : Stdin) : Bytes := (s.sending.map Sending.data).getD []

/-- Every accepted byte was sent or is in the buffer while nothing is in flight, and was sent when
`close_stdin` is. -/
def Kept (s : Stdin) : Prop :=
  (s.sending = none → s.accepted = s.sent ++ s.buffer) ∧ (s.closeSent = true → s.accepted = s.sent)

/-- The accounting of the bytes. -/
structure Inv (s : Stdin) : Prop where
  balance : s.accepted = s.sent ++ s.inFlight ++ s.buffer
  sending_ne_nil : ∀ sending, s.sending = some sending → sending.data ≠ []
  waiting_closing : true ∈ s.waiting → s.closing = true
  sending_closing : ∀ sending, s.sending = some sending → sending.closes = true →
    s.closing = true ∧ s.buffer = []
  closeSent_closing : s.closeSent = true →
    s.closing = true ∧ s.buffer = [] ∧ s.sending = none

theorem Inv.kept {s : Stdin} (h : s.Inv) : s.Kept := by
  constructor
  · intro hsending
    simpa [inFlight, hsending] using h.balance
  · intro hclosed
    obtain ⟨-, hbuffer, hsending⟩ := h.closeSent_closing hclosed
    simpa [inFlight, hsending, hbuffer] using h.balance

/-- The event gives back what it does not send. -/
def Restores : StdinEvent → Prop
  | .failed exc => exc.isException = true
  | _ => True

theorem Inv.write {s : Stdin} (h : s.Inv) (data : StdinData) : (s.write data).Inv := by
  by_cases hclosing : s.closing = true
  · simpa [Stdin.write, hclosing] using h
  · cases hdata : data.encoded with
    | none => simpa [Stdin.write, hclosing, hdata] using h
    | some encoded =>
        have hwritten : s.write data =
            { s with buffer := s.buffer ++ encoded, accepted := s.accepted ++ encoded } := by
          simp [Stdin.write, hclosing, hdata]
        rw [hwritten]
        refine ⟨?_, h.sending_ne_nil, h.waiting_closing, ?_, ?_⟩
        · simp only [inFlight, h.balance, List.append_assoc]
        · intro sending hsending hcloses
          exact absurd (h.sending_closing sending hsending hcloses).1 hclosing
        · intro hclosed
          exact absurd (h.closeSent_closing hclosed).1 hclosing

theorem Inv.close {s : Stdin} (h : s.Inv) : s.close.Inv := by
  by_cases hclosing : s.closing = true
  · simpa [Stdin.close, hclosing] using h
  · have hclosed : s.close = { s with closing := true, waiting := s.waiting ++ [true] } := by
      simp [Stdin.close, hclosing]
    rw [hclosed]
    refine ⟨h.balance, h.sending_ne_nil, fun _ => rfl, ?_, ?_⟩
    · intro sending hsending hcloses
      exact ⟨rfl, (h.sending_closing sending hsending hcloses).2⟩
    · intro hsent
      exact ⟨rfl, (h.closeSent_closing hsent).2⟩

/-- Fewer drains wait. -/
theorem Inv.erase {s : Stdin} (h : s.Inv) (i : ℕ) :
    ({ s with waiting := s.waiting.eraseIdx i } : Stdin).Inv :=
  ⟨h.balance, h.sending_ne_nil, fun hmem => h.waiting_closing (List.mem_of_mem_eraseIdx hmem),
    h.sending_closing, h.closeSent_closing⟩

theorem Inv.takeBuffer {s : Stdin} (h : s.Inv) (hfree : s.sending = none) {closes : Bool}
    (hcloses : closes = true → s.closing = true) : (s.takeBuffer closes).Inv := by
  have hbalance : s.accepted = s.sent ++ s.buffer := h.kept.1 hfree
  by_cases hempty : s.buffer = []
  · have htaken : s.takeBuffer closes = { s with closeSent := s.closeSent || closes } := by
      simp [Stdin.takeBuffer, hempty]
    rw [htaken]
    refine ⟨h.balance, h.sending_ne_nil, h.waiting_closing, h.sending_closing, ?_⟩
    intro hclosed
    simp only [Bool.or_eq_true] at hclosed
    rcases hclosed with hclosed | hclosed
    · exact h.closeSent_closing hclosed
    · exact ⟨hcloses hclosed, hempty, hfree⟩
  · have htaken : s.takeBuffer closes =
        { s with buffer := [], sending := some { closes, data := s.buffer } } := by
      simp [Stdin.takeBuffer, hempty]
    rw [htaken]
    refine ⟨by simpa [inFlight] using hbalance, ?_, h.waiting_closing, ?_, ?_⟩
    · intro sending hsending
      cases hsending
      exact hempty
    · intro sending hsending hcloses'
      cases hsending
      exact ⟨hcloses hcloses', rfl⟩
    · intro hclosed
      exact absurd (h.closeSent_closing hclosed).2.1 hempty

theorem Inv.finish {s : Stdin} (h : s.Inv) {sending : Sending} (hs : s.sending = some sending) :
    (s.finish sending).Inv := by
  refine ⟨?_, by simp [Stdin.finish], h.waiting_closing, by simp [Stdin.finish], ?_⟩
  · simpa [Stdin.finish, inFlight, hs] using h.balance
  · intro hclosed
    simp only [Stdin.finish, Bool.or_eq_true] at hclosed
    rcases hclosed with hclosed | hcloses
    · exact ⟨(h.closeSent_closing hclosed).1, (h.closeSent_closing hclosed).2.1, rfl⟩
    · exact ⟨(h.sending_closing sending hs hcloses).1,
        (h.sending_closing sending hs hcloses).2, rfl⟩

theorem Inv.fail {s : Stdin} (h : s.Inv) {sending : Sending} (hs : s.sending = some sending)
    {exc : Raised} (hexc : exc.isException = true) : (s.fail sending exc).Inv := by
  have hopen : ¬ s.closeSent = true := by
    intro hclosed
    rw [(h.closeSent_closing hclosed).2.2] at hs
    cases hs
  refine ⟨?_, by simp [Stdin.fail], h.waiting_closing, by simp [Stdin.fail], ?_⟩
  · simpa [Stdin.fail, inFlight, hs, hexc] using h.balance
  · intro hclosed
    exact absurd hclosed hopen

/-- An event that gives back what it does not send keeps the accounting. -/
theorem Inv.step {s s' : Stdin} {e : StdinEvent} (h : s.Inv) (he : Restores e)
    (hstep : s.step e = some s') : s'.Inv := by
  cases e with
  | write data =>
      cases hstep
      exact h.write data
  | drain =>
      cases hstep
      refine ⟨h.balance, h.sending_ne_nil, fun hmem => ?_, h.sending_closing, h.closeSent_closing⟩
      exact h.waiting_closing (by simpa using hmem)
  | close =>
      cases hstep
      exact h.close
  | acquire i =>
      simp only [Stdin.step] at hstep
      split at hstep
      · rename_i closes hfree hwaiting
        cases hstep
        refine (h.erase i).takeBuffer hfree fun hcloses => ?_
        subst hcloses
        exact h.waiting_closing (List.mem_of_getElem? hwaiting)
      · cases hstep
  | abandoned i =>
      simp only [Stdin.step] at hstep
      split_ifs at hstep
      cases hstep
      exact h.erase i
  | sent =>
      obtain ⟨sending, hsending, rfl⟩ := Option.map_eq_some_iff.mp hstep
      exact h.finish hsending
  | failed exc =>
      obtain ⟨sending, hsending, rfl⟩ := Option.map_eq_some_iff.mp hstep
      exact h.fail hsending he

/-- An event that does not give back what it does not send loses it. -/
theorem Inv.not_kept {s s' : Stdin} {e : StdinEvent} (h : s.Inv) (he : ¬ Restores e)
    (hstep : s.step e = some s') : ¬ s'.Kept := by
  cases e with
  | failed exc =>
      obtain ⟨sending, hsending, rfl⟩ := Option.map_eq_some_iff.mp hstep
      intro hkept
      have hlost := hkept.1 rfl
      have hlength := congrArg List.length h.balance
      have hdata := h.sending_ne_nil sending hsending
      simp only [Restores] at he
      simp only [Stdin.fail, he, Bool.false_eq_true, if_false] at hlost
      rw [hlost] at hlength
      simp only [inFlight, hsending, Option.map_some, Option.getD_some,
        List.length_append] at hlength
      exact hdata (List.eq_nil_of_length_eq_zero (by omega))
  | _ => exact absurd trivial he

/-- Every state of a run keeps the accepted bytes. -/
def EveryStateKept (events : List StdinEvent) : Prop :=
  ∀ before after s, events = before ++ after → run before = some s → s.Kept

/-- Every event that happens in a run gives back what it does not send. -/
def EveryEventRestores (events : List StdinEvent) : Prop :=
  ∀ before e after s, events = before ++ e :: after → run (before ++ [e]) = some s → Restores e

theorem run_snoc {before : List StdinEvent} {e : StdinEvent} {s' : Stdin}
    (h : run (before ++ [e]) = some s') : ∃ s, run before = some s ∧ s.step e = some s' := by
  simpa [run, List.foldlM_append, Option.bind_eq_some_iff] using h

/-- The accounting holds behind every run whose events give back what they do not send. -/
theorem Inv.run {events : List StdinEvent} (h : EveryEventRestores events) {s : Stdin}
    (hs : Stdin.run events = some s) : s.Inv := by
  induction events using List.reverseRecOn generalizing s with
  | nil =>
      cases hs
      exact ⟨rfl, by simp, by simp, by simp, by simp⟩
  | append_singleton before e ih =>
      obtain ⟨s₀, hbefore, hstep⟩ := run_snoc hs
      have hinv : s₀.Inv := by
        refine ih (fun front e' rest s' heq hs' => ?_) hbefore
        exact h front e' (rest ++ [e]) s' (by simp [heq]) hs'
      exact hinv.step (h before e [] s rfl hs) hstep

/-- Where every state keeps the accepted bytes, no event has lost any. -/
theorem restores_of_kept {events : List StdinEvent} (h : EveryStateKept events) :
    EveryEventRestores events := by
  induction events using List.reverseRecOn with
  | nil => simp [EveryEventRestores]
  | append_singleton front last ih =>
      have hfront : EveryEventRestores front := ih fun before after s heq hs =>
        h before (after ++ [last]) s (by simp [heq]) hs
      intro before e after s heq hs
      rcases List.eq_nil_or_concat after with rfl | ⟨rest, final, rfl⟩
      · -- The last event: the states before it obey the accounting.
        have hsplit : front = before ∧ last = e := by simpa using heq
        obtain ⟨rfl, rfl⟩ := hsplit
        obtain ⟨s₀, hbefore, hstep⟩ := run_snoc hs
        by_contra hlost
        exact (Inv.run hfront hbefore).not_kept hlost hstep (h _ [] s (by simp) hs)
      · have hsplit : front = before ++ e :: rest := by
          have happend : front ++ [last] = (before ++ e :: rest) ++ [final] := by simpa using heq
          exact (List.append_inj' happend rfl).1
        exact hfront before e rest s hsplit hs

/-- **Bytes of stdin.** In every state of a run every accepted byte was sent or is in the buffer,
and was sent when `close_stdin` was, exactly when no `write_stdin` of the run ends in an exception
outside `Exception`. -/
theorem accepted_kept_iff (events : List StdinEvent) :
    EveryStateKept events ↔ EveryEventRestores events := by
  constructor
  · exact restores_of_kept
  · intro h before after s heq hs
    refine (Inv.run (fun front e rest s' hbefore hs' => ?_) hs).kept
    exact h front e (rest ++ after) s' (by simp [heq, hbefore]) hs'

/-- A drain is cancelled while it waits for its `write_stdin`. -/
def cancelledDrain : List StdinEvent :=
  [.write (.bytes [1, 2]), .drain, .acquire 0, .failed (.base "CancelledError")]

/-- The bytes are neither sent nor in the buffer. -/
theorem cancelled_bytes_lost : ¬ EveryStateKept cancelledDrain := by
  intro h
  have hrun : run cancelledDrain = some { accepted := [1, 2] } := rfl
  have hkept := (h cancelledDrain [] _ (by simp) hrun).1 rfl
  exact absurd hkept (by decide)

end Stdin
end UcloudSandboxes.Client
