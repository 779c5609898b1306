import UcloudSandboxes.Http.Response
import UcloudSandboxes.Lib.Descent

/-!
# Reading a body by the chunk

The loop of `read_async_response`, with the sizes it asks the transport for. A transport answers a
read with any bytes that come next, no more than asked for, and with none only at the end of the
stream or when it is asked for none. What it answers is not fixed: a step of the loop is any answer.

## Main results

* `descends`: the loop ends, and what holds while it runs.
* `asyncReads_iff`: how it ends depends on the bytes alone, and it ends as `read_sync_response`.
-/
namespace UcloudSandboxes.Http
open Python Lib

namespace AsyncRead

/-- `min(64 * 1024, limit + 1 - total)`. -/
def request (limit total : ℕ) : ℤ := min (64 * 1024) ((limit : ℤ) + 1 - total)

/-- `StreamReader.read(n)` while `rest` has not been read: it answers `chunk`, and `rest'` is left.
With a negative `n` it reads to the end of the stream. -/
structure Answers (n : ℤ) (rest chunk rest' : Bytes) : Prop where
  next : rest = chunk ++ rest'
  within : 0 ≤ n → (chunk.length : ℤ) ≤ n
  all : n < 0 → rest' = []
  some : n ≠ 0 → chunk = [] → rest = []

/-- `chunks` and `total`. -/
structure Held where
  chunks : List Bytes := []
  total : ℕ := 0

/-- What the loop holds after `chunks.append(chunk)` and `total += len(chunk)`. -/
def Held.append (held : Held) (chunk : Bytes) : Held where
  chunks := held.chunks ++ [chunk]
  total := held.total + chunk.length

/-- The loop before a read, with what the transport has left, or behind its end. -/
inductive State
  | reading (held : Held) (rest : Bytes)
  | ended (held : Held) (result : Except Raised Bytes)

/-- The body of the loop, behind its read. -/
def received (limit : ℕ) (held : Held) (chunk rest : Bytes) : State :=
  if chunk = [] then .ended held (.ok held.chunks.flatten)
  else if limit < (held.append chunk).total then
    .ended (held.append chunk) (.error (.tooLarge (tooLargeText limit)))
  else .reading (held.append chunk) rest

/-- One round of the loop. -/
inductive Step (limit : ℕ) : State → State → Prop
  | read {held : Held} {rest chunk rest' : Bytes}
      (answer : Answers (request limit held.total) rest chunk rest') :
      Step limit (.reading held rest) (received limit held chunk rest')

/-- Before the first read. -/
def start (body : Bytes) : State := .reading {} body

def State.held : State → Held
  | .reading held _ => held
  | .ended held _ => held

/-- How a body is read under a limit. -/
def verdict (limit : ℕ) (body : Bytes) : Except Raised Bytes :=
  if limit < body.length then .error (.tooLarge (tooLargeText limit)) else .ok body

/-- What is held is what was read, in chunks that are not empty. -/
structure Held.Sound (held : Held) : Prop where
  total : held.total = held.chunks.flatten.length
  chunks : ∀ chunk ∈ held.chunks, chunk ≠ []

/-- What holds throughout. -/
def Inv (limit : ℕ) (body : Bytes) : State → Prop
  | .reading held rest =>
      held.Sound ∧ held.chunks.flatten ++ rest = body ∧ held.total ≤ limit
  | .ended held result =>
      held.Sound ∧ held.chunks.flatten <+: body ∧ held.total ≤ limit + 1 ∧
        result = verdict limit held.chunks.flatten ∧ result = verdict limit body

/-- The loop has ended. -/
def State.Final : State → Prop
  | .reading _ _ => False
  | .ended _ _ => True

/-- How many rounds may follow. -/
def State.rounds (limit : ℕ) : State → ℕ
  | .reading held _ => limit + 1 - held.total
  | .ended _ _ => 0

section
variable {limit : ℕ} {body : Bytes}

theorem inv_start (limit : ℕ) (body : Bytes) : Inv limit body (start body) :=
  ⟨⟨rfl, by simp⟩, rfl, Nat.zero_le _⟩

/-- **No read asks for nothing**, and none for everything. -/
theorem request_pos {total : ℕ} (h : total ≤ limit) : 0 < request limit total := by
  simp only [request]
  omega

theorem Held.Sound.append {held : Held} (h : held.Sound) {chunk : Bytes} (hchunk : chunk ≠ []) :
    (held.append chunk).Sound := by
  constructor
  · simp only [Held.append, List.flatten_append, List.length_append, h.total]
    simp
  · intro c hc
    simp only [Held.append, List.mem_append, List.mem_singleton] at hc
    rcases hc with hc | rfl
    · exact h.chunks c hc
    · exact hchunk

theorem flatten_append (held : Held) (chunk : Bytes) :
    (held.append chunk).chunks.flatten = held.chunks.flatten ++ chunk := by
  simp [Held.append]

/-- One round keeps the invariant. -/
theorem inv_step {s s' : State} (h : Inv limit body s) (hstep : Step limit s s') :
    Inv limit body s' := by
  cases hstep with
  | @read held rest chunk rest' answer =>
      obtain ⟨hsound, hbody, htotal⟩ := h
      have hpos := request_pos htotal
      have hwithin := answer.within (by omega)
      have hnext := answer.next
      simp only [received]
      by_cases hempty : chunk = []
      · rw [if_pos hempty]
        have hrest := answer.some (by omega) hempty
        rw [hrest, List.append_nil] at hbody
        have hverdict : verdict limit held.chunks.flatten = .ok held.chunks.flatten := by
          simp only [verdict]
          rw [if_neg (by rw [← hsound.total]; omega)]
        refine ⟨hsound, ?_, by omega, hverdict.symm, ?_⟩
        · exact ⟨[], by rw [List.append_nil]; exact hbody⟩
        · rw [← hbody, hverdict]
      · rw [if_neg hempty]
        have hsound' := hsound.append hempty
        have hsplit : (held.append chunk).chunks.flatten ++ rest' = body := by
          rw [flatten_append, List.append_assoc, ← hnext]
          exact hbody
        have hlength : (held.append chunk).total = held.total + chunk.length := rfl
        by_cases hlimit : limit < (held.append chunk).total
        · rw [if_pos hlimit]
          have hheld : limit < (held.append chunk).chunks.flatten.length := by
            rw [← hsound'.total]
            exact hlimit
          have hwhole : limit < body.length := by
            rw [← hsplit, List.length_append]
            omega
          refine ⟨hsound', ⟨rest', hsplit⟩, ?_, ?_, ?_⟩
          · simp only [request] at hwithin
            omega
          · simp only [verdict, if_pos hheld]
          · simp only [verdict, if_pos hwhole]
        · rw [if_neg hlimit]
          exact ⟨hsound', hsplit, by omega⟩

/-- One round leaves fewer. -/
theorem rounds_step {s s' : State} (h : Inv limit body s) (hstep : Step limit s s') :
    s'.rounds limit < s.rounds limit := by
  cases hstep with
  | @read held rest chunk rest' answer =>
      obtain ⟨-, -, htotal⟩ := h
      simp only [received]
      split_ifs with hempty hlimit
      · simp only [State.rounds]
        omega
      · simp only [State.rounds]
        omega
      · have hpos := List.length_pos_iff.mpr hempty
        simp only [State.rounds, Held.append]
        omega

/-- A transport has an answer to every read. -/
theorem exists_answer {n : ℤ} (hn : 0 < n) (rest : Bytes) :
    ∃ chunk rest', Answers n rest chunk rest' := by
  refine ⟨rest.take n.toNat, rest.drop n.toNat, (List.take_append_drop _ _).symm, ?_, ?_, ?_⟩
  · intro _
    rw [List.length_take]
    omega
  · intro h
    omega
  · intro _ h
    rcases List.take_eq_nil_iff.mp h with h | h
    · omega
    · exact h

/-- **The loop ends.** -/
theorem descends (limit : ℕ) (body : Bytes) :
    Descends (Step limit) (Inv limit body) State.Final (State.rounds limit) where
  keeps _ _ h hstep := inv_step h hstep
  decreases _ _ h hstep := rounds_step h hstep
  progress s h := by
    cases s with
    | ended held result => exact .inl trivial
    | reading held rest =>
        obtain ⟨chunk, rest', answer⟩ := exists_answer (request_pos h.2.2) rest
        exact .inr ⟨_, .read answer⟩

/-- The loop over chunks that are given makes of what is held what the loop with sizes did. -/
theorem readAsyncLoop_held {held : Held} {result : Except Raised Bytes}
    (h : Inv limit body (.ended held result)) :
    readAsyncLoop limit .complete held.chunks [] = result := by
  obtain ⟨hsound, -, -, hheld, -⟩ := h
  rw [readAsyncLoop_complete hsound.chunks (Nat.zero_le _), hheld]
  rfl

/-- What holds of the loop at any time: it asks for something, it holds no more than `limit + 1`
bytes, and its end depends on the body alone. -/
structure Bounded (limit : ℕ) (body : Bytes) (s : State) : Prop where
  asks : ∀ held rest, s = .reading held rest → 0 < request limit held.total
  holds : s.held.chunks.flatten.length ≤ limit + 1
  ends : ∀ held result, s = .ended held result →
    result = verdict limit held.chunks.flatten ∧ result = verdict limit body

theorem Inv.bounded {s : State} (h : Inv limit body s) : Bounded limit body s := by
  cases s with
  | reading held rest =>
      obtain ⟨hsound, -, htotal⟩ := h
      refine ⟨?_, ?_, ?_⟩
      · intro held' rest' hs
        cases hs
        exact request_pos htotal
      · simp only [State.held, ← hsound.total]
        omega
      · intro held' result hs
        cases hs
  | ended held result =>
      obtain ⟨hsound, -, htotal, hheld, hbody⟩ := h
      refine ⟨?_, ?_, ?_⟩
      · intro held' rest' hs
        cases hs
      · simp only [State.held, ← hsound.total]
        exact htotal
      · intro held' result' hs
        cases hs
        exact ⟨hheld, hbody⟩

end
end AsyncRead

open AsyncRead in
/-- How `read_async_response` may end, for a transport that delivers the whole body. A response
without a stream is read at once. -/
inductive AsyncReads (py : Interpreter) (r : Response) (limit : ℕ) : Except Raised Bytes → Prop
  | refused {exc : Raised} (check : checkContentLength py r.headers limit = .error exc) :
      AsyncReads py r limit (.error exc)
  | stream {held : Held} {result : Except Raised Bytes}
      (check : checkContentLength py r.headers limit = .ok ())
      (run : Relation.ReflTransGen (Step limit) (start r.body.delivered) (.ended held result)) :
      AsyncReads py r limit result
  | whole (check : checkContentLength py r.headers limit = .ok ()) :
      AsyncReads py r limit (verdict limit r.body.delivered)

section
variable {py : Interpreter} {r : Response} {limit : ℕ}

theorem readWhole_of_check (h : checkContentLength py r.headers limit = .ok ()) :
    readWhole py r limit = AsyncRead.verdict limit r.body.delivered := by
  simp only [readWhole, h]
  rfl

theorem readWhole_of_refused {exc : Raised}
    (h : checkContentLength py r.headers limit = .error exc) :
    readWhole py r limit = .error exc := by
  simp only [readWhole, h]
  rfl

/-- **The async reader** ends as the sync one, whatever the transport answers. -/
theorem asyncReads_iff (hr : r.body.Complete) {result : Except Raised Bytes} :
    AsyncReads py r limit result ↔ result = readSyncResponse py r limit := by
  rw [readSyncResponse_complete py hr]
  constructor
  · intro h
    cases h with
    | refused check => exact (readWhole_of_refused check).symm
    | stream check run =>
        have hinv := (AsyncRead.descends limit r.body.delivered).run (AsyncRead.inv_start _ _) run
        rw [readWhole_of_check check]
        exact (hinv.bounded.ends _ _ rfl).2
    | whole check => exact (readWhole_of_check check).symm
  · rintro rfl
    cases check : checkContentLength py r.headers limit with
    | error exc =>
        rw [readWhole_of_refused check]
        exact .refused check
    | ok _ =>
        rw [readWhole_of_check check]
        exact .whole check

/-- The stream branch alone reaches every verdict. -/
theorem exists_run (limit : ℕ) (body : Bytes) :
    ∃ held, Relation.ReflTransGen (AsyncRead.Step limit) (AsyncRead.start body)
      (.ended held (AsyncRead.verdict limit body)) := by
  have hdescends := AsyncRead.descends limit body
  obtain ⟨s, hrun, hfinal⟩ := hdescends.completes (AsyncRead.inv_start limit body)
  cases s with
  | reading held rest => cases hfinal
  | ended held result =>
      have hinv := hdescends.run (AsyncRead.inv_start limit body) hrun
      refine ⟨held, ?_⟩
      rw [← (hinv.bounded.ends _ _ rfl).2]
      exact hrun

/-- **Reading a body by the chunk.** In every state the loop asks for something and holds at most
`limit + 1` bytes, it makes at most `limit + 1` rounds, and `read_async_response` ends as
`read_sync_response` does. -/
theorem async_read_whole (py : Interpreter) {r : Response} (hr : r.body.Complete) (limit : ℕ) :
    (∀ s, Relation.ReflTransGen (AsyncRead.Step limit) (AsyncRead.start r.body.delivered) s →
      AsyncRead.Bounded limit r.body.delivered s) ∧
    (∀ n s, Steps (AsyncRead.Step limit) (AsyncRead.start r.body.delivered) n s →
      n ≤ limit + 1) ∧
    (∃ held, Relation.ReflTransGen (AsyncRead.Step limit) (AsyncRead.start r.body.delivered)
      (.ended held (AsyncRead.verdict limit r.body.delivered))) ∧
    ∀ result, AsyncReads py r limit result ↔ result = readSyncResponse py r limit := by
  have hdescends := AsyncRead.descends limit r.body.delivered
  have hstart := AsyncRead.inv_start limit r.body.delivered
  refine ⟨?_, ?_, exists_run _ _, fun result => asyncReads_iff hr⟩
  · intro s hrun
    exact (hdescends.run hstart hrun).bounded
  · intro n s hrun
    have hle := (hdescends.length_le hstart hrun).2
    simp only [AsyncRead.start, AsyncRead.State.rounds] at hle
    omega

/-- A body of three bytes under a limit of two. -/
theorem async_read_whole_three :
    AsyncReads (.ascii []) ⟨200, [], ⟨none, [[1, 2], [3]], .complete⟩⟩ 2
      (.error (.tooLarge "response exceeds the 2 byte limit")) := by
  have hread := (async_read_whole (.ascii []) (r := ⟨200, [], ⟨none, [[1, 2], [3]], .complete⟩⟩)
    ⟨rfl, by simp, by simp⟩ 2).2.2.2
  rw [hread]
  rfl

end
end UcloudSandboxes.Http
