import UcloudSandboxes.Client.Job

/-!
# Following a job's log

`JobHandle.follow` and the generator `_follow` behind it, as a machine that stands where the
generator is suspended: at a log read (or in the sleep before it), at the status read that an older
gateway needs, or at its `yield`. The async generator stands at the same places.

A `Follower` keeps the chunks it has yielded and the log reads it has made.

## Main results

* `follow_unspliced_iff`: the yielded chunks are consecutive and of the requested stream, and
  answers to another question fail, exactly as long as no such answer is accepted.
* `follow_splices`: one that is accepted.
-/
namespace UcloudSandboxes.Client
open Python Http

/-- `DEFAULT_JOB_READ_WAIT_SECONDS`. -/
def defaultJobReadWaitSeconds : ℚ := 20

/-- `JobHandle`, without its client. -/
structure JobHandle where
  sandboxId : String
  jobId : String
  record : JobRecord

/-- A `read_job_logs` call: what was asked, what was answered, and what the call made of it. -/
structure JobLogRead where
  stream : String
  offset : ℤ
  limit : ℤ
  answer : Answer
  result : Except Raised JobLogChunk

/-- Where the generator stands. -/
inductive FollowPhase
  /-- At a log read, or in the sleep before it. -/
  | reading (offset : ℤ)
  /-- At the status read behind a chunk that came without a record. -/
  | asking (chunk : JobLogChunk) (elapsedSeconds : ℚ)
  /-- At the `yield`, with what comes after it. -/
  | yielding (nextOffset : ℤ) (delay : Option ℚ)
  | ended
  | raised (exc : Raised)

/-- A generator of `_follow`. -/
structure Follower where
  handle : JobHandle
  stream : String
  limit : ℤ
  pollSeconds : ℚ
  phase : FollowPhase
  yielded : List JobLogChunk := []
  reads : List JobLogRead := []

/-- The bytes of consecutive chunks. -/
def logBytes (chunks : List JobLogChunk) : Bytes := chunks.flatMap JobLogChunk.data

/-- `JobHandle.follow`. -/
def JobHandle.follow (h : JobHandle) (stream : String) (offset limit : ℤ) (pollSeconds : ℚ) :
    Except Raised Follower :=
  if !(["stdout", "stderr"].contains stream) then
    .error (.builtin .valueError "job log stream must be stdout or stderr")
  else .ok {
    handle := h, stream, limit := max 1 limit, pollSeconds, phase := .reading (max 0 offset) }

/-- `read_job_logs`, from the answer on. -/
def readJobLogs (py : Interpreter) (h : JobHandle) : Answer → Except Raised JobLogChunk
  | .ok (response, headers) => jobLogAnswer py response headers h.sandboxId h.jobId
  | .error exc => .error exc

/-- `get_job`, from the answer on. -/
def getJob (py : Interpreter) (h : JobHandle) : Answer → Except Raised JobRecord
  | .ok (response, headers) => jobStatusAnswer py response headers h.sandboxId h.jobId
  | .error exc => .error exc

/-- What happens to the generator next. -/
inductive FollowInput
  /-- A log read returns or raises, after so many seconds. -/
  | log (answer : Answer) (elapsedSeconds : ℚ)
  /-- The status read returns or raises. -/
  | status (answer : Answer)
  /-- The caller asks for the next item. -/
  | next
  /-- The caller closes the generator, or an exception ends a read or a sleep. -/
  | interrupt (exc : Raised)

namespace Follower

/-- Behind the `yield`: the end, or the sleep and the next read. -/
def proceed (s : Follower) (nextOffset : ℤ) : Option ℚ → Follower
  | none => { s with phase := .ended }
  | some _ => { s with phase := .reading nextOffset }

/-- A pass of the loop from the record on, up to the next suspension. -/
def settle (s : Follower) (chunk : JobLogChunk) (elapsedSeconds : ℚ) (record : Option JobRecord) :
    Follower :=
  let s := { s with handle := { s.handle with record := record.getD s.handle.record } }
  match jobReadDelay (.log chunk record) defaultJobReadWaitSeconds elapsedSeconds s.pollSeconds with
  | .error exc => { s with phase := .raised exc }
  | .ok delay =>
      if chunk.data = [] then s.proceed chunk.nextOffset delay
      else { s with
        phase := .yielding chunk.nextOffset delay
        yielded := s.yielded ++ [chunk] }

/-- A pass of the loop, up to the next suspension. -/
def readLog (py : Interpreter) (s : Follower) (offset : ℤ) (answer : Answer)
    (elapsedSeconds : ℚ) : Follower :=
  let result := readJobLogs py s.handle answer
  let s : Follower := { s with
    reads := s.reads ++ [{ stream := s.stream, offset, limit := s.limit, answer, result }] }
  match result with
  | .error exc => { s with phase := .raised exc }
  | .ok chunk =>
      if jobLogNeedsStatus chunk then { s with phase := .asking chunk elapsedSeconds }
      else s.settle chunk elapsedSeconds chunk.job

/-- The rest of a pass, behind the status read. -/
def readStatus (py : Interpreter) (s : Follower) (chunk : JobLogChunk) (elapsedSeconds : ℚ)
    (answer : Answer) : Follower :=
  match getJob py s.handle answer with
  | .error exc => { s with phase := .raised exc }
  | .ok record => s.settle chunk elapsedSeconds (some record)

/-- One input; `none` when it cannot happen. -/
def step (py : Interpreter) (s : Follower) (input : FollowInput) : Option Follower :=
  match s.phase, input with
  | .reading offset, .log answer elapsed => some (s.readLog py offset answer elapsed)
  | .asking chunk elapsed, .status answer => some (s.readStatus py chunk elapsed answer)
  | .yielding nextOffset delay, .next => some (s.proceed nextOffset delay)
  | .ended, _ | .raised _, _ => none
  | _, .interrupt exc => some { s with phase := .raised exc }
  | _, _ => none

/-- The states of a run, which ends at an input that cannot happen. -/
def states (py : Interpreter) : Follower → List FollowInput → List Follower
  | s, [] => [s]
  | s, input :: rest =>
      match s.step py input with
      | some s' => s :: states py s' rest
      | none => [s]

/-- The steps of a run: the states they start from, and the inputs. -/
def moves (py : Interpreter) : Follower → List FollowInput → List (Follower × FollowInput)
  | _, [] => []
  | s, input :: rest =>
      match s.step py input with
      | some s' => (s, input) :: moves py s' rest
      | none => []

end Follower

/-! ## What a step can do -/

theorem readJobLogs_ok (py : Interpreter) (h : JobHandle) (response : Dict) (headers : Headers) :
    readJobLogs py h (.ok (response, headers)) =
      jobLogAnswer py response headers h.sandboxId h.jobId := rfl

namespace Follower
variable {py : Interpreter} {s s' : Follower} {chunk : JobLogChunk} {elapsed : ℚ}

/-- An accepted chunk holds what the fields of an object say. -/
theorem readJobLogs_decodes {h : JobHandle} {answer : Answer}
    (hresult : readJobLogs py h answer = .ok chunk) :
    ∃ response headers, answer = .ok (response, headers) ∧ JobLogChunk.Decodes py response chunk := by
  cases answer with
  | error exc => cases hresult
  | ok answer => exact ⟨answer.1, answer.2, rfl, jobLogAnswer_ok hresult⟩

/-- A step is one of the four inputs, where it can happen. -/
theorem step_cases {input : FollowInput} (h : s.step py input = some s') :
    (∃ offset answer elapsed, s.phase = .reading offset ∧ input = .log answer elapsed ∧
        s' = s.readLog py offset answer elapsed) ∨
      (∃ chunk elapsed answer, s.phase = .asking chunk elapsed ∧ input = .status answer ∧
        s' = s.readStatus py chunk elapsed answer) ∨
      (∃ nextOffset delay, s.phase = .yielding nextOffset delay ∧ input = .next ∧
        s' = s.proceed nextOffset delay) ∨
      ∃ exc, input = .interrupt exc ∧ s' = { s with phase := .raised exc } := by
  simp only [step] at h
  split at h
  · rename_i offset answer elapsed hphase
    cases h
    exact .inl ⟨offset, answer, elapsed, hphase, rfl, rfl⟩
  · rename_i chunk elapsed answer hphase
    cases h
    exact .inr (.inl ⟨chunk, elapsed, answer, hphase, rfl, rfl⟩)
  · rename_i nextOffset delay hphase
    cases h
    exact .inr (.inr (.inl ⟨nextOffset, delay, hphase, rfl, rfl⟩))
  · cases h
  · cases h
  · rename_i exc _ _
    cases h
    exact .inr (.inr (.inr ⟨exc, rfl, rfl⟩))
  · cases h

/-- A pass that has its record raises, or it moves on behind the chunk, with a `yield` if the chunk
has data. -/
theorem settle_cases (s : Follower) (chunk : JobLogChunk) (elapsed : ℚ)
    (record : Option JobRecord) :
    ∃ handle : JobHandle, handle.sandboxId = s.handle.sandboxId ∧ handle.jobId = s.handle.jobId ∧
      ((∃ exc, s.settle chunk elapsed record = { s with handle, phase := .raised exc }) ∨
        ∃ delay,
          jobReadDelay (.log chunk record) defaultJobReadWaitSeconds elapsed s.pollSeconds =
            .ok delay ∧
          (chunk.data = [] ∧
              s.settle chunk elapsed record =
                ({ s with handle } : Follower).proceed chunk.nextOffset delay ∨
            chunk.data ≠ [] ∧
              s.settle chunk elapsed record =
                { s with
                  handle, phase := .yielding chunk.nextOffset delay
                  yielded := s.yielded ++ [chunk] })) := by
  refine ⟨{ s.handle with record := record.getD s.handle.record }, rfl, rfl, ?_⟩
  unfold settle
  cases hdelay : jobReadDelay (.log chunk record) defaultJobReadWaitSeconds elapsed
      s.pollSeconds with
  | error exc => exact .inl ⟨exc, by simp only [hdelay]⟩
  | ok delay =>
      refine .inr ⟨delay, rfl, ?_⟩
      by_cases hdata : chunk.data = []
      · exact .inl ⟨hdata, by simp only [hdelay, if_pos hdata]⟩
      · exact .inr ⟨hdata, by simp only [hdelay, if_neg hdata]⟩

end Follower

/-! ## Consecutive chunks -/

theorem logBytes_append (chunks : List JobLogChunk) (chunk : JobLogChunk) :
    logBytes (chunks ++ [chunk]) = logBytes chunks ++ chunk.data := by
  simp [logBytes]

/-- The chunks are of the stream; the first begins at the offset, and each next one where the one
before it ended. -/
def Contiguous (stream : String) : ℤ → List JobLogChunk → Prop
  | _, [] => True
  | offset, chunk :: rest =>
      chunk.stream = stream ∧ chunk.offset = offset ∧
        Contiguous stream (offset + chunk.data.length) rest

theorem contiguous_append {stream : String} {offset : ℤ} {chunks : List JobLogChunk}
    {chunk : JobLogChunk} :
    Contiguous stream offset (chunks ++ [chunk]) ↔
      Contiguous stream offset chunks ∧ chunk.stream = stream ∧
        chunk.offset = offset + (logBytes chunks).length := by
  induction chunks generalizing offset with
  | nil => simp [Contiguous, logBytes]
  | cons first rest ih =>
      simp only [List.cons_append, Contiguous, ih, logBytes, List.flatMap_cons, List.length_append,
        Int.natCast_add, and_assoc, ← Int.add_assoc]

/-- The answer is an object that names another stream or another offset than the request. -/
def JobLogRead.Misdirected (py : Interpreter) (read : JobLogRead) : Prop :=
  ∃ response headers, read.answer = .ok (response, headers) ∧
    ¬ ((response.get "stream").toStr py = read.stream ∧
      (response.get "offset").toInt py = .ok read.offset)

/-- Where the generator stands agrees with a cursor. -/
def FollowPhase.At (stream : String) (cursor : ℤ) : FollowPhase → Prop
  | .reading offset => offset = cursor
  | .asking chunk _ =>
      chunk.stream = stream ∧ chunk.offset = cursor ∧
        chunk.nextOffset = cursor + chunk.data.length
  | .yielding nextOffset _ => nextOffset = cursor
  | .ended | .raised _ => True

/-- The cursor stands behind the yielded bytes. -/
def Follower.Placed (start : ℤ) (s : Follower) : Prop :=
  s.phase.At s.stream (start + (logBytes s.yielded).length)

/-- Nothing is spliced: what is yielded is consecutive and of the requested stream, the cursor
stands behind it, and every read whose answer is for another stream or another offset failed. -/
structure Follower.Unspliced (py : Interpreter) (start : ℤ) (s : Follower) : Prop where
  contiguous : Contiguous s.stream start s.yielded
  placed : s.Placed start
  refused : ∀ read ∈ s.reads, read.Misdirected py → ∃ exc, read.result = .error exc

/-- The answer to a log read, if `read_job_logs` accepts it, names the requested stream and the
requested offset. -/
def Follower.Directed (py : Interpreter) (s : Follower) : FollowInput → Prop
  | .log (.ok (response, headers)) _ =>
      (jobLogAnswer py response headers s.handle.sandboxId s.handle.jobId).isOk →
        (response.get "stream").toStr py = s.stream ∧
          ∀ offset, s.phase = .reading offset → (response.get "offset").toInt py = .ok offset
  | _ => True

namespace Follower
variable {py : Interpreter} {start : ℤ} {s s' : Follower}

theorem proceed_at {nextOffset cursor : ℤ} (h : nextOffset = cursor) (delay : Option ℚ)
    (stream : String) : (s.proceed nextOffset delay).phase.At stream cursor := by
  cases delay with
  | none => trivial
  | some delay => exact h

@[simp] theorem proceed_stream (nextOffset : ℤ) (delay : Option ℚ) :
    (s.proceed nextOffset delay).stream = s.stream := by
  cases delay <;> rfl

@[simp] theorem proceed_yielded (nextOffset : ℤ) (delay : Option ℚ) :
    (s.proceed nextOffset delay).yielded = s.yielded := by
  cases delay <;> rfl

@[simp] theorem proceed_reads (nextOffset : ℤ) (delay : Option ℚ) :
    (s.proceed nextOffset delay).reads = s.reads := by
  cases delay <;> rfl

@[simp] theorem settle_stream (chunk : JobLogChunk) (elapsed : ℚ) (record : Option JobRecord) :
    (s.settle chunk elapsed record).stream = s.stream := by
  obtain ⟨handle, -, -, ⟨exc, hsettle⟩ | ⟨delay, -, ⟨-, hsettle⟩ | ⟨-, hsettle⟩⟩⟩ :=
    s.settle_cases chunk elapsed record
  · rw [hsettle]
  · rw [hsettle, proceed_stream]
  · rw [hsettle]

@[simp] theorem settle_reads (chunk : JobLogChunk) (elapsed : ℚ) (record : Option JobRecord) :
    (s.settle chunk elapsed record).reads = s.reads := by
  obtain ⟨handle, -, -, ⟨exc, hsettle⟩ | ⟨delay, -, ⟨-, hsettle⟩ | ⟨-, hsettle⟩⟩⟩ :=
    s.settle_cases chunk elapsed record
  · rw [hsettle]
  · rw [hsettle, proceed_reads]
  · rw [hsettle]

theorem Placed.at_phase {phase : FollowPhase} (h : s.Placed start) (hphase : s.phase = phase) :
    phase.At s.stream (start + (logBytes s.yielded).length) := by
  rw [← hphase]
  exact h

/-- A pass with a chunk that begins behind the yielded bytes keeps them consecutive. -/
theorem settle_unspliced {chunk : JobLogChunk} {elapsed : ℚ} {record : Option JobRecord}
    (hs : s.Unspliced py start)
    (hchunk : (FollowPhase.asking chunk elapsed).At s.stream
      (start + (logBytes s.yielded).length)) :
    (s.settle chunk elapsed record).Unspliced py start := by
  obtain ⟨hstream, hoffset, hnext⟩ := hchunk
  obtain ⟨handle, -, -, ⟨exc, hsettle⟩ | ⟨delay, -, ⟨hdata, hsettle⟩ | ⟨hdata, hsettle⟩⟩⟩ :=
    s.settle_cases chunk elapsed record
  · rw [hsettle]
    exact ⟨hs.contiguous, trivial, hs.refused⟩
  · rw [hsettle]
    refine ⟨?_, ?_, ?_⟩
    · rw [proceed_stream, proceed_yielded]
      exact hs.contiguous
    · simp only [Placed]
      rw [proceed_yielded]
      refine proceed_at ?_ delay _
      rw [hnext, hdata]
      simp
    · rw [proceed_reads]
      exact hs.refused
  · rw [hsettle]
    refine ⟨contiguous_append.mpr ⟨hs.contiguous, hstream, hoffset⟩, ?_, hs.refused⟩
    simp only [Placed]
    show chunk.nextOffset = start + ((logBytes (s.yielded ++ [chunk])).length : ℤ)
    rw [hnext, logBytes_append, List.length_append, Int.natCast_add, Int.add_assoc]

/-- The read that a pass makes. -/
theorem readLog_reads (offset : ℤ) (answer : Answer) (elapsed : ℚ) :
    (s.readLog py offset answer elapsed).reads =
      s.reads ++ [{
        stream := s.stream, offset, limit := s.limit, answer
        result := readJobLogs py s.handle answer }] := by
  simp only [readLog]
  cases readJobLogs py s.handle answer with
  | error exc => rfl
  | ok chunk =>
      simp only
      split
      · rfl
      · rw [settle_reads]

/-- A generator follows one stream. -/
theorem step_stream {input : FollowInput} (h : s.step py input = some s') :
    s'.stream = s.stream := by
  rcases step_cases h with ⟨offset, answer, elapsed, -, -, rfl⟩ |
    ⟨chunk, elapsed, answer, -, -, rfl⟩ | ⟨nextOffset, delay, -, -, rfl⟩ | ⟨exc, -, rfl⟩
  · simp only [readLog]
    cases readJobLogs py s.handle answer with
    | error exc => rfl
    | ok chunk =>
        simp only
        split
        · rfl
        · rw [settle_stream]
  · simp only [readStatus]
    cases getJob py s.handle answer with
    | error exc => rfl
    | ok record => exact settle_stream chunk elapsed (some record)
  · exact proceed_stream nextOffset delay
  · rfl

/-- A read whose answer is accepted only if it is directed is no splice. -/
theorem directed_iff {offset : ℤ} {answer : Answer} {elapsed : ℚ}
    (hphase : s.phase = .reading offset) :
    s.Directed py (.log answer elapsed) ↔
      (({
          stream := s.stream, offset, limit := s.limit, answer
          result := readJobLogs py s.handle answer } : JobLogRead).Misdirected py →
        ∃ exc, readJobLogs py s.handle answer = .error exc) := by
  cases answer with
  | error exc =>
      refine iff_of_true trivial ?_
      rintro ⟨response, headers, hanswer, -⟩
      cases hanswer
  | ok answer =>
      obtain ⟨response, headers⟩ := answer
      constructor
      · rintro hdirected ⟨response', headers', hanswer, hfields⟩
        cases hanswer
        cases hresult : readJobLogs py s.handle (.ok (response, headers)) with
        | error exc => exact ⟨exc, rfl⟩
        | ok chunk =>
            obtain ⟨hstream, hoffset⟩ := hdirected (by rw [← readJobLogs_ok, hresult]; rfl)
            exact absurd ⟨hstream, hoffset offset hphase⟩ hfields
      · intro hrefused hok
        by_contra hfields
        obtain ⟨exc, hexc⟩ := hrefused ⟨response, headers, rfl, fun hsame =>
          hfields ⟨hsame.1, fun offset' hphase' => by
            rw [hphase] at hphase'
            cases hphase'
            exact hsame.2⟩⟩
        rw [← readJobLogs_ok, hexc] at hok
        cases hok

/-- A read whose answer, if it is accepted, is for that request splices nothing. -/
theorem readLog_unspliced {offset : ℤ} {answer : Answer} {elapsed : ℚ}
    (hs : s.Unspliced py start) (hphase : s.phase = .reading offset)
    (hdirected : s.Directed py (.log answer elapsed)) :
    (s.readLog py offset answer elapsed).Unspliced py start := by
  have hoffset : offset = start + (logBytes s.yielded).length := hs.placed.at_phase hphase
  have hread := (directed_iff hphase).mp hdirected
  have hs' : ({ s with reads := (s.readLog py offset answer elapsed).reads } :
      Follower).Unspliced py start := by
    refine ⟨hs.contiguous, hs.placed, fun read hmem hmisdirected => ?_⟩
    rw [readLog_reads, List.mem_append, List.mem_singleton] at hmem
    rcases hmem with hmem | rfl
    · exact hs.refused read hmem hmisdirected
    · exact hread hmisdirected
  rw [readLog_reads] at hs'
  simp only [readLog]
  cases hresult : readJobLogs py s.handle answer with
  | error exc =>
      rw [hresult] at hs'
      exact ⟨hs'.contiguous, trivial, hs'.refused⟩
  | ok chunk =>
      rw [hresult] at hs'
      obtain ⟨response, headers, rfl, hdecodes⟩ := readJobLogs_decodes hresult
      obtain ⟨hstream, hfield⟩ := hdirected (by rw [← readJobLogs_ok, hresult]; rfl)
      have hsame := hdecodes.offset.symm.trans (hfield offset hphase)
      cases hsame
      have hchunk : (FollowPhase.asking chunk elapsed).At s.stream
          (start + (logBytes s.yielded).length) := by
        refine ⟨hdecodes.stream.symm.trans hstream, hoffset, ?_⟩
        rw [hdecodes.nextOffset, hoffset]
      simp only
      split
      · exact ⟨hs'.contiguous, hchunk, hs'.refused⟩
      · exact settle_unspliced hs' hchunk

/-- A step from a run that spliced nothing splices nothing iff it is directed. -/
theorem step_unspliced {input : FollowInput} (hs : s.Unspliced py start)
    (h : s.step py input = some s') : s'.Unspliced py start ↔ s.Directed py input := by
  rcases step_cases h with ⟨offset, answer, elapsed, hphase, rfl, rfl⟩ |
    ⟨chunk, elapsed, answer, hphase, rfl, rfl⟩ | ⟨nextOffset, delay, hphase, rfl, rfl⟩ |
    ⟨exc, rfl, rfl⟩
  · refine ⟨fun hs' => (directed_iff hphase).mpr ?_, readLog_unspliced hs hphase⟩
    refine hs'.refused _ ?_
    rw [readLog_reads]
    exact List.mem_append_right _ (List.mem_singleton_self _)
  · refine iff_of_true ?_ trivial
    simp only [readStatus]
    cases getJob py s.handle answer with
    | error exc => exact ⟨hs.contiguous, trivial, hs.refused⟩
    | ok record => exact settle_unspliced hs (hs.placed.at_phase hphase)
  · refine iff_of_true ⟨?_, ?_, ?_⟩ trivial
    · rw [proceed_stream, proceed_yielded]
      exact hs.contiguous
    · simp only [Placed]
      rw [proceed_yielded]
      exact proceed_at (hs.placed.at_phase hphase) delay _
    · rw [proceed_reads]
      exact hs.refused
  · exact iff_of_true ⟨hs.contiguous, trivial, hs.refused⟩ trivial

theorem mem_states (s : Follower) (inputs : List FollowInput) : s ∈ states py s inputs := by
  cases inputs with
  | nil => simp [states]
  | cons input rest =>
      simp only [states]
      split <;> simp

/-- A run splices nothing iff every step of it is directed. -/
theorem run_unspliced (hs : s.Unspliced py start) (inputs : List FollowInput) :
    (∀ s' ∈ states py s inputs, s'.Unspliced py start) ↔
      ∀ move ∈ moves py s inputs, move.1.Directed py move.2 := by
  induction inputs generalizing s with
  | nil => simpa [states, moves] using hs
  | cons input rest ih =>
      simp only [states, moves]
      cases hstep : s.step py input with
      | none => simpa using hs
      | some s' =>
          simp only [List.forall_mem_cons]
          constructor
          · rintro ⟨-, hrest⟩
            have hs' := hrest s' (mem_states s' rest)
            exact ⟨(step_unspliced hs hstep).mp hs', (ih hs').mp hrest⟩
          · rintro ⟨hdirected, hrest⟩
            have hs' := (step_unspliced hs hstep).mpr hdirected
            exact ⟨hs, (ih hs').mpr hrest⟩

end Follower

/-- `follow` starts at the requested offset with nothing yielded. -/
theorem follow_ok {h : JobHandle} {stream : String} {offset limit : ℤ} {pollSeconds : ℚ}
    {s : Follower} (hfollow : h.follow stream offset limit pollSeconds = .ok s) :
    s = {
      handle := h, stream, limit := max 1 limit, pollSeconds, phase := .reading (max 0 offset) } := by
  simp only [JobHandle.follow] at hfollow
  split at hfollow
  · cases hfollow
  · cases hfollow
    rfl

/-- Following a log splices nothing in any state of a run iff no accepted answer of the run is for
another stream or another offset. -/
theorem follow_unspliced_iff (py : Interpreter) (h : JobHandle) (stream : String)
    (offset limit : ℤ) (pollSeconds : ℚ) (s : Follower)
    (hfollow : h.follow stream offset limit pollSeconds = .ok s) (inputs : List FollowInput) :
    (∀ s' ∈ Follower.states py s inputs, s'.Unspliced py (max 0 offset)) ↔
      ∀ move ∈ Follower.moves py s inputs, move.1.Directed py move.2 := by
  rw [follow_ok hfollow]
  apply Follower.run_unspliced
  refine ⟨?_, ?_, ?_⟩
  · trivial
  · simp [Follower.Placed, FollowPhase.At, logBytes]
  · intro read hread
    cases hread

/-! ## A short log -/

/-- An interpreter that decodes two base64 texts. -/
def logInterpreter : Interpreter :=
  { Interpreter.ascii [] with
    b64decode := fun text => [("", []), ("YWI=", [97, 98])].lookup text }

/-- The record of a job that wrote four bytes and exited. -/
def exitedJobFields : Dict :=
  [("sandbox_id", .str "s1"), ("sandbox_generation", .int 1), ("job_id", .str "j1"),
    ("spec_sha256", .str ""), ("state", .str "exited"), ("exit_code", .int 0),
    ("stdout_bytes", .int 4)]

/-- Two bytes of its output. -/
def logFields (offset : ℤ) : Dict :=
  [("stream", .str "stdout"), ("offset", .int offset), ("next_offset", .int (offset + 2)),
    ("data", .str "YWI="), ("eof", .bool true), ("job", .dict exitedJobFields)]

def startedRecord : JobRecord where
  sandboxId := "s1"
  sandboxGeneration := 1
  jobId := "j1"
  specSha256 := ""
  state := "running"
  pid := 7
  startedAt := ""
  completedAt := ""
  exitCode := none
  signal := 0
  stdoutBytes := 0
  stderrBytes := 0
  stdoutTruncated := false
  stderrTruncated := false
  sequence := 0
  updatedAt := ""
  cursor := "0.0.0"
  cursorFromServer := true
  retryAfter := none

def j1Handle : JobHandle := ⟨"s1", "j1", startedRecord⟩

/-- `j1Handle.follow()`. -/
def j1Follower : Follower where
  handle := j1Handle
  stream := "stdout"
  limit := 1024 * 1024
  pollSeconds := 1
  phase := .reading 0

def Follower.finished (s : Follower) : Bool :=
  match s.phase with
  | .ended => true
  | _ => false

/-- The answer to a log read names what the generator asks for. -/
def Follower.names (py : Interpreter) (s : Follower) : FollowInput → Bool
  | .log (.ok (response, _)) _ =>
      (response.get "stream").toStr py == s.stream &&
        match s.phase, (response.get "offset").toInt py with
        | .reading offset, .ok named => named == offset
        | _, _ => false
  | _ => true

theorem Follower.directed_of_names {py : Interpreter} {s : Follower} {input : FollowInput}
    (h : s.names py input = true) : s.Directed py input := by
  match input with
  | .log (.ok (response, headers)) elapsed =>
      intro _
      simp only [names, Bool.and_eq_true, beq_iff_eq] at h
      obtain ⟨hstream, hoffset⟩ := h
      refine ⟨hstream, fun offset hphase => ?_⟩
      rw [hphase] at hoffset
      cases hnamed : (response.get "offset").toInt py with
      | error exc => simp [hnamed] at hoffset
      | ok named =>
          simp only [hnamed, beq_iff_eq] at hoffset
          rw [hoffset]
  | .log (.error exc) elapsed => trivial
  | .status answer => trivial
  | .next => trivial
  | .interrupt exc => trivial

/-- The first two bytes, from a gateway that sends no record. -/
def olderFields : Dict :=
  [("stream", .str "stdout"), ("offset", .int 0), ("next_offset", .int 2), ("data", .str "YWI="),
    ("eof", .bool true)]

/-- They are read with the status read behind them, and the next read finds the rest. -/
def severalReads : List FollowInput :=
  [.log (.ok (olderFields, [])) 0, .status (.ok ([("job", .dict exitedJobFields)], [])), .next,
    .log (.ok (logFields 2, [])) 0, .next]

/-- In such a run nothing is spliced, up to the end of the log. -/
theorem follow_unspliced_several :
    (∃ s ∈ Follower.states logInterpreter j1Follower severalReads,
      s.finished = true ∧ logBytes s.yielded = [97, 98, 97, 98]) ∧
      ∀ s ∈ Follower.states logInterpreter j1Follower severalReads,
        s.Unspliced logInterpreter 0 := by
  constructor
  · have hrun : (true, [97, 98, 97, 98]) ∈
        (Follower.states logInterpreter j1Follower severalReads).map
          fun s => (s.finished, logBytes s.yielded) := by
      decide +kernel
    obtain ⟨s, hs, hview⟩ := List.mem_map.mp hrun
    exact ⟨s, hs, congrArg Prod.fst hview, congrArg Prod.snd hview⟩
  · apply (follow_unspliced_iff logInterpreter j1Handle "stdout" 0 (1024 * 1024) 1 j1Follower rfl
      severalReads).mpr
    have hnames : (Follower.moves logInterpreter j1Follower severalReads).all
        (fun move => move.1.names logInterpreter move.2) = true := by decide +kernel
    exact fun move hmove => Follower.directed_of_names (List.all_eq_true.mp hnames move hmove)

/-- Asked for the log from its start, the gateway answers with bytes 2 and 3; they are yielded, and
the iteration ends. -/
theorem follow_splices :
    j1Handle.follow "stdout" 0 (1024 * 1024) 1 = .ok j1Follower ∧
      ∃ s ∈ Follower.states logInterpreter j1Follower [.log (.ok (logFields 2, [])) 0, .next],
        s.finished = true ∧ logBytes s.yielded = [97, 98] ∧ ¬ s.Unspliced logInterpreter 0 := by
  refine ⟨rfl, ?_⟩
  have hrun : (true, [97, 98], [2]) ∈
      (Follower.states logInterpreter j1Follower [.log (.ok (logFields 2, [])) 0, .next]).map
        fun s => (s.finished, logBytes s.yielded, s.yielded.map JobLogChunk.offset) := by
    decide +kernel
  obtain ⟨s, hs, hview⟩ := List.mem_map.mp hrun
  simp only [Prod.mk.injEq] at hview
  obtain ⟨hfinished, hbytes, hoffsets⟩ := hview
  refine ⟨s, hs, hfinished, hbytes, fun hunspliced => ?_⟩
  have hcontiguous := hunspliced.contiguous
  cases hyielded : s.yielded with
  | nil =>
      rw [hyielded] at hoffsets
      cases hoffsets
  | cons chunk rest =>
      rw [hyielded] at hoffsets hcontiguous
      have hfirst : chunk.offset = 2 := (List.cons.inj hoffsets).1
      rw [hcontiguous.2.1] at hfirst
      cases hfirst

end UcloudSandboxes.Client
