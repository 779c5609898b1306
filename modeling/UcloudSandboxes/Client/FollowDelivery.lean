import UcloudSandboxes.Client.Follow
import UcloudSandboxes.Lib.Paging
import Mathlib.Logic.Relation

/-!
# What `follow` delivers

A `Session` is a job that may still write, the generator that follows one stream of it, and the
bytes the caller received from earlier generators. The job moves on its own, between any two inputs
of the generator; an answer tells of the job as it was at some moment up to now, so a gateway may
answer from a cache. After an exception the caller may call `follow` again, behind what it received.

Answers that `read_job_logs` or `get_job` refuse, and errors, are never constrained.

## Main results

* `follow_delivers`: the bytes received are always a prefix of the log behind the offset, and all of
  it when an iteration ends.
-/
namespace UcloudSandboxes.Client
open Python Lib

/-- A job, as far as its log reads can tell. -/
structure Job where
  stdout : Bytes
  stderr : Bytes
  terminal : Bool

namespace Job

def log (job : Job) (stream : String) : Bytes :=
  if stream = "stdout" then job.stdout else job.stderr

/-- A job that is not terminal writes, or ends. -/
inductive Step : Job → Job → Prop
  | writeStdout (job : Job) (data : Bytes) (h : job.terminal = false) :
      Step job { job with stdout := job.stdout ++ data }
  | writeStderr (job : Job) (data : Bytes) (h : job.terminal = false) :
      Step job { job with stderr := job.stderr ++ data }
  | finish (job : Job) (h : job.terminal = false) : Step job { job with terminal := true }

/-- What becomes of a job. -/
abbrev Reaches : Job → Job → Prop := Relation.ReflTransGen Step

theorem Step.log_prefix {job job' : Job} (h : Step job job') (stream : String) :
    job.log stream <+: job'.log stream := by
  simp only [log]
  cases h with
  | writeStdout data h =>
      split
      · exact List.prefix_append _ _
      · exact List.prefix_rfl
  | writeStderr data h =>
      split
      · exact List.prefix_rfl
      · exact List.prefix_append _ _
  | finish h => exact List.prefix_rfl

theorem Step.running {job job' : Job} (h : Step job job') : job.terminal = false := by
  cases h <;> assumption

/-- A log is only appended to. -/
theorem Reaches.log_prefix {job job' : Job} (h : Reaches job job') (stream : String) :
    job.log stream <+: job'.log stream := by
  induction h with
  | refl => exact List.prefix_rfl
  | tail _ hstep ih => exact ih.trans (hstep.log_prefix stream)

/-- Nothing becomes of a terminal job. -/
theorem Reaches.eq_of_terminal {job job' : Job} (h : Reaches job job')
    (hterminal : job.terminal = true) : job' = job := by
  induction h with
  | refl => rfl
  | tail _ hstep ih =>
      have hrunning := hstep.running
      rw [ih, hterminal] at hrunning
      cases hrunning

end Job

/-- A record that says the job is terminal counts the bytes of its final log. -/
def JobRecord.Conforms (job : Job) (stream : String) (record : JobRecord) : Prop :=
  record.terminal = true →
    job.terminal = true ∧ record.streamBytes stream = (job.log stream).length

/-- A chunk holds bytes of the stream from the offset on, any number of them. -/
structure JobLogChunk.Conforms (job : Job) (stream : String) (offset : ℤ) (chunk : JobLogChunk) :
    Prop where
  stream_eq : chunk.stream = stream
  offset_eq : chunk.offset = offset
  data : NextPage (job.log stream) offset.toNat chunk.data
  record : ∀ record, chunk.job = some record → record.Conforms job stream

/-- A record of an earlier moment conforms now. -/
theorem JobRecord.Conforms.mono {served job : Job} {stream : String} {record : JobRecord}
    (h : record.Conforms served stream) (hreaches : served.Reaches job) :
    record.Conforms job stream := by
  intro hterminal
  obtain ⟨hended, hbytes⟩ := h hterminal
  rw [hreaches.eq_of_terminal hended]
  exact ⟨hended, hbytes⟩

/-- An accepted answer conforms to the job as it was when the answer was made. -/
def FollowInput.Conforms (py : Interpreter) (job : Job) (s : Follower) : FollowInput → Prop
  | .log answer _ => ∀ chunk offset, readJobLogs py s.handle answer = .ok chunk →
      s.phase = .reading offset →
        ∃ served : Job, served.Reaches job ∧ chunk.Conforms served s.stream offset
  | .status answer => ∀ record, getJob py s.handle answer = .ok record →
      ∃ served : Job, served.Reaches job ∧ record.Conforms served s.stream
  | _ => True

/-- A job, the generator that follows it, and what was received before this generator. -/
structure Session where
  job : Job
  follower : Follower
  earlier : Bytes := []

namespace Session

/-- The log that is followed. -/
def log (s : Session) : Bytes := s.job.log s.follower.stream

/-- All the bytes the caller received. -/
def received (s : Session) : Bytes := s.earlier ++ logBytes s.follower.yielded

/-- The job writes or ends; the generator takes an input; or the caller follows the log again behind
what it received. -/
inductive Step (py : Interpreter) (start : ℕ) : Session → Session → Prop
  | job {s : Session} {job' : Job} (h : s.job.Step job') : Step py start s { s with job := job' }
  | follow {s : Session} {input : FollowInput} {follower' : Follower}
      (hconforms : input.Conforms py s.job s.follower)
      (h : s.follower.step py input = some follower') :
      Step py start s { s with follower := follower' }
  | resume {s : Session} {exc : Raised} {handle : JobHandle} {limit : ℤ} {pollSeconds : ℚ}
      {follower' : Follower} (hraised : s.follower.phase = .raised exc)
      (h : handle.follow s.follower.stream (start + s.received.length) limit pollSeconds =
        .ok follower') :
      Step py start s { job := s.job, follower := follower', earlier := s.received }

/-- A first call of `follow`, on a job in any state. -/
def Begins (start : ℕ) (s : Session) : Prop :=
  s.earlier = [] ∧ ∃ (handle : JobHandle) (stream : String) (limit : ℤ) (pollSeconds : ℚ),
    handle.follow stream start limit pollSeconds = .ok s.follower

/-- What the caller received is a prefix of the log behind the offset, and so is what this generator
yielded, of the log behind what it was to continue; both are all of it when the iteration has
ended. -/
structure ExactlyOnce (start : ℕ) (s : Session) : Prop where
  received : s.received <+: s.log.drop start
  continues : logBytes s.follower.yielded <+: s.log.drop (start + s.earlier.length)
  ended : s.follower.finished = true →
    s.job.terminal = true ∧ s.received = s.log.drop start ∧
      logBytes s.follower.yielded = s.log.drop (start + s.earlier.length)

/-- The job has ended, and its log has no more than `cursor` bytes. -/
structure Done (job : Job) (stream : String) (cursor : ℕ) : Prop where
  terminal : job.terminal = true
  length_le : (job.log stream).length ≤ cursor

/-- The chunk holds the bytes of the log behind the cursor, and the record that decides what comes
next is of the job. -/
structure Pending (job : Job) (stream : String) (cursor : ℕ) (chunk : JobLogChunk)
    (record : Option JobRecord) : Prop where
  stream_eq : chunk.stream = stream
  nextOffset : chunk.nextOffset = cursor + chunk.data.length
  data : NextPage (job.log stream) cursor chunk.data
  record : ∀ r, chunk.job.or record = some r → r.Conforms job stream

/-- What holds where the generator stands, with so many bytes of the log received. -/
def PhaseOk (job : Job) (stream : String) (cursor : ℕ) : FollowPhase → Prop
  | .reading offset => offset = cursor
  | .asking chunk _ => chunk.job = none ∧ Pending job stream cursor chunk none
  | .yielding nextOffset delay => nextOffset = cursor ∧ (delay = none → Done job stream cursor)
  | .ended => Done job stream cursor
  | .raised _ => True

structure Exact (start : ℕ) (s : Session) : Prop where
  page : NextPage s.log start s.received
  phase : PhaseOk s.job s.follower.stream (start + s.received.length) s.follower.phase

variable {py : Interpreter} {start : ℕ} {s s' : Session}

theorem Exact.phase_at {phase : FollowPhase} (h : s.Exact start)
    (hphase : s.follower.phase = phase) :
    PhaseOk s.job s.follower.stream (start + s.received.length) phase := by
  rw [← hphase]
  exact h.phase

/-- An exact session delivers exactly once. -/
theorem Exact.exactlyOnce (h : s.Exact start) : s.ExactlyOnce start := by
  have hcontinues := (nextPage_append.mp h.page).2
  refine ⟨h.page, hcontinues, fun hfinished => ?_⟩
  have hdone : Done s.job s.follower.stream (start + s.received.length) := by
    cases hs : s.follower.phase with
    | ended => exact h.phase_at hs
    | _ => simp [Follower.finished, hs] at hfinished
  have hlength := hdone.length_le
  refine ⟨hdone.terminal, h.page.eq_drop hlength, hcontinues.eq_drop ?_⟩
  rw [received, List.length_append] at hlength
  simp only [log]
  omega

/-- What the job does meanwhile changes nothing for the generator. -/
theorem PhaseOk.job {job job' : Job} {stream : String} {cursor : ℕ} {phase : FollowPhase}
    (h : PhaseOk job stream cursor phase) (hstep : job.Step job') :
    PhaseOk job' stream cursor phase := by
  have hrunning := hstep.running
  have hdone (hd : Done job stream cursor) : Done job' stream cursor := by
    rw [hd.terminal] at hrunning
    cases hrunning
  cases phase with
  | reading offset => exact h
  | asking chunk elapsed =>
      obtain ⟨hneeded, hpending⟩ := h
      refine ⟨hneeded, hpending.stream_eq, hpending.nextOffset,
        hpending.data.mono (hstep.log_prefix stream), fun r hr => ?_⟩
      exact (hpending.record r hr).mono (.single hstep)
  | yielding nextOffset delay => exact ⟨h.1, fun hnone => hdone (h.2 hnone)⟩
  | ended => exact hdone h
  | raised exc => trivial

/-- A chunk without a next read ends the log. -/
theorem Pending.done {job : Job} {stream : String} {cursor : ℕ} {chunk : JobLogChunk}
    {record : Option JobRecord} {requested elapsed poll : ℚ}
    (h : Pending job stream cursor chunk record)
    (hdelay : jobReadDelay (.log chunk record) requested elapsed poll = .ok none) :
    Done job stream (cursor + chunk.data.length) := by
  obtain ⟨r, hr, hterminal, hbytes⟩ := jobReadDelay_log_none hdelay
  obtain ⟨hended, hlength⟩ := h.record r hr hterminal
  rw [h.stream_eq, hlength, h.nextOffset] at hbytes
  exact ⟨hended, by omega⟩

section
variable {job : Job} {follower : Follower} {earlier : Bytes}

/-- A pass that has its record keeps a session exact. -/
theorem settle_exact {chunk : JobLogChunk} {elapsed : ℚ} {record : Option JobRecord}
    (hpage : NextPage (job.log follower.stream) start (earlier ++ logBytes follower.yielded))
    (hpending : Pending job follower.stream
      (start + (earlier ++ logBytes follower.yielded).length) chunk record) :
    Exact start ⟨job, follower.settle chunk elapsed record, earlier⟩ := by
  have hnext := hpending.nextOffset
  obtain ⟨handle, -, -, ⟨exc, hsettle⟩ | ⟨delay, hdelay, ⟨hdata, hsettle⟩ | ⟨hdata, hsettle⟩⟩⟩ :=
    follower.settle_cases chunk elapsed record
  · rw [hsettle]
    exact ⟨hpage, trivial⟩
  · rw [hsettle]
    rw [hdata, List.length_nil, Int.natCast_zero, Int.add_zero] at hnext
    cases delay with
    | none =>
        have hdone := hpending.done hdelay
        rw [hdata] at hdone
        exact ⟨hpage, hdone⟩
    | some delay => exact ⟨hpage, hnext⟩
  · rw [hsettle]
    have hreceived : earlier ++ logBytes (follower.yielded ++ [chunk]) =
        earlier ++ logBytes follower.yielded ++ chunk.data := by
      rw [logBytes_append, List.append_assoc]
    have hcursor : start + (earlier ++ logBytes (follower.yielded ++ [chunk])).length =
        start + (earlier ++ logBytes follower.yielded).length + chunk.data.length := by
      rw [hreceived, List.length_append, Nat.add_assoc]
    refine ⟨?_, ?_, ?_⟩
    · show NextPage _ start (earlier ++ logBytes (follower.yielded ++ [chunk]))
      rw [hreceived]
      exact nextPage_append.mpr ⟨hpage, hpending.data⟩
    · show chunk.nextOffset = _
      simp only [received]
      rw [hcursor, hnext]
      omega
    · rintro rfl
      simp only [received]
      rw [hcursor]
      exact hpending.done hdelay

end

/-- A log read keeps a session exact, if its answer conforms. -/
theorem readLog_exact {offset : ℤ} {answer : Answer} {elapsed : ℚ} (h : s.Exact start)
    (hphase : s.follower.phase = .reading offset)
    (hconforms : (FollowInput.log answer elapsed).Conforms py s.job s.follower) :
    Exact start { s with follower := s.follower.readLog py offset answer elapsed } := by
  have hoffset : offset = ↑(start + s.received.length) := h.phase_at hphase
  simp only [Follower.readLog]
  cases hresult : readJobLogs py s.follower.handle answer with
  | error exc => exact ⟨h.page, trivial⟩
  | ok chunk =>
      obtain ⟨served, hserved, hchunk⟩ := hconforms chunk offset hresult hphase
      have hpending (record : Option JobRecord)
          (hrecord : ∀ r, chunk.job.or record = some r → chunk.job = some r) :
          Pending s.job s.follower.stream (start + s.received.length) chunk record := by
        refine ⟨hchunk.stream_eq, ?_, ?_, fun r hr => ?_⟩
        · obtain ⟨response, headers, -, hdecodes⟩ := Follower.readJobLogs_decodes hresult
          rw [hdecodes.nextOffset, hchunk.offset_eq, hoffset]
        · have hdata := hchunk.data.mono (hserved.log_prefix s.follower.stream)
          rw [hoffset] at hdata
          exact hdata
        · exact (hchunk.record r (hrecord r hr)).mono hserved
      simp only
      split
      · rename_i hneeds
        simp only [jobLogNeedsStatus] at hneeds
        simp only [Bool.and_eq_true, Option.isNone_iff_eq_none] at hneeds
        exact ⟨h.page, hneeds.1, hpending none fun r hr => by simpa using hr⟩
      · exact settle_exact h.page (hpending chunk.job fun r hr => by simpa using hr)

/-- A status read keeps a session exact, if its answer conforms. -/
theorem readStatus_exact {chunk : JobLogChunk} {answer : Answer} {elapsed : ℚ}
    (h : s.Exact start) (hphase : s.follower.phase = .asking chunk elapsed)
    (hconforms : (FollowInput.status answer).Conforms py s.job s.follower) :
    Exact start { s with follower := s.follower.readStatus py chunk elapsed answer } := by
  obtain ⟨hneeded, hpending⟩ := h.phase_at hphase
  simp only [Follower.readStatus]
  cases hresult : getJob py s.follower.handle answer with
  | error exc => exact ⟨h.page, trivial⟩
  | ok record =>
      obtain ⟨served, hserved, hrecord⟩ := hconforms record hresult
      refine settle_exact h.page
        ⟨hpending.stream_eq, hpending.nextOffset, hpending.data, fun r hr => ?_⟩
      rw [hneeded] at hr
      cases hr
      exact hrecord.mono hserved

/-- The `yield` keeps a session exact. -/
theorem proceed_exact {nextOffset : ℤ} {delay : Option ℚ} (h : s.Exact start)
    (hphase : s.follower.phase = .yielding nextOffset delay) :
    Exact start { s with follower := s.follower.proceed nextOffset delay } := by
  obtain ⟨hoffset, hdone⟩ := h.phase_at hphase
  cases delay with
  | none => exact ⟨h.page, hdone rfl⟩
  | some delay => exact ⟨h.page, hoffset⟩

/-- A generator that starts behind the bytes received makes an exact session. -/
theorem follow_exact {job : Job} {handle : JobHandle} {stream : String} {limit : ℤ}
    {pollSeconds : ℚ} {follower : Follower} {earlier : Bytes}
    (hpage : NextPage (job.log stream) start earlier)
    (hfollow : handle.follow stream (start + earlier.length) limit pollSeconds = .ok follower) :
    Exact start ⟨job, follower, earlier⟩ := by
  rw [follow_ok hfollow]
  refine ⟨?_, ?_⟩
  · show NextPage (job.log stream) start (earlier ++ [])
    rw [List.append_nil]
    exact hpage
  · show max 0 ((start : ℤ) + earlier.length) = ↑(start + (earlier ++ []).length)
    rw [List.append_nil]
    omega

/-- Every step keeps a session exact. -/
theorem Exact.step (h : s.Exact start) (hstep : Step py start s s') : s'.Exact start := by
  cases hstep with
  | job hjob => exact ⟨h.page.mono (hjob.log_prefix _), h.phase.job hjob⟩
  | follow hconforms hfollower =>
      rcases Follower.step_cases hfollower with ⟨offset, answer, elapsed, hphase, rfl, rfl⟩ |
        ⟨chunk, elapsed, answer, hphase, rfl, rfl⟩ | ⟨nextOffset, delay, hphase, rfl, rfl⟩ |
        ⟨exc, rfl, rfl⟩
      · exact readLog_exact h hphase hconforms
      · exact readStatus_exact h hphase hconforms
      · exact proceed_exact h hphase
      · exact ⟨h.page, trivial⟩
  | resume hraised hfollow => exact follow_exact h.page hfollow

/-- Every run keeps a session exact. -/
theorem Exact.run (h : s.Exact start) (hrun : Relation.ReflTransGen (Step py start) s s') :
    s'.Exact start := by
  induction hrun with
  | refl => exact h
  | tail _ hstep ih => exact ih.step hstep

/-- The stream stays the one that was asked for. -/
theorem run_stream (hrun : Relation.ReflTransGen (Step py start) s s') :
    s'.follower.stream = s.follower.stream := by
  induction hrun with
  | refl => rfl
  | tail _ hstep ih =>
      cases hstep with
      | job hjob => exact ih
      | follow hconforms hfollower => exact (Follower.step_stream hfollower).trans ih
      | resume hraised hfollow =>
          rw [follow_ok hfollow]
          exact ih

end Session

/-- Over every run of the job and of the generators that follow one stream of it, with every mix of
conforming answers and errors, the log of that stream is delivered exactly once. -/
theorem follow_delivers (py : Interpreter) (start : ℕ) (s s' : Session) (hbegins : s.Begins start)
    (hrun : Relation.ReflTransGen (Session.Step py start) s s') :
    s'.follower.stream = s.follower.stream ∧ s'.ExactlyOnce start := by
  refine ⟨Session.run_stream hrun, ?_⟩
  obtain ⟨hearlier, handle, stream, limit, pollSeconds, hfollow⟩ := hbegins
  obtain ⟨job, follower, earlier⟩ := s
  cases hearlier
  have hexact : Session.Exact start ⟨job, follower, []⟩ :=
    Session.follow_exact (nextPage_nil _ _) (by simpa using hfollow)
  exact (hexact.run hrun).exactlyOnce

/-- The record of the job that wrote four bytes and exited. -/
def exitedRecord : JobRecord :=
  { startedRecord with
    state := "exited", pid := 0, exitCode := some 0, stdoutBytes := 4, cursor := "0.4.0"
    cursorFromServer := false }

/-- Its first two bytes, without a record. -/
def firstChunk : JobLogChunk where
  stream := "stdout"
  offset := 0
  nextOffset := 2
  data := [97, 98]
  eof := true
  job := none
  retryAfter := none

/-- And the last two, with it. -/
def lastChunk : JobLogChunk :=
  { firstChunk with offset := 2, nextOffset := 4, job := some exitedRecord }

theorem readJobLogs_firstChunk :
    readJobLogs logInterpreter j1Handle (.ok (olderFields, [])) = .ok firstChunk := rfl

theorem readJobLogs_lastChunk :
    readJobLogs logInterpreter j1Handle (.ok (logFields 2, [])) = .ok lastChunk := rfl

/-- The status read of the older gateway. -/
def exitedStatus : Answer := .ok ([("job", .dict exitedJobFields)], [])

theorem getJob_exitedStatus : getJob logInterpreter j1Handle exitedStatus = .ok exitedRecord := rfl

/-- The job has written two of its four bytes, and its log is followed from the start. -/
def writingSession : Session where
  job := ⟨[97, 98], [], false⟩
  follower := j1Follower

/-- Two bytes are read, and the job writes the others and exits before its status is asked for. -/
def askingSession : Session where
  job := ⟨[97, 98, 97, 98], [], true⟩
  follower := j1Follower.readLog logInterpreter 0 (.ok (olderFields, [])) 0

/-- A read whose connection is lost. -/
def lostAnswer : Answer := .error (.api { message := "node-agent request failed: timed out" })

/-- The two bytes are yielded, and the next read fails. -/
def lostSession : Session :=
  { askingSession with
    follower :=
      let yielding := askingSession.follower.readStatus logInterpreter firstChunk 0 exitedStatus
      (yielding.proceed 2 (some 0)).readLog logInterpreter 2 lostAnswer 0 }

/-- `follow` is called again behind them, and reads the rest. -/
def resumedSession : Session where
  job := askingSession.job
  follower :=
    (({ j1Follower with phase := .reading 2 } : Follower).readLog logInterpreter 2
      (.ok (logFields 2, [])) 0).proceed 4 none
  earlier := [97, 98]

section
open Session

/-- The job writes and exits while its first bytes are on their way. -/
theorem writing_to_asking :
    Relation.ReflTransGen (Step logInterpreter 0) writingSession askingSession := by
  have hconforms : (FollowInput.log (.ok (olderFields, [])) 0).Conforms logInterpreter
      writingSession.job writingSession.follower := by
    intro chunk offset hchunk hphase
    cases hphase
    cases readJobLogs_firstChunk.symm.trans hchunk
    exact ⟨writingSession.job, .refl, rfl, rfl, List.prefix_rfl,
      fun record hrecord => nomatch hrecord⟩
  have hread : Step logInterpreter 0 writingSession
      { writingSession with follower := askingSession.follower } := .follow hconforms rfl
  have hwrite : Step logInterpreter 0 { writingSession with follower := askingSession.follower }
      { askingSession with job := { askingSession.job with terminal := false } } :=
    .job (.writeStdout _ [97, 98] rfl)
  have hfinish : Step logInterpreter 0
      { askingSession with job := { askingSession.job with terminal := false } } askingSession :=
    .job (.finish _ rfl)
  exact .tail (.tail (.single hread) hwrite) hfinish

/-- The status read lets the first bytes through, and the next read fails. -/
theorem asking_to_lost :
    Relation.ReflTransGen (Step logInterpreter 0) askingSession lostSession := by
  have hconforms : (FollowInput.status exitedStatus).Conforms logInterpreter
      askingSession.job askingSession.follower := by
    intro record hrecord
    cases getJob_exitedStatus.symm.trans hrecord
    exact ⟨askingSession.job, .refl, fun _ => ⟨rfl, rfl⟩⟩
  let yielding := askingSession.follower.readStatus logInterpreter firstChunk 0 exitedStatus
  have hstatus : Step logInterpreter 0 askingSession { askingSession with follower := yielding } :=
    .follow hconforms rfl
  have hnext : Step logInterpreter 0 { askingSession with follower := yielding }
      { askingSession with follower := yielding.proceed 2 (some 0) } :=
    .follow (show FollowInput.next.Conforms _ _ _ from trivial) rfl
  have hlost : (FollowInput.log lostAnswer 0).Conforms logInterpreter askingSession.job
      (yielding.proceed 2 (some 0)) := fun chunk offset hchunk => nomatch hchunk
  exact .tail (.tail (.single hstatus) hnext) (.follow hlost rfl)

/-- The second `follow` begins behind what was received, and reads to the end. -/
theorem lost_to_resumed :
    Relation.ReflTransGen (Step logInterpreter 0) lostSession resumedSession := by
  let reading : Follower := { j1Follower with phase := .reading 2 }
  have hfollow : j1Handle.follow "stdout" (((0 : ℕ) : ℤ) + lostSession.received.length)
      (1024 * 1024) 1 = .ok reading := rfl
  have hresume : Step logInterpreter 0 lostSession ⟨lostSession.job, reading, [97, 98]⟩ :=
    .resume rfl hfollow
  have hconforms : (FollowInput.log (.ok (logFields 2, [])) 0).Conforms logInterpreter
      lostSession.job reading := by
    intro chunk offset hchunk hphase
    cases hphase
    cases readJobLogs_lastChunk.symm.trans hchunk
    refine ⟨lostSession.job, .refl, rfl, rfl, List.prefix_rfl, ?_⟩
    intro record hrecord
    cases hrecord
    exact fun _ => ⟨rfl, rfl⟩
  have hread : Step logInterpreter 0 ⟨lostSession.job, reading, [97, 98]⟩
      ⟨lostSession.job, reading.readLog logInterpreter 2 (.ok (logFields 2, [])) 0, [97, 98]⟩ :=
    .follow hconforms rfl
  have hend : Step logInterpreter 0
      ⟨lostSession.job, reading.readLog logInterpreter 2 (.ok (logFields 2, [])) 0, [97, 98]⟩
      resumedSession :=
    .follow (show FollowInput.next.Conforms _ _ _ from trivial) rfl
  exact .tail (.tail (.single hresume) hread) hend

end

/-- The log is delivered over a write, a status read, a lost connection and a second `follow`. -/
theorem follow_delivers_resumed :
    resumedSession.received = [97, 98, 97, 98] ∧ resumedSession.follower.finished = true ∧
      resumedSession.follower.stream = "stdout" ∧ resumedSession.ExactlyOnce 0 := by
  have hbegins : writingSession.Begins 0 := ⟨rfl, j1Handle, "stdout", 1024 * 1024, 1, rfl⟩
  obtain ⟨hstream, hdelivered⟩ := follow_delivers logInterpreter 0 writingSession resumedSession
    hbegins (writing_to_asking.trans (asking_to_lost.trans lost_to_resumed))
  exact ⟨rfl, rfl, hstream, hdelivered⟩

end UcloudSandboxes.Client
