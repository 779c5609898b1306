import UcloudSandboxes.Lib.Crew
import UcloudSandboxes.Http.Response

/-!
# The connection pool

`_ConnectionPool`, `_PooledResponse` and `open_reusing`, for any number of requests at once in one
process. A step is what one request does between two points where another one could notice: a
critical section of the pool, a clock reading, an exchange on a connection. What the clock shows,
what `select` says of a socket, whether a connection is refused, how an exchange ends and what
arrives of a body are left open.

A connection is known by its place in the list of the connections that were opened. `PoolAct` is the
step; the lemmas about it say what of the pool a step changes, and on whose behalf.
-/
namespace UcloudSandboxes.Http
open Lib

universe u

/-! ## Responses of `http.client` -/

/-- What is left of a body, by its framing. -/
inductive Framing
  /-- The answer to a `HEAD` request. -/
  | head
  /-- So many bytes of the declared length; none where the status allows no body. -/
  | sized (length : ℕ)
  /-- Chunks, the last of which has been read or not. -/
  | chunked (ended : Bool)
  /-- Everything until the peer closes, which it has done or not. -/
  | untilClose (ended : Bool)
  deriving DecidableEq

/-- `http.client.HTTPResponse`. -/
structure HttpResponse where
  status : ℤ
  /-- `fp is not None`. -/
  isOpen : Bool
  willClose : Bool
  framing : Framing
  deriving DecidableEq

/-- What the stream brings to one read. What does not fit the framing changes nothing. -/
inductive Arrival
  /-- At most so many bytes, and fewer than were asked for only at the end of the stream. -/
  | bytes (n : ℕ)
  /-- The last chunk, and the trailer. -/
  | lastChunk
  /-- A line for the size of a chunk that is no number, as the empty line at the end of the stream,
  or that reads as zero because the stream ends within it. -/
  | badChunkSize
  | raised

namespace HttpResponse

/-- `status == NO_CONTENT or status == NOT_MODIFIED or 100 <= status < 200`. -/
def bodiless (status : ℤ) : Bool :=
  status == 204 || status == 304 || decide (100 ≤ status ∧ status < 200)

/-- `begin`, for the first answer whose status is not 100: a status may allow no body, and a body
without a declared end makes the connection close. -/
def begin (status : ℤ) (framing : Framing) (checkClose : Bool) : HttpResponse :=
  let framing := match framing with
    | .sized _ | .untilClose _ => if bodiless status then .sized 0 else framing
    | .head | .chunked _ => framing
  { status
    isOpen := true
    willClose := match framing with
      | .untilClose _ => true
      | _ => checkClose
    framing }

/-- A status such as 103 announces the answer to the request, which is still to come. -/
def interim (r : HttpResponse) : Bool := decide (100 ≤ r.status ∧ r.status < 200)

/-- `read(amt)`. -/
def read (r : HttpResponse) (amt : Option ℕ) (arrival : Arrival) : HttpResponse :=
  if !r.isOpen then r
  else match r.framing, arrival with
    | .head, _ => { r with isOpen := false }
    | .chunked _, .lastChunk => { r with isOpen := false, framing := .chunked true }
    | .chunked _, .badChunkSize => { r with isOpen := false }
    | .sized length, .bytes n =>
        match amt with
        | some amt =>
            let wanted := min amt length
            let got := min n wanted
            -- an empty read closes, whatever the declared length says
            if got = 0 ∧ wanted ≠ 0 then { r with isOpen := false }
            else { r with isOpen := length - got != 0, framing := .sized (length - got) }
        | none =>
            -- `IncompleteRead` closes too
            { r with isOpen := false, framing := .sized (length - min n length) }
    | .untilClose _, .bytes n =>
        match amt with
        | some amt =>
            if min n amt = 0 ∧ amt ≠ 0 then { r with isOpen := false, framing := .untilClose true }
            else r
        | none => { r with isOpen := false, framing := .untilClose true }
    | _, _ => r

/-- The answer is that to the request, and nothing is left of its body. -/
def Consumed (r : HttpResponse) : Prop :=
  r.interim = false ∧
    match r.framing with
    | .head => True
    | .sized length => length = 0
    | .chunked ended => ended = true
    | .untilClose ended => ended = true

/-- The body does not end before its framing says so: a read of declared bytes brings some, one of
all of them brings all, and the size of a chunk is a number. And what is read to its end is the
answer to the request. -/
def Prompt (r : HttpResponse) (amt : Option ℕ) (arrival : Arrival) : Prop :=
  match r.framing, arrival with
  | .head, _ | .untilClose _, .bytes _ | .chunked _, .lastChunk => r.interim = false
  | .sized length, .bytes n => r.interim = false ∧
      match amt with
      | some amt => amt = 0 ∨ length = 0 ∨ 0 < n
      | none => length ≤ n
  | .chunked _, .badChunkSize => False
  | _, _ => True

@[simp] theorem status_read (r : HttpResponse) (amt : Option ℕ) (arrival : Arrival) :
    (r.read amt arrival).status = r.status := by
  simp only [read]
  grind

@[simp] theorem interim_read (r : HttpResponse) (amt : Option ℕ) (arrival : Arrival) :
    (r.read amt arrival).interim = r.interim := by
  simp only [interim, status_read]

@[simp] theorem willClose_read (r : HttpResponse) (amt : Option ℕ) (arrival : Arrival) :
    (r.read amt arrival).willClose = r.willClose := by
  simp only [read]
  grind

/-- A response that is not closed by its last byte is closed by a read before it only if the body
ends early. -/
theorem consumed_read {r : HttpResponse} {amt : Option ℕ} {arrival : Arrival}
    (hprompt : r.isOpen = true → r.Prompt amt arrival) (h : r.isOpen = false → r.Consumed)
    (hclosed : (r.read amt arrival).isOpen = false) : (r.read amt arrival).Consumed := by
  obtain ⟨status, isOpen, willClose, framing⟩ := r
  cases isOpen with
  | false => exact h rfl
  | true =>
      have hp := hprompt rfl
      refine ⟨?_, ?_⟩
      · rw [interim_read]
        cases framing with
        | head => exact hp
        | sized length =>
            cases arrival with
            | bytes n => exact hp.1
            | _ => cases hclosed
        | chunked ended =>
            cases arrival with
            | lastChunk => exact hp
            | badChunkSize => exact hp.elim
            | _ => cases hclosed
        | untilClose ended =>
            cases arrival with
            | bytes n => exact hp
            | _ => cases hclosed
      · cases framing with
        | head => trivial
        | sized length =>
            cases arrival with
            | bytes n =>
                have hbytes := hp.2
                cases amt <;> simp only [read] at hclosed hbytes ⊢ <;> grind
            | _ => cases hclosed
        | chunked ended =>
            cases arrival with
            | lastChunk => rfl
            | badChunkSize => exact hp.elim
            | _ => cases hclosed
        | untilClose ended =>
            cases arrival with
            | bytes n => cases amt <;> simp only [read] at hclosed ⊢ <;> grind
            | _ => cases hclosed

end HttpResponse

/-! ## Connections and the pool -/

/-- The key of the pool: scheme, host and port. -/
structure Origin where
  scheme : String
  host : String
  port : ℕ
  deriving DecidableEq

/-- `http.client.HTTPConnection`. -/
structure Connection where
  origin : Origin
  /-- `sock is None`. -/
  closed : Bool
  /-- The last response that was read from it, as its reader left it. -/
  last : Option HttpResponse := none

/-- The configuration of a `_ConnectionPool`. -/
structure ConnectionPool where
  idleSeconds : ℚ
  maxIdle : ℕ

/-- `_POOL`. -/
def pool : ConnectionPool where
  idleSeconds := 5
  maxIdle := 16

/-- What the requests of a process share. -/
structure PoolState where
  /-- `time.monotonic()`. -/
  clock : ℚ
  /-- `_idle`: connections with the times of their return, the last returned at the end. -/
  idle : Origin → List (ℕ × ℚ)
  /-- Every connection the process has opened. -/
  conns : List Connection
  /-- The connections that a request of this process was sent on or read from. -/
  used : List ℕ

namespace PoolState
variable (s : PoolState)

/-- `conn.close()`. -/
def close (id : ℕ) : PoolState :=
  { s with conns := s.conns.modify id fun conn => { conn with closed := true } }

/-- Keep what a response was when its reader closed it. -/
def record (id : ℕ) (r : HttpResponse) : PoolState :=
  { s with conns := s.conns.modify id fun conn => { conn with last := some r } }

/-- A connection is used. -/
def use (id : ℕ) : PoolState := { s with used := s.used ++ [id] }

/-- The connection of a response is used, if it has one. -/
def useOf (conn : Option ℕ) : PoolState := conn.elim s s.use

/-- The critical section of `take`, with what it takes off the list. -/
def setIdle (key : Origin) (idle : List (ℕ × ℚ)) : PoolState :=
  { s with idle := Function.update s.idle key idle }

/-- `_dropped`, by what `select` says of the socket. -/
def dropped (id : ℕ) (readable : Bool) : Bool :=
  match s.conns[id]? with
  | none => true
  | some conn => conn.closed || readable

/-- `give`. -/
def give (cfg : ConnectionPool) (key : Origin) (id : ℕ) : PoolState :=
  if (s.idle key).length < cfg.maxIdle then s.setIdle key (s.idle key ++ [(id, s.clock)])
  else s.close id

/-- `getresponse`: a response that will close takes the socket over from its connection. -/
def begin (id : ℕ) (r : HttpResponse) : PoolState := if r.willClose then s.close id else s

/-- A new connection. -/
def connect (origin : Origin) (refused : Bool) : PoolState :=
  { s with conns := s.conns ++ [{ origin, closed := refused }] }

@[simp] theorem idle_close (id : ℕ) : (s.close id).idle = s.idle := rfl
@[simp] theorem idle_record (id : ℕ) (r : HttpResponse) : (s.record id r).idle = s.idle := rfl
@[simp] theorem idle_use (id : ℕ) : (s.use id).idle = s.idle := rfl
@[simp] theorem idle_useOf (conn : Option ℕ) : (s.useOf conn).idle = s.idle := by
  cases conn <;> rfl
@[simp] theorem idle_connect (origin : Origin) (refused : Bool) :
    (s.connect origin refused).idle = s.idle := rfl
@[simp] theorem idle_begin (id : ℕ) (r : HttpResponse) : (s.begin id r).idle = s.idle := by
  simp only [begin]
  split <;> rfl

@[simp] theorem clock_close (id : ℕ) : (s.close id).clock = s.clock := rfl
@[simp] theorem clock_record (id : ℕ) (r : HttpResponse) : (s.record id r).clock = s.clock := rfl
@[simp] theorem clock_use (id : ℕ) : (s.use id).clock = s.clock := rfl
@[simp] theorem clock_useOf (conn : Option ℕ) : (s.useOf conn).clock = s.clock := by
  cases conn <;> rfl
@[simp] theorem clock_connect (origin : Origin) (refused : Bool) :
    (s.connect origin refused).clock = s.clock := rfl
@[simp] theorem clock_setIdle (key : Origin) (idle : List (ℕ × ℚ)) :
    (s.setIdle key idle).clock = s.clock := rfl
@[simp] theorem clock_begin (id : ℕ) (r : HttpResponse) : (s.begin id r).clock = s.clock := by
  simp only [begin]
  split <;> rfl

@[simp] theorem used_close (id : ℕ) : (s.close id).used = s.used := rfl
@[simp] theorem used_record (id : ℕ) (r : HttpResponse) : (s.record id r).used = s.used := rfl
@[simp] theorem used_connect (origin : Origin) (refused : Bool) :
    (s.connect origin refused).used = s.used := rfl
@[simp] theorem used_setIdle (key : Origin) (idle : List (ℕ × ℚ)) :
    (s.setIdle key idle).used = s.used := rfl
@[simp] theorem used_begin (id : ℕ) (r : HttpResponse) : (s.begin id r).used = s.used := by
  simp only [begin]
  split <;> rfl
@[simp] theorem used_use (id : ℕ) : (s.use id).used = s.used ++ [id] := rfl

@[simp] theorem conns_use (id : ℕ) : (s.use id).conns = s.conns := rfl
@[simp] theorem conns_useOf (conn : Option ℕ) : (s.useOf conn).conns = s.conns := by
  cases conn <;> rfl
@[simp] theorem conns_setIdle (key : Origin) (idle : List (ℕ × ℚ)) :
    (s.setIdle key idle).conns = s.conns := rfl

@[simp] theorem length_conns_close (id : ℕ) : (s.close id).conns.length = s.conns.length := by
  simp [close]
@[simp] theorem length_conns_record (id : ℕ) (r : HttpResponse) :
    (s.record id r).conns.length = s.conns.length := by
  simp [record]
@[simp] theorem length_conns_begin (id : ℕ) (r : HttpResponse) :
    (s.begin id r).conns.length = s.conns.length := by
  simp only [begin]
  split <;> simp
@[simp] theorem length_conns_connect (origin : Origin) (refused : Bool) :
    (s.connect origin refused).conns.length = s.conns.length + 1 := by
  simp [connect]

@[simp] theorem conns_close_of_ne {id j : ℕ} (h : id ≠ j) :
    (s.close id).conns[j]? = s.conns[j]? := by
  simp [close, h]
@[simp] theorem conns_record_of_ne {id j : ℕ} (h : id ≠ j) (r : HttpResponse) :
    (s.record id r).conns[j]? = s.conns[j]? := by
  simp [record, h]
@[simp] theorem conns_begin_of_ne {id j : ℕ} (h : id ≠ j) (r : HttpResponse) :
    (s.begin id r).conns[j]? = s.conns[j]? := by
  simp only [begin]
  split
  · exact s.conns_close_of_ne h
  · rfl
theorem conns_connect_of_lt {j : ℕ} (h : j < s.conns.length) (origin : Origin) (refused : Bool) :
    (s.connect origin refused).conns[j]? = s.conns[j]? :=
  List.getElem?_append_left h

/-- `give` keeps the connection if there is room, and closes it otherwise. -/
theorem give_cases (cfg : ConnectionPool) (key : Origin) (id : ℕ) :
    ((s.idle key).length < cfg.maxIdle ∧
        s.give cfg key id = s.setIdle key (s.idle key ++ [(id, s.clock)])) ∨
      s.give cfg key id = s.close id := by
  simp only [give]
  split
  · exact .inl ⟨‹_›, rfl⟩
  · exact .inr rfl

end PoolState

/-! ## Requests -/

/-- What `open_reusing` reads of a request: the key and the method. -/
structure Target where
  key : Origin
  method : String

/-- Where a request stands. -/
inductive PoolPhase
  /-- Outside: not begun, raised, or done with its response. -/
  | outside
  /-- `open_reusing` is called. -/
  | opening (q : Target)
  /-- In the loop of `take`, which read the clock once. -/
  | taking (q : Target) (now : ℚ)
  /-- `take` has popped a connection, returned at this time. -/
  | checking (q : Target) (now : ℚ) (id : ℕ) (returnedAt : ℚ)
  /-- `take` returned `None`. -/
  | connecting (q : Target)
  /-- The request is sent and its response begun. -/
  | exchanging (q : Target) (id : ℕ) (reused : Bool)
  /-- The caller has the `_PooledResponse`; `conn` is its `_conn`. -/
  | holding (q : Target) (conn : Option ℕ) (r : HttpResponse)
  /-- In `give`, called by `close`. -/
  | giving (q : Target) (id : ℕ) (r : HttpResponse)

/-- The connection that the request owns. -/
def PoolPhase.conn : PoolPhase → Option ℕ
  | .outside | .opening _ | .taking .. | .connecting _ => none
  | .checking _ _ id _ | .exchanging _ id _ | .giving _ id _ => some id
  | .holding _ conn _ => conn

/-- The phase after an exchange that was lost. -/
def afterLost (q : Target) (reused : Bool) : PoolPhase :=
  if reused && ["GET", "HEAD"].contains q.method then .opening q else .outside

/-- `_PooledResponse.close`: the first one gives the connection back or closes it. -/
def closeResponse (s : PoolState) (q : Target) (conn : Option ℕ) (r : HttpResponse) :
    PoolState × PoolPhase :=
  match conn with
  | none => (s, .holding q none r)
  | some id =>
      if !r.isOpen && !r.willClose then (s.record id r, .giving q id r)
      else ((s.record id r).close id, .holding q none { r with isOpen := false })

/-- What one request does, and the passing of time, where `arrives` says what a stream may bring to
a read. -/
inductive PoolAct (cfg : ConnectionPool) (arrives : HttpResponse → Option ℕ → Arrival → Prop) :
    PoolState → PoolPhase → PoolState → PoolPhase → Prop
  | tick (s : PoolState) (a : PoolPhase) (later : ℚ) :
      s.clock ≤ later → PoolAct cfg arrives s a { s with clock := later } a
  | call (s : PoolState) (q : Target) : PoolAct cfg arrives s .outside s (.opening q)
  | readClock (s : PoolState) (q : Target) : PoolAct cfg arrives s (.opening q) s (.taking q s.clock)
  | empty (s : PoolState) (q : Target) (now : ℚ) :
      s.idle q.key = [] → PoolAct cfg arrives s (.taking q now) s (.connecting q)
  | pop (s : PoolState) (q : Target) (now : ℚ) (rest : List (ℕ × ℚ)) (id : ℕ) (returnedAt : ℚ) :
      s.idle q.key = rest ++ [(id, returnedAt)] →
      PoolAct cfg arrives s (.taking q now) (s.setIdle q.key rest) (.checking q now id returnedAt)
  | handOut (s : PoolState) (q : Target) (now : ℚ) (id : ℕ) (returnedAt : ℚ) (readable : Bool) :
      now - returnedAt < cfg.idleSeconds → s.dropped id readable = false →
      PoolAct cfg arrives s (.checking q now id returnedAt) s (.exchanging q id true)
  | retire (s : PoolState) (q : Target) (now : ℚ) (id : ℕ) (returnedAt : ℚ) (readable : Bool) :
      ¬ (now - returnedAt < cfg.idleSeconds ∧ s.dropped id readable = false) →
      PoolAct cfg arrives s (.checking q now id returnedAt) (s.close id) (.taking q now)
  | connect (s : PoolState) (q : Target) (refused : Bool) :
      PoolAct cfg arrives s (.connecting q) (s.connect q.key refused)
        (if refused then .outside else .exchanging q s.conns.length false)
  /-- No connection object is made, as when the trust store cannot be loaded. -/
  | unconnected (s : PoolState) (q : Target) : PoolAct cfg arrives s (.connecting q) s .outside
  | lost (s : PoolState) (q : Target) (id : ℕ) (reused : Bool) :
      PoolAct cfg arrives s (.exchanging q id reused) ((s.use id).close id) (afterLost q reused)
  | failed (s : PoolState) (q : Target) (id : ℕ) (reused : Bool) :
      PoolAct cfg arrives s (.exchanging q id reused) ((s.use id).close id) .outside
  | answered (s : PoolState) (q : Target) (id : ℕ) (reused : Bool) (status : ℤ)
      (framing : Framing) (checkClose : Bool) : status ≠ 100 →
      PoolAct cfg arrives s (.exchanging q id reused)
        ((s.use id).begin id (HttpResponse.begin status framing checkClose))
        (.holding q (some id) (HttpResponse.begin status framing checkClose))
  | read (s : PoolState) (q : Target) (conn : Option ℕ) (r : HttpResponse) (amt : Option ℕ)
      (arrival : Arrival) :
      arrives r amt arrival →
      PoolAct cfg arrives s (.holding q conn r) (if r.isOpen then s.useOf conn else s)
        (.holding q conn (r.read amt arrival))
  | closed (s : PoolState) (q : Target) (conn : Option ℕ) (r : HttpResponse) :
      PoolAct cfg arrives s (.holding q conn r) (closeResponse s q conn r).1
        (closeResponse s q conn r).2
  | give (s : PoolState) (q : Target) (id : ℕ) (r : HttpResponse) :
      PoolAct cfg arrives s (.giving q id r) (s.give cfg q.key id) (.holding q none r)
  | letGo (s : PoolState) (q : Target) (r : HttpResponse) :
      PoolAct cfg arrives s (.holding q none r) s .outside

/-- Closing a response for the first time gives its connection back or closes it; after that it
changes nothing. -/
theorem closeResponse_cases (s : PoolState) (q : Target) (conn : Option ℕ) (r : HttpResponse) :
    (conn = none ∧ closeResponse s q conn r = (s, .holding q none r)) ∨
      (∃ id, conn = some id ∧ r.isOpen = false ∧ r.willClose = false ∧
        closeResponse s q conn r = (s.record id r, .giving q id r)) ∨
      ∃ id, conn = some id ∧ closeResponse s q conn r =
        ((s.record id r).close id, .holding q none { r with isOpen := false }) := by
  cases conn with
  | none => exact .inl ⟨rfl, rfl⟩
  | some id =>
      right
      simp only [closeResponse]
      split
      · rename_i h
        simp only [Bool.and_eq_true, Bool.not_eq_true'] at h
        exact .inl ⟨id, rfl, h.1, h.2, rfl⟩
      · exact .inr ⟨id, rfl, rfl⟩

@[simp] theorem conn_afterLost (q : Target) (reused : Bool) : (afterLost q reused).conn = none := by
  simp only [afterLost]
  split <;> rfl

/-! ## What a step changes -/

section Frame
variable {cfg : ConnectionPool} {arrives : HttpResponse → Option ℕ → Arrival → Prop}
  {s s' : PoolState} {a a' : PoolPhase}

/-- Nothing is forgotten of the connections that were opened. -/
theorem PoolAct.length_le (h : PoolAct cfg arrives s a s' a') : s.conns.length ≤ s'.conns.length := by
  cases h with
  | closed q conn r =>
      rcases closeResponse_cases s q conn r with ⟨-, h⟩ | ⟨id, -, -, -, h⟩ | ⟨id, -, h⟩ <;> simp [h]
  | give q id r =>
      rcases s.give_cases cfg q.key id with ⟨-, h⟩ | h <;> simp [h]
  | read q conn r amt arrival => split <;> simp
  | _ => simp

/-- A step changes a connection only if the request owns it. -/
theorem PoolAct.conns_eq (h : PoolAct cfg arrives s a s' a') {id : ℕ} (hid : id < s.conns.length)
    (hne : a.conn ≠ some id) : s'.conns[id]? = s.conns[id]? := by
  cases h with
  | connect q refused => exact s.conns_connect_of_lt hid _ _
  | closed q conn r =>
      have hown : ∀ own, conn = some own → own ≠ id := by
        rintro own rfl rfl
        exact hne rfl
      rcases closeResponse_cases s q conn r with ⟨-, h⟩ | ⟨own, hconn, -, -, h⟩ | ⟨own, hconn, h⟩
      · rw [h]
      · simp [h, hown own hconn]
      · simp [h, hown own hconn]
  | give q own r =>
      have hown : own ≠ id := fun h => hne (congrArg some h)
      rcases s.give_cases cfg q.key own with ⟨-, h⟩ | h <;> simp [h, hown]
  | read q conn r amt arrival => split <;> simp
  | retire q now own returnedAt readable =>
      exact s.conns_close_of_ne fun h => hne (congrArg some h)
  | lost q own reused => exact (s.use own).conns_close_of_ne fun h => hne (congrArg some h)
  | failed q own reused => exact (s.use own).conns_close_of_ne fun h => hne (congrArg some h)
  | answered q own reused status framing checkClose =>
      exact (s.use own).conns_begin_of_ne (fun h => hne (congrArg some h)) _
  | _ => rfl

/-- The pool changes by an entry that is popped, or by one that `give` returns. -/
theorem PoolAct.idle_cases (h : PoolAct cfg arrives s a s' a') (key : Origin) :
    s'.idle key = s.idle key ∨ (∃ e, s.idle key = s'.idle key ++ [e]) ∨
      ∃ q id r, a = .giving q id r ∧ key = q.key ∧ s'.idle key = s.idle key ++ [(id, s.clock)] ∧
        (s.idle key).length < cfg.maxIdle := by
  cases h with
  | pop q now rest id returnedAt hidle =>
      by_cases hkey : key = q.key
      · subst hkey
        exact .inr (.inl ⟨(id, returnedAt), by simp [PoolState.setIdle, hidle]⟩)
      · exact .inl (by simp [PoolState.setIdle, hkey])
  | closed q conn r =>
      rcases closeResponse_cases s q conn r with ⟨-, h⟩ | ⟨id, -, -, -, h⟩ | ⟨id, -, h⟩ <;>
        exact .inl (by simp [h])
  | give q id r =>
      rcases s.give_cases cfg q.key id with ⟨hroom, hgive⟩ | hgive
      · by_cases hkey : key = q.key
        · subst hkey
          exact .inr (.inr ⟨q, id, r, rfl, rfl, by simp [hgive, PoolState.setIdle], hroom⟩)
        · exact .inl (by simp [hgive, PoolState.setIdle, hkey])
      · exact .inl (by simp [hgive])
  | read q conn r amt arrival => exact .inl (by split <;> simp)
  | _ => exact .inl (by simp)

/-- What is in the pool after a step was there before, or the request returned it. -/
theorem PoolAct.mem_idle (h : PoolAct cfg arrives s a s' a') {key : Origin} {e : ℕ × ℚ}
    (he : e ∈ s'.idle key) :
    e ∈ s.idle key ∨ ∃ q r, a = .giving q e.1 r ∧ key = q.key ∧ e.2 = s.clock := by
  rcases h.idle_cases key with heq | ⟨e', heq⟩ | ⟨q, id, r, ha, hkey, heq, -⟩
  · exact .inl (heq ▸ he)
  · exact .inl (heq ▸ List.mem_append_left _ he)
  · rw [heq] at he
    rcases List.mem_append.mp he with hold | hnew
    · exact .inl hold
    · obtain rfl := List.mem_singleton.mp hnew
      exact .inr ⟨q, r, ha, hkey, rfl⟩

/-- A request gets a connection from the pool, or a new one. -/
theorem PoolAct.conn_cases (h : PoolAct cfg arrives s a s' a') {id : ℕ} (hid : a'.conn = some id) :
    a.conn = some id ∨ (∃ key at', (id, at') ∈ s.idle key) ∨
      (id = s.conns.length ∧ id < s'.conns.length) := by
  cases h with
  | pop q now rest own returnedAt hidle =>
      obtain rfl : own = id := Option.some.inj hid
      exact .inr (.inl ⟨q.key, returnedAt, by simp [hidle]⟩)
  | connect q refused =>
      cases refused with
      | true => cases hid
      | false =>
          obtain rfl : s.conns.length = id := Option.some.inj hid
          exact .inr (.inr ⟨rfl, by simp⟩)
  | closed q conn r =>
      rcases closeResponse_cases s q conn r with ⟨-, h⟩ | ⟨own, hconn, -, -, h⟩ | ⟨own, -, h⟩ <;>
        rw [h] at hid
      · cases hid
      · exact .inl (hconn.trans hid)
      · cases hid
  | lost => simp at hid
  | handOut | answered | read => exact .inl hid
  | tick => exact .inl hid
  | _ => cases hid

/-- The clock does not go back. -/
theorem PoolAct.clock_le (h : PoolAct cfg arrives s a s' a') : s.clock ≤ s'.clock := by
  cases h with
  | tick _ later hlater => exact hlater
  | closed q conn r =>
      rcases closeResponse_cases s q conn r with ⟨-, h⟩ | ⟨id, -, -, -, h⟩ | ⟨id, -, h⟩ <;> simp [h]
  | give q id r =>
      rcases s.give_cases cfg q.key id with ⟨-, h⟩ | h <;> simp [h]
  | read => split <;> simp
  | _ => simp

/-- A step uses the connection of an exchange or of a response. -/
theorem PoolAct.mem_used (h : PoolAct cfg arrives s a s' a') {id : ℕ} (hid : id ∈ s'.used) :
    id ∈ s.used ∨ (∃ q reused, a = .exchanging q id reused) ∨ ∃ q r, a = .holding q (some id) r := by
  cases h with
  | lost q own reused | failed q own reused =>
      have hused : id ∈ s.used ∨ id = own := by simpa using hid
      exact hused.imp_right (fun heq => .inl ⟨q, reused, by rw [heq]⟩)
  | answered q own reused status framing checkClose =>
      have hused : id ∈ s.used ∨ id = own := by simpa using hid
      exact hused.imp_right (fun heq => .inl ⟨q, reused, by rw [heq]⟩)
  | read q conn r amt arrival =>
      split at hid
      · cases conn with
        | none => exact .inl hid
        | some own =>
            have hused : id ∈ s.used ∨ id = own := by simpa [PoolState.useOf] using hid
            exact hused.imp_right (fun heq => .inr ⟨q, r, by rw [heq]⟩)
      · exact .inl hid
  | closed q conn r =>
      rcases closeResponse_cases s q conn r with ⟨-, h⟩ | ⟨own, -, -, -, h⟩ | ⟨own, -, h⟩ <;>
        exact .inl (by simpa [h] using hid)
  | give q own r =>
      rcases s.give_cases cfg q.key own with ⟨-, h⟩ | h <;> exact .inl (by simpa [h] using hid)
  | _ => exact .inl (by simpa using hid)

end Frame

end UcloudSandboxes.Http
