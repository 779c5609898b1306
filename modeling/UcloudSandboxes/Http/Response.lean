import UcloudSandboxes.Python.Value

/-!
# Reading a response body

`readSyncResponse` and `readAsyncResponse` bound what a response may hold. A `Body` says what the
transport delivers: the bytes that arrive before the stream ends, split as they arrive, and how the
stream ends. `Body.read` is `http.client`'s `HTTPResponse.read(amt)`: it stops at the declared
length, and at the end of the stream it returns what it has, without an exception, even when the
peer closed before the declared length arrived. `aiohttp` raises in that case.
-/
namespace UcloudSandboxes.Http
open Python

/-- How the delivery of a body ends after its last byte. -/
inductive Ending
  /-- The framing of the message says that the body is complete. -/
  | complete
  /-- The peer closed the connection before the declared length arrived. -/
  | closed
  | osError (e : OsError)
  /-- `http.client` finds the framing broken, as in a chunked body that is cut. -/
  | protocol (text : String)
  deriving DecidableEq, Repr

/-- A response body as the transport delivers it. -/
structure Body where
  /-- The length the message framing declares. -/
  length : Option ℕ
  /-- What successive reads return. -/
  chunks : List Bytes
  ending : Ending
  deriving DecidableEq, Repr

structure Response where
  status : ℤ
  headers : Headers
  body : Body
  deriving DecidableEq, Repr

/-- Every byte that arrives. -/
def Body.delivered (b : Body) : Bytes := b.chunks.flatten

/-- `HTTPResponse.read(amt)`. -/
def Body.read (b : Body) (amt : ℕ) : Except Raised Bytes :=
  let wanted := match b.length with
    | some n => min amt n
    | none => amt
  if wanted ≤ b.delivered.length then .ok (b.delivered.take wanted)
  else match b.ending with
    | .complete | .closed => .ok b.delivered
    | .osError e => .error (.os e)
    | .protocol text => .error (.protocol text)

/-- Insert into a `dict`: a known key keeps its place and takes the new value. -/
def insertHeader (d : Headers) (key value : String) : Headers :=
  if d.any (fun kv => kv.1 == key) then
    d.map fun kv => if kv.1 == key then (key, value) else kv
  else d ++ [(key, value)]

/-- `response_headers`: the received headers as a `dict`. -/
def responseHeaders (headers : Headers) : Headers :=
  headers.foldl (fun d kv => insertHeader d kv.1 kv.2) []

/-- The value of the first header of this name, in any case. -/
def findHeader (headers : Headers) (name : String) : Option String :=
  (headers.find? fun kv => kv.1.toLower == name).map Prod.snd

/-- The message of a `ResponseTooLargeError`. -/
def tooLargeText (limit : ℕ) : String :=
  "response exceeds the " ++ toString limit ++ " byte limit"

/-- `_check_content_length`: an absent length and one that is no integer pass. -/
def checkContentLength (py : Interpreter) (headers : Headers) (limit : ℕ) : Except Raised Unit :=
  match (findHeader (responseHeaders headers) "content-length").bind (parseInt py) with
  | some length => if (limit : ℤ) < length then .error (.tooLarge (tooLargeText limit)) else .ok ()
  | none => .ok ()

/-- `read_sync_response`. Both response classes the SDK opens take the size argument, so the
retry without it is never reached. -/
def readSyncResponse (py : Interpreter) (r : Response) (limit : ℕ) : Except Raised Bytes := do
  checkContentLength py r.headers limit
  let body ← r.body.read (limit + 1)
  if limit < body.length then .error (.tooLarge (tooLargeText limit)) else .ok body

/-- The loop of `read_async_response` over what successive `content.read` calls return. An empty
read is the end of the stream. -/
def readAsyncLoop (limit : ℕ) (ending : Ending) : List Bytes → Bytes → Except Raised Bytes
  | [], acc =>
      match ending with
      | .complete => .ok acc
      | .closed => .error (.builtin .other "ClientPayloadError")
      | .osError e => .error (.os e)
      | .protocol text => .error (.builtin .other text)
  | chunk :: rest, acc =>
      if chunk = [] then .ok acc
      else if limit < (acc ++ chunk).length then .error (.tooLarge (tooLargeText limit))
      else readAsyncLoop limit ending rest (acc ++ chunk)

/-- `read_async_response`. -/
def readAsyncResponse (py : Interpreter) (r : Response) (limit : ℕ) : Except Raised Bytes := do
  checkContentLength py r.headers limit
  readAsyncLoop limit r.body.ending r.body.chunks []

/-- `_retry_after_seconds`: a number of seconds or an HTTP date, clamped to a minute. -/
def retryAfterSeconds (py : Interpreter) (headers : Headers) : Option ℚ :=
  match findHeader headers "retry-after" with
  | none => none
  | some raw =>
      match py.floatOf raw with
      | some delay => some (delay.clamp 0 60)
      | none => (py.dateDelay raw).map fun delay => max 0 (min 60 delay)

/-- No length at or below the limit is refused. -/
theorem checkContentLength_ok (py : Interpreter) (headers : Headers) (limit : ℕ)
    (h : ∀ n, (findHeader (responseHeaders headers) "content-length").bind (parseInt py) = some n →
      n ≤ limit) :
    checkContentLength py headers limit = .ok () := by
  simp only [checkContentLength]
  split
  · rename_i n hn
    rw [if_neg (by have := h n hn; omega)]
  · rfl

/-- The sync reader returns at most `limit` bytes. -/
theorem length_readSyncResponse_le {py : Interpreter} {r : Response} {limit : ℕ} {body : Bytes}
    (h : readSyncResponse py r limit = .ok body) : body.length ≤ limit := by
  simp only [readSyncResponse, bind, Except.bind] at h
  split at h
  · cases h
  · split at h
    · cases h
    · split at h
      · cases h
      · cases h
        omega

/-- The async reader returns at most `limit` bytes. -/
theorem length_readAsyncLoop_le {limit : ℕ} {ending : Ending} {chunks : List Bytes}
    {acc body : Bytes}
    (hacc : acc.length ≤ limit) (h : readAsyncLoop limit ending chunks acc = .ok body) :
    body.length ≤ limit := by
  induction chunks generalizing acc with
  | nil =>
      simp only [readAsyncLoop] at h
      split at h <;> cases h
      exact hacc
  | cons chunk rest ih =>
      simp only [readAsyncLoop] at h
      split at h
      · cases h
        exact hacc
      · split at h
        · cases h
        · exact ih (by omega) h

theorem length_readAsyncResponse_le {py : Interpreter} {r : Response} {limit : ℕ} {body : Bytes}
    (h : readAsyncResponse py r limit = .ok body) : body.length ≤ limit := by
  simp only [readAsyncResponse, bind, Except.bind] at h
  split at h
  · cases h
  · exact length_readAsyncLoop_le (Nat.zero_le _) h

/-- The sync reader fails with the size error, or with what the transport raised while it read. -/
theorem readSyncResponse_error {py : Interpreter} {r : Response} {limit : ℕ} {exc : Raised}
    (h : readSyncResponse py r limit = .error exc) :
    exc = .tooLarge (tooLargeText limit) ∨ (∃ e, r.body.ending = .osError e ∧ exc = .os e) ∨
      ∃ text, r.body.ending = .protocol text ∧ exc = .protocol text := by
  simp only [readSyncResponse, checkContentLength, Body.read, bind, Except.bind] at h
  grind

/-- The async reader fails with the size error, or with what the transport raised while it read. -/
theorem readAsyncResponse_error {py : Interpreter} {r : Response} {limit : ℕ} {exc : Raised}
    (h : readAsyncResponse py r limit = .error exc) :
    exc = .tooLarge (tooLargeText limit) ∨ (∃ e, exc = .os e) ∨
      ∃ cls text, exc = .builtin cls text := by
  have hloop : ∀ (chunks : List Bytes) (acc : Bytes),
      readAsyncLoop limit r.body.ending chunks acc = .error exc →
        exc = .tooLarge (tooLargeText limit) ∨ (∃ e, exc = .os e) ∨
          ∃ cls text, exc = .builtin cls text := by
    intro chunks
    induction chunks with
    | nil =>
        intro acc hacc
        simp only [readAsyncLoop] at hacc
        grind
    | cons chunk rest ih =>
        intro acc hacc
        simp only [readAsyncLoop] at hacc
        grind
  simp only [readAsyncResponse, checkContentLength, bind, Except.bind] at h
  split at h
  · rename_i hcheck
    grind
  · exact hloop _ _ h

/-! ## What is too large -/

/-- The response declares a body beyond the limit. -/
def Response.Declares (py : Interpreter) (r : Response) (limit : ℕ) : Prop :=
  ∃ n : ℤ, (findHeader (responseHeaders r.headers) "content-length").bind (parseInt py) = some n ∧
    limit < n

/-- What `http.client` hands over: the bytes that arrive, up to the declared length. -/
def Body.due (b : Body) : Bytes :=
  match b.length with
  | some n => b.delivered.take n
  | none => b.delivered

/-- What `aiohttp` hands over: the reads up to the first empty one. -/
def Body.streamed (b : Body) : Bytes := (b.chunks.takeWhile fun chunk => !chunk.isEmpty).flatten

/-- The response declares more than the limit, or more is received. -/
def Response.Exceeds (py : Interpreter) (received : Body → Bytes) (r : Response) (limit : ℕ) :
    Prop :=
  r.Declares py limit ∨ limit < (received r.body).length

theorem checkContentLength_declares (py : Interpreter) (r : Response) (limit : ℕ) :
    r.Declares py limit ∧
        checkContentLength py r.headers limit = .error (.tooLarge (tooLargeText limit)) ∨
      ¬ r.Declares py limit ∧ checkContentLength py r.headers limit = .ok () := by
  simp only [Response.Declares, checkContentLength]
  cases (findHeader (responseHeaders r.headers) "content-length").bind (parseInt py) with
  | none =>
      right
      refine ⟨?_, rfl⟩
      rintro ⟨n, hn, -⟩
      cases hn
  | some n =>
      by_cases hlarge : (limit : ℤ) < n
      · exact .inl ⟨⟨n, rfl, hlarge⟩, if_pos hlarge⟩
      · refine .inr ⟨?_, if_neg hlarge⟩
        rintro ⟨m, hm, h⟩
        cases hm
        exact hlarge h

/-- A read of one byte more than the limit brings it exactly when that many are due. -/
theorem Body.read_exceeds (b : Body) (limit : ℕ) :
    (∃ body, b.read (limit + 1) = .ok body ∧ limit < body.length) ↔ limit < b.due.length := by
  simp only [Body.read, Body.due]
  cases b.length with
  | none =>
      constructor
      · rintro ⟨body, hread, hbody⟩
        grind
      · intro h
        have hle : limit + 1 ≤ b.delivered.length := h
        exact ⟨b.delivered.take (limit + 1), if_pos hle, by rw [List.length_take]; omega⟩
  | some n =>
      simp only [List.length_take]
      constructor
      · rintro ⟨body, hread, hbody⟩
        grind
      · intro h
        have hwanted : min (limit + 1) n = limit + 1 := by omega
        rw [hwanted]
        exact ⟨b.delivered.take (limit + 1), if_pos (by omega), by rw [List.length_take]; omega⟩

/-- When the sync reader refuses a response for its size. -/
theorem readSyncResponse_tooLarge_iff {py : Interpreter} {r : Response} {limit : ℕ} :
    (∃ text, readSyncResponse py r limit = .error (.tooLarge text)) ↔
      r.Exceeds py Body.due limit := by
  simp only [readSyncResponse, Response.Exceeds, ← Body.read_exceeds]
  rcases checkContentLength_declares py r limit with ⟨hdeclares, hcheck⟩ | ⟨hdeclares, hcheck⟩
  · simp [hcheck, hdeclares, bind, Except.bind]
  · simp only [hcheck, hdeclares, false_or, bind, Except.bind]
    cases hread : r.body.read (limit + 1) with
    | error exc =>
        simp only [Body.read] at hread
        grind
    | ok body =>
        by_cases hlarge : limit < body.length
        · simp [hlarge]
        · simp [hlarge]

theorem readAsyncLoop_tooLarge_iff {limit : ℕ} {ending : Ending} {chunks : List Bytes}
    {acc : Bytes} (hacc : acc.length ≤ limit) :
    (∃ text, readAsyncLoop limit ending chunks acc = .error (.tooLarge text)) ↔
      limit < (acc ++ (chunks.takeWhile fun chunk => !chunk.isEmpty).flatten).length := by
  induction chunks generalizing acc with
  | nil =>
      have hle : ¬ limit < acc.length := by omega
      cases ending <;> simp [readAsyncLoop, hle]
  | cons chunk rest ih =>
      simp only [readAsyncLoop]
      by_cases hempty : chunk = []
      · have hle : ¬ limit < acc.length := by omega
        simp [hempty, hle]
      · have hkeep : (chunk :: rest).takeWhile (fun chunk => !chunk.isEmpty) =
            chunk :: rest.takeWhile fun chunk => !chunk.isEmpty :=
          List.takeWhile_cons_of_pos (by simpa using hempty)
        rw [if_neg hempty, hkeep, List.flatten_cons, ← List.append_assoc]
        by_cases hlarge : limit < (acc ++ chunk).length
        · rw [if_pos hlarge]
          refine ⟨fun _ => ?_, fun _ => ⟨_, rfl⟩⟩
          rw [List.length_append]
          omega
        · rw [if_neg hlarge]
          exact ih (Nat.le_of_not_lt hlarge)

/-- When the async reader refuses a response for its size. -/
theorem readAsyncResponse_tooLarge_iff {py : Interpreter} {r : Response} {limit : ℕ} :
    (∃ text, readAsyncResponse py r limit = .error (.tooLarge text)) ↔
      r.Exceeds py Body.streamed limit := by
  simp only [readAsyncResponse, Response.Exceeds]
  rcases checkContentLength_declares py r limit with ⟨hdeclares, hcheck⟩ | ⟨hdeclares, hcheck⟩
  · simp [hcheck, hdeclares, bind, Except.bind]
  · simp only [hcheck, hdeclares, false_or, bind, Except.bind]
    exact readAsyncLoop_tooLarge_iff (Nat.zero_le _)

/-- The whole body arrives, in pieces that are not empty. -/
structure Body.Complete (b : Body) : Prop where
  ending : b.ending = .complete
  length : ∀ n, b.length = some n → n = b.delivered.length
  chunks : ∀ chunk ∈ b.chunks, chunk ≠ []

/-- What both readers make of a complete body. -/
def readWhole (py : Interpreter) (r : Response) (limit : ℕ) : Except Raised Bytes := do
  checkContentLength py r.headers limit
  if limit < r.body.delivered.length then .error (.tooLarge (tooLargeText limit))
  else .ok r.body.delivered

theorem readSyncResponse_complete (py : Interpreter) {r : Response} (h : r.body.Complete)
    (limit : ℕ) : readSyncResponse py r limit = readWhole py r limit := by
  have hread : r.body.read (limit + 1) = .ok (r.body.delivered.take (limit + 1)) := by
    simp only [Body.read]
    rw [h.ending]
    cases hlength : r.body.length with
    | none =>
        by_cases hle : limit + 1 ≤ r.body.delivered.length
        · simp [hle]
        · simp only [hle, if_false]
          rw [List.take_of_length_le (by omega)]
    | some n =>
        have hn := h.length n hlength
        have hle : min (limit + 1) n ≤ r.body.delivered.length := by omega
        simp only [hle, if_true]
        rw [hn, ← List.take_take, List.take_length]
  simp only [readSyncResponse, readWhole]
  cases checkContentLength py r.headers limit with
  | error exc => rfl
  | ok u =>
      simp only [hread, bind, Except.bind, List.length_take]
      by_cases hlimit : limit < r.body.delivered.length
      · have hmin : limit < min (limit + 1) r.body.delivered.length := by omega
        simp only [hmin, hlimit, if_true]
      · have hmin : ¬ limit < min (limit + 1) r.body.delivered.length := by omega
        simp only [hmin, hlimit, if_false]
        rw [List.take_of_length_le (by omega)]

theorem readAsyncLoop_complete {limit : ℕ} {chunks : List Bytes} {acc : Bytes}
    (hchunks : ∀ chunk ∈ chunks, chunk ≠ []) (hacc : acc.length ≤ limit) :
    readAsyncLoop limit .complete chunks acc =
      if limit < (acc ++ chunks.flatten).length then .error (.tooLarge (tooLargeText limit))
      else .ok (acc ++ chunks.flatten) := by
  induction chunks generalizing acc with
  | nil =>
      have hle : ¬ limit < acc.length := by omega
      simp [readAsyncLoop, hle]
  | cons chunk rest ih =>
      have hne : chunk ≠ [] := hchunks chunk (by simp)
      simp only [readAsyncLoop]
      rw [if_neg hne]
      by_cases hlimit : limit < (acc ++ chunk).length
      · have hall : limit < (acc ++ (chunk :: rest).flatten).length := by
          simp only [List.length_append, List.flatten_cons] at hlimit ⊢
          omega
        rw [if_pos hlimit, if_pos hall]
      · rw [if_neg hlimit, ih (fun c hc => hchunks c (by simp [hc])) (by omega)]
        simp only [List.flatten_cons, List.append_assoc]

theorem readAsyncResponse_complete (py : Interpreter) {r : Response} (h : r.body.Complete)
    (limit : ℕ) : readAsyncResponse py r limit = readWhole py r limit := by
  simp only [readAsyncResponse, readWhole]
  cases checkContentLength py r.headers limit with
  | error exc => rfl
  | ok u =>
      simp only [bind, Except.bind, h.ending]
      exact readAsyncLoop_complete h.chunks (Nat.zero_le _)

/-- A complete body is read, or it is too large. -/
theorem readWhole_cases (py : Interpreter) (r : Response) (limit : ℕ) :
    readWhole py r limit = .ok r.body.delivered ∨
      readWhole py r limit = .error (.tooLarge (tooLargeText limit)) := by
  simp only [readWhole, checkContentLength]
  simp only [bind, Except.bind]
  grind

end UcloudSandboxes.Http
