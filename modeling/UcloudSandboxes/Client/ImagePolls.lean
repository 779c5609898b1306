import UcloudSandboxes.Client.ImageRequestAlike

/-!
# Waiting for images over both transports

Both waits run the same loop over the results of their requests. They agree as long as each request
has the same result in both clients.

## Main results

* `waitLoop_congr`: the loop on rounds with the same results.
* `survives_iff`: the runs in which both waits agree.
-/
namespace UcloudSandboxes.Client
open Python Http

/-- One round of either wait: its requests, the exception of `on_status`, if it raises one, and what
is left of the deadline behind it. -/
structure Poll where
  requests : ℕ → EnsureRequest
  notify : Option Raised := none
  remaining : Option ℚ := none

section
variable (py : Interpreter)

def Poll.sync (p : Poll) : ImageRound where
  answers k := (p.requests k).syncResult py
  notify := p.notify
  remaining := p.remaining

def Poll.async (p : Poll) : ImageRound where
  answers k := (p.requests k).asyncResult py
  notify := p.notify
  remaining := p.remaining

/-- `SandboxClient.wait_for_images`. -/
def syncWait (size : ℕ) (given : List String) (polls : List Poll) :
    WaitOutcome × List (List (List String)) :=
  waitForImages size given (polls.map (Poll.sync py))

/-- `AsyncSandboxClient.wait_for_images`. -/
def asyncWait (size : ℕ) (given : List String) (polls : List Poll) :
    WaitOutcome × List (List (List String)) :=
  waitForImages size given (polls.map (Poll.async py))

end

/-- Both waits go on, both return the same statuses, or both raise. -/
def SameOutcome : WaitOutcome → WaitOutcome → Prop
  | .running, .running => True
  | .returned statuses, .returned statuses' => statuses = statuses'
  | .raised _, .raised _ => True
  | _, _ => False

section Congr
variable {size : ℕ} {names : List String}

theorem ensureBatches_congr {answers answers' : ℕ → Except CallError Dict} {k : ℕ}
    {statuses : Statuses} {todo : List (List String)}
    (h : ∀ j < (ensureBatches answers k statuses todo).1.length,
      SameResult (answers (k + j)) (answers' (k + j))) :
    (ensureBatches answers k statuses todo).1 = (ensureBatches answers' k statuses todo).1 ∧
      SameResult (ensureBatches answers k statuses todo).2
        (ensureBatches answers' k statuses todo).2 := by
  induction todo generalizing k statuses with
  | nil => exact ⟨rfl, rfl⟩
  | cons batch rest ih =>
      have hfirst : SameResult (answers k) (answers' k) := by
        apply h 0
        simp only [ensureBatches]
        split
        · exact Nat.one_pos
        · exact Nat.succ_pos _
      simp only [ensureBatches] at h ⊢
      cases hanswer : answers k with
      | error e =>
          cases hanswer' : answers' k with
          | error e' =>
              rw [hanswer, hanswer'] at hfirst
              exact ⟨rfl, hfirst⟩
          | ok d =>
              rw [hanswer, hanswer'] at hfirst
              exact hfirst.elim
      | ok d =>
          cases hanswer' : answers' k with
          | error e' =>
              rw [hanswer, hanswer'] at hfirst
              exact hfirst.elim
          | ok d' =>
              rw [hanswer, hanswer'] at hfirst
              obtain rfl : d = d' := hfirst
              rw [hanswer] at h
              cases himages : imageStatuses d with
              | error e =>
                  simp only [bind, Except.bind, himages]
                  exact ⟨trivial, rfl⟩
              | ok images =>
                  simp only [bind, Except.bind, himages] at h ⊢
                  have hrest : ∀ j < (ensureBatches answers (k + 1) (statuses.update images)
                      rest).1.length, SameResult (answers (k + 1 + j)) (answers' (k + 1 + j)) := by
                    intro j hj
                    have hnext := h (j + 1) (by simpa using hj)
                    rw [show k + (j + 1) = k + 1 + j by omega] at hnext
                    exact hnext
                  obtain ⟨hsent, hsame⟩ := ih hrest
                  exact ⟨by rw [hsent], hsame⟩

theorem ensureImages_congr {answers answers' : ℕ → Except CallError Dict}
    (h : ∀ j < (ensureImages answers size names).1.length, SameResult (answers j) (answers' j)) :
    (ensureImages answers size names).1 = (ensureImages answers' size names).1 ∧
      SameResult (ensureImages answers size names).2 (ensureImages answers' size names).2 := by
  simp only [ensureImages] at h ⊢
  cases hnames : imageNames names with
  | error exc => exact ⟨rfl, rfl⟩
  | ok distinct =>
      rw [hnames] at h
      apply ensureBatches_congr
      intro j hj
      rw [Nat.zero_add]
      exact h j hj

/-- A round of both waits. -/
theorem waitRound_congr {settled : Statuses} {r r' : ImageRound}
    {ensured ensured' : Except CallError Statuses} (h : SameResult ensured ensured')
    (hnotify : r.notify = r'.notify) (hremaining : r.remaining = r'.remaining) :
    waitRound names settled r ensured = waitRound names settled r' ensured' ∨
      (∃ exc, waitRound names settled r ensured = .error exc) ∧
        ∃ exc, waitRound names settled r' ensured' = .error exc := by
  have hrest : ∀ {current current'}, currentStatuses ensured = .ok current →
      currentStatuses ensured' = .ok current' → current = current' →
        waitRound names settled r ensured = waitRound names settled r' ensured' := by
    intro current current' hcurrent hcurrent' hsame
    subst hsame
    simp only [waitRound, hcurrent, hcurrent', hnotify, hremaining]
  cases ensured with
  | ok statuses =>
      cases ensured' with
      | ok statuses' => exact .inl (hrest rfl rfl h)
      | error e => exact h.elim
  | error e =>
      cases ensured' with
      | ok statuses' => exact h.elim
      | error e' =>
          have htransient : e.transient = e'.transient := h
          cases hcase : e.transient with
          | true =>
              refine .inl (hrest (if_pos hcase) (if_pos ?_) rfl)
              rw [← htransient, hcase]
          | false =>
              have hcase' : e'.transient = false := by rw [← htransient, hcase]
              refine .inr ⟨⟨e.raised, ?_⟩, ⟨e'.raised, ?_⟩⟩
              · simp only [waitRound, currentStatuses, hcase, Bool.false_eq_true, if_false, bind,
                  Except.bind]
              · simp only [waitRound, currentStatuses, hcase', Bool.false_eq_true, if_false, bind,
                  Except.bind]

/-- The rounds of both waits. -/
theorem waitLoop_congr {py : Interpreter} {settled : Statuses} {polls : List Poll}
    (h : ∀ (i : ℕ) p sent, polls[i]? = some p →
      (waitLoop size names settled (polls.map (Poll.sync py))).2[i]? = some sent →
        ∀ k < sent.length,
          SameResult ((p.requests k).syncResult py) ((p.requests k).asyncResult py)) :
    (waitLoop size names settled (polls.map (Poll.sync py))).2 =
        (waitLoop size names settled (polls.map (Poll.async py))).2 ∧
      SameOutcome (waitLoop size names settled (polls.map (Poll.sync py))).1
        (waitLoop size names settled (polls.map (Poll.async py))).1 := by
  induction polls generalizing settled with
  | nil => exact ⟨rfl, trivial⟩
  | cons p rest ih =>
      have hsent : (ensureImages (p.sync py).answers size
            (names.filter fun name => decide (name ∉ settled))).1 =
          (ensureImages (p.async py).answers size
            (names.filter fun name => decide (name ∉ settled))).1 ∧
          SameResult (ensureImages (p.sync py).answers size
            (names.filter fun name => decide (name ∉ settled))).2
          (ensureImages (p.async py).answers size
            (names.filter fun name => decide (name ∉ settled))).2 := by
        apply ensureImages_congr
        apply h 0 p _ rfl
        simp only [List.map_cons, waitLoop]
        split <;> rfl
      obtain ⟨hsent, hsame⟩ := hsent
      simp only [List.map_cons, waitLoop] at h ⊢
      rcases @waitRound_congr names settled (p.sync py) (p.async py) _ _ hsame rfl rfl with
        heq | ⟨⟨exc, hexc⟩, ⟨exc', hexc'⟩⟩
      · rw [heq] at h ⊢
        rw [hsent] at h ⊢
        cases hround : waitRound names settled (p.async py) (ensureImages (p.async py).answers size
            (names.filter fun name => decide (name ∉ settled))).2 with
        | error exc => exact ⟨rfl, trivial⟩
        | ok next =>
            obtain ⟨settled', outcome⟩ := next
            cases outcome with
            | some outcome =>
                simp only
                refine ⟨trivial, ?_⟩
                cases outcome <;> trivial
            | none =>
                simp only [hround] at h ⊢
                have hrest := @ih settled' fun i p' sent hp hi => h (i + 1) p' sent hp hi
                exact ⟨by rw [hrest.1], hrest.2⟩
      · rw [hexc, hexc']
        exact ⟨by rw [hsent], trivial⟩

end Congr

/-- Both waits make the same requests and of each the same, no lost connection ends either of them,
and they end alike. -/
structure SurvivesAlike (py : Interpreter) (size : ℕ) (given : List String) (polls : List Poll) :
    Prop where
  requests : ∀ (i : ℕ) p sent, polls[i]? = some p →
    (syncWait py size given polls).2[i]? = some sent → ∀ k < sent.length, (p.requests k).Alike py
  sent : (syncWait py size given polls).2 = (asyncWait py size given polls).2
  ending : SameOutcome (syncWait py size given polls).1 (asyncWait py size given polls).1

/-- **Both waits on one network.** They survive the same failures exactly if, at every attempt that
they make in time, the connection is not lost and no answer is garbled. -/
theorem survives_iff {py : Interpreter} (hpy : ReplaceExtends py) (size : ℕ) (given : List String)
    (polls : List Poll) :
    SurvivesAlike py size given polls ↔
      ∀ (i : ℕ) p sent, polls[i]? = some p → (syncWait py size given polls).2[i]? = some sent →
        ∀ k < sent.length, ∀ a ∈ (p.requests k).made py, (p.requests k).Fair py a := by
  constructor
  · intro hsurvives i p sent hp hi k hk
    exact (request_alike_iff hpy _).mp (hsurvives.requests i p sent hp hi k hk)
  · intro hfair
    have halike : ∀ (i : ℕ) p sent, polls[i]? = some p →
        (syncWait py size given polls).2[i]? = some sent →
          ∀ k < sent.length, (p.requests k).Alike py := fun i p sent hp hi k hk =>
      (request_alike_iff hpy _).mpr (hfair i p sent hp hi k hk)
    have hwaits : (syncWait py size given polls).2 = (asyncWait py size given polls).2 ∧
        SameOutcome (syncWait py size given polls).1 (asyncWait py size given polls).1 := by
      simp only [syncWait, asyncWait, waitForImages] at halike ⊢
      cases hnames : imageNames given with
      | error exc => exact ⟨rfl, trivial⟩
      | ok names =>
          rw [hnames] at halike
          apply waitLoop_congr
          intro i p sent hp hi k hk
          exact (halike i p sent hp hi k hk).result
    exact ⟨halike, hwaits.1, hwaits.2⟩

/-- A request that fares alike at every attempt. -/
def steadyRequest (wire : Exchanged) : EnsureRequest where
  headers := []
  body := []
  timeout := 30
  deadline := none
  attempts _ := { now := 0, wire, later := 0, jitter := 0 }

def steadyPoll (wire : Exchanged) : Poll where
  requests _ := steadyRequest wire

/-- Nobody listens, and then there is nobody to answer either. -/
def refusedExchange : Exchanged :=
  .refused 0 {
    kind := .other, errno := some 111, name := "ConnectionRefusedError"
    text := "[Errno 111] Connection refused" } rfl

/-- A whole answer with this text. -/
def textExchange (status : ℤ) (text : String) (h : text.toUTF8.toList ≠ []) : Exchanged :=
  .answered {
      start := 0, reused := false
      response := { bodyAnswer text.toUTF8.toList with status } } {
    chunks := by simpa [bodyAnswer] using h
    length := by simp [bodyAnswer, Body.delivered]
    complete := by simp [bodyAnswer, Body.delivered] }

theorem fair_textExchange {py : Interpreter} {status : ℤ} {text : String}
    (h : text.toUTF8.toList ≠ []) (hutf8 : py.utf8 text.toUTF8.toList ≠ none) :
    ¬ (textExchange status text h).Lost py ∧ ¬ (textExchange status text h).Garbled py := by
  refine ⟨fun hlost => hlost.1 rfl, fun hgarbled => hutf8 ?_⟩
  have hnone := hgarbled.2.2.2.1
  simpa [bodyAnswer, Body.delivered] using hnone

/-- The status of an image that is built, and an interpreter that knows the text. -/
def readyText : String := "\x7b\"images\": \x7b\"a\": \x7b\"state\": \"ready\"\x7d\x7d\x7d"

def readyInterpreter : Interpreter :=
  .ascii [(readyText, .dict [("images", .dict [("a", .dict [("state", .str "ready")])])])]

/-- Nobody listens; the gateway is not available; and the image is built. -/
def outagePolls : List Poll :=
  [steadyPoll refusedExchange, steadyPoll (textExchange 503 "busy" (by decide +kernel)),
    steadyPoll (textExchange 200 readyText (by decide +kernel))]

def WaitOutcome.settledNames : WaitOutcome → Option (List String)
  | .returned statuses => some (statuses.map Prod.fst)
  | _ => none

/-- Both waits go on over the refused connection and the `503`, and return with the image. -/
theorem survives_outage :
    (syncWait readyInterpreter imageRecipeBatch ["a"] outagePolls).1.settledNames = some ["a"] ∧
      SurvivesAlike readyInterpreter imageRecipeBatch ["a"] outagePolls := by
  refine ⟨by decide +kernel, (survives_iff (replaceExtends_ascii _) _ _ _).mpr ?_⟩
  intro i p sent hp hi k hk a ha hopen
  obtain ⟨n, -, rfl⟩ := List.mem_map.mp (mem_of_attemptsMade ha)
  have hmem := List.mem_of_getElem? hp
  simp only [outagePolls, List.mem_cons, List.not_mem_nil, or_false] at hmem
  rcases hmem with rfl | rfl | rfl
  · exact ⟨id, id⟩
  · exact fair_textExchange (by decide +kernel) (by decide +kernel)
  · exact fair_textExchange (by decide +kernel) (by decide +kernel)

def WaitOutcome.isRunning : WaitOutcome → Bool
  | .running => true
  | _ => false

theorem SameOutcome.isRunning {o o' : WaitOutcome} (h : SameOutcome o o') :
    o.isRunning = o'.isRunning := by
  cases o <;> cases o' <;> first | rfl | exact h.elim

/-- The server disconnects: the sync wait goes on, and the async one raises. -/
theorem disconnect_ends_wait :
    ¬ SurvivesAlike (.ascii []) imageRecipeBatch ["a"]
      [steadyPoll (.lost 0 false .disconnected)] := by
  intro h
  have hsync : (syncWait (.ascii []) imageRecipeBatch ["a"]
      [steadyPoll (.lost 0 false .disconnected)]).1.isRunning = true := by decide +kernel
  have hasync : (asyncWait (.ascii []) imageRecipeBatch ["a"]
      [steadyPoll (.lost 0 false .disconnected)]).1.isRunning = false := by decide +kernel
  have hsame := h.ending.isRunning
  rw [hsync, hasync] at hsame
  cases hsame

end UcloudSandboxes.Client
