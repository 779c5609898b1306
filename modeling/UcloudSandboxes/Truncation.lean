import UcloudSandboxes.Client.Request
import UcloudSandboxes.Relay.Handling

/-!
# Truncated bodies

A response is `Cut` if it declares `n` bytes and the peer closes after `k` of them. The sync reader
reads up to the limit, and `HTTPResponse.read(amt)` returns what arrived; nothing compares that with
the declared length. What `download_file` returns and what the sync `forward_to` commits follow the
reader.

`cut_reported_iff`: the three report a complete body exactly when nothing is missing.
-/
namespace UcloudSandboxes
open Python Http Client Relay

/-- The response declares `n` bytes, within the limit, and `k` of them arrive before the peer
closes. -/
structure Cut (py : Interpreter) (r : Response) (n k limit : ℕ) : Prop where
  declared : (findHeader (responseHeaders r.headers) "content-length").bind (parseInt py) = some ↑n
  length : r.body.length = some n
  delivered : r.body.delivered.length = k
  le : k ≤ n
  limit : n ≤ limit
  ending : r.body.ending = .closed

/-- The sync reader returns what arrived. -/
theorem Cut.read {py : Interpreter} {r : Response} {n k limit : ℕ} (h : Cut py r n k limit) :
    readSyncResponse py r limit = .ok r.body.delivered := by
  have hcheck : checkContentLength py r.headers limit = .ok () := by
    apply checkContentLength_ok
    intro m hm
    rw [h.declared] at hm
    cases hm
    exact_mod_cast h.limit
  have hbody : r.body.read (limit + 1) = .ok r.body.delivered := by
    have hmin : min (limit + 1) n = n := by
      have := h.limit
      omega
    simp only [Body.read]
    simp only [h.length, hmin, h.ending]
    split
    · rename_i hle
      rw [List.take_of_length_le]
      rw [h.delivered]
      exact h.le
    · rfl
  have hlength : ¬ limit < r.body.delivered.length := by
    rw [h.delivered]
    have := h.le
    have := h.limit
    omega
  simp only [readSyncResponse, hcheck, hbody, bind, Except.bind, if_neg hlength]

namespace Client

/-- The last exchange of a pass through `open_reusing` decides what it returns. -/
theorem openReusing_last {req : HttpRequest} {timeout : ℚ} {position : ℕ} {ws : List Wire}
    {t : Transmission} {r : Response}
    (hlast : (openReusing req timeout position ws).2.getLast? = some t)
    (hending : t.ending = .answered r) :
    (openReusing req timeout position ws).1 = some (.ok r) := by
  have hexchange (exchange : Exchange) (h : exchange.ending = .answered r) :
      exchange.result = .ok r := by
    cases exchange with
    | answered r' consumed =>
        cases h
        rfl
    | _ => cases h
  induction ws generalizing position with
  | nil => cases hlast
  | cons w ws ih =>
      simp only [openReusing] at hlast ⊢
      cases hlink : w.link with
      | refused e =>
          rw [hlink] at hlast
          cases hlast
          cases hending
      | fresh exchange =>
          rw [hlink] at hlast
          cases hlast
          simp only [hexchange exchange hending]
      | reused exchange =>
          rw [hlink] at hlast
          simp only at hlast ⊢
          split at hlast
          · rename_i hdropped
            rw [if_pos hdropped]
            cases hagain : (openReusing req timeout (position + exchange.consumed) ws).2 with
            | nil =>
                rw [hagain] at hlast
                cases hlast
                cases exchange with
                | answered r' consumed => cases hdropped
                | _ => cases hending
            | cons first rest =>
                rw [hagain, List.getLast?_cons_cons] at hlast
                exact ih (by rw [hagain]; exact hlast)
          · rename_i hkept
            rw [if_neg hkept]
            cases hlast
            simp only [hexchange exchange hending]

/-- A success that is the last exchange of an attempt ends the loop with what the reader makes of
it. -/
theorem syncAttempt_last {α : Type} {py : Interpreter} {reader : Reader α} {call : Call}
    {attempt : ℕ} {a : Attempt (List Wire)} {t : Transmission} {r : Response} {v : α}
    (hlast : (syncAttempt py reader call attempt a).2.getLast? = some t)
    (hending : t.ending = .answered r) (hstatus : isSuccess r.status = true)
    (hread : reader.read py r = .ok v) :
    (syncAttempt py reader call attempt a).1 = .stop (.returned v) := by
  simp only [syncAttempt] at hlast ⊢
  cases hremaining : requiredRemainingSeconds call.deadline a.now with
  | error exc =>
      rw [hremaining] at hlast
      cases hlast
  | ok remaining =>
      rw [hremaining] at hlast
      simp only at hlast ⊢
      have hsent : (openReusing call.req (requestTimeoutSeconds remaining call.timeout) 0
          a.wire).2.getLast? = some t := by
        generalize openReusing call.req (requestTimeoutSeconds remaining call.timeout) 0 a.wire =
          opened at hlast ⊢
        obtain ⟨result, sent⟩ := opened
        cases result with
        | none => exact hlast
        | some result =>
            cases result with
            | error exc => exact hlast
            | ok r' =>
                simp only at hlast
                split at hlast
                · split at hlast <;> exact hlast
                · exact hlast
      simp only [openReusing_last hsent hending, hstatus, if_true, hread]

/-- The last exchange of a call decides it, if it ends the attempt it is part of. -/
theorem attemptLoop_last {ω α : Type} {maxAttempts : Option ℕ}
    {body : ℕ → Attempt ω → Next α × List Transmission} {attempt : ℕ}
    {schedule : List (Attempt ω)} {t : Transmission} {outcome : Outcome α}
    (hbody : ∀ n a, (body n a).2.getLast? = some t → (body n a).1 = .stop outcome)
    (hlast : (attemptLoop maxAttempts body attempt schedule).2.getLast? = some t) :
    (attemptLoop maxAttempts body attempt schedule).1 = outcome := by
  induction schedule generalizing attempt with
  | nil =>
      simp only [attemptLoop] at hlast
      split at hlast <;> cases hlast
  | cons a rest ih =>
      simp only [attemptLoop] at hlast ⊢
      split at hlast
      · cases hlast
      · rename_i hexhausted
        rw [if_neg hexhausted]
        cases hrun : body attempt a with
        | mk next sent =>
        have hattempt := hbody attempt a
        rw [hrun] at hlast hattempt
        cases next with
        | stop o =>
            have hstop := hattempt hlast
            cases hstop
            rfl
        | again =>
            simp only at hlast ⊢
            cases hlater : (attemptLoop maxAttempts body (attempt + 1) rest).2 with
            | nil =>
                rw [hlater, List.append_nil] at hlast
                cases hattempt hlast
            | cons first later =>
                apply ih
                rw [hlater] at hlast ⊢
                simpa using hlast

/-- What `download_file` returns for a success. -/
theorem requestBytes_last {py : Interpreter} {call : Call} {schedule : List (Attempt (List Wire))}
    {t : Transmission} {r : Response} {body : Bytes}
    (hlast : (requestBytes py call schedule).2.getLast? = some t)
    (hending : t.ending = .answered r) (hstatus : isSuccess r.status = true)
    (hread : readSyncResponse py r maxFileResponseBytes = .ok body) :
    (requestBytes py call schedule).1 = .returned body :=
  attemptLoop_last (fun _ _ h => syncAttempt_last h hending hstatus hread) hlast

end Client

namespace Relay
variable {V : Type}

/-- The completion that carries a whole response of the upstream. -/
def upstreamPayload (request : RelayRequest) (r : Response) (body : Bytes) :
    Except Raised (CompletionPayload V) :=
  responsePayload request (.bytes body) r.status (some (safeHttpHeaders (messageDict r.headers)))

/-- The sync `forward_to` commits what the reader returns, if it can be sent. -/
theorem forwardTo_commits {rt : Runtime V} (forwardTimeout : ℚ) (relay : ℕ → Reply)
    {request : RelayRequest} {baseUrl : String} {send : UpstreamRequest → Reply} {r : Response}
    {body : Bytes} (hrequest : request.bodyBytes.length ≤ maxRelayHttpBodyBytes)
    (hreply : send (upstreamRequest request baseUrl) = .ok r)
    (hread : readSyncResponse rt.py r maxRelayHttpBodyBytes = .ok body)
    (hsent : unsent rt (upstreamPayload (V := V) request r body) = none) :
    ∃ p, upstreamPayload request r body = .ok p ∧
      p ∈ ((syncClient rt forwardTimeout).forwardTo relay request baseUrl send {}).1.completions := by
  cases hpayload : upstreamPayload (V := V) request r body with
  | error exc =>
      rw [hpayload] at hsent
      cases hsent
  | ok p =>
      rw [hpayload] at hsent
      refine ⟨p, rfl, ?_⟩
      have hforward : (syncClient rt forwardTimeout).forwardRead (.ok r) =
          .body body r.status (safeHttpHeaders (messageDict r.headers)) := by
        show syncForwardRead rt (.ok r) = _
        simp only [syncForwardRead, hread]
      have hsize : validateHttpBodySize request.bodyBytes = .ok () := by
        simp only [validateHttpBodySize]
        rw [if_neg (Nat.not_lt.mpr hrequest)]
      have hcommit : responsePayload request (.bytes body) r.status
          (some (safeHttpHeaders (messageDict r.headers))) = .ok p := hpayload
      have hsent' : unsent (syncClient rt forwardTimeout).rt (.ok p) = none := hsent
      obtain ⟨k, -, -, -, hrun⟩ :=
        @RelayClient.commitLoop_sends V (syncClient rt forwardTimeout) relay request p hsent' 59
          { invocations := 1 }
      simp only [RelayClient.forwardTo]
      rw [hsize]
      simp only [hreply, hforward, RelayClient.commitResponseBytesTo_eq, hcommit]
      rw [hrun]
      exact List.mem_append_right _ (List.mem_replicate.mpr ⟨Nat.succ_ne_zero k, rfl⟩)

end Relay

/-- A cut body is reported as a complete one exactly when nothing is missing: by the sync reader, by
`download_file` in a call whose last exchange brought it, and by the sync `forward_to`, which
commits the delivered bytes as the upstream's body when the completion can be sent. -/
theorem cut_reported_iff {V : Type} (rt : Runtime V) (r : Response) (n k : ℕ) :
    (∀ limit, Cut rt.py r n k limit →
      ((∀ body, readSyncResponse rt.py r limit = .ok body → k = n) ↔ k = n)) ∧
    (∀ call schedule t, Cut rt.py r n k maxFileResponseBytes → isSuccess r.status = true →
      (requestBytes rt.py call schedule).2.getLast? = some t → t.ending = .answered r →
      ((∀ body, (requestBytes rt.py call schedule).1 = .returned body → k = n) ↔ k = n)) ∧
    (∀ forwardTimeout relay request baseUrl send, Cut rt.py r n k maxRelayHttpBodyBytes →
      request.bodyBytes.length ≤ maxRelayHttpBodyBytes →
      send (upstreamRequest request baseUrl) = .ok r →
      unsent rt (upstreamPayload (V := V) request r r.body.delivered) = none →
      ((∀ p, upstreamPayload request r r.body.delivered = .ok p →
        p ∈ ((syncClient rt forwardTimeout).forwardTo relay request baseUrl send {}).1.completions →
        k = n) ↔ k = n)) := by
  refine ⟨?_, ?_, ?_⟩
  · intro limit hcut
    exact ⟨fun h => h _ hcut.read, fun h _ _ => h⟩
  · intro call schedule t hcut hstatus hlast hending
    exact ⟨fun h => h _ (requestBytes_last hlast hending hstatus hcut.read), fun h _ _ => h⟩
  · intro forwardTimeout relay request baseUrl send hcut hrequest hreply hsent
    obtain ⟨p, hpayload, hp⟩ :=
      forwardTo_commits forwardTimeout relay hrequest hreply hcut.read hsent
    exact ⟨fun h => h p hpayload hp, fun h _ _ _ => h⟩

/-- Two of five declared bytes arrive. -/
def cutResponse : Response where
  status := 200
  headers := [("Content-Length", "5")]
  body := { length := some 5, chunks := [[1, 2]], ending := .closed }

theorem cut_cutResponse {limit : ℕ} (h : 5 ≤ limit) :
    Cut plainRuntime.py cutResponse 5 2 limit where
  declared := by decide +kernel
  length := rfl
  delivered := rfl
  le := by decide
  limit := h
  ending := rfl

/-- A download of the cut response. -/
def cutDownload : Call where
  req := { method := "GET", path := "/v1/sandboxes/s1/files?path=a", headers := [], content := .none }
  timeout := 60
  deadline := none

def cutSchedule : List (Attempt (List Wire)) :=
  [{ now := 0, wire := [⟨0, .fresh (.answered cutResponse 0)⟩], later := 0, jitter := 0 }]

theorem requestBytes_cutSchedule :
    ∃ t, (requestBytes plainRuntime.py cutDownload cutSchedule).2.getLast? = some t ∧
      t.ending = .answered cutResponse := by
  have hattempts : cutDownload.maxAttempts = none := by decide +kernel
  have hread : readSyncResponse plainRuntime.py cutResponse maxFileResponseBytes = .ok [1, 2] :=
    (cut_cutResponse (by decide)).read
  refine ⟨{
    start := 0, timeout := requestTimeoutSeconds none 60, method := "GET"
    path := "/v1/sandboxes/s1/files?path=a", headers := [], body := [], ending := _ }, ?_, rfl⟩
  simp only [requestBytes, syncRequest]
  rw [hattempts]
  simp only [cutSchedule, attemptLoop, attemptLoop.exhausted, syncAttempt,
    requiredRemainingSeconds, remainingSeconds, cutDownload, Option.map_none, openReusing,
    Exchange.result, bytesReader, hread]
  rfl

theorem unsent_cutResponse :
    unsent plainRuntime (upstreamPayload leasedRequest cutResponse cutResponse.body.delivered) =
      none :=
  Option.isNone_iff_eq_none.mp (by decide +kernel)

/-- All three report the cut response as complete. -/
theorem cut_reported_cutResponse :
    ¬ (∀ body, readSyncResponse plainRuntime.py cutResponse 10 = .ok body → 2 = 5) ∧
      ¬ (∀ body, (requestBytes plainRuntime.py cutDownload cutSchedule).1 = .returned body →
        2 = 5) ∧
      ¬ (∀ p, upstreamPayload leasedRequest cutResponse [1, 2] = .ok p →
        p ∈ ((syncClient plainRuntime 600).forwardTo (fun _ => acceptedReply) leasedRequest
          "http://model" (fun _ => .ok cutResponse) {}).1.completions → 2 = 5) := by
  have h := cut_reported_iff plainRuntime cutResponse 5 2
  refine ⟨fun hread => ?_, fun hdownload => ?_, fun hforward => ?_⟩
  · exact absurd ((h.1 10 (cut_cutResponse (by decide))).mp hread) (by decide)
  · obtain ⟨t, hlast, hending⟩ := requestBytes_cutSchedule
    exact absurd ((h.2.1 cutDownload cutSchedule t (cut_cutResponse (by decide)) rfl hlast
      hending).mp hdownload) (by decide)
  · exact absurd ((h.2.2 600 (fun _ => acceptedReply) leasedRequest "http://model"
      (fun _ => .ok cutResponse) (cut_cutResponse (by decide)) (Nat.zero_le _) rfl
      unsent_cutResponse).mp hforward) (by decide)

/-- The two bytes of the cut response are returned, downloaded and committed as a whole body. -/
theorem cut_reported :
    Cut plainRuntime.py cutResponse 5 2 10 ∧
      readSyncResponse plainRuntime.py cutResponse 10 = .ok [1, 2] ∧
      (requestBytes plainRuntime.py cutDownload cutSchedule).1 = .returned [1, 2] ∧
      ∃ p, upstreamPayload leasedRequest cutResponse [1, 2] = .ok p ∧
        p ∈ ((syncClient plainRuntime 600).forwardTo (fun _ => acceptedReply) leasedRequest
          "http://model" (fun _ => .ok cutResponse) {}).1.completions := by
  obtain ⟨t, hlast, hending⟩ := requestBytes_cutSchedule
  refine ⟨cut_cutResponse (by decide), (cut_cutResponse (by decide)).read, ?_, ?_⟩
  · exact requestBytes_last hlast hending rfl (cut_cutResponse (by decide)).read
  · exact forwardTo_commits 600 _ (Nat.zero_le _) rfl (cut_cutResponse (by decide)).read
      unsent_cutResponse

end UcloudSandboxes
