import UcloudSandboxes.Relay.Handling

/-!
# The completions of one request agree

The handler answers any exception that is not a `RelayApiError` with an error completion. In the
async client a completion call raises nothing else once it has sent its request. In the sync client
some exceptions of reading the acknowledgement get through, `Escapes`, and an error completion then
follows a response that was dispatched.

`completions_agree` says that this is the only way in which the completions of a request can differ.
-/
namespace UcloudSandboxes.Relay
open Python Http

variable {V : Type}

/-- All completions carry the same payload, and so go to the same endpoint. -/
def Agree (completions : List (CompletionPayload V)) : Prop :=
  ∀ p ∈ completions, ∀ q ∈ completions, p = q

/-- The sync `_request_json` raises something other than a `RelayApiError` on this reply. -/
inductive Escapes (rt : Runtime V) : Reply → Raised → Prop
  /-- `http.client` finds no valid response. -/
  | protocol (text : String) : Escapes rt (.error (.protocol text)) (.protocol text)
  | builtin (cls : Builtin) (text : String) :
      Escapes rt (.error (.builtin cls text)) (.builtin cls text)
  /-- The body of any answer breaks off in its framing. -/
  | brokenBody {r : Response} {text : String}
      (hread : readSyncResponse rt.py r maxRelayJsonBytes = .error (.protocol text)) :
      Escapes rt (.ok r) (.protocol text)
  /-- The connection fails while the body of an error answer is read. -/
  | lostBody {r : Response} {e : OsError} (hstatus : isSuccess r.status = false)
      (hread : readSyncResponse rt.py r maxRelayJsonBytes = .error (.os e)) :
      Escapes rt (.ok r) (.os e)
  /-- The body of a success is not UTF-8. -/
  | undecodable {r : Response} {raw : Bytes} (hstatus : isSuccess r.status = true)
      (hread : readSyncResponse rt.py r maxRelayJsonBytes = .ok raw)
      (hutf8 : rt.py.utf8 raw = none) :
      Escapes rt (.ok r) (.builtin .valueError (rt.undecodable raw))
  /-- `json.loads` raises something other than `JSONDecodeError`. -/
  | json {r : Response} {raw : Bytes} {text : String} {cls : Builtin} {message : String}
      (hread : readSyncResponse rt.py r maxRelayJsonBytes = .ok raw)
      (htext : if isSuccess r.status then rt.py.utf8 raw = some text
        else text = rt.py.utf8Replace raw)
      (hjson : text ≠ "" ∧ rt.py.loads text = .raised cls message) :
      Escapes rt (.ok r) (.builtin cls message)

theorem Escapes.foreign {rt : Runtime V} {reply : Reply} {exc : Raised}
    (h : Escapes rt reply exc) : Foreign exc := by
  cases h <;> exact ⟨rfl, fun e he => by cases he⟩

/-- Decoding an answer raises no foreign exception but those of `json.loads`. -/
theorem decodeRelayJson_foreign {py : Interpreter} {raw : String} {status : ℤ} {headers : Headers}
    {exc : Raised} (h : decodeRelayJson py raw status headers = .error exc) (hforeign : Foreign exc) :
    ∃ cls message, exc = .builtin cls message ∧ raw ≠ "" ∧ py.loads raw = .raised cls message := by
  rcases decode_error h with ⟨e, rfl⟩ | ⟨cls, message, -, rfl⟩
  · exact absurd hforeign (not_foreign_api e)
  · exact ⟨cls, message, rfl, decode_builtin_iff.mp h⟩

/-- The foreign exceptions of the sync client are those of `Escapes`. -/
theorem syncAnswer_escapes {rt : Runtime V} {reply : Reply} {exc : Raised}
    (h : syncAnswer rt reply = .error exc) (hforeign : Foreign exc) : Escapes rt reply exc := by
  simp only [syncAnswer] at h
  split at h
  · rename_i failure
    cases failure with
    | os e =>
        cases h
        exact absurd hforeign (not_foreign_api _)
    | url reason =>
        cases h
        exact absurd hforeign (not_foreign_api _)
    | protocol text =>
        cases h
        exact .protocol text
    | builtin cls text =>
        cases h
        exact .builtin cls text
    | base name =>
        cases h
        cases hforeign.1
  · rename_i r
    split at h
    · cases h
      exact absurd hforeign (not_foreign_api _)
    · rename_i e htooLarge hread
      rcases readSyncResponse_error hread with rfl | ⟨e, -, rfl⟩ | ⟨text, -, rfl⟩
      · exact absurd rfl (htooLarge _)
      · cases hstatus : isSuccess r.status with
        | true =>
            rw [hstatus] at h
            cases h
            exact absurd hforeign (not_foreign_api _)
        | false =>
            rw [hstatus] at h
            cases h
            exact .lostBody hstatus hread
      · simp only [Raised.isOsError, Bool.and_false, Bool.false_eq_true, if_false] at h
        cases h
        exact .brokenBody hread
    · rename_i raw hread
      split at h
      · rename_i hstatus
        split at h
        · rename_i text htext
          obtain ⟨cls, message, rfl, hjson⟩ := decodeRelayJson_foreign h hforeign
          exact .json hread (by rw [hstatus]; exact htext) hjson
        · rename_i hutf8
          cases h
          exact .undecodable hstatus hread hutf8
      · rename_i hstatus
        obtain ⟨cls, message, rfl, hjson⟩ := decodeRelayJson_foreign h hforeign
        exact .json hread (by rw [if_neg hstatus]) hjson

/-- A reply escapes with the exception that is raised. -/
theorem Escapes.answer {rt : Runtime V} {reply : Reply} {exc : Raised} (h : Escapes rt reply exc) :
    syncAnswer rt reply = .error exc := by
  cases h with
  | protocol text => rfl
  | builtin cls text => rfl
  | brokenBody hread => simp [syncAnswer, hread, Raised.isOsError]
  | lostBody hstatus hread => simp [syncAnswer, hread, hstatus]
  | undecodable hstatus hread hutf8 => simp [syncAnswer, hread, hstatus, hutf8]
  | json hread htext hjson =>
      rename_i r raw text cls message
      have hdecode : decodeRelayJson rt.py text r.status (responseHeaders r.headers) =
          .error (.builtin cls message) := decode_builtin_iff.mpr hjson
      cases hstatus : isSuccess r.status with
      | true =>
          rw [hstatus, if_pos rfl] at htext
          simpa only [syncAnswer, hread, hstatus, htext, if_true] using hdecode
      | false =>
          simp only [hstatus, Bool.false_eq_true, if_false] at htext
          subst htext
          simpa only [syncAnswer, hread, hstatus, Bool.false_eq_true, if_false] using hdecode

theorem not_foreign_wrapped (exc : Raised) : ¬ Foreign (wrapped exc) := by
  cases exc with
  | base name => exact fun h => by cases h.1
  | _ => exact not_foreign_api _

/-- The async client raises no foreign exception on a reply. -/
theorem asyncAnswer_error {rt : Runtime V} {reply : Reply} {exc : Raised}
    (h : asyncAnswer rt reply = .error exc) : ¬ Foreign exc := by
  simp only [asyncAnswer] at h
  obtain ⟨e, -, rfl⟩ := mapError_eq_error h
  exact not_foreign_wrapped e

/-- The receipt adds only errors of the client. -/
theorem receipt_foreign {c : RelayClient V} {request : RelayRequest} {reply : Reply} {exc : Raised}
    (hforeign : Foreign exc) :
    c.receipt request reply = .error exc ↔ c.answer reply = .error exc := by
  simp only [RelayClient.receipt]
  cases c.answer reply with
  | error e => exact Iff.rfl
  | ok payload =>
      simp only [bind, Except.bind, reduceCtorEq, iff_false]
      intro h
      simp only [completionReceipt] at h
      split at h
      · cases h
        exact not_foreign_api _ hforeign
      · split at h
        · cases h
          exact not_foreign_api _ hforeign
        · cases h

/-- A handler's or an upstream's completion is no error completion with status 502. -/
theorem chosen_ne_error {c : RelayClient V} {request : RelayRequest} {work : Work V}
    {p q : CompletionPayload V} {message : String} (hp : c.chosen request work = .ok p)
    (hq : errorPayload request message 502 = .ok q) : p ≠ q := by
  obtain ⟨lease, -, rfl⟩ := errorPayload_ok hq
  simp only [RelayClient.chosen] at hp
  split at hp
  · obtain ⟨lease', -, rfl⟩ := errorPayload_ok hp
    intro h
    cases h
  · split at hp
    · obtain ⟨-, -, hp⟩ := bind_eq_ok hp
      simp only [RelayClient.forwardPayload] at hp
      split at hp
      · cases hp
      · obtain ⟨lease', encoded, -, rfl⟩ := responsePayload_ok hp
        intro h
        cases h
      · obtain ⟨lease', encoded, -, rfl⟩ := responsePayload_ok hp
        intro h
        cases h
    · obtain ⟨result, -, hp⟩ := bind_eq_ok hp
      simp only [RelayClient.handlerPayload] at hp
      split at hp
      · obtain ⟨lease', encoded, -, rfl⟩ := responsePayload_ok hp
        intro h
        cases h
      · obtain ⟨lease', encoded, -, rfl⟩ := responsePayload_ok hp
        intro h
        cases h

/-- The completion of the `try` block was dispatched, the replies to it up to reply `k` led to
another attempt, reply `k` escapes with `exc`, and the error completion for `exc` can be sent. -/
structure Contradicts (c : RelayClient V) (escapes : Reply → Raised → Prop) (relay : ℕ → Reply)
    (request : RelayRequest) (work : Work V) (p : CompletionPayload V) (k : ℕ) (exc : Raised) :
    Prop where
  chosen : c.chosen request work = .ok p
  sent : unsent c.rt (.ok p) = none
  attempt : k < RelayClient.attempts request work
  retried : ∀ j < k, c.retried request (relay j) = true
  escapes : escapes (relay k) exc
  errorSent : unsent c.rt (errorPayload (V := V) request (c.errorText exc) 502) = none

theorem agree_replicate (n : ℕ) (p : CompletionPayload V) : Agree (List.replicate n p) := by
  intro x hx y hy
  rw [List.eq_of_mem_replicate hx, List.eq_of_mem_replicate hy]

theorem not_agree_snoc {n : ℕ} {p q : CompletionPayload V} (hne : p ≠ q) :
    ¬ Agree (List.replicate (n + 1) p ++ [q]) := by
  intro h
  exact hne (h p (by simp [List.replicate_succ]) q (by simp))

section
variable {c : RelayClient V} {escapes : Reply → Raised → Prop} {relay : ℕ → Reply}
  {request : RelayRequest} {work : Work V}

/-- A reply that escapes is no reason for another attempt. -/
theorem not_retried {reply : Reply} {exc : Raised} (hanswer : c.answer reply = .error exc)
    (hforeign : Foreign exc) : c.retried request reply = false := by
  simp only [RelayClient.retried]
  rw [(receipt_foreign hforeign).mpr hanswer]
  cases exc with
  | api e => exact absurd hforeign (not_foreign_api e)
  | _ => rfl

/-- The reply that escapes is the one that ends the loop. -/
theorem Contradicts.index_eq {p : CompletionPayload V} {k k' : ℕ} {exc : Raised}
    (hescapes : ∀ reply exc, escapes reply exc ↔ c.answer reply = .error exc ∧ Foreign exc)
    (h : Contradicts c escapes relay request work p k' exc)
    (hbefore : ∀ j < k, c.retried request (relay j) = true)
    (hlast : c.retried request (relay k) = true → k + 1 = RelayClient.attempts request work) :
    k' = k := by
  obtain ⟨hanswer, hforeign⟩ := (hescapes _ _).mp h.escapes
  have hstop : c.retried request (relay k') = false := not_retried hanswer hforeign
  rcases Nat.lt_trichotomy k' k with hlt | heq | hgt
  · rw [hbefore k' hlt] at hstop
    cases hstop
  · exact heq
  · have := hlast (h.retried k hgt)
    have := h.attempt
    omega

end

/-- Two completions of a request differ iff the first is contradicted. -/
theorem agree_iff (c : RelayClient V) (escapes : Reply → Raised → Prop)
    (hescapes : ∀ reply exc, escapes reply exc ↔ c.answer reply = .error exc ∧ Foreign exc)
    (relay : ℕ → Reply) (request : RelayRequest) (work : Work V) (renewal : Option Raised) :
    Agree (c.handleRequest relay request work renewal).1.completions ↔
      ¬ ∃ p k exc, Contradicts c escapes relay request work p k exc := by
  simp only [RelayClient.handleRequest]
  rcases c.tryBlock_sends relay request work with
    ⟨exc, hunsent, hblock⟩ | ⟨p, k, hchosen, hsent, hk, hbefore, hlast, hblock⟩
  · -- nothing was dispatched before an error completion
    rw [hblock]
    refine iff_of_true ?_ ?_
    · by_cases hforeign : Foreign exc
      · rcases c.afterTry_foreign_cases relay request renewal
          { invocations := RelayClient.invocations request work } hforeign with
          ⟨e, -, hafter⟩ | ⟨q, -, -, hafter⟩
        · rw [hafter]
          intro x hx
          cases hx
        · rw [hafter]
          exact agree_replicate 1 q
      · rw [c.afterTry_of_not_foreign relay (by rintro e ⟨⟩; exact hforeign)]
        intro x hx
        cases hx
    · rintro ⟨p, k, e, h⟩
      rw [h.chosen, h.sent] at hunsent
      cases hunsent
  · rw [hblock]
    by_cases hforeign : ∃ exc, c.receipt request (relay k) = .error exc ∧ Foreign exc
    · obtain ⟨exc, hreceipt, hforeign⟩ := hforeign
      have hanswer := (receipt_foreign hforeign).mp hreceipt
      rw [hreceipt]
      rcases c.afterTry_foreign_cases relay request renewal
          { invocations := RelayClient.invocations request work
            completions := List.replicate (k + 1) p } hforeign with
        ⟨e, hunsent, hafter⟩ | ⟨q, hq, hunsent, hafter⟩
      · -- the error completion cannot be sent
        rw [hafter]
        refine iff_of_true (agree_replicate _ p) ?_
        rintro ⟨p', k', e', h⟩
        obtain rfl := h.index_eq hescapes hbefore hlast
        obtain ⟨hanswer', -⟩ := (hescapes _ _).mp h.escapes
        rw [hanswer] at hanswer'
        cases hanswer'
        rw [h.errorSent] at hunsent
        cases hunsent
      · rw [hafter]
        refine iff_of_false (not_agree_snoc (chosen_ne_error hchosen hq)) (not_not_intro ?_)
        exact ⟨p, k, exc, hchosen, hsent, hk, hbefore,
          (hescapes _ _).mpr ⟨hanswer, hforeign⟩, hunsent⟩
    · rw [c.afterTry_of_not_foreign relay (fun exc he hf => hforeign ⟨exc, he, hf⟩)]
      refine iff_of_true (agree_replicate _ p) ?_
      rintro ⟨p', k', e', h⟩
      obtain rfl := h.index_eq hescapes hbefore hlast
      obtain ⟨hanswer', hforeign'⟩ := (hescapes _ _).mp h.escapes
      exact hforeign ⟨e', (receipt_foreign hforeign').mpr hanswer', hforeign'⟩

/-- In the async worker all completions of a request agree. In the sync worker they agree unless
reading the acknowledgement of the first one lets an exception through and the error completion for
it is sent. -/
theorem completions_agree (rt : Runtime V) (forwardTimeout : ℚ) (relay : ℕ → Reply)
    (request : RelayRequest) (work : Work V) (renewal : Option Raised) :
    Agree (handleAsyncRequest rt forwardTimeout relay request work renewal).1.completions ∧
      (Agree (handleSyncRequest rt forwardTimeout relay request work renewal).1.completions ↔
        ¬ ∃ p k exc,
          Contradicts (syncClient rt forwardTimeout) (Escapes rt) relay request work p k exc) := by
  constructor
  · have hescapes : ∀ reply exc, False ↔
        (asyncClient rt forwardTimeout).answer reply = .error exc ∧ Foreign exc :=
      fun reply exc => iff_of_false id fun h => asyncAnswer_error h.1 h.2
    simp only [handleAsyncRequest]
    rw [agree_iff (asyncClient rt forwardTimeout) (fun _ _ => False) hescapes]
    rintro ⟨p, k, exc, h⟩
    exact h.escapes
  · have hescapes : ∀ reply exc, Escapes rt reply exc ↔
        (syncClient rt forwardTimeout).answer reply = .error exc ∧ Foreign exc :=
      fun reply exc => ⟨fun h => ⟨h.answer, h.foreign⟩, fun h => syncAnswer_escapes h.1 h.2⟩
    simp only [handleSyncRequest]
    rw [agree_iff (syncClient rt forwardTimeout) (Escapes rt) hescapes]

/-- A success whose body is no UTF-8. -/
def garbledReply : Reply :=
  .ok ⟨200, [], { length := some 1, chunks := [[255]], ending := .complete }⟩

/-- A response whose acknowledgement is garbled is followed by an error for the same request. -/
theorem completions_contradict :
    ¬ Agree (handleSyncRequest plainRuntime 600 (fun _ => garbledReply) leasedRequest
      (.handler fun _ => .ok (.plain (.value "done"))) none).1.completions := by
  intro h
  have hpaths : (handleSyncRequest plainRuntime 600 (fun _ => garbledReply) leasedRequest
      (.handler fun _ => .ok (.plain (.value "done"))) none).1.completions.map
        CompletionPayload.path = ["/worker/respond", "/worker/error"] := by decide +kernel
  obtain ⟨p, rest, hcons, hp, hrest⟩ := List.map_eq_cons_iff.mp hpaths
  obtain ⟨q, rest', hcons', hq, -⟩ := List.map_eq_cons_iff.mp hrest
  rw [hcons, hcons'] at h
  have hsame : p = q := h p (by simp) q (by simp)
  rw [hsame, hq] at hp
  exact absurd hp (by decide)

end UcloudSandboxes.Relay
