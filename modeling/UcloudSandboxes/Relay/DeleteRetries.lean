import UcloudSandboxes.Relay.Backoff
import UcloudSandboxes.Relay.Flavor

/-!
# The retries of a delete

`unregister_rollout` makes up to three attempts to delete a registration. Its request is always
small enough to be sent.

## Main definitions

* `deleteRetries`: the attempts behind which the loop sleeps.

## Main results

* `deleteRegistration_eq`: the loop in terms of these attempts.
* `unregistersAgainRightly_iff`: the calls that repeat nothing but failures that may pass.
-/
namespace UcloudSandboxes.Relay
open Lib Python Http

variable {V : Type}

/-- The attempts behind which `unregister_rollout` sleeps. -/
def deleteRetries (py : Interpreter) (reply : ℕ → Except Raised Dict) : ℕ → ℕ → List ℕ
  | 0, _ => []
  | left + 1, attempt =>
      match reply attempt with
      | .error (.api e) =>
          if relayErrorIsRetryable e then
            match relayRetryDelay py e (attempt + 1) with
            | .ok _ => attempt :: deleteRetries py reply left (attempt + 1)
            | .error _ => []
          else []
      | _ => []

/-- The loop ends with the attempt behind the last one it sleeps after, or it has no delay. -/
theorem deleteRegistration_eq (py : Interpreter) (reply : ℕ → Except Raised Dict)
    {left attempt : ℕ} (h : attempt + left ≤ 1024) :
    deleteRegistration py reply left attempt =
      reply (((deleteRetries py reply left attempt).getLast?.map (· + 1)).getD attempt) := by
  induction left generalizing attempt with
  | zero => rfl
  | succ left ih =>
      rw [deleteRegistration, deleteRetries]
      rcases hreply : reply attempt with exc | answer
      · cases exc with
        | api e =>
            by_cases hretryable : relayErrorIsRetryable e = true
            · simp only [hretryable, if_true]
              rcases relayRetryDelay_cases py e (attempt + 1) with ⟨delay, -, hdelay⟩ |
                ⟨-, -, hdelay⟩ | ⟨-, hlong, -⟩
              · simp only [hdelay]
                rw [ih (by omega), List.getLast?_cons]
                cases (deleteRetries py reply left (attempt + 1)).getLast? <;> rfl
              · simp only [hdelay]
                rw [ih (by omega), List.getLast?_cons]
                cases (deleteRetries py reply left (attempt + 1)).getLast? <;> rfl
              · omega
            · simp only [hretryable, Bool.false_eq_true, if_false]
              exact hreply.symm
        | _ => exact hreply.symm
      · exact hreply.symm

section Delete
variable {rt : Runtime V} {f : Flavor} {relay : ℕ → Reply}

/-- The attempts to delete a registration that are followed by another. -/
theorem mem_deleteRetries {left attempt i : ℕ} (h : attempt + left ≤ 1024) :
    i ∈ deleteRetries rt.py (fun j => f.answer rt (relay j)) left attempt ↔
      attempt ≤ i ∧ i < attempt + left ∧
        ∀ j, attempt ≤ j → j ≤ i → f.FailsRetryably rt (relay j) := by
  induction left generalizing attempt with
  | zero =>
      simp only [deleteRetries, List.not_mem_nil, false_iff]
      omega
  | succ left ih =>
      have hunfold : deleteRetries rt.py (fun j => f.answer rt (relay j)) (left + 1) attempt =
          open Classical in if f.FailsRetryably rt (relay attempt) then
            attempt :: deleteRetries rt.py (fun j => f.answer rt (relay j)) left (attempt + 1)
          else [] := by
        rw [deleteRetries]
        by_cases hfails : f.FailsRetryably rt (relay attempt)
        · rw [if_pos hfails]
          obtain ⟨e, he, hretryable⟩ := hfails
          simp only [he, hretryable, if_true]
          rcases relayRetryDelay_cases rt.py e (attempt + 1) with ⟨delay, -, hdelay⟩ |
            ⟨-, -, hdelay⟩ | ⟨-, hlong, -⟩
          · simp only [hdelay]
          · simp only [hdelay]
          · omega
        · rw [if_neg hfails]
          split
          · rename_i e he
            rw [if_neg fun hretryable => hfails ⟨e, he, hretryable⟩]
          · rfl
      rw [hunfold]
      by_cases hfails : f.FailsRetryably rt (relay attempt)
      · rw [if_pos hfails, List.mem_cons, ih (by omega)]
        constructor
        · rintro (rfl | ⟨hle, hlt, hall⟩)
          · refine ⟨le_rfl, by omega, fun j hj hji => ?_⟩
            obtain rfl : j = i := by omega
            exact hfails
          · refine ⟨by omega, by omega, fun j hj hji => ?_⟩
            by_cases hfirst : j = attempt
            · rw [hfirst]
              exact hfails
            · exact hall j (by omega) hji
        · rintro ⟨hle, hlt, hall⟩
          by_cases hfirst : i = attempt
          · exact .inl hfirst
          · exact .inr ⟨by omega, by omega, fun j hj hji => hall j (by omega) hji⟩
      · rw [if_neg hfails]
        simp only [List.not_mem_nil, false_iff]
        rintro ⟨hle, -, hall⟩
        exact hfails (hall attempt le_rfl hle)

/-- The deletes that are tried again rightly. -/
theorem deletesAgainRightly_iff :
    (∀ i ∈ deleteRetries rt.py (fun j => f.answer rt (relay j)) 2 0, f.Temporary rt (relay i)) ↔
      ∀ i < 2, (∀ j < i, f.FailsRetryably rt (relay j)) → ¬ f.Garbled rt (relay i) := by
  constructor
  · intro h i hi hbefore hgarbled
    refine hgarbled.fails.2 (h i ((mem_deleteRetries (by omega)).mpr ⟨by omega, by omega, ?_⟩))
    intro j _ hj
    rcases Nat.lt_or_eq_of_le hj with hlt | rfl
    · exact hbefore j hlt
    · exact hgarbled.fails.1
  · intro h i hi
    obtain ⟨-, hlt, hall⟩ := (mem_deleteRetries (by omega)).mp hi
    rcases Flavor.temporary_or_garbled (hall i (by omega) le_rfl) with htemporary | hgarbled
    · exact htemporary
    · exact absurd hgarbled (h i (by omega) fun j hj => hall j (by omega) (by omega))

end Delete

/-- The body of the request that deletes a registration. -/
def unregisterBody (token : String) : String :=
  dumpsDict [("registration_token", dumpsText token)]

theorem utf8ByteSize_ofList_le (l : List Char) : (String.ofList l).utf8ByteSize ≤ 4 * l.length := by
  induction l with
  | nil => simp
  | cons c l ih =>
      have hc := Char.utf8Size_le_four c
      rw [String.ofList_cons, String.utf8ByteSize_append, String.utf8ByteSize_singleton,
        List.length_cons]
      omega

theorem length_jsonChar_le (c : Char) : (jsonChar c).length ≤ 12 := by
  simp only [jsonChar, unicodeEscape]
  repeat' split
  all_goals simp

theorem length_of_isRegistrationToken {token : String} (h : isRegistrationToken token = true) :
    token.length = 32 := by
  have hvalid := validateRegistrationToken_ok_iff.mpr h
  simp only [validateRegistrationToken] at hvalid
  split at hvalid
  · rename_i hok
    exact hok.1
  · cases hvalid

/-- The request that deletes a registration is never over the limit. -/
theorem unregisterBody_fits {token : String} (h : isRegistrationToken token = true) :
    ¬ maxRelayJsonBytes < (unregisterBody token).utf8ByteSize := by
  have hescaped : (token.toList.flatMap jsonChar).length ≤ 12 * token.toList.length := by
    induction token.toList with
    | nil => simp
    | cons c l ih =>
        have hc := length_jsonChar_le c
        rw [List.flatMap_cons, List.length_append, List.length_cons]
        omega
  have htoken : (dumpsText token).utf8ByteSize ≤ 4 * (12 * 32 + 2) := by
    refine (utf8ByteSize_ofList_le _).trans ?_
    rw [String.length_toList, length_of_isRegistrationToken h] at hescaped
    simp only [List.cons_append, List.length_cons, List.length_append, List.length_nil]
    omega
  have hkey : (dumpsText "registration_token").utf8ByteSize = 20 := by decide +kernel
  have hbody : (unregisterBody token).utf8ByteSize = 24 + (dumpsText token).utf8ByteSize := by
    simp only [unregisterBody, dumpsDict, List.map_cons, List.map_nil,
      String.intercalate_singleton, String.utf8ByteSize_append, hkey]
    have hopen : "\x7b".utf8ByteSize = 1 := by decide +kernel
    have hclose : "\x7d".utf8ByteSize = 1 := by decide +kernel
    have hcolon : ": ".utf8ByteSize = 2 := by decide +kernel
    omega
  simp only [maxRelayJsonBytes]
  omega
section Unregister
variable (rt : Runtime V) (f : Flavor) (relay : ℕ → Reply)

/-- One attempt of `unregister_rollout` to delete a registration. -/
def deleteReply (token : String) (attempt : ℕ) : Except Raised Dict :=
  if maxRelayJsonBytes < (unregisterBody token).utf8ByteSize then
    .error (.api {
      message := "relay request body exceeds the " ++ toString maxRelayJsonBytes ++
        " byte limit" })
  else f.answer rt (relay attempt)

/-- The attempts behind which `unregister_rollout` sleeps. -/
def unregisterRetries (tokens : Tokens) (rolloutId : String) (explicit : Option String) : List ℕ :=
  match registrationToken tokens rolloutId explicit with
  | .ok (token, _) => deleteRetries rt.py (deleteReply rt f relay token) 2 0
  | .error _ => []

/-- Behind each of these attempts another one is in order. -/
def UnregistersAgainRightly (tokens : Tokens) (rolloutId : String) (explicit : Option String) :
    Prop :=
  ∀ i ∈ unregisterRetries rt f relay tokens rolloutId explicit,
    (∃ token tokens', registrationToken tokens rolloutId explicit = .ok (token, tokens') ∧
      (unregisterBody token).utf8ByteSize ≤ maxRelayJsonBytes) ∧ f.Temporary rt (relay i)

variable {rt f relay}

/-- A registration is deleted again rightly unless the client takes an answer for a lost
exchange. -/
theorem unregistersAgainRightly_iff (tokens : Tokens) (rolloutId : String)
    (explicit : Option String) :
    UnregistersAgainRightly rt f relay tokens rolloutId explicit ↔
      ∀ token tokens', registrationToken tokens rolloutId explicit = .ok (token, tokens') →
        ∀ i < 2, (∀ j < i, f.FailsRetryably rt (relay j)) → ¬ f.Garbled rt (relay i) := by
  simp only [UnregistersAgainRightly, unregisterRetries]
  cases htoken : registrationToken tokens rolloutId explicit with
  | error exc => simp
  | ok found =>
      obtain ⟨token, tokens'⟩ := found
      have hvalid := (Registry.registrationToken_ok htoken).1
      have hfits := unregisterBody_fits hvalid
      have hreply : deleteReply rt f relay token = fun i => f.answer rt (relay i) := by
        funext i
        rw [deleteReply, if_neg hfits]
      simp only [hreply, Except.ok.injEq, Prod.mk.injEq, forall_apply_eq_imp_iff, and_imp,
        forall_eq']
      rw [← deletesAgainRightly_iff]
      constructor
      · intro h i hi
        exact (h i hi).2
      · intro h i hi
        exact ⟨⟨token, tokens', ⟨rfl, rfl⟩, not_lt.mp hfits⟩, h i hi⟩

end Unregister

end UcloudSandboxes.Relay
