import Mathlib.Data.List.Infix
import Mathlib.Logic.Function.Basic
import UcloudSandboxes.Relay.Decode

/-!
# The registration tokens of a relay client

`_RelayWorkerState` remembers one token for each rollout. Registrations write it, calls with an
explicit token write it as well, and an acknowledged `unregister_rollout` removes whatever is
remembered then. Calls of one client may overlap, so an `unregister_rollout` is two events, its
beginning and the end of its delete.

## Main definitions

* `rememberRegistration`, `registrationToken`, `forgetRegistration`: the methods of the class.
* `Registry.step`: what one event does to the tokens, the open sessions and the deletes in flight.

## Main results

* `Registry.step_keeps`: which tokens a step leaves alone.
* `tokens_kept_iff`: the runs in which a remembered token is kept until it is replaced or deleted.
-/
namespace UcloudSandboxes.Relay
open Python Http

/-- `_registration_tokens`. -/
abbrev Tokens := String → Option String

/-- A token that `_validate_registration_token` accepts. -/
def isRegistrationToken (value : String) : Bool := (validateRegistrationToken value).isOk

/-- The token of an answer to a registration, as `_remember_registration` checks it. -/
def registeredToken (rolloutId : String) (payload : Dict) : Except Raised String :=
  match (payload.get "rollout").asDict with
  | none =>
      .error (.api { message := "relay returned invalid registration", body := .dict payload })
  | some record => do
      let responseRolloutId ← requiredString record "rollout_id"
      if responseRolloutId ≠ rolloutId then
        .error (.api {
          message := "relay registration rollout_id does not match", body := .dict payload })
      else
        let token ← requiredString record "registration_token"
        validateRegistrationToken token
        return token

/-- `_remember_registration`. -/
def rememberRegistration (tokens : Tokens) (rolloutId : String) (payload : Dict) :
    Except Raised Tokens := do
  let token ← registeredToken rolloutId payload
  return Function.update tokens rolloutId (some token)

/-- `_registration_token`: the token of a call, and what is remembered afterwards. -/
def registrationToken (tokens : Tokens) (rolloutId : String) (explicit : Option String) :
    Except Raised (String × Tokens) :=
  match explicit, tokens rolloutId with
  | some token, _ => do
      validateRegistrationToken token
      return (token, Function.update tokens rolloutId (some token))
  | none, some token => do
      validateRegistrationToken token
      return (token, tokens)
  | none, none =>
      .error (.api { message := "rollout is not registered by this client: " ++ rolloutId })

/-- `_forget_registration`. -/
def forgetRegistration (tokens : Tokens) (rolloutId : String) : Tokens :=
  Function.update tokens rolloutId none

/-- The attempts of `unregister_rollout` to delete a registration, from `attempt` on. `reply` is
what `_request_json` returns or raises; a cancelled sleep is an exception of the attempt behind it.
-/
def deleteRegistration (py : Interpreter) (reply : ℕ → Except Raised Dict) :
    ℕ → ℕ → Except Raised Dict
  | 0, attempt => reply attempt
  | left + 1, attempt =>
      match reply attempt with
      | .error (.api e) =>
          if relayErrorIsRetryable e then
            match relayRetryDelay py e (attempt + 1) with
            | .ok _ => deleteRegistration py reply left (attempt + 1)
            | .error exc => .error exc
          else .error (.api e)
      | result => result

/-- A delete in flight: its rollout, its token, and the session that closes, if one does. -/
structure Deletion where
  rolloutId : String
  token : String
  session : Option ℕ := none
  deriving DecidableEq

/-- `RelaySession`, once it was entered. -/
structure OpenSession where
  rolloutId : String
  registrationToken : Option String
  deriving DecidableEq

/-- The tokens of one client, its sessions, and its deletes in flight. -/
structure Registry where
  tokens : Tokens := fun _ => none
  sessions : List OpenSession := []
  deletions : List Deletion := []

/-- What happens to a client. -/
inductive RegistryEvent
  /-- `register_rollout` is answered. -/
  | register (rolloutId : String) (answer : Except Raised Dict)
  /-- A session is entered, and its registration is answered. -/
  | enter (rolloutId : String) (answer : Except Raised Dict)
  /-- `heartbeat`, `poll` or `update_resource_phase`. -/
  | call (rolloutId : String) (explicit : Option String)
  /-- `unregister_rollout` begins. -/
  | unregister (rolloutId : String) (explicit : Option String)
  /-- `close` of a session begins. -/
  | close (session : ℕ)
  /-- A delete ends. -/
  | deleted (deletion : ℕ) (reply : ℕ → Except Raised Dict)

theorem validateRegistrationToken_ok_iff {token : String} :
    validateRegistrationToken token = .ok () ↔ isRegistrationToken token = true := by
  simp only [isRegistrationToken]
  cases validateRegistrationToken token <;> simp [Except.isOk, Except.toBool]

theorem exists_validateRegistrationToken_error {token : String}
    (h : ¬ isRegistrationToken token = true) :
    ∃ exc, validateRegistrationToken token = .error exc := by
  cases hvalidate : validateRegistrationToken token with
  | error exc => exact ⟨exc, rfl⟩
  | ok u => exact absurd (validateRegistrationToken_ok_iff.mp hvalidate) h

namespace Registry

/-- `unregister_rollout` up to its delete. -/
def beginUnregister (s : Registry) (rolloutId : String) (explicit : Option String)
    (session : Option ℕ) : Registry :=
  match registrationToken s.tokens rolloutId explicit with
  | .error _ => s
  | .ok (token, tokens) =>
      { s with tokens, deletions := s.deletions ++ [{ rolloutId, token, session }] }

/-- Whether a delete is acknowledged within its three attempts. -/
def acknowledged (py : Interpreter) (reply : ℕ → Except Raised Dict) : Bool :=
  (deleteRegistration py reply 2 0).isOk

/-- What a session remembers once its delete was acknowledged. -/
def closeSession (sessions : List OpenSession) : Option ℕ → List OpenSession
  | none => sessions
  | some k => sessions.modify k fun session => { session with registrationToken := none }

/-- One event. -/
def step (py : Interpreter) (s : Registry) : RegistryEvent → Registry
  | .register rolloutId answer =>
      match answer >>= rememberRegistration s.tokens rolloutId with
      | .ok tokens => { s with tokens }
      | .error _ => s
  | .enter rolloutId answer =>
      match answer >>= registeredToken rolloutId with
      | .ok token =>
          { s with
            tokens := Function.update s.tokens rolloutId (some token)
            sessions := s.sessions ++ [{ rolloutId, registrationToken := some token }] }
      | .error _ => s
  | .call rolloutId explicit =>
      match registrationToken s.tokens rolloutId explicit with
      | .ok (_, tokens) => { s with tokens }
      | .error _ => s
  | .unregister rolloutId explicit => s.beginUnregister rolloutId explicit none
  | .close k =>
      match s.sessions[k]? with
      | some ⟨rolloutId, some token⟩ => s.beginUnregister rolloutId (some token) (some k)
      | _ => s
  | .deleted k reply =>
      match s.deletions[k]? with
      | none => s
      | some d =>
          if acknowledged py reply then
            { tokens := forgetRegistration s.tokens d.rolloutId
              sessions := closeSession s.sessions d.session
              deletions := s.deletions.eraseIdx k }
          else { s with deletions := s.deletions.eraseIdx k }

/-- The state after a run from the beginning. -/
def run (py : Interpreter) (events : List RegistryEvent) : Registry :=
  events.foldl (step py) {}

/-- The event belongs to unregistering `rolloutId` with `token`. -/
def Unregisters (s : Registry) (e : RegistryEvent) (rolloutId token : String) : Prop :=
  match e with
  | .unregister r explicit =>
      r = rolloutId ∧ ∃ tokens, registrationToken s.tokens r explicit = .ok (token, tokens)
  | .close k =>
      s.sessions[k]? = some ⟨rolloutId, some token⟩ ∧ isRegistrationToken token = true
  | .deleted k _ => ∃ d, s.deletions[k]? = some d ∧ d.rolloutId = rolloutId ∧ d.token = token
  | _ => False

/-- A delete is acknowledged. -/
def Acknowledges (py : Interpreter) : RegistryEvent → Prop
  | .deleted _ reply => acknowledged py reply = true
  | _ => False

/-- What is remembered changes only from the given token, and is forgotten only when that is
allowed. -/
def ChangesOnly (token : String) (forgets : Prop) (before after : Option String) : Prop :=
  ∀ remembered, before = some remembered →
    (after ≠ some remembered → remembered = token) ∧ (after = none → forgets)

/-- An unregistration changes what is remembered for its rollout only if that is its token, and
forgets it only when it is acknowledged. -/
def LeavesOthers (py : Interpreter) (s : Registry) (e : RegistryEvent) : Prop :=
  ∀ rolloutId token, s.Unregisters e rolloutId token →
    ChangesOnly token (Acknowledges py e) (s.tokens rolloutId) ((step py s e).tokens rolloutId)

/-- The event is a registration of the rollout that succeeds with this token. -/
def Registers (e : RegistryEvent) (rolloutId token : String) : Prop :=
  match e with
  | .register r answer | .enter r answer =>
      r = rolloutId ∧ (answer >>= registeredToken rolloutId) = .ok token
  | _ => False

/-- The event is a successful registration or a valid explicit token that replaces the token of the
rollout, or deletes the registration it stands for. -/
def Replaces (py : Interpreter) (s : Registry) (e : RegistryEvent) (rolloutId token : String) :
    Prop :=
  match e with
  | .register _ _ | .enter _ _ => ∃ newer, Registers e rolloutId newer ∧ newer ≠ token
  | .call r explicit =>
      r = rolloutId ∧ ∃ newer, explicit = some newer ∧ isRegistrationToken newer = true ∧
        newer ≠ token
  | .deleted k reply =>
      (∃ d, s.deletions[k]? = some d ∧ d.rolloutId = rolloutId ∧ d.token = token) ∧
        acknowledged py reply = true
  | _ => False

/-- No event of a run replaces the token. -/
def NoneReplaces (py : Interpreter) (rolloutId token : String) :
    Registry → List RegistryEvent → Prop
  | _, [] => True
  | s, e :: rest =>
      ¬ Replaces py s e rolloutId token ∧ NoneReplaces py rolloutId token (step py s e) rest

/-- Whatever is remembered, an unregistration that begins with an explicit token, or whose delete is
acknowledged, finds no other token than its own. -/
def FindsOwn (py : Interpreter) (s : Registry) (e : RegistryEvent) : Prop :=
  match e with
  | .unregister r (some token) =>
      isRegistrationToken token = true → ∀ remembered, s.tokens r = some remembered →
        remembered = token
  | .close k => ∀ r token, s.sessions[k]? = some ⟨r, some token⟩ →
      isRegistrationToken token = true → ∀ remembered, s.tokens r = some remembered →
        remembered = token
  | .deleted k reply => ∀ d, s.deletions[k]? = some d → acknowledged py reply = true →
      ∀ remembered, s.tokens d.rolloutId = some remembered → remembered = d.token
  | _ => True

/-- Something holds of every step of a run. -/
def EveryStep (py : Interpreter) (P : Registry → RegistryEvent → Prop)
    (events : List RegistryEvent) : Prop :=
  ∀ before e after, events = before ++ e :: after → P (run py before) e

/-- A registration that succeeds is remembered with its token, and a call without a token keeps
working with the token that is remembered, until that one is replaced. -/
structure ImplicitCallsWork (py : Interpreter) (events : List RegistryEvent) : Prop where
  remembered : ∀ before e after, events = before ++ e :: after → ∀ rolloutId token,
    Registers e rolloutId token → (run py (before ++ [e])).tokens rolloutId = some token
  working : ∀ before after, events = before ++ after → ∀ rolloutId token,
    (run py before).tokens rolloutId = some token →
    NoneReplaces py rolloutId token (run py before) after →
    ∃ tokens, registrationToken (run py events).tokens rolloutId none = .ok (token, tokens)

section
variable {py : Interpreter} {s : Registry} {r token : String}

/-- What an unregistration remembers when it begins. -/
theorem beginUnregister_tokens (explicit : Option String) (k : Option ℕ) :
    (s.beginUnregister r explicit k).tokens =
      match explicit with
      | some token =>
          if isRegistrationToken token = true then Function.update s.tokens r (some token)
          else s.tokens
      | none => s.tokens := by
  cases explicit with
  | some token =>
      by_cases hvalid : isRegistrationToken token = true
      · simp [beginUnregister, registrationToken, validateRegistrationToken_ok_iff.mpr hvalid, hvalid,
          bind, Except.bind, pure, Except.pure]
      · obtain ⟨exc, hexc⟩ := exists_validateRegistrationToken_error hvalid
        simp [beginUnregister, registrationToken, hexc, hvalid, bind, Except.bind]
  | none =>
      simp only [beginUnregister, registrationToken]
      cases s.tokens r with
      | none => rfl
      | some token =>
          cases hvalidate : validateRegistrationToken token with
          | error exc => simp [hvalidate, bind, Except.bind]
          | ok u => simp [hvalidate, bind, Except.bind, pure, Except.pure]

/-- What is remembered does not change. -/
theorem ChangesOnly.refl (forgets : Prop) (before : Option String) :
    ChangesOnly token forgets before before := by
  intro remembered hremembered
  refine ⟨fun hne => absurd hremembered hne, fun hnone => ?_⟩
  rw [hremembered] at hnone
  cases hnone

/-- The token takes the place of what is remembered. -/
theorem changesOnly_some_iff {forgets : Prop} {before : Option String} :
    ChangesOnly token forgets before (some token) ↔
      ∀ remembered, before = some remembered → remembered = token := by
  constructor
  · intro h remembered hremembered
    by_contra hne
    exact hne ((h remembered hremembered).1 fun heq => hne (Option.some.inj heq).symm)
  · intro h remembered hremembered
    exact ⟨fun _ => h remembered hremembered, fun hnone => by cases hnone⟩

/-- What is remembered is forgotten. -/
theorem changesOnly_none_iff {forgets : Prop} (hforgets : forgets) {before : Option String} :
    ChangesOnly token forgets before none ↔
      ∀ remembered, before = some remembered → remembered = token := by
  constructor
  · intro h remembered hremembered
    exact (h remembered hremembered).1 (by simp)
  · intro h remembered hremembered
    exact ⟨fun _ => h remembered hremembered, fun _ => hforgets⟩

/-- A token that a call resolves to is valid. -/
theorem registrationToken_ok {tokens tokens' : Tokens} {explicit : Option String}
    (h : registrationToken tokens r explicit = .ok (token, tokens')) :
    isRegistrationToken token = true ∧
      (explicit = some token ∨ explicit = none ∧ tokens r = some token) := by
  simp only [registrationToken] at h
  split at h
  · rename_i explicit
    obtain ⟨⟨⟩, hvalid, h⟩ := bind_eq_ok h
    cases h
    exact ⟨validateRegistrationToken_ok_iff.mp hvalid, .inl rfl⟩
  · rename_i remembered hremembered
    obtain ⟨⟨⟩, hvalid, h⟩ := bind_eq_ok h
    cases h
    exact ⟨validateRegistrationToken_ok_iff.mp hvalid, .inr ⟨rfl, hremembered⟩⟩
  · cases h

theorem registrationToken_valid {tokens : Tokens} (h : isRegistrationToken token = true) :
    registrationToken tokens r (some token) =
      .ok (token, Function.update tokens r (some token)) := by
  simp [registrationToken, validateRegistrationToken_ok_iff.mpr h, bind, Except.bind, pure,
    Except.pure]

/-- The end of a delete leaves a token alone, unless it is acknowledged. -/
theorem deleted_tokens {k : ℕ} {reply : ℕ → Except Raised Dict} {d : Deletion}
    (hd : s.deletions[k]? = some d) :
    (step py s (.deleted k reply)).tokens =
      if acknowledged py reply = true then forgetRegistration s.tokens d.rolloutId
      else s.tokens := by
  simp only [step, hd]
  split_ifs <;> rfl

/-- What an unregistration with an explicit token remembers when it begins. -/
theorem beginUnregister_some (hvalid : isRegistrationToken token = true) (k : Option ℕ) :
    (s.beginUnregister r (some token) k).tokens r = some token := by
  simp [beginUnregister_tokens, hvalid]

/-- An unregistration leaves the other tokens alone exactly when it finds its own. -/
theorem leavesOthers_iff (py : Interpreter) (s : Registry) (e : RegistryEvent) :
    LeavesOthers py s e ↔ FindsOwn py s e := by
  cases e with
  | register r answer => simp [LeavesOthers, Unregisters, FindsOwn]
  | enter r answer => simp [LeavesOthers, Unregisters, FindsOwn]
  | call r explicit => simp [LeavesOthers, Unregisters, FindsOwn]
  | unregister r explicit =>
      cases explicit with
      | none =>
          simp only [FindsOwn, iff_true]
          intro rolloutId token _
          have hsame : (step py s (.unregister r none)).tokens = s.tokens :=
            beginUnregister_tokens none none
          rw [hsame]
          exact ChangesOnly.refl _ _
      | some token =>
          constructor
          · intro hleaves hvalid
            have hchanges := hleaves r token ⟨rfl, _, registrationToken_valid hvalid⟩
            rw [show (step py s (.unregister r (some token))).tokens r = some token from
              beginUnregister_some hvalid none] at hchanges
            exact changesOnly_some_iff.mp hchanges
          · rintro hfinds rolloutId resolved ⟨rfl, tokens, hresolved⟩
            obtain ⟨hvalid, hexplicit | ⟨hexplicit, _⟩⟩ := registrationToken_ok hresolved
            · cases hexplicit
              rw [show (step py s (.unregister r (some token))).tokens r = some token from
                beginUnregister_some hvalid none]
              exact changesOnly_some_iff.mpr (hfinds hvalid)
            · cases hexplicit
  | close k =>
      have hbegins : ∀ {r token : String}, s.sessions[k]? = some ⟨r, some token⟩ →
          isRegistrationToken token = true →
          (step py s (.close k)).tokens r = some token := by
        intro r token hsession hvalid
        simp only [step, hsession]
        exact beginUnregister_some hvalid (some k)
      constructor
      · intro hleaves r token hsession hvalid
        have hchanges := hleaves r token ⟨hsession, hvalid⟩
        rw [hbegins hsession hvalid] at hchanges
        exact changesOnly_some_iff.mp hchanges
      · intro hfinds r token hunregisters
        rw [hbegins hunregisters.1 hunregisters.2]
        exact changesOnly_some_iff.mpr (hfinds r token hunregisters.1 hunregisters.2)
  | deleted k reply =>
      by_cases hack : acknowledged py reply = true
      · have hforgets : ∀ {d : Deletion}, s.deletions[k]? = some d →
            (step py s (.deleted k reply)).tokens d.rolloutId = none := by
          intro d hd
          simp [deleted_tokens hd, hack, forgetRegistration]
        constructor
        · intro hleaves d hd _
          have hchanges := hleaves d.rolloutId d.token ⟨d, hd, rfl, rfl⟩
          rw [hforgets hd] at hchanges
          exact (changesOnly_none_iff hack).mp hchanges
        · rintro hfinds r token ⟨d, hd, rfl, rfl⟩
          rw [hforgets hd]
          exact (changesOnly_none_iff hack).mpr (hfinds d hd hack)
      · have hfinds : FindsOwn py s (.deleted k reply) := fun d _ hacked => absurd hacked hack
        simp only [hfinds, iff_true]
        rintro r token ⟨d, hd, rfl, rfl⟩
        rw [deleted_tokens hd, if_neg hack]
        exact ChangesOnly.refl _ _

/-- A registration stores a valid token. -/
theorem registeredToken_valid {payload : Dict} (h : registeredToken r payload = .ok token) :
    isRegistrationToken token = true := by
  simp only [registeredToken] at h
  split at h
  · cases h
  · obtain ⟨responseRolloutId, _, h⟩ := bind_eq_ok h
    split_ifs at h
    obtain ⟨stored, _, h⟩ := bind_eq_ok h
    obtain ⟨⟨⟩, hvalid, h⟩ := bind_eq_ok h
    cases h
    exact validateRegistrationToken_ok_iff.mp hvalid

/-- A registration remembers a valid token, if it succeeds. -/
theorem registers_tokens {e : RegistryEvent} {answer : Except Raised Dict}
    (he : e = .register r answer ∨ e = .enter r answer) :
    (step py s e).tokens = s.tokens ∧ (∀ r' token, ¬ Registers e r' token) ∨
      ∃ token, isRegistrationToken token = true ∧ Registers e r token ∧
        (step py s e).tokens = Function.update s.tokens r (some token) := by
  have hregisters (r' token : String) : Registers e r' token ↔
      r = r' ∧ (answer >>= registeredToken r') = .ok token := by
    rcases he with rfl | rfl <;> rfl
  simp only [hregisters]
  cases hregistered : answer >>= registeredToken r with
  | error exc =>
      refine .inl ⟨?_, ?_⟩
      · rcases he with rfl | rfl
        · have hremembered : answer >>= rememberRegistration s.tokens r = .error exc := by
            cases answer with
            | error raised =>
                cases hregistered
                rfl
            | ok payload =>
                simp only [bind, Except.bind] at hregistered
                simp only [rememberRegistration, bind, Except.bind, hregistered]
          simp only [step, hremembered]
        · simp only [step, hregistered]
      · rintro r' token ⟨rfl, hok⟩
        rw [hregistered] at hok
        cases hok
  | ok token =>
      obtain ⟨payload, rfl, htoken⟩ := bind_eq_ok hregistered
      refine .inr ⟨token, registeredToken_valid htoken, ⟨trivial, rfl⟩, ?_⟩
      rcases he with rfl | rfl
      · have hremembered : Except.ok payload >>= rememberRegistration s.tokens r =
            .ok (Function.update s.tokens r (some token)) := by
          simp only [bind, Except.bind, rememberRegistration, htoken, pure, Except.pure]
        simp only [step, hremembered]
      · simp only [step, hregistered]

/-- A call remembers what the beginning of an unregistration would. -/
theorem call_tokens (explicit : Option String) :
    (step py s (.call r explicit)).tokens = (s.beginUnregister r explicit none).tokens := by
  simp only [step, beginUnregister]
  cases registrationToken s.tokens r explicit with
  | error exc => rfl
  | ok called => rfl

/-- All tokens that are remembered are valid. -/
def Valid (s : Registry) : Prop :=
  ∀ r token, s.tokens r = some token → isRegistrationToken token = true

theorem Valid.update {tokens : Tokens} {remembered : Option String}
    (h : ∀ r token, tokens r = some token → isRegistrationToken token = true)
    (hr : ∀ token, remembered = some token → isRegistrationToken token = true) (r : String) :
    ∀ r' token, Function.update tokens r remembered r' = some token →
      isRegistrationToken token = true := by
  intro r' token htoken
  by_cases heq : r' = r
  · subst heq
    exact hr token (by simpa using htoken)
  · exact h r' token (by simpa [heq] using htoken)

theorem Valid.beginUnregister (h : s.Valid) (explicit : Option String) (k : Option ℕ) :
    (s.beginUnregister r explicit k).Valid := by
  simp only [Valid, beginUnregister_tokens]
  cases explicit with
  | none => exact h
  | some token =>
      by_cases hvalid : isRegistrationToken token = true
      · simp only [hvalid, if_true]
        exact Valid.update h (fun stored hstored => Option.some.inj hstored ▸ hvalid) r
      · simp only [hvalid, Bool.false_eq_true, if_false]
        exact h

theorem Valid.registers {e : RegistryEvent} {answer : Except Raised Dict} (h : s.Valid)
    (he : e = .register r answer ∨ e = .enter r answer) : (step py s e).Valid := by
  simp only [Valid]
  rcases registers_tokens he with ⟨hsame, -⟩ | ⟨token, hvalid, -, hstored⟩
  · rw [hsame]
    exact h
  · rw [hstored]
    exact Valid.update h (fun stored heq => Option.some.inj heq ▸ hvalid) r

theorem Valid.step (h : s.Valid) (e : RegistryEvent) : (step py s e).Valid := by
  cases e with
  | register r answer => exact h.registers (.inl rfl)
  | enter r answer => exact h.registers (.inr rfl)
  | call r explicit =>
      simp only [Valid, call_tokens]
      exact h.beginUnregister explicit none
  | unregister r explicit => exact h.beginUnregister explicit none
  | close k =>
      simp only [Registry.step]
      split
      · exact h.beginUnregister _ _
      · exact h
  | deleted k reply =>
      cases hd : s.deletions[k]? with
      | none => simpa only [Registry.step, hd] using h
      | some d =>
          simp only [Valid, deleted_tokens hd]
          split_ifs
          · exact Valid.update h (by simp) d.rolloutId
          · exact h

theorem run_append (py : Interpreter) (before after : List RegistryEvent) :
    run py (before ++ after) = after.foldl (Registry.step py) (run py before) := by
  simp [run]

theorem run_valid (py : Interpreter) (events : List RegistryEvent) : (run py events).Valid := by
  induction events using List.reverseRecOn with
  | nil =>
      intro r token h
      cases h
  | append_singleton before e ih =>
      rw [run_append]
      exact ih.step e

theorem update_keeps {tokens : Tokens} {r r' : String} {remembered : Option String}
    (hr : tokens r = some token) (h : r' = r → remembered = some token) :
    Function.update tokens r' remembered r = some token := by
  by_cases heq : r' = r
  · subst heq
    simp [h rfl]
  · simp [Function.update_of_ne (Ne.symm heq), hr]

theorem beginUnregister_keeps {r' : String} {explicit : Option String} (k : Option ℕ)
    (hr : s.tokens r = some token)
    (h : ∀ given, explicit = some given → isRegistrationToken given = true → r' = r →
      token = given) :
    (s.beginUnregister r' explicit k).tokens r = some token := by
  rw [beginUnregister_tokens]
  cases explicit with
  | none => exact hr
  | some given =>
      by_cases hvalid : isRegistrationToken given = true
      · simp only [hvalid, if_true]
        exact update_keeps hr fun heq => by rw [h given rfl hvalid heq]
      · simp only [hvalid, Bool.false_eq_true, if_false]
        exact hr

theorem registers_keeps {e : RegistryEvent} {r' : String} {answer : Except Raised Dict}
    (he : e = .register r' answer ∨ e = .enter r' answer) (hr : s.tokens r = some token)
    (hsame : ∀ newer, Registers e r newer → newer = token) :
    (step py s e).tokens r = some token := by
  rcases registers_tokens he with ⟨hkept, -⟩ | ⟨given, -, hgiven, hstored⟩
  · rw [hkept]
    exact hr
  · rw [hstored]
    refine update_keeps hr fun heq => ?_
    subst heq
    rw [hsame given hgiven]

/-- A registration that succeeds is remembered. -/
theorem step_registers {e : RegistryEvent} (h : Registers e r token) :
    (step py s e).tokens r = some token := by
  have hremembers {answer : Except Raised Dict}
      (he : e = .register r answer ∨ e = .enter r answer)
      (hok : (answer >>= registeredToken r) = .ok token) :
      (step py s e).tokens r = some token := by
    rcases @registers_tokens py s r e answer he with ⟨-, hnone⟩ | ⟨given, -, hgiven, hstored⟩
    · exact absurd h (hnone r token)
    · have hsame : (answer >>= registeredToken r) = .ok given := by
        rcases he with rfl | rfl <;> exact hgiven.2
      rw [hok] at hsame
      cases hsame
      rw [hstored]
      exact Function.update_self ..
  cases e with
  | register r' answer =>
      obtain ⟨rfl, hok⟩ := h
      exact hremembers (.inl rfl) hok
  | enter r' answer =>
      obtain ⟨rfl, hok⟩ := h
      exact hremembers (.inr rfl) hok
  | _ => exact absurd h id

/-- A step that finds its own token leaves every token that it does not replace. -/
theorem step_keeps {e : RegistryEvent} (h : FindsOwn py s e) (hr : s.tokens r = some token)
    (hreplaces : ¬ Replaces py s e r token) : (step py s e).tokens r = some token := by
  cases e with
  | register r' answer =>
      exact registers_keeps (.inl rfl) hr fun newer hnewer =>
        by_contra fun hne => hreplaces ⟨newer, hnewer, hne⟩
  | enter r' answer =>
      exact registers_keeps (.inr rfl) hr fun newer hnewer =>
        by_contra fun hne => hreplaces ⟨newer, hnewer, hne⟩
  | call r' explicit =>
      rw [call_tokens]
      refine beginUnregister_keeps none hr fun given hgiven hvalid heq => ?_
      by_contra hne
      exact hreplaces ⟨heq, given, hgiven, hvalid, fun hsame => hne hsame.symm⟩
  | unregister r' explicit =>
      refine beginUnregister_keeps none hr fun given hgiven hvalid heq => ?_
      subst hgiven heq
      exact h hvalid token hr
  | close k =>
      simp only [Registry.step]
      split
      · rename_i r' given hsession
        refine beginUnregister_keeps (some k) hr fun stored hstored hvalid heq => ?_
        cases hstored
        subst heq
        exact h r' given hsession hvalid token hr
      · exact hr
  | deleted k reply =>
      cases hd : s.deletions[k]? with
      | none => simpa only [Registry.step, hd] using hr
      | some d =>
          rw [deleted_tokens hd]
          by_cases hack : acknowledged py reply = true
          · rw [if_pos hack]
            refine update_keeps hr fun heq => absurd ⟨⟨d, hd, heq, ?_⟩, hack⟩ hreplaces
            subst heq
            exact (h d hd hack token hr).symm
          · rw [if_neg hack]
            exact hr

/-- A token is kept through any run that does not replace it. -/
theorem run_keeps {after : List RegistryEvent} (hr : s.tokens r = some token)
    (hreplaces : NoneReplaces py r token s after)
    (hfinds : ∀ before e rest, after = before ++ e :: rest →
      FindsOwn py (before.foldl (Registry.step py) s) e) :
    (after.foldl (Registry.step py) s).tokens r = some token := by
  induction after generalizing s with
  | nil => exact hr
  | cons e rest ih =>
      have hstep : (Registry.step py s e).tokens r = some token :=
        step_keeps (hfinds [] e rest rfl) hr hreplaces.1
      refine ih hstep hreplaces.2 fun before e' rest' heq => ?_
      exact hfinds (e :: before) e' rest' (by rw [heq]; rfl)

end

/-- **Remembered tokens.** In a run every unregistration leaves the tokens of other registrations
alone, every successful registration is remembered, and calls without a token keep working with what
is remembered, exactly when every unregistration finds no other token than its own where it begins
and where it is acknowledged. -/
theorem tokens_kept_iff (py : Interpreter) (events : List RegistryEvent) :
    EveryStep py (LeavesOthers py) events ∧ ImplicitCallsWork py events ↔
      EveryStep py (FindsOwn py) events := by
  constructor
  · rintro ⟨hleaves, _⟩ before e after heq
    exact (leavesOthers_iff py (run py before) e).mp (hleaves before e after heq)
  · intro hfinds
    refine ⟨fun before e after heq =>
      (leavesOthers_iff py (run py before) e).mpr (hfinds before e after heq), ?_, ?_⟩
    · intro before e after _ r token hregisters
      rw [run_append]
      exact step_registers hregisters
    intro before after heq r token hr hreplaces
    have hkept : (run py events).tokens r = some token := by
      rw [heq, run_append]
      refine run_keeps hr hreplaces fun middle e rest hafter => ?_
      rw [← run_append]
      exact hfinds (before ++ middle) e rest (by rw [heq, hafter, List.append_assoc])
    have hvalid : isRegistrationToken token = true := run_valid py events r token hkept
    refine ⟨(run py events).tokens, ?_⟩
    simp [registrationToken, hkept, validateRegistrationToken_ok_iff.mpr hvalid, bind, Except.bind,
      pure, Except.pure]

/-- The relay answers a registration of `r1` with a token of this digit. -/
def registrationAnswer (digit : Char) : Except Raised Dict :=
  .ok [("rollout", .dict [("rollout_id", .str "r1"),
    ("registration_token", .str (String.ofList (List.replicate 32 digit)))])]

/-- A session is closed while a newer one of the same rollout is open, and its delete succeeds. -/
def overlappingSessions : List RegistryEvent :=
  [.enter "r1" (registrationAnswer '1'), .enter "r1" (registrationAnswer '2'), .close 0,
    .deleted 0 fun _ => .ok []]

/-- The token of the newer session is gone. -/
theorem newer_token_forgotten :
    ¬ EveryStep (.ascii []) (LeavesOthers (.ascii [])) overlappingSessions ∧
      ¬ ImplicitCallsWork (.ascii []) overlappingSessions := by
  have hnewer : (run (.ascii []) (overlappingSessions.take 2)).tokens "r1" =
      some (String.ofList (List.replicate 32 '2')) := by decide +kernel
  constructor
  · intro hleaves
    have hchanges := hleaves (overlappingSessions.take 2) (.close 0)
      (overlappingSessions.drop 3) rfl "r1" (String.ofList (List.replicate 32 '1'))
      (by exact ⟨by decide +kernel, by decide +kernel⟩) _ hnewer
    have hsame := hchanges.1 (by decide +kernel)
    exact absurd hsame (by decide +kernel)
  · intro hworks
    have hnone : NoneReplaces (.ascii []) "r1" (String.ofList (List.replicate 32 '2'))
        (run (.ascii []) (overlappingSessions.take 2)) (overlappingSessions.drop 2) := by
      refine ⟨fun h => h, fun h => ?_, trivial⟩
      obtain ⟨⟨d, hd, _, htoken⟩, _⟩ := h
      have hdeletion : (step (.ascii []) (run (.ascii []) (overlappingSessions.take 2))
          (.close 0)).deletions[0]? = some ⟨"r1", String.ofList (List.replicate 32 '1'), some 0⟩ := by
        decide +kernel
      rw [hdeletion] at hd
      cases hd
      exact absurd htoken (by decide +kernel)
    obtain ⟨tokens, hcall⟩ := hworks.working (overlappingSessions.take 2)
      (overlappingSessions.drop 2) rfl "r1" _ hnewer hnone
    have hforgotten : (run (.ascii []) overlappingSessions).tokens "r1" = none := by decide +kernel
    simp [registrationToken, hforgotten] at hcall

end Registry
end UcloudSandboxes.Relay
