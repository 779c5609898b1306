import UcloudSandboxes.Client.GroupRecords

/-!
# What a group create accounts for

The test of `_SandboxGroupCreate` for a complete answer asks the listed members only. So it passes
for a list that is short, and names are not looked at.

## Main definitions

* `memberId`: the id of a member by its index.
* `Passes`: the answers that the other checks let pass.

## Main results

* `members_accounted_iff`: the runs that account for every member.
-/
namespace UcloudSandboxes.Client
open Python Http

namespace GroupCreate
variable {py : Interpreter} {create : GroupCreate} {ω : Type}

/-- `<group_id>-<i:04d>`. -/
def memberId (groupId : String) (i : ℕ) : String :=
  let digits := Nat.toDigits 10 i
  String.ofList (groupId.toList ++ '-' :: (List.replicate (4 - digits.length) '0' ++ digits))

/-- The ids of the members that were asked for. -/
def memberIds (groupId : String) (count : ℕ) : List String :=
  (List.range count).map (memberId groupId)

theorem ofDigitChars_zeros (k : ℕ) (digits : List Char) :
    Nat.ofDigitChars 10 (List.replicate k '0' ++ digits) 0 = Nat.ofDigitChars 10 digits 0 := by
  induction k with
  | zero => rfl
  | succ k ih =>
      rw [List.replicate_succ, List.cons_append, Nat.ofDigitChars_cons]
      exact ih

theorem memberId_injective (groupId : String) : Function.Injective (memberId groupId) := by
  intro i j h
  have hchars := List.append_cancel_left (String.ofList_injective h)
  rw [List.cons.injEq] at hchars
  have hvalue := congrArg (fun digits => Nat.ofDigitChars 10 digits 0) hchars.2
  simp only [ofDigitChars_zeros] at hvalue
  rwa [Nat.ofDigitChars_toDigits (by omega) (by omega),
    Nat.ofDigitChars_toDigits (by omega) (by omega)] at hvalue

section Accounts
variable (groupId : String) (count : ℕ)

/-- The list names each member once. -/
def NamesAll (status : SandboxGroupStatus) : Prop :=
  (status.members.map (·.id)).Perm (memberIds groupId count)

/-- The members that are not deleted come in the order of their indices. -/
def InOrder (status : SandboxGroupStatus) : Prop :=
  ((status.members.filter fun m => m.status != "deleted").map (·.id)).Sublist
    (memberIds groupId count)

/-- A call that returns accounts for every member. -/
def ReturnsAll (py : Interpreter) (outcome : GroupOutcome) (ends : List RequestEnd) : Prop :=
  ∀ made, outcome = .returned made →
    ∃ answer headers status, ends.getLast? = some (.returned (answer, headers)) ∧
      SandboxGroupStatus.fromPayload py (.dict answer) = .ok status ∧
      NamesAll groupId count status ∧
      (∀ m ∈ status.members, m.placed = true ∨ m.status = "deleted") ∧
      (made.map (·.id)).Sublist (memberIds groupId count) ∧
      ∀ id, id ∈ made.map (·.id) ↔ ∃ m ∈ status.members, m.id = id ∧ m.status ≠ "deleted"

/-- An answer that lists fewer, other or repeated members makes the call raise. -/
def FaultyRaises (py : Interpreter) (create : GroupCreate)
    (send : Call → List (Attempt ω) → RequestEnd × List Transmission) (rounds : List (Round ω)) :
    Prop :=
  ∀ (k : ℕ) ended status, (run py create send {} rounds).2[k]? = some ended →
    listedIn py ended = some status → ¬ NamesAll groupId count status →
      ∃ exc, (run py create send {} (rounds.take (k + 1))).1 = .raised exc

end Accounts

/-- The other checks of the call let the answer pass: a success lists no member that is neither
placed nor deleted, and an error asks for a repeat that there is time for. -/
def Passes (py : Interpreter) (create : GroupCreate) (attempt : ℕ) (r : Round ω)
    (status : SandboxGroupStatus) : RequestEnd → Prop
  | .returned _ => r.progress = none ∧ status.complete = true
  | .raised (.api e) => r.progress = none ∧ Repeated py create attempt r e
  | _ => False

theorem eq_ok_of_toOption {α : Type} {x : Except Raised α} {a : α} (h : x.toOption = some a) :
    x = .ok a := by
  cases x with
  | error exc => cases h
  | ok b =>
      cases h
      rfl

/-- The request is repeated behind every error that passes. -/
theorem afterRequest_repeated {s : GroupState} {r : Round ω} {e : ApiError}
    {status : SandboxGroupStatus} (hlisted : listedIn py (.raised (.api e)) = some status)
    (hprogress : r.progress = none) (h : Repeated py create s.attempt r e) :
    ∃ s', (afterRequest py create s r (.raised (.api e))).2 = .next s' := by
  obtain ⟨havailable, hasks, hdelay⟩ := h
  have hpayload := eq_ok_of_toOption hlisted
  simp only [afterRequest, retryDelay, havailable, Bool.false_eq_true, if_false, acceptError,
    carriesMembers_of_listed hpayload, if_true, accept, hpayload, hprogress, Except.map]
  rw [@retries_iff { s with
    records := keepRecords s.records status.members, last := some status } e |>.mpr hasks]
  simp only
  rw [createDelay_eq, if_neg (not_le.mpr hdelay)]
  exact ⟨_, rfl⟩

theorem passes_iff {s : GroupState} {r : Round ω} {ended : RequestEnd} {status : SandboxGroupStatus}
    (hlisted : listedIn py ended = some status) :
    Passes py create s.attempt r status ended ↔
      ∀ exc, (afterRequest py create s r ended).2.outcome ≠ .raised exc := by
  constructor
  · intro h exc
    cases ended with
    | returned v =>
        obtain ⟨hprogress, hcomplete⟩ := h
        have hpayload : SandboxGroupStatus.fromPayload py (.dict v.1) = .ok status :=
          eq_ok_of_toOption hlisted
        simp only [afterRequest, accept, hpayload, hprogress, handles, hcomplete, if_true]
        intro hraised
        cases hraised
    | raised exc =>
        cases exc with
        | api e =>
            obtain ⟨s', hnext⟩ := afterRequest_repeated hlisted h.1 h.2
            rw [hnext]
            intro hraised
            cases hraised
        | _ => exact h.elim
    | _ => exact h.elim
  · intro h
    cases hturn : (afterRequest py create s r ended).2 with
    | next s' =>
        obtain ⟨e, rfl, hrepeated, -, -, hprogress⟩ := afterRequest_next hturn
        refine ⟨hprogress ?_, hrepeated⟩
        rw [hlisted]
        exact Option.some_ne_none _
    | stop outcome =>
        rw [hturn] at h
        cases outcome with
        | raised exc => exact absurd rfl (h exc)
        | returned made =>
            obtain ⟨answer, headers, status', rfl, hpayload, hprogress, hcomplete, -⟩ :=
              afterRequest_returned hturn
            simp only [listedIn, hpayload, Except.toOption] at hlisted
            cases hlisted
            exact ⟨hprogress, hcomplete⟩
        | running =>
            rw [afterRequest_running hturn] at hlisted
            cases hlisted

section Conditions
variable (groupId : String) (count : ℕ) (py : Interpreter) (create : GroupCreate)
variable (send : Call → List (Attempt ω) → RequestEnd × List Transmission) (rounds : List (Round ω))

/-- Every list that passes names each member once. -/
def PassingListsName : Prop :=
  ∀ (k : ℕ) r ended status, rounds[k]? = some r →
    (run py create send {} rounds).2[k]? = some ended → listedIn py ended = some status →
      Passes py create k r status ended → NamesAll groupId count status

/-- The list of a success that passes names each member once, and in order. -/
def PassingSuccessNames : Prop :=
  ∀ (k : ℕ) r v status, rounds[k]? = some r →
    (run py create send {} rounds).2[k]? = some (.returned v) →
      listedIn py (.returned v) = some status → Passes py create k r status (.returned v) →
        NamesAll groupId count status ∧ InOrder groupId count status

end Conditions

section Accounted
variable (groupId : String) (count : ℕ)
variable (send : Call → List (Attempt ω) → RequestEnd × List Transmission)

/-- The attempts are counted from zero. -/
theorem passes_at {rounds : List (Round ω)} {k : ℕ} {ended : RequestEnd} {r : Round ω}
    {s' : GroupState} {status : SandboxGroupStatus}
    (H : RequestAt py create send {} rounds k ended r s')
    (hlisted : listedIn py ended = some status) :
    Passes py create k r status ended ↔
      ∀ exc, (run py create send {} (rounds.take (k + 1))).1 ≠ .raised exc := by
  have hattempt : s'.attempt = k := by
    rw [H.attempt]
    exact Nat.zero_add k
  rw [H.here, ← passes_iff hlisted, hattempt]

theorem faulty_raises_iff (rounds : List (Round ω)) :
    FaultyRaises groupId count py create send rounds ↔
      PassingListsName groupId count py create send rounds := by
  constructor
  · intro h k r ended status hr hended hlisted hpasses
    obtain ⟨r', s', H⟩ := request_at hended
    obtain rfl : r = r' := Option.some.inj (hr.symm.trans H.round)
    by_contra hfaulty
    obtain ⟨exc, hraised⟩ := h k ended status hended hlisted hfaulty
    exact (passes_at send H hlisted).mp hpasses exc hraised
  · intro h k ended status hended hlisted hfaulty
    obtain ⟨r, s', H⟩ := request_at hended
    by_contra hnone
    apply hfaulty
    apply h k r ended status H.round hended hlisted
    exact (passes_at send H hlisted).mpr fun exc hraised => hnone ⟨exc, hraised⟩

/-- A success that passes is what the call returns. -/
theorem returned_of_passes {s : GroupState} {r : Round ω} {v : Dict × Headers}
    {status : SandboxGroupStatus} (hlisted : listedIn py (.returned v) = some status)
    (h : Passes py create s.attempt r status (.returned v)) :
    ∃ made, (afterRequest py create s r (.returned v)).2 = .stop (.returned made) := by
  have hraises := (passes_iff hlisted).mp h
  cases hturn : (afterRequest py create s r (.returned v)).2 with
  | next s' =>
      obtain ⟨e, he, -⟩ := afterRequest_next hturn
      cases he
  | stop outcome =>
      rw [hturn] at hraises
      cases outcome with
      | running => cases afterRequest_running hturn
      | returned made => exact ⟨made, rfl⟩
      | raised exc => exact absurd rfl (hraises exc)

/-- The handles are those of the members that are not deleted. -/
theorem ids_of_made {s : GroupState} {r : Round ω} {ended : RequestEnd} {made : List GroupHandle}
    (h : (afterRequest py create s r ended).2 = .stop (.returned made)) :
    ∃ answer headers status, ended = .returned (answer, headers) ∧
      SandboxGroupStatus.fromPayload py (.dict answer) = .ok status ∧
      (r.progress = none ∧ status.complete = true) ∧
      made.map (·.id) = (status.members.filter fun m => m.status != "deleted").map (·.id) := by
  obtain ⟨answer, headers, status, rfl, hpayload, hprogress, hcomplete, rfl⟩ :=
    afterRequest_returned h
  refine ⟨answer, headers, status, rfl, hpayload, ⟨hprogress, hcomplete⟩, ?_⟩
  rw [List.map_map]
  rfl

theorem returns_all_iff (rounds : List (Round ω)) :
    ReturnsAll groupId count py (run py create send {} rounds).1 (run py create send {} rounds).2 ↔
      PassingSuccessNames groupId count py create send rounds := by
  constructor
  · intro h k r v status hr hended hlisted hpasses
    obtain ⟨r', s', H⟩ := request_at hended
    obtain rfl : r = r' := Option.some.inj (hr.symm.trans H.round)
    obtain ⟨made, hturn⟩ := @returned_of_passes py create ω s' r v status hlisted hpasses
    obtain ⟨hout, hlength⟩ := H.last _ hturn
    obtain ⟨answer, headers, status', hlast, hpayload, hnames, -, horder, -⟩ := h made hout
    rw [eq_take_append hended hlength, List.getLast?_concat] at hlast
    cases hlast
    obtain ⟨answer', headers', status'', heq, hpayload', -, hids⟩ := ids_of_made hturn
    cases heq
    rw [hpayload] at hpayload'
    cases hpayload'
    simp only [listedIn, hpayload, Except.toOption] at hlisted
    cases hlisted
    rw [hids] at horder
    exact ⟨hnames, horder⟩
  · intro h made hmade
    obtain ⟨k, ended, r, s', hended, hlength, H, hturn⟩ := returned_at hmade
    obtain ⟨answer, headers, status, rfl, hpayload, hpasses, hids⟩ := ids_of_made hturn
    have hlisted : listedIn py (.returned (answer, headers)) = some status := by
      simp only [listedIn, hpayload, Except.toOption]
    obtain ⟨hnames, horder⟩ := h k r (answer, headers) status H.round hended hlisted hpasses
    refine ⟨answer, headers, status, ?_, hpayload, hnames, ?_, ?_, ?_⟩
    · rw [eq_take_append hended hlength, List.getLast?_concat]
    · intro m hm
      have hcomplete := List.all_eq_true.mp hpasses.2 m hm
      simpa using hcomplete
    · rw [hids]
      exact horder
    · intro id
      rw [hids]
      simp only [List.mem_map, List.mem_filter, bne_iff_ne]
      constructor
      · rintro ⟨m, ⟨hm, hdeleted⟩, hid⟩
        exact ⟨m, hm, hid, hdeleted⟩
      · rintro ⟨m, hm, hid, hdeleted⟩
        exact ⟨m, ⟨hm, hdeleted⟩, hid⟩

end Accounted

/-- **The members asked for.** A call of either client that returns accounts for every member
exactly if the list of a success names all, in order, wherever the other checks let it pass. An
answer with a faulty list makes the call raise exactly if no such list passes. -/
theorem members_accounted_iff (py : Interpreter) (create : GroupCreate) (groupId : String)
    (count : ℕ) :
    (∀ rounds,
      (ReturnsAll groupId count py (createSandboxGroup py create rounds).1
          (createSandboxGroup py create rounds).2 ↔
        PassingSuccessNames groupId count py create (requestJsonResponse py) rounds) ∧
      (FaultyRaises groupId count py create (requestJsonResponse py) rounds ↔
        PassingListsName groupId count py create (requestJsonResponse py) rounds)) ∧
    ∀ rounds,
      (ReturnsAll groupId count py (asyncCreateSandboxGroup py create rounds).1
          (asyncCreateSandboxGroup py create rounds).2 ↔
        PassingSuccessNames groupId count py create (asyncRequestJsonResponse py) rounds) ∧
      (FaultyRaises groupId count py create (asyncRequestJsonResponse py) rounds ↔
        PassingListsName groupId count py create (asyncRequestJsonResponse py) rounds) :=
  ⟨fun rounds =>
      ⟨returns_all_iff groupId count _ rounds, faulty_raises_iff groupId count _ rounds⟩,
    fun rounds =>
      ⟨returns_all_iff groupId count _ rounds, faulty_raises_iff groupId count _ rounds⟩⟩

/-- A list with the first member only. -/
def shortText : String :=
  "\x7b\"group\": \x7b\x7d, \"sandboxes\": " ++
    "[\x7b\"id\": \"g-0000\", \"status\": \"running\"\x7d]\x7d"

def shortInterpreter : Interpreter :=
  .ascii [(shortText, .dict [
    ("group", .dict []),
    ("sandboxes", .list [.dict [("id", .str "g-0000"), ("status", .str "running")]])])]

def shortRounds : List (Round (List Wire)) :=
  [wireRound 0 [⟨0, .fresh (.answered (textResponse 201 shortText) 0)⟩]]

/-- The handles of a call that returned. -/
def handlesMade : GroupOutcome → Option (List GroupHandle)
  | .returned made => some made
  | _ => none

/-- Two members are asked for, one is listed, and the call returns. -/
theorem short_list_returns :
    ¬ ReturnsAll "g" 2 shortInterpreter
      (createSandboxGroup shortInterpreter hastyCreate shortRounds).1
      (createSandboxGroup shortInterpreter hastyCreate shortRounds).2 := by
  intro h
  have hreturns : (handlesMade
      (createSandboxGroup shortInterpreter hastyCreate shortRounds).1).isSome = true := by
    decide +kernel
  have hlists : (lists shortInterpreter (createSandboxGroup shortInterpreter hastyCreate
      shortRounds).2).map (fun status => status.members.length) = [1] := by
    decide +kernel
  generalize createSandboxGroup shortInterpreter hastyCreate shortRounds = result
    at h hreturns hlists
  obtain ⟨outcome, ends⟩ := result
  cases outcome with
  | returned made =>
      obtain ⟨answer, headers, status, hlast, hpayload, hnames, -⟩ := h made rfl
      obtain ⟨before, hends⟩ := List.getLast?_eq_some_iff.mp hlast
      have hlisted : listedIn shortInterpreter (.returned (answer, headers)) = some status := by
        simp only [listedIn, hpayload, Except.toOption]
      have hmem : status ∈ lists shortInterpreter ends := by
        rw [show ends = before ++ [.returned (answer, headers)] from hends, lists_snoc, hlisted]
        simp
      have hone : status.members.length ∈ [1] := by
        rw [← hlists]
        exact List.mem_map_of_mem hmem
      have htwo := hnames.length_eq
      simp only [List.length_map, memberIds, List.length_range, List.mem_singleton] at htwo hone
      omega
  | _ => cases hreturns

end GroupCreate
end UcloudSandboxes.Client
