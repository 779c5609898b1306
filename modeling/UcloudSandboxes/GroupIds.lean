import UcloudSandboxes.Addresses
import UcloudSandboxes.Client.GroupMembers
import UcloudSandboxes.Lib.Regex
import UcloudSandboxes.Relay.TaggedBody

/-!
# Group ids

`_sandbox_group_id` stands in front of every request about a group. Its error message and
`docs/protocol.md` give one grammar of ids: 1 to 59 characters of `[A-Za-z0-9_.-]`, the first one
alphanumeric. The gateway names the members `<group_id>-<i:04d>`, so 64 characters are enough for
them.

`_SANDBOX_GROUP_ID_RE` ends in `$` and is used with `match`. The patterns of job ids and of relay
names are used with `fullmatch`.

## Main definitions

* `sandboxGroupId`, `sandboxGroupPayload`: the checks of a group create.
* `IsGroupId`: the grammar of ids.
* `memberName`: the id of a member.

## Main results

* `sandboxGroupId_ok_iff`: the ids that are accepted.
* `sandboxGroupPath_ok_iff`: the paths of a group, and the ids that they carry.
* `members_of_payload`: the members that a create asks for.
-/
namespace UcloudSandboxes
open Python Python.JsonText Lib

namespace GroupIds

/-! ## The patterns -/

def newline : CodePoint := .scalar '\n'

/-- `[A-Za-z0-9]` -/
def isAlphanumeric (c : CodePoint) : Bool := c.char?.any Char.isAlphanum

/-- `[A-Za-z0-9_.-]` -/
def isIdPoint (c : CodePoint) : Bool := c.char?.any isGroupIdChar

/-- `_SANDBOX_GROUP_ID_RE`. -/
def sandboxGroupIdRe : Regex CodePoint :=
  .cat .caret (.cat (.headThen isAlphanumeric isIdPoint 58) .dollar)

/-- The pattern of `_job_id`. -/
def jobIdRe : Regex CodePoint :=
  .headThen isAlphanumeric (fun c => isIdPoint c || c = .scalar ':') 127

/-- `[a-z]` -/
def isLower (c : CodePoint) : Bool := c.char?.any Char.isLower

/-- `RELAY_NAME`. -/
def relayNameRe : Regex CodePoint :=
  .cat (.headThen isLower (fun c => isLower c || c.isDigit || c = .scalar '-') 31) .textEnd

section
variable {F : Type}

/-- An argument has to be a string that passes a test. -/
def matched (test : Text → Bool) (message : String) : Value F → Except Raised Text
  | .str t => if test t then .ok t else .error (.builtin .valueError message)
  | _ => .error (.builtin .valueError message)

/-- `_sandbox_group_id`. -/
def sandboxGroupId : Value F → Except Raised Text :=
  matched (sandboxGroupIdRe.isMatch newline)
    "group_id must be 1-59 characters of [A-Za-z0-9_.-], starting alphanumeric"

/-- `_sandbox_group_path`. An id that is accepted has no surrogates. -/
def sandboxGroupPath (groupId : Value F) : Except Raised String := do
  let id ← sandboxGroupId groupId
  return sandboxGroupIdPath (String.ofList (id.filterMap CodePoint.char?))

/-- The check of `relay` in a network policy with `egress == "relay"`. -/
def relayName : Value F → Except Raised Text :=
  matched (relayNameRe.fullmatch newline) "network_policy.relay must be a valid relay name"

/-- `str.isspace` of a code point. -/
def isSpace : CodePoint → Bool
  | .scalar c =>
      let n := c.toNat
      decide (9 ≤ n ∧ n ≤ 13 ∨ 28 ≤ n ∧ n ≤ 32 ∨ 8192 ≤ n ∧ n ≤ 8202) ||
        [133, 160, 5760, 8232, 8233, 8239, 8287, 12288].contains n
  | .surrogate _ => false

/-- `str.strip`. -/
def strip (t : Text) : Text := ((t.dropWhile isSpace).reverse.dropWhile isSpace).reverse

/-- `_job_id`, with the id that it makes up itself. -/
def jobId (fresh : Text) (value : Option Text) : Except Raised Text :=
  let result := strip (if (value.getD []).isEmpty then fresh else value.getD [])
  if jobIdRe.fullmatch newline result then .ok result
  else .error (.builtin .valueError
    "job_id must match [A-Za-z0-9][A-Za-z0-9_.:-]\x7b0,127\x7d")

/-! ## The payload of a create -/

def maxSandboxGroupSize : ℕ := 512

def sandboxGroupPlacements : List Text := [lit "pack", lit "spread"]

/-- The check of `count`. A `bool` is an `int` of the interpreter, but not a count. -/
def groupCount : Value F → Except Raised ℤ
  | .int n =>
      if 1 ≤ n ∧ n ≤ maxSandboxGroupSize then .ok n
      else .error refused
  | _ => .error refused
where
  refused := .builtin .valueError
    ("count must be an integer from 1 to " ++ toString maxSandboxGroupSize)

/-- `template.pop("id")`. -/
def popId (template : List (Key F × Value F)) : Except Raised (List (Key F × Value F)) :=
  if template.any fun item => Relay.isName "id" item.1 then
    .ok (template.filter fun item => !Relay.isName "id" item.1)
  else .error (.builtin .keyError "'id'")

/-- `_sandbox_group_payload`, with what `spec.to_dict()` gives. -/
def sandboxGroupPayload (groupId : Value F) (spec : Except Raised (List (Key F × Value F)))
    (count : Value F) (placement : Text) : Except Raised (Value F) := do
  let n ← groupCount count
  if placement ∉ sandboxGroupPlacements then
    throw (.builtin .valueError "placement must be pack or spread")
  let template ← popId (← spec)
  let id ← sandboxGroupId groupId
  return .dict [(.str (lit "group_id"), .str id), (.str (lit "count"), .int n),
    (.str (lit "spec"), .dict template), (.str (lit "placement"), .str placement)]

end

/-! ## The members -/

/-- `-<i:04d>`. -/
def memberSuffix (i : ℕ) : List Char :=
  let digits := Nat.toDigits 10 i
  '-' :: (List.replicate (4 - digits.length) '0' ++ digits)

/-- `<group_id>-<i:04d>`. -/
def memberName (groupId : Text) (i : ℕ) : Text := groupId ++ chars (memberSuffix i)

/-- The names that a group of `count` members asks for. -/
def memberNames (groupId : Text) (count : ℕ) : List Text :=
  (List.range count).map (memberName groupId)

/-! ## What the documentation says -/

/-- 1 to 59 characters of `[A-Za-z0-9_.-]`, starting alphanumeric. -/
structure IsGroupId (g : Text) : Prop where
  length : 1 ≤ g.length ∧ g.length ≤ 59
  points : ∀ c ∈ g, isIdPoint c = true
  head : ∃ c, g.head? = some c ∧ isAlphanumeric c = true

/-- At most 64 characters of `[A-Za-z0-9_.-]`. -/
def IsMemberName (name : Text) : Prop := name.length ≤ 64 ∧ ∀ c ∈ name, isIdPoint c = true

/-- The text is an id with a newline behind it. -/
def EndsLine (g : Text) : Prop := ∃ id, IsGroupId id ∧ g = id ++ [newline]

variable {F : Type} {g : Text} {i : ℕ}

/-! ## The grammar -/

theorem isIdPoint_of_isAlphanumeric {c : CodePoint} (h : isAlphanumeric c = true) :
    isIdPoint c = true := by
  cases c with
  | scalar c =>
      have hc : c.isAlphanum = true := by simpa [isAlphanumeric, CodePoint.char?] using h
      simp [isIdPoint, CodePoint.char?, isGroupIdChar, hc]
  | surrogate n => simp [isAlphanumeric, CodePoint.char?] at h

theorem not_isIdPoint_newline : isIdPoint newline = false := by decide

/-- The grammar is a first symbol and at most 58 further ones. -/
theorem isGroupId_iff : IsGroupId g ↔ Regex.headTail isAlphanumeric isIdPoint 58 g = true := by
  cases g with
  | nil =>
      constructor
      · intro h
        have hlength := h.length.1
        simp at hlength
      · intro h
        cases h
  | cons c rest =>
      simp only [Regex.headTail, Bool.and_eq_true, decide_eq_true_eq, List.all_eq_true]
      constructor
      · intro h
        obtain ⟨c', hc', halpha⟩ := h.head
        have hmost := h.length.2
        rw [List.head?_cons, Option.some_inj] at hc'
        rw [List.length_cons] at hmost
        exact ⟨⟨hc' ▸ halpha, by omega⟩, fun d hd => h.points d (List.mem_cons_of_mem _ hd)⟩
      · intro h
        obtain ⟨⟨halpha, hmost⟩, hall⟩ := h
        refine ⟨⟨by simp, by rw [List.length_cons]; omega⟩, ?_, c, rfl, halpha⟩
        intro d hd
        cases List.mem_cons.mp hd with
        | inl hhead => exact hhead ▸ isIdPoint_of_isAlphanumeric halpha
        | inr htail => exact hall d htail

instance : Decidable (IsGroupId g) := decidable_of_iff _ isGroupId_iff.symm

/-- An id has no newline. -/
theorem IsGroupId.not_endsLine (h : IsGroupId g) : ¬EndsLine g := by
  intro hline
  obtain ⟨id, _, hg⟩ := hline
  have hlast := h.points newline (by rw [hg]; simp)
  rw [not_isIdPoint_newline] at hlast
  cases hlast

/-- A string that `fullmatch` finds in the pattern is an id. -/
theorem fullmatch_sandboxGroupIdRe :
    sandboxGroupIdRe.fullmatch newline g = true ↔ IsGroupId g := by
  rw [sandboxGroupIdRe, Regex.fullmatch_caret, Regex.fullmatch_dollar, Regex.fullmatch_headThen,
    isGroupId_iff]

/-- **`match` accepts the ids, and each of them with a newline behind it.** -/
theorem isMatch_sandboxGroupIdRe :
    sandboxGroupIdRe.isMatch newline g = true ↔ IsGroupId g ∨ EndsLine g := by
  rw [sandboxGroupIdRe, Regex.isMatch_caret, Regex.isMatch_dollar_iff Regex.plain_headThen]
  simp only [Regex.fullmatch_headThen, ← isGroupId_iff, EndsLine]

example : [lit "", lit "-g", lit "a/b"].any (sandboxGroupIdRe.isMatch newline) = false := by decide

theorem matched_ok_iff {test : Text → Bool} {message : String} {v : Value F} {t : Text} :
    matched test message v = .ok t ↔ v = .str t ∧ test t = true := by
  cases v with
  | str s =>
      by_cases hs : test s = true
      · simp only [matched, if_pos hs, Except.ok.injEq, Value.str.injEq]
        constructor
        · intro h
          subst h
          exact ⟨rfl, hs⟩
        · intro h
          exact h.1
      · simp only [matched, if_neg hs, Value.str.injEq]
        constructor
        · intro h
          cases h
        · intro h
          obtain ⟨hst, ht⟩ := h
          subst hst
          exact absurd ht hs
  | _ => simp [matched]

/-- What `_sandbox_group_id` accepts. -/
theorem sandboxGroupId_ok_iff {v : Value F} :
    sandboxGroupId v = .ok g ↔ v = .str g ∧ (IsGroupId g ∨ EndsLine g) := by
  rw [sandboxGroupId, matched_ok_iff, isMatch_sandboxGroupIdRe]

/-! ## The other validators -/

/-- A relay name is matched as a whole. -/
theorem relayName_ok_iff {v : Value F} :
    relayName v = .ok g ↔ v = .str g ∧ Regex.headTail isLower
      (fun c => isLower c || c.isDigit || c = .scalar '-') 31 g = true := by
  rw [relayName, matched_ok_iff, relayNameRe, Regex.fullmatch_textEnd, Regex.fullmatch_headThen]

/-- A job id is matched as a whole. -/
theorem jobId_ok_iff {fresh : Text} {value : Option Text} :
    jobId fresh value = .ok g ↔
      g = strip (if (value.getD []).isEmpty then fresh else value.getD []) ∧
        Regex.headTail isAlphanumeric (fun c => isIdPoint c || c = .scalar ':') 127 g = true := by
  simp only [jobId, jobIdRe, Regex.fullmatch_headThen]
  generalize strip _ = result
  constructor
  · intro h
    split_ifs at h with hmatch
    cases h
    exact ⟨rfl, hmatch⟩
  · intro h
    obtain ⟨hg, hmatch⟩ := h
    subst hg
    rw [if_pos hmatch]

/-! ## The paths of a group -/

theorem headTail_lit (s : List Char) :
    Regex.headTail isAlphanumeric isIdPoint 58 (chars s) =
      Regex.headTail Char.isAlphanum isGroupIdChar 58 s := by
  cases s with
  | nil => rfl
  | cons c rest =>
      have hrest : (chars rest).all isIdPoint = rest.all isGroupIdChar := by
        rw [chars, List.all_map]
        rfl
      have hlength : (chars rest).length = rest.length := List.length_map _
      simp only [chars, List.map_cons, Regex.headTail]
      rw [← chars, hrest, hlength]
      rfl

theorem endsLine_lit (s : String) :
    EndsLine (lit s) ↔ ∃ body, Regex.headTail Char.isAlphanum isGroupIdChar 58 body = true ∧
      s.toList = body ++ ['\n'] := by
  constructor
  · intro h
    obtain ⟨id, hid, hs⟩ := h
    obtain ⟨body, last, hbody, hid', hlast⟩ := List.map_eq_append_iff.mp hs
    obtain ⟨c, hc, hnewline⟩ := List.map_eq_singleton_iff.mp hlast
    cases hnewline
    refine ⟨body, ?_, by rw [hbody, hc]⟩
    rw [← headTail_lit, ← isGroupId_iff, chars, hid']
    exact hid
  · intro h
    obtain ⟨body, hbody, hs⟩ := h
    refine ⟨chars body, ?_, ?_⟩
    · rw [isGroupId_iff, headTail_lit]
      exact hbody
    · rw [lit, hs, chars, List.map_append]
      rfl

/-- **The ids that a path of a group carries** are those that `_sandbox_group_id` accepts. -/
theorem isSandboxGroupId_iff (s : String) :
    isSandboxGroupId s = true ↔ sandboxGroupId (.str (lit s) : Value F) = .ok (lit s) := by
  rw [sandboxGroupId_ok_iff, isGroupId_iff, endsLine_lit, lit, headTail_lit, isSandboxGroupId]
  cases hs : s.toList with
  | nil => simp [Regex.headTail]
  | cons c rest =>
      simp only [true_and]
      by_cases hline : rest.getLast? = some '\n'
      · obtain ⟨front, hfront⟩ := List.getLast?_eq_some_iff.mp hline
        subst hfront
        simp only [hline, if_true, List.dropLast_concat]
        constructor
        · intro h
          exact .inr ⟨c :: front, h, rfl⟩
        · intro h
          cases h with
          | inl h =>
              have hfalse : isGroupIdChar '\n' = false := by decide
              simp [Regex.headTail, hfalse] at h
          | inr h =>
              obtain ⟨body, hbody, hsplit⟩ := h
              obtain rfl : c :: front = body := List.append_cancel_right hsplit
              exact hbody
      · simp only [if_neg hline]
        constructor
        · exact .inl
        · intro h
          cases h with
          | inl h => exact h
          | inr h =>
              obtain ⟨body, hbody, hsplit⟩ := h
              cases body with
              | nil => cases hbody
              | cons d body =>
                  obtain rfl : rest = body ++ ['\n'] := (List.cons.inj hsplit).2
                  exact absurd (List.getLast?_concat) hline

/-- A path of a group is built for an id that is accepted, and from that id. -/
theorem sandboxGroupPath_ok_iff {s path : String} :
    sandboxGroupPath (.str (lit s) : Value F) = .ok path ↔
      isSandboxGroupId s = true ∧ path = sandboxGroupIdPath s := by
  have hchars : String.ofList ((lit s).filterMap CodePoint.char?) = s := by
    rw [lit, filterMap_chars, String.ofList_toList]
  rw [isSandboxGroupId_iff (F := F), sandboxGroupPath]
  constructor
  · intro h
    obtain ⟨id, hid, hpath⟩ := bind_eq_ok h
    obtain ⟨hlit, -⟩ := sandboxGroupId_ok_iff.mp hid
    cases hlit
    cases hpath
    rw [hchars]
    exact ⟨hid, rfl⟩
  · intro h
    rw [h.1, h.2]
    change Except.ok (sandboxGroupIdPath _) = _
    rw [hchars]

/-! ## The names of members -/

theorem length_memberSuffix (hi : i < maxSandboxGroupSize) : (memberSuffix i).length = 5 := by
  have hdigits : (Nat.toDigits 10 i).length ≤ 4 := by
    refine Nat.toDigits_length 10 i 4 (by omega) ?_
    rw [maxSandboxGroupSize] at hi
    omega
  simp only [memberSuffix, List.length_cons, List.length_append, List.length_replicate]
  omega

theorem isGroupIdChar_memberSuffix {c : Char} (hc : c ∈ memberSuffix i) :
    isGroupIdChar c = true := by
  simp only [memberSuffix, List.mem_cons, List.mem_append, List.mem_replicate] at hc
  obtain rfl | ⟨-, rfl⟩ | hdigit := hc
  · decide
  · decide
  · have hc := Nat.isDigit_of_mem_toDigits (by omega) (by omega) hdigit
    simp [isGroupIdChar, Char.isAlphanum, hc]

theorem toList_memberId (groupId : String) (i : ℕ) :
    (Client.GroupCreate.memberId groupId i).toList = groupId.toList ++ memberSuffix i :=
  String.toList_ofList

/-- The name is the id that the records of a group carry. -/
theorem memberName_lit (groupId : String) (i : ℕ) :
    memberName (lit groupId) i = lit (Client.GroupCreate.memberId groupId i) := by
  simp only [memberName, lit, chars, toList_memberId, List.map_append]

theorem memberSuffix_injective : Function.Injective memberSuffix := by
  intro i j h
  apply Client.GroupCreate.memberId_injective ""
  rw [← String.toList_inj, toList_memberId, toList_memberId, h]

theorem memberName_injective (groupId : Text) : Function.Injective (memberName groupId) := by
  intro i j h
  have hsuffix := List.append_cancel_left h
  have hscalar : Function.Injective CodePoint.scalar := fun c d hcd => CodePoint.scalar.inj hcd
  exact memberSuffix_injective (hscalar.list_map hsuffix)

/-- An id leaves room for the names of its members. -/
theorem IsGroupId.memberName (h : IsGroupId g) (hi : i < maxSandboxGroupSize) :
    IsMemberName (memberName g i) := by
  constructor
  · have hlength := h.length.2
    have hsuffix := length_memberSuffix hi
    simp only [GroupIds.memberName, chars, List.length_append, List.length_map]
    omega
  · intro c hc
    cases List.mem_append.mp hc with
    | inl hid => exact h.points c hid
    | inr hsuffix =>
        obtain ⟨d, hd, hc'⟩ := List.mem_map.mp hsuffix
        subst hc'
        exact isGroupIdChar_memberSuffix hd

/-- With a newline behind the id, every name has it inside. -/
theorem EndsLine.not_memberName (h : EndsLine g) (i : ℕ) : ¬IsMemberName (memberName g i) := by
  obtain ⟨id, -, hg⟩ := h
  intro hname
  have hline := hname.2 newline (by simp [memberName, hg])
  rw [not_isIdPoint_newline] at hline
  cases hline

/-- The ids of the grammar are accepted, and nothing else. The members of a group that is accepted
have names of their own, with at most 64 characters of the alphabet. -/
structure DocumentedIds (F : Type) (g : Text) : Prop where
  exact : (∃ id, sandboxGroupId (.str g : Value F) = .ok id) ↔ IsGroupId g
  members : ∀ id, sandboxGroupId (.str g : Value F) = .ok id → ∀ i < maxSandboxGroupSize,
    IsMemberName (memberName id i)
  distinct : ∀ id, sandboxGroupId (.str g : Value F) = .ok id → ∀ i < maxSandboxGroupSize,
    ∀ j < maxSandboxGroupSize, i ≠ j → memberName id i ≠ memberName id j

/-- **The ids are the documented ones, but for a newline at the end.** -/
theorem documentedIds_iff (F : Type) (g : Text) : DocumentedIds F g ↔ ¬EndsLine g := by
  constructor
  · intro h hline
    have haccepted : sandboxGroupId (.str g : Value F) = .ok g :=
      sandboxGroupId_ok_iff.mpr ⟨rfl, .inr hline⟩
    exact (h.exact.mp ⟨g, haccepted⟩).not_endsLine hline
  · intro hline
    have hgroup : ∀ id, sandboxGroupId (.str g : Value F) = .ok id → id = g ∧ IsGroupId g := by
      intro id hid
      obtain ⟨hg, haccepted⟩ := sandboxGroupId_ok_iff.mp hid
      cases hg
      exact ⟨rfl, haccepted.resolve_right hline⟩
    constructor
    · constructor
      · intro h
        obtain ⟨id, hid⟩ := h
        exact (hgroup id hid).2
      · intro h
        exact ⟨g, sandboxGroupId_ok_iff.mpr ⟨rfl, .inl h⟩⟩
    · intro id hid i hi
      obtain ⟨rfl, hg⟩ := hgroup id hid
      exact hg.memberName hi
    · intro id _ i _ j _ hne heq
      exact hne (memberName_injective id heq)

/-- `_sandbox_group_id` accepts `abc` with a newline behind it. -/
theorem abc_line_accepted : ¬DocumentedIds Unit (lit "abc\n") := by
  intro h
  have haccepted : sandboxGroupId (.str (lit "abc\n") : Value Unit) = .ok (lit "abc\n") := by
    rw [sandboxGroupId_ok_iff]
    exact ⟨rfl, .inr ⟨lit "abc", by decide, by decide⟩⟩
  have hid : ¬IsGroupId (lit "abc\n") := by decide
  exact hid (h.exact.mp ⟨_, haccepted⟩)

/-! ## A create -/

section
variable {groupId count : Value F} {spec : Except Raised (List (Key F × Value F))}
  {placement : Text} {payload : Value F}

theorem groupCount_ok_iff {n : ℤ} :
    groupCount count = .ok n ↔ count = .int n ∧ 1 ≤ n ∧ n ≤ maxSandboxGroupSize := by
  cases count with
  | int m =>
      rw [groupCount]
      by_cases hm : 1 ≤ m ∧ m ≤ maxSandboxGroupSize
      · rw [if_pos hm, Except.ok.injEq, Value.int.injEq]
        constructor
        · intro h
          subst h
          exact ⟨rfl, hm⟩
        · intro h
          exact h.1
      · rw [if_neg hm, Value.int.injEq]
        constructor
        · intro h
          cases h
        · intro h
          obtain ⟨hmn, hn⟩ := h
          subst hmn
          exact absurd hn hm
  | _ => simp [groupCount]

/-- The id of the spec is not sent. -/
theorem popId_ok {fields template : List (Key F × Value F)} (h : popId fields = .ok template) :
    ∀ item ∈ template, Relay.isName "id" item.1 = false := by
  rw [popId] at h
  split_ifs at h
  cases h
  intro item hitem
  have hkept := (List.mem_filter.mp hitem).2
  simpa using hkept

/-- What a create checks before it sends anything, and what it sends. -/
theorem sandboxGroupPayload_ok
    (h : sandboxGroupPayload groupId spec count placement = .ok payload) :
    ∃ id n fields template,
      groupId = .str id ∧ (IsGroupId id ∨ EndsLine id) ∧
      count = .int n ∧ (1 ≤ n ∧ n ≤ maxSandboxGroupSize) ∧
      placement ∈ sandboxGroupPlacements ∧
      spec = .ok fields ∧ popId fields = .ok template ∧
      payload = .dict [(.str (lit "group_id"), .str id), (.str (lit "count"), .int n),
        (.str (lit "spec"), .dict template), (.str (lit "placement"), .str placement)] := by
  obtain ⟨n, hn, h⟩ := bind_eq_ok h
  obtain ⟨hcount, hbounds⟩ := groupCount_ok_iff.mp hn
  by_cases hplacement : placement ∈ sandboxGroupPlacements
  · rw [if_neg (not_not_intro hplacement)] at h
    obtain ⟨fields, hfields, h⟩ := bind_eq_ok h
    obtain ⟨template, htemplate, h⟩ := bind_eq_ok h
    obtain ⟨id, hid, h⟩ := bind_eq_ok h
    obtain ⟨hgroup, haccepted⟩ := sandboxGroupId_ok_iff.mp hid
    exact ⟨id, n, fields, template, hgroup, haccepted, hcount, hbounds, hplacement, hfields,
      htemplate, (Except.ok.inj h).symm⟩
  · rw [if_pos hplacement] at h
    cases h

/-- **The members that a create asks for** have different names. They are within the alphabet and
the length of a sandbox id unless the id of the group has a newline behind it. -/
theorem members_of_payload (h : sandboxGroupPayload groupId spec count placement = .ok payload) :
    ∃ id n, groupId = .str id ∧ count = .int n ∧ (memberNames id n.toNat).Nodup ∧
      ((∀ name ∈ memberNames id n.toNat, IsMemberName name) ↔ ¬EndsLine id) := by
  obtain ⟨id, n, _, _, hgroup, haccepted, hcount, hbounds, -⟩ := sandboxGroupPayload_ok h
  refine ⟨id, n, hgroup, hcount, List.nodup_range.map (memberName_injective id), ?_⟩
  constructor
  · intro hnames hline
    have hfirst : memberName id 0 ∈ memberNames id n.toNat :=
      List.mem_map.mpr ⟨0, List.mem_range.mpr (by omega), rfl⟩
    exact hline.not_memberName 0 (hnames _ hfirst)
  · intro hline name hname
    obtain ⟨i, hi, hname⟩ := List.mem_map.mp hname
    subst hname
    have hid := haccepted.resolve_right hline
    have hlt := List.mem_range.mp hi
    exact hid.memberName (by omega)

end

end GroupIds
end UcloudSandboxes
