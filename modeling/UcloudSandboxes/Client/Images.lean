import UcloudSandboxes.Lib.Table
import UcloudSandboxes.Python.Value

/-!
# The rounds of `wait_for_images`

`ensure_images` and `wait_for_images` of both sandbox clients, whose texts differ in `await` only.
The names that are not settled yet are asked for in batches, round after round, and the statuses of
the answers are gathered until there are as many settled ones as names.

## Main definitions

* `ensureImages`: the requests of a round.
* `waitForImages`: the loop over the rounds.

## Main results

* `ensureImages_sent`, `ensureBatches_complete`: what a round asks for.
-/
namespace UcloudSandboxes.Client
open Lib Python

/-- `IMAGE_STATES_SETTLED`. -/
def imageStatesSettled : List String := ["ready", "failed", "unknown"]

/-- An exception with what `_transient_image_poll_error` asks of it besides its status: whether its
`__cause__` is an `OSError`. -/
structure CallError where
  raised : Raised
  osCause : Bool := false

/-- A `dict` of image statuses. -/
abbrev Statuses := Table String Json

/-- `_image_names`. -/
def imageNames (names : List String) : Except Raised (List String) :=
  -- `dict.fromkeys` keeps the first occurrence of each name.
  let distinct := names.eraseDups
  if distinct = [] ∨ "" ∈ distinct then
    .error (.builtin .valueError "image names must be non-empty strings")
  else .ok distinct

/-- `_image_statuses`. -/
def imageStatuses (result : Dict) : Except CallError Dict :=
  match (result.get "images").asDict with
  | some images => .ok images
  | none =>
      .error {
        raised := .api {
          message := "gateway returned an invalid image ensure payload", body := .dict result } }

/-- `_transient_image_poll_error`, for an exception that is a `SandboxApiError`. -/
def CallError.transient (e : CallError) : Bool :=
  match e.raised with
  | .api exc =>
      match exc.statusCode with
      | some status => [408, 429, 500, 502, 503, 504].contains status
      | none => e.osCause
  | _ => false

/-- `IMAGE_RECIPE_BATCH`. -/
def imageRecipeBatch : ℕ := 1000

/-- The slices of a list that `range` steps through. -/
def batches (size : ℕ) (names : List String) : List (List String) :=
  (List.range ((names.length + size - 1) / size)).map fun k => (names.drop (k * size)).take size

section
variable (answers : ℕ → Except CallError Dict)

/-- The loop of `ensure_images`: the batches that were sent, and the statuses. -/
def ensureBatches : ℕ → Statuses → List (List String) →
    List (List String) × Except CallError Statuses
  | _, statuses, [] => ([], .ok statuses)
  | k, statuses, batch :: rest =>
      match answers k >>= imageStatuses with
      | .error e => ([batch], .error e)
      | .ok images =>
          let later := ensureBatches (k + 1) (statuses.update images) rest
          (batch :: later.1, later.2)

/-- `ensure_images`, with what the request for each batch returns or raises. -/
def ensureImages (size : ℕ) (names : List String) :
    List (List String) × Except CallError Statuses :=
  match imageNames names with
  | .error exc => ([], .error { raised := exc })
  | .ok names => ensureBatches answers 0 ∅ (batches size names)

end

/-- `status.get("state") in IMAGE_STATES_SETTLED`. -/
def isSettled (status : Json) : Except Raised Bool :=
  match status.asDict with
  | some fields => (fields.get "state").memberOf imageStatesSettled
  | none => .error (.builtin .other "object has no attribute 'get'")

/-- The settled statuses among these. -/
def settledItems : List (String × Json) → Except Raised (List (String × Json))
  | [] => .ok []
  | item :: rest => do
      let settled ← isSettled item.2
      let later ← settledItems rest
      return if settled then item :: later else later

/-- One round of the loop: what its requests return or raise, the exception of `on_status`, if it
raises one, and what is left of the deadline behind it. -/
structure ImageRound where
  answers : ℕ → Except CallError Dict
  notify : Option Raised := none
  remaining : Option ℚ := none

inductive WaitOutcome
  | running
  | returned (statuses : List (String × Json))
  | raised (exc : Raised)

/-- `{name: settled[name] for name in names}`. -/
def finalStatuses (settled : Statuses) (names : List String) :
    Except Raised (List (String × Json)) :=
  names.mapM fun name =>
    match settled.lookup name with
    | some status => .ok (name, status)
    | none => .error (.builtin .keyError name)

/-- The `try` of one round: the statuses it goes on with. A transient error leaves none. -/
def currentStatuses : Except CallError Statuses → Except Raised Statuses
  | .ok statuses => .ok statuses
  | .error e => if e.transient then .ok ∅ else .error e.raised

/-- What a round does to the settled statuses, and how the call ends with it, if it does. -/
def waitRound (names : List String) (settled : Statuses) (r : ImageRound)
    (ensured : Except CallError Statuses) : Except Raised (Statuses × Option WaitOutcome) := do
  let current ← currentStatuses ensured
  let items ← settledItems current.items
  let settled := settled.update items
  match r.notify with
  | some exc => .error exc
  | none =>
      if settled.keys.length = names.length then
        let statuses ← finalStatuses settled names
        return (settled, some (.returned statuses))
      else match r.remaining with
        | some remaining =>
            if remaining ≤ 0 then
              .error (.os {
                kind := .timeout
                name := "TimeoutError"
                text := toString (names.length - settled.keys.length : ℤ) ++ " of " ++
                  toString names.length ++ " images are not built yet" })
            else return (settled, none)
        | none => return (settled, none)

/-- The loop of `wait_for_images`: how it ends, and the requests of each of its rounds. -/
def waitLoop (size : ℕ) (names : List String) :
    Statuses → List ImageRound → WaitOutcome × List (List (List String))
  | _, [] => (.running, [])
  | settled, r :: rest =>
      let ensured := ensureImages r.answers size (names.filter fun name => decide (name ∉ settled))
      match waitRound names settled r ensured.2 with
      | .error exc => (.raised exc, [ensured.1])
      | .ok (_, some outcome) => (outcome, [ensured.1])
      | .ok (settled, none) =>
          let later := waitLoop size names settled rest
          (later.1, ensured.1 :: later.2)

/-- `wait_for_images`. -/
def waitForImages (size : ℕ) (names : List String) (rounds : List ImageRound) :
    WaitOutcome × List (List (List String)) :=
  match imageNames names with
  | .error exc => (.raised exc, [])
  | .ok names => waitLoop size names ∅ rounds

/-! ## What a round asks for -/

theorem nodup_eraseDups (l : List String) : l.eraseDups.Nodup := by
  induction hn : l.length using Nat.strong_induction_on generalizing l with
  | _ n ih =>
      cases l with
      | nil => simp
      | cons a rest =>
          subst hn
          rw [List.eraseDups_cons, List.nodup_cons]
          constructor
          · rw [List.mem_eraseDups, List.mem_filter]
            simp
          · refine ih _ ?_ _ rfl
            exact Nat.lt_succ_of_le (List.length_filter_le _ _)

theorem eraseDups_of_nodup {l : List String} (h : l.Nodup) : l.eraseDups = l := by
  induction l with
  | nil => rfl
  | cons a rest ih =>
      obtain ⟨ha, hrest⟩ := List.nodup_cons.mp h
      have hfilter : rest.filter (fun b => !b == a) = rest := by
        refine List.filter_eq_self.mpr fun b hb => ?_
        have hne : b ≠ a := fun hba => ha (hba ▸ hb)
        simp [hne]
      rw [List.eraseDups_cons, hfilter, ih hrest]

theorem imageNames_ok {given names : List String} (h : imageNames given = .ok names) :
    names.Nodup ∧ names ≠ [] ∧ "" ∉ names ∧ ∀ name, name ∈ names ↔ name ∈ given := by
  simp only [imageNames] at h
  split at h
  · cases h
  · rename_i hvalid
    cases h
    refine ⟨nodup_eraseDups given, fun hnil => hvalid (.inl hnil), ?_, ?_⟩
    · exact fun hempty => hvalid (.inr hempty)
    · exact fun name => List.mem_eraseDups

/-- Names that are good for a call are good for each of its rounds. -/
theorem imageNames_of_nodup {names : List String} (hnodup : names.Nodup) (hne : names ≠ [])
    (hempty : "" ∉ names) : imageNames names = .ok names := by
  simp only [imageNames, eraseDups_of_nodup hnodup]
  rw [if_neg]
  rintro (h | h)
  · exact hne h
  · exact hempty h

/-- A batch is no longer than allowed, and holds names that were given. -/
theorem mem_batches {size : ℕ} {names batch : List String} (h : batch ∈ batches size names) :
    batch.length ≤ size ∧ ∀ name ∈ batch, name ∈ names := by
  obtain ⟨k, -, rfl⟩ := List.mem_map.mp h
  refine ⟨List.length_take_le _ _, fun name hname => ?_⟩
  exact List.mem_of_mem_drop (List.mem_of_mem_take hname)

/-- Together the batches are the list. -/
theorem flatten_batches {size : ℕ} (hsize : 0 < size) (names : List String) :
    (batches size names).flatten = names := by
  have htake : ∀ m, ((List.range m).map fun k => (names.drop (k * size)).take size).flatten =
      names.take (m * size) := by
    intro m
    induction m with
    | zero => simp
    | succ m ih =>
        rw [List.range_succ, List.map_append, List.flatten_append, ih, Nat.succ_mul, List.take_add]
        simp
  rw [batches, htake, List.take_of_length_le]
  have hdiv := Nat.div_add_mod (names.length + size - 1) size
  have hmod := Nat.mod_lt (names.length + size - 1) hsize
  rw [Nat.mul_comm] at hdiv
  omega

theorem ensureBatches_sent (answers : ℕ → Except CallError Dict) (k : ℕ) (statuses : Statuses)
    (todo : List (List String)) : (ensureBatches answers k statuses todo).1 <+: todo := by
  induction todo generalizing k statuses with
  | nil => exact List.prefix_rfl
  | cons batch rest ih =>
      simp only [ensureBatches]
      split
      · exact List.prefix_append [batch] rest
      · exact List.prefix_cons_inj batch |>.mpr (ih _ _)

/-- A round that is answered asks for every name. -/
theorem ensureBatches_complete {answers : ℕ → Except CallError Dict} {k : ℕ}
    {statuses final : Statuses} {todo : List (List String)}
    (h : (ensureBatches answers k statuses todo).2 = .ok final) :
    (ensureBatches answers k statuses todo).1 = todo := by
  induction todo generalizing k statuses with
  | nil => rfl
  | cons batch rest ih =>
      simp only [ensureBatches] at h ⊢
      split at h
      · cases h
      · rw [ih h]

/-- The requests of a round ask for names that were given, as many as allowed at a time. -/
theorem ensureImages_sent {answers : ℕ → Except CallError Dict} {size : ℕ}
    {names batch : List String} (h : batch ∈ (ensureImages answers size names).1) :
    batch.length ≤ size ∧ ∀ name ∈ batch, name ∈ names := by
  simp only [ensureImages] at h
  cases hnames : imageNames names with
  | error exc =>
      rw [hnames] at h
      cases h
  | ok distinct =>
      rw [hnames] at h
      have hbatch := mem_batches (List.IsPrefix.mem h (ensureBatches_sent ..))
      refine ⟨hbatch.1, fun name hname => ?_⟩
      exact ((imageNames_ok hnames).2.2.2 name).mp (hbatch.2 name hname)

end UcloudSandboxes.Client
