import UcloudSandboxes.Client.SettledImages

/-!
# Waiting for images

`wait_for_images` ends when as many names have settled as were requested. A status that was not
asked for counts as well.

## Main results

* `wait_settles`: the rounds in which the loop settles exactly the requested names.
* `never_returns`: what one foreign name does to it.
-/
namespace UcloudSandboxes.Client
open Lib Python

/-! ## Foreign names -/

section
variable {size : ℕ} {names : List String}

theorem mem_of_finalStatuses {settled : Statuses} {some : List String}
    {statuses : List (String × Json)} (h : finalStatuses settled some = .ok statuses) :
    ∀ name ∈ some, name ∈ settled := by
  induction some generalizing statuses with
  | nil =>
      intro name hname
      cases hname
  | cons first rest ih =>
      simp only [finalStatuses, List.mapM_cons] at h ih
      obtain ⟨status, hstatus, h⟩ := bind_eq_ok h
      obtain ⟨later, hlater, -⟩ := bind_eq_ok h
      intro name hname
      rcases List.mem_cons.mp hname with rfl | hname
      · refine AList.lookup_isSome.mp ?_
        cases hlookup : settled.lookup name with
        | none =>
            rw [hlookup] at hstatus
            cases hstatus
        | some found => rfl
      · exact ih hlater name hname

theorem mem_settledItems {items settled : List (String × Json)}
    (h : settledItems items = .ok settled) {item : String × Json} (hitem : item ∈ items)
    (hsettled : isSettled item.2 = .ok true) : item ∈ settled := by
  induction items generalizing settled with
  | nil => cases hitem
  | cons first rest ih =>
      simp only [settledItems] at h
      obtain ⟨b, hb, h⟩ := bind_eq_ok h
      obtain ⟨later, hlater, h⟩ := bind_eq_ok h
      cases h
      rcases List.mem_cons.mp hitem with rfl | hitem
      · rw [hsettled] at hb
        cases hb
        exact List.mem_cons_self
      · have hrest := ih hlater hitem
        split
        · exact List.mem_cons_of_mem _ hrest
        · exact hrest

/-- A round that goes on or returns writes the settled statuses, and one that returns has as many
settled names as names. -/
theorem waitRound_ok {settled settled' : Statuses} {r : ImageRound}
    {ensured : Except CallError Statuses} {outcome : Option WaitOutcome}
    (h : waitRound names settled r ensured = .ok (settled', outcome)) :
    (∃ current items, currentStatuses ensured = .ok current ∧
      settledItems current.items = .ok items ∧ settled' = settled.update items) ∧
      (outcome ≠ none → settled'.keys.length = names.length ∧ ∀ name ∈ names, name ∈ settled') := by
  simp only [waitRound] at h
  obtain ⟨current, hcurrent, h⟩ := bind_eq_ok h
  obtain ⟨items, hitems, h⟩ := bind_eq_ok h
  cases hnotify : r.notify with
  | some exc =>
      rw [hnotify] at h
      cases h
  | none =>
      rw [hnotify] at h
      simp only at h
      by_cases hlength : (settled.update items).keys.length = names.length
      · rw [if_pos hlength] at h
        obtain ⟨statuses, hstatuses, h⟩ := bind_eq_ok h
        cases h
        exact ⟨⟨current, items, hcurrent, hitems, rfl⟩,
          fun _ => ⟨hlength, mem_of_finalStatuses hstatuses⟩⟩
      · rw [if_neg hlength] at h
        split at h
        · split at h
          · cases h
          · cases h
            exact ⟨⟨current, items, hcurrent, hitems, rfl⟩, fun hne => absurd rfl hne⟩
        · cases h
          exact ⟨⟨current, items, hcurrent, hitems, rfl⟩, fun hne => absurd rfl hne⟩

/-- A round forgets nothing. -/
theorem mem_of_waitRound {settled settled' : Statuses} {r : ImageRound}
    {ensured : Except CallError Statuses} {outcome : Option WaitOutcome}
    (h : waitRound names settled r ensured = .ok (settled', outcome)) {x : String}
    (hx : x ∈ settled) : x ∈ settled' := by
  obtain ⟨_, items, -, -, rfl⟩ := (waitRound_ok h).1
  exact Table.mem_update.mpr (.inl hx)

/-- It keeps every settled name of its answer. -/
theorem mem_of_settled {settled settled' statuses : Statuses} {r : ImageRound}
    {outcome : Option WaitOutcome}
    (h : waitRound names settled r (.ok statuses) = .ok (settled', outcome)) {x : String}
    {status : Json} (hx : statuses.lookup x = some status)
    (hsettled : isSettled status = .ok true) : x ∈ settled' := by
  obtain ⟨current, items, hcurrent, hitems, rfl⟩ := (waitRound_ok h).1
  cases hcurrent
  exact Table.mem_update.mpr (.inr ⟨status,
    mem_settledItems hitems (Table.mem_items.mpr hx) hsettled⟩)

/-- It does not return with a name that was never requested. -/
theorem not_returned_of_foreign {settled settled' : Statuses} {r : ImageRound}
    {ensured : Except CallError Statuses} {outcome : WaitOutcome} {x : String}
    (hnodup : names.Nodup) (hx : x ∈ settled') (hxn : x ∉ names) :
    waitRound names settled r ensured ≠ .ok (settled', some outcome) := by
  intro h
  obtain ⟨hlength, hall⟩ := (waitRound_ok h).2 (Option.some_ne_none _)
  obtain ⟨name, hname, hnot⟩ := Table.exists_not_mem_of_length_keys hnodup hx hxn hlength
  exact hnot (hall name hname)

/-- A name that was never requested is not forgotten, and a table that has it never has exactly the
requested names. -/
theorem waitLoop_foreign {settled : Statuses} {x : String} (hnodup : names.Nodup)
    (hx : x ∈ settled) (hxn : x ∉ names) (rounds : List ImageRound)
    (statuses : List (String × Json)) :
    (waitLoop size names settled rounds).1 ≠ .returned statuses := by
  induction rounds generalizing settled with
  | nil =>
      intro h
      cases h
  | cons r rest ih =>
      simp only [waitLoop]
      split
      · intro h
        cases h
      · rename_i settled' outcome hround
        exact absurd hround (not_returned_of_foreign hnodup (mem_of_waitRound hround hx) hxn)
      · rename_i settled' hround
        exact ih (mem_of_waitRound hround hx)

/-- The wait over quiet rounds that leave a name to wait for. -/
theorem waitLoop_before {settled : Statuses} {settledAt : String → Option Json}
    {before : List ImageRound} (rest : List ImageRound) (H : Holds names settled settledAt)
    (hnodup : names.Nodup) (hempty : "" ∉ names) (hquiet : ∀ r ∈ before, r.Quiet)
    (hproper : ∀ i r, before[i]? = some r →
      Proper size names ((before.take i).foldl (foundAfter size names) settledAt) r)
    (hleft : ∃ name ∈ names, before.foldl (foundAfter size names) settledAt name = none) :
    ∃ settled', Holds names settled' (before.foldl (foundAfter size names) settledAt) ∧
      (waitLoop size names settled (before ++ rest)).1 = (waitLoop size names settled' rest).1 := by
  induction before generalizing settled settledAt with
  | nil => exact ⟨settled, H, rfl⟩
  | cons r before ih =>
      obtain ⟨name, hname, hnone⟩ := hleft
      have hnext : foundAfter size names settledAt r name = none := by
        by_contra hsome
        have hkeeps := @foldl_foundAfter_of_isSome size names _ before _
          (Option.isSome_iff_ne_none.mpr hsome)
        rw [List.foldl_cons, hkeeps] at hnone
        exact hsome hnone
      have hfirst : settledAt name = none := by
        by_contra hsome
        have hkeeps := @foundAfter_of_isSome size names _ r _ (Option.isSome_iff_ne_none.mpr hsome)
        rw [hkeeps] at hnext
        exact hsome hnext
      obtain ⟨settled', H', hround⟩ := waitRound_quiet H hnodup hempty
        (hquiet r List.mem_cons_self) (hproper 0 r rfl) ⟨name, hname, hfirst⟩
      have hgoes : ¬ ∀ n ∈ names, (foundAfter size names settledAt r n).isSome = true := by
        intro hall
        have hsome := hall name hname
        rw [hnext] at hsome
        cases hsome
      rw [if_neg hgoes] at hround
      obtain ⟨final, Hfinal, hfinal⟩ := ih H'
        (fun r' hr' => hquiet r' (List.mem_cons_of_mem _ hr'))
        (fun i r' hr' => hproper (i + 1) r' hr') ⟨name, hname, hnone⟩
      refine ⟨final, Hfinal, ?_⟩
      rw [List.cons_append, waitLoop, H.pending, hround]
      exact hfinal

end

theorem holds_empty (names : List String) : Holds names ∅ fun _ => none where
  lookup _ := rfl
  requested name h := by cases h

/-- A round that settles a name that was never requested ends every hope. -/
theorem never_returns {size : ℕ} {given names : List String} {before rest : List ImageRound}
    {r : ImageRound} {statuses : Statuses} {x : String} {status : Json}
    (h : imageNames given = .ok names) (hquiet : ∀ r ∈ before, r.Quiet)
    (hproper : ∀ i r, before[i]? = some r → Proper size names (found size names (before.take i)) r)
    (hleft : ∃ name ∈ names, found size names before name = none)
    (hanswer : (ensureImages r.answers size (unsettled names (found size names before))).2 =
      .ok statuses)
    (hx : statuses.lookup x = some status) (hsettled : isSettled status = .ok true)
    (hxn : x ∉ names) (result : List (String × Json)) :
    (waitForImages size given (before ++ r :: rest)).1 ≠ .returned result := by
  obtain ⟨hnodup, -, hempty, -⟩ := imageNames_ok h
  obtain ⟨settled, H, hwait⟩ := waitLoop_before (r :: rest) (holds_empty names) hnodup hempty hquiet
    hproper hleft
  simp only [found] at hanswer
  simp only [waitForImages, h]
  rw [hwait, waitLoop, H.pending]
  simp only [hanswer]
  split
  · intro hreturned
    cases hreturned
  · rename_i settled' outcome hround
    have hmem := mem_of_settled hround hx hsettled
    exact absurd hround (not_returned_of_foreign hnodup hmem hxn)
  · rename_i settled' hround
    exact waitLoop_foreign hnodup (mem_of_settled hround hx hsettled) hxn rest result

/-- **Waiting for images.** In every run of rounds that settle only names they asked for, the call
settles exactly the requested names. As soon as a round settles a name that was never requested, the
call cannot return any more. -/
theorem wait_settles {given names : List String} (size : ℕ) (rounds : List ImageRound)
    (h : imageNames given = .ok names) (hquiet : ∀ r ∈ rounds, r.Quiet)
    (hproper : ∀ i r, rounds[i]? = some r →
      Proper size names (found size names (rounds.take i)) r) :
    SettlesExactly size names given rounds := by
  obtain ⟨hnodup, hne, hempty, -⟩ := imageNames_ok h
  have hleft : ∃ name ∈ names, (fun _ => none : String → Option Json) name = none := by
    obtain ⟨name, hname⟩ := List.exists_mem_of_ne_nil names hne
    exact ⟨name, hname, rfl⟩
  obtain ⟨hreturns, hpolls, hasks⟩ := waitLoop_quiet (holds_empty names) hnodup hempty hleft hquiet
    hproper
  have hwait : waitForImages size given rounds = waitLoop size names ∅ rounds := by
    simp only [waitForImages, h]
  rw [← hwait] at hreturns hpolls hasks
  refine ⟨hreturns, hpolls, ?_, ?_⟩
  · intro i requests hi batch hbatch
    obtain ⟨r, -, rfl⟩ := hasks i requests hi
    obtain ⟨hlength, hmem⟩ := ensureImages_sent hbatch
    exact ⟨hlength, fun name hname => mem_unsettled.mp (hmem name hname)⟩
  · intro hsize i r requests hr hanswers hi
    obtain ⟨r', hr', rfl⟩ := hasks i requests hi
    rw [hr] at hr'
    cases hr'
    have hlt : i < rounds.length := (List.getElem?_eq_some_iff.mp hr).1
    have hsome := (hpolls i hlt).mp (List.getElem?_eq_some_iff.mp hi).1
    exact ensureImages_covers (hquiet r (List.mem_of_getElem? hr)) hanswers hsize
      (imageNames_unsettled hnodup hempty hsome)

/-- A round whose only answer is this. -/
def answeredWith (images : Dict) : ImageRound where
  answers _ := .ok [("images", .dict images)]

theorem answeredWith_quiet (images : Dict) : (answeredWith images).Quiet where
  answered k result h := by
    cases h
    rfl
  transient k e h := by cases h
  notified := rfl
  timely remaining h := by cases h

/-- Three rounds: a name settles beside one that nobody asked for and is not done, no answer, and
the other name settles. -/
def threeRounds : List ImageRound := [
  answeredWith [("a", .dict [("state", .str "ready")]), ("c", .dict [("state", .str "building")])],
  { answers := fun _ => .error { raised := .api { message := "busy", statusCode := some 503 } } },
  answeredWith [("b", .dict [("state", .str "failed")])]]

theorem threeRounds_settle :
    SettlesExactly imageRecipeBatch ["a", "b"] ["a", "b", "a"] threeRounds := by
  refine wait_settles imageRecipeBatch threeRounds rfl (fun r hr => ?_) fun i r hr => ?_
  · simp only [threeRounds, List.mem_cons, List.not_mem_nil, or_false] at hr
    rcases hr with rfl | rfl | rfl
    · exact answeredWith_quiet _
    · constructor
      · intro k result h
        cases h
      · intro k e h
        cases h
        rfl
      · rfl
      · intro remaining h
        cases h
    · exact answeredWith_quiet _
  · intro statuses hstatuses name status hlookup
    have hmem := Table.mem_items.mpr hlookup
    match i with
    | 0 =>
        cases hr
        cases hstatuses
        change (name, status) ∈ [("c", Json.dict [("state", .str "building")]),
          ("a", .dict [("state", .str "ready")])] at hmem
        simp only [List.mem_cons, List.not_mem_nil, or_false, Prod.mk.injEq] at hmem
        rcases hmem with ⟨rfl, rfl⟩ | ⟨rfl, rfl⟩
        · exact ⟨false, rfl, fun h => by cases h⟩
        · exact ⟨true, rfl, fun _ => ⟨by decide, fun earlier h => by cases h⟩⟩
    | 1 =>
        cases hr
        cases hstatuses
    | 2 =>
        cases hr
        cases hstatuses
        change (name, status) ∈ [("b", Json.dict [("state", .str "failed")])] at hmem
        simp only [List.mem_cons, List.not_mem_nil, or_false, Prod.mk.injEq] at hmem
        obtain ⟨rfl, rfl⟩ := hmem
        exact ⟨true, rfl, fun _ => ⟨by decide, fun earlier h => by cases h⟩⟩
    | i + 3 => cases hr

/-- A status that nobody asked for ends the wait with a `KeyError`. -/
theorem foreign_name_fails :
    imageNames ["a"] = .ok ["a"] ∧
      (answeredWith [("b", .dict [("state", .str "ready")])]).Quiet ∧
      ¬ SettlesExactly imageRecipeBatch ["a"] ["a"]
        [answeredWith [("b", .dict [("state", .str "ready")])]] := by
  refine ⟨rfl, answeredWith_quiet _, fun h => ?_⟩
  have hreturns := h.returns
  have hraised : (waitForImages imageRecipeBatch ["a"]
      [answeredWith [("b", .dict [("state", .str "ready")])]]).1 =
        .raised (.builtin .keyError "a") := rfl
  rw [hraised] at hreturns
  split at hreturns <;> cases hreturns

end UcloudSandboxes.Client
