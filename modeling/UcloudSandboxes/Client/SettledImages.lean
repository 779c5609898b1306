import UcloudSandboxes.Client.Images

/-!
# What settles, and when

A name settles at the first settled status that a round reports of it. In a quiet run whose rounds
settle only names they asked for, the loop holds exactly the statuses found so far.

## Main definitions

* `found`: the status at which each name settled, by what the answers said of the names asked for.
* `SettlesExactly`: the loop settles exactly the requested names.

## Main results

* `waitRound_quiet`, `waitLoop_quiet`: a round and the loop in such a run.
-/
namespace UcloudSandboxes.Client
open Lib Python

/-- The status of an answer, if it is a settled one. -/
def settledStatus (ensured : Except CallError Statuses) (name : String) : Option Json :=
  match ensured with
  | .ok statuses =>
      (statuses.lookup name).filter fun status => (isSettled status).toOption = some true
  | .error _ => none

section
variable (size : ℕ) (names : List String)

/-- The names that have not settled. -/
def unsettled (settledAt : String → Option Json) : List String :=
  names.filter fun name => (settledAt name).isNone

/-- One round: a name that was asked for settles at the first settled status that is reported. -/
def foundAfter (settledAt : String → Option Json) (r : ImageRound) : String → Option Json :=
  fun name =>
    (settledAt name).or <|
      if name ∈ names then
        settledStatus (ensureImages r.answers size (unsettled names settledAt)).2 name
      else none

/-- The status at which each name settles. -/
def found (rounds : List ImageRound) : String → Option Json :=
  rounds.foldl (foundAfter size names) fun _ => none

/-- A round of the wait: every request is answered with a mapping or fails in a transient way, the
callback returns, and there is time left. -/
structure ImageRound.Quiet (r : ImageRound) : Prop where
  answered : ∀ k result, r.answers k = .ok result → (result.get "images").asDict.isSome = true
  transient : ∀ k e, r.answers k = .error e → e.transient = true
  notified : r.notify = none
  timely : ∀ remaining, r.remaining = some remaining → 0 < remaining

/-- The statuses of a round are objects whose state can be looked up. Those that are settled belong
to requested names, and repeat the earlier status of a name that had settled before. -/
def Proper (settledAt : String → Option Json) (r : ImageRound) : Prop :=
  ∀ statuses, (ensureImages r.answers size (unsettled names settledAt)).2 = .ok statuses →
    ∀ name status, statuses.lookup name = some status →
      ∃ settled, isSettled status = .ok settled ∧
        (settled = true →
          name ∈ names ∧ ∀ earlier, settledAt name = some earlier → earlier = status)

/-- The loop settles exactly the requested names: it returns when the last of them is reported as
settled, with the status at which each did, and asks for none again. -/
structure SettlesExactly (given : List String) (rounds : List ImageRound) : Prop where
  returns : (waitForImages size given rounds).1 =
    if ∀ name ∈ names, (found size names rounds name).isSome = true then
      .returned (names.map fun name => (name, (found size names rounds name).getD .null))
    else .running
  polls : ∀ i < rounds.length, i < (waitForImages size given rounds).2.length ↔
    ∃ name ∈ names, found size names (rounds.take i) name = none
  asks : ∀ (i : ℕ) requests, (waitForImages size given rounds).2[i]? = some requests →
    ∀ batch ∈ requests, batch.length ≤ size ∧
      ∀ name ∈ batch, name ∈ names ∧ found size names (rounds.take i) name = none
  covers : 0 < size → ∀ (i : ℕ) r requests, rounds[i]? = some r →
    (∀ k e, r.answers k ≠ .error e) → (waitForImages size given rounds).2[i]? = some requests →
      requests.flatten = unsettled names (found size names (rounds.take i))

end

section
variable {size : ℕ} {names : List String}

theorem mem_unsettled {settledAt : String → Option Json} {name : String} :
    name ∈ unsettled names settledAt ↔ name ∈ names ∧ settledAt name = none := by
  rw [unsettled, List.mem_filter, Option.isNone_iff_eq_none]

/-- A name that has settled stays as it is. -/
theorem foundAfter_of_isSome {settledAt : String → Option Json} (r : ImageRound) {name : String}
    (h : (settledAt name).isSome = true) :
    foundAfter size names settledAt r name = settledAt name := by
  obtain ⟨status, hstatus⟩ := Option.isSome_iff_exists.mp h
  rw [foundAfter, hstatus, Option.some_or]

theorem foldl_foundAfter_of_isSome {settledAt : String → Option Json} (rounds : List ImageRound)
    {name : String} (h : (settledAt name).isSome = true) :
    rounds.foldl (foundAfter size names) settledAt name = settledAt name := by
  induction rounds generalizing settledAt with
  | nil => rfl
  | cons r rest ih =>
      have hsame := @foundAfter_of_isSome size names _ r _ h
      rw [List.foldl_cons, ih (by rw [hsame]; exact h), hsame]

theorem ensureBatches_quiet {r : ImageRound} (hr : r.Quiet) (k : ℕ) (statuses : Statuses)
    (todo : List (List String)) :
    (∃ final, (ensureBatches r.answers k statuses todo).2 = .ok final) ∨
      ∃ e j, (ensureBatches r.answers k statuses todo).2 = .error e ∧ r.answers j = .error e := by
  induction todo generalizing k statuses with
  | nil => exact .inl ⟨statuses, rfl⟩
  | cons batch rest ih =>
      simp only [ensureBatches]
      cases hanswer : r.answers k with
      | error e => exact .inr ⟨e, k, rfl, hanswer⟩
      | ok result =>
          obtain ⟨images, himages⟩ := Option.isSome_iff_exists.mp (hr.answered k result hanswer)
          have hresult : imageStatuses result = .ok images := by
            simp only [imageStatuses, himages]
          simp only [bind, Except.bind, hresult]
          exact ih (k + 1) _

/-- A quiet round has an answer, or it goes on without one. -/
theorem currentStatuses_quiet {r : ImageRound} (hr : r.Quiet) {asked : List String}
    (hasked : imageNames asked = .ok asked) :
    ∃ current, currentStatuses (ensureImages r.answers size asked).2 = .ok current ∧
      (∀ name, (current.lookup name).filter
          (fun status => (isSettled status).toOption = some true) =
        settledStatus (ensureImages r.answers size asked).2 name) ∧
      (current = ∅ ∨ (ensureImages r.answers size asked).2 = .ok current) := by
  simp only [ensureImages, hasked]
  rcases ensureBatches_quiet hr 0 ∅ (batches size asked) with ⟨final, hfinal⟩ | ⟨e, j, he, hj⟩
  · refine ⟨final, ?_, fun name => ?_, .inr hfinal⟩
    · rw [hfinal]
      rfl
    · rw [hfinal]
      rfl
  · refine ⟨∅, ?_, fun name => ?_, .inl rfl⟩
    · rw [he, currentStatuses, if_pos (hr.transient j e hj)]
    · rw [he, AList.lookup_empty]
      rfl

theorem settledItems_ok {items : List (String × Json)}
    (h : ∀ item ∈ items, ∃ settled, isSettled item.2 = .ok settled) :
    settledItems items =
      .ok (items.filter fun item => (isSettled item.2).toOption = some true) := by
  induction items with
  | nil => rfl
  | cons item rest ih =>
      obtain ⟨settled, hsettled⟩ := h item List.mem_cons_self
      have hrest := ih fun other hother => h other (List.mem_cons_of_mem _ hother)
      simp only [settledItems, hsettled, hrest, bind, Except.bind, pure, Except.pure,
        List.filter_cons, Except.toOption]
      cases settled <;> simp

/-- The table holds what was found. -/
structure Holds (names : List String) (settled : Statuses) (settledAt : String → Option Json) :
    Prop where
  lookup : ∀ name, settled.lookup name = settledAt name
  requested : ∀ name, (settledAt name).isSome = true → name ∈ names

theorem Holds.pending {settled : Statuses} {settledAt : String → Option Json}
    (H : Holds names settled settledAt) :
    names.filter (fun name => decide (name ∉ settled)) = unsettled names settledAt := by
  refine List.filter_congr fun name _ => ?_
  have hnone := AList.lookup_eq_none (a := name) (s := settled)
  rw [H.lookup name] at hnone
  rw [Bool.eq_iff_iff, decide_eq_true_iff, ← hnone, Option.isNone_iff_eq_none]

/-- There are as many settled names as names exactly if all names are. -/
theorem Holds.length_keys {settled : Statuses} {settledAt : String → Option Json}
    (H : Holds names settled settledAt) (hnodup : names.Nodup) :
    settled.keys.length = names.length ↔ ∀ name ∈ names, (settledAt name).isSome = true := by
  rw [Table.length_keys_eq_iff hnodup]
  · refine forall₂_congr fun name _ => ?_
    rw [← H.lookup name, AList.lookup_isSome]
  · intro name hname
    apply H.requested
    rw [← H.lookup name]
    exact AList.lookup_isSome.mpr hname

theorem Holds.finalStatuses {settled : Statuses} {settledAt : String → Option Json}
    (H : Holds names settled settledAt) {some : List String}
    (hall : ∀ name ∈ some, (settledAt name).isSome = true) :
    finalStatuses settled some =
      .ok (some.map fun name => (name, (settledAt name).getD .null)) := by
  induction some with
  | nil => rfl
  | cons name rest ih =>
      obtain ⟨status, hstatus⟩ := Option.isSome_iff_exists.mp (hall name List.mem_cons_self)
      have hrest := ih fun other hother => hall other (List.mem_cons_of_mem _ hother)
      simp only [Client.finalStatuses] at hrest ⊢
      rw [List.mapM_cons, H.lookup name, hstatus, hrest, List.map_cons, hstatus]
      rfl

/-- What has not settled can be asked for. -/
theorem imageNames_unsettled {settledAt : String → Option Json} (hnodup : names.Nodup)
    (hempty : "" ∉ names) (hleft : ∃ name ∈ names, settledAt name = none) :
    imageNames (unsettled names settledAt) = .ok (unsettled names settledAt) := by
  apply imageNames_of_nodup (hnodup.filter _)
  · intro hnil
    obtain ⟨name, hname, hnone⟩ := hleft
    have hmem := mem_unsettled.mpr ⟨hname, hnone⟩
    rw [show unsettled names settledAt = [] from hnil] at hmem
    cases hmem
  · intro hmem
    exact hempty (mem_unsettled.mp hmem).1

/-- One round of the wait. -/
theorem waitRound_quiet {settled : Statuses} {settledAt : String → Option Json} {r : ImageRound}
    (H : Holds names settled settledAt) (hnodup : names.Nodup) (hempty : "" ∉ names)
    (hr : r.Quiet) (hproper : Proper size names settledAt r)
    (hleft : ∃ name ∈ names, settledAt name = none) :
    ∃ settled', Holds names settled' (foundAfter size names settledAt r) ∧
      waitRound names settled r (ensureImages r.answers size (unsettled names settledAt)).2 =
        .ok (settled',
          if ∀ name ∈ names, (foundAfter size names settledAt r name).isSome = true then
            some (.returned (names.map fun name =>
              (name, (foundAfter size names settledAt r name).getD .null)))
          else none) := by
  have hasked := imageNames_unsettled hnodup hempty hleft
  obtain ⟨current, hcurrent, hstatus, hsource⟩ := @currentStatuses_quiet size _ hr _ hasked
  have hitem : ∀ item ∈ current.items, ∃ settled, isSettled item.2 = .ok settled := by
    intro item hitem
    rcases hsource with rfl | hok
    · cases hitem
    · obtain ⟨b, hb, -⟩ := hproper current hok item.1 item.2 (Table.mem_items.mp hitem)
      exact ⟨b, hb⟩
  -- The statuses that settle belong to names that were asked for, or say what is known.
  have hreported : ∀ name status,
      settledStatus (ensureImages r.answers size (unsettled names settledAt)).2 name = some status →
        name ∈ names ∧ ∀ earlier, settledAt name = some earlier → earlier = status := by
    intro name status hreport
    rw [← hstatus name] at hreport
    obtain ⟨hlookup, hsettled⟩ := Option.filter_eq_some_iff.mp hreport
    rcases hsource with rfl | hok
    · rw [AList.lookup_empty] at hlookup
      cases hlookup
    · obtain ⟨b, hb, hasks⟩ := hproper current hok name status hlookup
      have htrue : b = true := by simpa [hb, Except.toOption] using hsettled
      exact hasks htrue
  have hlookup : ∀ name, AList.lookup name (settled.update (current.items.filter fun item =>
      (isSettled item.2).toOption = some true)) = foundAfter size names settledAt r name := by
    intro name
    rw [Table.lookup_update_filter settled current
      (fun status => (isSettled status).toOption = some true), hstatus name, H.lookup name,
      foundAfter]
    cases hreport :
        settledStatus (ensureImages r.answers size (unsettled names settledAt)).2 name with
    | none => cases settledAt name <;> simp
    | some status =>
        obtain ⟨hname, hsame⟩ := hreported name status hreport
        cases hsettled : settledAt name with
        | none => simp [hname]
        | some earlier => simp [hsame earlier hsettled]
  have H' : Holds names (settled.update (current.items.filter fun item =>
      (isSettled item.2).toOption = some true)) (foundAfter size names settledAt r) := by
    refine ⟨hlookup, fun name hname => ?_⟩
    rw [foundAfter] at hname
    cases hsettled : settledAt name with
    | some status => exact H.requested name (by rw [hsettled]; rfl)
    | none =>
        by_contra hforeign
        simp [hsettled, hforeign] at hname
  refine ⟨_, H', ?_⟩
  simp only [waitRound, hcurrent, settledItems_ok hitem, hr.notified, bind, Except.bind, pure,
    Except.pure]
  by_cases hall : ∀ name ∈ names, (foundAfter size names settledAt r name).isSome = true
  · rw [if_pos ((H'.length_keys hnodup).mpr hall), H'.finalStatuses hall, if_pos hall]
  · rw [if_neg fun h => hall ((H'.length_keys hnodup).mp h), if_neg hall]
    cases hremaining : r.remaining with
    | none => rfl
    | some remaining =>
        have hpos := hr.timely remaining hremaining
        simp only
        rw [if_neg (not_le.mpr hpos)]

/-- Further rounds change nothing when all names have settled. -/
theorem foldl_foundAfter_settled {found : String → Option Json} (rest : List ImageRound)
    (hall : ∀ name ∈ names, (found name).isSome = true) :
    (∀ name ∈ names, (rest.foldl (foundAfter size names) found name).isSome = true) ∧
      (names.map fun name => (name, (rest.foldl (foundAfter size names) found name).getD .null)) =
        names.map fun name => (name, (found name).getD .null) := by
  have hsame : ∀ name ∈ names, rest.foldl (foundAfter size names) found name = found name :=
    fun name hname => foldl_foundAfter_of_isSome rest (hall name hname)
  constructor
  · intro name hname
    rw [hsame name hname]
    exact hall name hname
  · refine List.map_congr_left fun name hname => ?_
    rw [hsame name hname]

/-- The rounds of the wait, from a state on. -/
theorem waitLoop_quiet {settled : Statuses} {settledAt : String → Option Json}
    {rounds : List ImageRound} (H : Holds names settled settledAt) (hnodup : names.Nodup)
    (hempty : "" ∉ names) (hleft : ∃ name ∈ names, settledAt name = none)
    (hquiet : ∀ r ∈ rounds, r.Quiet)
    (hproper : ∀ i r, rounds[i]? = some r →
      Proper size names ((rounds.take i).foldl (foundAfter size names) settledAt) r) :
    ((waitLoop size names settled rounds).1 =
      if ∀ name ∈ names, (rounds.foldl (foundAfter size names) settledAt name).isSome = true then
        .returned (names.map fun name =>
          (name, (rounds.foldl (foundAfter size names) settledAt name).getD .null))
      else .running) ∧
    (∀ i < rounds.length, i < (waitLoop size names settled rounds).2.length ↔
      ∃ name ∈ names, (rounds.take i).foldl (foundAfter size names) settledAt name = none) ∧
    (∀ (i : ℕ) requests, (waitLoop size names settled rounds).2[i]? = some requests →
      ∃ r, rounds[i]? = some r ∧ requests = (ensureImages r.answers size
        (unsettled names ((rounds.take i).foldl (foundAfter size names) settledAt))).1) := by
  induction rounds generalizing settled settledAt with
  | nil =>
      obtain ⟨name, hname, hnone⟩ := hleft
      refine ⟨?_, fun i hi => absurd hi (Nat.not_lt_zero i), fun i requests hi => ?_⟩
      · rw [if_neg]
        · rfl
        · intro hall
          have hsome := hall name hname
          simp [hnone] at hsome
      · cases hi
  | cons r rest ih =>
      obtain ⟨settled', H', hround⟩ := waitRound_quiet H hnodup hempty
        (hquiet r List.mem_cons_self) (hproper 0 r rfl) hleft
      simp only [waitLoop, H.pending, hround]
      by_cases hall : ∀ name ∈ names, (foundAfter size names settledAt r name).isSome = true
      · rw [if_pos hall, List.foldl_cons]
        refine ⟨?_, fun i hi => ?_, fun i requests hi => ?_⟩
        · obtain ⟨hfinal, hmap⟩ := @foldl_foundAfter_settled size names _ rest hall
          rw [if_pos hfinal, hmap]
        · cases i with
          | zero => simpa using hleft
          | succ i =>
              simp only [List.length_singleton, List.take_succ_cons, List.foldl_cons]
              constructor
              · intro hlt
                omega
              · rintro ⟨name, hname, hnone⟩
                have hlater := @foldl_foundAfter_settled size names _ (rest.take i) hall
                have hsome := hlater.1 name hname
                rw [hnone] at hsome
                cases hsome
        · cases i with
          | zero =>
              cases hi
              exact ⟨r, rfl, rfl⟩
          | succ i => cases hi
      · rw [if_neg hall]
        have hleft' : ∃ name ∈ names, foundAfter size names settledAt r name = none := by
          by_contra hnone
          refine hall fun name hname => ?_
          rw [Option.isSome_iff_ne_none]
          exact fun h => hnone ⟨name, hname, h⟩
        obtain ⟨hreturns, hpolls, hasks⟩ := ih H' hleft'
          (fun r' hr' => hquiet r' (List.mem_cons_of_mem _ hr'))
          fun i r' hr' => hproper (i + 1) r' hr'
        simp only [List.foldl_cons]
        refine ⟨hreturns, fun i hi => ?_, fun i requests hi => ?_⟩
        · cases i with
          | zero => simpa using hleft
          | succ i =>
              have hrest := hpolls i (by simpa using hi)
              simp only [List.length_cons, List.take_succ_cons, List.foldl_cons]
              rw [← hrest]
              omega
        · cases i with
          | zero =>
              cases hi
              exact ⟨r, rfl, rfl⟩
          | succ i => exact hasks i requests hi

/-- A round that nothing disturbs asks for every name that has not settled. -/
theorem ensureImages_covers {r : ImageRound} {asked : List String} (hr : r.Quiet)
    (hanswers : ∀ k e, r.answers k ≠ .error e) (hsize : 0 < size)
    (hasked : imageNames asked = .ok asked) :
    (ensureImages r.answers size asked).1.flatten = asked := by
  simp only [ensureImages, hasked]
  rcases ensureBatches_quiet hr 0 ∅ (batches size asked) with ⟨final, hfinal⟩ | ⟨e, j, -, hj⟩
  · rw [ensureBatches_complete hfinal, flatten_batches hsize]
  · exact absurd hj (hanswers j e)

end

end UcloudSandboxes.Client
