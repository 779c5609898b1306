import UcloudSandboxes.Python.JsonBytes

/-!
# Objects that JSON gives back unchanged

`Value.IsJson` are the values that `json.loads` yields: no tuples, and `dict`s with distinct texts
as keys. They are their own normal form, and the normal form of what was written is one of them.
It has the bytes of the object itself, unless two keys of a `dict` are written alike
(`Value.Unambiguous`).
-/
namespace UcloudSandboxes.Python.JsonText
open Lib

section
variable {κ ω : Type} [DecidableEq κ]

theorem setItem_of_not_mem {items : List (κ × ω)} {key : κ} (value : ω)
    (h : key ∉ items.map Prod.fst) : setItem items key value = items ++ [(key, value)] := by
  induction items with
  | nil => rfl
  | cons item rest ih =>
      rw [List.map_cons, List.mem_cons, not_or] at h
      rw [setItem, if_neg (Ne.symm h.1), ih h.2, List.cons_append]

/-- A key that is there keeps its place. -/
theorem keys_setItem {items : List (κ × ω)} {key : κ} (value : ω)
    (h : key ∈ items.map Prod.fst) :
    (setItem items key value).map Prod.fst = items.map Prod.fst := by
  induction items with
  | nil => cases h
  | cons item rest ih =>
      by_cases hkey : item.1 = key
      · rw [setItem, if_pos hkey, List.map_cons, List.map_cons, hkey]
      · rw [List.map_cons, List.mem_cons] at h
        have hrest := h.resolve_left (Ne.symm hkey)
        rw [setItem, if_neg hkey, List.map_cons, List.map_cons, ih hrest]

theorem nodup_setItem {items : List (κ × ω)} (key : κ) (value : ω)
    (h : (items.map Prod.fst).Nodup) : ((setItem items key value).map Prod.fst).Nodup := by
  by_cases hkey : key ∈ items.map Prod.fst
  · rw [keys_setItem value hkey]
    exact h
  · rw [setItem_of_not_mem value hkey, List.map_append, List.nodup_append]
    refine ⟨h, by simp, ?_⟩
    intro a ha b hb
    obtain rfl := List.mem_singleton.mp hb
    intro hab
    exact hkey (hab ▸ ha)

theorem mem_setItem {items : List (κ × ω)} {key : κ} {value : ω} {x : κ × ω}
    (h : x ∈ setItem items key value) : x ∈ items ∨ x = (key, value) := by
  induction items with
  | nil => exact .inr (List.mem_singleton.mp h)
  | cons item rest ih =>
      by_cases hkey : item.1 = key
      · rw [setItem, if_pos hkey] at h
        rcases List.mem_cons.mp h with hx | hx
        · exact .inr hx
        · exact .inl (List.mem_cons_of_mem _ hx)
      · rw [setItem, if_neg hkey] at h
        rcases List.mem_cons.mp h with hx | hx
        · exact .inl (hx ▸ List.mem_cons_self)
        · exact (ih hx).imp_left (List.mem_cons_of_mem _)

/-- The keys of a `dict` are distinct. -/
theorem nodup_dictOf (pairs : List (κ × ω)) : ((dictOf pairs).map Prod.fst).Nodup := by
  have hfold : ∀ (items : List (κ × ω)), (items.map Prod.fst).Nodup →
      ((pairs.foldl (fun items pair => setItem items pair.1 pair.2) items).map
        Prod.fst).Nodup := by
    induction pairs with
    | nil => exact fun items h => h
    | cons pair rest ih => exact fun items h => ih _ (nodup_setItem _ _ h)
  exact hfold [] List.nodup_nil

theorem mem_of_mem_dictOf {pairs : List (κ × ω)} {x : κ × ω} (h : x ∈ dictOf pairs) :
    x ∈ pairs := by
  have hfold : ∀ (items : List (κ × ω)),
      x ∈ pairs.foldl (fun items pair => setItem items pair.1 pair.2) items →
        x ∈ items ∨ x ∈ pairs := by
    clear h
    induction pairs with
    | nil => exact fun items h => .inl h
    | cons pair rest ih =>
        intro items h
        rcases ih _ h with hx | hx
        · refine (mem_setItem hx).imp_right fun hpair => ?_
          rw [hpair]
          exact List.mem_cons_self
        · exact .inr (List.mem_cons_of_mem _ hx)
  exact (hfold [] h).resolve_left (by simp)

/-- Pairs with distinct keys are the items of the `dict`. -/
theorem dictOf_of_nodup {pairs : List (κ × ω)} (h : (pairs.map Prod.fst).Nodup) :
    dictOf pairs = pairs := by
  have hfold : ∀ (items : List (κ × ω)), ((items ++ pairs).map Prod.fst).Nodup →
      pairs.foldl (fun items pair => setItem items pair.1 pair.2) items = items ++ pairs := by
    clear h
    induction pairs with
    | nil => exact fun items _ => (List.append_nil items).symm
    | cons pair rest ih =>
        intro items h
        have hkey : pair.1 ∉ items.map Prod.fst := by
          intro hmem
          rw [List.map_append, List.nodup_append] at h
          exact h.2.2 _ hmem _ (by simp) rfl
        rw [List.foldl_cons, setItem_of_not_mem _ hkey]
        have hshift : items ++ [(pair.1, pair.2)] ++ rest = items ++ pair :: rest := by simp
        rw [ih _ (by rw [hshift]; exact h), hshift]
  exact hfold [] h

end

section
variable {F : Type}

/-- A value that `json.loads` yields. -/
inductive Value.IsJson : Value F → Prop
  | null : IsJson .null
  | bool (b : Bool) : IsJson (.bool b)
  | int (n : ℤ) : IsJson (.int n)
  | float (f : Number F) : IsJson (.float f)
  | str (s : Text) : IsJson (.str s)
  | list {items : List (Value F)} (h : ∀ v ∈ items, IsJson v) : IsJson (.list items)
  | dict {entries : List (Text × Value F)} (hkeys : (entries.map Prod.fst).Nodup)
      (h : ∀ entry ∈ entries, IsJson entry.2) :
      IsJson (.dict (entries.map fun entry => (.str entry.1, entry.2)))

variable (floats : Floats F)

/-- No `dict` has two keys that are written alike. -/
inductive Value.Unambiguous : Value F → Prop
  | scalar {v : Value F} (h : v.isScalar = true) : Unambiguous v
  | list {items : List (Value F)} (h : ∀ v ∈ items, Unambiguous v) : Unambiguous (.list items)
  | tuple {items : List (Value F)} (h : ∀ v ∈ items, Unambiguous v) : Unambiguous (.tuple items)
  | dict {items : List (Key F × Value F)}
      (hkeys : (items.map fun item => keyName floats item.1).Nodup)
      (h : ∀ item ∈ items, Unambiguous item.2) : Unambiguous (.dict items)

end

section
variable {F : Type} {floats : Floats F}

theorem normal_scalar {v : Value F} (h : v.isScalar = true) : v.normal floats = v := by
  cases v with
  | list items => cases h
  | tuple items => cases h
  | dict items => cases h
  | _ => rfl

theorem dictValue_of_nodup {entries : List (Text × Value F)}
    (h : (entries.map Prod.fst).Nodup) :
    dictValue entries = .dict (entries.map fun entry => (.str entry.1, entry.2)) := by
  rw [dictValue, dictOf_of_nodup h]

/-- **A value that JSON has is read back as it is.** -/
theorem Value.IsJson.normal_eq {v : Value F} (h : v.IsJson) : v.normal floats = v := by
  induction h with
  | null => rfl
  | bool b => rfl
  | int n => rfl
  | float f => rfl
  | str s => rfl
  | list h ih => rw [Value.normal, normalItems_eq, List.map_congr_left ih, List.map_id']
  | dict hkeys h ih =>
      rw [Value.normal, normalEntries_eq, List.map_map]
      rename_i entries
      have hentries : entries.map ((fun item : Key F × Value F =>
          (keyName floats item.1, item.2.normal floats)) ∘ fun entry => (.str entry.1, entry.2)) =
            entries := by
        refine (List.map_congr_left fun entry hentry => ?_).trans (List.map_id' entries)
        exact Prod.ext rfl (ih entry hentry)
      rw [hentries, dictValue_of_nodup hkeys]

/-- What is written is read back as a value that JSON has. -/
theorem Value.Writable.isJson_normal {v : Value F} (h : v.Writable) : (v.normal floats).IsJson := by
  induction h with
  | null => exact .null
  | bool b => exact .bool b
  | int h => exact .int _
  | float f => exact .float f
  | str h => exact .str _
  | list h ih =>
      rw [Value.normal, normalItems_eq]
      exact .list (List.forall_mem_map.mpr ih)
  | tuple h ih =>
      rw [Value.normal, normalItems_eq]
      exact .list (List.forall_mem_map.mpr ih)
  | dict hkeys h ih =>
      rw [Value.normal, normalEntries_eq, dictValue]
      refine .dict (nodup_dictOf _) ?_
      intro entry hentry
      obtain ⟨item, hitem, rfl⟩ := List.mem_map.mp (mem_of_mem_dictOf hentry)
      exact ih item hitem

theorem plain_keyName {k : Key F} (h : k.Writable) : Plain (keyName floats k) := by
  have hsettled := settled_keyText floats k
  cases hkey : keyText floats k with
  | error e =>
      rw [hkey] at hsettled
      exact absurd h hsettled.1
  | ok s =>
      rw [hkey] at hsettled
      rw [keyName, hkey]
      exact plain_quote.mp (hsettled.2.mp h)

/-- What is read back can be written. -/
theorem Value.Writable.normal {v : Value F} (h : v.Writable) : (v.normal floats).Writable := by
  induction h with
  | null => exact .null
  | bool b => exact .bool b
  | int h => exact .int h
  | float f => exact .float f
  | str h => exact .str h
  | list h ih =>
      rw [Value.normal, normalItems_eq]
      exact .list (List.forall_mem_map.mpr ih)
  | tuple h ih =>
      rw [Value.normal, normalItems_eq]
      exact .list (List.forall_mem_map.mpr ih)
  | dict hkeys h ih =>
      rw [Value.normal, normalEntries_eq, dictValue]
      refine .dict ?_ ?_
      · refine List.forall_mem_map.mpr fun entry hentry => ?_
        obtain ⟨item, hitem, rfl⟩ := List.mem_map.mp (mem_of_mem_dictOf hentry)
        exact plain_keyName (hkeys item hitem)
      · refine List.forall_mem_map.mpr fun entry hentry => ?_
        obtain ⟨item, hitem, rfl⟩ := List.mem_map.mp (mem_of_mem_dictOf hentry)
        exact ih item hitem

/-- What is read back nests as deep as what was written. -/
theorem Within.normal {n : ℕ} {v : Value F} (h : Within n v) : Within n (v.normal floats) := by
  induction h with
  | scalar hv =>
      rw [normal_scalar hv]
      exact .scalar hv
  | list h ih =>
      rw [Value.normal, normalItems_eq]
      exact .list (List.forall_mem_map.mpr ih)
  | tuple h ih =>
      rw [Value.normal, normalItems_eq]
      exact .list (List.forall_mem_map.mpr ih)
  | dict h ih =>
      rw [Value.normal, normalEntries_eq, dictValue]
      refine .dict (List.forall_mem_map.mpr fun entry hentry => ?_)
      obtain ⟨item, hitem, rfl⟩ := List.mem_map.mp (mem_of_mem_dictOf hentry)
      exact ih item hitem

theorem writeItems_map {n : ℕ} {f : Value F → Value F} {items : List (Value F)}
    (h : ∀ v ∈ items, write floats n (f v) = write floats n v) :
    writeItems floats n (items.map f) = writeItems floats n items := by
  induction items with
  | nil => rfl
  | cons v rest ih =>
      rw [List.map_cons, writeItems, writeItems, h v List.mem_cons_self,
        ih fun w hw => h w (List.mem_cons_of_mem _ hw)]

theorem writeEntries_map {n : ℕ} {f : Key F × Value F → Key F × Value F}
    {items : List (Key F × Value F)}
    (hkeys : ∀ item ∈ items, keyText floats (f item).1 = keyText floats item.1)
    (h : ∀ item ∈ items, write floats n (f item).2 = write floats n item.2) :
    writeEntries floats n (items.map f) = writeEntries floats n items := by
  induction items with
  | nil => rfl
  | cons item rest ih =>
      have hrest := ih (fun other hother => hkeys other (List.mem_cons_of_mem _ hother))
        fun other hother => h other (List.mem_cons_of_mem _ hother)
      have hkey := hkeys item List.mem_cons_self
      have hvalue := h item List.mem_cons_self
      rw [List.map_cons]
      simp only [writeEntries, hkey, hvalue, hrest]

/-- Items whose texts stay have the text that they had. -/
theorem writeItems_normal {n : ℕ} {items : List (Value F)} {texts : List Text}
    (ih : ∀ v ∈ items, ∀ (n : ℕ) (t : Text), write floats n v = .ok t →
      write floats n (v.normal floats) = .ok t)
    (h : writeItems floats n items = .ok texts) :
    writeItems floats n (items.map (Value.normal floats)) = .ok texts := by
  have hitems := (writeItems_ok h).2
  rw [writeItems_map fun v hv => (ih v hv n _ (hitems v hv)).trans (hitems v hv).symm]
  exact h

/-- **What is read back has the same text**, unless two keys are written alike. -/
theorem write_normal {v : Value F} (h : v.Unambiguous floats) :
    ∀ (n : ℕ) (t : Text), write floats n v = .ok t → write floats n (v.normal floats) = .ok t := by
  induction h with
  | scalar hv =>
      intro n t ht
      rw [normal_scalar hv]
      exact ht
  | list h ih =>
      intro n t ht
      cases n with
      | zero => cases ht
      | succ n =>
          obtain ⟨texts, htexts, rfl⟩ := except_map_ok ht
          rw [Value.normal, normalItems_eq, write, writeItems_normal ih htexts]
          rfl
  | tuple h ih =>
      intro n t ht
      cases n with
      | zero => cases ht
      | succ n =>
          obtain ⟨texts, htexts, rfl⟩ := except_map_ok ht
          rw [Value.normal, normalItems_eq, write, writeItems_normal ih htexts]
          rfl
  | dict hkeys h ih =>
      intro n t ht
      cases n with
      | zero => cases ht
      | succ n =>
          obtain ⟨texts, htexts, rfl⟩ := except_map_ok ht
          have hitems := (writeEntries_ok htexts).2
          rw [Value.normal, normalEntries_eq, dictValue_of_nodup (by rwa [List.map_map]),
            List.map_map, write]
          have htexts' := writeEntries_map
            (f := fun item => (.str (keyName floats item.1), item.2.normal floats))
            (fun item hitem => (hitems item hitem).1.symm) fun item hitem =>
              (ih item hitem n _ (hitems item hitem).2).trans (hitems item hitem).2.symm
          rw [htexts] at htexts'
          exact congrArg (Except.map _) htexts'

end
end UcloudSandboxes.Python.JsonText
