import UcloudSandboxes.Python.Value

/-!
# Equality of values

`==` of two records that hold what `json.loads` yields. A `bool`, an `int` and a `float` are equal
when their numbers are, and two `dict`s when they have the same items in any order. The elements of
containers are equal when they are one object, which matters for a NaN only: all the NaNs of
`json.loads` are one object, and of other floats `sameNan` says whether they are.
-/
namespace UcloudSandboxes.Python

/-- `f == g`. -/
def PyFloat.eq (sameNan : Bool) (f g : PyFloat) : Bool :=
  decide (f = g) && (sameNan || decide (f ≠ .nan))

/-- The number that a `bool`, an `int` or a `float` is compared as. -/
def Json.number : Json → Option PyFloat
  | .bool b => some (.finite (if b then 1 else 0))
  | .int n => some (.finite n)
  | .float f => some f
  | _ => none

mutual

/-- `v == w`. -/
def Json.eq : Json → Json → Bool
  | .null, .null => true
  | .str s, .str t => s == t
  | .list xs, .list ys => Json.eqList xs ys
  | .dict xs, .dict ys => Json.eqItems [] xs ys && ys.all fun item => Dict.has xs item.1
  | v, w =>
      match v.number, w.number with
      | some f, some g => decide (f = g)
      | _, _ => false

/-- `==` of two lists. -/
def Json.eqList : List Json → List Json → Bool
  | [], [] => true
  | x :: xs, y :: ys => Json.eq x y && Json.eqList xs ys
  | _, _ => false

/-- The items of the one, but for the keys that were `seen`, are items of the other. -/
def Json.eqItems (seen : List String) : List (String × Json) → Dict → Bool
  | [], _ => true
  | (key, v) :: rest, d =>
      (seen.contains key ||
        match d.lookup key with
        | some w => Json.eq v w
        | none => false) && Json.eqItems (key :: seen) rest d

end

theorem PyFloat.eq_of_eq {sameNan : Bool} {f g : PyFloat} (h : f.eq sameNan g = true) : f = g := by
  simp only [PyFloat.eq, Bool.and_eq_true, decide_eq_true_eq] at h
  exact h.1

/-- Two values of different kinds are equal as numbers only. -/
theorem Json.eq_number {v w : Json} {f : PyFloat} (hv : v.number = some f) :
    v.eq w = true ↔ w.number = some f := by
  cases v with
  | bool b =>
      cases hv
      cases w <;> simp [Json.eq, Json.number, eq_comm]
  | int n =>
      cases hv
      cases w <;> simp [Json.eq, Json.number, eq_comm]
  | float g =>
      cases hv
      cases w <;> simp [Json.eq, Json.number, eq_comm]
  | _ => cases hv

theorem Json.eq_trans_number {u v w : Json} {f : PyFloat} (hu : u.number = some f)
    (huv : u.eq v = true) (hvw : v.eq w = true) : u.eq w = true := by
  have hv : v.number = some f := (Json.eq_number hu).mp huv
  exact (Json.eq_number hu).mpr ((Json.eq_number hv).mp hvw)

/-- A key of the one that was not seen has an equal value in the other. -/
theorem Json.eqItems_lookup {seen : List String} {xs : List (String × Json)}
    {d : Dict} {key : String} {v : Json} (h : Json.eqItems seen xs d = true)
    (hseen : key ∉ seen) (hv : xs.lookup key = some v) :
    ∃ w, d.lookup key = some w ∧ v.eq w = true := by
  induction xs generalizing seen with
  | nil => cases hv
  | cons item rest ih =>
      obtain ⟨k, u⟩ := item
      simp only [Json.eqItems, Bool.and_eq_true, Bool.or_eq_true, List.contains_iff_mem] at h
      by_cases hk : key = k
      · subst hk
        simp only [List.lookup_cons, beq_self_eq_true, Option.some.injEq] at hv
        subst hv
        have hu := h.1.resolve_left hseen
        cases hd : d.lookup key with
        | none => simp [hd] at hu
        | some w => exact ⟨w, rfl, by simpa [hd] using hu⟩
      · have hne : (key == k) = false := by simpa using hk
        exact ih h.2 (by simp [hk, hseen]) (by simpa [List.lookup_cons, hne] using hv)

mutual

/-- Equality is transitive when all NaNs are one object. -/
theorem Json.eq_trans : ∀ u v w : Json, u.eq v = true → v.eq w = true → u.eq w = true
  | .null, v, w, huv, hvw => by
      cases v with
      | null => exact hvw
      | _ => simp [Json.eq, Json.number] at huv
  | .str s, v, w, huv, hvw => by
      cases v with
      | str t =>
          simp only [Json.eq, beq_iff_eq] at huv
          exact huv ▸ hvw
      | _ => simp [Json.eq, Json.number] at huv
  | .bool b, v, w, huv, hvw => Json.eq_trans_number rfl huv hvw
  | .int n, v, w, huv, hvw => Json.eq_trans_number rfl huv hvw
  | .float f, v, w, huv, hvw => Json.eq_trans_number rfl huv hvw
  | .list xs, v, w, huv, hvw => by
      cases v with
      | list ys =>
          cases w with
          | list zs =>
              simp only [Json.eq] at huv hvw ⊢
              exact Json.eqList_trans xs ys zs huv hvw
          | _ => simp [Json.eq, Json.number] at hvw
      | _ => simp [Json.eq, Json.number] at huv
  | .dict xs, v, w, huv, hvw => by
      cases v with
      | dict ys =>
          cases w with
          | dict zs =>
              simp only [Json.eq, Bool.and_eq_true, List.all_eq_true] at huv hvw ⊢
              refine ⟨Json.eqItems_trans [] xs ys zs huv.1 hvw.1, fun item hitem => ?_⟩
              -- A key of the third is a key of the second, and so one of the first.
              have hkey : Dict.has ys item.1 = true := hvw.2 item hitem
              simp only [Dict.has, Option.isSome_iff_exists, List.lookup_eq_some_iff] at hkey
              obtain ⟨v, before, after, hys, -⟩ := hkey
              exact huv.2 (item.1, v) (by simp [hys])
          | _ => simp [Json.eq, Json.number] at hvw
      | _ => simp [Json.eq, Json.number] at huv

theorem Json.eqList_trans : ∀ xs ys zs : List Json,
    Json.eqList xs ys = true → Json.eqList ys zs = true → Json.eqList xs zs = true
  | [], ys, zs, hxy, hyz => by cases ys <;> simp_all [Json.eqList]
  | x :: xs, ys, zs, hxy, hyz => by
      cases ys with
      | nil => simp [Json.eqList] at hxy
      | cons y ys =>
          cases zs with
          | nil => simp [Json.eqList] at hyz
          | cons z zs =>
              simp only [Json.eqList, Bool.and_eq_true] at hxy hyz ⊢
              exact ⟨Json.eq_trans x y z hxy.1 hyz.1, Json.eqList_trans xs ys zs hxy.2 hyz.2⟩

theorem Json.eqItems_trans : ∀ (seen : List String) (xs : List (String × Json)) (ys zs : Dict),
    Json.eqItems seen xs ys = true → Json.eqItems [] ys zs = true →
      Json.eqItems seen xs zs = true
  | seen, [], ys, zs, _, _ => by simp [Json.eqItems]
  | seen, (key, u) :: rest, ys, zs, hxy, hyz => by
      simp only [Json.eqItems, Bool.and_eq_true, Bool.or_eq_true] at hxy ⊢
      refine ⟨hxy.1.imp_right fun hu => ?_, Json.eqItems_trans (key :: seen) rest ys zs hxy.2 hyz⟩
      cases hy : ys.lookup key with
      | none => simp [hy] at hu
      | some v =>
          obtain ⟨w, hz, hvw⟩ := Json.eqItems_lookup hyz (by simp) hy
          simp only [hz]
          exact Json.eq_trans u v w (by simpa [hy] using hu) hvw

end

mutual

theorem Json.eq_refl : ∀ v : Json, v.eq v = true
  | .null => rfl
  | .str s => by simp [Json.eq]
  | .bool b => by simp [Json.eq, Json.number]
  | .int n => by simp [Json.eq, Json.number]
  | .float f => by simp [Json.eq, Json.number]
  | .list xs => by
      simp only [Json.eq]
      exact Json.eqList_refl xs
  | .dict xs => by
      have hitems := Json.eqItems_refl [] xs xs fun _ _ => rfl
      simp only [Json.eq, Bool.and_eq_true, List.all_eq_true]
      refine ⟨hitems, fun item hitem => ?_⟩
      simp only [Dict.has, Option.isSome_iff_ne_none, ne_eq, List.lookup_eq_none_iff, not_forall]
      exact ⟨item, hitem, by simp⟩

theorem Json.eqList_refl : ∀ xs : List Json, Json.eqList xs xs = true
  | [] => by simp [Json.eqList]
  | x :: xs => by
      simp only [Json.eqList, Bool.and_eq_true]
      exact ⟨Json.eq_refl x, Json.eqList_refl xs⟩

theorem Json.eqItems_refl : ∀ (seen : List String) (xs : List (String × Json)) (d : Dict),
    (∀ key, key ∉ seen → d.lookup key = xs.lookup key) → Json.eqItems seen xs d = true
  | seen, [], d, _ => by simp [Json.eqItems]
  | seen, (key, v) :: rest, d, h => by
      simp only [Json.eqItems, Bool.and_eq_true, Bool.or_eq_true, List.contains_iff_mem]
      constructor
      · by_cases hseen : key ∈ seen
        · exact .inl hseen
        · have hv := h key hseen
          simp only [List.lookup_cons, beq_self_eq_true] at hv
          rw [hv]
          exact .inr (Json.eq_refl v)
      · refine Json.eqItems_refl (key :: seen) rest d fun k hk => ?_
        rw [List.mem_cons, not_or] at hk
        have hne : (k == key) = false := by simpa using hk.1
        simpa [List.lookup_cons, hne] using h k hk.2

end

end UcloudSandboxes.Python
