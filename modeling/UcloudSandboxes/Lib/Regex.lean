import Mathlib.Data.List.Basic

/-!
# Regular expressions with anchors

Anchors, classes of symbols, concatenation and bounded repetition, over any type of symbols. What an
expression means is a relation between the positions of a text: a match can begin at the one and end
at the other. A backtracking matcher lists the ends in the order in which it tries them.

`$` holds at the end of the text, and also in front of a newline that is the last symbol. So an
expression with `$` at its end accepts a newline more than the same expression does when the whole
text has to match.

## Main definitions

* `Regex.Spans`: where a match can begin and end.
* `Regex.ends`: the matcher.
* `Regex.isMatch`, `Regex.fullmatch`: a match at the start, and one of the whole text.

## Main results

* `mem_ends`: the matcher finds every end, and no other.
* `isMatch_dollar_iff`: what `$` accepts.
-/
namespace UcloudSandboxes.Lib

universe u

/-- An expression over the symbols of `α`. -/
inductive Regex (α : Type u)
  /-- `^` -/
  | caret
  /-- `$` -/
  | dollar
  /-- `\Z` -/
  | textEnd
  /-- A class of symbols. -/
  | oneOf (p : α → Bool)
  | cat (r s : Regex α)
  /-- `r{least,most}` -/
  | times (r : Regex α) (least most : ℕ)

namespace Regex
variable {α : Type u}

section
variable (newline : α) (w : List α)

/-- A match of the expression can begin at `i` and end at `j`. -/
inductive Spans : Regex α → ℕ → ℕ → Prop
  | caret : Spans .caret 0 0
  | dollar : Spans .dollar w.length w.length
  | dollarNewline {i : ℕ} : w.drop i = [newline] → Spans .dollar i i
  | textEnd : Spans .textEnd w.length w.length
  | oneOf {p : α → Bool} {i : ℕ} {c : α} : w[i]? = some c → p c = true →
      Spans (.oneOf p) i (i + 1)
  | cat {r s : Regex α} {i j k : ℕ} : Spans r i j → Spans s j k → Spans (.cat r s) i k
  | stop {r : Regex α} {most i : ℕ} : Spans (.times r 0 most) i i
  | again {r : Regex α} {least most i j k : ℕ} : Spans r i j →
      Spans (.times r (least - 1) most) j k → Spans (.times r least (most + 1)) i k

/-- Where `least` to `most` steps can end. One step more is tried first. -/
def repeats (step : ℕ → List ℕ) : ℕ → ℕ → ℕ → List ℕ
  | least, 0, i => if least = 0 then [i] else []
  | least, most + 1, i =>
      (step i).flatMap (repeats step (least - 1) most) ++ if least = 0 then [i] else []

/-- Where a match that begins at `i` can end. -/
def ends [DecidableEq α] : Regex α → ℕ → List ℕ
  | .caret, i => if i = 0 then [i] else []
  | .dollar, i => if i = w.length ∨ w.drop i = [newline] then [i] else []
  | .textEnd, i => if i = w.length then [i] else []
  | .oneOf p, i => if w[i]?.any p then [i + 1] else []
  | .cat r s, i => (ends r i).flatMap (ends s)
  | .times r least most, i => repeats (ends r) least most i

/-- `re.match`. -/
def isMatch [DecidableEq α] (r : Regex α) : Bool := !(r.ends newline w 0).isEmpty

/-- `re.fullmatch`. -/
def fullmatch [DecidableEq α] (r : Regex α) : Bool := (r.ends newline w 0).contains w.length

end

variable {newline : α} {w : List α} {r s : Regex α} {p q : α → Bool} {i j least most : ℕ}

/-! ## What a match is made of -/

@[simp] theorem spans_caret : Spans newline w .caret i j ↔ i = 0 ∧ j = 0 := by
  constructor
  · intro h
    cases h
    exact ⟨rfl, rfl⟩
  · intro ⟨hi, hj⟩
    subst hi hj
    exact .caret

@[simp] theorem spans_dollar :
    Spans newline w .dollar i j ↔ j = i ∧ (i = w.length ∨ w.drop i = [newline]) := by
  constructor
  · intro h
    cases h with
    | dollar => exact ⟨rfl, .inl rfl⟩
    | dollarNewline hlast => exact ⟨rfl, .inr hlast⟩
  · intro ⟨hj, hend⟩
    subst hj
    cases hend with
    | inl hend => exact hend ▸ .dollar
    | inr hlast => exact .dollarNewline hlast

@[simp] theorem spans_textEnd : Spans newline w .textEnd i j ↔ j = i ∧ i = w.length := by
  constructor
  · intro h
    cases h
    exact ⟨rfl, rfl⟩
  · intro ⟨hj, hi⟩
    subst hj
    exact hi ▸ .textEnd

@[simp] theorem spans_oneOf :
    Spans newline w (.oneOf p) i j ↔ j = i + 1 ∧ ∃ c, w[i]? = some c ∧ p c = true := by
  constructor
  · intro h
    cases h with
    | oneOf hc hp => exact ⟨rfl, _, hc, hp⟩
  · intro ⟨hj, c, hc, hp⟩
    subst hj
    exact .oneOf hc hp

@[simp] theorem spans_cat :
    Spans newline w (.cat r s) i j ↔ ∃ k, Spans newline w r i k ∧ Spans newline w s k j := by
  constructor
  · intro h
    cases h with
    | cat hr hs => exact ⟨_, hr, hs⟩
  · intro ⟨k, hr, hs⟩
    exact .cat hr hs

theorem spans_times_zero : Spans newline w (.times r least 0) i j ↔ least = 0 ∧ j = i := by
  constructor
  · intro h
    cases h
    exact ⟨rfl, rfl⟩
  · intro ⟨hleast, hj⟩
    subst hleast hj
    exact .stop

theorem spans_times_succ :
    Spans newline w (.times r least (most + 1)) i j ↔
      (∃ k, Spans newline w r i k ∧ Spans newline w (.times r (least - 1) most) k j) ∨
        least = 0 ∧ j = i := by
  constructor
  · intro h
    cases h with
    | stop => exact .inr ⟨rfl, rfl⟩
    | again hr hrest => exact .inl ⟨_, hr, hrest⟩
  · intro h
    cases h with
    | inl h =>
        obtain ⟨k, hr, hrest⟩ := h
        exact .again hr hrest
    | inr h =>
        obtain ⟨hleast, hj⟩ := h
        subst hleast hj
        exact .stop

/-! ## The matcher -/

section Matcher
variable [DecidableEq α]

theorem mem_repeats (hr : ∀ i j, j ∈ r.ends newline w i ↔ Spans newline w r i j) :
    ∀ (most least i j : ℕ), j ∈ repeats (r.ends newline w) least most i ↔
      Spans newline w (.times r least most) i j := by
  intro most
  induction most with
  | zero =>
      intro least i j
      rw [spans_times_zero, repeats]
      by_cases hleast : least = 0 <;> simp [hleast]
  | succ most ih =>
      intro least i j
      rw [spans_times_succ, repeats, List.mem_append, List.mem_flatMap]
      apply or_congr
      · simp only [hr, ih]
      · by_cases hleast : least = 0 <;> simp [hleast]

/-- **The matcher finds the ends of all matches**, and no others. -/
theorem mem_ends : j ∈ r.ends newline w i ↔ Spans newline w r i j := by
  induction r generalizing i j with
  | caret =>
      rw [spans_caret, ends]
      by_cases hi : i = 0 <;> simp [hi]
  | dollar =>
      rw [spans_dollar, ends]
      by_cases hend : i = w.length ∨ w.drop i = [newline] <;> simp [hend]
  | textEnd =>
      rw [spans_textEnd, ends]
      by_cases hi : i = w.length <;> simp [hi]
  | oneOf p =>
      rw [spans_oneOf, ends]
      cases w[i]? with
      | none => simp
      | some c => by_cases hp : p c = true <;> simp [hp]
  | cat r s ihr ihs =>
      rw [spans_cat, ends, List.mem_flatMap]
      simp only [ihr, ihs]
  | times r least most ih =>
      exact mem_repeats (fun i j => ih) most least i j

theorem isMatch_iff : r.isMatch newline w = true ↔ ∃ j, Spans newline w r 0 j := by
  simp only [isMatch, Bool.not_eq_true', List.isEmpty_eq_false_iff_exists_mem, mem_ends]

theorem fullmatch_iff : r.fullmatch newline w = true ↔ Spans newline w r 0 w.length := by
  rw [fullmatch, List.contains_iff_mem, mem_ends]

/-- A match begins at the start by itself. -/
theorem isMatch_caret : (cat .caret r).isMatch newline w = r.isMatch newline w := by
  rw [Bool.eq_iff_iff, isMatch_iff, isMatch_iff]
  simp

theorem fullmatch_caret : (cat .caret r).fullmatch newline w = r.fullmatch newline w := by
  rw [Bool.eq_iff_iff, fullmatch_iff, fullmatch_iff]
  simp

/-- A match of the whole text stands in front of its end by itself. -/
theorem fullmatch_dollar : (cat r .dollar).fullmatch newline w = r.fullmatch newline w := by
  rw [Bool.eq_iff_iff, fullmatch_iff, fullmatch_iff]
  simp

theorem fullmatch_textEnd : (cat r .textEnd).fullmatch newline w = r.fullmatch newline w := by
  rw [Bool.eq_iff_iff, fullmatch_iff, fullmatch_iff]
  simp

end Matcher

/-! ## Expressions without anchors -/

/-- The expression has no anchor. -/
def Plain : Regex α → Prop
  | .caret | .dollar | .textEnd => False
  | .oneOf _ => True
  | .cat r s => Plain r ∧ Plain s
  | .times r _ _ => Plain r

theorem Spans.le (h : Spans newline w r i j) : i ≤ j := by
  induction h with
  | caret | dollar | dollarNewline | textEnd | stop => exact Nat.le_refl _
  | oneOf => exact Nat.le_succ _
  | cat _ _ ihr ihs => exact Nat.le_trans ihr ihs
  | again _ _ ihr ihrest => exact Nat.le_trans ihr ihrest

/-- A match stays one when the text goes on. -/
theorem Spans.append (h : Spans newline w r i j) (hr : r.Plain) (v : List α) :
    Spans newline (w ++ v) r i j := by
  induction h with
  | caret | dollar | dollarNewline | textEnd => exact hr.elim
  | oneOf hc hp =>
      obtain ⟨hi, -⟩ := List.getElem?_eq_some_iff.mp hc
      exact .oneOf ((List.getElem?_append_left hi).trans hc) hp
  | cat _ _ ihr ihs => exact .cat (ihr hr.1) (ihs hr.2)
  | stop => exact .stop
  | again _ _ ihr ihrest => exact .again (ihr hr) (ihrest hr)

/-- A match does not look behind its end. -/
theorem Spans.of_append {v : List α} (h : Spans newline (w ++ v) r i j) (hr : r.Plain)
    (hj : j ≤ w.length) : Spans newline w r i j := by
  induction h with
  | caret | dollar | dollarNewline | textEnd => exact hr.elim
  | oneOf hc hp => exact .oneOf ((List.getElem?_append_left (by omega)).symm.trans hc) hp
  | cat hfirst hrest ihr ihs =>
      have hle := hrest.le
      exact .cat (ihr hr.1 (by omega)) (ihs hr.2 hj)
  | stop => exact .stop
  | again hfirst hrest ihr ihrest =>
      have hle := hrest.le
      exact .again (ihr hr (by omega)) (ihrest hr hj)

/-- **What `$` accepts**: the texts that match as a whole, and each of them with a newline. -/
theorem isMatch_dollar_iff [DecidableEq α] (hr : r.Plain) :
    (cat r .dollar).isMatch newline w = true ↔
      r.fullmatch newline w = true ∨
        ∃ body, r.fullmatch newline body = true ∧ w = body ++ [newline] := by
  simp only [isMatch_iff, fullmatch_iff, spans_cat, spans_dollar]
  constructor
  · intro ⟨j, k, hspans, hk, hend⟩
    cases hend with
    | inl hend => exact .inl (hend ▸ hspans)
    | inr hlast =>
        have hsplit : w = w.take k ++ [newline] := by
          rw [← hlast, List.take_append_drop]
        have hlength : (w.take k).length = k := by
          have := congrArg List.length hlast
          simp only [List.length_drop, List.length_singleton] at this
          rw [List.length_take]
          omega
        rw [hsplit] at hspans
        refine .inr ⟨w.take k, ?_, hsplit⟩
        rw [hlength]
        exact hspans.of_append hr (by omega)
  · intro h
    cases h with
    | inl h => exact ⟨w.length, w.length, h, rfl, .inl rfl⟩
    | inr h =>
        obtain ⟨body, hbody, hw⟩ := h
        refine ⟨body.length, body.length, hw ▸ hbody.append hr _, rfl, .inr ?_⟩
        rw [hw, List.drop_left]

/-! ## A first symbol and further ones -/

/-- One symbol of a class, and up to `most` of another: `[p][q]{0,most}`. -/
def headThen (p q : α → Bool) (most : ℕ) : Regex α := .cat (.oneOf p) (.times (.oneOf q) 0 most)

/-- The texts of `headThen`. -/
def headTail (p q : α → Bool) (most : ℕ) : List α → Bool
  | [] => false
  | c :: rest => p c && decide (rest.length ≤ most) && rest.all q

theorem plain_headThen : (headThen p q most).Plain := ⟨trivial, trivial⟩

/-- A run of a class. -/
theorem spans_times_oneOf :
    Spans newline w (.times (.oneOf p) least most) i j ↔
      i + least ≤ j ∧ j ≤ i + most ∧ ∀ k, i ≤ k → k < j → ∃ c, w[k]? = some c ∧ p c = true := by
  induction most generalizing least i with
  | zero =>
      rw [spans_times_zero]
      constructor
      · intro ⟨hleast, hj⟩
        exact ⟨by omega, by omega, fun k hi hk => by omega⟩
      · intro ⟨hleast, hj, _⟩
        omega
  | succ most ih =>
      simp only [spans_times_succ, spans_oneOf, ih]
      constructor
      · intro h
        cases h with
        | inl h =>
            obtain ⟨k, ⟨hk, hc⟩, hlow, hhigh, hrun⟩ := h
            refine ⟨by omega, by omega, fun m hi hm => ?_⟩
            by_cases hfirst : m = i
            · exact hfirst ▸ hc
            · exact hrun m (by omega) hm
        | inr h => exact ⟨by omega, by omega, fun k hi hk => by omega⟩
      · intro ⟨hlow, hhigh, hrun⟩
        by_cases hj : j = i
        · exact .inr ⟨by omega, hj⟩
        · exact .inl ⟨i + 1, ⟨rfl, hrun i (by omega) (by omega)⟩, by omega, by omega,
            fun k hi hk => hrun k (by omega) hk⟩

/-- The whole text matches when it is a first symbol and not too many further ones. -/
theorem fullmatch_headThen [DecidableEq α] :
    (headThen p q most).fullmatch newline w = headTail p q most w := by
  rw [Bool.eq_iff_iff, fullmatch_iff, headThen, spans_cat]
  simp only [spans_oneOf, spans_times_oneOf]
  cases w with
  | nil => simp [headTail]
  | cons c rest =>
      simp only [headTail, Bool.and_eq_true, decide_eq_true_eq, List.all_eq_true]
      constructor
      · intro ⟨k, ⟨hk, d, hd, hp⟩, _, hmost, hrun⟩
        obtain rfl : c = d := by simpa using hd
        rw [List.length_cons] at hmost
        refine ⟨⟨hp, by omega⟩, fun e he => ?_⟩
        obtain ⟨m, hm, hget⟩ := List.mem_iff_getElem.mp he
        obtain ⟨e', he', hq⟩ := hrun (m + 1) (by omega) (by rw [List.length_cons]; omega)
        rw [List.getElem?_cons_succ, List.getElem?_eq_getElem hm, hget, Option.some_inj] at he'
        exact he' ▸ hq
      · intro ⟨⟨hp, hmost⟩, hall⟩
        refine ⟨1, ⟨rfl, c, rfl, hp⟩, by simp, by rw [List.length_cons]; omega, fun k hk hlt => ?_⟩
        rw [List.length_cons] at hlt
        have hbelow : k - 1 < rest.length := by omega
        have hget : (c :: rest)[k]? = some rest[k - 1] := by
          rw [List.getElem?_cons, if_neg (by omega), List.getElem?_eq_getElem hbelow]
        exact ⟨_, hget, hall _ (List.getElem_mem _)⟩

end Regex
end UcloudSandboxes.Lib
