import Mathlib.Data.List.Basic
import Mathlib.Data.List.Forall2
import Mathlib.Tactic.TypeStar

/-!
# Regular expressions without repetition

Expressions over an arbitrary alphabet with the two anchors, and the search for an occurrence. As in
engines that backtrack, an expression stands for the places where a match may end.

* `search_iff`: an occurrence is a place of the text and a place behind it.
* `mem_remainders_seq` and its like: the occurrences of an expression from those of its parts.
-/

namespace BaselineOps.Lib

variable {α : Type}

/-- An expression: `start` and `stop` are `^` and `$`. -/
inductive Regex (α : Type) where
  | lit (accepts : α → Bool)
  | start
  | stop
  | seq (first second : Regex α)
  | alt (left right : Regex α)

namespace Regex

/-- One letter of each class in turn, and then the expression. -/
def followedBy (classes : List (α → Bool)) (r : Regex α) : Regex α :=
  classes.foldr (fun accepts rest => seq (lit accepts) rest) r

variable [DecidableEq α] (newline : α)

/-- What may remain of a text behind a match at its beginning. `$` also matches before a final newline. -/
def remainders : Regex α → (atStart : Bool) → List α → List (List α)
  | lit accepts, _, text =>
    match text with
    | [] => []
    | x :: rest => if accepts x then [rest] else []
  | start, atStart, text => if atStart then [text] else []
  | stop, _, text => if text = [] ∨ text = [newline] then [text] else []
  | seq first second, atStart, text =>
    (first.remainders atStart text).flatMap fun rest =>
      second.remainders (atStart && rest.length = text.length) rest
  | alt left right, atStart, text => left.remainders atStart text ++ right.remainders atStart text

/-- The search from one place of a text on. -/
def searchFrom (r : Regex α) : (atStart : Bool) → List α → Bool
  | atStart, [] => r.remainders newline atStart [] ≠ []
  | atStart, x :: rest => r.remainders newline atStart (x :: rest) ≠ [] || r.searchFrom false rest

/-- Whether the expression occurs in a text. -/
def search (r : Regex α) (text : List α) : Bool := r.searchFrom newline true text

variable {newline} {r left right first second : Regex α} {text : List α}

theorem searchFrom_iff {atStart : Bool} : r.searchFrom newline atStart text = true ↔
    ∃ before after, text = before ++ after ∧
      ∃ rest, rest ∈ r.remainders newline (atStart && before.isEmpty) after := by
  have hhere : ∀ (atStart : Bool) (text : List α), r.remainders newline atStart text ≠ [] ↔
      ∃ rest, rest ∈ r.remainders newline atStart text := fun _ _ =>
    ⟨List.exists_mem_of_ne_nil _, fun ⟨_, h⟩ => List.ne_nil_of_mem h⟩
  induction text generalizing atStart with
  | nil =>
    rw [searchFrom, decide_eq_true_eq, hhere]
    constructor
    · intro h
      exact ⟨[], [], rfl, by simpa using h⟩
    · rintro ⟨before, after, hnil, h⟩
      obtain ⟨rfl, rfl⟩ := List.append_eq_nil_iff.mp hnil.symm
      simpa using h
  | cons x rest ih =>
    rw [searchFrom, Bool.or_eq_true, decide_eq_true_eq, hhere]
    constructor
    · rintro (h | hlater)
      · exact ⟨[], x :: rest, rfl, by simpa using h⟩
      · obtain ⟨before, after, rfl, h⟩ := ih.mp hlater
        exact ⟨x :: before, after, rfl, by simpa using h⟩
    · rintro ⟨before, after, htext, h⟩
      cases before with
      | nil =>
        left
        rw [List.nil_append] at htext
        rw [htext]
        simpa using h
      | cons y before =>
        right
        obtain ⟨rfl, rfl⟩ := List.cons.inj htext
        exact ih.mpr ⟨before, after, rfl, by simpa using h⟩

theorem search_iff : r.search newline text = true ↔ ∃ before after, text = before ++ after ∧
    ∃ rest, rest ∈ r.remainders newline before.isEmpty after := by
  rw [search, searchFrom_iff]
  simp only [Bool.true_and]

theorem mem_remainders_lit {accepts : α → Bool} {atStart : Bool} {rest : List α} :
    rest ∈ (lit accepts).remainders newline atStart text ↔ ∃ x, accepts x = true ∧ text = x :: rest := by
  cases text with
  | nil => simp [remainders]
  | cons x tail =>
    rw [remainders]
    split_ifs with hx
    · simp only [List.mem_singleton, List.cons.injEq]
      constructor
      · rintro rfl
        exact ⟨x, hx, rfl, rfl⟩
      · rintro ⟨_, -, -, rfl⟩
        rfl
    · simp only [List.not_mem_nil, List.cons.injEq, false_iff, not_exists, not_and]
      intro y hy hxy
      exact absurd (hxy ▸ hy) hx

theorem mem_remainders_start {atStart : Bool} {rest : List α} :
    rest ∈ (start : Regex α).remainders newline atStart text ↔ atStart = true ∧ rest = text := by
  cases atStart <;> simp [remainders]

theorem mem_remainders_stop {atStart : Bool} {rest : List α} :
    rest ∈ (stop : Regex α).remainders newline atStart text ↔
      (text = [] ∨ text = [newline]) ∧ rest = text := by
  rw [remainders]
  split_ifs with h <;> simp [h]

theorem mem_remainders_alt {atStart : Bool} {rest : List α} :
    rest ∈ (alt left right).remainders newline atStart text ↔
      rest ∈ left.remainders newline atStart text ∨ rest ∈ right.remainders newline atStart text :=
  List.mem_append

theorem mem_remainders_seq {atStart : Bool} {rest : List α} :
    rest ∈ (seq first second).remainders newline atStart text ↔
      ∃ middle ∈ first.remainders newline atStart text,
        rest ∈ second.remainders newline (atStart && middle.length = text.length) middle :=
  List.mem_flatMap

theorem mem_remainders_followedBy {classes : List (α → Bool)} {rest : List α} (h : classes ≠ []) :
    rest ∈ (followedBy classes r).remainders newline true text ↔
      ∃ word tail, text = word ++ tail ∧ List.Forall₂ (fun accepts x => accepts x = true) classes word ∧
        rest ∈ r.remainders newline false tail := by
  -- behind the first letter the text no longer starts here
  have hrest : ∀ {classes : List (α → Bool)} {text rest : List α},
      rest ∈ (followedBy classes r).remainders newline false text ↔
        ∃ word tail, text = word ++ tail ∧ List.Forall₂ (fun accepts x => accepts x = true) classes word ∧
          rest ∈ r.remainders newline false tail := by
    intro classes
    induction classes with
    | nil =>
      intro text rest
      constructor
      · intro hmem
        exact ⟨[], text, rfl, .nil, hmem⟩
      · rintro ⟨_, tail, rfl, hword, hmem⟩
        rw [List.forall₂_nil_left_iff] at hword
        subst hword
        exact hmem
    | cons accepts classes ih =>
      intro text rest
      have hcons : followedBy (accepts :: classes) r = seq (lit accepts) (followedBy classes r) := rfl
      simp only [hcons, mem_remainders_seq, mem_remainders_lit, Bool.false_and, ih]
      constructor
      · rintro ⟨_, ⟨x, hx, rfl⟩, word, tail, rfl, hword, hmem⟩
        exact ⟨x :: word, tail, rfl, .cons hx hword, hmem⟩
      · rintro ⟨_, tail, rfl, hword, hmem⟩
        cases hword with
        | cons hx hword => exact ⟨_, ⟨_, hx, rfl⟩, _, tail, rfl, hword, hmem⟩
  cases classes with
  | nil => exact absurd rfl h
  | cons accepts classes =>
    have hcons : followedBy (accepts :: classes) r = seq (lit accepts) (followedBy classes r) := rfl
    simp only [hcons, mem_remainders_seq, mem_remainders_lit]
    constructor
    · rintro ⟨tail, ⟨x, hx, rfl⟩, hmem⟩
      have hlength : (tail.length = (x :: tail).length) = False := by simp
      simp only [hlength, decide_false, Bool.and_false, hrest] at hmem
      obtain ⟨word, tail, rfl, hword, hmem⟩ := hmem
      exact ⟨x :: word, tail, rfl, .cons hx hword, hmem⟩
    · rintro ⟨_, tail, rfl, hword, hmem⟩
      obtain ⟨x, word, hx, hrestword, rfl⟩ := List.forall₂_cons_left_iff.mp hword
      refine ⟨word ++ tail, ⟨x, hx, rfl⟩, ?_⟩
      have hlength : ((word ++ tail).length = (x :: word ++ tail).length) = False := by simp
      simp only [hlength, decide_false, Bool.and_false, hrest]
      exact ⟨word, tail, rfl, hrestword, hmem⟩

end Regex

end BaselineOps.Lib
