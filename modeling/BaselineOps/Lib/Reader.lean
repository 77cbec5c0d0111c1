import Mathlib.Data.List.Basic
import BaselineOps.Lib.PrefixCode

/-!
# Readers

A reader takes a value off the front of its input. `ReadsWord` says that it does so for one code word,
whatever comes behind a delimiter; `readSeparated` reads a separated and closed list of words.

* `readSeparated_words`: a reader that reads every word of a list reads the whole list.
* `readSeparated_refused`: a list fails with the first word that is refused.
-/

namespace BaselineOps.Lib

variable {α β : Type}

/-- The value at the front of the input, and the rest. -/
abbrev Reader (β α : Type) := List β → Option (α × List β)

/-- `read` takes the word off in front of a delimiter or the end. -/
def ReadsWord (S : β → Prop) (read : Reader β α) (word : List β) (a : α) : Prop :=
  ∀ x, Ends S x → read (word ++ x) = some (a, x)

/-- Words that are not empty are at most as many as their text is long. -/
theorem length_le_length_intercalate (sep : β) {words : List (List β)} (hwords : ∀ w ∈ words, w ≠ []) :
    words.length ≤ (List.intercalate [sep] words).length := by
  induction words with
  | nil => exact Nat.zero_le _
  | cons w words ih =>
    have hw : 0 < w.length := List.length_pos_iff.mpr (hwords w List.mem_cons_self)
    have hrest := ih fun w' hw' => hwords w' (List.mem_cons_of_mem w hw')
    cases words with
    | nil =>
      rw [List.intercalate_singleton, List.length_singleton]
      omega
    | cons w' words =>
      rw [List.intercalate_cons_cons, List.length_append, List.length_append, List.length_cons]
      omega

/-- The text of a list starts like its first word. -/
theorem intercalate_head (sep : β) {word : α → List β} {a : α} (as : List α) {c : β} {t : List β}
    (hc : word a = c :: t) (x : List β) :
    ∃ rest, List.intercalate [sep] ((a :: as).map word) ++ x = c :: rest := by
  cases as with
  | nil =>
    rw [List.map_cons, List.map_nil, List.intercalate_singleton, hc]
    exact ⟨_, rfl⟩
  | cons b as =>
    rw [List.map_cons, List.map_cons, List.intercalate_cons_cons, hc]
    exact ⟨_, rfl⟩

/-- `read` fails at the word in front of a delimiter or the end. -/
def RefusesWord (S : β → Prop) (read : Reader β α) (word : List β) : Prop :=
  ∀ x, Ends S x → read (word ++ x) = none

section Separated

variable [DecidableEq β]

/-- The elements of a list, separated by `sep` and closed by `close`; `skip` drops what may stand
    between the tokens. There are at most as many elements as there is fuel. -/
def readElements (skip : List β → List β) (read : Reader β α) (sep close : β) :
    ℕ → Reader β (List α)
  | 0, _ => none
  | fuel + 1, input => do
    let (a, rest) ← read input
    match skip rest with
    | [] => none
    | c :: rest =>
      if c = close then return ([a], rest)
      else if c = sep then do
        let (as, rest) ← readElements skip read sep close fuel rest
        return (a :: as, rest)
      else none

/-- A list that may be empty. -/
def readSeparated (skip : List β → List β) (read : Reader β α) (sep close : β) (input : List β) :
    Option (List α × List β) :=
  match skip input with
  | [] => none
  | c :: rest =>
    if c = close then some ([], rest) else readElements skip read sep close input.length input

variable {S : β → Prop} {skip : List β → List β} {read : Reader β α} {sep close : β}

/-- One word after the other: the induction is on the list, and the separator or the closing element
    is the delimiter behind each word. -/
theorem readElements_words {word : α → List β} (hsep : S sep) (hclose : S close)
    (hskip : ∀ c x, S c → skip (c :: x) = c :: x) (hne : sep ≠ close) {a : α} {as : List α}
    (hread : ∀ b ∈ a :: as, ReadsWord S read (word b) b) {fuel : ℕ} (hfuel : as.length < fuel)
    (x : List β) :
    readElements skip read sep close fuel
      (List.intercalate [sep] ((a :: as).map word) ++ close :: x) = some (a :: as, x) := by
  induction as generalizing a fuel with
  | nil =>
    obtain ⟨fuel, rfl⟩ := Nat.exists_eq_succ_of_ne_zero (Nat.ne_of_gt hfuel)
    have ha := hread a List.mem_cons_self (close :: x) (ends_cons hclose x)
    rw [List.map_cons, List.map_nil, List.intercalate_singleton, readElements, ha]
    simp [hskip close x hclose]
  | cons b as ih =>
    obtain ⟨fuel, rfl⟩ := Nat.exists_eq_succ_of_ne_zero (Nat.ne_of_gt (Nat.zero_lt_of_lt hfuel))
    have hrest := ih (fun c hc => hread c (List.mem_cons_of_mem a hc)) (Nat.lt_of_succ_lt_succ hfuel)
    rw [List.map_cons] at hrest
    rw [List.map_cons, List.map_cons, List.intercalate_cons_cons, List.append_assoc,
      List.append_assoc, readElements, List.singleton_append,
      hread a List.mem_cons_self _ (ends_cons hsep _)]
    simp [hskip sep _ hsep, hne, hrest]

/-- A reader that reads every word reads their list. -/
theorem readSeparated_words (word : α → List β) (hsep : S sep) (hclose : S close)
    (hskip : ∀ c x, S c → skip (c :: x) = c :: x) (hne : sep ≠ close) {as : List α}
    (hword : ∀ a ∈ as, ∃ c t, word a = c :: t ∧ c ≠ close ∧ ∀ x, skip (c :: x) = c :: x)
    (hread : ∀ a ∈ as, ReadsWord S read (word a) a) (x : List β) :
    readSeparated skip read sep close (List.intercalate [sep] (as.map word) ++ close :: x) =
      some (as, x) := by
  cases as with
  | nil =>
    show readSeparated skip read sep close (close :: x) = some ([], x)
    rw [readSeparated, hskip close x hclose]
    exact if_pos rfl
  | cons a as =>
    obtain ⟨c, t, hc, hne', hskip'⟩ := hword a List.mem_cons_self
    have hnil : ∀ w ∈ (a :: as).map word, w ≠ [] := by
      intro w hw
      obtain ⟨b, hb, rfl⟩ := List.mem_map.mp hw
      obtain ⟨c, t, hc, -⟩ := hword b hb
      rw [hc]
      exact List.cons_ne_nil c t
    have hfuel : as.length < (List.intercalate [sep] ((a :: as).map word) ++ close :: x).length := by
      have hlength := length_le_length_intercalate sep hnil
      rw [List.length_map, List.length_cons] at hlength
      rw [List.length_append]
      omega
    obtain ⟨rest, hrest⟩ := intercalate_head sep as hc (close :: x)
    rw [readSeparated, ← readElements_words hsep hclose hskip hne hread hfuel x]
    rw [hrest, hskip' rest]
    exact if_neg hne'

/-- A list fails with the first element that is refused. -/
theorem readElements_refused {word : α → List β} (hsep : S sep) (hclose : S close)
    (hskip : ∀ c x, S c → skip (c :: x) = c :: x) (hne : sep ≠ close) {a : α} {as : List α}
    (hread : ∀ b ∈ a :: as, ReadsWord S read (word b) b ∨ RefusesWord S read (word b))
    (hrefused : ∃ b ∈ a :: as, RefusesWord S read (word b)) (fuel : ℕ) (x : List β) :
    readElements skip read sep close fuel
      (List.intercalate [sep] ((a :: as).map word) ++ close :: x) = none := by
  induction as generalizing a fuel with
  | nil =>
    obtain ⟨b, hb, hrefused⟩ := hrefused
    rw [List.mem_singleton] at hb
    subst hb
    cases fuel with
    | zero => rfl
    | succ fuel =>
      rw [List.map_cons, List.map_nil, List.intercalate_singleton, readElements,
        hrefused _ (ends_cons hclose x)]
      rfl
  | cons c as ih =>
    cases fuel with
    | zero => rfl
    | succ fuel =>
      rw [List.map_cons, List.map_cons, List.intercalate_cons_cons, List.append_assoc,
        List.append_assoc, readElements, List.singleton_append]
      rcases hread a List.mem_cons_self with ha | ha
      · by_cases hlater : ∃ b ∈ c :: as, RefusesWord S read (word b)
        · have hrest := ih (fun b hb => hread b (List.mem_cons_of_mem a hb)) hlater fuel
          rw [List.map_cons] at hrest
          rw [ha _ (ends_cons hsep _)]
          simp [hskip sep _ hsep, hne, hrest]
        · obtain ⟨b, hb, hb'⟩ := hrefused
          rcases List.mem_cons.mp hb with rfl | hb
          · rw [hb' _ (ends_cons hsep _)]
            rfl
          · exact absurd ⟨b, hb, hb'⟩ hlater
      · rw [ha _ (ends_cons hsep _)]
        rfl

theorem readSeparated_refused (word : α → List β) (hsep : S sep) (hclose : S close)
    (hskip : ∀ c x, S c → skip (c :: x) = c :: x) (hne : sep ≠ close) {as : List α}
    (hword : ∀ a ∈ as, ∃ c t, word a = c :: t ∧ c ≠ close ∧ ∀ x, skip (c :: x) = c :: x)
    (hread : ∀ a ∈ as, ReadsWord S read (word a) a ∨ RefusesWord S read (word a))
    (hrefused : ∃ a ∈ as, RefusesWord S read (word a)) (x : List β) :
    readSeparated skip read sep close (List.intercalate [sep] (as.map word) ++ close :: x) = none := by
  cases as with
  | nil =>
    obtain ⟨a, ha, -⟩ := hrefused
    cases ha
  | cons a as =>
    obtain ⟨c, t, hc, hne', hskip'⟩ := hword a List.mem_cons_self
    obtain ⟨rest, hrest⟩ := intercalate_head sep as hc (close :: x)
    rw [readSeparated, ← readElements_refused hsep hclose hskip hne hread hrefused _ x]
    rw [hrest, hskip' rest]
    exact if_neg hne'

end Separated

end BaselineOps.Lib
