import Mathlib.Data.List.Basic
import Mathlib.Logic.Function.Basic

/-!
# Codes that can be split off the front of a list

A code `enc : α → List β` is a *prefix code* when the value and the rest can be read off
`enc a ++ x`. Texts of numbers are not: `12` is a prefix of `123`. They are delimited instead,
that is, they can be split off when what follows is empty or starts with a delimiter.

* `PrefixCode`, `DelimAt`: the two notions, the second one at a single value so that it can be an
  induction hypothesis over a tree.
* `delimAt_of_free`: an injective code that uses no delimiter is delimited.
* `flatMap_terminated_inj`: a concatenation of code words up to a terminator.
* `intercalate_closed_inj`: separated code words up to a closing element.
-/

namespace BaselineOps.Lib

variable {α β γ : Type*}

/-- `x` is empty or starts with an element of `S`. -/
def Ends (S : β → Prop) (x : List β) : Prop := ∀ c ∈ x.head?, S c

theorem ends_nil (S : β → Prop) : Ends S [] := by simp [Ends]

theorem ends_cons {S : β → Prop} {c : β} (h : S c) (x : List β) : Ends S (c :: x) := by
  simpa [Ends] using h

/-- Value and rest can be read off `enc a ++ x`. -/
def PrefixCode (enc : α → List β) : Prop :=
  ∀ a b x y, enc a ++ x = enc b ++ y → a = b ∧ x = y

/-- The code word of `a` can be split off in front of a delimiter or the end. -/
def DelimAt (S : β → Prop) (enc : α → List β) (a : α) : Prop :=
  ∀ b x y, Ends S x → Ends S y → enc a ++ x = enc b ++ y → a = b ∧ x = y

/-- An injective code whose words contain no delimiter is delimited. -/
theorem delimAt_of_free {S : β → Prop} {enc : α → List β} (hinj : Function.Injective enc)
    (hfree : ∀ a, ∀ c ∈ enc a, ¬ S c) (a : α) : DelimAt S enc a := by
  intro b x y hx hy h
  have key : enc a = enc b := by
    rcases List.append_eq_append_iff.mp h with ⟨t, hb, hxt⟩ | ⟨t, ha, hyt⟩
    · cases t with
      | nil => simpa using hb.symm
      | cons c t =>
        exact absurd (hx c (by simp [hxt])) (hfree b c (by simp [hb]))
    · cases t with
      | nil => simpa using ha
      | cons c t =>
        exact absurd (hy c (by simp [hyt])) (hfree a c (by simp [ha]))
  obtain rfl := hinj key
  exact ⟨rfl, List.append_cancel_left h⟩

/-- A key in a prefix code, a separator and a delimited value. -/
theorem DelimAt.pair {S : β → Prop} {encK : α → List β} {encV : γ → List β} {v : γ}
    (hk : PrefixCode encK) (hv : DelimAt S encV v) (mid : β) (k : α) :
    DelimAt S (fun p : α × γ => encK p.1 ++ mid :: encV p.2) (k, v) := by
  rintro ⟨k', v'⟩ x y hx hy h
  simp only [List.append_assoc, List.cons_append] at h
  obtain ⟨rfl, hrest⟩ := hk _ _ _ _ h
  obtain ⟨rfl, rfl⟩ := hv v' x y hx hy (List.tail_eq_of_cons_eq hrest)
  exact ⟨rfl, rfl⟩

/-- Code words concatenated up to a terminator that starts none of them. -/
theorem flatMap_terminated_inj {enc : α → List β} {q : β} (henc : PrefixCode enc)
    (hhead : ∀ a, ∃ c t, enc a = c :: t ∧ c ≠ q) :
    ∀ (l₁ l₂ : List α) (x y : List β),
      l₁.flatMap enc ++ q :: x = l₂.flatMap enc ++ q :: y → l₁ = l₂ ∧ x = y := by
  intro l₁
  induction l₁ with
  | nil =>
    intro l₂ x y h
    cases l₂ with
    | nil => simpa using h
    | cons b l₂ =>
      obtain ⟨c, t, hb, hc⟩ := hhead b
      simp only [List.flatMap_nil, List.flatMap_cons, hb, List.cons_append, List.nil_append,
        List.cons.injEq] at h
      exact absurd h.1.symm hc
  | cons a l₁ ih =>
    intro l₂ x y h
    cases l₂ with
    | nil =>
      obtain ⟨c, t, ha, hc⟩ := hhead a
      simp only [List.flatMap_nil, List.flatMap_cons, ha, List.cons_append, List.nil_append,
        List.cons.injEq] at h
      exact absurd h.1 hc
    | cons b l₂ =>
      simp only [List.flatMap_cons, List.append_assoc] at h
      obtain ⟨rfl, hrest⟩ := henc _ _ _ _ h
      obtain ⟨rfl, rfl⟩ := ih l₂ x y hrest
      exact ⟨rfl, rfl⟩

/-- Delimited code words, separated by `sep` and closed by `close`. The induction is on the first
    list; at each position the two lists either both close or both go on, because the element
    after the common word is `close` on one side and `sep` on the other otherwise. -/
theorem intercalate_closed_inj {S : β → Prop} {enc : α → List β} {sep close : β} (hsep : S sep)
    (hclose : S close) (hne : sep ≠ close) (hhead : ∀ a, ∃ c t, enc a = c :: t ∧ c ≠ close) :
    ∀ (l₁ : List α), (∀ a ∈ l₁, DelimAt S enc a) → ∀ (l₂ : List α) (x y : List β),
      List.intercalate [sep] (l₁.map enc) ++ close :: x =
        List.intercalate [sep] (l₂.map enc) ++ close :: y → l₁ = l₂ ∧ x = y := by
  intro l₁
  induction l₁ with
  | nil =>
    intro _ l₂ x y h
    cases l₂ with
    | nil => simpa [List.intercalate] using h
    | cons b l₂ =>
      obtain ⟨c, t, hb, hc⟩ := hhead b
      cases l₂ <;> simp [List.intercalate, hb] at h <;>
        exact absurd h.1.symm hc
  | cons a l₁ ih =>
    intro hl l₂ x y h
    have ha := hl a (by simp)
    cases l₂ with
    | nil =>
      obtain ⟨c, t, hc, hne'⟩ := hhead a
      cases l₁ <;> simp [List.intercalate, hc] at h <;>
        exact absurd h.1 hne'
    | cons b l₂ =>
      cases l₁ with
      | nil =>
        cases l₂ with
        | nil =>
          simp only [List.map_cons, List.map_nil, List.intercalate_singleton] at h
          obtain ⟨rfl, hrest⟩ := ha b _ _ (ends_cons hclose x) (ends_cons hclose y) h
          exact ⟨rfl, List.tail_eq_of_cons_eq hrest⟩
        | cons b' l₂ =>
          simp only [List.map_cons, List.map_nil, List.intercalate_singleton,
            List.intercalate_cons_cons, List.append_assoc, List.cons_append, List.nil_append] at h
          have := (ha b _ _ (ends_cons hclose x) (ends_cons hsep _) h).2
          exact absurd (List.head_eq_of_cons_eq this).symm hne
      | cons a' l₁ =>
        cases l₂ with
        | nil =>
          simp only [List.map_cons, List.map_nil, List.intercalate_singleton,
            List.intercalate_cons_cons, List.append_assoc, List.cons_append, List.nil_append] at h
          have := (ha b _ _ (ends_cons hsep _) (ends_cons hclose y) h).2
          exact absurd (List.head_eq_of_cons_eq this) hne
        | cons b' l₂ =>
          simp only [List.map_cons, List.intercalate_cons_cons, List.append_assoc, List.cons_append,
            List.nil_append] at h
          obtain ⟨rfl, hrest⟩ := ha b _ _ (ends_cons hsep _) (ends_cons hsep _) h
          obtain ⟨hl', rfl⟩ := ih (fun c hc => hl c (List.mem_cons_of_mem _ hc)) (b' :: l₂) x y
            (by simpa only [List.map_cons] using List.tail_eq_of_cons_eq hrest)
          exact ⟨by rw [hl'], rfl⟩

end BaselineOps.Lib
