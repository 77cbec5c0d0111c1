import Mathlib.Data.List.Basic
import Mathlib.Data.List.Induction

/-!
# Hash chains

A list of records is a chain from `h` when every record names the hash of its predecessor, the
first one `h`. `Chain.unique` is the backward argument behind tamper evidence: two chains from
the same start with the same terminal hash are equal, when equal record hashes mean equal
records and no record hashes to the start. The lists may have different lengths.
-/

namespace BaselineOps.Lib

variable {R D : Type*} (prev hash : R → D)

/-- Every record names the hash of its predecessor, the first one `h`. -/
def Chain : D → List R → Prop
  | _, [] => True
  | h, r :: rs => prev r = h ∧ Chain (hash r) rs

/-- The hash of the last record, or the start for an empty chain. -/
def terminal (h : D) (rs : List R) : D := rs.foldl (fun _ r => hash r) h

@[simp] theorem terminal_nil (h : D) : terminal hash h [] = h := rfl

@[simp] theorem terminal_concat (h : D) (rs : List R) (r : R) :
    terminal hash h (rs ++ [r]) = hash r := by
  simp [terminal]

theorem chain_append (h : D) (as bs : List R) :
    Chain prev hash h (as ++ bs) ↔
      Chain prev hash h as ∧ Chain prev hash (terminal hash h as) bs := by
  induction as generalizing h with
  | nil => simp [Chain]
  | cons a as ih => simp [Chain, ih, terminal, and_assoc]

theorem chain_concat (h : D) (as : List R) (r : R) :
    Chain prev hash h (as ++ [r]) ↔ Chain prev hash h as ∧ prev r = terminal hash h as := by
  simp [chain_append, Chain]

/-- Two chains from one start with one terminal hash are the same chain. The induction removes
    the last record of both: equal terminal hashes make these records equal, hence also the
    hashes they name, which are the terminal hashes of what is left. -/
theorem Chain.unique {h : D} {as bs : List R} (ha : Chain prev hash h as)
    (hb : Chain prev hash h bs) (hterm : terminal hash h as = terminal hash h bs)
    (hinj : ∀ a ∈ as, ∀ b ∈ bs, hash a = hash b → a = b)
    (hna : ∀ a ∈ as, hash a ≠ h) (hnb : ∀ b ∈ bs, hash b ≠ h) : as = bs := by
  induction as using List.reverseRecOn generalizing bs with
  | nil =>
    cases bs using List.reverseRecOn with
    | nil => rfl
    | append_singleton bs b => exact absurd (by simpa using hterm.symm) (hnb b (by simp))
  | append_singleton as a ih =>
    cases bs using List.reverseRecOn with
    | nil => exact absurd (by simpa using hterm) (hna a (by simp))
    | append_singleton bs b =>
      rw [chain_concat] at ha hb
      have hab : a = b := hinj a (by simp) b (by simp) (by simpa using hterm)
      subst hab
      rw [ih ha.1 hb.1 (ha.2.symm.trans hb.2)
        (fun x hx y hy => hinj x (by simp [hx]) y (by simp [hy]))
        (fun x hx => hna x (by simp [hx])) (fun y hy => hnb y (by simp [hy]))]

end BaselineOps.Lib
