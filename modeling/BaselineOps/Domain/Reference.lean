import Mathlib
import BaselineOps.Domain.Size
import BaselineOps.Lib.Sha256

/-!
# Reference instance of the external code

`referenceDeps` is a `Deps` with SHA-256 itself and texts that satisfy `LawfulText`. It agrees with
`chrono` at the Unix epoch, the time that concrete runs of this development use; at other times and
for floats it only keeps the texts apart.
-/

namespace BaselineOps.Domain

open BaselineOps.Lib

/-- The Unix epoch. -/
def epoch : DateTime where
  secs := 0
  frac := 0

/-- A number for every time. -/
def DateTime.code (t : DateTime) : ℕ := (t.secs + 2 ^ 44).toNat * 2 ^ 31 + t.frac.val

theorem DateTime.code_injective : Function.Injective DateTime.code := by
  intro a b h
  have ha := a.frac.isLt
  have hb := b.frac.isLt
  have ha1 := a.secs_ge
  have hb1 := b.secs_ge
  simp only [DateTime.code] at h
  refine DateTime.ext ?_ (Fin.ext ?_)
  · omega
  · omega

/-- The external code of concrete runs. -/
def referenceDeps : Deps where
  sha256 message := ⟨Sha256.sha256 message⟩
  rfc3339 t := if t = epoch then "1970-01-01T00:00:00Z" else Nat.repr t.code
  floatText x := Nat.repr x.bits.toNat ++ ".0"

theorem referenceDeps_lawful : referenceDeps.LawfulText where
  rfc3339_inj := by
    have hdigits : ∀ n : ℕ, "1970-01-01T00:00:00Z" ≠ Nat.repr n := by
      intro n hn
      exact not_mem_repr (c := 'Z') (by decide) n (by rw [← hn]; decide)
    intro a b h
    simp only [referenceDeps] at h
    split at h <;> split at h
    · rename_i ha hb
      rw [ha, hb]
    · exact absurd h (hdigits _)
    · exact absurd h.symm (hdigits _)
    · exact DateTime.code_injective (Nat.repr_inj.mp h)
  floatText_inj := by
    intro a b h
    simp only [referenceDeps] at h
    have hbits : a.bits = b.bits :=
      UInt64.toNat_inj.mp (Nat.repr_inj.mp ((String.append_left_inj _).mp h))
    cases a
    cases b
    simp only at hbits
    subst hbits
    rfl
  floatText_chars := by
    intro x c hc
    simp only [referenceDeps, String.toList_append, List.mem_append] at hc
    rcases hc with hc | hc
    · exact .inl (repr_chars hc)
    · fin_cases hc
      · exact .inr (by decide)
      · exact .inl (by decide)
  floatText_mark := by
    intro x
    left
    simp [referenceDeps]

theorem referenceDeps_rfc3339_length (t : DateTime) :
    (utf8 (referenceDeps.rfc3339 t)).length ≤ 64 := by
  simp only [referenceDeps]
  split
  · decide
  · refine length_utf8_repr (by decide) ?_
    have hfrac := t.frac.isLt
    have hge := t.secs_ge
    have hle := t.secs_le
    simp only [DateTime.code]
    omega

end BaselineOps.Domain
