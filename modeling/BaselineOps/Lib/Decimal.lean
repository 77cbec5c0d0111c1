import Mathlib

/-!
# Decimal text

`Nat.toDigits 10` writes a number without leading zeros. `toDigits_ofDigitChars`: digits without a
leading zero are the text of their value, so that such a text is written in one way only.
-/

namespace BaselineOps.Lib

/-- Only zero is spelled with a leading zero. -/
theorem head_toDigits {n : ℕ} (h : (Nat.toDigits 10 n).head? = some '0') : n = 0 := by
  induction n using Nat.strong_induction_on with
  | _ n ih =>
    by_cases hn : n < 10
    · rw [Nat.toDigits_of_lt_base hn, List.head?_cons, Option.some.injEq] at h
      have key : ∀ m < 10, Nat.digitChar m = '0' → m = 0 := by decide
      exact key n hn h
    · rw [Nat.toDigits_of_base_le (by norm_num) (by omega),
        List.head?_append_of_ne_nil _ Nat.toDigits_ne_nil] at h
      have := ih (n / 10) (by omega) h
      omega

/-- Decimal digits, with a zero in front only when it is the one digit. -/
def PlainDigits (text : List Char) : Prop :=
  text ≠ [] ∧ (∀ c ∈ text, c.isDigit = true) ∧ (text.head? = some '0' → text.length = 1)

instance (text : List Char) : Decidable (PlainDigits text) := inferInstanceAs (Decidable (_ ∧ _))

theorem plainDigits_toDigits (n : ℕ) : PlainDigits (Nat.toDigits 10 n) := by
  refine ⟨Nat.toDigits_ne_nil, fun c => Nat.isDigit_of_mem_toDigits (by norm_num) (by norm_num),
    fun hzero => ?_⟩
  rw [head_toDigits hzero]
  rfl

/-- A digit is the character of its value. -/
theorem digitChar_of_isDigit {c : Char} (h : c.isDigit = true) :
    c.toNat - '0'.toNat < 10 ∧ Nat.digitChar (c.toNat - '0'.toNat) = c := by
  simp only [Char.isDigit, Bool.and_eq_true, decide_eq_true_eq] at h
  have hlow : 48 ≤ c.toNat := UInt32.le_iff_toNat_le.mp h.1
  have hhigh : c.toNat ≤ 57 := UInt32.le_iff_toNat_le.mp h.2
  have hzero : '0'.toNat = 48 := rfl
  have hlt : c.toNat - '0'.toNat < 10 := by omega
  refine ⟨hlt, Char.toNat_inj.mp ?_⟩
  rw [Nat.toNat_digitChar_of_lt_ten hlt]
  omega

theorem ofDigitChars_concat (digits : List Char) (c : Char) :
    Nat.ofDigitChars 10 (digits ++ [c]) 0 =
      10 * Nat.ofDigitChars 10 digits 0 + (c.toNat - '0'.toNat) := by
  rw [Nat.ofDigitChars_append, Nat.ofDigitChars_cons, Nat.ofDigitChars_nil]

theorem toDigits_ofDigitChars {text : List Char} (h : PlainDigits text) :
    Nat.toDigits 10 (Nat.ofDigitChars 10 text 0) = text := by
  induction text using List.reverseRecOn with
  | nil => exact absurd rfl h.1
  | append_singleton digits c ih =>
    obtain ⟨-, hdigits, hhead⟩ := h
    obtain ⟨hlt, hchar⟩ := digitChar_of_isDigit (hdigits c (by simp))
    rw [ofDigitChars_concat]
    by_cases hnil : digits = []
    · subst hnil
      rw [Nat.ofDigitChars_nil, Nat.mul_zero, Nat.zero_add, Nat.toDigits_of_lt_base hlt, hchar]
      rfl
    · have hfirst : digits.head? ≠ some '0' := by
        intro hzero
        have hlength := hhead (by rwa [List.head?_append_of_ne_nil _ hnil])
        rw [List.length_append, List.length_singleton] at hlength
        exact hnil (List.length_eq_zero_iff.mp (by omega))
      have hdec := ih ⟨hnil, fun c hc => hdigits c (by simp [hc]), fun hzero => absurd hzero hfirst⟩
      -- the value of the leading digits is positive
      have hpos : 0 < Nat.ofDigitChars 10 digits 0 := by
        by_contra hzero
        rw [Nat.eq_zero_of_not_pos hzero] at hdec
        exact hfirst (by rw [← hdec]; rfl)
      rw [Nat.toDigits_of_base_le (by norm_num) (by omega),
        show (10 * Nat.ofDigitChars 10 digits 0 + (c.toNat - '0'.toNat)) / 10 =
          Nat.ofDigitChars 10 digits 0 by omega,
        show (10 * Nat.ofDigitChars 10 digits 0 + (c.toNat - '0'.toNat)) % 10 =
          c.toNat - '0'.toNat by omega, hdec, hchar]

end BaselineOps.Lib
