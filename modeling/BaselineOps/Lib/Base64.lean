import Mathlib

/-!
# Base64

The encoding of bytes in groups of three, with padding.

* `length_encode`: four characters for every three bytes begun.
* `mem_encode`: every character is one of the alphabet or the padding.
-/

namespace BaselineOps.Lib.Base64

/-- The characters of the digits 0 to 63. -/
def alphabet : List Char := "ABCDEFGHIJKLMNOPQRSTUVWXYZabcdefghijklmnopqrstuvwxyz0123456789+/".toList

/-- The character of six bits. -/
def digit (n : ℕ) : Char := alphabet.getD n '='

/-- Four characters for every three bytes; the last group is padded. -/
def encode : List UInt8 → List Char
  | [] => []
  | [a] => [digit (a.toNat / 4), digit (a.toNat % 4 * 16), '=', '=']
  | [a, b] =>
    [digit (a.toNat / 4), digit (a.toNat % 4 * 16 + b.toNat / 16), digit (b.toNat % 16 * 4), '=']
  | a :: b :: c :: rest =>
    digit (a.toNat / 4) :: digit (a.toNat % 4 * 16 + b.toNat / 16) ::
      digit (b.toNat % 16 * 4 + c.toNat / 64) :: digit (c.toNat % 64) :: encode rest

example : String.ofList (encode [77, 97, 110, 77]) = "TWFuTQ==" := by decide +kernel

theorem length_encode (bytes : List UInt8) : (encode bytes).length = 4 * ((bytes.length + 2) / 3) := by
  induction bytes using encode.induct with
  | case1 => rfl
  | case2 a => simp [encode]
  | case3 a b => simp [encode]
  | case4 a b c rest ih =>
    simp only [encode, List.length_cons, ih]
    omega

theorem mem_digit (n : ℕ) : digit n ∈ '=' :: alphabet := by
  unfold digit
  by_cases h : n < alphabet.length
  · rw [List.getD_eq_getElem _ _ h]
    exact List.mem_cons_of_mem _ (List.getElem_mem h)
  · rw [List.getD_eq_default _ _ (by omega)]
    exact List.mem_cons_self

theorem mem_encode {c : Char} {bytes : List UInt8} (h : c ∈ encode bytes) : c ∈ '=' :: alphabet := by
  have hpadding : '=' ∈ '=' :: alphabet := List.mem_cons_self
  induction bytes using encode.induct with
  | case1 => cases h
  | case2 a =>
    simp only [encode, List.mem_cons, List.not_mem_nil, or_false] at h
    rcases h with rfl | rfl | rfl | rfl
    exacts [mem_digit _, mem_digit _, hpadding, hpadding]
  | case3 a b =>
    simp only [encode, List.mem_cons, List.not_mem_nil, or_false] at h
    rcases h with rfl | rfl | rfl | rfl
    exacts [mem_digit _, mem_digit _, mem_digit _, hpadding]
  | case4 a b c rest ih =>
    rw [encode, List.mem_cons, List.mem_cons, List.mem_cons, List.mem_cons] at h
    rcases h with rfl | rfl | rfl | rfl | h
    exacts [mem_digit _, mem_digit _, mem_digit _, mem_digit _, ih h]

end BaselineOps.Lib.Base64
