import Mathlib

/-!
# UTF-16

The encoding of a character in 16-bit units. An ASCII unit in the encoding of a character is that
character (`eq_of_mem_encodeChar`), so that a text can be cut at ASCII characters in either form.

* `decode_eq_some_iff`: the decoder accepts exactly the encodings.
* `length_encode_le`: a text has at most as many units as UTF-8 bytes.
-/

namespace BaselineOps.Lib.Utf16

/-- `char::encode_utf16`. -/
def encodeChar (c : Char) : List UInt16 :=
  if c.toNat < 0x10000 then [UInt16.ofNat c.toNat]
  else [UInt16.ofNat (0xd800 + (c.toNat - 0x10000) / 0x400),
    UInt16.ofNat (0xdc00 + (c.toNat - 0x10000) % 0x400)]

/-- `str::encode_utf16`. -/
def encode (text : List Char) : List UInt16 := text.flatMap encodeChar

theorem encodeChar_ne_nil (c : Char) : encodeChar c ≠ [] := by
  unfold encodeChar
  split_ifs <;> simp

theorem char_lt (c : Char) : c.toNat < 0x110000 := by
  obtain h | h := c.valid
  · exact Nat.lt_trans h (by decide)
  · exact h.2

theorem encodeChar_ascii {c : Char} (h : c.toNat < 128) : encodeChar c = [UInt16.ofNat c.toNat] :=
  if_pos (Nat.lt_trans h (by decide))

theorem eq_of_mem_encodeChar {c d : Char} (hd : d.toNat < 128)
    (h : UInt16.ofNat d.toNat ∈ encodeChar c) : c = d := by
  have hc := char_lt c
  unfold encodeChar at h
  split_ifs at h with hbmp
  · rw [List.mem_singleton, ← UInt16.toNat_inj, UInt16.toNat_ofNat', UInt16.toNat_ofNat',
      Nat.mod_eq_of_lt (by omega), Nat.mod_eq_of_lt (by omega)] at h
    exact (Char.toNat_inj.mp h).symm
  · simp only [List.mem_cons, List.not_mem_nil, or_false, ← UInt16.toNat_inj,
      UInt16.toNat_ofNat'] at h
    omega

theorem mem_encode_ascii {text : List Char} {d : Char} (hd : d.toNat < 128) :
    UInt16.ofNat d.toNat ∈ encode text ↔ d ∈ text := by
  unfold encode
  rw [List.mem_flatMap]
  constructor
  · rintro ⟨c, hc, hmem⟩
    rwa [← eq_of_mem_encodeChar hd hmem]
  · intro hmem
    refine ⟨d, hmem, ?_⟩
    rw [encodeChar_ascii hd]
    exact List.mem_singleton_self _

/-! ## Decoding -/

/-- `String::from_utf16`: a unit outside the surrogates is a character, a high surrogate and a low one
    after it are one, and any other surrogate is an error. -/
def decode : List UInt16 → Option (List Char)
  | [] => some []
  | unit :: rest =>
    if unit.toNat < 0xd800 ∨ 0xdfff < unit.toNat then
      (decode rest).map (Char.ofNat unit.toNat :: ·)
    else if 0xdc00 ≤ unit.toNat then none
    else
      match rest with
      | [] => none
      | low :: rest =>
        if low.toNat < 0xdc00 ∨ 0xdfff < low.toNat then none
        else
          (decode rest).map
            (Char.ofNat (0x10000 + (unit.toNat - 0xd800) * 0x400 + (low.toNat - 0xdc00)) :: ·)

theorem decode_of_not_surrogate {unit : UInt16} {rest : List UInt16}
    (h : unit.toNat < 0xd800 ∨ 0xdfff < unit.toNat) :
    decode (unit :: rest) = (decode rest).map (Char.ofNat unit.toNat :: ·) := by
  rw [decode.eq_def]
  simp only
  rw [if_pos h]

theorem decode_of_pair {unit low : UInt16} {rest : List UInt16} (hhigh : 0xd800 ≤ unit.toNat)
    (hhigh' : unit.toNat < 0xdc00) (hlow : 0xdc00 ≤ low.toNat) (hlow' : low.toNat ≤ 0xdfff) :
    decode (unit :: low :: rest) = (decode rest).map
      (Char.ofNat (0x10000 + (unit.toNat - 0xd800) * 0x400 + (low.toNat - 0xdc00)) :: ·) := by
  rw [decode.eq_def]
  simp only
  rw [if_neg (by omega), if_neg (by omega), if_neg (by omega)]

theorem toNat_ofNat_of_valid {n : ℕ} (h : n < 0xd800 ∨ 0xdfff < n ∧ n < 0x110000) :
    (Char.ofNat n).toNat = n := by
  rw [Char.ofNat, dif_pos h]
  rfl

theorem char_not_surrogate (c : Char) : c.toNat < 0xd800 ∨ 0xdfff < c.toNat := by
  rcases c.valid with h | h
  · exact .inl h
  · exact .inr h.1

theorem decode_encodeChar_append (c : Char) (units : List UInt16) :
    decode (encodeChar c ++ units) = (decode units).map (c :: ·) := by
  have hlt := char_lt c
  have hsurrogate := char_not_surrogate c
  unfold encodeChar
  split_ifs with hbmp
  · have hunit : (UInt16.ofNat c.toNat).toNat = c.toNat := by
      rw [UInt16.toNat_ofNat', Nat.mod_eq_of_lt hbmp]
    rw [List.singleton_append, decode_of_not_surrogate (by rwa [hunit]), hunit, Char.ofNat_toNat]
  · have hhigh : (UInt16.ofNat (0xd800 + (c.toNat - 0x10000) / 0x400)).toNat =
        0xd800 + (c.toNat - 0x10000) / 0x400 := by
      rw [UInt16.toNat_ofNat', Nat.mod_eq_of_lt (by omega)]
    have hlow : (UInt16.ofNat (0xdc00 + (c.toNat - 0x10000) % 0x400)).toNat =
        0xdc00 + (c.toNat - 0x10000) % 0x400 := by
      rw [UInt16.toNat_ofNat', Nat.mod_eq_of_lt (by omega)]
    have hback : 0x10000 + (0xd800 + (c.toNat - 0x10000) / 0x400 - 0xd800) * 0x400 +
        (0xdc00 + (c.toNat - 0x10000) % 0x400 - 0xdc00) = c.toNat := by omega
    rw [List.cons_append, List.singleton_append, decode_of_pair (by omega) (by omega) (by omega)
      (by omega), hhigh, hlow, hback, Char.ofNat_toNat]

theorem decode_encode (text : List Char) : decode (encode text) = some text := by
  induction text with
  | nil => rfl
  | cons c text ih =>
    have hcons : encode (c :: text) = encodeChar c ++ encode text := List.flatMap_cons
    rw [hcons, decode_encodeChar_append, ih]
    rfl

theorem encode_of_decode {units : List UInt16} {text : List Char} (h : decode units = some text) :
    encode text = units := by
  fun_induction decode units generalizing text with
  | case1 =>
    cases h
    rfl
  | case2 unit rest hunit ih =>
    obtain ⟨text, htext, rfl⟩ := Option.map_eq_some_iff.mp h
    have hlt := unit.toNat_lt
    have hchar : (Char.ofNat unit.toNat).toNat = unit.toNat := toNat_ofNat_of_valid (by omega)
    have hcons : encode (Char.ofNat unit.toNat :: text) =
        encodeChar (Char.ofNat unit.toNat) ++ encode text := List.flatMap_cons
    rw [hcons, ih htext, encodeChar, hchar, if_pos (by omega), UInt16.ofNat_toNat,
      List.singleton_append]
  | case3 => cases h
  | case4 => cases h
  | case5 => cases h
  | case6 unit hunit hhigh low rest hlow ih =>
    obtain ⟨text, htext, rfl⟩ := Option.map_eq_some_iff.mp h
    have hlt := unit.toNat_lt
    have hlt' := low.toNat_lt
    have hchar := @toNat_ofNat_of_valid
      (0x10000 + (unit.toNat - 0xd800) * 0x400 + (low.toNat - 0xdc00)) (by omega)
    have hcons : encode (Char.ofNat (0x10000 + (unit.toNat - 0xd800) * 0x400 + (low.toNat - 0xdc00)) ::
        text) = encodeChar (Char.ofNat
          (0x10000 + (unit.toNat - 0xd800) * 0x400 + (low.toNat - 0xdc00))) ++ encode text :=
      List.flatMap_cons
    have hunits : 0xd800 + (0x10000 + (unit.toNat - 0xd800) * 0x400 + (low.toNat - 0xdc00) - 0x10000) /
        0x400 = unit.toNat := by omega
    have hunits' : 0xdc00 + (0x10000 + (unit.toNat - 0xd800) * 0x400 + (low.toNat - 0xdc00) - 0x10000) %
        0x400 = low.toNat := by omega
    rw [hcons, ih htext, encodeChar, hchar, if_neg (by omega), hunits, hunits', UInt16.ofNat_toNat,
      UInt16.ofNat_toNat]
    rfl

/-- The decoder accepts exactly the encodings, each as its text. -/
theorem decode_eq_some_iff {units : List UInt16} {text : List Char} :
    decode units = some text ↔ units = encode text := by
  constructor
  · intro h
    exact (encode_of_decode h).symm
  · rintro rfl
    exact decode_encode text

theorem length_encodeChar_le (c : Char) : (encodeChar c).length ≤ c.utf8Size := by
  unfold encodeChar
  split_ifs with hbmp
  · exact Char.utf8Size_pos c
  · have hsize : c.utf8Size = 4 := by
      have hval : c.val.toNat = c.toNat := rfl
      simp only [Char.utf8Size, UInt32.le_iff_toNat_le, hval, UInt32.toNat_ofNatLT]
      split_ifs <;> omega
    rw [hsize]
    simp

/-- A text has at most as many units as UTF-8 bytes. -/
theorem length_encode_le (text : List Char) :
    (encode text).length ≤ (text.map Char.utf8Size).sum := by
  rw [encode, List.length_flatMap]
  exact List.sum_le_sum fun c _ => length_encodeChar_le c

end BaselineOps.Lib.Utf16
