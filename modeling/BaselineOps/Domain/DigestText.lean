import Mathlib
import BaselineOps.Domain.Canonical
import BaselineOps.Lib.EState

/-!
# The text of a digest

Model of `FromStr` for `Sha256Digest` (`canonical.rs`, lines 54–73), of its `Deserialize` (lines 84–91) and
of `nibble` (`canonical/hex.rs`). `nibble` takes digits of both cases; upper case is refused before it is
called.

* `fromStr_ok_iff`: the text that is accepted for a digest is the one that `to_hex` writes.
* `digestText_canonical`: so texts and digests correspond one to one, also behind JSON.
-/

namespace BaselineOps.Domain

open BaselineOps.Lib

/-! ## Model -/

/-- `nibble` (lines 1–8). -/
def nibble (byte : UInt8) : Option UInt8 :=
  if 48 ≤ byte ∧ byte ≤ 57 then some (byte - 48)
  else if 97 ≤ byte ∧ byte ≤ 102 then some (byte - 97 + 10)
  else if 65 ≤ byte ∧ byte ≤ 70 then some (byte - 65 + 10)
  else none

/-- `u8::is_ascii_uppercase`. -/
def isAsciiUppercase (byte : UInt8) : Bool := 65 ≤ byte && byte ≤ 90

/-- `u8::is_ascii_hexdigit`. -/
def isAsciiHexdigit (byte : UInt8) : Bool :=
  (48 ≤ byte && byte ≤ 57) || (97 ≤ byte && byte ≤ 102) || (65 ≤ byte && byte ≤ 70)

/-- `nibble` with the error of `from_str`. -/
def nibbleOrError (byte : UInt8) : Except String UInt8 :=
  match nibble byte with
  | some value => .ok value
  | none => .error "SHA-256 digest is not hexadecimal"

/-- The loop of `from_str` over `chunks_exact(2)`: the bytes it writes. -/
def decodePairs : List UInt8 → Except String (List UInt8)
  | first :: second :: rest => do
    let high ← nibbleOrError first
    let low ← nibbleOrError second
    let bytes ← decodePairs rest
    return (high <<< 4 ||| low) :: bytes
  | _ => .ok []

/-- `Sha256Digest::from_str` (lines 57–72). The array is zero before the loop. -/
def Sha256Digest.fromStr (value : String) : Except String Sha256Digest := do
  failIf ((utf8 value).length ≠ 64 ∨ (utf8 value).all isAsciiHexdigit = false ∨
      (utf8 value).any isAsciiUppercase = true)
    "SHA-256 digests must be exactly 64 lowercase hexadecimal characters"
  let bytes ← decodePairs (utf8 value)
  return ⟨Vector.ofFn fun index => bytes.getD index 0⟩

/-- `Serialize` (lines 75–82). -/
def Sha256Digest.serialize (x : Sha256Digest) : Value := .string x.toHex

/-- `Deserialize` (lines 84–91). -/
def Sha256Digest.deserialize : Value → Except String Sha256Digest
  | .string value => Sha256Digest.fromStr value
  | _ => .error "invalid type: expected a string"

/-! ## Digits -/

/-- The byte of a hexadecimal digit. -/
def digitByte (n : ℕ) : UInt8 := UInt8.ofNat (hexDigit n).toNat

theorem utf8EncodeChar_hexDigit {n : ℕ} (h : n < 16) :
    String.utf8EncodeChar (hexDigit n) = [digitByte n] := by
  have key : ∀ n < 16, String.utf8EncodeChar (hexDigit n) = [digitByte n] := by decide
  exact key n h

theorem nibble_digitByte {n : ℕ} (h : n < 16) : nibble (digitByte n) = some (UInt8.ofNat n) := by
  have key : ∀ n < 16, nibble (digitByte n) = some (UInt8.ofNat n) := by decide
  exact key n h

theorem digitByte_accepted {n : ℕ} (h : n < 16) :
    isAsciiHexdigit (digitByte n) = true ∧ isAsciiUppercase (digitByte n) = false := by
  have key : ∀ n < 16, isAsciiHexdigit (digitByte n) = true ∧
      isAsciiUppercase (digitByte n) = false := by decide
  exact key n h

/-- The accepted bytes are the digits that `to_hex` writes. -/
theorem exists_digitByte {byte : UInt8} (hdigit : isAsciiHexdigit byte = true)
    (hcase : isAsciiUppercase byte = false) : ∃ n < 16, byte = digitByte n := by
  have key : ∀ k < 256, isAsciiHexdigit (UInt8.ofNat k) = true →
      isAsciiUppercase (UInt8.ofNat k) = false → ∃ n < 16, UInt8.ofNat k = digitByte n := by
    decide +kernel
  have hbyte := key byte.toNat byte.toNat_lt
  rw [UInt8.ofNat_toNat] at hbyte
  exact hbyte hdigit hcase

theorem exists_hexDigit {c : Char} (h : c ∈ "0123456789abcdef".toList) :
    ∃ n < 16, c = hexDigit n := by
  obtain ⟨n, hn, hget⟩ := List.mem_iff_getElem.mp h
  refine ⟨n, hn, ?_⟩
  rw [hexDigit, List.getD_eq_getElem _ _ hn, hget]

/-! ## Pairs -/

/-- The two digits of a byte. -/
def digitPair (byte : UInt8) : List UInt8 :=
  [digitByte (byte.toNat / 16), digitByte (byte.toNat % 16)]

theorem digits_lt (byte : UInt8) : byte.toNat / 16 < 16 ∧ byte.toNat % 16 < 16 := by
  have h := byte.toNat_lt
  omega

theorem utf8_toHex (x : Sha256Digest) : utf8 x.toHex = x.bytes.toList.flatMap digitPair := by
  rw [utf8, Sha256Digest.toHex, String.toList_ofList, hexBytes, List.flatMap_assoc]
  congr 1
  funext byte
  obtain ⟨hhigh, hlow⟩ := digits_lt byte
  simp [hexByte, digitPair, utf8EncodeChar_hexDigit hhigh, utf8EncodeChar_hexDigit hlow]

/-- Two digits are the pair of one byte. -/
theorem digitPair_join {m n : ℕ} (hm : m < 16) (hn : n < 16) :
    digitPair (UInt8.ofNat (16 * m + n)) = [digitByte m, digitByte n] := by
  rw [digitPair, UInt8.toNat_ofNat', Nat.mod_eq_of_lt (by omega), Nat.mul_add_div (by decide),
    Nat.div_eq_of_lt hn, Nat.add_zero, Nat.mul_add_mod, Nat.mod_eq_of_lt hn]

theorem shift_or {m n : ℕ} (hm : m < 16) (hn : n < 16) :
    UInt8.ofNat m <<< 4 ||| UInt8.ofNat n = UInt8.ofNat (16 * m + n) := by
  have key : ∀ m < 16, ∀ n < 16, UInt8.ofNat m <<< 4 ||| UInt8.ofNat n = UInt8.ofNat (16 * m + n) := by
    decide +kernel
  exact key m hm n hn

/-- The loop undoes the digits. -/
theorem decodePairs_flatMap (bytes : List UInt8) : decodePairs (bytes.flatMap digitPair) = .ok bytes := by
  induction bytes with
  | nil => rfl
  | cons byte bytes ih =>
    obtain ⟨hhigh, hlow⟩ := digits_lt byte
    have hjoin : UInt8.ofNat (byte.toNat / 16) <<< 4 ||| UInt8.ofNat (byte.toNat % 16) = byte := by
      rw [shift_or hhigh hlow, Nat.div_add_mod, UInt8.ofNat_toNat]
    rw [List.flatMap_cons, digitPair, List.cons_append, List.cons_append, List.nil_append, decodePairs,
      nibbleOrError, nibbleOrError, nibble_digitByte hhigh, nibble_digitByte hlow, ih]
    exact congrArg (fun byte => Except.ok (byte :: bytes)) hjoin

/-- An even number of digits is the digits of so many bytes. -/
theorem exists_flatMap_digitPair {n : ℕ} {digits : List UInt8} (hlength : digits.length = 2 * n)
    (hdigits : ∀ digit ∈ digits, ∃ k < 16, digit = digitByte k) :
    ∃ bytes : List UInt8, bytes.length = n ∧ digits = bytes.flatMap digitPair := by
  induction n generalizing digits with
  | zero => exact ⟨[], rfl, List.eq_nil_of_length_eq_zero hlength⟩
  | succ n ih =>
    match digits, hlength, hdigits with
    | first :: second :: rest, hlength, hdigits =>
      obtain ⟨m, hm, rfl⟩ := hdigits first List.mem_cons_self
      obtain ⟨k, hk, rfl⟩ := hdigits second (List.mem_cons_of_mem _ List.mem_cons_self)
      have hrest : rest.length = 2 * n := by
        simp only [List.length_cons] at hlength
        omega
      obtain ⟨bytes, hbytes, rfl⟩ := ih hrest fun digit hmem =>
        hdigits digit (List.mem_cons_of_mem _ (List.mem_cons_of_mem _ hmem))
      refine ⟨UInt8.ofNat (16 * m + k) :: bytes, by rw [List.length_cons, hbytes], ?_⟩
      rw [List.flatMap_cons, digitPair_join hm hk]
      rfl

/-! ## The codec -/

theorem toList_ofFn_getD {bytes : List UInt8} (h : bytes.length = 32) :
    (Vector.ofFn fun index : Fin 32 => bytes.getD index 0).toList = bytes := by
  apply List.ext_getElem
  · rw [Vector.length_toList, h]
  · intro i hi hi'
    rw [Vector.getElem_toList, Vector.getElem_ofFn, List.getD_eq_getElem _ _ hi']

theorem fromStr_ok_iff {value : String} {x : Sha256Digest} :
    Sha256Digest.fromStr value = .ok x ↔ value = x.toHex := by
  simp only [Sha256Digest.fromStr, except_bind_ok_iff, failIf_ok_iff, not_or, not_not,
    Bool.not_eq_false, Bool.not_eq_true]
  constructor
  · rintro ⟨_, ⟨hlength, hdigits, hcase⟩, bytes, hbytes, hx⟩
    have hall : ∀ digit ∈ utf8 value, ∃ n < 16, digit = digitByte n := fun digit hdigit =>
      exists_digitByte (List.all_eq_true.mp hdigits digit hdigit)
        (Bool.not_eq_true _ ▸ List.any_eq_false.mp hcase digit hdigit)
    obtain ⟨decoded, hcount, hpairs⟩ := exists_flatMap_digitPair (n := 32) hlength hall
    rw [hpairs, decodePairs_flatMap] at hbytes
    cases hbytes
    have htoList : x.bytes.toList = bytes := by
      rw [← Except.ok.inj hx]
      exact toList_ofFn_getD hcount
    apply utf8_injective
    rw [utf8_toHex, htoList, hpairs]
  · rintro rfl
    have hdigits : ∀ digit ∈ utf8 x.toHex, isAsciiHexdigit digit = true ∧
        isAsciiUppercase digit = false := by
      intro digit hdigit
      rw [utf8_toHex] at hdigit
      obtain ⟨byte, -, hpair⟩ := List.mem_flatMap.mp hdigit
      obtain ⟨hhigh, hlow⟩ := digits_lt byte
      rcases List.mem_pair.mp hpair with rfl | rfl
      · exact digitByte_accepted hhigh
      · exact digitByte_accepted hlow
    refine ⟨(), ⟨x.length_utf8, ?_, ?_⟩, x.bytes.toList, ?_, ?_⟩
    · exact List.all_eq_true.mpr fun digit hdigit => (hdigits digit hdigit).1
    · exact List.any_eq_false.mpr fun digit hdigit => by simp [(hdigits digit hdigit).2]
    · rw [utf8_toHex, decodePairs_flatMap]
    · have hlist := toList_ofFn_getD x.bytes.length_toList
      exact congrArg (fun bytes => Except.ok (Sha256Digest.mk bytes)) (Vector.toList_inj.mp hlist)

/-- Every text of 64 lowercase digits is the text of a digest. -/
theorem exists_toHex {value : String} (hlength : value.toList.length = 64)
    (hchars : ∀ c ∈ value.toList, c ∈ "0123456789abcdef".toList) :
    ∃ x : Sha256Digest, value = x.toHex := by
  have hcount : (utf8 value).length = 2 * 32 := by
    rw [length_utf8_ascii fun c hc => hex_lt c (hchars c hc), hlength]
  have hdigits : ∀ digit ∈ utf8 value, ∃ n < 16, digit = digitByte n := by
    intro digit hdigit
    obtain ⟨c, hc, hbyte⟩ := List.mem_flatMap.mp hdigit
    obtain ⟨n, hn, rfl⟩ := exists_hexDigit (hchars c hc)
    rw [utf8EncodeChar_hexDigit hn] at hbyte
    exact ⟨n, hn, List.mem_singleton.mp hbyte⟩
  obtain ⟨bytes, hbytes, hpairs⟩ := exists_flatMap_digitPair hcount hdigits
  refine ⟨⟨Vector.ofFn fun index => bytes.getD index 0⟩, utf8_injective ?_⟩
  rw [utf8_toHex, toList_ofFn_getD hbytes, hpairs]

/-- The text of a digest is canonical: `from_str` undoes `to_hex`, accepts 64 lowercase hexadecimal
    characters and nothing else, and `to_hex` gives them back. Equality of digests is equality of their
    texts, and JSON keeps a digest. -/
theorem digestText_canonical :
    (∀ x : Sha256Digest, Sha256Digest.fromStr x.toHex = .ok x) ∧
    (∀ value : String, (∃ x, Sha256Digest.fromStr value = .ok x) ↔
      value.toList.length = 64 ∧ ∀ c ∈ value.toList, c ∈ "0123456789abcdef".toList) ∧
    (∀ value x, Sha256Digest.fromStr value = .ok x → x.toHex = value) ∧
    (∀ value value' x x', Sha256Digest.fromStr value = .ok x → Sha256Digest.fromStr value' = .ok x' →
      (value = value' ↔ x = x')) ∧
    (∀ x : Sha256Digest, Sha256Digest.deserialize x.serialize = .ok x) ∧
    ∀ json x, Sha256Digest.deserialize json = .ok x ↔ json = x.serialize := by
  refine ⟨fun x => fromStr_ok_iff.mpr rfl, ?_, fun value x h => (fromStr_ok_iff.mp h).symm, ?_,
    fun x => fromStr_ok_iff.mpr rfl, ?_⟩
  · intro value
    constructor
    · rintro ⟨x, h⟩
      rw [fromStr_ok_iff.mp h, Sha256Digest.toHex, String.toList_ofList]
      refine ⟨?_, fun c => mem_hexBytes⟩
      rw [length_hexBytes, Vector.length_toList]
    · rintro ⟨hlength, hchars⟩
      obtain ⟨x, hx⟩ := exists_toHex hlength hchars
      exact ⟨x, fromStr_ok_iff.mpr hx⟩
  · intro value value' x x' h h'
    rw [fromStr_ok_iff.mp h, fromStr_ok_iff.mp h']
    exact Sha256Digest.toHex_injective.eq_iff
  · intro json x
    cases json with
    | string value =>
      rw [Sha256Digest.deserialize, fromStr_ok_iff, Sha256Digest.serialize, Value.string.injEq]
    | null | bool _ | number _ | array _ | object _ =>
      simp [Sha256Digest.deserialize, Sha256Digest.serialize]

end BaselineOps.Domain
