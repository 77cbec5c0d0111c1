import Mathlib
import BaselineOps.Lib.Bytes
import BaselineOps.Lib.Utf16
import BaselineOps.WindowsUpdate.Mutation

/-!
# Registry values as bytes

Model of `windows_update/native.rs` (lines 183–246 and 283–289): the buffer for a stored value, the
decoder of its bytes, and the encoder.

* `encodeString_bytes`, `decodeString_ok_iff`: the decoder accepts exactly the encodings of the strings
  that `validate_string` accepts, and `bounded_buffer` has room for each of them.
-/

namespace BaselineOps.WindowsUpdate

open BaselineOps.Capabilities BaselineOps.Lib BaselineOps.Domain

/-! ## Model -/

/-- `REG_VALUE_TYPE`: the types that this module names. -/
inductive RegValueType where
  | dword | sz | other (raw : UInt32)
  deriving DecidableEq

/-- `invalid_registry_value` (lines 308–310). -/
def invalidRegistryValue : RegistryError :=
  .trustFailure "Windows Update registry value has an invalid type or size"

/-- `maximum` in `bounded_buffer`. -/
def maximumBytes : ValueKind → ℕ
  | .dword => 4
  | .string => (maxPolicyStringBytes + 1) * 2

/-- `bounded_buffer` (lines 183–193). -/
def boundedBuffer (kind : ValueKind) (size : UInt32) : Except RegistryError (List UInt8) := do
  failIf (maximumBytes kind < size.toNat) invalidRegistryValue
  return List.replicate size.toNat 0

/-- `validate_utf16_bytes` (lines 224–232). -/
def validateUtf16Bytes (bytes : List UInt8) : Except RegistryError Unit := do
  failIf (bytes = []) invalidRegistryValue
  failIf (bytes.length % 2 ≠ 0) invalidRegistryValue

/-- The units of `chunks_exact(2)`. -/
def unitsOf : List UInt8 → List UInt16
  | low :: high :: rest => UInt16.ofNat (fromLeBytes [low, high]) :: unitsOf rest
  | _ => []

/-- `validate_utf16_terminator` (lines 234–242): the units without the last one. -/
def validateUtf16Terminator (units : List UInt16) : Except RegistryError (List UInt16) := do
  failIf (units.getLast? ≠ some 0) invalidRegistryValue
  failIf (0 ∈ units.dropLast) invalidRegistryValue
  return units.dropLast

/-- `validate_string_size` (lines 244–249). -/
def validateStringSize (value : String) : Except RegistryError Unit :=
  failIf (maxPolicyStringBytes < (utf8 value).length) invalidRegistryValue

/-- `decode_string` (lines 211–222). -/
def decodeString (bytes : List UInt8) : Except RegistryError PolicyValueSnapshot := do
  validateUtf16Bytes bytes
  let units ← validateUtf16Terminator (unitsOf bytes)
  match Utf16.decode units with
  | none => .error invalidRegistryValue
  | some text => do
    let value := String.ofList text
    validateStringSize value
    return .string value

/-- `decode_value` (lines 195–209). -/
def decodeValue (expected : ValueKind) (actual : RegValueType) (bytes : List UInt8) :
    Except RegistryError PolicyValueSnapshot :=
  match expected with
  | .dword =>
    if actual = .dword ∧ bytes.length = 4 then .ok (.dword (UInt32.ofNat (fromLeBytes bytes)))
    else .error invalidRegistryValue
  | .string => if actual = .sz then decodeString bytes else .error invalidRegistryValue

/-- `u16::to_le_bytes` of every unit. -/
def bytesOf (units : List UInt16) : List UInt8 := units.flatMap fun unit => toLeBytes 2 unit.toNat

/-- `encode_string` (lines 283–289). -/
def encodeString (value : String) : List UInt8 := bytesOf (Utf16.encode value.toList ++ [0])

/-! ## Units and bytes -/

theorem bytesOf_cons (unit : UInt16) (units : List UInt16) :
    bytesOf (unit :: units) = toLeBytes 2 unit.toNat ++ bytesOf units := List.flatMap_cons

theorem length_bytesOf (units : List UInt16) : (bytesOf units).length = 2 * units.length := by
  induction units with
  | nil => rfl
  | cons unit units ih =>
    rw [bytesOf_cons, List.length_append, length_toLeBytes, ih, List.length_cons]
    omega

theorem unitsOf_bytesOf (units : List UInt16) : unitsOf (bytesOf units) = units := by
  induction units with
  | nil => rfl
  | cons unit units ih =>
    have hback : UInt16.ofNat (fromLeBytes (toLeBytes 2 unit.toNat)) = unit := by
      rw [fromLeBytes_toLeBytes unit.toNat_lt, UInt16.ofNat_toNat]
    rw [bytesOf_cons]
    simp only [toLeBytes, List.cons_append, List.nil_append, unitsOf, ih] at hback ⊢
    rw [hback]

/-- Bytes of even number are those of their units. -/
theorem bytesOf_unitsOf {bytes : List UInt8} (h : bytes.length % 2 = 0) :
    bytesOf (unitsOf bytes) = bytes := by
  fun_induction unitsOf bytes with
  | case1 low high rest ih =>
    have hlt := fromLeBytes_lt [low, high]
    have hpair : toLeBytes 2 (UInt16.ofNat (fromLeBytes [low, high])).toNat = [low, high] := by
      rw [UInt16.toNat_ofNat', Nat.mod_eq_of_lt (by simpa using hlt)]
      exact toLeBytes_fromLeBytes [low, high]
    have hrest : rest.length % 2 = 0 := by
      simp only [List.length_cons] at h
      omega
    rw [bytesOf_cons, hpair, ih hrest]
    rfl
  | case2 bytes hshort =>
    match bytes with
    | [] => rfl
    | [byte] => simp at h
    | low :: high :: rest => exact absurd rfl (hshort low high rest)

/-! ## Strings -/

theorem nul_mem_encode {text : List Char} : (0 : UInt16) ∈ Utf16.encode text ↔ '\x00' ∈ text :=
  Utf16.mem_encode_ascii (d := '\x00') (by decide)

theorem length_utf8 (value : String) : (utf8 value).length = (value.toList.map Char.utf8Size).sum := by
  rw [utf8, List.length_flatMap]
  simp only [String.length_utf8EncodeChar]

/-- A string without NUL of at most 128 bytes: what `validate_string` accepts. -/
def StorableString (value : String) : Prop :=
  '\x00' ∉ value.toList ∧ (utf8 value).length ≤ maxPolicyStringBytes

theorem validateString_ok_iff {value : String} :
    validateString value = .ok () ↔ StorableString value := by
  rw [validateString, failIf_ok_iff, not_or, not_lt, and_comm]
  rfl

theorem validateUtf16Bytes_ok_iff {bytes : List UInt8} {u : Unit} :
    validateUtf16Bytes bytes = .ok u ↔ bytes ≠ [] ∧ bytes.length % 2 = 0 := by
  rw [validateUtf16Bytes, except_bind_ok_iff]
  simp only [failIf_ok_iff, not_not]
  constructor
  · rintro ⟨_, h⟩
    exact h
  · exact fun h => ⟨(), h⟩

theorem validateUtf16Terminator_ok_iff {units text : List UInt16} :
    validateUtf16Terminator units = .ok text ↔ units = text ++ [0] ∧ 0 ∉ text := by
  simp only [validateUtf16Terminator, except_bind_ok_iff, failIf_ok_iff, not_not]
  constructor
  · rintro ⟨_, hlast, _, hnul, heq⟩
    cases heq
    exact ⟨(List.dropLast_append_getLast? 0 (Option.mem_def.mpr hlast)).symm, hnul⟩
  · rintro ⟨rfl, hnul⟩
    refine ⟨(), List.getLast?_concat, (), ?_, ?_⟩
    · rwa [List.dropLast_concat]
    · rw [List.dropLast_concat]
      rfl

/-- The decoder accepts exactly the encodings of storable strings, each as its string. -/
theorem decodeString_ok_iff {bytes : List UInt8} {snapshot : PolicyValueSnapshot} :
    decodeString bytes = .ok snapshot ↔
      ∃ value, snapshot = .string value ∧ StorableString value ∧ bytes = encodeString value := by
  simp only [decodeString, except_bind_ok_iff (x := validateUtf16Bytes bytes),
    except_bind_ok_iff (x := validateUtf16Terminator (unitsOf bytes)), validateUtf16Bytes_ok_iff,
    validateUtf16Terminator_ok_iff]
  constructor
  · rintro ⟨_, ⟨-, heven⟩, units, ⟨hunits, hnul⟩, h⟩
    cases hdecode : Utf16.decode units with
    | none =>
      rw [hdecode] at h
      cases h
    | some text =>
      rw [hdecode] at h
      obtain ⟨_, hsize, heq⟩ := except_bind_ok_iff.mp h
      cases heq
      rw [validateStringSize, failIf_ok_iff, not_lt] at hsize
      have hencode := Utf16.decode_eq_some_iff.mp hdecode
      refine ⟨String.ofList text, rfl, ⟨?_, hsize⟩, ?_⟩
      · rw [String.toList_ofList, ← nul_mem_encode, ← hencode]
        exact hnul
      · rw [encodeString, String.toList_ofList, ← hencode, ← hunits, bytesOf_unitsOf heven]
  · rintro ⟨value, rfl, ⟨hnul, hsize⟩, rfl⟩
    have hlength := length_bytesOf (Utf16.encode value.toList ++ [0])
    refine ⟨(), ⟨?_, ?_⟩, Utf16.encode value.toList, ⟨unitsOf_bytesOf _, ?_⟩, ?_⟩
    · intro hnil
      rw [encodeString] at hnil
      rw [hnil] at hlength
      simp at hlength
    · rw [encodeString, hlength, Nat.mul_mod_right]
    · rwa [nul_mem_encode]
    · rw [Utf16.decode_encode]
      refine except_bind_ok_iff.mpr ⟨(), ?_, ?_⟩
      · rw [validateStringSize, failIf_ok_iff, String.ofList_toList, not_lt]
        exact hsize
      · rw [String.ofList_toList]
        rfl

/-- The units of a string are at most as many as its UTF-8 bytes, so its encoding fits the buffer. -/
theorem length_encodeString_le {value : String} (h : StorableString value) :
    (encodeString value).length ≤ maximumBytes .string := by
  have hunits := Utf16.length_encode_le value.toList
  have hsize := h.2
  rw [length_utf8] at hsize
  rw [encodeString, length_bytesOf, List.length_append, List.length_singleton, maximumBytes]
  omega

theorem boundedBuffer_ok_iff {kind : ValueKind} {size : UInt32} :
    (∃ buffer, boundedBuffer kind size = .ok buffer) ↔ size.toNat ≤ maximumBytes kind := by
  simp only [boundedBuffer, except_bind_ok_iff, failIf_ok_iff, not_lt]
  constructor
  · rintro ⟨_, _, h, -⟩
    exact h
  · exact fun h => ⟨_, (), h, rfl⟩

/-- The encoding of a storable string fits the buffer and is decoded to the string, and the bytes that
    are decoded are these encodings only: each stored value has one spelling. -/
theorem registryString_codec :
    (∀ value, StorableString value →
      (∃ buffer, boundedBuffer .string (UInt32.ofNat (encodeString value).length) = .ok buffer) ∧
        decodeString (encodeString value) = .ok (.string value)) ∧
    (∀ bytes snapshot, bytes.length ≤ maximumBytes .string →
      (decodeString bytes = .ok snapshot ↔
        ∃ value, snapshot = .string value ∧ StorableString value ∧ bytes = encodeString value)) ∧
    ∀ bytes bytes' snapshot, decodeString bytes = .ok snapshot → decodeString bytes' = .ok snapshot →
      bytes = bytes' := by
  refine ⟨?_, ?_, ?_⟩
  · intro value hvalue
    refine ⟨boundedBuffer_ok_iff.mpr ?_, decodeString_ok_iff.mpr ⟨value, rfl, hvalue, rfl⟩⟩
    have hlength := length_encodeString_le hvalue
    have hmax : maximumBytes .string < 2 ^ 32 := by decide
    rwa [UInt32.toNat_ofNat', Nat.mod_eq_of_lt (by omega)]
  · intro bytes snapshot _
    exact decodeString_ok_iff
  · intro bytes bytes' snapshot h h'
    obtain ⟨value, rfl, -, rfl⟩ := decodeString_ok_iff.mp h
    obtain ⟨value', heq, -, rfl⟩ := decodeString_ok_iff.mp h'
    cases heq
    rfl

theorem registryString_codec_server :
    decodeString (encodeString "http://wsus.example:8530") = .ok (.string "http://wsus.example:8530") :=
  (registryString_codec.1 "http://wsus.example:8530" (by unfold StorableString; decide)).2

end BaselineOps.WindowsUpdate
