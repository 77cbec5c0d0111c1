import Mathlib
import BaselineOps.Lib.Bytes
import BaselineOps.Lib.EState

/-!
# The walker over access control lists

Model of `baselineops-windows/src/trust/windows/acl.rs` (lines 207–228 and 292–414). An index out of
range panics, and `usize` has 64 bits. `EqualSid` compares two SIDs byte by byte, as many as the
subauthority count of the first one says; reading a SID beyond its entry is a panic too.

Results:
* `walkAclAces_ne_none`: no input makes the walker panic.
* `walkAclAces_eq`: on a well-formed list the visitor sees exactly the entries, in order.
* `walkAclAces_exact`: the walker accepts the well-formed lists and no others, and with
  `rejectUntrustedWriter` those of them that grant no write access to others.
-/

namespace BaselineOps.Trust

open BaselineOps.Lib

/-! ## Constants and reads -/

/-- `PlatformError`: the case of this module. -/
inductive TrustError where
  | trustFailure (reason : String)
  deriving DecidableEq

/-- `trust_error` (lines 422–424). -/
def trustError (reason : String) : TrustError := .trustFailure reason

/-- `ACCESS_ALLOWED_ACE_TYPE` (line 18). -/
def accessAllowedAceType : UInt8 := 0
/-- `ACCESS_DENIED_ACE_TYPE` (line 19). -/
def accessDeniedAceType : UInt8 := 1

/-- `WRITE_OR_REPLACE_MASK` (lines 25–34): the rights to delete, to change owner or DACL, to write
    data, attributes and extended attributes, to append, to delete children, and the two generic
    rights. -/
def writeOrReplaceMask : ℕ :=
  0x10000 ||| 0x40000 ||| 0x80000 ||| 0x2 ||| 0x4 ||| 0x10 ||| 0x40 ||| 0x100 ||| 0x10000000 |||
    0x40000000

/-- `ACL_HEADER_SIZE` (line 35). -/
def aclHeaderSize : ℕ := 8
/-- `ACE_HEADER_SIZE` (line 36). -/
def aceHeaderSize : ℕ := 4
/-- `ACCESS_ACE_PREFIX_SIZE` (line 37). -/
def accessAcePrefixSize : ℕ := 8
/-- `SID_HEADER_SIZE` (line 38). -/
def sidHeaderSize : ℕ := 8
/-- `SID_SUBAUTHORITY_SIZE` (line 39). -/
def sidSubauthoritySize : ℕ := 4
/-- `SID_REVISION` (line 40). -/
def sidRevision : UInt8 := 1
/-- `SID_MAX_SUBAUTHORITIES` (line 41). -/
def sidMaxSubauthorities : ℕ := 15
/-- `DWORD_ALIGNMENT` (line 42). -/
def dwordAlignment : ℕ := 4

/-- `usize::checked_add` and `usize::checked_mul`. -/
def checkedUsize (n : ℕ) : Option ℕ := if n < 2 ^ 64 then some n else none

/-- `slice::get(start..stop)`. -/
def getRange (bytes : List UInt8) (start stop : ℕ) : Option (List UInt8) :=
  if start ≤ stop ∧ stop ≤ bytes.length then some ((bytes.drop start).take (stop - start)) else none

/-- `ok_or_else`. -/
def okOr {α : Type} (x : Option α) (reason : String) : Panicking TrustError α :=
  fromExcept (match x with
    | some a => .ok a
    | none => .error (trustError reason))

/-- `bytes[i]`. -/
def index (bytes : List UInt8) (i : ℕ) : Panicking TrustError UInt8 := bytes[i]?.map .ok

/-- `&bytes[start..]`. -/
def indexFrom (bytes : List UInt8) (start : ℕ) : Panicking TrustError (List UInt8) :=
  if start ≤ bytes.length then some (.ok (bytes.drop start)) else none

/-- `if condition { return Err(trust_error(reason)); }`. -/
def refuseIf (condition : Prop) [Decidable condition] (reason : String) :
    Panicking TrustError Unit :=
  fromExcept (failIf condition (trustError reason))

/-- `read_u16` (lines 394–403). -/
def readU16 (bytes : List UInt8) (offset : ℕ) : Panicking TrustError ℕ := do
  let stop ← okOr (checkedUsize (offset + 2))
    "security descriptor field offset overflows this process"
  let value ← okOr (getRange bytes offset stop)
    "security descriptor field exceeds its declared extent"
  let low ← index value 0
  let high ← index value 1
  return fromLeBytes [low, high]

/-- `read_u32` (lines 405–414). -/
def readU32 (bytes : List UInt8) (offset : ℕ) : Panicking TrustError ℕ := do
  let stop ← okOr (checkedUsize (offset + 4))
    "security descriptor field offset overflows this process"
  let value ← okOr (getRange bytes offset stop)
    "security descriptor field exceeds its declared extent"
  let b0 ← index value 0
  let b1 ← index value 1
  let b2 ← index value 2
  let b3 ← index value 3
  return fromLeBytes [b0, b1, b2, b3]

/-! ## SIDs -/

/-- `sid_size` (lines 385–392). -/
def sidSize (subauthorities : ℕ) : Panicking TrustError ℕ := do
  let suffix ← okOr (checkedUsize (subauthorities * sidSubauthoritySize))
    "SID size overflows this process"
  okOr (checkedUsize (sidHeaderSize + suffix)) "SID size overflows this process"

/-- `sid_header` (lines 380–383). -/
def sidHeader (sid : List UInt8) : Panicking TrustError (List UInt8) :=
  okOr (getRange sid 0 sidHeaderSize) "SID is smaller than its required header"

/-- `sid_length` (lines 368–378). -/
def sidLength (sid : List UInt8) : Panicking TrustError ℕ := do
  let header ← sidHeader sid
  let revision ← index header 0
  refuseIf (revision ≠ sidRevision) "SID has an unsupported revision"
  let subauthorities ← index header 1
  refuseIf (subauthorities.toNat > sidMaxSubauthorities) "SID has too many subauthorities"
  sidSize subauthorities.toNat

/-- `validate_sid_bytes` (lines 360–366). -/
def validateSidBytes (sid : List UInt8) : Panicking TrustError Unit := do
  let length ← sidLength sid
  refuseIf (length > sid.length) "DACL ACE SID exceeds the declared ACE size"

/-! ## Entries -/

/-- `ace_header` (lines 336–342). -/
def aceHeader (acl : List UInt8) (offset : ℕ) : Panicking TrustError (List UInt8) := do
  let stop ← okOr (checkedUsize (offset + aceHeaderSize))
    "DACL ACE offset overflows this process"
  okOr (getRange acl offset stop) "DACL ACE header exceeds the declared DACL size"

/-- `validated_ace_length` (lines 328–334). -/
def validatedAceLength (header : List UInt8) : Panicking TrustError ℕ := do
  let aceLength ← readU16 header 2
  refuseIf (aceLength < accessAcePrefixSize ∨ aceLength % dwordAlignment ≠ 0)
    "DACL ACE has an invalid size or alignment"
  return aceLength

/-- `ace_end` (lines 344–348). -/
def aceEnd (offset aceLength : ℕ) : Panicking TrustError ℕ :=
  okOr (checkedUsize (offset + aceLength)) "DACL ACE size overflows this process"

/-- `bounded_ace` (lines 318–326). -/
def boundedAce (acl : List UInt8) (offset : ℕ) : Panicking TrustError (List UInt8 × ℕ) := do
  let header ← aceHeader acl offset
  let aceLength ← validatedAceLength header
  let stop ← aceEnd offset aceLength
  let ace ← okOr (getRange acl offset stop) "DACL ACE exceeds the declared DACL size"
  return (ace, stop)

/-- `reject_unsupported_ace` (lines 350–358). -/
def rejectUnsupportedAce (aceType : UInt8) : Panicking TrustError Unit :=
  refuseIf (aceType ≠ accessAllowedAceType ∧ aceType ≠ accessDeniedAceType)
    "DACL contains an unsupported ACE type; cannot prove writer policy"

/-- `validated_acl_header` (lines 308–316). -/
def validatedAclHeader (acl : List UInt8) : Panicking TrustError ℕ := do
  refuseIf (acl.length < aclHeaderSize) "DACL is smaller than its required header"
  let size ← readU16 acl 2
  refuseIf (size ≠ acl.length) "DACL extent does not match its declared size"
  readU16 acl 4

/-- One round of the loop up to the visitor (lines 299–302). -/
def checkedAce (acl : List UInt8) (offset : ℕ) : Panicking TrustError (UInt8 × List UInt8 × ℕ) := do
  let (ace, stop) ← boundedAce acl offset
  let aceType ← index ace 0
  rejectUnsupportedAce aceType
  let sid ← indexFrom ace accessAcePrefixSize
  validateSidBytes sid
  return (aceType, ace, stop)

variable {σ : Type}

/-- The loop of `walk_acl_aces` (lines 298–305); `visitor` is a closure with state `σ`. -/
def walkFrom (acl : List UInt8) (visitor : σ → UInt8 → List UInt8 → Panicking TrustError σ) :
    (count offset : ℕ) → σ → Panicking TrustError σ
  | 0, _, state => return state
  | count + 1, offset, state => do
    let (aceType, ace, stop) ← checkedAce acl offset
    let state ← visitor state aceType ace
    walkFrom acl visitor count stop state

/-- `walk_acl_aces` (lines 292–306). -/
def walkAclAces (acl : List UInt8) (visitor : σ → UInt8 → List UInt8 → Panicking TrustError σ)
    (state : σ) : Panicking TrustError σ := do
  let aceCount ← validatedAclHeader acl
  walkFrom acl visitor aceCount aclHeaderSize state

/-! ## Writers -/

/-- `TrustedSids` (lines 45–49). -/
structure TrustedSids where
  system : List UInt8
  administrators : List UInt8
  trustedInstaller : List UInt8

/-- The SID that a pointer into an entry stands for. -/
def sidAt (bytes : List UInt8) : Option (List UInt8) := do
  let count ← bytes[1]?
  getRange bytes 0 (sidHeaderSize + count.toNat * sidSubauthoritySize)

/-- `TrustedSids::contains` (lines 60–67). -/
def TrustedSids.contains (trusted : TrustedSids) (sid : List UInt8) : Bool :=
  [trusted.system, trusted.administrators, trusted.trustedInstaller].any (· == sid)

/-- `reject_untrusted_writer` (lines 206–228). -/
def rejectUntrustedWriter (trusted : TrustedSids) (aceType : UInt8) (ace : List UInt8) :
    Panicking TrustError Unit := do
  if aceType ≠ accessAllowedAceType then return ()
  let mask ← readU32 ace aceHeaderSize
  if mask &&& writeOrReplaceMask = 0 then return ()
  let sid ← (sidAt (ace.drop accessAcePrefixSize)).map .ok
  refuseIf (trusted.contains sid = false)
    "DACL grants write or replacement rights to an untrusted SID"

/-! ## Well-formed lists -/

/-- A SID of revision 1 with at most 15 subauthorities at the start of `bytes`. -/
structure StartsWithSid (bytes : List UInt8) (subauthorities : ℕ) : Prop where
  revision : bytes[0]? = some sidRevision
  count : bytes[1]?.map UInt8.toNat = some subauthorities
  count_le : subauthorities ≤ 15
  fits : 8 + 4 * subauthorities ≤ bytes.length

/-- An entry of a list: where it starts, its type and its bytes. -/
structure Entry where
  start : ℕ
  aceType : UInt8
  bytes : List UInt8

/-- The offset behind an entry. -/
def Entry.stop (entry : Entry) : ℕ := entry.start + entry.bytes.length

/-- `entry` is an allow or deny entry at `offset`, of the length its header says. -/
structure EntryAt (acl : List UInt8) (offset : ℕ) (entry : Entry) : Prop where
  start : entry.start = offset
  length : fromLeBytes ((acl.drop (offset + 2)).take 2) = entry.bytes.length
  bytes : entry.bytes = (acl.drop offset).take entry.bytes.length
  inside : entry.stop ≤ acl.length
  length_ge : 8 ≤ entry.bytes.length
  aligned : entry.bytes.length % 4 = 0
  aceType : entry.bytes[0]? = some entry.aceType
  supported : entry.aceType = accessAllowedAceType ∨ entry.aceType = accessDeniedAceType
  sid : ∃ subauthorities, StartsWithSid (entry.bytes.drop 8) subauthorities

/-- Consecutive entries from `offset` on. -/
inductive Entries (acl : List UInt8) : ℕ → List Entry → Prop where
  | nil {offset} : Entries acl offset []
  | cons {offset entry entries} (head : EntryAt acl offset entry)
      (tail : Entries acl entry.stop entries) : Entries acl offset (entry :: entries)

/-- A well-formed list with its entries. -/
structure WellFormed (acl : List UInt8) (entries : List Entry) : Prop where
  length_ge : 8 ≤ acl.length
  size : fromLeBytes ((acl.drop 2).take 2) = acl.length
  count : fromLeBytes ((acl.drop 4).take 2) = entries.length
  entries : Entries acl 8 entries

/-! ## Reads -/

theorem okOr_ok_iff {α : Type} {x : Option α} {reason : String} {a : α} :
    okOr x reason = some (.ok a) ↔ x = some a := by
  unfold okOr
  rw [fromExcept_ok_iff]
  cases x <;> simp

theorem okOr_ne_none {α : Type} (x : Option α) (reason : String) : okOr x reason ≠ none :=
  Option.some_ne_none _

theorem refuseIf_ok_iff {condition : Prop} [Decidable condition] {reason : String} {u : Unit} :
    refuseIf condition reason = some (.ok u) ↔ ¬ condition := by
  unfold refuseIf
  rw [fromExcept_ok_iff, failIf_ok_iff]

theorem refuseIf_ne_none {condition : Prop} [Decidable condition] (reason : String) :
    refuseIf condition reason ≠ none :=
  Option.some_ne_none _

theorem checkedUsize_eq_some_iff {n m : ℕ} : checkedUsize n = some m ↔ n < 2 ^ 64 ∧ n = m := by
  unfold checkedUsize
  split_ifs with h
  · rw [Option.some.injEq]
    exact ⟨fun heq => ⟨h, heq⟩, And.right⟩
  · exact ⟨False.elim, fun heq => absurd heq.1 h⟩

theorem getRange_eq_some_iff {bytes value : List UInt8} {start stop : ℕ} :
    getRange bytes start stop = some value ↔
      (start ≤ stop ∧ stop ≤ bytes.length) ∧ (bytes.drop start).take (stop - start) = value := by
  unfold getRange
  split_ifs with h <;> simp [h]

theorem index_ok_iff {bytes : List UInt8} {i : ℕ} {b : UInt8} :
    index bytes i = some (.ok b) ↔ bytes[i]? = some b := by
  unfold index
  cases bytes[i]? with
  | none => simp
  | some c =>
    constructor
    · intro h
      cases h
      rfl
    · intro h
      cases h
      rfl

theorem index_ne_none {bytes : List UInt8} {i : ℕ} (h : i < bytes.length) : index bytes i ≠ none := by
  unfold index
  rw [List.getElem?_eq_getElem h]
  exact Option.some_ne_none _

theorem length_getRange {bytes value : List UInt8} {start stop : ℕ}
    (h : getRange bytes start stop = some value) : value.length = stop - start := by
  obtain ⟨⟨hle, hstop⟩, rfl⟩ := getRange_eq_some_iff.mp h
  rw [List.length_take, List.length_drop]
  omega

theorem readU16_ne_none (bytes : List UInt8) (offset : ℕ) : readU16 bytes offset ≠ none := by
  unfold readU16
  refine panicking_bind_ne_none (okOr_ne_none _ _) fun stop hstop => ?_
  refine panicking_bind_ne_none (okOr_ne_none _ _) fun value hvalue => ?_
  have hlength := length_getRange (okOr_ok_iff.mp hvalue)
  obtain ⟨-, rfl⟩ := checkedUsize_eq_some_iff.mp (okOr_ok_iff.mp hstop)
  refine panicking_bind_ne_none (index_ne_none (by omega)) fun low _ => ?_
  refine panicking_bind_ne_none (index_ne_none (by omega)) fun high _ => ?_
  exact Option.some_ne_none _

theorem readU16_ok_iff {bytes : List UInt8} {offset n : ℕ} :
    readU16 bytes offset = some (.ok n) ↔ offset + 2 < 2 ^ 64 ∧ offset + 2 ≤ bytes.length ∧
      fromLeBytes ((bytes.drop offset).take 2) = n := by
  unfold readU16
  simp only [panicking_bind_ok_iff, okOr_ok_iff, checkedUsize_eq_some_iff, getRange_eq_some_iff,
    index_ok_iff]
  constructor
  · rintro ⟨_, ⟨hlt, rfl⟩, _, ⟨⟨-, hle⟩, rfl⟩, low, hlow, high, hhigh, hn⟩
    rw [Nat.add_sub_cancel_left] at hlow hhigh
    refine ⟨hlt, hle, ?_⟩
    have htwo : (bytes.drop offset).take 2 = [low, high] := by
      have hlength : ((bytes.drop offset).take 2).length = 2 := by
        rw [List.length_take, List.length_drop]
        omega
      apply List.ext_getElem?
      intro i
      rcases i with _ | _ | i
      · exact hlow
      · exact hhigh
      · rw [List.getElem?_eq_none (by omega)]
        rfl
    rw [htwo]
    exact Except.ok.inj (Option.some.inj hn)
  · rintro ⟨hlt, hle, rfl⟩
    have hlength : ((bytes.drop offset).take 2).length = 2 := by
      rw [List.length_take, List.length_drop]
      omega
    obtain ⟨low, high, htwo⟩ := List.length_eq_two.mp hlength
    rw [htwo]
    refine ⟨_, ⟨hlt, rfl⟩, [low, high], ⟨⟨Nat.le_add_right _ _, hle⟩, ?_⟩, low, rfl, high, rfl, rfl⟩
    rw [Nat.add_sub_cancel_left]
    exact htwo

theorem readU32_eq {bytes : List UInt8} {offset : ℕ} (hlt : offset + 4 < 2 ^ 64)
    (hle : offset + 4 ≤ bytes.length) :
    readU32 bytes offset = some (.ok (fromLeBytes ((bytes.drop offset).take 4))) := by
  have hlength : ((bytes.drop offset).take 4).length = 4 := by
    rw [List.length_take, List.length_drop]
    omega
  match hfour : (bytes.drop offset).take 4, hlength with
  | [b0, b1, b2, b3], _ =>
    unfold readU32
    simp only [panicking_bind_ok_iff, okOr_ok_iff, checkedUsize_eq_some_iff, getRange_eq_some_iff,
      index_ok_iff]
    refine ⟨_, ⟨hlt, rfl⟩, [b0, b1, b2, b3], ⟨⟨Nat.le_add_right _ _, hle⟩, ?_⟩, b0, rfl, b1, rfl, b2,
      rfl, b3, rfl, rfl⟩
    rw [Nat.add_sub_cancel_left]
    exact hfour

/-! ## SIDs -/

theorem sidSize_eq {n : ℕ} (h : n ≤ 255) : sidSize n = some (.ok (8 + 4 * n)) := by
  unfold sidSize sidSubauthoritySize sidHeaderSize
  simp only [panicking_bind_ok_iff, okOr_ok_iff, checkedUsize_eq_some_iff]
  exact ⟨n * 4, ⟨by omega, rfl⟩, by omega, by omega⟩

theorem validateSidBytes_ne_none (sid : List UInt8) : validateSidBytes sid ≠ none := by
  unfold validateSidBytes sidLength sidHeader
  refine panicking_bind_ne_none ?_ fun _ _ => refuseIf_ne_none _
  refine panicking_bind_ne_none (okOr_ne_none _ _) fun header hheader => ?_
  have hlength := length_getRange (okOr_ok_iff.mp hheader)
  unfold sidHeaderSize at hlength
  refine panicking_bind_ne_none (index_ne_none (by omega)) fun revision _ => ?_
  refine panicking_bind_ne_none (refuseIf_ne_none _) fun _ _ => ?_
  refine panicking_bind_ne_none (index_ne_none (by omega)) fun count _ => ?_
  refine panicking_bind_ne_none (refuseIf_ne_none _) fun _ _ => ?_
  rw [sidSize_eq (Nat.le_of_lt_succ count.toNat_lt)]
  exact Option.some_ne_none _

theorem validateSidBytes_ok_iff {sid : List UInt8} {u : Unit} :
    validateSidBytes sid = some (.ok u) ↔ ∃ subauthorities, StartsWithSid sid subauthorities := by
  have htake {i : ℕ} (hi : i < 8) : (sid.take 8)[i]? = sid[i]? := by
    rw [List.getElem?_take, if_pos hi]
  unfold validateSidBytes sidLength sidHeader sidHeaderSize
  simp only [panicking_bind_ok_iff, okOr_ok_iff, getRange_eq_some_iff, index_ok_iff, refuseIf_ok_iff,
    List.drop_zero, Nat.sub_zero, not_not, Nat.zero_le, true_and, Nat.not_lt]
  constructor
  · rintro ⟨size, ⟨header, ⟨hlength, rfl⟩, revision, hrevision, -, rfl, count, hcount, -, hmax, hsize⟩,
      hfits⟩
    rw [htake (by decide)] at hrevision hcount
    rw [sidSize_eq (Nat.le_of_lt_succ count.toNat_lt)] at hsize
    cases hsize
    exact ⟨count.toNat, hrevision, by rw [hcount]; rfl, hmax, hfits⟩
  · rintro ⟨n, hrevision, hcount, hmax, hfits⟩
    obtain ⟨count, hbyte, rfl⟩ := Option.map_eq_some_iff.mp hcount
    refine ⟨8 + 4 * count.toNat, ⟨sid.take 8, ⟨by omega, rfl⟩, sidRevision, ?_, (), rfl, count, ?_, (),
      hmax, sidSize_eq (Nat.le_of_lt_succ count.toNat_lt)⟩, hfits⟩
    · rw [htake (by decide)]
      exact hrevision
    · rw [htake (by decide)]
      exact hbyte

/-! ## One entry -/

theorem boundedAce_ne_none (acl : List UInt8) (offset : ℕ) : boundedAce acl offset ≠ none := by
  unfold boundedAce aceHeader validatedAceLength aceEnd
  refine panicking_bind_ne_none ?_ fun header _ => ?_
  · exact panicking_bind_ne_none (okOr_ne_none _ _) fun _ _ => okOr_ne_none _ _
  refine panicking_bind_ne_none ?_ fun aceLength _ => ?_
  · refine panicking_bind_ne_none (readU16_ne_none _ _) fun _ _ => ?_
    exact panicking_bind_ne_none (refuseIf_ne_none _) fun _ _ => Option.some_ne_none _
  refine panicking_bind_ne_none (okOr_ne_none _ _) fun _ _ => ?_
  exact panicking_bind_ne_none (okOr_ne_none _ _) fun _ _ => Option.some_ne_none _

/-- What `bounded_ace` returns in a list that fits its 16-bit size. -/
theorem boundedAce_ok_iff {acl ace : List UInt8} {offset stop : ℕ} (hsize : acl.length < 2 ^ 16) :
    boundedAce acl offset = some (.ok (ace, stop)) ↔
      fromLeBytes ((acl.drop (offset + 2)).take 2) = ace.length ∧
        ace = (acl.drop offset).take ace.length ∧ stop = offset + ace.length ∧
        stop ≤ acl.length ∧ 8 ≤ ace.length ∧ ace.length % 4 = 0 := by
  have hheader : ((acl.drop offset).take 4).drop 2 = (acl.drop (offset + 2)).take 2 := by
    rw [List.drop_take, List.drop_drop]
  unfold boundedAce aceHeader validatedAceLength aceEnd aceHeaderSize accessAcePrefixSize
    dwordAlignment
  simp only [panicking_bind_ok_iff, okOr_ok_iff, checkedUsize_eq_some_iff, getRange_eq_some_iff,
    readU16_ok_iff, refuseIf_ok_iff, not_or, Nat.not_lt, not_not]
  constructor
  · rintro ⟨header, ⟨_, ⟨-, rfl⟩, ⟨-, hle⟩, rfl⟩, aceLength, ⟨n, ⟨-, -, hn⟩, -, ⟨hmin, haligned⟩, hlength⟩,
      _, ⟨-, rfl⟩, value, ⟨⟨-, hstop⟩, hvalue⟩, hresult⟩
    cases hlength
    cases hresult
    rw [Nat.add_sub_cancel_left] at hn hvalue
    rw [hheader, List.take_take, Nat.min_self] at hn
    have hlength : ace.length = aceLength := by
      rw [← hvalue, List.length_take, List.length_drop]
      omega
    rw [hlength]
    exact ⟨hn, hvalue.symm, rfl, hstop, hmin, haligned⟩
  · rintro ⟨hn, hbytes, rfl, hstop, hmin, haligned⟩
    refine ⟨(acl.drop offset).take 4, ⟨offset + 4, ⟨by omega, rfl⟩, ⟨Nat.le_add_right _ _, by omega⟩,
      by rw [Nat.add_sub_cancel_left]⟩, ace.length, ⟨ace.length, ⟨by decide, ?_, ?_⟩, (),
      ⟨hmin, haligned⟩, rfl⟩, offset + ace.length, ⟨by omega, rfl⟩, ace,
      ⟨⟨Nat.le_add_right _ _, hstop⟩, ?_⟩, rfl⟩
    · rw [List.length_take, List.length_drop]
      omega
    · rw [hheader, List.take_take, Nat.min_self]
      exact hn
    · rw [Nat.add_sub_cancel_left]
      exact hbytes.symm

section Walk

variable {acl : List UInt8} {offset : ℕ}

theorem checkedAce_ne_none (hsize : acl.length < 2 ^ 16) : checkedAce acl offset ≠ none := by
  unfold checkedAce
  refine panicking_bind_ne_none (boundedAce_ne_none acl offset) ?_
  rintro ⟨ace, stop⟩ hace
  obtain ⟨-, -, -, -, hmin, -⟩ := (boundedAce_ok_iff hsize).mp hace
  refine panicking_bind_ne_none (index_ne_none (by omega)) fun aceType _ => ?_
  refine panicking_bind_ne_none (refuseIf_ne_none _) fun _ _ => ?_
  refine panicking_bind_ne_none ?_ fun sid _ => ?_
  · unfold indexFrom accessAcePrefixSize
    rw [if_pos hmin]
    exact Option.some_ne_none _
  exact panicking_bind_ne_none (validateSidBytes_ne_none sid) fun _ _ => Option.some_ne_none _

/-- The checks of one round accept exactly the entries. -/
theorem checkedAce_ok_iff (hsize : acl.length < 2 ^ 16) {aceType : UInt8} {ace : List UInt8}
    {stop : ℕ} :
    checkedAce acl offset = some (.ok (aceType, ace, stop)) ↔
      EntryAt acl offset ⟨offset, aceType, ace⟩ ∧ stop = offset + ace.length := by
  have hindex (bytes : List UInt8) (start : ℕ) (sid : List UInt8) :
      indexFrom bytes start = some (.ok sid) ↔ start ≤ bytes.length ∧ bytes.drop start = sid := by
    unfold indexFrom
    split_ifs with h
    · constructor
      · intro heq
        cases heq
        exact ⟨h, rfl⟩
      · rintro ⟨-, rfl⟩
        rfl
    · constructor
      · intro heq
        cases heq
      · intro heq
        exact absurd heq.1 h
  unfold checkedAce rejectUnsupportedAce accessAcePrefixSize
  simp only [panicking_bind_ok_iff, index_ok_iff, refuseIf_ok_iff, hindex, validateSidBytes_ok_iff]
  constructor
  · rintro ⟨⟨bytes, stop'⟩, hace, t, htype, -, hsupported, sid, ⟨hmin, rfl⟩, -, hsid, hresult⟩
    cases hresult
    obtain ⟨hlength, hbytes, rfl, hinside, hge, haligned⟩ := (boundedAce_ok_iff hsize).mp hace
    refine ⟨⟨rfl, hlength, hbytes, hinside, hge, haligned, htype, ?_, hsid⟩, rfl⟩
    tauto
  · rintro ⟨h, rfl⟩
    refine ⟨(ace, offset + ace.length), (boundedAce_ok_iff hsize).mpr
      ⟨h.length, h.bytes, rfl, h.inside, h.length_ge, h.aligned⟩, aceType, h.aceType, (), ?_, _,
      ⟨h.length_ge, rfl⟩, (), h.sid, rfl⟩
    have hsupported := h.supported
    tauto

/-! ## The loop -/

variable {visitor : σ → UInt8 → List UInt8 → Panicking TrustError σ}

theorem walkFrom_ne_none (hsize : acl.length < 2 ^ 16)
    (hvisitor : ∀ offset entry, EntryAt acl offset entry →
      ∀ state, visitor state entry.aceType entry.bytes ≠ none) (count offset : ℕ) (state : σ) :
    walkFrom acl visitor count offset state ≠ none := by
  induction count generalizing offset state with
  | zero => exact Option.some_ne_none _
  | succ count ih =>
    rw [walkFrom]
    refine panicking_bind_ne_none (checkedAce_ne_none hsize) ?_
    rintro ⟨aceType, ace, stop⟩ hace
    have hentry := ((checkedAce_ok_iff hsize).mp hace).1
    exact panicking_bind_ne_none (hvisitor _ _ hentry state) fun state _ => ih stop state

/-- The visitor is called on the entries, in order. -/
theorem walkFrom_entries (hsize : acl.length < 2 ^ 16) {entries : List Entry}
    (h : Entries acl offset entries) (state : σ) :
    walkFrom acl visitor entries.length offset state =
      entries.foldlM (fun state entry => visitor state entry.aceType entry.bytes) state := by
  induction h generalizing state with
  | nil => rfl
  | @cons offset entry entries head tail ih =>
    obtain ⟨start, aceType, ace⟩ := entry
    have hstart : start = offset := head.start
    subst hstart
    have hace := (checkedAce_ok_iff hsize).mpr ⟨head, rfl⟩
    have hround : walkFrom acl visitor (entries.length + 1) start state =
        visitor state aceType ace >>= walkFrom acl visitor entries.length (start + ace.length) := by
      rw [walkFrom, hace]
      rfl
    rw [List.length_cons, hround, List.foldlM_cons]
    apply bind_congr
    intro state
    exact ih state

/-- Where the loop comes to its end, there are as many entries as it was told. -/
theorem entries_of_walkFrom (hsize : acl.length < 2 ^ 16) {count : ℕ} {state after : σ}
    (h : walkFrom acl visitor count offset state = some (.ok after)) :
    ∃ entries, Entries acl offset entries ∧ entries.length = count := by
  induction count generalizing offset state with
  | zero => exact ⟨[], .nil, rfl⟩
  | succ count ih =>
    rw [walkFrom, panicking_bind_ok_iff] at h
    obtain ⟨⟨aceType, ace, stop⟩, hace, h⟩ := h
    obtain ⟨hentry, rfl⟩ := (checkedAce_ok_iff hsize).mp hace
    rw [panicking_bind_ok_iff] at h
    obtain ⟨state, -, h⟩ := h
    obtain ⟨entries, hentries, hlength⟩ := ih h
    exact ⟨⟨offset, aceType, ace⟩ :: entries, .cons hentry hentries, congrArg (· + 1) hlength⟩

theorem Entries.start_ge {entries : List Entry} (h : Entries acl offset entries) :
    ∀ entry ∈ entries, offset ≤ entry.start := by
  induction h with
  | nil => simp
  | @cons offset entry entries head tail ih =>
    intro e he
    obtain rfl | hmem := List.mem_cons.mp he
    · exact head.start.ge
    · have hle := ih e hmem
      have hstart := head.start
      unfold Entry.stop at hle
      omega

theorem Entries.disjoint {entries : List Entry} (h : Entries acl offset entries) :
    entries.Pairwise fun a b => a.stop ≤ b.start := by
  induction h with
  | nil => exact .nil
  | cons head tail ih => exact List.pairwise_cons.mpr ⟨tail.start_ge, ih⟩

theorem Entries.mem {entries : List Entry} (h : Entries acl offset entries) :
    ∀ entry ∈ entries, EntryAt acl entry.start entry := by
  induction h with
  | nil => simp
  | @cons offset entry entries head tail ih =>
    intro e he
    obtain rfl | hmem := List.mem_cons.mp he
    · rw [head.start]
      exact head
    · exact ih e hmem

/-! ## The whole list -/

theorem validatedAclHeader_ne_none (acl : List UInt8) : validatedAclHeader acl ≠ none := by
  unfold validatedAclHeader
  refine panicking_bind_ne_none (refuseIf_ne_none _) fun _ _ => ?_
  refine panicking_bind_ne_none (readU16_ne_none _ _) fun _ _ => ?_
  exact panicking_bind_ne_none (refuseIf_ne_none _) fun _ _ => readU16_ne_none _ _

theorem validatedAclHeader_ok_iff {count : ℕ} :
    validatedAclHeader acl = some (.ok count) ↔ 8 ≤ acl.length ∧
      fromLeBytes ((acl.drop 2).take 2) = acl.length ∧
      fromLeBytes ((acl.drop 4).take 2) = count := by
  unfold validatedAclHeader aclHeaderSize
  simp only [panicking_bind_ok_iff, refuseIf_ok_iff, readU16_ok_iff, Nat.not_lt, not_not]
  constructor
  · rintro ⟨-, hmin, size, ⟨-, -, rfl⟩, -, hsize, -, -, hcount⟩
    exact ⟨hmin, hsize, hcount⟩
  · rintro ⟨hmin, hsize, hcount⟩
    exact ⟨(), hmin, _, ⟨by decide, by omega, rfl⟩, (), hsize, by decide, by omega, hcount⟩

theorem length_lt_of_header {count : ℕ} (h : validatedAclHeader acl = some (.ok count)) :
    acl.length < 2 ^ 16 := by
  obtain ⟨-, hsize, -⟩ := validatedAclHeader_ok_iff.mp h
  have hlt := fromLeBytes_lt ((acl.drop 2).take 2)
  have hle : ((acl.drop 2).take 2).length ≤ 2 := List.length_take_le _ _
  calc acl.length = fromLeBytes ((acl.drop 2).take 2) := hsize.symm
    _ < 256 ^ ((acl.drop 2).take 2).length := hlt
    _ ≤ 256 ^ 2 := Nat.pow_le_pow_right (by decide) hle
    _ = 2 ^ 16 := by norm_num

theorem walkAclAces_ne_none
    (hvisitor : ∀ offset entry, EntryAt acl offset entry →
      ∀ state, visitor state entry.aceType entry.bytes ≠ none) (state : σ) :
    walkAclAces acl visitor state ≠ none := by
  unfold walkAclAces
  refine panicking_bind_ne_none (validatedAclHeader_ne_none acl) fun count hcount => ?_
  exact walkFrom_ne_none (length_lt_of_header hcount) hvisitor count _ state

theorem WellFormed.walk {entries : List Entry} (h : WellFormed acl entries) (state : σ) :
    walkAclAces acl visitor state =
      entries.foldlM (fun state entry => visitor state entry.aceType entry.bytes) state := by
  have hheader : validatedAclHeader acl = some (.ok entries.length) :=
    validatedAclHeader_ok_iff.mpr ⟨h.length_ge, h.size, h.count⟩
  have hwalk : walkAclAces acl visitor state =
      walkFrom acl visitor entries.length aclHeaderSize state := by
    unfold walkAclAces
    rw [hheader]
    rfl
  rw [hwalk]
  exact walkFrom_entries (length_lt_of_header hheader) h.entries state

theorem wellFormed_of_walk {state after : σ}
    (h : walkAclAces acl visitor state = some (.ok after)) : ∃ entries, WellFormed acl entries := by
  unfold walkAclAces at h
  rw [panicking_bind_ok_iff] at h
  obtain ⟨count, hcount, h⟩ := h
  obtain ⟨entries, hentries, hlength⟩ := entries_of_walkFrom (length_lt_of_header hcount) h
  obtain ⟨hmin, hsize, hn⟩ := validatedAclHeader_ok_iff.mp hcount
  exact ⟨entries, hmin, hsize, hn.trans hlength.symm, hentries⟩

end Walk

/-! ## Writers -/

/-- The access mask of an entry. -/
def Entry.mask (entry : Entry) : ℕ := fromLeBytes ((entry.bytes.drop 4).take 4)

/-- The SID that an entry names. -/
def Entry.sid (entry : Entry) : Option (List UInt8) := sidAt (entry.bytes.drop 8)

/-- The entry gives a right to write or replace to a SID outside of the trusted ones. -/
def Entry.GrantsUntrusted (trusted : TrustedSids) (entry : Entry) : Prop :=
  entry.aceType = accessAllowedAceType ∧ entry.mask &&& writeOrReplaceMask ≠ 0 ∧
    ∃ sid, entry.sid = some sid ∧ trusted.contains sid = false

/-- The SID of an entry lies inside the entry. -/
theorem StartsWithSid.sidAt_eq {bytes : List UInt8} {n : ℕ} (h : StartsWithSid bytes n) :
    sidAt bytes = some (bytes.take (8 + 4 * n)) := by
  obtain ⟨count, hcount, rfl⟩ := Option.map_eq_some_iff.mp h.count
  have hfits := h.fits
  unfold sidAt sidHeaderSize sidSubauthoritySize getRange
  rw [hcount, Option.bind_eq_bind, Option.bind_some, if_pos ⟨Nat.zero_le _, by omega⟩, List.drop_zero,
    Nat.sub_zero, Nat.mul_comm]

section Writers

variable {acl : List UInt8} {offset : ℕ} {entry : Entry} {trusted : TrustedSids}

theorem EntryAt.mask_eq (h : EntryAt acl offset entry) :
    readU32 entry.bytes aceHeaderSize = some (.ok entry.mask) :=
  readU32_eq (by decide) h.length_ge

theorem EntryAt.sid_isSome (h : EntryAt acl offset entry) : ∃ sid, entry.sid = some sid := by
  obtain ⟨n, hsid⟩ := h.sid
  exact ⟨_, hsid.sidAt_eq⟩

/-- No SID is read beyond its entry. -/
theorem EntryAt.rejectUntrustedWriter_ne_none (h : EntryAt acl offset entry) :
    rejectUntrustedWriter trusted entry.aceType entry.bytes ≠ none := by
  obtain ⟨sid, hsid⟩ := h.sid_isSome
  have hread : sidAt (entry.bytes.drop accessAcePrefixSize) = some sid := hsid
  unfold rejectUntrustedWriter
  split_ifs with htype
  · exact Option.some_ne_none _
  · refine panicking_bind_ne_none (h.mask_eq ▸ Option.some_ne_none _) fun mask _ => ?_
    split_ifs with hwrites
    · exact Option.some_ne_none _
    · rw [hread]
      exact panicking_bind_ne_none (Option.some_ne_none _) fun _ _ => refuseIf_ne_none _

theorem EntryAt.rejectUntrustedWriter_ok_iff (h : EntryAt acl offset entry) {u : Unit} :
    rejectUntrustedWriter trusted entry.aceType entry.bytes = some (.ok u) ↔
      ¬ entry.GrantsUntrusted trusted := by
  obtain ⟨sid, hsid⟩ := h.sid_isSome
  have hread : sidAt (entry.bytes.drop accessAcePrefixSize) = some sid := hsid
  unfold rejectUntrustedWriter Entry.GrantsUntrusted
  split_ifs with htype
  · constructor
    · rintro - ⟨hallowed, -⟩
      exact htype hallowed
    · intro _
      rfl
  · rw [panicking_bind_ok_iff, h.mask_eq]
    constructor
    · rintro ⟨mask, hmask, hrest⟩ ⟨-, hwrites, sid', hsid', huntrusted⟩
      cases hmask
      rw [if_neg hwrites, panicking_bind_ok_iff, hread] at hrest
      obtain ⟨_, hsame, hrest⟩ := hrest
      cases hsame
      rw [hsid] at hsid'
      cases hsid'
      exact refuseIf_ok_iff.mp hrest huntrusted
    · intro hnot
      refine ⟨entry.mask, rfl, ?_⟩
      split_ifs with hwrites
      · rfl
      · rw [panicking_bind_ok_iff, hread]
        refine ⟨sid, rfl, refuseIf_ok_iff.mpr ?_⟩
        intro huntrusted
        exact hnot ⟨not_not.mp htype, hwrites, sid, hsid, huntrusted⟩

end Writers

/-- A fold of checks succeeds when every check does. -/
theorem foldlM_unit_ok_iff {check : Entry → Panicking TrustError Unit} {entries : List Entry} :
    (entries.foldlM (fun _ entry => check entry) () : Panicking TrustError Unit) = some (.ok ()) ↔
      ∀ entry ∈ entries, check entry = some (.ok ()) := by
  induction entries with
  | nil =>
    simp only [List.foldlM_nil, List.not_mem_nil, false_imp_iff, implies_true, iff_true]
    rfl
  | cons entry entries ih =>
    rw [List.foldlM_cons, panicking_bind_ok_iff, List.forall_mem_cons, ← ih]
    simp only [Unique.exists_iff, PUnit.default_eq_unit]

/-- The walker, for every byte string: it never indexes out of range; with a visitor that succeeds it
    accepts exactly the well-formed lists; it calls the visitor on the entries, in order, whose
    slices are disjoint; and with `reject_untrusted_writer` it accepts exactly the well-formed lists
    in which no entry grants write access to an untrusted SID, without reading beyond an entry. -/
theorem walkAclAces_exact (acl : List UInt8) (trusted : TrustedSids) :
    (∀ (σ : Type) (visitor : σ → UInt8 → List UInt8 → Panicking TrustError σ) (state : σ),
      (∀ state aceType ace, visitor state aceType ace ≠ none) →
        walkAclAces acl visitor state ≠ none) ∧
    (∀ (σ : Type) (visitor : σ → UInt8 → List UInt8 → σ) (state : σ),
      (∃ after, walkAclAces acl (fun state aceType ace => return visitor state aceType ace) state =
        some (.ok after)) ↔ ∃ entries, WellFormed acl entries) ∧
    (∀ entries, WellFormed acl entries →
      (∀ (σ : Type) (visitor : σ → UInt8 → List UInt8 → Panicking TrustError σ) (state : σ),
        walkAclAces acl visitor state =
          entries.foldlM (fun state entry => visitor state entry.aceType entry.bytes) state) ∧
      (∀ entry ∈ entries, entry.stop ≤ acl.length ∧
        entry.bytes = (acl.drop entry.start).take entry.bytes.length) ∧
      entries.Pairwise fun a b => a.stop ≤ b.start) ∧
    walkAclAces acl (fun _ aceType ace => rejectUntrustedWriter trusted aceType ace) () ≠ none ∧
    (walkAclAces acl (fun _ aceType ace => rejectUntrustedWriter trusted aceType ace) () =
        some (.ok ()) ↔
      ∃ entries, WellFormed acl entries ∧ ∀ entry ∈ entries, ¬ entry.GrantsUntrusted trusted) := by
  refine ⟨?_, ?_, ?_, ?_, ?_⟩
  · intro σ visitor state hvisitor
    exact walkAclAces_ne_none (fun _ _ _ _ => hvisitor _ _ _) state
  · intro σ visitor state
    constructor
    · rintro ⟨after, h⟩
      exact wellFormed_of_walk h
    · rintro ⟨entries, hentries⟩
      refine ⟨entries.foldl (fun state entry => visitor state entry.aceType entry.bytes) state, ?_⟩
      rw [hentries.walk]
      exact List.foldlM_pure
  · intro entries hentries
    refine ⟨fun σ visitor state => hentries.walk state, ?_, hentries.entries.disjoint⟩
    intro entry hmem
    have hentry := hentries.entries.mem entry hmem
    exact ⟨hentry.inside, hentry.bytes⟩
  · exact walkAclAces_ne_none (fun _ _ hentry _ => hentry.rejectUntrustedWriter_ne_none) ()
  · constructor
    · intro h
      obtain ⟨entries, hentries⟩ := wellFormed_of_walk h
      rw [hentries.walk, foldlM_unit_ok_iff] at h
      refine ⟨entries, hentries, ?_⟩
      intro entry hmem
      exact (hentries.entries.mem entry hmem).rejectUntrustedWriter_ok_iff.mp (h entry hmem)
    · rintro ⟨entries, hentries, htrusted⟩
      rw [hentries.walk, foldlM_unit_ok_iff]
      intro entry hmem
      exact (hentries.entries.mem entry hmem).rejectUntrustedWriter_ok_iff.mpr (htrusted entry hmem)

end BaselineOps.Trust
