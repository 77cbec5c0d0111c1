import Mathlib
import BaselineOps.Lib.Bisect
import BaselineOps.Lib.Decimal
import BaselineOps.Lib.EState

/-!
# SID strings of an allow-list

Model of `LocalAdminsParameters::validate` and `is_canonical_sid` (`local_admins_policy.rs`, lines
25–47 and 246–259), with `str::parse::<u32>` as the standard library documents it. `Sid` is what such a
string denotes and `sidText` the string that Windows writes for it.

* `validate_canonical_iff`: the accepted strings of a list are those of Windows exactly when no
  component has a plus sign or a leading zero, which the parser allows.
-/

namespace BaselineOps.Capabilities

open BaselineOps.Lib

/-! ## The checks -/

/-- `MAX_ALLOWED_SIDS` (line 15). -/
def maxAllowedSids : ℕ := 4096

/-- The digits behind an optional plus sign. -/
def unsignedDigits : List Char → List Char
  | '+' :: rest => rest
  | text => text

/-- `str::parse::<u32>`. -/
def parseU32 (text : List Char) : Option UInt32 :=
  let digits := unsignedDigits text
  if digits ≠ [] ∧ digits.all Char.isDigit ∧ Nat.ofDigitChars 10 digits 0 < 2 ^ 32 then
    some (UInt32.ofNat (Nat.ofDigitChars 10 digits 0))
  else none

/-- `is_canonical_sid` (lines 246–259). -/
def isCanonicalSid (value : String) : Bool :=
  match value.toList.splitOn '-' with
  | first :: second :: parts =>
    first = ['S'] ∧ second = ['1'] ∧ (∀ part ∈ parts, part ≠ [] ∧ (parseU32 part).isSome) ∧
      2 ≤ parts.length ∧ value.utf8ByteSize ≤ 184
  | _ => false

/-- `LocalAdminsParameters` (lines 20–23). -/
structure LocalAdminsParameters where
  allowedSids : List String := []

/-- `LocalAdminsParameters::validate` (lines 31–47). -/
def LocalAdminsParameters.validate (parameters : LocalAdminsParameters) : Except String Unit := do
  failIf (maxAllowedSids < parameters.allowedSids.length)
    "allowed_sids exceeds the bounded 4096-entry limit"
  parameters.allowedSids.forM fun sid =>
    failIf (isCanonicalSid sid = false) "allowed_sids must contain canonical SID strings"
  failIf ((sortDedup parameters.allowedSids).length ≠ parameters.allowedSids.length)
    "allowed_sids must not contain duplicates"

/-! ## What the strings denote -/

/-- A SID of revision 1. -/
structure Sid where
  identifierAuthority : Fin (2 ^ 48)
  subAuthorities : List UInt32
  deriving DecidableEq

/-- The authority as Windows writes it: in decimal below `2^32`, else as twelve hexadecimal digits. -/
def authorityText (authority : ℕ) : List Char :=
  if authority < 2 ^ 32 then Nat.toDigits 10 authority
  else '0' :: 'x' :: (List.range 12).reverse.map fun i => Nat.digitChar (authority / 16 ^ i % 16)

/-- The components of the string of a SID. -/
def sidParts (sid : Sid) : List (List Char) :=
  ['S'] :: ['1'] :: authorityText sid.identifierAuthority ::
    sid.subAuthorities.map fun sub => Nat.toDigits 10 sub.toNat

/-- The string of a SID. -/
def sidText (sid : Sid) : String := String.ofList (['-'].intercalate (sidParts sid))

theorem UInt32.toNat_lt_authority (n : UInt32) : n.toNat < 2 ^ 48 :=
  Nat.lt_trans n.toNat_lt (by norm_num)

/-- The SID that a string denotes when its components are read as numbers. -/
def sidOf (value : String) : Option Sid :=
  match value.toList.splitOn '-' with
  | first :: second :: authority :: subs =>
    if first = ['S'] ∧ second = ['1'] then do
      let authority ← parseU32 authority
      let subs ← subs.mapM parseU32
      return ⟨⟨authority.toNat, UInt32.toNat_lt_authority authority⟩, subs⟩
    else none
  | _ => none

/-- A component without a plus sign and without a leading zero. -/
def PlainPart (part : List Char) : Prop :=
  part.head? ≠ some '+' ∧ (part.head? = some '0' → part.length = 1)

/-- A string whose components behind `S-1` are plain. -/
def PlainText (value : String) : Prop := ∀ part ∈ (value.toList.splitOn '-').drop 2, PlainPart part

instance (part : List Char) : Decidable (PlainPart part) := inferInstanceAs (Decidable (_ ∧ _))

instance (value : String) : Decidable (PlainText value) := inferInstanceAs (Decidable (∀ _ ∈ _, _))

/-! ## Components -/

theorem parseU32_eq_some_iff {text : List Char} {n : UInt32} :
    parseU32 text = some n ↔ unsignedDigits text ≠ [] ∧ (∀ c ∈ unsignedDigits text, c.isDigit = true) ∧
      Nat.ofDigitChars 10 (unsignedDigits text) 0 = n.toNat := by
  unfold parseU32
  simp only
  constructor
  · intro h
    split_ifs at h with hdigits
    obtain ⟨hne, hall, hlt⟩ := hdigits
    rw [Option.some.injEq] at h
    subst h
    exact ⟨hne, List.all_eq_true.mp hall, by rw [UInt32.toNat_ofNat', Nat.mod_eq_of_lt hlt]⟩
  · rintro ⟨hne, hall, hvalue⟩
    rw [if_pos ⟨hne, List.all_eq_true.mpr hall, by rw [hvalue]; exact n.toNat_lt⟩, hvalue,
      UInt32.ofNat_toNat]

theorem unsignedDigits_of_head {text : List Char} (h : text.head? ≠ some '+') :
    unsignedDigits text = text := by
  unfold unsignedDigits
  split
  · exact absurd rfl h
  · rfl

theorem head_ne_plus_of_digits {text : List Char} (h : ∀ c ∈ text, c.isDigit = true) :
    text.head? ≠ some '+' := by
  intro hhead
  exact absurd (h '+' (List.mem_of_mem_head? hhead)) (by decide)

theorem parseU32_toDigits (n : UInt32) : parseU32 (Nat.toDigits 10 n.toNat) = some n := by
  obtain ⟨hne, hdigits, -⟩ := plainDigits_toDigits n.toNat
  rw [parseU32_eq_some_iff, unsignedDigits_of_head (head_ne_plus_of_digits hdigits)]
  exact ⟨hne, hdigits, Nat.ofDigitChars_ten_toDigits⟩

/-- A component is the text of its value exactly when it is plain. -/
theorem eq_toDigits_iff {text : List Char} {n : UInt32} (h : parseU32 text = some n) :
    text = Nat.toDigits 10 n.toNat ↔ PlainPart text := by
  constructor
  · rintro rfl
    obtain ⟨-, hdigits, hzero⟩ := plainDigits_toDigits n.toNat
    exact ⟨head_ne_plus_of_digits hdigits, hzero⟩
  · rintro ⟨hplus, hzero⟩
    rw [parseU32_eq_some_iff, unsignedDigits_of_head hplus] at h
    obtain ⟨hne, hdigits, hvalue⟩ := h
    rw [← hvalue]
    exact (toDigits_ofDigitChars ⟨hne, hdigits, hzero⟩).symm

theorem mapM_parseU32_eq_some_iff {texts : List (List Char)} {ns : List UInt32} :
    texts.mapM parseU32 = some ns ↔
      List.Forall₂ (fun text n => parseU32 text = some n) texts ns := by
  induction texts generalizing ns with
  | nil => simp [eq_comm]
  | cons text texts ih =>
    rw [List.mapM_cons, List.forall₂_cons_left_iff]
    simp only [Option.bind_eq_bind, Option.bind_eq_some_iff, ih]
    constructor
    · rintro ⟨n, hn, ns', hns, h⟩
      exact ⟨n, ns', hn, hns, (Option.some.inj h).symm⟩
    · rintro ⟨n, ns', hn, hns, rfl⟩
      exact ⟨n, hn, ns', hns, rfl⟩

theorem eq_map_toDigits_iff {texts : List (List Char)} {ns : List UInt32}
    (h : texts.mapM parseU32 = some ns) :
    texts = ns.map (fun n => Nat.toDigits 10 n.toNat) ↔ ∀ text ∈ texts, PlainPart text := by
  rw [mapM_parseU32_eq_some_iff] at h
  induction h with
  | nil => simp
  | cons hpart hparts ih =>
    rw [List.map_cons, List.cons.injEq, List.forall_mem_cons, eq_toDigits_iff hpart, ih]

theorem mapM_toDigits (ns : List UInt32) :
    (ns.map fun n => Nat.toDigits 10 n.toNat).mapM parseU32 = some ns := by
  rw [mapM_parseU32_eq_some_iff, List.forall₂_map_left_iff]
  exact List.forall₂_same.mpr fun n _ => parseU32_toDigits n

/-! ## Accepted strings -/

/-- The components of an accepted string. -/
theorem isCanonicalSid_parts {value : String} (h : isCanonicalSid value = true) :
    ∃ authority subs n ns, value.toList.splitOn '-' = ['S'] :: ['1'] :: authority :: subs ∧
      parseU32 authority = some n ∧ subs.mapM parseU32 = some ns := by
  unfold isCanonicalSid at h
  split at h
  · rename_i first second parts hsplit
    obtain ⟨rfl, rfl, hparts, hlength, -⟩ := of_decide_eq_true h
    cases parts with
    | nil => exact absurd hlength (by decide)
    | cons authority subs =>
      rw [List.forall_mem_cons] at hparts
      obtain ⟨n, hn⟩ := Option.isSome_iff_exists.mp hparts.1.2
      have hsubs : ∃ ns, subs.mapM parseU32 = some ns := by
        have hall := hparts.2
        clear hsplit hlength hparts h
        induction subs with
        | nil => exact ⟨[], rfl⟩
        | cons sub subs ih =>
          rw [List.forall_mem_cons] at hall
          obtain ⟨m, hm⟩ := Option.isSome_iff_exists.mp hall.1.2
          obtain ⟨ms, hms⟩ := ih hall.2
          exact ⟨m :: ms, mapM_parseU32_eq_some_iff.mpr (.cons hm (mapM_parseU32_eq_some_iff.mp hms))⟩
      obtain ⟨ns, hns⟩ := hsubs
      exact ⟨authority, subs, n, ns, hsplit, hn, hns⟩
  · cases h

theorem sidOf_eq {value : String} {authority : List Char} {subs : List (List Char)} {n : UInt32}
    {ns : List UInt32} (hsplit : value.toList.splitOn '-' = ['S'] :: ['1'] :: authority :: subs)
    (hn : parseU32 authority = some n) (hns : subs.mapM parseU32 = some ns) :
    sidOf value = some ⟨⟨n.toNat, UInt32.toNat_lt_authority n⟩, ns⟩ := by
  unfold sidOf
  rw [hsplit]
  simp only [and_self, if_true, hn, hns]
  rfl

theorem splitOn_injective {a b : String} (h : a.toList.splitOn '-' = b.toList.splitOn '-') : a = b := by
  rw [← String.toList_inj, ← @List.intercalate_splitOn _ a.toList _ _ '-', h,
    List.intercalate_splitOn]

theorem not_mem_toDigits_dash (n : ℕ) : '-' ∉ Nat.toDigits 10 n := fun h =>
  absurd (Nat.isDigit_of_mem_toDigits (by norm_num) (by norm_num) h) (by decide)

theorem not_mem_sidParts_dash (sid : Sid) : ∀ part ∈ sidParts sid, '-' ∉ part := by
  intro part hpart
  simp only [sidParts, List.mem_cons, List.mem_map] at hpart
  rcases hpart with rfl | rfl | rfl | ⟨sub, -, rfl⟩
  · decide
  · decide
  · unfold authorityText
    split_ifs with hsmall
    · exact not_mem_toDigits_dash _
    · have hdigit : ∀ k < 16, Nat.digitChar k ≠ '-' := by decide
      simp only [List.mem_cons, List.mem_map, not_or, not_exists, not_and]
      exact ⟨by decide, by decide, fun i _ => hdigit _ (Nat.mod_lt _ (by norm_num))⟩
  · exact not_mem_toDigits_dash _

theorem splitOn_sidText (sid : Sid) : (sidText sid).toList.splitOn '-' = sidParts sid := by
  rw [sidText, String.toList_ofList]
  exact List.splitOn_intercalate '-' (not_mem_sidParts_dash sid) (List.cons_ne_nil _ _)

/-- An accepted string is the one of its SID exactly when its components are plain. -/
theorem eq_sidText_iff {value : String} (h : isCanonicalSid value = true) :
    ∃ sid, sidOf value = some sid ∧ (value = sidText sid ↔ PlainText value) := by
  obtain ⟨authority, subs, n, ns, hsplit, hn, hns⟩ := isCanonicalSid_parts h
  refine ⟨_, sidOf_eq hsplit hn hns, ?_⟩
  have hparts : value = sidText ⟨⟨n.toNat, UInt32.toNat_lt_authority n⟩, ns⟩ ↔
      authority = Nat.toDigits 10 n.toNat ∧ subs = ns.map fun sub => Nat.toDigits 10 sub.toNat := by
    rw [show value = sidText ⟨⟨n.toNat, UInt32.toNat_lt_authority n⟩, ns⟩ ↔
      value.toList.splitOn '-' = (sidText ⟨⟨n.toNat, UInt32.toNat_lt_authority n⟩, ns⟩).toList.splitOn '-'
      from ⟨fun h => by rw [← h], splitOn_injective⟩, splitOn_sidText, hsplit]
    simp [sidParts, authorityText, n.toNat_lt]
  rw [hparts, eq_toDigits_iff hn, eq_map_toDigits_iff hns, PlainText, hsplit]
  simp only [List.drop_succ_cons, List.drop_zero, List.forall_mem_cons]

/-- An accepted string that Windows writes for a SID denotes this SID. -/
theorem sidOf_sidText {sid : Sid} (h : isCanonicalSid (sidText sid) = true) :
    sidOf (sidText sid) = some sid := by
  obtain ⟨authority, subs, n, ns, hsplit, hn, hns⟩ := isCanonicalSid_parts h
  rw [sidOf_eq hsplit hn hns]
  rw [splitOn_sidText, sidParts, List.cons.injEq, List.cons.injEq, List.cons.injEq] at hsplit
  obtain ⟨-, -, rfl, rfl⟩ := hsplit
  have hsubs : ns = sid.subAuthorities := by
    rw [mapM_toDigits, Option.some.injEq] at hns
    exact hns.symm
  have hauthority : n.toNat = sid.identifierAuthority := by
    unfold authorityText at hn
    split_ifs at hn with hsmall
    · have hback := parseU32_toDigits (UInt32.ofNat sid.identifierAuthority)
      rw [UInt32.toNat_ofNat', Nat.mod_eq_of_lt hsmall, hn, Option.some.injEq] at hback
      rw [hback, UInt32.toNat_ofNat', Nat.mod_eq_of_lt hsmall]
    · -- an `x` is no digit
      rw [parseU32_eq_some_iff, unsignedDigits_of_head (by simp)] at hn
      exact absurd (hn.2.1 'x' (by simp)) (by decide)
  rw [Option.some.injEq]
  cases sid
  simp only [Sid.mk.injEq]
  exact ⟨Fin.ext hauthority, hsubs⟩

/-! ## Accepted lists -/

/-- The strings of a list stand for SIDs one to one: each is the string of its SID, no SID occurs twice,
    and comparing with the string of a SID is comparing with the SID. -/
structure CanonicalList (allowed : List String) : Prop where
  text : ∀ value ∈ allowed, ∃ sid, sidOf value = some sid ∧ value = sidText sid
  distinct : (allowed.map sidOf).Nodup
  comparable : ∀ value ∈ allowed, ∀ sid, value = sidText sid ↔ sidOf value = some sid

theorem validate_ok_iff {parameters : LocalAdminsParameters} :
    parameters.validate = .ok () ↔ parameters.allowedSids.length ≤ maxAllowedSids ∧
      (∀ value ∈ parameters.allowedSids, isCanonicalSid value = true) ∧ parameters.allowedSids.Nodup := by
  have hcanonical : (parameters.allowedSids.forM fun sid =>
      failIf (isCanonicalSid sid = false) "allowed_sids must contain canonical SID strings") = .ok () ↔
      ∀ value ∈ parameters.allowedSids, isCanonicalSid value = true := by
    simp only [except_forM_ok_iff, failIf_ok_iff, Bool.not_eq_false]
  rw [← length_sortDedup_eq_iff, ← hcanonical, ← Nat.not_lt]
  simp only [LocalAdminsParameters.validate, except_bind_ok_iff, failIf_ok_iff, Decidable.not_not]
  constructor
  · rintro ⟨_, hlength, _, hall, hunique⟩
    exact ⟨hlength, hall, hunique⟩
  · rintro ⟨hlength, hall, hunique⟩
    exact ⟨(), hlength, (), hall, hunique⟩

theorem canonicalList_iff {allowed : List String}
    (haccepted : ∀ value ∈ allowed, isCanonicalSid value = true) (hnodup : allowed.Nodup) :
    CanonicalList allowed ↔ ∀ value ∈ allowed, PlainText value := by
  constructor
  · intro hlist value hvalue
    obtain ⟨sid, hsid, hplain⟩ := eq_sidText_iff (haccepted value hvalue)
    exact hplain.mp ((hlist.comparable value hvalue sid).mpr hsid)
  · intro hplain
    have htext : ∀ value ∈ allowed, ∃ sid, sidOf value = some sid ∧ value = sidText sid := by
      intro value hvalue
      obtain ⟨sid, hsid, heq⟩ := eq_sidText_iff (haccepted value hvalue)
      exact ⟨sid, hsid, heq.mpr (hplain value hvalue)⟩
    refine ⟨htext, List.Nodup.map_on ?_ hnodup, ?_⟩
    · intro a ha b hb hab
      obtain ⟨sid, hsid, rfl⟩ := htext a ha
      obtain ⟨sid', hsid', rfl⟩ := htext b hb
      rw [hsid, hsid', Option.some.injEq] at hab
      rw [hab]
    · intro value hvalue sid
      obtain ⟨sid', hsid', heq⟩ := htext value hvalue
      constructor
      · rintro rfl
        exact sidOf_sidText (haccepted _ hvalue)
      · intro hsid
        rw [hsid', Option.some.injEq] at hsid
        rw [heq, hsid]

/-- An accepted string is canonical exactly when its components are plain, and the strings of an accepted
    list stand for SIDs one to one exactly when all are. -/
theorem validate_canonical_iff (value : String) (parameters : LocalAdminsParameters) :
    (isCanonicalSid value = true →
      ((∃ sid, sidOf value = some sid ∧ value = sidText sid) ↔ PlainText value)) ∧
    (parameters.validate = .ok () →
      (CanonicalList parameters.allowedSids ↔ ∀ value ∈ parameters.allowedSids, PlainText value)) := by
  constructor
  · intro hvalue
    obtain ⟨sid, hsid, hplain⟩ := eq_sidText_iff hvalue
    rw [← hplain]
    constructor
    · rintro ⟨sid', hsid', heq⟩
      rw [hsid, Option.some.injEq] at hsid'
      rwa [hsid']
    · intro heq
      exact ⟨sid, hsid, heq⟩
  · intro hvalid
    obtain ⟨-, haccepted, hnodup⟩ := validate_ok_iff.mp hvalid
    exact canonicalList_iff haccepted hnodup

/-- A list of the Administrators group and of a domain account. -/
theorem validate_canonical_sample :
    (∃ sid, sidOf "S-1-5-32-544" = some sid ∧ "S-1-5-32-544" = sidText sid) ∧
      CanonicalList ["S-1-5-32-544", "S-1-5-21-1-2-3-1001"] := by
  have h := validate_canonical_iff "S-1-5-32-544" ⟨["S-1-5-32-544", "S-1-5-21-1-2-3-1001"]⟩
  exact ⟨(h.1 (by decide +kernel)).mpr (by decide +kernel), (h.2 (by decide +kernel)).mpr (by decide +kernel)⟩

/-- Two spellings of one SID are accepted together, one of them with a sign and a leading zero. -/
theorem validate_accepts_two_spellings :
    (LocalAdminsParameters.mk ["S-1-5-32-544", "S-1-5-+32-0544"]).validate = .ok () ∧
      sidOf "S-1-5-+32-0544" = sidOf "S-1-5-32-544" ∧ (sidOf "S-1-5-32-544").isSome = true ∧
      ∀ sid, "S-1-5-+32-0544" ≠ sidText sid := by
  refine ⟨by decide +kernel, by decide +kernel, by decide +kernel, fun sid hsid => ?_⟩
  have haccepted : isCanonicalSid "S-1-5-+32-0544" = true := by decide +kernel
  obtain ⟨sid', hsid', hplain⟩ := eq_sidText_iff haccepted
  have hback := @sidOf_sidText sid (by rw [← hsid]; exact haccepted)
  rw [← hsid, hsid', Option.some.injEq] at hback
  exact absurd (hplain.mp (by rw [hback, hsid])) (by decide +kernel)

end BaselineOps.Capabilities
