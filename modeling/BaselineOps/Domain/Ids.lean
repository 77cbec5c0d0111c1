import Mathlib
import BaselineOps.Domain.Json

/-!
# Identifiers

Model of `baselineops-domain/src/ids.rs`. A UUID is its sixteen bytes; `Display` prints the
lowercase hyphenated form. `CapabilityId` carries the check of `CapabilityId::new`.
-/

namespace BaselineOps.Domain

open BaselineOps.Lib

/-- `uuid::Uuid`. -/
structure Uuid where
  bytes : Vector UInt8 16
  deriving DecidableEq

/-- The 36 characters of the hyphenated form, in groups of 8, 4, 4, 4 and 12 digits. -/
def Uuid.chars (u : Uuid) : List Char :=
  let h := hexBytes u.bytes.toList
  h.take 8 ++ '-' :: ((h.drop 8).take 4 ++ '-' :: ((h.drop 12).take 4 ++
    '-' :: ((h.drop 16).take 4 ++ '-' :: h.drop 20)))

/-- `Uuid`'s `Display` (line 48: `self.0.fmt(formatter)`). -/
def Uuid.toText (u : Uuid) : String := String.ofList u.chars

theorem Uuid.length_hex (u : Uuid) : (hexBytes u.bytes.toList).length = 32 := by
  simp

theorem Uuid.length_chars (u : Uuid) : u.chars.length = 36 := by
  have h := u.length_hex
  simp only [Uuid.chars, List.length_append, List.length_cons, List.length_take, List.length_drop,
    h]
  omega

/-- Dropping the hyphens gives the digits back. -/
theorem Uuid.toText_injective : Function.Injective Uuid.toText := by
  intro u v h
  have hu := u.length_hex
  have hv := v.length_hex
  have hchars : u.chars = v.chars := String.ofList_injective h
  have hhex : hexBytes u.bytes.toList = hexBytes v.bytes.toList := by
    revert hchars
    simp only [Uuid.chars]
    generalize hexBytes u.bytes.toList = a at hu
    generalize hexBytes v.bytes.toList = b at hv
    intro hchars
    obtain ⟨h1, hchars⟩ := List.append_inj hchars (by simp [hu, hv])
    obtain ⟨h2, hchars⟩ := List.append_inj (List.tail_eq_of_cons_eq hchars) (by simp [hu, hv])
    obtain ⟨h3, hchars⟩ := List.append_inj (List.tail_eq_of_cons_eq hchars) (by simp [hu, hv])
    obtain ⟨h4, hchars⟩ := List.append_inj (List.tail_eq_of_cons_eq hchars) (by simp [hu, hv])
    have h5 := List.tail_eq_of_cons_eq hchars
    have split : ∀ l : List Char, l = l.take 8 ++ ((l.drop 8).take 4 ++ ((l.drop 12).take 4 ++
        ((l.drop 16).take 4 ++ l.drop 20))) := by
      intro l
      conv_lhs => rw [← List.take_append_drop 8 l, ← List.take_append_drop 4 (l.drop 8),
        List.drop_drop, ← List.take_append_drop 4 (l.drop (8 + 4)), List.drop_drop,
        ← List.take_append_drop 4 (l.drop (8 + 4 + 4)), List.drop_drop]
    rw [split a, split b, h1, h2, h3, h4, h5]
  have hbytes : u.bytes.toList = v.bytes.toList := hexBytes_inj hhex
  cases u
  cases v
  exact congrArg Uuid.mk (Vector.toList_inj.mp hbytes)

theorem Uuid.mem_chars {u : Uuid} {c : Char} (h : c ∈ u.chars) :
    c = '-' ∨ c ∈ "0123456789abcdef".toList := by
  simp only [Uuid.chars, List.mem_append, List.mem_cons] at h
  rcases h with h | h | h | h | h | h | h | h | h
  · exact .inr (mem_hexBytes (List.mem_of_mem_take h))
  · exact .inl h
  · exact .inr (mem_hexBytes (List.mem_of_mem_drop (List.mem_of_mem_take h)))
  · exact .inl h
  · exact .inr (mem_hexBytes (List.mem_of_mem_drop (List.mem_of_mem_take h)))
  · exact .inl h
  · exact .inr (mem_hexBytes (List.mem_of_mem_drop (List.mem_of_mem_take h)))
  · exact .inl h
  · exact .inr (mem_hexBytes (List.mem_of_mem_drop h))

theorem Uuid.toText_ne_empty (u : Uuid) : u.toText ≠ "" := by
  intro h
  have hlen := congrArg (fun s : String => s.toList.length) h
  simp [Uuid.toText, u.length_chars] at hlen

/-- The text of a UUID is ASCII. -/
theorem Uuid.length_utf8 (u : Uuid) : (utf8 u.toText).length = 36 := by
  rw [length_utf8_ascii, Uuid.toText, String.toList_ofList, u.length_chars]
  intro c hc
  rw [Uuid.toText, String.toList_ofList] at hc
  rcases Uuid.mem_chars hc with rfl | hc
  · decide
  · exact hex_lt c hc

/-! ## `uuid_id!` -/

/-- Stable identity of a profile. -/
@[ext]
structure ProfileId where
  uuid : Uuid
  deriving DecidableEq

/-- Stable identity of a signed planning decision. -/
@[ext]
structure PlanId where
  uuid : Uuid
  deriving DecidableEq

/-- Stable identity of one execution result. -/
@[ext]
structure ResultId where
  uuid : Uuid
  deriving DecidableEq

/-- Stable identity of one worker execution attempt. -/
@[ext]
structure RunId where
  uuid : Uuid
  deriving DecidableEq

/-- Stable identity of an action in a profile or plan. -/
@[ext]
structure ActionId where
  uuid : Uuid
  deriving DecidableEq

/-- Stable identity of a retained execution artifact. -/
@[ext]
structure ArtifactId where
  uuid : Uuid
  deriving DecidableEq

/-! ## `CapabilityId` -/

/-- The checks of `CapabilityId::new` (lines 98–110), on the UTF-8 bytes of the key. -/
def capabilityIdValid (value : String) : Bool :=
  let bytes := utf8 value
  !bytes.isEmpty && bytes.length ≤ 128 && bytes.all fun b =>
    (0x30 ≤ b && b ≤ 0x39) || (0x41 ≤ b && b ≤ 0x5a) || (0x61 ≤ b && b ≤ 0x7a) ||
      b == 0x2e || b == 0x2d || b == 0x5f

/-- A bounded, non-empty capability key. -/
@[ext]
structure CapabilityId where
  asStr : String
  valid : capabilityIdValid asStr = true
  deriving DecidableEq

theorem CapabilityId.length_utf8 (c : CapabilityId) : (utf8 c.asStr).length ≤ 128 := by
  have h := c.valid
  simp only [capabilityIdValid, Bool.and_eq_true, decide_eq_true_eq] at h
  exact h.1.2

end BaselineOps.Domain
