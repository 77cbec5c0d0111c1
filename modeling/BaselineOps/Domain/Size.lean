import Mathlib
import BaselineOps.Domain.Traverse
import BaselineOps.Domain.Ids

/-!
# The length of canonical text

`Value.weight` bounds the length of the canonical text of a value, part by part: digests and
identifiers count by their length alone, whatever their digits.

* `length_canonicalJsonBytes_le`: canonical text is no longer than the weight.
-/

namespace BaselineOps.Domain

open BaselineOps.Lib

mutual

/-- A bound for the length of the canonical text: every item and member with its comma. -/
def Value.weight (d : Deps) : Value → ℕ
  | .null => 4
  | .bool _ => 5
  | .number n => (utf8 (numberText d n)).length
  | .string s => (jsonString s).length
  | .array items => 2 + Value.weightItems d items
  | .object members => 2 + Value.weightMembers d members

/-- The items, each with a comma. -/
def Value.weightItems (d : Deps) : List Value → ℕ
  | [] => 0
  | v :: vs => v.weight d + 1 + Value.weightItems d vs

/-- The weights of the members. -/
def Value.weightMembers (d : Deps) : List (String × Value) → ℕ
  | [] => 0
  | m :: ms => Value.weightMember d m + Value.weightMembers d ms

/-- The key, a colon, a comma and the value. -/
def Value.weightMember (d : Deps) : String × Value → ℕ
  | (k, v) => (jsonString k).length + 2 + v.weight d

end

theorem Value.weightItems_eq_sum (d : Deps) (items : List Value) :
    Value.weightItems d items = (items.map fun v => v.weight d + 1).sum := by
  induction items with
  | nil => rfl
  | cons v vs ih => simp [Value.weightItems, ih]

theorem Value.weightMembers_eq_sum (d : Deps) (members : List (String × Value)) :
    Value.weightMembers d members =
      (members.map fun m => (jsonString m.1).length + 2 + m.2.weight d).sum := by
  induction members with
  | nil => rfl
  | cons m ms ih =>
    obtain ⟨k, v⟩ := m
    simp [Value.weightMembers, Value.weightMember, ih]

theorem Value.weight_sortKeys (d : Deps) (v : Value) : (sortKeys v).weight d = v.weight d := by
  induction v using Value.induction with
  | null | bool b | number n | string s => rfl
  | array items ih =>
    rw [sortKeys, sortKeysItems_eq_map, Value.weight, Value.weight, Value.weightItems_eq_sum,
      Value.weightItems_eq_sum, List.map_map]
    refine congrArg (2 + List.sum ·) (List.map_congr_left fun v hv => ?_)
    exact congrArg (· + 1) (ih v hv)
  | object members ih =>
    rw [sortKeys, Value.weight, Value.weight, Value.weightMembers_eq_sum,
      Value.weightMembers_eq_sum, ((sortKeys_object_perm members).map _).sum_eq, List.map_map]
    refine congrArg (2 + List.sum ·) (List.map_congr_left fun m hm => ?_)
    exact congrArg ((jsonString m.1).length + 2 + ·) (ih m hm)

theorem length_intercalate_le {x : UInt8} (l : List (List UInt8)) :
    (List.intercalate [x] l).length ≤ (l.map fun y => y.length + 1).sum := by
  induction l with
  | nil => simp
  | cons y l ih =>
    cases l with
    | nil => simp
    | cons z l =>
      rw [List.intercalate_cons_cons, List.length_append, List.length_append, List.map_cons,
        List.sum_cons, List.length_singleton]
      omega

theorem length_plainBytes_le (d : Deps) (v : Value) : (plainBytes d v).length ≤ v.weight d := by
  induction v using Value.induction with
  | null => exact show (utf8 "null").length ≤ 4 by decide
  | bool b =>
    cases b
    · exact show (utf8 "false").length ≤ 5 by decide
    · exact show (utf8 "true").length ≤ 5 by decide
  | number n => exact le_rfl
  | string s => exact le_rfl
  | array items ih =>
    have hsum := length_intercalate_le (x := 0x2c) (items.map (plainBytes d))
    rw [List.map_map] at hsum
    have hle : (items.map ((fun y => y.length + 1) ∘ plainBytes d)).sum ≤
        (items.map fun v => v.weight d + 1).sum :=
      List.sum_le_sum fun v hv => Nat.succ_le_succ (ih v hv)
    rw [plainBytes, plainItems_eq_map, Value.weight, Value.weightItems_eq_sum, List.length_cons,
      List.length_append, List.length_singleton]
    omega
  | object members ih =>
    have hsum := length_intercalate_le (x := 0x2c)
      (members.map fun m => jsonString m.1 ++ 0x3a :: plainBytes d m.2)
    rw [List.map_map] at hsum
    have hle : (members.map ((fun y => y.length + 1) ∘
        fun m => jsonString m.1 ++ 0x3a :: plainBytes d m.2)).sum ≤
        (members.map fun m => (jsonString m.1).length + 2 + m.2.weight d).sum := by
      refine List.sum_le_sum fun m hm => ?_
      have := ih m hm
      simp only [Function.comp, List.length_append, List.length_cons]
      omega
    rw [plainBytes, plainMembers_eq_map, Value.weight, Value.weightMembers_eq_sum,
      List.length_cons, List.length_append, List.length_singleton]
    omega

theorem length_canonicalJsonBytes_le (d : Deps) (v : Value) :
    (canonicalJsonBytes d v).length ≤ v.weight d := by
  rw [canonicalJsonBytes_eq_plain, ← Value.weight_sortKeys]
  exact length_plainBytes_le d _

/-! ## Strings -/

/-- No character takes more than six bytes. -/
theorem length_escapeChar_le (c : Char) : (escapeChar c).length ≤ 6 := by
  have hutf8 : (String.utf8EncodeChar c).length ≤ 4 := by
    rw [String.length_utf8EncodeChar]
    exact c.utf8Size_le_four
  by_cases hc : c ∈ escapedChars
  · have hlen := (escapeChar_escaped hc).2
    split_ifs at hlen <;> omega
  · rw [escapeChar_plain hc]
    omega

theorem length_jsonString_le (s : String) : (jsonString s).length ≤ 6 * s.toList.length + 2 := by
  have h : (s.toList.flatMap escapeChar).length ≤ 6 * s.toList.length := by
    generalize s.toList = l
    induction l with
    | nil => simp
    | cons c l ih =>
      have := length_escapeChar_le c
      rw [List.flatMap_cons, List.length_append, List.length_cons]
      omega
  simp only [jsonString, List.length_cons, List.length_append, List.length_nil]
  omega

theorem length_jsonString_uuid (u : Uuid) : (jsonString u.toText).length ≤ 218 := by
  have h := length_jsonString_le u.toText
  rwa [Uuid.toText, String.toList_ofList, u.length_chars] at h

theorem length_jsonString_digest (x : Sha256Digest) : (jsonString x.toHex).length ≤ 386 := by
  have h := length_jsonString_le x.toHex
  rwa [Sha256Digest.toHex, String.toList_ofList, length_hexBytes, Vector.length_toList] at h

theorem length_utf8_repr {n k : ℕ} (hk : 0 < k) (hn : n < 10 ^ k) :
    (utf8 (Nat.repr n)).length ≤ k := by
  rw [length_utf8_ascii]
  · exact (Nat.length_repr_le_iff hk).mpr hn
  · intro c hc
    have hdigit := repr_chars hc
    simp only [Char.isDigit, Bool.and_eq_true, decide_eq_true_eq] at hdigit
    exact lt_of_le_of_lt (UInt32.le_iff_toNat_le.mp hdigit.2) (by decide)

theorem length_numberText_posInt (d : Deps) (n : UInt64) :
    (utf8 (numberText d (.posInt n))).length ≤ 20 :=
  length_utf8_repr (by decide) (lt_of_lt_of_le n.toNat_lt (by decide))

end BaselineOps.Domain
