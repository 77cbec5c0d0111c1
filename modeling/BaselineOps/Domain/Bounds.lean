import Mathlib
import BaselineOps.Domain.Load
import BaselineOps.Domain.Validate

/-!
# What the recursive JSON bounds mean

`validate_json_bounds` and `validate_value` walk a value with a counter and stop at the first limit.
Their meaning is a list: `Value.parts` are all values in a value, each with its depth, and the bounds are
about the length of this list and about each element of it (`Limits`).

* `jsonBounds_declarative`: both walks accept exactly the values within their limits.
-/

namespace BaselineOps.Domain

open BaselineOps.Lib

/-! ## All values in a value -/

mutual

/-- The values in a value, itself first, with their depths. -/
def Value.parts (depth : ℕ) : Value → List (ℕ × Value)
  | .array items => (depth, .array items) :: Value.partsItems (depth + 1) items
  | .object members => (depth, .object members) :: Value.partsMembers (depth + 1) members
  | v => [(depth, v)]

/-- `parts` over the items of an array. -/
def Value.partsItems (depth : ℕ) : List Value → List (ℕ × Value)
  | [] => []
  | v :: vs => v.parts depth ++ Value.partsItems depth vs

/-- `parts` over the members of an object. -/
def Value.partsMembers (depth : ℕ) : List (String × Value) → List (ℕ × Value)
  | [] => []
  | m :: ms => Value.partsMember depth m ++ Value.partsMembers depth ms

/-- The parts of a member are those of its value. -/
def Value.partsMember (depth : ℕ) : String × Value → List (ℕ × Value)
  | (_, v) => v.parts depth

end

theorem Value.partsItems_eq_flatMap (depth : ℕ) (items : List Value) :
    Value.partsItems depth items = items.flatMap (Value.parts depth) := by
  induction items with
  | nil => rfl
  | cons v vs ih => rw [Value.partsItems, ih, List.flatMap_cons]

theorem Value.partsMembers_eq_flatMap (depth : ℕ) (members : List (String × Value)) :
    Value.partsMembers depth members = members.flatMap fun m => m.2.parts depth := by
  induction members with
  | nil => rfl
  | cons m ms ih => rw [Value.partsMembers, Value.partsMember, ih, List.flatMap_cons]

theorem Value.length_parts (v : Value) (depth : ℕ) : (v.parts depth).length = v.nodes := by
  induction v using Value.induction generalizing depth with
  | null | bool b | number n | string s => rfl
  | array items ih =>
    rw [Value.parts, Value.partsItems_eq_flatMap, List.length_cons, List.length_flatMap, Value.nodes,
      Value.nodesItems_eq_sum, List.map_congr_left fun v hv => ih v hv (depth + 1), Nat.add_comm]
  | object members ih =>
    rw [Value.parts, Value.partsMembers_eq_flatMap, List.length_cons, List.length_flatMap, Value.nodes,
      Value.nodesMembers_eq_sum, List.map_congr_left fun m hm => ih m hm (depth + 1), Nat.add_comm]

/-- What holds all the way down holds of every value in the value. -/
theorem Value.all_iff_parts {P : ℕ → Value → Prop} (v : Value) (depth : ℕ) :
    v.All P depth ↔ ∀ part ∈ v.parts depth, P part.1 part.2 := by
  induction v using Value.induction generalizing depth with
  | null | bool b | number n | string s => simp [Value.All, Value.parts]
  | array items ih =>
    rw [Value.all_array, Value.parts, Value.partsItems_eq_flatMap, List.forall_mem_cons]
    refine and_congr_right fun _ => ?_
    constructor
    · intro h part hpart
      obtain ⟨v, hv, hmem⟩ := List.mem_flatMap.mp hpart
      exact (ih v hv (depth + 1)).mp (h v hv) part hmem
    · intro h v hv
      exact (ih v hv (depth + 1)).mpr fun part hpart => h part (List.mem_flatMap.mpr ⟨v, hv, hpart⟩)
  | object members ih =>
    rw [Value.all_object, Value.parts, Value.partsMembers_eq_flatMap, List.forall_mem_cons]
    refine and_congr_right fun _ => ?_
    constructor
    · intro h part hpart
      obtain ⟨m, hm, hmem⟩ := List.mem_flatMap.mp hpart
      exact (ih m hm (depth + 1)).mp (h m hm) part hmem
    · intro h m hm
      exact (ih m hm (depth + 1)).mpr fun part hpart => h part (List.mem_flatMap.mpr ⟨m, hm, hpart⟩)

/-! ## Limits -/

/-- The value is within limits: on the number of its values, on their depth, on the entries of arrays and
    objects and on the bytes of strings. `name` is what is asked of a property name. -/
structure Value.Within (maxNodes maxDepth maxArray maxObject maxString : ℕ) (name : String → Prop)
    (v : Value) : Prop where
  nodes : (v.parts 0).length ≤ maxNodes
  depth : ∀ part ∈ v.parts 0, part.1 ≤ maxDepth
  arrays : ∀ part ∈ v.parts 0, ∀ items, part.2 = .array items → items.length ≤ maxArray
  objects : ∀ part ∈ v.parts 0, ∀ members, part.2 = .object members → members.length ≤ maxObject
  strings : ∀ part ∈ v.parts 0, ∀ s, part.2 = .string s → (utf8 s).length ≤ maxString
  names : ∀ part ∈ v.parts 0, ∀ members, part.2 = .object members → ∀ m ∈ members, name m.1

/-- A name that `validate_nonempty` accepts: some character is no white space, at most 256 bytes. -/
def ProperName (name : String) : Prop :=
  (∃ c ∈ name.toList, isWhitespace c = false) ∧ (utf8 name).length ≤ 256

theorem validateNonempty_ok_iff_proper {name value : String} :
    validateNonempty name value 256 = .ok () ↔ ProperName value := by
  rw [validateNonempty_ok_iff, ProperName, List.all_eq_false]
  simp only [Bool.not_eq_true]

/-- The local checks at every value of a value, together with the number of values. -/
theorem within_iff {ε : Type} {t : Traversal ε} {maxArray maxObject maxString : ℕ}
    {name : String → Prop} (harray : ∀ n, t.arraySize n = .ok () ↔ n ≤ maxArray)
    (hobject : ∀ n, t.objectSize n = .ok () ↔ n ≤ maxObject)
    (hstring : ∀ s, t.text s = .ok () ↔ (utf8 s).length ≤ maxString)
    (hname : ∀ s, t.key s = .ok () ↔ name s) (v : Value) :
    v.All t.Local 0 ∧ v.nodes ≤ t.maxNodes ↔
      v.Within t.maxNodes t.maxDepth maxArray maxObject maxString name := by
  rw [v.all_iff_parts, ← v.length_parts 0]
  constructor
  · rintro ⟨hlocal, hnodes⟩
    refine ⟨hnodes, ?_, ?_, ?_, ?_, ?_⟩
    · rintro ⟨depth, part⟩ hpart
      have hone := hlocal _ hpart
      cases part <;> simp_all [Traversal.Local]
    · rintro ⟨depth, part⟩ hpart items rfl
      exact (harray _).mp (hlocal _ hpart).2
    · rintro ⟨depth, part⟩ hpart members rfl
      exact (hobject _).mp (hlocal _ hpart).2.1
    · rintro ⟨depth, part⟩ hpart s rfl
      exact (hstring _).mp (hlocal _ hpart).2
    · rintro ⟨depth, part⟩ hpart members rfl m hm
      exact (hname _).mp ((hlocal _ hpart).2.2 _ (List.mem_map_of_mem hm))
  · intro h
    refine ⟨?_, h.nodes⟩
    rintro ⟨depth, part⟩ hpart
    have hdepth : depth ≤ t.maxDepth := h.depth _ hpart
    cases part with
    | null | bool b | number n => exact hdepth
    | string s => exact ⟨hdepth, (hstring s).mpr (h.strings _ hpart s rfl)⟩
    | array items => exact ⟨hdepth, (harray _).mpr (h.arrays _ hpart items rfl)⟩
    | object members =>
      refine ⟨hdepth, (hobject _).mpr (h.objects _ hpart members rfl), ?_⟩
      intro key hkey
      obtain ⟨m, hm, rfl⟩ := List.mem_map.mp hkey
      exact (hname _).mpr (h.names _ hpart members rfl m hm)

theorem validateValue_ok_iff_within {value : Value} :
    (∃ n, validateValue value 0 0 = .ok n) ↔
      value.Within 4096 16 256 256 (64 * 1024) ProperName := by
  have hwithin := @within_iff DomainError typedTraversal _ _ _ _ (fun _ => ensureTyped_ok_iff)
    (fun _ => ensureTyped_ok_iff) (fun _ => ensureTyped_ok_iff)
    (fun _ => validateNonempty_ok_iff_proper) value
  simp only [validateValue_ok_iff, Nat.zero_add]
  constructor
  · rintro ⟨n, hlocal, rfl, hnodes⟩
    exact hwithin.mp ⟨hlocal, hnodes⟩
  · intro h
    obtain ⟨hlocal, hnodes⟩ := hwithin.mpr h
    exact ⟨_, hlocal, rfl, hnodes⟩

theorem validateJsonMap_ok_iff {name : String} {map : JsonMap} :
    validateJsonMap name map = .ok () ↔ map.entries.length ≤ 256 ∧
      ∀ entry ∈ map.entries, validateNonempty name entry.1 256 = .ok () ∧
        ∃ n, validateValue entry.2 0 0 = .ok n := by
  have hentry : ∀ entry : String × Value,
      (do
        validateNonempty name entry.1 256
        let _ ← validateValue entry.2 0 0) = .ok () ↔
      validateNonempty name entry.1 256 = .ok () ∧ ∃ n, validateValue entry.2 0 0 = .ok n := by
    intro entry
    simp only [except_bind_ok_iff, pure, Except.pure, and_true, Unique.exists_iff,
      PUnit.default_eq_unit]
  rw [validateJsonMap]
  by_cases hcount : map.entries.length > maxTypedMapEntries
  · rw [if_pos hcount]
    constructor
    · intro h
      cases h
    · rintro ⟨hle, -⟩
      exact absurd hle (Nat.not_le.mpr hcount)
  · rw [if_neg hcount]
    simp only [except_forM_ok_iff, hentry]
    exact (and_iff_right (Nat.not_lt.mp hcount)).symm

/-- `validate_json_bounds` accepts a value when it is within the limits, and its counter is then the
    number of values; `validate_json_map` accepts a map when its entries are few and each is within the
    limits of a typed document. -/
theorem jsonBounds_declarative :
    (∀ (value : Value) (limits : JsonLoadLimits) (n : ℕ),
      validateJsonBounds value limits 0 0 = .ok n ↔ n = (value.parts 0).length ∧
        value.Within limits.maxNodes limits.maxDepth limits.maxArrayEntries limits.maxObjectEntries
          limits.maxStringBytes fun name => (utf8 name).length ≤ limits.maxStringBytes) ∧
    ∀ (name : String) (map : JsonMap),
      validateJsonMap name map = .ok () ↔ map.entries.length ≤ 256 ∧
        ∀ entry ∈ map.entries, ProperName entry.1 ∧
          entry.2.Within 4096 16 256 256 (64 * 1024) ProperName := by
  constructor
  · intro value limits n
    have hwithin := @within_iff DomainError (boundsTraversal limits) _ _ _ _
      (fun _ => ensureLimit_ok_iff) (fun _ => ensureLimit_ok_iff) (fun _ => ensureLimit_ok_iff)
      (fun _ => ensureLimit_ok_iff) value
    rw [validateJsonBounds, traverse_ok_iff, value.length_parts, Nat.zero_add]
    constructor
    · rintro ⟨hlocal, rfl, hnodes⟩
      exact ⟨rfl, hwithin.mp ⟨hlocal, hnodes⟩⟩
    · rintro ⟨rfl, hbounds⟩
      obtain ⟨hlocal, hnodes⟩ := hwithin.mpr hbounds
      exact ⟨hlocal, rfl, hnodes⟩
  · intro name map
    rw [validateJsonMap_ok_iff]
    simp only [validateNonempty_ok_iff_proper, validateValue_ok_iff_within]

end BaselineOps.Domain
