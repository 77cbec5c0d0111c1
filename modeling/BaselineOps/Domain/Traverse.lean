import Mathlib
import BaselineOps.Domain.Canonical
import BaselineOps.Lib.EState

/-!
# Bounded traversals of JSON values

The domain crate walks JSON values in two places, `load/bounds.rs` and `validate.rs`, with the same
shape: count the value, check the depth, then check strings, entry counts and keys on the way down.
`Traversal` holds what differs, `Value.traverse` is the walk.

* `traverse_ok_iff`: the walk accepts the values all of whose parts pass the local checks and whose
  number of nodes is within the limit.
* `Value.nodes_sortKeys`, `Value.all_sortKeys`: the order of object members does not matter.
-/

namespace BaselineOps.Domain

open BaselineOps.Lib

/-! ## Nodes and parts of a value -/

mutual

/-- The number of JSON values in a value. -/
def Value.nodes : Value → ℕ
  | .array items => 1 + Value.nodesItems items
  | .object members => 1 + Value.nodesMembers members
  | _ => 1

/-- The nodes of the items. -/
def Value.nodesItems : List Value → ℕ
  | [] => 0
  | v :: vs => v.nodes + Value.nodesItems vs

/-- The nodes of the members. -/
def Value.nodesMembers : List (String × Value) → ℕ
  | [] => 0
  | m :: ms => Value.nodesMember m + Value.nodesMembers ms

/-- A key is no node. -/
def Value.nodesMember : String × Value → ℕ
  | (_, v) => v.nodes

end

mutual

/-- `P` holds of a value at `depth` and of everything in it, each at its own depth. -/
def Value.All (P : ℕ → Value → Prop) : ℕ → Value → Prop
  | depth, .array items => P depth (.array items) ∧ Value.AllItems P (depth + 1) items
  | depth, .object members => P depth (.object members) ∧ Value.AllMembers P (depth + 1) members
  | depth, v => P depth v

/-- `All` for every item. -/
def Value.AllItems (P : ℕ → Value → Prop) : ℕ → List Value → Prop
  | _, [] => True
  | depth, v :: vs => v.All P depth ∧ Value.AllItems P depth vs

/-- `All` for every member. -/
def Value.AllMembers (P : ℕ → Value → Prop) : ℕ → List (String × Value) → Prop
  | _, [] => True
  | depth, m :: ms => Value.AllMember P depth m ∧ Value.AllMembers P depth ms

/-- `All` for the value of a member. -/
def Value.AllMember (P : ℕ → Value → Prop) : ℕ → String × Value → Prop
  | depth, (_, v) => v.All P depth

end

theorem Value.nodesItems_eq_sum (items : List Value) :
    Value.nodesItems items = (items.map Value.nodes).sum := by
  induction items with
  | nil => rfl
  | cons v vs ih => simp [Value.nodesItems, ih]

theorem Value.nodesItems_map {α : Type*} {f : α → Value} {l : List α} {k : ℕ}
    (h : ∀ x ∈ l, (f x).nodes = k) : Value.nodesItems (l.map f) = k * l.length := by
  induction l with
  | nil => rfl
  | cons x l ih =>
    rw [List.map_cons, Value.nodesItems, h x (by simp), ih fun y hy => h y (by simp [hy]),
      List.length_cons, Nat.mul_succ, Nat.add_comm]

theorem Value.nodesMembers_eq_sum (members : List (String × Value)) :
    Value.nodesMembers members = (members.map fun m => m.2.nodes).sum := by
  induction members with
  | nil => rfl
  | cons m ms ih =>
    obtain ⟨k, v⟩ := m
    simp [Value.nodesMembers, Value.nodesMember, ih]

theorem Value.all_array {P : ℕ → Value → Prop} {depth : ℕ} {items : List Value} :
    (Value.array items).All P depth ↔
      P depth (.array items) ∧ ∀ v ∈ items, v.All P (depth + 1) := by
  have h : ∀ (l : List Value) (k : ℕ), Value.AllItems P k l ↔ ∀ v ∈ l, v.All P k := by
    intro l k
    induction l with
    | nil => simp [Value.AllItems]
    | cons v vs ih => simp [Value.AllItems, ih]
  rw [Value.All, h]

theorem Value.all_object {P : ℕ → Value → Prop} {depth : ℕ} {members : List (String × Value)} :
    (Value.object members).All P depth ↔
      P depth (.object members) ∧ ∀ m ∈ members, m.2.All P (depth + 1) := by
  have h : ∀ (l : List (String × Value)) (k : ℕ),
      Value.AllMembers P k l ↔ ∀ m ∈ l, m.2.All P k := by
    intro l k
    induction l with
    | nil => simp [Value.AllMembers]
    | cons m ms ih =>
      obtain ⟨key, v⟩ := m
      simp [Value.AllMembers, Value.AllMember, ih]
  rw [Value.All, h]

/-! ## The walk -/

/-- The limits, errors and local checks of a walk. -/
structure Traversal (ε : Type) where
  maxNodes : ℕ
  nodesError : ε
  maxDepth : ℕ
  depthError : ε
  text : String → Except ε Unit
  arraySize : ℕ → Except ε Unit
  objectSize : ℕ → Except ε Unit
  key : String → Except ε Unit

variable {ε : Type}

/-- Count a value and check its depth. -/
def Traversal.enter (t : Traversal ε) (depth nodes : ℕ) : Except ε ℕ :=
  if nodes + 1 > t.maxNodes then .error t.nodesError
  else if depth > t.maxDepth then .error t.depthError
  else .ok (nodes + 1)

mutual

/-- Walk a value at `depth`; `nodes` values have been counted before, the result counts those
    behind it. -/
def Value.traverse (t : Traversal ε) : Value → ℕ → ℕ → Except ε ℕ
  | .string s, depth, nodes => do
    let nodes ← t.enter depth nodes
    t.text s
    return nodes
  | .array items, depth, nodes => do
    let nodes ← t.enter depth nodes
    t.arraySize items.length
    Value.traverseItems t items (depth + 1) nodes
  | .object members, depth, nodes => do
    let nodes ← t.enter depth nodes
    t.objectSize members.length
    Value.traverseMembers t members (depth + 1) nodes
  | .null, depth, nodes | .bool _, depth, nodes | .number _, depth, nodes => t.enter depth nodes

/-- The items from left to right, with one counter. -/
def Value.traverseItems (t : Traversal ε) : List Value → ℕ → ℕ → Except ε ℕ
  | [], _, nodes => .ok nodes
  | item :: items, depth, nodes => do
    Value.traverseItems t items depth (← item.traverse t depth nodes)

/-- The members from left to right, with one counter. -/
def Value.traverseMembers (t : Traversal ε) : List (String × Value) → ℕ → ℕ → Except ε ℕ
  | [], _, nodes => .ok nodes
  | m :: members, depth, nodes => do
    Value.traverseMembers t members depth (← Value.traverseMember t m depth nodes)

/-- The key of a member, then its value. -/
def Value.traverseMember (t : Traversal ε) : String × Value → ℕ → ℕ → Except ε ℕ
  | (key, item), depth, nodes => do
    t.key key
    item.traverse t depth nodes

end

/-- The local checks on one value at `depth`, without what is in it. -/
def Traversal.Local (t : Traversal ε) (depth : ℕ) : Value → Prop
  | .string s => depth ≤ t.maxDepth ∧ t.text s = .ok ()
  | .array items => depth ≤ t.maxDepth ∧ t.arraySize items.length = .ok ()
  | .object members => depth ≤ t.maxDepth ∧ t.objectSize members.length = .ok () ∧
    ∀ key ∈ members.map Prod.fst, t.key key = .ok ()
  | _ => depth ≤ t.maxDepth

theorem Traversal.enter_ok_iff {t : Traversal ε} {depth nodes n : ℕ} :
    t.enter depth nodes = .ok n ↔ n = nodes + 1 ∧ n ≤ t.maxNodes ∧ depth ≤ t.maxDepth := by
  unfold Traversal.enter
  rw [except_guard_ok_iff, except_guard_ok_iff, Except.ok.injEq]
  omega

section Walk

variable {t : Traversal ε}

theorem traverseItems_ok_iff {items : List Value}
    (ih : ∀ v ∈ items, ∀ depth nodes n, v.traverse t depth nodes = .ok n ↔
      v.All t.Local depth ∧ n = nodes + v.nodes ∧ n ≤ t.maxNodes)
    {depth nodes n : ℕ} (hnodes : nodes ≤ t.maxNodes) :
    Value.traverseItems t items depth nodes = .ok n ↔
      (∀ v ∈ items, v.All t.Local depth) ∧ n = nodes + Value.nodesItems items ∧
        n ≤ t.maxNodes := by
  induction items generalizing nodes with
  | nil =>
    simp only [Value.traverseItems, Value.nodesItems, Except.ok.injEq, List.not_mem_nil,
      false_implies, implies_true, true_and]
    omega
  | cons v vs ihl =>
    have ihv := ih v (by simp) depth nodes
    have ihvs := fun m (hm : m ≤ t.maxNodes) =>
      @ihl (fun u hu => ih u (by simp [hu])) m hm
    simp only [Value.traverseItems, except_bind_ok_iff, ihv, List.forall_mem_cons,
      Value.nodesItems]
    constructor
    · rintro ⟨m, ⟨hv, hm, hle⟩, hvs⟩
      obtain ⟨hb, hn, hmax⟩ := (ihvs m hle).mp hvs
      exact ⟨⟨hv, hb⟩, by omega, hmax⟩
    · rintro ⟨⟨hv, hvs⟩, hn, hmax⟩
      have hle : nodes + v.nodes ≤ t.maxNodes := by omega
      exact ⟨_, ⟨hv, rfl, hle⟩, (ihvs _ hle).mpr ⟨hvs, by omega, hmax⟩⟩

theorem traverseMembers_ok_iff {members : List (String × Value)}
    (ih : ∀ m ∈ members, ∀ depth nodes n, m.2.traverse t depth nodes = .ok n ↔
      m.2.All t.Local depth ∧ n = nodes + m.2.nodes ∧ n ≤ t.maxNodes)
    {depth nodes n : ℕ} (hnodes : nodes ≤ t.maxNodes) :
    Value.traverseMembers t members depth nodes = .ok n ↔
      ((∀ key ∈ members.map Prod.fst, t.key key = .ok ()) ∧
        ∀ m ∈ members, m.2.All t.Local depth) ∧
      n = nodes + Value.nodesMembers members ∧ n ≤ t.maxNodes := by
  induction members generalizing nodes with
  | nil =>
    simp only [Value.traverseMembers, Value.nodesMembers, Except.ok.injEq, List.map_nil,
      List.not_mem_nil, false_implies, implies_true, and_self, true_and]
    omega
  | cons m ms ihl =>
    obtain ⟨key, v⟩ := m
    have ihv := ih (key, v) (by simp) depth nodes
    have ihms := fun k (hk : k ≤ t.maxNodes) =>
      @ihl (fun u hu => ih u (by simp [hu])) k hk
    simp only [Value.traverseMembers, Value.traverseMember, except_bind_ok_iff, ihv,
      List.map_cons, List.forall_mem_cons, Value.nodesMembers, Value.nodesMember,
      Unique.exists_iff, PUnit.default_eq_unit]
    constructor
    · rintro ⟨k, ⟨hkey, hv, hk, hle⟩, hms⟩
      obtain ⟨⟨hkeys, hb⟩, hn, hmax⟩ := (ihms k hle).mp hms
      exact ⟨⟨⟨hkey, hkeys⟩, hv, hb⟩, by omega, hmax⟩
    · rintro ⟨⟨⟨hkey, hkeys⟩, hv, hms⟩, hn, hmax⟩
      have hle : nodes + v.nodes ≤ t.maxNodes := by omega
      exact ⟨_, ⟨hkey, hv, rfl, hle⟩, (ihms _ hle).mpr ⟨⟨hkeys, hms⟩, by omega, hmax⟩⟩

/-- The walk accepts a value when all its parts pass the local checks and its nodes fit the
    limit. -/
theorem traverse_ok_iff (v : Value) (depth nodes n : ℕ) :
    v.traverse t depth nodes = .ok n ↔
      v.All t.Local depth ∧ n = nodes + v.nodes ∧ n ≤ t.maxNodes := by
  induction v using Value.induction generalizing depth nodes n with
  | null | bool b | number b =>
    simp only [Value.traverse, Traversal.enter_ok_iff, Value.All, Traversal.Local, Value.nodes]
    omega
  | string s =>
    simp only [Value.traverse, except_bind_ok_iff, Traversal.enter_ok_iff, Value.All,
      Traversal.Local, Value.nodes, pure, Except.pure, Except.ok.injEq, Unique.exists_iff,
      PUnit.default_eq_unit]
    constructor
    · rintro ⟨_, ⟨rfl, hle, hdepth⟩, htext, rfl⟩
      exact ⟨⟨hdepth, htext⟩, rfl, hle⟩
    · rintro ⟨⟨hdepth, htext⟩, rfl, hle⟩
      exact ⟨_, ⟨rfl, hle, hdepth⟩, htext, rfl⟩
  | array items ih =>
    simp only [Value.traverse, except_bind_ok_iff, Traversal.enter_ok_iff, Value.all_array,
      Traversal.Local, Value.nodes, Unique.exists_iff, PUnit.default_eq_unit]
    constructor
    · rintro ⟨_, ⟨rfl, hle, hdepth⟩, hcount, hitems⟩
      obtain ⟨hb, hn, hmax⟩ := (traverseItems_ok_iff ih hle).mp hitems
      exact ⟨⟨⟨hdepth, hcount⟩, hb⟩, by omega, hmax⟩
    · rintro ⟨⟨⟨hdepth, hcount⟩, hb⟩, hn, hmax⟩
      have hle : nodes + 1 ≤ t.maxNodes := by omega
      exact ⟨_, ⟨rfl, hle, hdepth⟩, hcount,
        (traverseItems_ok_iff ih hle).mpr ⟨hb, by omega, hmax⟩⟩
  | object members ih =>
    simp only [Value.traverse, except_bind_ok_iff, Traversal.enter_ok_iff, Value.all_object,
      Traversal.Local, Value.nodes, Unique.exists_iff, PUnit.default_eq_unit]
    constructor
    · rintro ⟨_, ⟨rfl, hle, hdepth⟩, hcount, hmembers⟩
      obtain ⟨⟨hkeys, hb⟩, hn, hmax⟩ := (traverseMembers_ok_iff ih hle).mp hmembers
      exact ⟨⟨⟨hdepth, hcount, hkeys⟩, hb⟩, by omega, hmax⟩
    · rintro ⟨⟨⟨hdepth, hcount, hkeys⟩, hb⟩, hn, hmax⟩
      have hle : nodes + 1 ≤ t.maxNodes := by omega
      exact ⟨_, ⟨rfl, hle, hdepth⟩, hcount,
        (traverseMembers_ok_iff ih hle).mpr ⟨⟨hkeys, hb⟩, by omega, hmax⟩⟩

end Walk

theorem Value.all_mono {P Q : ℕ → Value → Prop} (hPQ : ∀ depth v, P depth v → Q depth v)
    {depth : ℕ} {v : Value} (h : v.All P depth) : v.All Q depth := by
  induction v using Value.induction generalizing depth with
  | null | bool b | number n | string s => exact hPQ _ _ h
  | array items ih =>
    obtain ⟨hlocal, hitems⟩ := Value.all_array.mp h
    exact Value.all_array.mpr ⟨hPQ _ _ hlocal, fun v hv => ih v hv (hitems v hv)⟩
  | object members ih =>
    obtain ⟨hlocal, hmembers⟩ := Value.all_object.mp h
    exact Value.all_object.mpr ⟨hPQ _ _ hlocal, fun m hm => ih m hm (hmembers m hm)⟩

/-! ## The order of object members -/

theorem sortByKey_perm {α : Type*} (members : List (String × α)) :
    (sortByKey members).Perm members := List.perm_insertionSort _ _

/-- The members of an object with sorted keys. -/
theorem sortKeys_object_perm (members : List (String × Value)) :
    (sortByKey (sortKeysMembers members)).Perm (members.map fun m => (m.1, sortKeys m.2)) := by
  rw [sortKeysMembers_eq_map]
  exact sortByKey_perm _

theorem Value.nodes_sortKeys (v : Value) : (sortKeys v).nodes = v.nodes := by
  induction v using Value.induction with
  | null | bool b | number n | string s => rfl
  | array items ih =>
    rw [sortKeys, sortKeysItems_eq_map, Value.nodes, Value.nodes, Value.nodesItems_eq_sum,
      Value.nodesItems_eq_sum, List.map_map]
    exact congrArg (1 + List.sum ·) (List.map_congr_left ih)
  | object members ih =>
    rw [sortKeys, Value.nodes, Value.nodes, Value.nodesMembers_eq_sum, Value.nodesMembers_eq_sum,
      ((sortKeys_object_perm members).map _).sum_eq, List.map_map]
    exact congrArg (1 + List.sum ·) (List.map_congr_left ih)

theorem Value.all_sortKeys {P : ℕ → Value → Prop} (hP : ∀ depth v, P depth v → P depth (sortKeys v))
    {depth : ℕ} {v : Value} (h : v.All P depth) : (sortKeys v).All P depth := by
  induction v using Value.induction generalizing depth with
  | null | bool b | number n | string s => exact h
  | array items ih =>
    have hlocal := hP depth _ (Value.all_array.mp h).1
    rw [sortKeys, sortKeysItems_eq_map] at hlocal ⊢
    refine Value.all_array.mpr ⟨hlocal, ?_⟩
    intro v hv
    obtain ⟨u, hu, rfl⟩ := List.mem_map.mp hv
    exact ih u hu ((Value.all_array.mp h).2 u hu)
  | object members ih =>
    have hlocal := hP depth _ (Value.all_object.mp h).1
    rw [sortKeys] at hlocal ⊢
    refine Value.all_object.mpr ⟨hlocal, ?_⟩
    intro m hm
    obtain ⟨u, hu, rfl⟩ := List.mem_map.mp ((sortKeys_object_perm members).mem_iff.mp hm)
    exact ih u hu ((Value.all_object.mp h).2 u hu)

theorem map_fst_sortKeys_perm (members : List (String × Value)) :
    ((sortByKey (sortKeysMembers members)).map Prod.fst).Perm (members.map Prod.fst) := by
  have h := (sortKeys_object_perm members).map Prod.fst
  rwa [List.map_map] at h

end BaselineOps.Domain
