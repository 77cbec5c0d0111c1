import Mathlib.Data.List.Sort
import BaselineOps.Lib.Bytes

/-!
# JSON values and the canonical writer

Model of `baselineops-domain/src/canonical.rs` (lines 11–221) over `serde_json::Value`.

The writer of the source is generic over a `CanonicalSink` whose only operation is `write`. It is
modelled by the list of fragments it writes: the `Vec<u8>` sink concatenates them, the
`DigestSink` feeds them to SHA-256 one after the other.

Code outside the repository enters through `Deps`: SHA-256, the RFC 3339 text of a time and the
decimal text of a finite floating-point number. `to_value` cannot fail on the types of this
development (no map has a non-string key), so the `DomainResult` of the source is always `Ok`
and left out.
-/

namespace BaselineOps.Domain

open BaselineOps.Lib

/-! ## Digests and times -/

/-- `Sha256Digest([u8; 32])` (`canonical.rs`, line 15). -/
structure Sha256Digest where
  bytes : Vector UInt8 32
  deriving DecidableEq

/-- `Sha256Digest::to_hex` (lines 38–45): `{byte:02x}` for every byte. -/
def Sha256Digest.toHex (x : Sha256Digest) : String := String.ofList (hexBytes x.bytes.toList)

theorem Sha256Digest.toHex_injective : Function.Injective Sha256Digest.toHex := by
  intro x y h
  have h' : x.bytes.toList = y.bytes.toList := hexBytes_inj (String.ofList_injective h)
  cases x
  cases y
  exact congrArg Sha256Digest.mk (Vector.toList_inj.mp h')

/-- `chrono::DateTime<Utc>`: seconds since the Unix epoch and nanoseconds within the second, which
    exceed `10 ^ 9` in a leap second. The years run from -262143 to 262142. -/
@[ext]
structure DateTime where
  secs : ℤ
  frac : Fin 2000000000
  secs_ge : -8334601228800 ≤ secs := by decide
  secs_le : secs ≤ 8210266876799 := by decide
  deriving DecidableEq

instance neZeroNanoLimit : NeZero 2000000000 := ⟨by decide⟩

instance : LT DateTime := ⟨fun a b => a.secs < b.secs ∨ a.secs = b.secs ∧ a.frac < b.frac⟩
instance (a b : DateTime) : Decidable (a < b) := inferInstanceAs (Decidable (_ ∨ _))

/-! ## Values -/

/-- A finite `f64`, by its bits. -/
structure FiniteFloat where
  bits : UInt64
  finite : bits >>> 52 &&& 0x7ff ≠ 0x7ff
  deriving DecidableEq

/-- `serde_json::Number`: a `u64`, a negative `i64` (here `-(m + 1)`) or a finite `f64`. -/
inductive Number where
  | posInt (n : UInt64)
  | negInt (m : Fin (2 ^ 63))
  | float (x : FiniteFloat)
  deriving DecidableEq

/-- `serde_json::Value`. The members of an object are listed in the order in which the map
    iterates. -/
inductive Value where
  | null
  | bool (b : Bool)
  | number (n : Number)
  | string (s : String)
  | array (items : List Value)
  | object (members : List (String × Value))

/-- Induction over a JSON value with the hypothesis for every item and every member. -/
@[elab_as_elim]
theorem Value.induction {P : Value → Prop} (null : P .null) (bool : ∀ b, P (.bool b))
    (number : ∀ n, P (.number n)) (string : ∀ s, P (.string s))
    (array : ∀ items, (∀ v ∈ items, P v) → P (.array items))
    (object : ∀ members, (∀ m ∈ members, P m.2) → P (.object members)) (v : Value) : P v := by
  refine @Value.rec P (fun items => ∀ v ∈ items, P v) (fun members => ∀ m ∈ members, P m.2)
    (fun m => P m.2) null bool number string array object (by simp) ?_ (by simp) ?_
    (fun _ _ h => h) v
  · intro head tail h ht v hv
    rcases List.mem_cons.mp hv with rfl | hv
    · exact h
    · exact ht v hv
  · intro head tail h ht m hm
    rcases List.mem_cons.mp hm with rfl | hm
    · exact h
    · exact ht m hm

mutual

/-- Structural equality of values. -/
def Value.beq : Value → Value → Bool
  | .null, .null => true
  | .bool a, .bool b => a == b
  | .number a, .number b => decide (a = b)
  | .string a, .string b => a == b
  | .array a, .array b => Value.beqItems a b
  | .object a, .object b => Value.beqMembers a b
  | _, _ => false

/-- `beq` item by item. -/
def Value.beqItems : List Value → List Value → Bool
  | [], [] => true
  | a :: as, b :: bs => Value.beq a b && Value.beqItems as bs
  | _, _ => false

/-- `beq` member by member. -/
def Value.beqMembers : List (String × Value) → List (String × Value) → Bool
  | [], [] => true
  | a :: as, b :: bs => Value.beqMember a b && Value.beqMembers as bs
  | _, _ => false

/-- Equal keys and values. -/
def Value.beqMember : String × Value → String × Value → Bool
  | (k, v), (k', v') => k == k' && Value.beq v v'

end

theorem Value.beqItems_iff {as : List Value} (h : ∀ a ∈ as, ∀ b, a.beq b = true ↔ a = b)
    (bs : List Value) : Value.beqItems as bs = true ↔ as = bs := by
  induction as generalizing bs with
  | nil => cases bs <;> simp [Value.beqItems]
  | cons a as ih =>
    cases bs with
    | nil => simp [Value.beqItems]
    | cons b bs =>
      simp [Value.beqItems, h a (by simp) b, ih (fun x hx => h x (by simp [hx])) bs]

theorem Value.beqMembers_iff {as : List (String × Value)}
    (h : ∀ a ∈ as, ∀ b, a.2.beq b = true ↔ a.2 = b) (bs : List (String × Value)) :
    Value.beqMembers as bs = true ↔ as = bs := by
  induction as generalizing bs with
  | nil => cases bs <;> simp [Value.beqMembers]
  | cons a as ih =>
    cases bs with
    | nil => simp [Value.beqMembers]
    | cons b bs =>
      obtain ⟨k, v⟩ := a
      obtain ⟨k', v'⟩ := b
      have hv := h (k, v) (by simp) v'
      simp only at hv
      simp [Value.beqMembers, Value.beqMember, hv, ih (fun x hx => h x (by simp [hx])) bs]

theorem Value.beq_iff (a b : Value) : a.beq b = true ↔ a = b := by
  induction a using Value.induction generalizing b with
  | null => cases b <;> simp [Value.beq]
  | bool x => cases b <;> simp [Value.beq]
  | number n => cases b <;> simp [Value.beq]
  | string s => cases b <;> simp [Value.beq]
  | array items ih => cases b <;> simp [Value.beq, Value.beqItems_iff ih]
  | object members ih => cases b <;> simp [Value.beq, Value.beqMembers_iff ih]

instance : DecidableEq Value := fun a b => decidable_of_iff (a.beq b = true) (Value.beq_iff a b)

/-! ## Text of the scalars -/

/-- Code outside the repository: `sha2`'s digest, `chrono`'s RFC 3339 text and `ryu`'s decimal
    text of a finite float. -/
structure Deps where
  sha256 : List UInt8 → Sha256Digest
  rfc3339 : DateTime → String
  floatText : FiniteFloat → String

/-- The UTF-8 bytes of a string. -/
def utf8 (s : String) : List UInt8 := s.toList.flatMap String.utf8EncodeChar

/-- An ASCII string has one byte for each character. -/
theorem length_utf8_ascii {s : String} (h : ∀ c ∈ s.toList, c.toNat < 128) :
    (utf8 s).length = s.toList.length := by
  unfold utf8
  generalize s.toList = l at h
  induction l with
  | nil => rfl
  | cons c l ih =>
    have hone : (String.utf8EncodeChar c).length = 1 := by
      have hc : c.toNat ≤ 127 := Nat.le_of_lt_succ (h c (by simp))
      simp [String.utf8EncodeChar, hc]
    rw [List.flatMap_cons, List.length_append, hone, ih fun x hx => h x (by simp [hx]),
      List.length_cons]
    omega

theorem hex_lt (c : Char) (h : c ∈ "0123456789abcdef".toList) : c.toNat < 128 := by
  have hall : ("0123456789abcdef".toList.all fun c => c.toNat < 128) = true := by decide
  exact of_decide_eq_true (List.all_eq_true.mp hall c h)

theorem Sha256Digest.length_utf8 (x : Sha256Digest) : (utf8 x.toHex).length = 64 := by
  rw [length_utf8_ascii, Sha256Digest.toHex, String.toList_ofList, length_hexBytes,
    Vector.length_toList]
  intro c hc
  rw [Sha256Digest.toHex, String.toList_ofList] at hc
  exact hex_lt c (mem_hexBytes hc)

/-- `number.to_string()`. -/
def numberText (d : Deps) : Number → String
  | .posInt n => Nat.repr n.toNat
  | .negInt m => "-" ++ Nat.repr (m.val + 1)
  | .float x => d.floatText x

/-- One character of a JSON string as `serde_json` writes it: the short escapes, `\u00xx` for the
    other control characters, and the UTF-8 bytes of everything else. -/
def escapeChar (c : Char) : List UInt8 :=
  if c = '"' then [0x5c, 0x22]
  else if c = '\\' then [0x5c, 0x5c]
  else if c.toNat = 0x08 then [0x5c, 0x62]
  else if c.toNat = 0x09 then [0x5c, 0x74]
  else if c.toNat = 0x0a then [0x5c, 0x6e]
  else if c.toNat = 0x0c then [0x5c, 0x66]
  else if c.toNat = 0x0d then [0x5c, 0x72]
  else if c.toNat < 0x20 then
    [0x5c, 0x75, 0x30, 0x30] ++ (hexByte (UInt8.ofNat c.toNat)).flatMap String.utf8EncodeChar
  else String.utf8EncodeChar c

/-- `serde_json::to_writer` of a string. -/
def jsonString (s : String) : List UInt8 := 0x22 :: s.toList.flatMap escapeChar ++ [0x22]

/-! ## The canonical writer -/

/-- `members.sort_unstable_by_key(|(key, _)| *key)` (line 208). The keys of a map are distinct,
    so every sort by key gives this list. -/
def sortByKey {α : Type*} (members : List (String × α)) : List (String × α) :=
  members.insertionSort fun a b => a.1 ≤ b.1

/-- Fragments of the elements with a comma between them. -/
def separated (elements : List (List (List UInt8))) : List (List UInt8) :=
  List.intercalate [[0x2c]] elements

mutual

/-- `write_canonical_value` (lines 154–167), as the fragments it writes to its sink. -/
def canonicalFragments (d : Deps) : Value → List (List UInt8)
  | .null => [utf8 "null"]
  | .bool b => [utf8 (if b then "true" else "false")]
  | .number n => [utf8 (numberText d n)]
  | .string s => [jsonString s]
  | .array items => [[0x5b]] ++ separated (itemFragments d items) ++ [[0x5d]]
  | .object members =>
    [[0x7b]] ++ separated ((sortByKey (membersFragments d members)).map Prod.snd) ++ [[0x7d]]

/-- The items of `write_canonical_array` (lines 190–198). -/
def itemFragments (d : Deps) : List Value → List (List (List UInt8))
  | [] => []
  | v :: vs => canonicalFragments d v :: itemFragments d vs

/-- The members of `write_canonical_object` (lines 201–220), before they are sorted. -/
def membersFragments (d : Deps) : List (String × Value) → List (String × List (List UInt8))
  | [] => []
  | m :: ms => memberFragments d m :: membersFragments d ms

/-- Key, colon and value of one member (lines 213–215). -/
def memberFragments (d : Deps) : String × Value → String × List (List UInt8)
  | (k, v) => (k, [jsonString k, [0x3a]] ++ canonicalFragments d v)

end

/-- `canonical_json_bytes` (lines 107–112): the `Vec<u8>` sink. -/
def canonicalJsonBytes (d : Deps) (v : Value) : List UInt8 := (canonicalFragments d v).flatten

/-- `canonical_json_digest` (lines 119–124): the `DigestSink` is updated with every fragment and
    then finalized; `Sha256::update` appends to the hashed message. -/
def canonicalJsonDigest (d : Deps) (v : Value) : Sha256Digest :=
  d.sha256 ((canonicalFragments d v).foldl (fun message fragment => message ++ fragment) [])

end BaselineOps.Domain
