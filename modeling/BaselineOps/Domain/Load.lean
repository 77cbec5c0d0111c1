import Mathlib
import BaselineOps.Domain.Traverse

/-!
# The bounded JSON loader

Model of `baselineops-domain/src/load.rs` and `load/bounds.rs`. The JSON parser and the typed
decoder of a document are code outside the repository; they enter as functions.

* `validateJsonBounds_ok_iff`: the bounds accept the values that are `Bounded` and whose number of
  nodes is within the limit.
* `loadJson_ok_iff`: what the loader accepts.
* `loadJson_canonical`: canonical text of a bounded value is accepted.
-/

namespace BaselineOps.Domain

open BaselineOps.Lib

/-! ## Errors and limits -/

/-- `DomainError` (`error.rs`, lines 7–34). The errors of other crates carry no data here. -/
inductive DomainError where
  | limitExceeded (limitName : String) (limit : ℕ)
  | utf8
  | json
  | validation (message : String)
  deriving DecidableEq

/-- `JsonLoadLimits` (`load.rs`, lines 12–25). -/
structure JsonLoadLimits where
  maxBytes : ℕ
  maxDepth : ℕ
  maxObjectEntries : ℕ
  maxArrayEntries : ℕ
  maxStringBytes : ℕ
  maxNodes : ℕ

/-- `JsonLoadLimits::default` (lines 27–38). -/
def defaultLoadLimits : JsonLoadLimits where
  maxBytes := 1024 * 1024
  maxDepth := 32
  maxObjectEntries := 256
  maxArrayEntries := 1024
  maxStringBytes := 64 * 1024
  maxNodes := 16 * 1024

/-- The check that a size is within its limit. -/
def ensureLimit (limitName : String) (limit size : ℕ) : Except DomainError Unit :=
  if size > limit then .error (.limitExceeded limitName limit) else .ok ()

/-- The walk of `validate_json_bounds` (`bounds.rs`): `validate_node_count` (lines 23–32),
    `validate_depth` (34–42), `validate_string` (44–52), the entry counts of `validate_array` (60–65)
    and `validate_object` (78–83), and `validate_property_name` (91–99). -/
def boundsTraversal (limits : JsonLoadLimits) : Traversal DomainError where
  maxNodes := limits.maxNodes
  nodesError := .limitExceeded "JSON value count" limits.maxNodes
  maxDepth := limits.maxDepth
  depthError := .limitExceeded "JSON nesting depth" limits.maxDepth
  text value := ensureLimit "JSON string size" limits.maxStringBytes (utf8 value).length
  arraySize := ensureLimit "JSON array entry count" limits.maxArrayEntries
  objectSize := ensureLimit "JSON object entry count" limits.maxObjectEntries
  key key := ensureLimit "JSON property name size" limits.maxStringBytes (utf8 key).length

/-- `validate_json_bounds` (lines 7–21): the node count behind the value. -/
def validateJsonBounds (value : Value) (limits : JsonLoadLimits) (depth nodes : ℕ) :
    Except DomainError ℕ :=
  value.traverse (boundsTraversal limits) depth nodes

/-! ## The loader -/

/-- `std::str::from_utf8`. -/
def fromUtf8 (bytes : List UInt8) : Option String := String.fromUTF8? bytes.toByteArray

/-- `load_json` (`load.rs`, lines 49–60) with the parser `serde_json::from_str::<Value>` and the
    typed decoder `serde_json::from_value`. -/
def loadJson {α : Type} (fromStr : String → Option Value) (fromValue : Value → Option α)
    (limits : JsonLoadLimits) (bytes : List UInt8) : Except DomainError α := do
  ensureLimit "document byte size" limits.maxBytes bytes.length
  match fromUtf8 bytes with
  | none => throw .utf8
  | some text =>
    match fromStr text with
    | none => throw .json
    | some value =>
      let _ ← validateJsonBounds value limits 0 0
      match fromValue value with
      | none => throw .json
      | some document => return document

/-! ## Bounded values -/

/-- Depth, entry counts and string sizes of one value, without what is in it. -/
def Value.LocallyBounded (limits : JsonLoadLimits) (depth : ℕ) : Value → Prop
  | .string s => depth ≤ limits.maxDepth ∧ (utf8 s).length ≤ limits.maxStringBytes
  | .array items => depth ≤ limits.maxDepth ∧ items.length ≤ limits.maxArrayEntries
  | .object members => depth ≤ limits.maxDepth ∧ members.length ≤ limits.maxObjectEntries ∧
    ∀ key ∈ members.map Prod.fst, (utf8 key).length ≤ limits.maxStringBytes
  | _ => depth ≤ limits.maxDepth

/-- Depth, entry counts and string sizes of a value are within the limits, all the way down. -/
def Value.Bounded (limits : JsonLoadLimits) : ℕ → Value → Prop :=
  Value.All (Value.LocallyBounded limits)

@[simp] theorem ensureLimit_ok_iff {limitName : String} {limit size : ℕ} {u : Unit} :
    ensureLimit limitName limit size = .ok u ↔ size ≤ limit := by
  unfold ensureLimit
  split
  · simp; omega
  · simp; omega

theorem boundsTraversal_local {limits : JsonLoadLimits} {depth : ℕ} {v : Value} :
    (boundsTraversal limits).Local depth v ↔ v.LocallyBounded limits depth := by
  cases v <;> simp [Traversal.Local, boundsTraversal, Value.LocallyBounded]

theorem validateJsonBounds_ok_iff {limits : JsonLoadLimits} {v : Value} {depth nodes n : ℕ} :
    validateJsonBounds v limits depth nodes = .ok n ↔
      v.Bounded limits depth ∧ n = nodes + v.nodes ∧ n ≤ limits.maxNodes := by
  have hall : v.All (boundsTraversal limits).Local depth ↔ v.Bounded limits depth :=
    ⟨Value.all_mono fun _ _ => boundsTraversal_local.mp,
      Value.all_mono fun _ _ => boundsTraversal_local.mpr⟩
  rw [validateJsonBounds, traverse_ok_iff, hall]
  rfl

theorem Value.bounded_sortKeys {limits : JsonLoadLimits} {depth : ℕ} {v : Value}
    (h : v.Bounded limits depth) : (sortKeys v).Bounded limits depth := by
  refine Value.all_sortKeys ?_ h
  intro depth v hv
  cases v with
  | null | bool b | number n | string s => exact hv
  | array items =>
    rw [sortKeys, sortKeysItems_eq_map, Value.LocallyBounded, List.length_map]
    exact hv
  | object members =>
    obtain ⟨hdepth, hcount, hkeys⟩ := hv
    have hlen := (map_fst_sortKeys_perm members).length_eq
    rw [List.length_map, List.length_map] at hlen
    refine ⟨hdepth, by rw [hlen]; exact hcount, ?_⟩
    intro key hkey
    exact hkeys key ((map_fst_sortKeys_perm members).mem_iff.mp hkey)

/-! ## Text -/

theorem fromUtf8_utf8 (s : String) : fromUtf8 (utf8 s) = some s := by
  have hbytes : (utf8 s).toByteArray = s.toByteArray := by
    rw [← String.utf8Encode_toList]
    rfl
  rw [fromUtf8, hbytes, String.fromUTF8?, dif_pos s.isValidUTF8]
  rfl

/-- The bytes are the UTF-8 encoding of some string. -/
def IsText (bytes : List UInt8) : Prop := ∃ s, utf8 s = bytes

theorem isText_utf8 (s : String) : IsText (utf8 s) := ⟨s, rfl⟩

theorem isText_nil : IsText [] := ⟨"", rfl⟩

theorem IsText.append {a b : List UInt8} (ha : IsText a) (hb : IsText b) : IsText (a ++ b) := by
  obtain ⟨s, rfl⟩ := ha
  obtain ⟨t, rfl⟩ := hb
  exact ⟨s ++ t, by simp [utf8]⟩

theorem isText_flatMap {α : Type*} {f : α → List UInt8} {l : List α}
    (h : ∀ x ∈ l, IsText (f x)) : IsText (l.flatMap f) := by
  induction l with
  | nil => exact isText_nil
  | cons x l ih =>
    rw [List.flatMap_cons]
    exact (h x (by simp)).append (ih fun y hy => h y (by simp [hy]))

theorem isText_intercalate {sep : List UInt8} {l : List (List UInt8)} (hsep : IsText sep)
    (h : ∀ x ∈ l, IsText x) : IsText (List.intercalate sep l) := by
  induction l with
  | nil => exact isText_nil
  | cons x l ih =>
    cases l with
    | nil => simpa [List.intercalate] using h x (by simp)
    | cons y l =>
      have hrest := ih fun z hz => h z (by simp [hz])
      rw [show List.intercalate sep (x :: y :: l) = x ++ (sep ++ List.intercalate sep (y :: l)) by
        simp [List.intercalate]]
      exact (h x (by simp)).append (hsep.append hrest)

theorem isText_escapeChar (c : Char) : IsText (escapeChar c) := by
  unfold escapeChar
  split_ifs
  · exact ⟨"\\\"", by decide⟩
  · exact ⟨"\\\\", by decide⟩
  · exact ⟨"\\b", by decide⟩
  · exact ⟨"\\t", by decide⟩
  · exact ⟨"\\n", by decide⟩
  · exact ⟨"\\f", by decide⟩
  · exact ⟨"\\r", by decide⟩
  · exact IsText.append ⟨"\\u00", by decide⟩
      ⟨String.ofList (hexByte (UInt8.ofNat c.toNat)), by simp [utf8]⟩
  · exact ⟨String.singleton c, by simp [utf8]⟩

theorem isText_jsonString (s : String) : IsText (jsonString s) :=
  IsText.append (a := [0x22]) ⟨"\"", by decide⟩
    (IsText.append (isText_flatMap fun c _ => isText_escapeChar c) ⟨"\"", by decide⟩)

theorem isText_plainBytes (d : Deps) (v : Value) : IsText (plainBytes d v) := by
  have hcomma : IsText [0x2c] := ⟨",", by decide⟩
  induction v using Value.induction with
  | null | bool b | number n => exact isText_utf8 _
  | string s => exact isText_jsonString s
  | array items ih =>
    rw [plainBytes, plainItems_eq_map]
    refine IsText.append (a := [0x5b]) ⟨"[", by decide⟩
      (IsText.append (isText_intercalate hcomma ?_) ⟨"]", by decide⟩)
    intro x hx
    obtain ⟨v, hv, rfl⟩ := List.mem_map.mp hx
    exact ih v hv
  | object members ih =>
    rw [plainBytes, plainMembers_eq_map]
    refine IsText.append (a := [0x7b]) ⟨"\x7b", by decide⟩
      (IsText.append (isText_intercalate hcomma ?_) ⟨"\x7d", by decide⟩)
    intro x hx
    obtain ⟨m, hm, rfl⟩ := List.mem_map.mp hx
    exact (isText_jsonString _).append (IsText.append (a := [0x3a]) ⟨":", by decide⟩ (ih m hm))

theorem isText_canonicalJsonBytes (d : Deps) (v : Value) : IsText (canonicalJsonBytes d v) := by
  rw [canonicalJsonBytes_eq_plain]
  exact isText_plainBytes d _

/-! ## Loading -/

/-- What the loader accepts: text within the byte limit whose value is within the structural
    limits and decodes. -/
theorem loadJson_ok_iff {α : Type} {fromStr : String → Option Value} {fromValue : Value → Option α}
    {limits : JsonLoadLimits} {bytes : List UInt8} {document : α} :
    loadJson fromStr fromValue limits bytes = .ok document ↔
      bytes.length ≤ limits.maxBytes ∧ ∃ text value, fromUtf8 bytes = some text ∧
        fromStr text = some value ∧ value.Bounded limits 0 ∧ value.nodes ≤ limits.maxNodes ∧
        fromValue value = some document := by
  simp only [loadJson, except_bind_ok_iff, ensureLimit_ok_iff, exists_const]
  refine and_congr_right fun _ => ?_
  cases fromUtf8 bytes with
  | none => simp [throw, throwThe, MonadExceptOf.throw]
  | some text =>
    cases hvalue : fromStr text with
    | none => simp [hvalue, throw, throwThe, MonadExceptOf.throw]
    | some value =>
      simp only [hvalue, except_bind_ok_iff, validateJsonBounds_ok_iff, Option.some.injEq,
        zero_add]
      constructor
      · rintro ⟨n, ⟨hbounded, rfl, hnodes⟩, hdecode⟩
        cases hdoc : fromValue value with
        | none => simp [hdoc, throw, throwThe, MonadExceptOf.throw] at hdecode
        | some doc =>
          simp only [hdoc, pure, Except.pure, Except.ok.injEq] at hdecode
          exact ⟨text, value, rfl, hvalue, hbounded, hnodes, by rw [hdoc, hdecode]⟩
      · rintro ⟨_, value', rfl, hvalue', hbounded, hnodes, hdoc⟩
        obtain rfl := Option.some.inj (hvalue.symm.trans hvalue')
        exact ⟨_, ⟨hbounded, rfl, hnodes⟩, by simp [hdoc, pure, Except.pure]⟩

/-- One value that `serde_json` reads back as it was: no floating-point number, no repeated key,
    and below the nesting limit of the parser. -/
def Value.LocallyReadable (depth : ℕ) : Value → Prop
  | .number n => ∀ x, n ≠ .float x
  | .array _ => depth < 127
  | .object members => depth < 127 ∧ (members.map Prod.fst).Nodup
  | _ => True

/-- The parser reads canonical text back, with the members of objects in the order of their
    keys. -/
def ReadsCanonical (d : Deps) (fromStr : String → Option Value) : Prop :=
  ∀ v text, v.All Value.LocallyReadable 0 → utf8 text = canonicalJsonBytes d v →
    fromStr text = some (sortKeys v)

theorem loadJson_canonical {α : Type} {d : Deps} {fromStr : String → Option Value}
    {fromValue : Value → Option α} {limits : JsonLoadLimits} {v : Value} {document : α}
    (hread : ReadsCanonical d fromStr) (hreadable : v.All Value.LocallyReadable 0)
    (hsize : (canonicalJsonBytes d v).length ≤ limits.maxBytes) (hbounded : v.Bounded limits 0)
    (hnodes : v.nodes ≤ limits.maxNodes) (hdecode : fromValue (sortKeys v) = some document) :
    loadJson fromStr fromValue limits (canonicalJsonBytes d v) = .ok document := by
  obtain ⟨text, htext⟩ := isText_canonicalJsonBytes d v
  refine loadJson_ok_iff.mpr ⟨hsize, text, sortKeys v, ?_, hread v text hreadable htext,
    Value.bounded_sortKeys hbounded, by rw [Value.nodes_sortKeys]; exact hnodes, hdecode⟩
  rw [← htext, fromUtf8_utf8]

end BaselineOps.Domain
