import Mathlib
import BaselineOps.Domain.KeyOrder
import BaselineOps.Domain.Validate
import BaselineOps.Journal.Reader

/-!
# The result document

Model of `baselineops-engine/src/committed_result/document.rs`, with the JSON of its `Serialize`
derive, and what the development assumes of the code that reads it back.

* `ResultDocument.toValue_inj`: the JSON determines the document.
* `documentBytes_loads`: the loader reads back every document that a worker can write.
* `referenceResultDeps_lawful`: the assumptions are satisfiable.
-/

namespace BaselineOps.Engine

open BaselineOps.Domain BaselineOps.Lib

/-! ## The document -/

/-- `ResultDocument` (`document.rs`, lines 9–21). -/
@[ext]
structure ResultDocument where
  schemaVersion : String
  resultId : ResultId
  planId : PlanId
  runId : RunId
  planDigest : Sha256Digest
  journalPrefixHash : Sha256Digest
  receipts : List ActionReceiptV3
  status : ResultStatus
  reason : Option String
  rebootPossible : Bool
  artifacts : List ArtifactV3
  deriving DecidableEq

/-- `Serialize` of an optional text. -/
def optionalText : Option String → Value
  | none => .null
  | some text => .string text

/-- `Serialize` of `ResultDocument`. -/
def ResultDocument.toValue (d : Deps) (x : ResultDocument) : Value := .object
  [("schema_version", .string x.schemaVersion), ("result_id", .string x.resultId.uuid.toText),
   ("plan_id", .string x.planId.uuid.toText), ("run_id", .string x.runId.uuid.toText),
   ("plan_digest", .string x.planDigest.toHex),
   ("journal_prefix_hash", .string x.journalPrefixHash.toHex),
   ("receipts", .array (x.receipts.map ActionReceiptV3.toValue)),
   ("status", .string x.status.name), ("reason", optionalText x.reason),
   ("reboot_possible", .bool x.rebootPossible),
   ("artifacts", .array (x.artifacts.map (ArtifactV3.toValue d)))]

/-- `canonical_json_bytes(&document)`. -/
def documentBytes (d : Deps) (x : ResultDocument) : List UInt8 :=
  canonicalJsonBytes d (x.toValue d)

/-- `JournalDeps`, `serde_json`'s parser, the typed decoder of the result document and
    `Uuid::parse_str`. -/
structure ResultDeps extends JournalDeps where
  jsonFromStr : String → Option Value
  documentFromValue : Value → Option ResultDocument
  uuidParse : String → Option Uuid

/-- The artifacts carry no metadata, as those that the worker writes. -/
def ResultDocument.Plain (x : ResultDocument) : Prop :=
  ∀ a ∈ x.artifacts, a.metadata = JsonMap.empty

/-- What the development assumes of the external code: canonical text can be read back, an
    identifier can be read back from its text, and the text of a time is short. -/
structure ResultDeps.Lawful (d : ResultDeps) : Prop where
  records : d.toJournalDeps.RoundTrips
  json : ReadsCanonical d.toDeps d.jsonFromStr
  document : ∀ x : ResultDocument, x.Plain →
    d.documentFromValue (sortKeys (x.toValue d.toDeps)) = some x
  uuid : ∀ u : Uuid, d.uuidParse u.toText = some u
  rfc3339_length : ∀ t, (utf8 (d.rfc3339 t)).length ≤ 64

/-! ## The JSON determines the document -/

theorem optionalText_injective : Function.Injective optionalText := by
  intro a b h
  cases a <;> cases b <;> simp [optionalText] at h ⊢
  exact h

theorem ResultDocument.toValue_inj {d : Deps} (hd : d.LawfulText) {a b : ResultDocument}
    (ha : a.Plain) (hb : b.Plain) (h : sortKeys (a.toValue d) = sortKeys (b.toValue d)) :
    a = b := by
  have hreason : ∀ r, sortKeys (optionalText r) = optionalText r := by
    intro r
    cases r <;> rfl
  simp [ResultDocument.toValue, sortKeys, sortKeysMembers, sortKeysMember, sortByKey,
    List.insertionSort, List.orderedInsert, sortKeysItems_eq_map, hreason,
    -List.map_inj_left] at h
  obtain ⟨hartifacts, hprefix, hdigest, hplan, htext, hreboot, hreceipts, hresult, hrun, hschema,
    hstatus⟩ := h
  refine ResultDocument.ext hschema (ResultId.ext (Uuid.toText_injective hresult))
    (PlanId.ext (Uuid.toText_injective hplan)) (RunId.ext (Uuid.toText_injective hrun))
    (Sha256Digest.toHex_injective hdigest) (Sha256Digest.toHex_injective hprefix) ?_
    (ResultStatus.name_injective hstatus) (optionalText_injective htext) hreboot ?_
  · exact map_inj_on (fun x _ y _ => ActionReceiptV3.toValue_inj) hreceipts
  · exact map_inj_on (fun x hx y hy => ArtifactV3.toValue_inj hd (ha x hx) (hb y hy)) hartifacts

/-! ## Loading a document -/

/-- The documents that a worker can write: few receipts and artifacts, and short texts. -/
structure ResultDocument.Writable (x : ResultDocument) : Prop where
  plain : x.Plain
  schema : x.schemaVersion = "1.0"
  receipts : x.receipts.length ≤ maxReceipts
  artifacts : x.artifacts.length ≤ maxArtifacts
  reason : ∀ text, x.reason = some text → (utf8 text).length ≤ 4096
  artifact_text : ∀ a ∈ x.artifacts,
    (utf8 a.mediaType).length ≤ 255 ∧ (utf8 a.locator).length ≤ 2048

theorem bounded_string {depth : ℕ} {s : String} (hdepth : depth ≤ 32)
    (hs : (utf8 s).length ≤ 4096) : (Value.string s).Bounded defaultLoadLimits depth :=
  ⟨hdepth, hs.trans (by decide)⟩

/-- An object with few members and the given literal keys. -/
theorem bounded_object {depth : ℕ} {members : List (String × Value)} (hdepth : depth ≤ 32)
    (hcount : members.length ≤ 256)
    (hkeys : ∀ key ∈ members.map Prod.fst, (utf8 key).length ≤ 64 * 1024)
    (hmembers : ∀ m ∈ members, m.2.Bounded defaultLoadLimits (depth + 1)) :
    (Value.object members).Bounded defaultLoadLimits depth :=
  Value.all_object.mpr ⟨⟨hdepth, hcount, hkeys⟩, hmembers⟩

theorem bounded_array {depth : ℕ} {items : List Value} (hdepth : depth ≤ 32)
    (hcount : items.length ≤ 1024)
    (hitems : ∀ v ∈ items, v.Bounded defaultLoadLimits (depth + 1)) :
    (Value.array items).Bounded defaultLoadLimits depth :=
  Value.all_array.mpr ⟨⟨hdepth, hcount⟩, hitems⟩

theorem bounded_receipt (r : ActionReceiptV3) : r.toValue.Bounded defaultLoadLimits 2 := by
  have hname : (utf8 r.status.name).length ≤ 4096 := by cases r.status <;> decide
  have hcapability := r.capability.length_utf8
  have hid := r.actionId.uuid.length_utf8
  have hpre := r.preStateDigest.length_utf8
  have hpost := r.postStateDigest.length_utf8
  refine bounded_object (by decide) (by simp) (by simp; decide) ?_
  simp only [List.forall_mem_cons, List.not_mem_nil, false_implies, implies_true, and_true]
  refine ⟨?_, ?_, ?_, ?_, ?_⟩ <;> exact bounded_string (by decide) (by omega)

theorem bounded_artifact {d : ResultDeps} (hd : d.Lawful) {a : ArtifactV3}
    (hplain : a.metadata = JsonMap.empty) (hmedia : (utf8 a.mediaType).length ≤ 255)
    (hlocator : (utf8 a.locator).length ≤ 2048) :
    (a.toValue d.toDeps).Bounded defaultLoadLimits 2 := by
  have hkind : (utf8 a.kind.name).length ≤ 4096 := by cases a.kind <;> decide
  have hid := a.id.uuid.length_utf8
  have hdigest := a.digest.length_utf8
  have hcreated := hd.rfc3339_length a.createdAt
  simp only [ArtifactV3.toValue, hplain, JsonMap.empty, List.isEmpty_nil, if_true, List.append_nil]
  refine bounded_object (by decide) (by simp) (by simp; decide) ?_
  simp only [List.forall_mem_cons, List.not_mem_nil, false_implies, implies_true, and_true]
  refine ⟨?_, ?_, ?_, ?_, ?_, show 3 ≤ 32 by decide, ?_⟩ <;>
    exact bounded_string (by decide) (by omega)

theorem ResultDocument.Writable.bounded {d : ResultDeps} (hd : d.Lawful) {x : ResultDocument}
    (h : x.Writable) : (x.toValue d.toDeps).Bounded defaultLoadLimits 0 := by
  have hstatus : (utf8 x.status.name).length ≤ 4096 := by cases x.status <;> decide
  have hschema : (utf8 x.schemaVersion).length ≤ 4096 := by rw [h.schema]; decide
  have hresult := x.resultId.uuid.length_utf8
  have hplan := x.planId.uuid.length_utf8
  have hrun := x.runId.uuid.length_utf8
  have hdigest := x.planDigest.length_utf8
  have hprefix := x.journalPrefixHash.length_utf8
  refine bounded_object (by decide) (by simp) (by simp; decide) ?_
  simp only [List.forall_mem_cons, List.not_mem_nil, false_implies, implies_true, and_true]
  refine ⟨?_, ?_, ?_, ?_, ?_, ?_, ?_, ?_, ?_, show 1 ≤ 32 by decide, ?_⟩
  · exact bounded_string (by decide) hschema
  · exact bounded_string (by decide) (by omega)
  · exact bounded_string (by decide) (by omega)
  · exact bounded_string (by decide) (by omega)
  · exact bounded_string (by decide) (by omega)
  · exact bounded_string (by decide) (by omega)
  · refine bounded_array (by decide) ?_ ?_
    · rw [List.length_map]
      exact h.receipts.trans (by decide)
    · intro v hv
      obtain ⟨r, -, rfl⟩ := List.mem_map.mp hv
      exact bounded_receipt r
  · exact bounded_string (by decide) hstatus
  · cases hreason : x.reason with
    | none => exact show 1 ≤ 32 by decide
    | some text => exact bounded_string (by decide) (h.reason text hreason)
  · refine bounded_array (by decide) ?_ ?_
    · rw [List.length_map]
      exact h.artifacts
    · intro v hv
      obtain ⟨a, ha, rfl⟩ := List.mem_map.mp hv
      exact bounded_artifact hd (h.plain a ha) (h.artifact_text a ha).1 (h.artifact_text a ha).2

/-- A document has twelve values of its own, six for each receipt and eight for each artifact. -/
theorem ResultDocument.nodes_eq {d : Deps} {x : ResultDocument} (h : x.Plain) :
    (x.toValue d).nodes = 12 + 6 * x.receipts.length + 8 * x.artifacts.length := by
  have hreceipts : Value.nodesItems (x.receipts.map ActionReceiptV3.toValue) =
      6 * x.receipts.length := Value.nodesItems_map fun _ _ => rfl
  have hartifacts : Value.nodesItems (x.artifacts.map (ArtifactV3.toValue d)) =
      8 * x.artifacts.length := by
    refine Value.nodesItems_map fun a ha => ?_
    simp [ArtifactV3.toValue, h a ha, JsonMap.empty, Value.nodes, Value.nodesMembers,
      Value.nodesMember]
  have hreason : (optionalText x.reason).nodes = 1 := by cases x.reason <;> rfl
  simp only [ResultDocument.toValue, Value.nodes, Value.nodesMembers, Value.nodesMember, hreceipts,
    hartifacts, hreason]
  omega

theorem ResultDocument.readable {d : Deps} {x : ResultDocument} (h : x.Plain) :
    (x.toValue d).All Value.LocallyReadable 0 := by
  refine Value.all_object.mpr ⟨⟨by decide, by simp⟩, ?_⟩
  simp only [List.forall_mem_cons, List.not_mem_nil, false_implies, implies_true, and_true]
  refine ⟨trivial, trivial, trivial, trivial, trivial, trivial, ?_, trivial, ?_, trivial, ?_⟩
  · refine Value.all_array.mpr ⟨show 1 < 127 by decide, ?_⟩
    intro v hv
    obtain ⟨r, -, rfl⟩ := List.mem_map.mp hv
    refine Value.all_object.mpr ⟨⟨by decide, by simp⟩, ?_⟩
    simp only [List.forall_mem_cons, List.not_mem_nil, false_implies, implies_true, and_true]
    exact ⟨trivial, trivial, trivial, trivial, trivial⟩
  · cases x.reason <;> trivial
  · refine Value.all_array.mpr ⟨show 1 < 127 by decide, ?_⟩
    intro v hv
    obtain ⟨a, ha, rfl⟩ := List.mem_map.mp hv
    simp only [ArtifactV3.toValue, h a ha, JsonMap.empty, List.isEmpty_nil, if_true,
      List.append_nil]
    refine Value.all_object.mpr ⟨⟨by decide, by simp⟩, ?_⟩
    simp only [List.forall_mem_cons, List.not_mem_nil, false_implies, implies_true, and_true]
    refine ⟨trivial, trivial, trivial, trivial, trivial, ?_, trivial⟩
    intro _ hx
    cases hx

/-- The loader reads a document back that fits the byte limit. -/
theorem documentBytes_loads {d : ResultDeps} (hd : d.Lawful) {x : ResultDocument}
    (h : x.Writable) (hsize : (documentBytes d.toDeps x).length ≤ defaultLoadLimits.maxBytes) :
    loadJson d.jsonFromStr d.documentFromValue defaultLoadLimits (documentBytes d.toDeps x) =
      .ok x := by
  refine loadJson_canonical hd.json (ResultDocument.readable h.plain) hsize (h.bounded hd) ?_
    (hd.document x h.plain)
  rw [ResultDocument.nodes_eq h.plain]
  have hreceipts : x.receipts.length ≤ 512 := h.receipts
  have hartifacts : x.artifacts.length ≤ 1024 := h.artifacts
  have hmax : defaultLoadLimits.maxNodes = 16384 := rfl
  omega

/-! ## Reference instance -/

open Classical in
/-- `referenceJournalDeps` with parsers that read canonical texts, and no others. -/
noncomputable def referenceResultDeps : ResultDeps where
  toJournalDeps := referenceJournalDeps
  jsonFromStr text :=
    if h : ∃ v, canonicalJsonBytes referenceDeps v = utf8 text then some (sortKeys h.choose)
    else none
  documentFromValue value :=
    if h : ∃ x : ResultDocument, x.Plain ∧ sortKeys (x.toValue referenceDeps) = value then
      some h.choose
    else none
  uuidParse text := if h : ∃ u : Uuid, u.toText = text then some h.choose else none

theorem referenceResultDeps_lawful : referenceResultDeps.Lawful where
  records := referenceJournalDeps_roundTrips
  json := by
    intro v text _ htext
    have h : ∃ u, canonicalJsonBytes referenceDeps u = utf8 text := ⟨v, htext.symm⟩
    have heq : sortKeys h.choose = sortKeys v :=
      canonicalJsonBytes_inj referenceDeps_lawful (h.choose_spec.trans htext)
    simp only [referenceResultDeps]
    rw [dif_pos h, heq]
  document := by
    intro x hx
    have h : ∃ y : ResultDocument, y.Plain ∧
        sortKeys (y.toValue referenceDeps) = sortKeys (x.toValue referenceDeps) := ⟨x, hx, rfl⟩
    have heq : h.choose = x := ResultDocument.toValue_inj referenceDeps_lawful h.choose_spec.1 hx
      h.choose_spec.2
    simp only [referenceResultDeps]
    exact (dif_pos h).trans (congrArg some heq)
  uuid := by
    intro u
    have h : ∃ v : Uuid, v.toText = u.toText := ⟨u, rfl⟩
    have heq : h.choose = u := Uuid.toText_injective h.choose_spec
    simp only [referenceResultDeps]
    rw [dif_pos h, heq]
  rfc3339_length := referenceDeps_rfc3339_length

end BaselineOps.Engine
