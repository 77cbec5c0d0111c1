import Mathlib
import BaselineOps.Domain.Canonical
import BaselineOps.Domain.Ids

/-!
# Worker results

Data types of `baselineops-domain/src/model/result.rs` and of the artifacts in `model/action.rs`,
with the JSON of their `Serialize` derives. `WorkerResultV3` is never serialized by the modelled
functions, so it has no JSON here.
-/

namespace BaselineOps.Domain

/-- `JsonMap`, a `BTreeMap<String, Value>` (`model/primitives.rs`, line 8), by ascending key. -/
@[ext]
structure JsonMap where
  entries : List (String × Value)
  sorted : entries.Pairwise fun a b => a.1 < b.1 := by decide
  deriving DecidableEq

/-- `JsonMap::new`. -/
def JsonMap.empty : JsonMap where
  entries := []

/-- `ActionStatus` (`model/result.rs`, lines 17–28). -/
inductive ActionStatus where
  | succeeded | findings | blocked | skipped | failed
  deriving DecidableEq

/-- The `snake_case` names of `ActionStatus`. -/
def ActionStatus.name : ActionStatus → String
  | .succeeded => "succeeded"
  | .findings => "findings"
  | .blocked => "blocked"
  | .skipped => "skipped"
  | .failed => "failed"

theorem ActionStatus.name_injective : Function.Injective ActionStatus.name := by
  intro a b h
  cases a <;> cases b <;> first | rfl | exact absurd h (by decide)

/-- `ActionReceiptV3` (lines 36–47). -/
@[ext]
structure ActionReceiptV3 where
  actionId : ActionId
  capability : CapabilityId
  preStateDigest : Sha256Digest
  postStateDigest : Sha256Digest
  status : ActionStatus
  deriving DecidableEq

/-- `Serialize` of `ActionReceiptV3`. -/
def ActionReceiptV3.toValue (r : ActionReceiptV3) : Value := .object
  [("action_id", .string r.actionId.uuid.toText), ("capability", .string r.capability.asStr),
   ("pre_state_digest", .string r.preStateDigest.toHex),
   ("post_state_digest", .string r.postStateDigest.toHex),
   ("status", .string r.status.name)]

/-- The JSON of a receipt determines it. -/
theorem ActionReceiptV3.toValue_inj {a b : ActionReceiptV3}
    (h : sortKeys a.toValue = sortKeys b.toValue) : a = b := by
  simp [ActionReceiptV3.toValue, sortKeys, sortKeysMembers, sortKeysMember, sortByKey,
    List.insertionSort, List.orderedInsert] at h
  obtain ⟨hid, hcapability, hpost, hpre, hstatus⟩ := h
  exact ActionReceiptV3.ext (ActionId.ext (Uuid.toText_injective hid))
    (CapabilityId.ext hcapability) (Sha256Digest.toHex_injective hpre)
    (Sha256Digest.toHex_injective hpost) (ActionStatus.name_injective hstatus)

/-! ## Artifacts -/

/-- `ArtifactKind` (`model/action.rs`, lines 89–100). -/
inductive ArtifactKind where
  | log | report | evidence | rollbackState | output
  deriving DecidableEq

/-- The `snake_case` names of `ArtifactKind`. -/
def ArtifactKind.name : ArtifactKind → String
  | .log => "log"
  | .report => "report"
  | .evidence => "evidence"
  | .rollbackState => "rollback_state"
  | .output => "output"

/-- `ArtifactV3` (`model/action.rs`, lines 105–123). -/
@[ext]
structure ArtifactV3 where
  id : ArtifactId
  kind : ArtifactKind
  mediaType : String
  locator : String
  digest : Sha256Digest
  sizeBytes : UInt64
  createdAt : DateTime
  metadata : JsonMap
  deriving DecidableEq

/-- `Serialize` of `ArtifactV3`; empty metadata is skipped. -/
def ArtifactV3.toValue (d : Deps) (a : ArtifactV3) : Value := .object
  ([("id", .string a.id.uuid.toText), ("kind", .string a.kind.name),
    ("media_type", .string a.mediaType), ("locator", .string a.locator),
    ("digest", .string a.digest.toHex), ("size_bytes", .number (.posInt a.sizeBytes)),
    ("created_at", .string (d.rfc3339 a.createdAt))] ++
   if a.metadata.entries.isEmpty then [] else [("metadata", .object a.metadata.entries)])

theorem ArtifactKind.name_injective : Function.Injective ArtifactKind.name := by
  intro a b h
  cases a <;> cases b <;> first | rfl | exact absurd h (by decide)

/-- The JSON of an artifact without metadata determines it. -/
theorem ArtifactV3.toValue_inj {d : Deps} (hd : d.LawfulText) {a b : ArtifactV3}
    (ha : a.metadata = JsonMap.empty) (hb : b.metadata = JsonMap.empty)
    (h : sortKeys (a.toValue d) = sortKeys (b.toValue d)) : a = b := by
  simp [ArtifactV3.toValue, ha, hb, JsonMap.empty, sortKeys, sortKeysMembers, sortKeysMember,
    sortByKey, List.insertionSort, List.orderedInsert] at h
  obtain ⟨hcreated, hdigest, hid, hkind, hlocator, hmedia, hsize⟩ := h
  exact ArtifactV3.ext (ArtifactId.ext (Uuid.toText_injective hid))
    (ArtifactKind.name_injective hkind) hmedia hlocator (Sha256Digest.toHex_injective hdigest) hsize
    (hd.rfc3339_inj hcreated) (ha.trans hb.symm)

/-! ## The worker result -/

/-- `SchemaVersion` (`model/primitives.rs`, lines 12–17). -/
inductive SchemaVersion where
  | v3
  deriving DecidableEq

/-- `ResultStatus` (`model/result.rs`, lines 125–138). -/
inductive ResultStatus where
  | completed | executionFailed | warnings | unsupported | rejected | cancelled
  deriving DecidableEq

/-- The `snake_case` names of `ResultStatus`. -/
def ResultStatus.name : ResultStatus → String
  | .completed => "completed"
  | .executionFailed => "execution_failed"
  | .warnings => "warnings"
  | .unsupported => "unsupported"
  | .rejected => "rejected"
  | .cancelled => "cancelled"

theorem ResultStatus.name_injective : Function.Injective ResultStatus.name := by
  intro a b h
  cases a <;> cases b <;> first | rfl | exact absurd h (by decide)

/-- `ExitCode` (lines 143–156). -/
inductive ExitCode where
  | completed | executionFailure | warnings | unsupported | rejected | cancelled
  deriving DecidableEq

/-- `ExitCode::as_i32` (lines 161–163). -/
def ExitCode.asI32 : ExitCode → ℤ
  | .completed => 0
  | .executionFailure => 1
  | .warnings => 2
  | .unsupported => 3
  | .rejected => 4
  | .cancelled => 5

/-- `ExitCode::for_status` (lines 167–176). -/
def ExitCode.forStatus : ResultStatus → ExitCode
  | .completed => .completed
  | .executionFailed => .executionFailure
  | .warnings => .warnings
  | .unsupported => .unsupported
  | .rejected => .rejected
  | .cancelled => .cancelled

/-- `WorkerResultV3` (lines 229–256). -/
@[ext]
structure WorkerResultV3 where
  schemaVersion : SchemaVersion
  planId : PlanId
  runId : RunId
  planDigest : Sha256Digest
  journalTerminalHash : Option Sha256Digest
  receipts : List ActionReceiptV3
  artifactManifest : List ArtifactV3
  finalStatus : ResultStatus
  reason : Option String
  exitCode : ℤ
  deriving DecidableEq

end BaselineOps.Domain
