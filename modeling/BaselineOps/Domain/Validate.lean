import Mathlib
import BaselineOps.Domain.Load
import BaselineOps.Domain.Result

/-!
# Validation of worker results

Model of `baselineops-domain/src/validate.rs` (lines 426–560) and `validate/worker.rs`: the checks
of fields and JSON maps that all documents share, and those of `WorkerResultV3`.

* `validateValue_ok_iff`: the typed JSON values that are accepted.
* `validateWorkerResult_ok`: what a valid worker result satisfies.
-/

namespace BaselineOps.Domain

open BaselineOps.Lib

/-! ## Fields -/

/-- `validation` (line 558). -/
def validation {α : Type} (message : String) : Except DomainError α := .error (.validation message)

/-- `char::is_whitespace`: the Unicode property `White_Space`. -/
def isWhitespace (c : Char) : Bool :=
  (0x9 ≤ c.toNat && c.toNat ≤ 0xd) || c.toNat == 0x20 || c.toNat == 0x85 || c.toNat == 0xa0 ||
    c.toNat == 0x1680 || (0x2000 ≤ c.toNat && c.toNat ≤ 0x200a) || c.toNat == 0x2028 ||
    c.toNat == 0x2029 || c.toNat == 0x202f || c.toNat == 0x205f || c.toNat == 0x3000

/-- `validate_nonempty` (lines 548–556). -/
def validateNonempty (name value : String) (maxBytes : ℕ) : Except DomainError Unit :=
  if value.toList.all isWhitespace then validation (name ++ " must not be empty")
  else if (utf8 value).length > maxBytes then
    validation (name ++ " exceeds the " ++ Nat.repr maxBytes ++ " byte limit")
  else .ok ()

/-- `validate_optional_text` (lines 541–546). -/
def validateOptionalText (name : String) (value : Option String) (maxBytes : ℕ) :
    Except DomainError Unit :=
  match value with
  | some value => validateNonempty name value maxBytes
  | none => .ok ()

/-- `MAX_TYPED_MAP_ENTRIES` (`lib.rs`, line 41). -/
def maxTypedMapEntries : ℕ := 256

/-- A size check of `validate_value`. -/
def ensureTyped (size limit : ℕ) (message : String) : Except DomainError Unit :=
  if size > limit then validation message else .ok ()

/-- The walk of `validate_value` (lines 482–539): `validate_value_position`,
    `validate_typed_string`, `validate_typed_array`, `validate_typed_object_size` and
    `validate_typed_member`. -/
def typedTraversal : Traversal DomainError where
  maxNodes := 4096
  nodesError := .validation "typed JSON value exceeds the 4096 node limit"
  maxDepth := 16
  depthError := .validation "typed JSON value exceeds the 16-level nesting limit"
  text value := ensureTyped (utf8 value).length (64 * 1024)
    "typed JSON string exceeds the 64 KiB limit"
  arraySize count := ensureTyped count maxTypedMapEntries
    "typed JSON array exceeds the 256 entry limit"
  objectSize count := ensureTyped count maxTypedMapEntries
    "typed JSON object exceeds the 256 entry limit"
  key key := validateNonempty "typed JSON property name" key 256

/-- `validate_value` (lines 472–480). -/
def validateValue (value : Value) (depth nodes : ℕ) : Except DomainError ℕ :=
  value.traverse typedTraversal depth nodes

/-- `validate_json_map` (lines 459–470). -/
def validateJsonMap (name : String) (map : JsonMap) : Except DomainError Unit := do
  if map.entries.length > maxTypedMapEntries then
    validation (name ++ " has more than " ++ Nat.repr maxTypedMapEntries ++ " entries")
  map.entries.forM fun entry => do
    validateNonempty name entry.1 256
    let _ ← validateValue entry.2 0 0

/-- `validate_relative_locator` (lines 448–457). -/
def validateRelativeLocator (locator : String) : Except DomainError Unit := do
  validateNonempty "artifact locator" locator 2048
  if locator.toList.head? = some '/' ∨ locator.toList.head? = some '\\' ∨
      (locator.toList.splitOnP fun c => c == '/' || c == '\\').any (· == ['.', '.']) then
    validation "artifact locator must be relative and may not contain parent traversal"

/-- `BTreeSet::insert` of an element that must be new. -/
def insertNew {α : Type} [DecidableEq α] (seen : List α) (x : α) (message : String) :
    Except DomainError (List α) :=
  if x ∈ seen then validation message else .ok (x :: seen)

/-- `validate_artifacts` (lines 426–437). -/
def validateArtifacts (artifacts : List ArtifactV3) : Except DomainError Unit := do
  let _ ← artifacts.foldlM (fun ids artifact => do
    let ids ← insertNew ids artifact.id "artifact IDs must be unique within their collection"
    validateNonempty "artifact media type" artifact.mediaType 255
    validateRelativeLocator artifact.locator
    validateJsonMap "artifact metadata" artifact.metadata
    return ids) []

/-! ## Worker results -/

/-- `MAX_RECEIPTS` (`worker.rs`, line 7). -/
def maxReceipts : ℕ := 512

/-- `MAX_ARTIFACTS` (line 8). -/
def maxArtifacts : ℕ := 1024

/-- `MAX_ARTIFACT_BYTES` (line 9). -/
def maxArtifactBytes : ℕ := 1024 * 1024 * 1024

/-- `validate_exit_code` (lines 34–39). -/
def validateExitCode (result : WorkerResultV3) : Except DomainError Unit :=
  if result.exitCode ≠ (ExitCode.forStatus result.finalStatus).asI32 then
    validation "worker result status and exit code disagree"
  else .ok ()

/-- `validate_optional_reason` (lines 46–51). -/
def validateOptionalReason (result : WorkerResultV3) : Except DomainError Unit :=
  validateOptionalText "worker result reason" result.reason 4096

/-- `requires_reason` (lines 60–68). -/
def requiresReason (status : ResultStatus) : Bool :=
  [ResultStatus.executionFailed, .unsupported, .rejected, .cancelled].contains status

/-- `validate_required_reason` (lines 53–58). -/
def validateRequiredReason (result : WorkerResultV3) : Except DomainError Unit :=
  if requiresReason result.finalStatus ∧ result.reason.isNone then
    validation "non-success worker result must explain its terminal status"
  else .ok ()

/-- `validate_reason` (lines 41–44). -/
def validateReason (result : WorkerResultV3) : Except DomainError Unit := do
  validateOptionalReason result
  validateRequiredReason result

/-- `has_mutation_evidence` (lines 77–81). -/
def hasMutationEvidence (result : WorkerResultV3) : Bool :=
  result.journalTerminalHash.isSome || !result.receipts.isEmpty ||
    !result.artifactManifest.isEmpty

/-- `validate_unsupported_evidence` (lines 70–75). -/
def validateUnsupportedEvidence (result : WorkerResultV3) : Except DomainError Unit :=
  if result.finalStatus = .unsupported ∧ hasMutationEvidence result then
    validation "unsupported worker result must not carry mutation evidence"
  else .ok ()

/-- `journal_required` (lines 90–93). -/
def journalRequired (status : ResultStatus) : Bool :=
  [ResultStatus.completed, .warnings].contains status

/-- `validate_completed_journal` (lines 83–88). -/
def validateCompletedJournal (result : WorkerResultV3) : Except DomainError Unit :=
  if journalRequired result.finalStatus ∧ result.journalTerminalHash.isNone then
    validation "completed worker result requires an anchored journal terminal hash"
  else .ok ()

/-- `has_receipts_or_artifacts` (lines 102–104). -/
def hasReceiptsOrArtifacts (result : WorkerResultV3) : Bool :=
  !result.receipts.isEmpty || !result.artifactManifest.isEmpty

/-- `validate_evidence_journal` (lines 95–100). -/
def validateEvidenceJournal (result : WorkerResultV3) : Except DomainError Unit :=
  if hasReceiptsOrArtifacts result ∧ result.journalTerminalHash.isNone then
    validation "worker receipts and artifacts require an anchored journal"
  else .ok ()

/-- `validate_worker_preconditions` (lines 17–24). -/
def validateWorkerPreconditions (result : WorkerResultV3) : Except DomainError Unit := do
  validateExitCode result
  validateReason result
  validateUnsupportedEvidence result
  validateCompletedJournal result
  validateEvidenceJournal result

/-- `validate_entry_counts` (lines 106–111). -/
def validateEntryCounts (result : WorkerResultV3) : Except DomainError Unit :=
  if result.receipts.length > maxReceipts ∨ result.artifactManifest.length > maxArtifacts then
    validation "worker result exceeds receipt or artifact count limits"
  else .ok ()

/-- `validate_receipt_ids` (lines 113–129). -/
def validateReceiptIds (result : WorkerResultV3) : Except DomainError Unit := do
  let _ ← result.receipts.foldlM (fun receiptIds receipt =>
    insertNew receiptIds receipt.actionId "worker result contains duplicate action receipts") []

/-- `sum_artifact_sizes` (lines 140–152). -/
def sumArtifactSizes (artifacts : List ArtifactV3) : Except DomainError ℕ := do
  let (_, total) ← artifacts.foldlM (fun (state : List String × ℕ) artifact => do
    let locators ← insertNew state.1 artifact.locator "worker artifact locators must be unique"
    if state.2 + artifact.sizeBytes.toNat < 2 ^ 64 then
      return (locators, state.2 + artifact.sizeBytes.toNat)
    else validation "worker artifact size overflowed") ([], 0)
  return total

/-- `validate_artifact_locations` (lines 131–138). -/
def validateArtifactLocations (result : WorkerResultV3) : Except DomainError Unit := do
  let total ← sumArtifactSizes result.artifactManifest
  if total > maxArtifactBytes then
    validation "worker artifact manifest exceeds its byte limit"

/-- `validate_worker_evidence` (lines 26–32). -/
def validateWorkerEvidence (result : WorkerResultV3) : Except DomainError Unit := do
  validateEntryCounts result
  validateReceiptIds result
  validateArtifacts result.artifactManifest
  validateArtifactLocations result

/-- `validate_worker_result` (lines 11–15). -/
def validateWorkerResult (result : WorkerResultV3) : Except DomainError Unit := do
  validateWorkerPreconditions result
  validateWorkerEvidence result

/-! ## What the checks say -/

theorem validateNonempty_ok_iff {name value : String} {maxBytes : ℕ} :
    validateNonempty name value maxBytes = .ok () ↔
      value.toList.all isWhitespace = false ∧ (utf8 value).length ≤ maxBytes := by
  unfold validateNonempty validation
  rw [except_guard_ok_iff, except_guard_ok_iff]
  simp

@[simp] theorem ensureTyped_ok_iff {size limit : ℕ} {message : String} :
    ensureTyped size limit message = .ok () ↔ size ≤ limit := by
  unfold ensureTyped validation
  rw [except_guard_ok_iff]
  simp

theorem validateValue_ok_iff {v : Value} {depth nodes n : ℕ} :
    validateValue v depth nodes = .ok n ↔
      v.All typedTraversal.Local depth ∧ n = nodes + v.nodes ∧ n ≤ 4096 :=
  traverse_ok_iff v depth nodes n

/-- What a valid worker result satisfies, as far as the development uses it. -/
structure ValidResult (result : WorkerResultV3) : Prop where
  reason : ∀ text, result.reason = some text → (utf8 text).length ≤ 4096
  receipt_ids : (result.receipts.map ActionReceiptV3.actionId).Nodup
  artifact_count : result.artifactManifest.length ≤ maxArtifacts
  locators : (result.artifactManifest.map ArtifactV3.locator).Nodup
  artifact_text : ∀ a ∈ result.artifactManifest,
    (utf8 a.mediaType).length ≤ 255 ∧ (utf8 a.locator).length ≤ 2048

/-- A fold that inserts the key of every element into a set of keys visits distinct keys. -/
theorem foldlM_insert_ok {ε α β σ : Type} {step : σ → α → Except ε σ} (key : α → β)
    (keys : σ → List β) (P : α → Prop)
    (hstep : ∀ s a s', step s a = .ok s' → key a ∉ keys s ∧ keys s' = key a :: keys s ∧ P a)
    {xs : List α} {s s' : σ} (h : xs.foldlM step s = .ok s') :
    (xs.map key).Nodup ∧ (∀ x ∈ xs, key x ∉ keys s) ∧ ∀ x ∈ xs, P x := by
  induction xs generalizing s with
  | nil => simp
  | cons x xs ih =>
    rw [List.foldlM_cons] at h
    obtain ⟨m, hx, hrest⟩ := except_bind_ok_iff.mp h
    obtain ⟨hnew, hkeys, hPx⟩ := hstep s x m hx
    obtain ⟨hnodup, hfresh, hP⟩ := ih hrest
    rw [hkeys] at hfresh
    simp only [List.mem_cons, not_or] at hfresh
    refine ⟨?_, ?_, by simpa using ⟨hPx, hP⟩⟩
    · rw [List.map_cons, List.nodup_cons]
      refine ⟨?_, hnodup⟩
      intro hmem
      obtain ⟨y, hy, heq⟩ := List.mem_map.mp hmem
      exact (hfresh y hy).1 heq
    · intro y hy
      rcases List.mem_cons.mp hy with rfl | hy
      · exact hnew
      · exact (hfresh y hy).2

theorem insertNew_ok {α : Type} [DecidableEq α] {seen seen' : List α} {x : α} {message : String}
    (h : insertNew seen x message = .ok seen') : x ∉ seen ∧ seen' = x :: seen := by
  unfold insertNew validation at h
  obtain ⟨hnew, h⟩ := except_guard_ok_iff.mp h
  exact ⟨hnew, (Except.ok.inj h).symm⟩

theorem validateReceiptIds_ok {result : WorkerResultV3} (h : validateReceiptIds result = .ok ()) :
    (result.receipts.map ActionReceiptV3.actionId).Nodup := by
  obtain ⟨ids, hfold, -⟩ := except_bind_ok_iff.mp h
  refine (foldlM_insert_ok ActionReceiptV3.actionId id (fun _ => True) ?_ hfold).1
  intro seen receipt seen' hstep
  obtain ⟨hnew, hseen⟩ := insertNew_ok hstep
  exact ⟨hnew, hseen, trivial⟩

theorem validateArtifacts_ok {artifacts : List ArtifactV3}
    (h : validateArtifacts artifacts = .ok ()) :
    ∀ a ∈ artifacts, (utf8 a.mediaType).length ≤ 255 ∧ (utf8 a.locator).length ≤ 2048 := by
  obtain ⟨ids, hfold, -⟩ := except_bind_ok_iff.mp h
  refine (foldlM_insert_ok ArtifactV3.id id (fun a =>
    (utf8 a.mediaType).length ≤ 255 ∧ (utf8 a.locator).length ≤ 2048) ?_ hfold).2.2
  intro seen artifact seen' hstep
  simp only [except_bind_ok_iff, Unique.exists_iff, PUnit.default_eq_unit, pure, Except.pure,
    Except.ok.injEq, validateNonempty_ok_iff, validateRelativeLocator] at hstep
  obtain ⟨ids', hinsert, ⟨-, hmedia⟩, ⟨⟨-, hlocator⟩, -⟩, -, rfl⟩ := hstep
  obtain ⟨hnew, hseen⟩ := insertNew_ok hinsert
  exact ⟨hnew, hseen, hmedia, hlocator⟩

theorem sumArtifactSizes_ok {artifacts : List ArtifactV3} {total : ℕ}
    (h : sumArtifactSizes artifacts = .ok total) : (artifacts.map ArtifactV3.locator).Nodup := by
  obtain ⟨state, hfold, -⟩ := except_bind_ok_iff.mp h
  refine (foldlM_insert_ok ArtifactV3.locator Prod.fst (fun _ => True) ?_ hfold).1
  intro seen artifact seen' hstep
  obtain ⟨locators, hinsert, hrest⟩ := except_bind_ok_iff.mp hstep
  obtain ⟨hnew, rfl⟩ := insertNew_ok hinsert
  split at hrest
  · cases hrest
    exact ⟨hnew, rfl, trivial⟩
  · cases hrest

theorem validateWorkerResult_ok {result : WorkerResultV3}
    (h : validateWorkerResult result = .ok ()) : ValidResult result := by
  simp only [validateWorkerResult, validateWorkerPreconditions, validateWorkerEvidence,
    validateReason, validateArtifactLocations, except_bind_ok_iff, Unique.exists_iff,
    PUnit.default_eq_unit] at h
  obtain ⟨⟨-, ⟨hreason, -⟩, -⟩, hcounts, hids, hartifacts, total, hsum, -⟩ := h
  obtain ⟨hcount, -⟩ := except_guard_ok_iff.mp hcounts
  refine ⟨?_, validateReceiptIds_ok hids, by omega, sumArtifactSizes_ok hsum,
    validateArtifacts_ok hartifacts⟩
  intro text htext
  rw [validateOptionalReason, htext] at hreason
  exact (validateNonempty_ok_iff.mp hreason).2

/-- A result with a single artifact passes the checks of sizes and locators. -/
theorem validateWorkerResult_single {result : WorkerResultV3} {artifact : ArtifactV3}
    (hmanifest : result.artifactManifest = [artifact])
    (hpre : validateWorkerPreconditions result = .ok ())
    (hcounts : validateEntryCounts result = .ok ()) (hids : validateReceiptIds result = .ok ())
    (hartifact : validateArtifacts [artifact] = .ok ())
    (hsize : artifact.sizeBytes.toNat ≤ maxArtifactBytes) : validateWorkerResult result = .ok () := by
  have hlt := artifact.sizeBytes.toNat_lt
  have hsum : sumArtifactSizes [artifact] = .ok artifact.sizeBytes.toNat := by
    simp [sumArtifactSizes, insertNew, hlt, bind, Except.bind, pure, Except.pure]
  have hlocations : validateArtifactLocations result = .ok () := by
    simp only [validateArtifactLocations, hmanifest, hsum, bind, Except.bind]
    rw [if_neg (not_lt.mpr hsize)]
    rfl
  simp only [validateWorkerResult, validateWorkerEvidence, hpre, hcounts, hids, hmanifest,
    hartifact, hlocations, bind, Except.bind]

end BaselineOps.Domain
