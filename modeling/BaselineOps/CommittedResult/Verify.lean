import Mathlib
import BaselineOps.CommittedResult.Document
import BaselineOps.Lib.Split

/-!
# Reconciliation of a committed result

Model of `baselineops-engine/src/committed_result.rs` and `committed_result/verify.rs`: the checks
that tie the result document on disk to the worker's envelope and to the journal.

* `artifactScope_ok_iff`, `reportArtifact_ok_iff`, `decodeDocument_ok_iff`,
  `documentBinding_ok_iff`, `journalBinding_ok_iff`: what each group of checks accepts.
* `reconcile_ok_iff`: an envelope, a document and a journal are accepted when they are `Bound`.
-/

namespace BaselineOps.Engine

open BaselineOps.Domain BaselineOps.Lib

/-- `CommittedWorkerResult` (`committed_result.rs`, lines 13–16). -/
@[ext]
structure CommittedWorkerResult where
  document : ResultDocument
  bytes : List UInt8

/-- `CommittedResultError` (lines 97–111), without the failed read of the protected files. -/
inductive CommittedResultError where
  | domain (error : DomainError)
  | journal (error : JournalError)
  | mismatch (reason : String)

/-- Return `Mismatch(reason)` under a condition. -/
def mismatchIf (c : Prop) [Decidable c] (reason : String) : Except CommittedResultError Unit :=
  if c then .error (.mismatch reason) else .ok ()

/-! ## The report artifact -/

/-- `str::split_once`. -/
def splitOnce (delimiter : Char) (s : String) : Option (String × String) :=
  (splitFirst delimiter s.toList).map fun parts => (String.ofList parts.1, String.ofList parts.2)

/-- `MAX_EVIDENCE_BYTES` (`protected_run/policy.rs`, line 17). -/
def maxEvidenceBytes : ℕ := 1024 * 1024

/-- The kind of a fixed run artifact (`verify.rs`, lines 58–63). -/
def leafKind (leaf : String) : Option ArtifactKind :=
  if leaf = "result.json" then some .report
  else if leaf = "recovery.json" then some .rollbackState
  else if leaf = "evidence.json" then some .evidence
  else none

/-- `artifact_scope` (`verify.rs`, lines 50–74). -/
def artifactScope (artifact : ArtifactV3) (directory : String) :
    Except CommittedResultError Unit :=
  match splitOnce '/' artifact.locator with
  | none => .error (.mismatch "artifact locator is outside the fixed run")
  | some (actualDirectory, leaf) =>
    match leafKind leaf with
    | none => .error (.mismatch "artifact name is not a fixed run artifact")
    | some kind =>
      mismatchIf (actualDirectory ≠ directory ∨ artifact.kind ≠ kind ∨
          artifact.mediaType ≠ "application/json" ∨
          artifact.sizeBytes.toNat > maxEvidenceBytes)
        "artifact scope, kind, media type, or size differs"

/-- `storage_identifier` (`committed_result.rs`, lines 84–94). -/
def storageIdentifier (d : ResultDeps) (directory leaf : String) :
    Except CommittedResultError RunId :=
  match d.uuidParse directory with
  | none => .error (.mismatch "report directory is not a run identifier")
  | some storageId => do
    mismatchIf (directory ≠ storageId.toText ∨ leaf ≠ "result.json")
      "report locator is not canonical"
    return ⟨storageId⟩

/-- `report_artifact` (lines 56–82). -/
def reportArtifact (d : ResultDeps) (expected : WorkerResultV3) :
    Except CommittedResultError (RunId × ArtifactV3) :=
  match expected.artifactManifest.getLast? with
  | none => .error (.mismatch "result has no committed report artifact")
  | some artifact => do
    mismatchIf ((artifact.kind, artifact.mediaType) ≠ (.report, "application/json"))
      "terminal artifact is not a JSON report"
    match splitOnce '/' artifact.locator with
    | none => .error (.mismatch "report locator is not a fixed run artifact")
    | some (directory, leaf) => do
      let storageId ← storageIdentifier d directory leaf
      expected.artifactManifest.forM fun entry => artifactScope entry directory
      return (storageId, artifact)

/-! ## The checks -/

/-- `decode_document` (`verify.rs`, lines 30–48). -/
def decodeDocument (d : ResultDeps) (artifact : ArtifactV3) (resultBytes : List UInt8) :
    Except CommittedResultError ResultDocument := do
  mismatchIf (resultBytes.length ≠ artifact.sizeBytes.toNat ∨
      d.sha256 resultBytes ≠ artifact.digest)
    "result bytes differ from the authenticated manifest"
  let document ← (loadJson d.jsonFromStr d.documentFromValue defaultLoadLimits
    resultBytes).mapError .domain
  mismatchIf (document.schemaVersion ≠ "1.0" ∨ documentBytes d.toDeps document ≠ resultBytes)
    "result document schema or canonical encoding differs"
  return document

/-- `document_outcome` (lines 98–111). -/
def documentOutcome (document : ResultDocument) (expected : WorkerResultV3) :
    Except CommittedResultError Unit :=
  mismatchIf ((document.status, document.reason, document.receipts) ≠
        (expected.finalStatus, expected.reason, expected.receipts) ∨
      document.artifacts ≠ expected.artifactManifest.dropLast)
    "result document outcome differs from the authenticated envelope"

/-- `document_binding` (lines 76–96). -/
def documentBinding (document : ResultDocument) (expected : WorkerResultV3) :
    Except CommittedResultError Unit := do
  mismatchIf ((document.planId, document.runId, document.planDigest) ≠
      (expected.planId, expected.runId, expected.planDigest))
    "result document identity differs from the authenticated envelope"
  documentOutcome document expected
  mismatchIf (document.status = .completed ∧ ∃ r ∈ document.receipts, r.status ≠ .succeeded)
    "completed result contains an unsuccessful action"

/-- `commit_binding` (lines 136–154). -/
def commitBinding (document : ResultDocument) (digest : Sha256Digest)
    (first last : JournalRecord) : Except CommittedResultError Unit := do
  mismatchIf (first.payload ≠ .planApproved document.planId document.planDigest)
    "journal approval differs from the result"
  mismatchIf (last.previousHash ≠ document.journalPrefixHash ∨
      last.payload ≠ .runFinished document.resultId digest)
    "result has no matching terminal commit"

/-- `receipt_pair` (lines 169–184). -/
def receiptPair (d : Deps) (receipt : ActionReceiptV3) (started finished : JournalRecord) :
    Except CommittedResultError Unit := do
  let id := receipt.actionId.uuid.toText
  mismatchIf (started.payload ≠ .actionStarted id receipt.preStateDigest)
    "journal start differs from the receipt"
  let digest := canonicalJsonDigest d receipt.toValue
  mismatchIf (finished.payload ≠ .actionFinished id receipt.status digest)
    "journal completion differs from the receipt"

/-- `chunks_exact(2)`. -/
def chunksExact {α : Type*} : List α → List (α × α)
  | a :: b :: rest => (a, b) :: chunksExact rest
  | _ => []

/-- `receipt_binding` (lines 156–167). -/
def receiptBinding (d : Deps) (document : ResultDocument) (records : List JournalRecord) :
    Except CommittedResultError Unit := do
  mismatchIf (records.length ≠ document.receipts.length * 2)
    "journal action count differs from the receipts"
  (document.receipts.zip (chunksExact records)).forM fun pair =>
    receiptPair d pair.1 pair.2.1 pair.2.2

/-- `journal_binding` (lines 113–134). -/
def journalBinding (d : Deps) (document : ResultDocument) (expected : WorkerResultV3)
    (digest : Sha256Digest) (snapshot : JournalSnapshot) :
    Except CommittedResultError Unit := do
  mismatchIf (some snapshot.terminalHash ≠ expected.journalTerminalHash)
    "journal differs from the authenticated terminal anchor"
  match snapshot.records with
  | [] => .error (.mismatch "journal has no approval")
  | first :: remainder =>
    match remainder.getLast? with
    | none => .error (.mismatch "journal has no terminal commit")
    | some last => do
      commitBinding document digest first last
      receiptBinding d document remainder.dropLast

/-- The limits of the protected journal (`verify.rs`, lines 19–22; `journal.rs`, lines 146–149). -/
def protectedJournalLimits : JournalLimits where
  maxBytes := 8 * 1024 * 1024
  maxRecords := 4096
  maxRecords_lt := defaultLimits.maxRecords_lt

/-- `reconcile` (lines 9–28). -/
def reconcile (d : ResultDeps) (expected : WorkerResultV3)
    (resultBytes journalBytes : List UInt8) :
    Except CommittedResultError CommittedWorkerResult := do
  (validateWorkerResult expected).mapError .domain
  let (_, artifact) ← reportArtifact d expected
  let document ← decodeDocument d artifact resultBytes
  documentBinding document expected
  let snapshot ← (readBytes d.toJournalDeps protectedJournalLimits journalBytes).mapError .journal
  journalBinding d.toDeps document expected artifact.digest snapshot
  return ⟨document, resultBytes⟩

/-! ## What the checks accept -/

@[simp] theorem mismatchIf_ok_iff {c : Prop} [Decidable c] {reason : String} {u : Unit} :
    mismatchIf c reason = .ok u ↔ ¬ c := by
  unfold mismatchIf
  rw [except_guard_ok_iff]
  simp

theorem splitOnce_eq_some_iff {c : Char} {s a b : String} :
    splitOnce c s = some (a, b) ↔ s.toList = a.toList ++ c :: b.toList ∧ c ∉ a.toList := by
  rw [← splitFirst_eq_some_iff, splitOnce, Option.map_eq_some_iff]
  constructor
  · rintro ⟨⟨x, y⟩, h, hxy⟩
    cases hxy
    simpa using h
  · intro h
    exact ⟨_, h, by simp⟩

/-- An artifact is one of the fixed files of the run directory. -/
structure InScope (directory : String) (artifact : ArtifactV3) : Prop where
  location : ∃ leaf, splitOnce '/' artifact.locator = some (directory, leaf) ∧
    leafKind leaf = some artifact.kind
  mediaType : artifact.mediaType = "application/json"
  size : artifact.sizeBytes.toNat ≤ maxEvidenceBytes

theorem artifactScope_ok_iff {artifact : ArtifactV3} {directory : String} :
    artifactScope artifact directory = .ok () ↔ InScope directory artifact := by
  unfold artifactScope
  constructor
  · intro h
    cases hsplit : splitOnce '/' artifact.locator with
    | none => simp [hsplit] at h
    | some parts =>
      obtain ⟨actual, leaf⟩ := parts
      cases hkind : leafKind leaf with
      | none => simp [hsplit, hkind] at h
      | some kind =>
        simp only [hsplit, hkind, mismatchIf_ok_iff, not_or, not_not, not_lt] at h
        obtain ⟨rfl, rfl, hmedia, hsize⟩ := h
        exact ⟨⟨leaf, hsplit, hkind⟩, hmedia, hsize⟩
  · rintro ⟨⟨leaf, hsplit, hkind⟩, hmedia, hsize⟩
    simp only [hsplit, hkind, mismatchIf_ok_iff, not_or, not_not, not_lt]
    exact ⟨trivial, trivial, hmedia, hsize⟩

theorem storageIdentifier_ok_iff {d : ResultDeps} {directory leaf : String} {runId : RunId} :
    storageIdentifier d directory leaf = .ok runId ↔
      directory = runId.uuid.toText ∧ leaf = "result.json" ∧
        d.uuidParse directory = some runId.uuid := by
  unfold storageIdentifier
  cases hparse : d.uuidParse directory with
  | none => simp
  | some uuid =>
    simp only [except_bind_ok_iff, mismatchIf_ok_iff, exists_const, not_or, not_not, pure,
      Except.pure, Except.ok.injEq, Option.some.injEq]
    constructor
    · rintro ⟨⟨rfl, rfl⟩, rfl⟩
      exact ⟨rfl, rfl, rfl⟩
    · rintro ⟨rfl, rfl, rfl⟩
      exact ⟨⟨rfl, rfl⟩, rfl⟩

/-- The last artifact is the report of the run, and all artifacts are files of that run. -/
structure HasReport (d : ResultDeps) (expected : WorkerResultV3) (runId : RunId)
    (artifact : ArtifactV3) : Prop where
  last : expected.artifactManifest.getLast? = some artifact
  kind : artifact.kind = .report
  mediaType : artifact.mediaType = "application/json"
  location : splitOnce '/' artifact.locator = some (runId.uuid.toText, "result.json")
  parses : d.uuidParse runId.uuid.toText = some runId.uuid
  scope : ∀ a ∈ expected.artifactManifest, InScope runId.uuid.toText a

theorem reportArtifact_ok_iff {d : ResultDeps} {expected : WorkerResultV3} {runId : RunId}
    {artifact : ArtifactV3} :
    reportArtifact d expected = .ok (runId, artifact) ↔ HasReport d expected runId artifact := by
  unfold reportArtifact
  constructor
  · intro h
    cases hlast : expected.artifactManifest.getLast? with
    | none => simp [hlast] at h
    | some last =>
      simp only [hlast, except_bind_ok_iff, mismatchIf_ok_iff, exists_const, ne_eq, not_not,
        Prod.mk.injEq] at h
      obtain ⟨⟨hkind, hmedia⟩, h⟩ := h
      cases hsplit : splitOnce '/' last.locator with
      | none => simp [hsplit] at h
      | some parts =>
        obtain ⟨directory, leaf⟩ := parts
        simp only [hsplit, except_bind_ok_iff, Unique.exists_iff, PUnit.default_eq_unit,
          except_forM_ok_iff, artifactScope_ok_iff, storageIdentifier_ok_iff, pure, Except.pure,
          Except.ok.injEq, Prod.mk.injEq] at h
        obtain ⟨storageId, ⟨rfl, rfl, hparse⟩, hscope, rfl, rfl⟩ := h
        exact ⟨hlast, hkind, hmedia, hsplit, hparse, hscope⟩
  · rintro ⟨hlast, hkind, hmedia, hsplit, hparse, hscope⟩
    have hstorage := storageIdentifier_ok_iff.mpr ⟨rfl, rfl, hparse⟩
    have hloop := except_forM_ok_iff.mpr fun a ha => artifactScope_ok_iff.mpr (hscope a ha)
    simp only [hlast, hkind, hmedia, hsplit, hstorage, hloop, bind, Except.bind, mismatchIf, pure,
      Except.pure, ne_eq, not_true_eq_false, if_false]

/-- The bytes are the canonical text of the document that they decode to, and the artifact
    describes them. -/
structure Decodes (d : ResultDeps) (artifact : ArtifactV3) (bytes : List UInt8)
    (document : ResultDocument) : Prop where
  size : bytes.length = artifact.sizeBytes.toNat
  digest : d.sha256 bytes = artifact.digest
  loads : loadJson d.jsonFromStr d.documentFromValue defaultLoadLimits bytes = .ok document
  schema : document.schemaVersion = "1.0"
  canonical : documentBytes d.toDeps document = bytes

theorem decodeDocument_ok_iff {d : ResultDeps} {artifact : ArtifactV3} {bytes : List UInt8}
    {document : ResultDocument} :
    decodeDocument d artifact bytes = .ok document ↔ Decodes d artifact bytes document := by
  simp only [decodeDocument, except_bind_ok_iff, mismatchIf_ok_iff, exists_const, not_or, not_not,
    except_mapError_ok_iff, pure, Except.pure, Except.ok.injEq]
  constructor
  · rintro ⟨⟨hsize, hdigest⟩, doc, hload, ⟨hschema, hcanonical⟩, rfl⟩
    exact ⟨hsize, hdigest, hload, hschema, hcanonical⟩
  · rintro ⟨hsize, hdigest, hload, hschema, hcanonical⟩
    exact ⟨⟨hsize, hdigest⟩, _, hload, ⟨hschema, hcanonical⟩, rfl⟩

/-- The document says what the envelope says. -/
structure DocumentBound (document : ResultDocument) (expected : WorkerResultV3) : Prop where
  planId : document.planId = expected.planId
  runId : document.runId = expected.runId
  planDigest : document.planDigest = expected.planDigest
  status : document.status = expected.finalStatus
  reason : document.reason = expected.reason
  receipts : document.receipts = expected.receipts
  artifacts : document.artifacts = expected.artifactManifest.dropLast
  completed : document.status = .completed → ∀ r ∈ document.receipts, r.status = .succeeded

theorem documentBinding_ok_iff {document : ResultDocument} {expected : WorkerResultV3} :
    documentBinding document expected = .ok () ↔ DocumentBound document expected := by
  simp only [documentBinding, documentOutcome, except_bind_ok_iff, mismatchIf_ok_iff, exists_const,
    ne_eq, not_or, not_not, Prod.mk.injEq]
  constructor
  · rintro ⟨⟨h1, h2, h3⟩, ⟨⟨h4, h5, h6⟩, h7⟩, h8⟩
    exact ⟨h1, h2, h3, h4, h5, h6, h7, fun hc r hr => by_contra fun hs => h8 ⟨hc, r, hr, hs⟩⟩
  · rintro ⟨h1, h2, h3, h4, h5, h6, h7, h8⟩
    exact ⟨⟨h1, h2, h3⟩, ⟨⟨h4, h5, h6⟩, h7⟩, fun ⟨hc, r, hr, hs⟩ => hs (h8 hc r hr)⟩

/-- The two events of a receipt. -/
def receiptEvents (d : Deps) (receipt : ActionReceiptV3) : List JournalEvent :=
  [.actionStarted receipt.actionId.uuid.toText receipt.preStateDigest,
   .actionFinished receipt.actionId.uuid.toText receipt.status
     (canonicalJsonDigest d receipt.toValue)]

theorem receiptPair_ok_iff {d : Deps} {receipt : ActionReceiptV3}
    {started finished : JournalRecord} :
    receiptPair d receipt started finished = .ok () ↔
      [started.payload, finished.payload] = receiptEvents d receipt := by
  simp [receiptPair, receiptEvents, except_bind_ok_iff]

/-- Induction on the receipts: each takes two records off the front. -/
theorem receiptBinding_ok_iff {d : Deps} {document : ResultDocument}
    {records : List JournalRecord} :
    receiptBinding d document records = .ok () ↔
      records.map JournalRecord.payload = document.receipts.flatMap (receiptEvents d) := by
  simp only [receiptBinding, except_bind_ok_iff, mismatchIf_ok_iff, exists_const, not_not,
    except_forM_ok_iff, receiptPair_ok_iff]
  generalize document.receipts = receipts
  induction receipts generalizing records with
  | nil => simp [List.length_eq_zero_iff]
  | cons receipt receipts ih =>
    match records with
    | [] => simp [receiptEvents]
    | [r] => simp [receiptEvents]; omega
    | started :: finished :: rest =>
      have hlen : (started :: finished :: rest).length = (receipt :: receipts).length * 2 ↔
          rest.length = receipts.length * 2 := by
        simp only [List.length_cons]
        omega
      rw [hlen, chunksExact, List.zip_cons_cons, List.forall_mem_cons, List.flatMap_cons,
        and_left_comm, ih]
      simp [receiptEvents]
      tauto

/-- The journal is the one of the envelope and records the document's run, and nothing else. -/
structure JournalBound (d : Deps) (document : ResultDocument) (expected : WorkerResultV3)
    (digest : Sha256Digest) (snapshot : JournalSnapshot) : Prop where
  anchor : expected.journalTerminalHash = some snapshot.terminalHash
  records : ∃ first actions last, snapshot.records = first :: (actions ++ [last]) ∧
    first.payload = .planApproved document.planId document.planDigest ∧
    last.previousHash = document.journalPrefixHash ∧
    last.payload = .runFinished document.resultId digest ∧
    actions.map JournalRecord.payload = document.receipts.flatMap (receiptEvents d)

theorem journalBinding_ok_iff {d : Deps} {document : ResultDocument} {expected : WorkerResultV3}
    {digest : Sha256Digest} {snapshot : JournalSnapshot} :
    journalBinding d document expected digest snapshot = .ok () ↔
      JournalBound d document expected digest snapshot := by
  simp only [journalBinding, except_bind_ok_iff, mismatchIf_ok_iff, exists_const, not_not]
  constructor
  · rintro ⟨hanchor, h⟩
    cases hrecords : snapshot.records with
    | nil => simp [hrecords] at h
    | cons first remainder =>
      cases hlast : remainder.getLast? with
      | none => simp [hrecords, hlast] at h
      | some last =>
        simp only [hrecords, hlast, commitBinding, except_bind_ok_iff, mismatchIf_ok_iff,
          exists_const, not_or, not_not, receiptBinding_ok_iff] at h
        obtain ⟨⟨hfirst, hprev, hpayload⟩, hreceipts⟩ := h
        refine ⟨hanchor.symm, first, remainder.dropLast, last, ?_, hfirst, hprev, hpayload,
          hreceipts⟩
        rw [hrecords, List.dropLast_append_getLast? last hlast]
  · rintro ⟨hanchor, first, actions, last, hrecords, hfirst, hprev, hpayload, hreceipts⟩
    refine ⟨hanchor.symm, ?_⟩
    simp only [hrecords, List.getLast?_concat, List.dropLast_concat, commitBinding,
      except_bind_ok_iff, mismatchIf_ok_iff, exists_const, not_or, not_not, receiptBinding_ok_iff]
    exact ⟨⟨hfirst, hprev, hpayload⟩, hreceipts⟩

/-- Envelope, document and journal belong together. -/
structure Bound (d : ResultDeps) (expected : WorkerResultV3) (resultBytes journalBytes : List UInt8)
    (document : ResultDocument) (runId : RunId) (artifact : ArtifactV3)
    (snapshot : JournalSnapshot) : Prop where
  valid : validateWorkerResult expected = .ok ()
  report : HasReport d expected runId artifact
  decodes : Decodes d artifact resultBytes document
  outcome : DocumentBound document expected
  reads : readBytes d.toJournalDeps protectedJournalLimits journalBytes = .ok snapshot
  journal : JournalBound d.toDeps document expected artifact.digest snapshot

theorem reconcile_ok_iff {d : ResultDeps} {expected : WorkerResultV3}
    {resultBytes journalBytes : List UInt8} {committed : CommittedWorkerResult} :
    reconcile d expected resultBytes journalBytes = .ok committed ↔
      committed.bytes = resultBytes ∧ ∃ runId artifact snapshot,
        Bound d expected resultBytes journalBytes committed.document runId artifact snapshot := by
  simp only [reconcile, except_bind_ok_iff, except_mapError_ok_iff, Unique.exists_iff,
    PUnit.default_eq_unit, Prod.exists, reportArtifact_ok_iff, decodeDocument_ok_iff,
    documentBinding_ok_iff, journalBinding_ok_iff, pure, Except.pure, Except.ok.injEq]
  constructor
  · rintro ⟨hvalid, runId, artifact, hreport, document, hdecodes, hdocument, snapshot, hreads,
      hjournal, rfl⟩
    exact ⟨rfl, runId, artifact, snapshot, hvalid, hreport, hdecodes, hdocument, hreads, hjournal⟩
  · rintro ⟨hbytes, runId, artifact, snapshot, hvalid, hreport, hdecodes, hdocument, hreads,
      hjournal⟩
    refine ⟨hvalid, runId, artifact, hreport, committed.document, hdecodes, hdocument, snapshot,
      hreads, hjournal, ?_⟩
    ext1
    · rfl
    · exact hbytes.symm

end BaselineOps.Engine
