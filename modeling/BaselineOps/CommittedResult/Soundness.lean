import Mathlib
import BaselineOps.CommittedResult.Verify

/-!
# What a reconciled result guarantees

`reconcile` checks lengths, pairs of records, identities and locators in three modules. Together
with the lifecycle of the journal and the hash chain they fix the events of the run, the receipts
and the artifacts completely.

* `reconcile_sound`: every accepted envelope, document and journal is `Reconciled`.
-/

namespace BaselineOps.Engine

open BaselineOps.Domain BaselineOps.Lib

/-- The files of a run directory. -/
def runLeaves : List String := ["result.json", "recovery.json", "evidence.json"]

/-- The locator of a file in the directory of a run. -/
def runLocator (runId : RunId) (leaf : String) : String := runId.uuid.toText ++ "/" ++ leaf

/-- What holds of an envelope, the result bytes and the journal bytes behind a reconciliation. -/
structure Reconciled (d : ResultDeps) (expected : WorkerResultV3)
    (resultBytes journalBytes : List UInt8) (document : ResultDocument) : Prop where
  /-- The journal holds the approval, the two events of every receipt, and the commit. The document
      names the hash in front of the commit, the envelope the one behind it. -/
  journal : ∃ init last, readBytes d.toJournalDeps protectedJournalLimits journalBytes =
      .ok ⟨init ++ [last], last.recordHash⟩ ∧
    (init ++ [last]).map JournalRecord.payload =
      .planApproved expected.planId expected.planDigest ::
        (expected.receipts.flatMap (receiptEvents d.toDeps) ++
          [.runFinished document.resultId (d.sha256 resultBytes)]) ∧
    Chain JournalRecord.previousHash JournalRecord.recordHash (d.sha256 []) (init ++ [last]) ∧
    document.journalPrefixHash = terminal JournalRecord.recordHash (d.sha256 []) init ∧
    expected.journalTerminalHash = some last.recordHash
  /-- No action has two receipts, and only the last action may have failed. -/
  action_ids : (expected.receipts.map ActionReceiptV3.actionId).Nodup
  succeeded : ∀ r ∈ expected.receipts.dropLast, r.status = .succeeded
  /-- The artifacts are those of the document and one report, in one run directory. -/
  manifest : ∃ runId report, expected.artifactManifest = document.artifacts ++ [report] ∧
    report.locator = runLocator runId "result.json" ∧ report.kind = .report ∧
    (∀ a ∈ document.artifacts, a.locator ≠ runLocator runId "result.json" ∧ a.kind ≠ .report) ∧
    ∀ a ∈ expected.artifactManifest, ∃ leaf ∈ runLeaves, a.locator = runLocator runId leaf
  locators : (expected.artifactManifest.map ArtifactV3.locator).Nodup
  artifact_count : expected.artifactManifest.length ≤ 3
  /-- In a completed run every action has succeeded. -/
  completed : expected.finalStatus = .completed → ∀ r ∈ expected.receipts, r.status = .succeeded

/-! ## Receipts -/

/-- The completed action of a receipt. -/
def receiptAction (d : Deps) (receipt : ActionReceiptV3) : ActionPair where
  actionId := receipt.actionId.uuid.toText
  preStateDigest := receipt.preStateDigest
  status := receipt.status
  receiptDigest := canonicalJsonDigest d receipt.toValue

theorem approvedEvents_receipts (d : Deps) (planId : PlanId) (planDigest : Sha256Digest)
    (receipts : List ActionReceiptV3) :
    approvedEvents planId planDigest (receipts.map (receiptAction d)) =
      .planApproved planId planDigest :: receipts.flatMap (receiptEvents d) := by
  rw [approvedEvents, List.flatMap_map]
  rfl

/-- The lifecycle lets only the last action of a log fail. -/
theorem receipts_succeeded {d : Deps} {planId : PlanId} {planDigest : Sha256Digest}
    {receipts : List ActionReceiptV3} {tail : List JournalEvent} {s : Lifecycle}
    (h : Lifecycle.replay {} (.planApproved planId planDigest ::
      (receipts.flatMap (receiptEvents d) ++ tail)) = .ok s) :
    ∀ r ∈ receipts.dropLast, r.status = .succeeded := by
  rw [← List.cons_append, ← approvedEvents_receipts, Lifecycle.replay_append] at h
  obtain ⟨m, hm, -⟩ := except_bind_ok_iff.mp h
  have hwf := wellFormedPairs_of_replay hm
  intro r hr
  refine hwf.succeeded (receiptAction d r) ?_
  rw [← List.map_dropLast]
  exact List.mem_map_of_mem hr

/-! ## Artifacts -/

theorem InScope.locator_eq {runId : RunId} {artifact : ArtifactV3}
    (h : InScope runId.uuid.toText artifact) :
    ∃ leaf ∈ runLeaves, artifact.locator = runLocator runId leaf ∧
      leafKind leaf = some artifact.kind := by
  obtain ⟨leaf, hsplit, hkind⟩ := h.location
  refine ⟨leaf, ?_, ?_, hkind⟩
  · unfold leafKind at hkind
    unfold runLeaves
    split_ifs at hkind with h1 h2 h3
    · simp [h1]
    · simp [h2]
    · simp [h3]
  · refine String.toList_injective ?_
    rw [(splitOnce_eq_some_iff.mp hsplit).1]
    simp [runLocator]

/-- The text of a run identifier has no slash, so the locator is split behind it. -/
theorem splitOnce_runLocator (runId : RunId) (leaf : String) :
    splitOnce '/' (runLocator runId leaf) = some (runId.uuid.toText, leaf) := by
  refine splitOnce_eq_some_iff.mpr ⟨by simp [runLocator], ?_⟩
  intro hmem
  rw [Uuid.toText, String.toList_ofList] at hmem
  rcases Uuid.mem_chars hmem with h | h
  · cases h
  · revert h
    decide

theorem leafKind_report {leaf : String} (h : leafKind leaf = some .report) :
    leaf = "result.json" := by
  unfold leafKind at h
  split_ifs at h with h1 h2 h3
  · exact h1
  all_goals cases h

/-- A run directory has three files, so there are at most three artifacts with distinct locators. -/
theorem length_le_of_locators {artifacts : List ArtifactV3} {runId : RunId}
    (hnodup : (artifacts.map ArtifactV3.locator).Nodup)
    (h : ∀ a ∈ artifacts, InScope runId.uuid.toText a) : artifacts.length ≤ 3 := by
  have hsub : artifacts.map ArtifactV3.locator ⊆ runLeaves.map (runLocator runId) := by
    intro locator hlocator
    obtain ⟨a, ha, rfl⟩ := List.mem_map.mp hlocator
    obtain ⟨leaf, hleaf, heq, -⟩ := (h a ha).locator_eq
    rw [heq]
    exact List.mem_map_of_mem hleaf
  have hle := (hnodup.subperm hsub).length_le
  simpa [runLeaves] using hle

/-! ## Soundness -/

section Soundness

variable {d : ResultDeps} {expected : WorkerResultV3} {resultBytes journalBytes : List UInt8}
  {document : ResultDocument} {runId : RunId} {artifact : ArtifactV3} {snapshot : JournalSnapshot}

theorem Bound.manifest_eq (h : Bound d expected resultBytes journalBytes document runId artifact
    snapshot) : expected.artifactManifest = document.artifacts ++ [artifact] := by
  rw [h.outcome.artifacts]
  exact (List.dropLast_append_getLast? artifact h.report.last).symm

/-- An artifact of the document is not the report: the locators differ, and only the file of the
    report has the kind of a report. -/
theorem Bound.not_report (h : Bound d expected resultBytes journalBytes document runId artifact
    snapshot) (hreport : artifact.locator = runLocator runId "result.json") :
    ∀ a ∈ document.artifacts, a.locator ≠ runLocator runId "result.json" ∧ a.kind ≠ .report := by
  have hlocators := (validateWorkerResult_ok h.valid).locators
  rw [h.manifest_eq, List.map_append, List.map_singleton, List.nodup_append] at hlocators
  intro a ha
  have hne : a.locator ≠ runLocator runId "result.json" := by
    intro heq
    exact hlocators.2.2 _ (List.mem_map_of_mem ha) _ (List.mem_singleton_self _)
      (heq.trans hreport.symm)
  refine ⟨hne, ?_⟩
  intro hkind
  obtain ⟨leaf, -, heq, hleaf⟩ :=
    (h.report.scope a (by rw [h.manifest_eq]; simp [ha])).locator_eq
  rw [hkind] at hleaf
  exact hne (by rw [heq, leafKind_report hleaf])

/-- The events of an accepted journal, with the hashes in front of the commit and behind it. -/
theorem Bound.journal_events (h : Bound d expected resultBytes journalBytes document runId artifact
    snapshot) :
    ∃ init last c, snapshot.records = init ++ [last] ∧
      LogRun d.toDeps protectedJournalLimits (Cursor.start d.toDeps) snapshot.records c ∧
      snapshot.terminalHash = last.recordHash ∧
      snapshot.records.map JournalRecord.payload =
        .planApproved expected.planId expected.planDigest ::
          (expected.receipts.flatMap (receiptEvents d.toDeps) ++
            [.runFinished document.resultId (d.sha256 resultBytes)]) ∧
      last.previousHash = document.journalPrefixHash := by
  obtain ⟨c, -, hrun, -, hterminal⟩ := readBytes_ok h.reads
  obtain ⟨first, actions, last, hrecords, hfirst, hprev, hlast, hactions⟩ := h.journal.records
  refine ⟨first :: actions, last, c, by rw [hrecords, List.cons_append], hrun, ?_, ?_, hprev⟩
  · rw [hterminal, ← hrun.chain.2, hrecords, ← List.cons_append, terminal_concat]
  · rw [hrecords, List.map_cons, List.map_append, List.map_singleton, hfirst, hlast, hactions,
      h.outcome.planId, h.outcome.planDigest, h.outcome.receipts, h.decodes.digest]

theorem Bound.reconciled (h : Bound d expected resultBytes journalBytes document runId artifact
    snapshot) : Reconciled d expected resultBytes journalBytes document := by
  have hvalid := validateWorkerResult_ok h.valid
  obtain ⟨init, last, c, hrecords, hrun, hterminal, hevents, hprev⟩ := h.journal_events
  have hchain := hrun.chain.1
  have hreport : artifact.locator = runLocator runId "result.json" := by
    refine String.toList_injective ?_
    rw [(splitOnce_eq_some_iff.mp h.report.location).1]
    simp [runLocator]
  refine
    { journal := ?_
      action_ids := hvalid.receipt_ids
      succeeded := ?_
      manifest := ?_
      locators := hvalid.locators
      artifact_count := length_le_of_locators hvalid.locators h.report.scope
      completed := ?_ }
  · refine ⟨init, last, ?_, by rw [← hrecords, hevents], by rw [← hrecords]; exact hchain, ?_, ?_⟩
    · rw [h.reads, ← hrecords, ← hterminal]
    · rw [hrecords, chain_concat] at hchain
      exact hprev.symm.trans hchain.2
    · rw [h.journal.anchor, hterminal]
  · have hreplay := hrun.replay
    rw [hevents] at hreplay
    exact receipts_succeeded hreplay
  · refine ⟨runId, artifact, h.manifest_eq, hreport, h.report.kind, h.not_report hreport, ?_⟩
    intro a ha
    obtain ⟨leaf, hleaf, heq, -⟩ := (h.report.scope a ha).locator_eq
    exact ⟨leaf, hleaf, heq⟩
  · rw [← h.outcome.status, ← h.outcome.receipts]
    exact h.outcome.completed

/-- Whatever `reconcile` accepts is reconciled. -/
theorem reconcile_sound {committed : CommittedWorkerResult}
    (h : reconcile d expected resultBytes journalBytes = .ok committed) :
    Reconciled d expected resultBytes journalBytes committed.document := by
  obtain ⟨-, runId, artifact, snapshot, hbound⟩ := reconcile_ok_iff.mp h
  exact hbound.reconciled

end Soundness

/-! ## A cancelled run -/

theorem cancelledCapability_valid : capabilityIdValid "v3.windows-update.policy" = true := by decide +kernel

/-- The receipt of the action before the cancellation. -/
def cancelledReceipt : ActionReceiptV3 where
  actionId := ⟨⟨Vector.replicate 16 4⟩⟩
  capability := ⟨"v3.windows-update.policy", cancelledCapability_valid⟩
  preStateDigest := ⟨Vector.replicate 32 1⟩
  postStateDigest := ⟨Vector.replicate 32 2⟩
  status := .succeeded

/-- The record that continues the log at `c`. -/
def nextRecord (c : Cursor) (event : JournalEvent) : JournalRecord :=
  journalRecord referenceDeps c.sequence c.hash epoch event

/-- The cursor behind the approval. -/
def approvedCursor : Cursor := (Cursor.start referenceDeps).next referenceDeps approvalRecord

/-- The record of the start of the action. -/
def startedRecord : JournalRecord :=
  nextRecord approvedCursor
    (.actionStarted cancelledReceipt.actionId.uuid.toText cancelledReceipt.preStateDigest)

/-- The cursor behind it. -/
def startedCursor : Cursor := approvedCursor.next referenceDeps startedRecord

/-- The record of the end of the action. -/
def finishedRecord : JournalRecord :=
  nextRecord startedCursor (.actionFinished cancelledReceipt.actionId.uuid.toText .succeeded
    (canonicalJsonDigest referenceDeps cancelledReceipt.toValue))

/-- The cursor behind it. -/
def finishedCursor : Cursor := startedCursor.next referenceDeps finishedRecord

/-- The document of a run that was cancelled behind its first action. -/
def cancelledDocument : ResultDocument where
  schemaVersion := "1.0"
  resultId := ⟨⟨Vector.replicate 16 3⟩⟩
  planId := ⟨⟨Vector.replicate 16 7⟩⟩
  runId := ⟨⟨Vector.replicate 16 5⟩⟩
  planDigest := ⟨Vector.replicate 32 9⟩
  journalPrefixHash := finishedRecord.recordHash
  receipts := [cancelledReceipt]
  status := .cancelled
  reason := some "Cancelled before action execution."
  rebootPossible := false
  artifacts := []

/-- The bytes of `result.json`. -/
def cancelledBytes : List UInt8 := documentBytes referenceDeps cancelledDocument

/-- The last record of the journal. -/
def commitRecord : JournalRecord :=
  nextRecord finishedCursor
    (.runFinished cancelledDocument.resultId (referenceDeps.sha256 cancelledBytes))

/-- The manifest entry of `result.json`. -/
def cancelledReport : ArtifactV3 where
  id := ⟨⟨Vector.replicate 16 1⟩⟩
  kind := .report
  mediaType := "application/json"
  locator := runLocator ⟨⟨Vector.replicate 16 2⟩⟩ "result.json"
  digest := referenceDeps.sha256 cancelledBytes
  sizeBytes := UInt64.ofNat cancelledBytes.length
  createdAt := epoch
  metadata := JsonMap.empty

/-- The envelope that the worker returns. -/
def cancelledResult : WorkerResultV3 where
  schemaVersion := .v3
  planId := cancelledDocument.planId
  runId := cancelledDocument.runId
  planDigest := cancelledDocument.planDigest
  journalTerminalHash := some commitRecord.recordHash
  receipts := [cancelledReceipt]
  artifactManifest := [cancelledReport]
  finalStatus := .cancelled
  reason := cancelledDocument.reason
  exitCode := 5

theorem weight_receipt (d : Deps) (r : ActionReceiptV3) :
    r.toValue.weight d ≤ 1200 + (jsonString r.capability.asStr).length := by
  have haction := length_jsonString_uuid r.actionId.uuid
  have hpre := length_jsonString_digest r.preStateDigest
  have hpost := length_jsonString_digest r.postStateDigest
  have hstatus : (jsonString r.status.name).length ≤ 30 := by cases r.status <;> decide
  have hkeys : (jsonString "action_id").length + (jsonString "capability").length +
      (jsonString "pre_state_digest").length + (jsonString "post_state_digest").length +
      (jsonString "status").length ≤ 100 := by decide
  simp only [ActionReceiptV3.toValue, Value.weight, Value.weightMembers, Value.weightMember]
  omega

/-- The events of a receipt are short. -/
theorem weight_receiptEvents {d : Deps} {r : ActionReceiptV3} {event : JournalEvent}
    (h : event ∈ receiptEvents d r) : event.toValue.weight d ≤ 1000 := by
  have haction := length_jsonString_uuid r.actionId.uuid
  have hpre := length_jsonString_digest r.preStateDigest
  have hdigest := length_jsonString_digest (canonicalJsonDigest d r.toValue)
  have hstatus : (jsonString r.status.name).length ≤ 30 := by cases r.status <;> decide
  have hkeys : (jsonString "event").length + (jsonString "action_started").length +
      (jsonString "action_finished").length + (jsonString "action_id").length +
      (jsonString "pre_state_digest").length + (jsonString "receipt_digest").length +
      (jsonString "status").length ≤ 150 := by decide
  rcases List.mem_pair.mp h with rfl | rfl
  · simp only [JournalEvent.toValue, Value.weight, Value.weightMembers, Value.weightMember]
    omega
  · simp only [JournalEvent.toValue, Value.weight, Value.weightMembers, Value.weightMember]
    omega

/-- The size of a document without artifacts. -/
theorem weight_document (d : Deps) {x : ResultDocument} (hartifacts : x.artifacts = []) :
    (x.toValue d).weight d ≤
      2000 + (jsonString x.schemaVersion).length + (optionalText x.reason).weight d +
        Value.weightItems d (x.receipts.map ActionReceiptV3.toValue) := by
  have hresult := length_jsonString_uuid x.resultId.uuid
  have hplan := length_jsonString_uuid x.planId.uuid
  have hrun := length_jsonString_uuid x.runId.uuid
  have hdigest := length_jsonString_digest x.planDigest
  have hprefix := length_jsonString_digest x.journalPrefixHash
  have hstatus : (jsonString x.status.name).length ≤ 20 := by cases x.status <;> decide
  have hkeys : (jsonString "schema_version").length = 16 ∧ (jsonString "result_id").length = 11 ∧
      (jsonString "plan_id").length = 9 ∧ (jsonString "run_id").length = 8 ∧
      (jsonString "plan_digest").length = 13 ∧ (jsonString "journal_prefix_hash").length = 21 ∧
      (jsonString "receipts").length = 10 ∧ (jsonString "status").length = 8 ∧
      (jsonString "reason").length = 8 ∧ (jsonString "reboot_possible").length = 17 ∧
      (jsonString "artifacts").length = 11 := by decide
  simp only [ResultDocument.toValue, hartifacts, List.map_nil, Value.weight, Value.weightItems,
    Value.weightMembers, Value.weightMember, hkeys]
  omega

theorem cancelledBytes_length : cancelledBytes.length ≤ 4000 := by
  have hdocument := weight_document referenceDeps (show cancelledDocument.artifacts = [] from rfl)
  have hreceipt := weight_receipt referenceDeps cancelledReceipt
  have htexts : (jsonString cancelledDocument.schemaVersion).length +
      (optionalText cancelledDocument.reason).weight referenceDeps +
      (jsonString cancelledReceipt.capability.asStr).length ≤ 400 := by decide
  have hitems : Value.weightItems referenceDeps (cancelledDocument.receipts.map ActionReceiptV3.toValue) =
      cancelledReceipt.toValue.weight referenceDeps + 1 := rfl
  have hlength := length_canonicalJsonBytes_le referenceDeps (cancelledDocument.toValue referenceDeps)
  rw [cancelledBytes, documentBytes]
  omega

theorem cancelledReport_size : cancelledReport.sizeBytes.toNat = cancelledBytes.length := by
  have hlen := cancelledBytes_length
  simp only [cancelledReport, UInt64.toNat_ofNat']
  omega

theorem cancelledResult_valid : validateWorkerResult cancelledResult = .ok () := by
  have hpre : validateWorkerPreconditions cancelledResult = .ok () := by decide +kernel
  have hartifact : validateArtifacts [cancelledReport] = .ok () := by decide +kernel
  have hsize : cancelledReport.sizeBytes.toNat ≤ maxArtifactBytes := by
    rw [cancelledReport_size]
    exact cancelledBytes_length.trans (by decide)
  exact validateWorkerResult_single rfl hpre rfl rfl hartifact hsize

/-- A log goes on with a short record that its lifecycle admits, while there is room. -/
theorem logRun_nextRecord {c : Cursor} {records : List JournalRecord} {k : ℕ} (event : JournalEvent)
    (h : LogRun referenceDeps protectedJournalLimits (Cursor.start referenceDeps) records c ∧
      c.bytes ≤ 23 + 2404 * k) (hlife : c.lifecycle.Admits event)
    (hcount : c.sequence.toNat < protectedJournalLimits.maxRecords)
    (hevent : event.toValue.weight referenceDeps ≤ 1000) (hk : k < 3000) :
    LogRun referenceDeps protectedJournalLimits (Cursor.start referenceDeps)
        (records ++ [nextRecord c event]) (c.next referenceDeps (nextRecord c event)) ∧
      (c.next referenceDeps (nextRecord c event)).bytes ≤ 23 + 2404 * (k + 1) := by
  obtain ⟨hrun, hbytes⟩ := h
  have htime : (jsonString (referenceDeps.rfc3339 epoch)).length ≤ 386 := by decide
  have hlength : (recordBytes referenceDeps (nextRecord c event)).length ≤ 2400 :=
    length_recordBytes_le htime hevent
  have hmax : protectedJournalLimits.maxBytes = 8388608 := rfl
  refine ⟨logRun_concat_iff.mpr ⟨c, hrun, ?_, rfl⟩, ?_⟩
  · exact Cursor.fits_of_length_le rfl hlife hcount (recordBytes_ne_nil referenceDeps_lawful _) hlength
      (by decide) (by omega)
  · calc (c.next referenceDeps (nextRecord c event)).bytes
        ≤ c.bytes + (4 + 2400) := Cursor.bytes_next_le hlength
      _ ≤ 23 + 2404 * k + (4 + 2400) := Nat.add_le_add_right hbytes _
      _ = 23 + 2404 * (k + 1) := by ring

/-- The journal of the cancelled run. -/
def cancelledRecords : List JournalRecord := [approvalRecord, startedRecord, finishedRecord, commitRecord]

theorem cancelledJournal_logRun :
    LogRun referenceDeps protectedJournalLimits (Cursor.start referenceDeps) cancelledRecords
      (finishedCursor.next referenceDeps commitRecord) := by
  have hstarted := logRun_nextRecord
    (.planApproved ⟨⟨Vector.replicate 16 7⟩⟩ ⟨Vector.replicate 32 9⟩)
    ⟨.nil (Cursor.start referenceDeps), (by decide : (Cursor.start referenceDeps).bytes ≤ 23 + 2404 * 0)⟩
    ⟨rfl, rfl⟩ (by decide) (weight_planApproved _ _ _) (by decide)
  have hrunning := logRun_nextRecord (.actionStarted cancelledReceipt.actionId.uuid.toText
    cancelledReceipt.preStateDigest) hstarted ⟨rfl, rfl, rfl, rfl, by decide, by decide⟩ (by decide)
    (@weight_receiptEvents referenceDeps cancelledReceipt _ List.mem_cons_self) (by decide)
  have hfinished := logRun_nextRecord (.actionFinished cancelledReceipt.actionId.uuid.toText .succeeded
    (canonicalJsonDigest referenceDeps cancelledReceipt.toValue)) hrunning ⟨rfl, rfl⟩ (by decide)
    (@weight_receiptEvents referenceDeps cancelledReceipt _ (List.mem_cons_of_mem _ List.mem_cons_self))
    (by decide)
  exact (logRun_nextRecord (.runFinished cancelledDocument.resultId (referenceDeps.sha256 cancelledBytes))
    hfinished ⟨rfl, rfl, rfl⟩ (by decide) (weight_runFinished _ _ _) (by decide)).1

/-- The journal, the document and the envelope of the cancelled run are accepted. -/
theorem cancelled_reconciles :
    reconcile referenceResultDeps cancelledResult cancelledBytes
      (journalFile referenceDeps cancelledRecords) =
      .ok ⟨cancelledDocument, cancelledBytes⟩ := by
  have hlen := cancelledBytes_length
  have hd := referenceResultDeps_lawful
  refine reconcile_ok_iff.mpr ⟨rfl, ⟨⟨Vector.replicate 16 2⟩⟩, cancelledReport,
    ⟨cancelledRecords, commitRecord.recordHash⟩, ?_⟩
  have hscope : InScope _ cancelledReport :=
    ⟨⟨"result.json", splitOnce_runLocator _ _, rfl⟩, rfl, by
      rw [cancelledReport_size]
      unfold maxEvidenceBytes
      omega⟩
  have hwritable : cancelledDocument.Writable := by
    refine ⟨by simp [ResultDocument.Plain, cancelledDocument], rfl, by decide, by decide, ?_,
      by simp [cancelledDocument]⟩
    rintro text ⟨⟩
    decide
  have hloads : cancelledBytes.length ≤ defaultLoadLimits.maxBytes := by
    refine hlen.trans ?_
    decide
  refine
    { valid := cancelledResult_valid
      report := ⟨rfl, rfl, rfl, splitOnce_runLocator _ _, hd.uuid _, ?_⟩
      decodes := ⟨cancelledReport_size.symm, rfl, documentBytes_loads hd hwritable hloads, rfl, rfl⟩
      outcome := ⟨rfl, rfl, rfl, rfl, rfl, rfl, rfl, nofun⟩
      reads := readBytes_journalFile hd.records (by decide) cancelledJournal_logRun
      journal := ⟨rfl, approvalRecord, [startedRecord, finishedRecord], commitRecord, rfl, rfl, rfl, rfl, rfl⟩ }
  intro a ha
  rw [List.mem_singleton.mp ha]
  exact hscope

theorem reconcile_sound_cancelled :
    Reconciled referenceResultDeps cancelledResult cancelledBytes
      (journalFile referenceDeps cancelledRecords) cancelledDocument :=
  reconcile_sound cancelled_reconciles

end BaselineOps.Engine
