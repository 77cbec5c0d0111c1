import Mathlib
import BaselineOps.Domain.Result
import BaselineOps.Domain.Size

/-!
# Journal records and their JSON

Data types of `baselineops-engine/src/journal.rs` (lines 48–97), the JSON values their `Serialize`
derives produce, and `journal_record` (lines 432–451).

* `hashPayload_inj`: the canonical bytes that are hashed determine sequence, time, previous hash
  and event.
* `recordBytes_inj`: the canonical bytes of a record determine the record.
-/

namespace BaselineOps.Engine

open BaselineOps.Domain

/-- `JournalEvent` (lines 50–82). -/
inductive JournalEvent where
  | planApproved (planId : PlanId) (planDigest : Sha256Digest)
  | actionStarted (actionId : String) (preStateDigest : Sha256Digest)
  | actionFinished (actionId : String) (status : ActionStatus) (receiptDigest : Sha256Digest)
  | runFinished (resultId : ResultId) (resultDigest : Sha256Digest)
  deriving DecidableEq

/-- `JournalRecord` (lines 85–97). -/
@[ext]
structure JournalRecord where
  sequence : UInt64
  timestamp : DateTime
  previousHash : Sha256Digest
  payload : JournalEvent
  recordHash : Sha256Digest
  deriving DecidableEq

/-- `JournalSnapshot` (lines 113–118). -/
structure JournalSnapshot where
  records : List JournalRecord
  terminalHash : Sha256Digest
  deriving DecidableEq

/-- `JournalError` (lines 511–574). The wrapped errors of other crates carry no data here. -/
inductive JournalError where
  | protection
  | io
  | domain
  | writeFailed
  | invalidLifecycle (reason : String)
  | actionRecoveryRequired (action : String)
  | recordTooLarge
  | journalSizeLimitExceeded (limit : ℕ)
  | journalRecordLimitExceeded (limit : ℕ)
  | badMagic
  | incompleteFrame
  | nonCanonicalRecord
  | invalidRecord
  | sequenceMismatch
  | sequenceOverflow
  | previousHashMismatch
  | recordHashMismatch
  | terminalHashMismatch
  deriving DecidableEq

/-! ## Serialization -/

/-- `Serialize` of `JournalEvent`: internally tagged with `event`, variants in `snake_case`. -/
def JournalEvent.toValue : JournalEvent → Value
  | .planApproved planId planDigest => .object
    [("event", .string "plan_approved"), ("plan_id", .string planId.uuid.toText),
     ("plan_digest", .string planDigest.toHex)]
  | .actionStarted actionId preStateDigest => .object
    [("event", .string "action_started"), ("action_id", .string actionId),
     ("pre_state_digest", .string preStateDigest.toHex)]
  | .actionFinished actionId status receiptDigest => .object
    [("event", .string "action_finished"), ("action_id", .string actionId),
     ("status", .string status.name), ("receipt_digest", .string receiptDigest.toHex)]
  | .runFinished resultId resultDigest => .object
    [("event", .string "run_finished"), ("result_id", .string resultId.uuid.toText),
     ("result_digest", .string resultDigest.toHex)]

/-- `Serialize` of `JournalRecord`. -/
def JournalRecord.toValue (d : Deps) (r : JournalRecord) : Value := .object
  [("sequence", .number (.posInt r.sequence)), ("timestamp", .string (d.rfc3339 r.timestamp)),
   ("previous_hash", .string r.previousHash.toHex), ("payload", r.payload.toValue),
   ("record_hash", .string r.recordHash.toHex)]

/-- `canonical_json_bytes(&record)`. -/
def recordBytes (d : Deps) (r : JournalRecord) : List UInt8 := canonicalJsonBytes d (r.toValue d)

/-- The canonical bytes of the tuple `(sequence, timestamp, previous_hash, &payload)` that is
    hashed (lines 438–443 and 497–502). -/
def hashPayload (d : Deps) (sequence : UInt64) (timestamp : DateTime)
    (previousHash : Sha256Digest) (payload : JournalEvent) : List UInt8 :=
  canonicalJsonBytes d (.array
    [.number (.posInt sequence), .string (d.rfc3339 timestamp), .string previousHash.toHex,
     payload.toValue])

/-- `journal_record` (lines 432–451). -/
def journalRecord (d : Deps) (sequence : UInt64) (previousHash : Sha256Digest)
    (timestamp : DateTime) (payload : JournalEvent) : JournalRecord where
  sequence := sequence
  timestamp := timestamp
  previousHash := previousHash
  payload := payload
  recordHash := d.sha256 (hashPayload d sequence timestamp previousHash payload)

/-! ## The JSON determines the data -/

theorem JournalEvent.toValue_inj {a b : JournalEvent}
    (h : sortKeys a.toValue = sortKeys b.toValue) : a = b := by
  cases a <;> cases b <;>
    simp [JournalEvent.toValue, sortKeys, sortKeysMembers, sortKeysMember, sortByKey,
      List.insertionSort, List.orderedInsert] at h
  case planApproved.planApproved p x q y =>
    obtain ⟨h1, h2⟩ := h
    rw [Sha256Digest.toHex_injective h1, PlanId.ext (Uuid.toText_injective h2)]
  case actionStarted.actionStarted i x j y =>
    obtain ⟨rfl, h1⟩ := h
    rw [Sha256Digest.toHex_injective h1]
  case actionFinished.actionFinished i s x j t y =>
    obtain ⟨rfl, h1, h2⟩ := h
    rw [Sha256Digest.toHex_injective h1, ActionStatus.name_injective h2]
  case runFinished.runFinished p x q y =>
    obtain ⟨h1, h2⟩ := h
    rw [Sha256Digest.toHex_injective h1, ResultId.ext (Uuid.toText_injective h2)]

/-- The hashed bytes determine what was hashed. -/
theorem hashPayload_inj {d : Deps} (hd : d.LawfulText) {s s' : UInt64} {t t' : DateTime}
    {p p' : Sha256Digest} {e e' : JournalEvent}
    (h : hashPayload d s t p e = hashPayload d s' t' p' e') :
    s = s' ∧ t = t' ∧ p = p' ∧ e = e' := by
  have hn := canonicalJsonBytes_inj hd h
  simp only [sortKeys, sortKeysItems, Value.array.injEq, List.cons.injEq, Value.number.injEq,
    Number.posInt.injEq, Value.string.injEq, and_true] at hn
  obtain ⟨h1, h2, h3, h4⟩ := hn
  exact ⟨h1, hd.rfc3339_inj h2, Sha256Digest.toHex_injective h3, JournalEvent.toValue_inj h4⟩

theorem recordBytes_inj {d : Deps} (hd : d.LawfulText) {r r' : JournalRecord}
    (h : recordBytes d r = recordBytes d r') : r = r' := by
  have hn := canonicalJsonBytes_inj hd h
  simp [JournalRecord.toValue, sortKeys, sortKeysMembers, sortKeysMember, sortByKey,
    List.insertionSort, List.orderedInsert] at hn
  obtain ⟨h1, h2, h3, h4, h5⟩ := hn
  cases r; cases r'
  simp only at h1 h2 h3 h4 h5
  rw [JournalEvent.toValue_inj h1, Sha256Digest.toHex_injective h2,
    Sha256Digest.toHex_injective h3, h4, hd.rfc3339_inj h5]

theorem recordBytes_ne_nil {d : Deps} (hd : d.LawfulText) (r : JournalRecord) :
    recordBytes d r ≠ [] :=
  canonicalJsonBytes_ne_nil hd _

/-! ## The size of a record -/

theorem length_recordBytes_le {d : Deps} {r : JournalRecord} {n : ℕ}
    (htime : (jsonString (d.rfc3339 r.timestamp)).length ≤ 386)
    (hpayload : r.payload.toValue.weight d ≤ n) : (recordBytes d r).length ≤ n + 1400 := by
  refine (length_canonicalJsonBytes_le d _).trans ?_
  have hsequence := length_numberText_posInt d r.sequence
  have hprevious := length_jsonString_digest r.previousHash
  have hhash := length_jsonString_digest r.recordHash
  have hkeys : (jsonString "sequence").length + (jsonString "timestamp").length +
      (jsonString "previous_hash").length + (jsonString "payload").length +
      (jsonString "record_hash").length ≤ 70 := by decide
  simp only [JournalRecord.toValue, Value.weight, Value.weightMembers, Value.weightMember]
  omega

theorem weight_planApproved (d : Deps) (planId : PlanId) (planDigest : Sha256Digest) :
    (JournalEvent.planApproved planId planDigest).toValue.weight d ≤ 1000 := by
  have hid := length_jsonString_uuid planId.uuid
  have hdigest := length_jsonString_digest planDigest
  have hkeys : (jsonString "event").length + (jsonString "plan_approved").length +
      (jsonString "plan_id").length + (jsonString "plan_digest").length ≤ 100 := by decide
  simp only [JournalEvent.toValue, Value.weight, Value.weightMembers, Value.weightMember]
  omega

theorem weight_runFinished (d : Deps) (resultId : ResultId) (resultDigest : Sha256Digest) :
    (JournalEvent.runFinished resultId resultDigest).toValue.weight d ≤ 1000 := by
  have hid := length_jsonString_uuid resultId.uuid
  have hdigest := length_jsonString_digest resultDigest
  have hkeys : (jsonString "event").length + (jsonString "run_finished").length +
      (jsonString "result_id").length + (jsonString "result_digest").length ≤ 100 := by decide
  simp only [JournalEvent.toValue, Value.weight, Value.weightMembers, Value.weightMember]
  omega

end BaselineOps.Engine
