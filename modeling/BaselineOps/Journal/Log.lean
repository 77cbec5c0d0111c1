import Mathlib
import BaselineOps.Journal.Lifecycle
import BaselineOps.Lib.Framing
import BaselineOps.Lib.HashChain
import BaselineOps.Lib.Steps

/-!
# The log that writer and reader keep

Writer and reader of the journal each account for the chain hash, the next sequence number, the
bytes of the file and the lifecycle. `Cursor` holds these four, `Cursor.Fits` says which record may
come next under given limits, and `LogRun` is the sequence of records from one cursor to another.
The models of the writer and of the reader are related to this log in `Writer` and `Reader`.

* `LogRun.chain`, `LogRun.terminal_hash`: the records are a hash chain up to the final hash.
* `LogRun.bytes`, `LogRun.sequence`, `LogRun.replay`: the other three accounts.
-/

namespace BaselineOps.Engine

open BaselineOps.Domain BaselineOps.Lib

/-! ## Limits -/

/-- `JOURNAL_MAGIC` (`journal.rs`, line 16). -/
def journalMagic : List UInt8 := utf8 "BASELINEOPS-JOURNAL-V2\n"

/-- `MAX_RECORD_BYTES` (line 17). -/
def maxRecordBytes : ℕ := 4 * 1024 * 1024

/-- `JournalLimits` (lines 23–28), a `u64` and a `usize`. -/
structure JournalLimits where
  maxBytes : ℕ
  maxRecords : ℕ
  maxBytes_lt : maxBytes < 2 ^ 64 := by decide
  maxRecords_lt : maxRecords < 2 ^ 64 := by decide

/-- `JournalLimits::default` (lines 41–45). -/
def defaultLimits : JournalLimits where
  maxBytes := 64 * 1024 * 1024
  maxRecords := 4096

/-! ## Cursors -/

/-- The four accounts of the log. -/
@[ext]
structure Cursor where
  hash : Sha256Digest
  sequence : UInt64
  bytes : ℕ
  lifecycle : Lifecycle
  deriving DecidableEq

/-- The cursor behind the magic of an empty journal. -/
def Cursor.start (d : Deps) : Cursor where
  hash := d.sha256 []
  sequence := 0
  bytes := journalMagic.length
  lifecycle := {}

variable {d : Deps} {limits : JournalLimits}

/-- The body of a record is framed and stays within the limits. -/
structure Cursor.HasRoom (limits : JournalLimits) (c : Cursor) (body : List UInt8) : Prop where
  count : c.sequence.toNat < limits.maxRecords
  body_ne : body ≠ []
  body_le : body.length ≤ maxRecordBytes
  size : c.bytes + (4 + body.length) ≤ limits.maxBytes

/-- `r` continues the chain at `c`: it is the record that `journal_record` builds there. -/
def Cursor.Continues (d : Deps) (c : Cursor) (r : JournalRecord) : Prop :=
  r = journalRecord d c.sequence c.hash r.timestamp r.payload

/-- `r` may be the next record of the log. -/
structure Cursor.Fits (d : Deps) (limits : JournalLimits) (c : Cursor) (r : JournalRecord) :
    Prop where
  chain : c.Continues d r
  lifecycle : c.lifecycle.Admits r.payload
  room : c.HasRoom limits (recordBytes d r)

/-- The cursor behind the record `r`. -/
def Cursor.next (d : Deps) (c : Cursor) (r : JournalRecord) : Cursor where
  hash := r.recordHash
  sequence := c.sequence + 1
  bytes := c.bytes + (4 + (recordBytes d r).length)
  lifecycle := c.lifecycle.accept r.payload

theorem Cursor.Continues.sequence {c : Cursor} {r : JournalRecord} (h : c.Continues d r) :
    r.sequence = c.sequence := by
  rw [h]; rfl

theorem Cursor.Continues.previousHash {c : Cursor} {r : JournalRecord} (h : c.Continues d r) :
    r.previousHash = c.hash := by
  rw [h]; rfl

theorem Cursor.Continues.recordHash {c : Cursor} {r : JournalRecord} (h : c.Continues d r) :
    r.recordHash = d.sha256 (hashPayload d c.sequence r.timestamp c.hash r.payload) :=
  congrArg JournalRecord.recordHash h

/-- The record limit is below `2 ^ 64`, so the sequence number does not wrap. -/
theorem Cursor.HasRoom.toNat_succ {c : Cursor} {body : List UInt8} (h : c.HasRoom limits body) :
    (c.sequence + 1).toNat = c.sequence.toNat + 1 := by
  have hcount := h.count
  have hmax := limits.maxRecords_lt
  rw [UInt64.toNat_add]
  simp only [UInt64.toNat_one]
  omega

theorem Cursor.HasRoom.length_lt {c : Cursor} {body : List UInt8} (h : c.HasRoom limits body) :
    body.length < 2 ^ 32 :=
  lt_of_le_of_lt h.body_le (by decide)

/-- A record of at most `n` bytes fits where there is room for `n`. -/
theorem Cursor.fits_of_length_le {c : Cursor} {r : JournalRecord} {n : ℕ}
    (hchain : c.Continues d r) (hlife : c.lifecycle.Admits r.payload)
    (hcount : c.sequence.toNat < limits.maxRecords) (hne : recordBytes d r ≠ [])
    (hlen : (recordBytes d r).length ≤ n) (hn : n ≤ maxRecordBytes)
    (hsize : c.bytes + (4 + n) ≤ limits.maxBytes) : c.Fits d limits r :=
  ⟨hchain, hlife, hcount, hne, hlen.trans hn, by omega⟩

theorem Cursor.bytes_next_le {c : Cursor} {r : JournalRecord} {n : ℕ}
    (hlen : (recordBytes d r).length ≤ n) : (c.next d r).bytes ≤ c.bytes + (4 + n) := by
  simp only [Cursor.next]
  omega

/-! ## Runs of the log -/

/-- The records of a log between two cursors. -/
def LogRun (d : Deps) (limits : JournalLimits) : Cursor → List JournalRecord → Cursor → Prop :=
  Steps fun c r c' => c.Fits d limits r ∧ c' = c.next d r

/-- The bytes of consecutive records. -/
def recordFrames (d : Deps) (records : List JournalRecord) : List UInt8 :=
  frames (records.map (recordBytes d))

@[simp] theorem recordFrames_nil : recordFrames d [] = [] := rfl

@[simp] theorem recordFrames_cons (r : JournalRecord) (records : List JournalRecord) :
    recordFrames d (r :: records) = frame (recordBytes d r) ++ recordFrames d records := rfl

theorem recordFrames_concat (records : List JournalRecord) (r : JournalRecord) :
    recordFrames d (records ++ [r]) = recordFrames d records ++ frame (recordBytes d r) := by
  simp [recordFrames, frames_append]

theorem logRun_nil (c : Cursor) : LogRun d limits c [] c := .nil c

theorem logRun_concat_iff {c c' : Cursor} {records : List JournalRecord} {r : JournalRecord} :
    LogRun d limits c (records ++ [r]) c' ↔
      ∃ m, LogRun d limits c records m ∧ m.Fits d limits r ∧ c' = m.next d r :=
  steps_concat_iff

/-- The records are chained, and the last hash is the hash of the final cursor. -/
theorem LogRun.chain {c c' : Cursor} {records : List JournalRecord}
    (h : LogRun d limits c records c') :
    Chain JournalRecord.previousHash JournalRecord.recordHash c.hash records ∧
      terminal JournalRecord.recordHash c.hash records = c'.hash := by
  refine Steps.run_induction
    (P := fun records (m : Cursor) =>
      Chain JournalRecord.previousHash JournalRecord.recordHash c.hash records ∧
        terminal JournalRecord.recordHash c.hash records = m.hash)
    ⟨trivial, rfl⟩ ?_ h
  rintro records m r m' - ⟨hchain, hterm⟩ ⟨hfits, rfl⟩
  rw [chain_concat, terminal_concat]
  exact ⟨⟨hchain, hfits.chain.previousHash.trans hterm.symm⟩, rfl⟩

theorem LogRun.bytes {c c' : Cursor} {records : List JournalRecord}
    (h : LogRun d limits c records c') :
    c'.bytes = c.bytes + (recordFrames d records).length := by
  refine Steps.run_induction
    (P := fun records (m : Cursor) => m.bytes = c.bytes + (recordFrames d records).length)
    rfl ?_ h
  rintro records m r m' - hm ⟨-, rfl⟩
  rw [recordFrames_concat, List.length_append, length_frame]
  simp only [Cursor.next, hm]
  omega

theorem LogRun.sequence {c c' : Cursor} {records : List JournalRecord}
    (h : LogRun d limits c records c') :
    c'.sequence.toNat = c.sequence.toNat + records.length := by
  refine Steps.run_induction
    (P := fun records (m : Cursor) => m.sequence.toNat = c.sequence.toNat + records.length)
    rfl ?_ h
  rintro records m r m' - hm ⟨hfits, rfl⟩
  rw [Cursor.next, hfits.room.toNat_succ, hm, List.length_append, List.length_singleton]
  omega

theorem LogRun.replay {c c' : Cursor} {records : List JournalRecord}
    (h : LogRun d limits c records c') :
    c.lifecycle.replay (records.map JournalRecord.payload) = .ok c'.lifecycle := by
  refine Steps.run_induction
    (P := fun records (m : Cursor) =>
      c.lifecycle.replay (records.map JournalRecord.payload) = .ok m.lifecycle)
    rfl ?_ h
  rintro records m r m' - hm ⟨hfits, rfl⟩
  rw [List.map_append, List.map_singleton]
  exact Lifecycle.replay_concat_ok_iff.mpr ⟨_, hm, hfits.lifecycle, rfl⟩

/-- Both quotas hold of a log whose start is within them. -/
theorem LogRun.within {c c' : Cursor} {records : List JournalRecord}
    (h : LogRun d limits c records c') (hbytes : c.bytes ≤ limits.maxBytes)
    (hseq : c.sequence.toNat ≤ limits.maxRecords) :
    c'.bytes ≤ limits.maxBytes ∧ c'.sequence.toNat ≤ limits.maxRecords := by
  refine Steps.run_induction
    (P := fun _ (m : Cursor) =>
      m.bytes ≤ limits.maxBytes ∧ m.sequence.toNat ≤ limits.maxRecords)
    ⟨hbytes, hseq⟩ ?_ h
  rintro records m r m' - - ⟨hfits, rfl⟩
  refine ⟨hfits.room.size, ?_⟩
  rw [Cursor.next, hfits.room.toNat_succ]
  exact hfits.room.count

/-- The file that holds exactly these records. -/
def journalFile (d : Deps) (records : List JournalRecord) : List UInt8 :=
  journalMagic ++ recordFrames d records

theorem journalFile_concat (records : List JournalRecord) (r : JournalRecord) :
    journalFile d (records ++ [r]) = journalFile d records ++ frame (recordBytes d r) := by
  simp [journalFile, recordFrames_concat]

theorem LogRun.length_journalFile {c' : Cursor} {records : List JournalRecord}
    (h : LogRun d limits (Cursor.start d) records c') :
    (journalFile d records).length = c'.bytes := by
  rw [h.bytes, journalFile, List.length_append]
  rfl

end BaselineOps.Engine
