import Mathlib
import BaselineOps.Journal.Log
import BaselineOps.Lib.EState

/-!
# The journal writer

Model of the writing half of `baselineops-engine/src/journal.rs`: `create_with_limits`, `append`
and the functions they call, over a storage whose every call may fail.

* `append_eq`: an append is a pure check followed by the durable write of one frame.
* `append_cases`: rejected without a storage call, broken inside the frame, or complete.
* `preflight_ok_iff`: the check passes on the records that fit the log, and on no others.
-/

namespace BaselineOps.Engine

open BaselineOps.Domain BaselineOps.Lib

/-! ## Storage -/

/-- What one call to the operating system does: succeed, or report an error after `landed` bytes
    of the data have reached the file. -/
inductive CallOutcome where
  | ok
  | fail (landed : ℕ)
  deriving DecidableEq

/-- The behaviour of the storage, by the number of the call. -/
abbrev Env := ℕ → CallOutcome

/-- `storage::Storage`: the bytes of the file and the number of calls made on it. -/
@[ext]
structure Storage where
  bytes : List UInt8
  calls : ℕ
  deriving DecidableEq

/-- Storage operations: a result, or an error, and in both cases the storage afterwards. -/
abbrev StorageM := EStateM JournalError Storage

/-- One call that is to add `data` to the end of the file. -/
def Storage.call (env : Env) (data : List UInt8) : StorageM Unit := fun s =>
  match env s.calls with
  | .ok => .ok () ⟨s.bytes ++ data, s.calls + 1⟩
  | .fail landed => .error .io ⟨s.bytes ++ data.take landed, s.calls + 1⟩

/-- `Write::write_all`. -/
def writeAll (env : Env) (data : List UInt8) : StorageM Unit := Storage.call env data

/-- `Write::flush`. -/
def flush (env : Env) : StorageM Unit := Storage.call env []

/-- `DurableWrite::synchronize` (lines 453–461). -/
def synchronize (env : Env) : StorageM Unit := Storage.call env []

/-- `write_record` (lines 477–484). -/
def writeRecord (env : Env) (body : List UInt8) : StorageM Unit := do
  if body.length < 2 ^ 32 then
    writeAll env (toLeBytes 4 body.length)
    writeAll env body
    flush env
    synchronize env
  else throw .recordTooLarge

/-! ## Limits -/

/-- `ensure_size_limit` (lines 392–399). -/
def ensureSizeLimit (bytes : ℕ) (limits : JournalLimits) : Except JournalError Unit :=
  if bytes > limits.maxBytes then .error (.journalSizeLimitExceeded limits.maxBytes) else .ok ()

/-- `ensure_record_limit` (lines 401–409); every `u64` is a `usize` on the supported targets. -/
def ensureRecordLimit (sequence : UInt64) (limits : JournalLimits) : Except JournalError Unit :=
  if sequence.toNat ≥ limits.maxRecords then
    .error (.journalRecordLimitExceeded limits.maxRecords)
  else .ok ()

/-- `frame_size` (lines 411–416). -/
def frameSize (recordLength : ℕ) : Except JournalError ℕ :=
  if recordLength = 0 ∨ recordLength > maxRecordBytes then .error .recordTooLarge
  else .ok (4 + recordLength)

/-- `checked_add(1)` on the sequence number (lines 338–341 and 147–150 of the reader). -/
def nextSequenceNumber (sequence : UInt64) : Except JournalError UInt64 :=
  if sequence.toNat + 1 < 2 ^ 64 then .ok (sequence + 1) else .error .sequenceOverflow

/-! ## The writer -/

/-- `Journal` (lines 100–109), without its path. -/
@[ext]
structure Journal where
  file : Storage
  nextSequence : UInt64
  previousHash : Sha256Digest
  currentBytes : ℕ
  limits : JournalLimits
  lifecycle : Lifecycle
  writeFailed : Bool

/-- Operations on the writer. -/
abbrev JournalM := EStateM JournalError Journal

/-- An operation on the writer's file. -/
def onFile {α : Type} (action : StorageM α) : JournalM α := fun j =>
  match action j.file with
  | .ok a file => .ok a { j with file := file }
  | .error e file => .error e { j with file := file }

/-- `initialize` (lines 182–198). -/
def initializeJournal (d : Deps) (env : Env) (limits : JournalLimits) : StorageM Journal := do
  writeAll env journalMagic
  synchronize env
  let file ← get
  return {
    file := file
    nextSequence := 0
    previousHash := d.sha256 []
    currentBytes := journalMagic.length
    limits := limits
    lifecycle := {}
    writeFailed := false }

/-- `create_with_limits` (lines 169–180). The state is the new, empty file. -/
def createWithLimits (d : Deps) (env : Env) (limits : JournalLimits) : StorageM Journal := do
  check (ensureSizeLimit journalMagic.length limits)
  initializeJournal d env limits

/-- `next_frame_end` (lines 359–368). -/
def nextFrameEnd (j : Journal) (length : ℕ) : Except JournalError ℕ := do
  let frameBytes ← frameSize length
  if j.currentBytes + frameBytes < 2 ^ 64 then
    ensureSizeLimit (j.currentBytes + frameBytes) j.limits
    return j.currentBytes + frameBytes
  else throw (.journalSizeLimitExceeded j.limits.maxBytes)

/-- `write_durable_record` (lines 463–475). -/
def writeDurableRecord (env : Env) (body : List UInt8) : JournalM Unit := do
  if (← get).writeFailed then throw .writeFailed
  modify fun j => { j with writeFailed := true }
  onFile (writeRecord env body)
  modify fun j => { j with writeFailed := false }

/-- `write_next_record` (lines 351–357). -/
def writeNextRecord (d : Deps) (env : Env) (record : JournalRecord) : JournalM ℕ := do
  let body := recordBytes d record
  let nextBytes ← check (nextFrameEnd (← get) body.length)
  check ((← get).lifecycle.validate record.payload)
  writeDurableRecord env body
  return nextBytes

/-- `append` (lines 329–349). -/
def append (d : Deps) (env : Env) (timestamp : DateTime) (payload : JournalEvent) :
    JournalM JournalRecord := do
  let j ← get
  if j.writeFailed then throw .writeFailed
  check (ensureRecordLimit j.nextSequence j.limits)
  let nextSequence ← check (nextSequenceNumber j.nextSequence)
  let record := journalRecord d j.nextSequence j.previousHash timestamp payload
  let nextBytes ← writeNextRecord d env record
  modify fun j => { j with
    lifecycle := j.lifecycle.accept record.payload
    previousHash := record.recordHash
    nextSequence := nextSequence
    currentBytes := nextBytes }
  return record

/-- The four accounts of the writer. -/
def Journal.cursor (j : Journal) : Cursor where
  hash := j.previousHash
  sequence := j.nextSequence
  bytes := j.currentBytes
  lifecycle := j.lifecycle

/-! ## Storage calls -/

theorem writeRecord_eq (env : Env) {body : List UInt8} (hlen : body.length < 2 ^ 32) :
    writeRecord env body = (do
      writeAll env (toLeBytes 4 body.length)
      writeAll env body
      flush env
      synchronize env) :=
  if_pos hlen

/-- All four calls of a record write succeed. -/
def QuietWrite (env : Env) (calls : ℕ) : Prop := ∀ i < 4, env (calls + i) = .ok

theorem writeRecord_quiet {env : Env} {s : Storage} {body : List UInt8}
    (hlen : body.length < 2 ^ 32) (h : QuietWrite env s.calls) :
    writeRecord env body s = .ok () ⟨s.bytes ++ frame body, s.calls + 4⟩ := by
  have h0 := h 0 (by omega)
  have h1 := h 1 (by omega)
  have h2 := h 2 (by omega)
  have h3 := h 3 (by omega)
  rw [Nat.add_zero] at h0
  rw [writeRecord_eq env hlen]
  simp [writeAll, flush, synchronize, Storage.call, bind, EStateM.bind, h0, h1,
    h2, h3, frame]

/-- A record write that meets a fault leaves a prefix of the frame behind, possibly all of it when
    the fault is in the flush or the synchronization. -/
theorem writeRecord_broken {env : Env} {s : Storage} {body : List UInt8}
    (hlen : body.length < 2 ^ 32) (h : ¬ QuietWrite env s.calls) :
    ∃ t calls, writeRecord env body s = .error .io ⟨s.bytes ++ t, calls⟩ ∧
      t <+: frame body ∧ s.calls < calls := by
  have hall : ¬ (env s.calls = .ok ∧ env (s.calls + 1) = .ok ∧ env (s.calls + 2) = .ok ∧
      env (s.calls + 3) = .ok) := by
    rintro ⟨h0, h1, h2, h3⟩
    apply h
    intro i hi
    interval_cases i
    exacts [h0, h1, h2, h3]
  rw [writeRecord_eq env hlen]
  -- The first call that fails decides how much of the frame is there.
  cases h0 : env s.calls with
  | fail k =>
    refine ⟨(toLeBytes 4 body.length).take k, s.calls + 1, ?_, ?_, by omega⟩
    · simp [writeAll, Storage.call, bind, EStateM.bind, h0]
    · exact (List.take_prefix _ _).trans (List.prefix_append _ _)
  | ok =>
    cases h1 : env (s.calls + 1) with
    | fail k =>
      refine ⟨toLeBytes 4 body.length ++ body.take k, s.calls + 2, ?_, ?_, by omega⟩
      · simp [writeAll, Storage.call, bind, EStateM.bind, h0, h1]
      · exact (List.prefix_append_right_inj _).mpr (List.take_prefix _ _)
    | ok =>
      cases h2 : env (s.calls + 2) with
      | fail k =>
        refine ⟨frame body, s.calls + 3, ?_, List.prefix_rfl, by omega⟩
        simp [writeAll, flush, Storage.call, bind, EStateM.bind, h0, h1, h2,
          frame]
      | ok =>
        cases h3 : env (s.calls + 3) with
        | fail k =>
          refine ⟨frame body, s.calls + 4, ?_, List.prefix_rfl, by omega⟩
          simp [writeAll, flush, synchronize, Storage.call, bind, EStateM.bind,
            h0, h1, h2, h3, frame]
        | ok => exact absurd ⟨h0, h1, h2, h3⟩ hall

/-! ## One append -/

/-- The checks of an append before its first storage call, in their order. -/
def Journal.preflight (d : Deps) (j : Journal) (timestamp : DateTime) (payload : JournalEvent) :
    Except JournalError JournalRecord := do
  if j.writeFailed then throw .writeFailed
  ensureRecordLimit j.nextSequence j.limits
  let _ ← nextSequenceNumber j.nextSequence
  let record := journalRecord d j.nextSequence j.previousHash timestamp payload
  let _ ← nextFrameEnd j (recordBytes d record).length
  j.lifecycle.validate record.payload
  return record

/-- The writer behind a complete append of `r`. -/
def Journal.advance (d : Deps) (j : Journal) (r : JournalRecord) (file : Storage) : Journal where
  file := file
  nextSequence := j.nextSequence + 1
  previousHash := r.recordHash
  currentBytes := j.currentBytes + (4 + (recordBytes d r).length)
  limits := j.limits
  lifecycle := j.lifecycle.accept r.payload
  writeFailed := false

@[simp] theorem cursor_advance (d : Deps) (j : Journal) (r : JournalRecord) (file : Storage) :
    (j.advance d r file).cursor = j.cursor.next d r := rfl

theorem nextSequenceNumber_ok {s n : UInt64} (h : nextSequenceNumber s = .ok n) : n = s + 1 := by
  unfold nextSequenceNumber at h
  split at h
  · exact (Except.ok.inj h).symm
  · cases h

theorem nextFrameEnd_ok {j : Journal} {length n : ℕ} (h : nextFrameEnd j length = .ok n) :
    n = j.currentBytes + (4 + length) := by
  simp only [nextFrameEnd, frameSize, ensureSizeLimit] at h
  split at h
  · cases h
  · simp only [bind, Except.bind] at h
    split at h
    · split at h
      · cases h
      · exact (Except.ok.inj h).symm
    · cases h

/-- An append checks, writes one frame, and then updates the writer. -/
theorem append_eq (d : Deps) (env : Env) (timestamp : DateTime) (payload : JournalEvent)
    (j : Journal) :
    append d env timestamp payload j =
      match j.preflight d timestamp payload with
      | .error e => .error e j
      | .ok r =>
        match writeRecord env (recordBytes d r) j.file with
        | .error e file => .error e { j with file := file, writeFailed := true }
        | .ok _ file => .ok r (j.advance d r file) := by
  simp only [append, writeNextRecord, writeDurableRecord, onFile, run_bind, run_get, run_ite,
    run_throw]
  unfold Journal.preflight
  cases hw : j.writeFailed with
  | true => rfl
  | false =>
    cases hr : ensureRecordLimit j.nextSequence j.limits with
    | error e => simp [run_check_error, bind, Except.bind]
    | ok u =>
      cases hs : nextSequenceNumber j.nextSequence with
      | error e => simp [run_check_ok, run_check_error, bind, Except.bind]
      | ok n =>
        cases hn : nextFrameEnd j
          (recordBytes d (journalRecord d j.nextSequence j.previousHash timestamp payload)).length
          with
        | error e => simp [run_check_ok, run_check_error, bind, Except.bind, hn]
        | ok b =>
          cases hv : j.lifecycle.validate
            (journalRecord d j.nextSequence j.previousHash timestamp payload).payload with
          | error e => simp [run_check_ok, run_check_error, bind, Except.bind, hn, hv]
          | ok u =>
            simp only [run_check_ok, bind, Except.bind, hn, hv, hw, run_modify, pure,
              Except.pure, Bool.false_eq_true, if_false]
            cases hfile : writeRecord env
              (recordBytes d (journalRecord d j.nextSequence j.previousHash timestamp payload))
              j.file with
            | error e file => rfl
            | ok u file =>
              rw [nextSequenceNumber_ok hs, nextFrameEnd_ok hn]
              rfl

theorem ensureRecordLimit_ok_iff {sequence : UInt64} {limits : JournalLimits} :
    ensureRecordLimit sequence limits = .ok () ↔ sequence.toNat < limits.maxRecords := by
  unfold ensureRecordLimit
  split
  · simp; omega
  · simp; omega

/-- Below the record limit the sequence number has a successor. -/
theorem nextSequenceNumber_eq {sequence : UInt64} {limits : JournalLimits}
    (h : sequence.toNat < limits.maxRecords) :
    nextSequenceNumber sequence = .ok (sequence + 1) := by
  have := limits.maxRecords_lt
  exact if_pos (by omega)

theorem ensureSizeLimit_ok_iff {bytes : ℕ} {limits : JournalLimits} :
    ensureSizeLimit bytes limits = .ok () ↔ bytes ≤ limits.maxBytes := by
  unfold ensureSizeLimit
  split
  · simp; omega
  · simp; omega

theorem nextFrameEnd_ok_iff {j : Journal} {length n : ℕ} :
    nextFrameEnd j length = .ok n ↔
      length ≠ 0 ∧ length ≤ maxRecordBytes ∧ j.currentBytes + (4 + length) ≤ j.limits.maxBytes ∧
        n = j.currentBytes + (4 + length) := by
  have hmax := j.limits.maxBytes_lt
  constructor
  · intro h
    have hn := nextFrameEnd_ok h
    simp only [nextFrameEnd, frameSize] at h
    split at h
    · cases h
    · rename_i hlen
      simp only [bind, Except.bind] at h
      split at h
      · cases hsize : ensureSizeLimit (j.currentBytes + (4 + length)) j.limits with
        | error e => simp [hsize] at h
        | ok u =>
          rw [ensureSizeLimit_ok_iff] at hsize
          exact ⟨by omega, by omega, hsize, hn⟩
      · cases h
  · rintro ⟨hne, hle, hsize, rfl⟩
    have hcheck := ensureSizeLimit_ok_iff.mpr hsize
    simp only [nextFrameEnd, frameSize, bind, Except.bind]
    rw [if_neg (by omega)]
    simp only [hcheck]
    rw [if_pos (by omega)]
    rfl

/-- The checks pass for a usable writer and a record that fits its log. -/
theorem preflight_ok_iff {d : Deps} {j : Journal} {timestamp : DateTime} {payload : JournalEvent}
    {r : JournalRecord} :
    j.preflight d timestamp payload = .ok r ↔
      j.writeFailed = false ∧
        r = journalRecord d j.nextSequence j.previousHash timestamp payload ∧
        j.cursor.Fits d j.limits r := by
  cases hw : j.writeFailed with
  | true => simp [Journal.preflight, hw, bind, Except.bind, throw, throwThe, MonadExceptOf.throw]
  | false =>
    simp only [Journal.preflight, hw, Bool.false_eq_true, if_false, pure, Except.pure,
      except_bind_ok_iff, true_and]
    constructor
    · rintro ⟨_, hcount, _, -, n, hend, _, hlife, hr⟩
      obtain rfl := Except.ok.inj hr
      rw [ensureRecordLimit_ok_iff] at hcount
      obtain ⟨hne, hle, hsize, -⟩ := nextFrameEnd_ok_iff.mp hend
      exact ⟨rfl, rfl, Lifecycle.validate_ok_iff.mp hlife, hcount, by simpa using hne, hle, hsize⟩
    · rintro ⟨rfl, -, hlife, hcount, hne, hle, hsize⟩
      refine ⟨(), ensureRecordLimit_ok_iff.mpr hcount, _, nextSequenceNumber_eq hcount, _,
        nextFrameEnd_ok_iff.mpr ⟨by simpa using hne, hle, hsize, rfl⟩, (),
        Lifecycle.validate_ok_iff.mpr hlife, rfl⟩

/-- Where there is room for the record, only the lifecycle decides. -/
theorem preflight_of_room {d : Deps} {j : Journal} {timestamp : DateTime} {payload : JournalEvent}
    (hgood : j.writeFailed = false)
    (hroom : j.cursor.HasRoom j.limits
      (recordBytes d (journalRecord d j.nextSequence j.previousHash timestamp payload))) :
    j.preflight d timestamp payload = (j.lifecycle.validate payload).map fun _ =>
      journalRecord d j.nextSequence j.previousHash timestamp payload := by
  have hcount := ensureRecordLimit_ok_iff.mpr hroom.count
  have hnext := nextSequenceNumber_eq hroom.count
  have hend := nextFrameEnd_ok_iff.mpr
    ⟨by simpa using hroom.body_ne, hroom.body_le, hroom.size, rfl⟩
  simp only [Journal.cursor] at hcount hnext
  simp only [Journal.preflight, hgood, Bool.false_eq_true, if_false, hcount, hnext, hend, bind,
    Except.bind, pure, Except.pure]
  cases hvalid : j.lifecycle.validate payload with
  | error e =>
    simp only [journalRecord, hvalid]
    rfl
  | ok u =>
    simp only [journalRecord, hvalid]
    rfl

/-- The three ways an append can go: it is rejected by a check and nothing changes; a storage call
    fails inside the frame and the writer is poisoned; or the frame is written completely. -/
theorem append_cases (d : Deps) (env : Env) (timestamp : DateTime) (payload : JournalEvent)
    (j : Journal) :
    (∃ e, j.preflight d timestamp payload = .error e ∧
      append d env timestamp payload j = .error e j) ∨
    (∃ r t calls, j.preflight d timestamp payload = .ok r ∧ ¬ QuietWrite env j.file.calls ∧
      append d env timestamp payload j =
        .error .io { j with file := ⟨j.file.bytes ++ t, calls⟩, writeFailed := true } ∧
      t <+: frame (recordBytes d r) ∧ j.file.calls < calls) ∨
    ∃ r, j.preflight d timestamp payload = .ok r ∧ QuietWrite env j.file.calls ∧
      append d env timestamp payload j =
        .ok r (j.advance d r ⟨j.file.bytes ++ frame (recordBytes d r), j.file.calls + 4⟩) := by
  cases hadm : j.preflight d timestamp payload with
  | error e =>
    refine .inl ⟨e, rfl, ?_⟩
    rw [append_eq, hadm]
  | ok r =>
    right
    have hlen := (preflight_ok_iff.mp hadm).2.2.room.length_lt
    by_cases hquiet : QuietWrite env j.file.calls
    · refine .inr ⟨r, rfl, hquiet, ?_⟩
      rw [append_eq, hadm]
      simp only [writeRecord_quiet hlen hquiet]
    · obtain ⟨t, calls, hwrite, ht, hcalls⟩ := writeRecord_broken hlen hquiet
      refine .inl ⟨r, t, calls, rfl, hquiet, ?_, ht, hcalls⟩
      rw [append_eq, hadm]
      simp only [hwrite]

end BaselineOps.Engine
