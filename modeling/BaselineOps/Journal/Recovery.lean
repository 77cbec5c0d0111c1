import Mathlib
import BaselineOps.Journal.Reader

/-!
# Reopening and recovering a journal

Model of `open_with_limits`, `recover_with_limits` and `truncate_incomplete_frame`
(`baselineops-engine/src/journal.rs`).

* `openWithLimits_journalFile`: a complete journal without an active action is reopened at the
  cursor of its log.
* `recoverWithLimits_rejected`: with an active action, or trailing bytes behind a finished run,
  nothing is touched.
* `recoverWithLimits_repaired`: otherwise the torn frame is cut off and the writer continues.
* `recoverWithLimits_bytes`: whatever fails, no complete frame is removed.
-/

namespace BaselineOps.Engine

open BaselineOps.Domain BaselineOps.Lib

/-! ## Model -/

/-- `open_with_limits` (lines 221–240). -/
def openWithLimits (d : JournalDeps) (limits : JournalLimits) (disk : Storage) :
    Except JournalError Journal := do
  let parsed ← completeParse d limits disk.bytes
  let lifecycle ← Lifecycle.fromSnapshot parsed.snapshot
  lifecycle.requireResumable
  return {
    file := disk
    nextSequence := parsed.nextSequence
    previousHash := parsed.snapshot.terminalHash
    currentBytes := parsed.validBytes
    limits := limits
    lifecycle := lifecycle
    writeFailed := false }

/-- `File::set_len`: cuts the file, or extends it with zeros. -/
def setLen (env : Env) (length : ℕ) : StorageM Unit := fun s =>
  match env s.calls with
  | .ok => .ok () ⟨s.bytes.take length ++ List.replicate (length - s.bytes.length) 0, s.calls + 1⟩
  | .fail _ => .error .io ⟨s.bytes, s.calls + 1⟩

/-- `truncate_incomplete_frame` (lines 418–430). -/
def truncateIncompleteFrame (env : Env) (validBytes trailingBytes : ℕ) : StorageM Unit := do
  if trailingBytes = 0 then return ()
  setLen env validBytes
  synchronize env

/-- `JournalRecovery` (lines 122–125). -/
structure JournalRecovery where
  truncatedBytes : ℕ
  deriving DecidableEq

/-- `recover_with_limits` (lines 307–321), on the file at the path. -/
def recoverWithLimits (d : JournalDeps) (env : Env) (limits : JournalLimits) :
    StorageM (Journal × JournalRecovery) := do
  let parsed ← check (parseJournal d limits (← get).bytes)
  let lifecycle ← check (Lifecycle.fromSnapshot parsed.snapshot)
  check (lifecycle.validateRecovery parsed.trailingBytes)
  truncateIncompleteFrame env parsed.validBytes parsed.trailingBytes
  let journal ← check (openWithLimits d limits (← get))
  return (journal, { truncatedBytes := parsed.trailingBytes })

/-! ## Opening -/

/-- The usable writer at a cursor. -/
def writerAt (limits : JournalLimits) (disk : Storage) (c : Cursor) : Journal where
  file := disk
  nextSequence := c.sequence
  previousHash := c.hash
  currentBytes := c.bytes
  limits := limits
  lifecycle := c.lifecycle
  writeFailed := false

@[simp] theorem cursor_writerAt (limits : JournalLimits) (disk : Storage) (c : Cursor) :
    (writerAt limits disk c).cursor = c := rfl

@[simp] theorem advance_writerAt (d : Deps) (limits : JournalLimits) (disk file : Storage)
    (c : Cursor) (r : JournalRecord) :
    (writerAt limits disk c).advance d r file = writerAt limits file (c.next d r) := rfl

variable {d : JournalDeps} {limits : JournalLimits}

theorem parseJournal_eq_parseBytes : parseJournal d limits = parseBytes d limits := rfl

theorem fromSnapshot_logRun {rs : List JournalRecord} {c : Cursor}
    (h : LogRun d.toDeps limits (Cursor.start d.toDeps) rs c) :
    Lifecycle.fromSnapshot ⟨rs, c.hash⟩ = .ok c.lifecycle :=
  h.replay

/-- A complete journal is reopened at the cursor of its log, unless an action is active. -/
theorem openWithLimits_journalFile (hd : d.RoundTrips) {rs : List JournalRecord} {c : Cursor}
    {disk : Storage} (hmagic : journalMagic.length ≤ limits.maxBytes)
    (h : LogRun d.toDeps limits (Cursor.start d.toDeps) rs c)
    (hdisk : disk.bytes = journalFile d.toDeps rs) :
    openWithLimits d limits disk =
      match c.lifecycle.active with
      | some action => .error (.actionRecoveryRequired action)
      | none => .ok (writerAt limits disk c) := by
  have hcomplete : completeParse d limits disk.bytes =
      .ok ⟨⟨rs, c.hash⟩, c.sequence, c.bytes, 0⟩ := by
    have hparse := parseBytes_journalFile (t := []) hd hmagic h (.inl rfl)
    rw [List.append_nil, ← hdisk] at hparse
    rw [completeParse, parseJournal_eq_parseBytes, hparse]
    rfl
  simp only [openWithLimits, hcomplete, bind, Except.bind, fromSnapshot_logRun h,
    Lifecycle.requireResumable]
  cases c.lifecycle.active <;> rfl

theorem openWithLimits_torn (hd : d.RoundTrips) {rs : List JournalRecord} {c : Cursor}
    {disk : Storage} {t : List UInt8} (hmagic : journalMagic.length ≤ limits.maxBytes)
    (h : LogRun d.toDeps limits (Cursor.start d.toDeps) rs c) (ht : TornTail limits c t)
    (hne : t ≠ []) (hdisk : disk.bytes = journalFile d.toDeps rs ++ t) :
    openWithLimits d limits disk = .error .incompleteFrame := by
  have hparse := parseBytes_journalFile hd hmagic h ht
  rw [← hdisk] at hparse
  have hlen : t.length ≠ 0 := by simpa using hne
  simp [openWithLimits, completeParse, parseJournal_eq_parseBytes, hparse, bind, Except.bind, hlen,
    throw, throwThe, MonadExceptOf.throw]

/-! ## Recovering -/

/-- Recovery is refused: an action is active, or bytes follow a finished run. -/
def RecoveryRefused (c : Cursor) (t : List UInt8) : Prop :=
  c.lifecycle.active ≠ none ∨ c.lifecycle.finished = true ∧ t ≠ []

instance (c : Cursor) (t : List UInt8) : Decidable (RecoveryRefused c t) :=
  inferInstanceAs (Decidable (_ ∨ _))

theorem validateRecovery_ok_iff {c : Cursor} {t : List UInt8} :
    c.lifecycle.validateRecovery t.length = .ok () ↔ ¬ RecoveryRefused c t := by
  unfold Lifecycle.validateRecovery Lifecycle.requireResumable RecoveryRefused
  cases hf : c.lifecycle.finished <;> cases ha : c.lifecycle.active <;> cases t <;> simp

/-- The checks of a recovery, in front of its first storage call. -/
theorem recoverWithLimits_eq (hd : d.RoundTrips) (env : Env) {rs : List JournalRecord}
    {c : Cursor} {disk : Storage} {t : List UInt8} (hmagic : journalMagic.length ≤ limits.maxBytes)
    (h : LogRun d.toDeps limits (Cursor.start d.toDeps) rs c) (ht : TornTail limits c t)
    (hdisk : disk.bytes = journalFile d.toDeps rs ++ t) :
    recoverWithLimits d env limits disk = (do
      check (c.lifecycle.validateRecovery t.length)
      truncateIncompleteFrame env c.bytes t.length
      let journal ← check (openWithLimits d limits (← get))
      return (journal, JournalRecovery.mk t.length)) disk := by
  have hparse := parseBytes_journalFile hd hmagic h ht
  rw [← hdisk] at hparse
  simp only [recoverWithLimits, parseJournal_eq_parseBytes, run_bind, run_get, hparse,
    run_check_ok, fromSnapshot_logRun h]

theorem recoverWithLimits_rejected (hd : d.RoundTrips) (env : Env) {rs : List JournalRecord}
    {c : Cursor} {disk : Storage} {t : List UInt8} (hmagic : journalMagic.length ≤ limits.maxBytes)
    (h : LogRun d.toDeps limits (Cursor.start d.toDeps) rs c) (ht : TornTail limits c t)
    (hdisk : disk.bytes = journalFile d.toDeps rs ++ t) (hrefused : RecoveryRefused c t) :
    ∃ e, recoverWithLimits d env limits disk = .error e disk := by
  rw [recoverWithLimits_eq hd env hmagic h ht hdisk, run_bind]
  cases hv : c.lifecycle.validateRecovery t.length with
  | error e => exact ⟨e, rfl⟩
  | ok u => exact absurd hrefused (validateRecovery_ok_iff.mp hv)

/-- The file behind a cut at the end of the log. -/
theorem take_journalFile {rs : List JournalRecord} {c : Cursor} {t : List UInt8}
    (h : LogRun d.toDeps limits (Cursor.start d.toDeps) rs c) :
    (journalFile d.toDeps rs ++ t).take c.bytes ++
      List.replicate (c.bytes - (journalFile d.toDeps rs ++ t).length) 0 =
      journalFile d.toDeps rs := by
  have hlen := h.length_journalFile
  rw [List.take_left' hlen, List.length_append, hlen, Nat.sub_eq_zero_of_le (by omega)]
  simp

/-- What a recovery that is not refused does to the file: nothing when no bytes trail; else the
    file is cut at the end of the log, unless the cut itself fails. -/
theorem truncateIncompleteFrame_cases (env : Env) {rs : List JournalRecord} {c : Cursor}
    {disk : Storage} {t : List UInt8}
    (h : LogRun d.toDeps limits (Cursor.start d.toDeps) rs c)
    (hdisk : disk.bytes = journalFile d.toDeps rs ++ t) :
    (t = [] ∧ truncateIncompleteFrame env c.bytes t.length disk = .ok () disk) ∨
    (t ≠ [] ∧ env disk.calls = .ok ∧ env (disk.calls + 1) = .ok ∧
      truncateIncompleteFrame env c.bytes t.length disk =
        .ok () ⟨journalFile d.toDeps rs, disk.calls + 2⟩) ∨
    (t ≠ [] ∧ ¬ (env disk.calls = .ok ∧ env (disk.calls + 1) = .ok) ∧
      ∃ bytes calls, truncateIncompleteFrame env c.bytes t.length disk =
          .error .io ⟨bytes, calls⟩ ∧
        (bytes = disk.bytes ∨ bytes = journalFile d.toDeps rs)) := by
  by_cases hne : t = []
  · subst hne
    exact .inl ⟨rfl, rfl⟩
  · have hlen : t.length ≠ 0 := by simpa using hne
    have hcut := take_journalFile (t := t) h
    rw [← hdisk] at hcut
    have hmodel : truncateIncompleteFrame env c.bytes t.length = (do
        setLen env c.bytes
        synchronize env) := by
      rw [truncateIncompleteFrame, if_neg hlen]
    rw [hmodel]
    right
    simp only [run_bind, setLen, synchronize, Storage.call]
    cases h0 : env disk.calls with
    | fail k => exact .inr ⟨hne, by simp, _, _, rfl, .inl rfl⟩
    | ok =>
      simp only [hcut]
      cases h1 : env (disk.calls + 1) with
      | ok => exact .inl ⟨hne, trivial, rfl, by simp⟩
      | fail k => exact .inr ⟨hne, by simp, _, _, rfl, .inr (by simp)⟩

/-- A recovery that is not refused cuts the torn frame off and continues at the end of the log. -/
theorem recoverWithLimits_repaired (hd : d.RoundTrips) (env : Env) {rs : List JournalRecord}
    {c : Cursor} (disk : Storage) {t : List UInt8} (hmagic : journalMagic.length ≤ limits.maxBytes)
    (h : LogRun d.toDeps limits (Cursor.start d.toDeps) rs c) (ht : TornTail limits c t)
    (hdisk : disk.bytes = journalFile d.toDeps rs ++ t) (hok : ¬ RecoveryRefused c t)
    (henv : env disk.calls = .ok ∧ env (disk.calls + 1) = .ok) :
    ∃ calls, recoverWithLimits d env limits disk =
      .ok (writerAt limits ⟨journalFile d.toDeps rs, calls⟩ c, ⟨t.length⟩)
        ⟨journalFile d.toDeps rs, calls⟩ := by
  have hactive : c.lifecycle.active = none := by
    by_contra hne
    exact hok (.inl hne)
  have hopen : ∀ calls, openWithLimits d limits ⟨journalFile d.toDeps rs, calls⟩ =
      .ok (writerAt limits ⟨journalFile d.toDeps rs, calls⟩ c) := by
    intro calls
    rw [openWithLimits_journalFile hd hmagic h rfl, hactive]
  rw [recoverWithLimits_eq hd env hmagic h ht hdisk]
  simp only [run_bind, run_get, validateRecovery_ok_iff.mpr hok, run_check_ok]
  rcases truncateIncompleteFrame_cases env h hdisk with ⟨rfl, htrunc⟩ | ⟨-, -, -, htrunc⟩ |
    ⟨-, hbroken, -⟩
  · refine ⟨disk.calls, ?_⟩
    have hdisk' : disk = ⟨journalFile d.toDeps rs, disk.calls⟩ :=
      Storage.ext (by simpa using hdisk) rfl
    rw [htrunc]
    simp only
    rw [hdisk', hopen]
    rfl
  · refine ⟨disk.calls + 2, ?_⟩
    rw [htrunc]
    simp only [hopen, run_check_ok, run_pure]
  · exact absurd henv hbroken

/-- Whatever fails in a recovery, the file keeps every complete frame: it is untouched, or cut at
    the end of the log. -/
theorem recoverWithLimits_bytes (hd : d.RoundTrips) (env : Env) {rs : List JournalRecord}
    {c : Cursor} (disk : Storage) {t : List UInt8} (hmagic : journalMagic.length ≤ limits.maxBytes)
    (h : LogRun d.toDeps limits (Cursor.start d.toDeps) rs c) (ht : TornTail limits c t)
    (hdisk : disk.bytes = journalFile d.toDeps rs ++ t) :
    (∃ calls, recoverWithLimits d env limits disk =
      .ok (writerAt limits ⟨journalFile d.toDeps rs, calls⟩ c, ⟨t.length⟩)
        ⟨journalFile d.toDeps rs, calls⟩) ∨
    ∃ e bytes calls, recoverWithLimits d env limits disk = .error e ⟨bytes, calls⟩ ∧
      (bytes = disk.bytes ∨ bytes = journalFile d.toDeps rs) := by
  by_cases hrefused : RecoveryRefused c t
  · obtain ⟨e, he⟩ := recoverWithLimits_rejected hd env hmagic h ht hdisk hrefused
    exact .inr ⟨e, _, _, he, .inl rfl⟩
  · rcases truncateIncompleteFrame_cases env h hdisk with ⟨rfl, htrunc⟩ | ⟨-, h0, h1, -⟩ |
      ⟨-, -, bytes, calls, htrunc, hbytes⟩
    · -- Nothing trails, so no storage call is made.
      left
      have hquiet := recoverWithLimits_repaired hd (fun _ => .ok) disk hmagic h ht hdisk hrefused
        ⟨rfl, rfl⟩
      have hsame : recoverWithLimits d env limits disk =
          recoverWithLimits d (fun _ => .ok) limits disk := by
        rw [recoverWithLimits_eq hd env hmagic h ht hdisk,
          recoverWithLimits_eq hd (fun _ => .ok) hmagic h ht hdisk]
        rfl
      rw [hsame]
      exact hquiet
    · exact .inl (recoverWithLimits_repaired hd env disk hmagic h ht hdisk hrefused ⟨h0, h1⟩)
    · refine .inr ⟨.io, bytes, calls, ?_, hbytes⟩
      rw [recoverWithLimits_eq hd env hmagic h ht hdisk]
      simp only [run_bind, validateRecovery_ok_iff.mpr hrefused, run_check_ok, htrunc]

end BaselineOps.Engine
