import Mathlib
import BaselineOps.Journal.Session

/-!
# Failed appends and torn files

* `append_atomic`: what a failed append leaves behind, for every writer and every fault, and what
  any sequence of appends with any faults leaves behind.
* `recovery_after_crash`: what `recover_with_limits` does to a file with a torn frame behind it.
-/

namespace BaselineOps.Engine

open BaselineOps.Domain BaselineOps.Lib

/-! ## Sequences of appends -/

/-- Appends on one writer, one after the other: the records returned as `Ok` and the writer at
    the end. -/
def appendAll (d : Deps) (env : Env) :
    List (DateTime × JournalEvent) → Journal → List JournalRecord × Journal
  | [], j => ([], j)
  | (timestamp, payload) :: rest, j =>
    match append d env timestamp payload j with
    | .ok r j' => (r :: (appendAll d env rest j').1, (appendAll d env rest j').2)
    | .error _ j' => appendAll d env rest j'

variable {d : Deps} {env : Env}

/-- A writer that has failed refuses every append without a storage call. -/
theorem append_of_writeFailed {j : Journal} (h : j.writeFailed = true) (env : Env)
    (timestamp : DateTime) (payload : JournalEvent) :
    append d env timestamp payload j = .error .writeFailed j := by
  have hadm : j.preflight d timestamp payload = .error .writeFailed := by
    simp [Journal.preflight, h, bind, Except.bind, throw, throwThe, MonadExceptOf.throw]
  rw [append_eq, hadm]

theorem appendAll_of_writeFailed {j : Journal} (h : j.writeFailed = true) (env : Env)
    (events : List (DateTime × JournalEvent)) : appendAll d env events j = ([], j) := by
  induction events with
  | nil => rfl
  | cons event events ih =>
    rw [appendAll, append_of_writeFailed h]
    exact ih

/-- The file behind a sequence of appends: the frames of the returned records, and at most one
    further frame, partly or fully, which the writer does not count. -/
theorem appendAll_file (d : Deps) (env : Env) (events : List (DateTime × JournalEvent))
    (j : Journal) :
    LogRun d j.limits j.cursor (appendAll d env events j).1 (appendAll d env events j).2.cursor ∧
    ∃ t, (appendAll d env events j).2.file.bytes =
        j.file.bytes ++ recordFrames d (appendAll d env events j).1 ++ t ∧
      (t = [] ∨ (appendAll d env events j).2.writeFailed = true ∧
        ∃ r, (appendAll d env events j).2.cursor.Fits d j.limits r ∧
          t <+: frame (recordBytes d r)) := by
  induction events generalizing j with
  | nil => exact ⟨logRun_nil _, [], by simp [appendAll], .inl rfl⟩
  | cons event events ih =>
    obtain ⟨timestamp, payload⟩ := event
    rcases append_cases d env timestamp payload j with
      ⟨e, -, happ⟩ | ⟨r, t, calls, hadm, -, happ, ht, -⟩ | ⟨r, hadm, -, happ⟩
    · simp only [appendAll, happ]
      exact ih j
    · -- The writer is poisoned, so the rest of the sequence adds nothing.
      simp only [appendAll, happ]
      rw [appendAll_of_writeFailed rfl]
      exact ⟨logRun_nil _, t, by simp, .inr ⟨rfl, r, (preflight_ok_iff.mp hadm).2.2, ht⟩⟩
    · have hfits := (preflight_ok_iff.mp hadm).2.2
      simp only [appendAll, happ]
      obtain ⟨hrun, t, hbytes, ht⟩ :=
        ih (j.advance d r ⟨j.file.bytes ++ frame (recordBytes d r), j.file.calls + 4⟩)
      refine ⟨.cons ⟨hfits, rfl⟩ hrun, t, ?_, ht⟩
      rw [hbytes, recordFrames_cons]
      simp [Journal.advance]

/-- Appends are atomic. An append that fails before its first storage call changes nothing. One
    that fails in a storage call keeps the four accounts, poisons the writer and leaves a prefix of
    the frame in the file; the writer then refuses every append. Over any sequence of appends the
    returned records are a log, and the file holds them with at most one further frame. -/
theorem append_atomic (d : Deps) :
    (∀ (env : Env) (timestamp : DateTime) (payload : JournalEvent) (j j' : Journal)
        (e : JournalError), append d env timestamp payload j = .error e j' →
      (j'.file.calls = j.file.calls ∧ j' = j ∧
        ∀ env' timestamp' payload', append d env' timestamp' payload' j' =
          append d env' timestamp' payload' j) ∨
      (j.file.calls < j'.file.calls ∧ e = .io ∧
        (j'.previousHash, j'.nextSequence, j'.currentBytes, j'.lifecycle) =
          (j.previousHash, j.nextSequence, j.currentBytes, j.lifecycle) ∧
        j'.writeFailed = true ∧
        (∃ t, t <+: frame (recordBytes d
            (journalRecord d j.nextSequence j.previousHash timestamp payload)) ∧
          j'.file.bytes = j.file.bytes ++ t) ∧
        ∀ env' timestamp' payload',
          append d env' timestamp' payload' j' = .error .writeFailed j')) ∧
    (∀ (env : Env) (timestamp : DateTime) (payload : JournalEvent) (j j' : Journal)
        (r : JournalRecord), append d env timestamp payload j = .ok r j' →
      r = journalRecord d j.nextSequence j.previousHash timestamp payload ∧
      (∀ i < 4, env (j.file.calls + i) = .ok) ∧
      j'.file.bytes = j.file.bytes ++ frame (recordBytes d r)) ∧
    ∀ (env : Env) (events : List (DateTime × JournalEvent)) (j : Journal),
      let oks := (appendAll d env events j).1
      let final := (appendAll d env events j).2
      LogRun d j.limits j.cursor oks final.cursor ∧
      ∃ t, final.file.bytes = j.file.bytes ++ recordFrames d oks ++ t ∧
        (t = [] ∨ final.writeFailed = true ∧
          ∃ r, final.cursor.Fits d j.limits r ∧ t <+: frame (recordBytes d r)) := by
  refine ⟨?_, ?_, fun env events j => appendAll_file d env events j⟩
  · intro env timestamp payload j j' e h
    rcases append_cases d env timestamp payload j with
      ⟨e', -, happ⟩ | ⟨r, t, calls, hadm, -, happ, ht, hcalls⟩ | ⟨r, -, -, happ⟩
    · rw [happ] at h
      cases h
      exact .inl ⟨rfl, rfl, fun _ _ _ => rfl⟩
    · rw [happ] at h
      cases h
      obtain ⟨-, rfl, -⟩ := preflight_ok_iff.mp hadm
      exact .inr ⟨hcalls, rfl, rfl, rfl, ⟨t, ht, rfl⟩,
        fun env' timestamp' payload' => append_of_writeFailed rfl env' timestamp' payload'⟩
    · rw [happ] at h
      cases h
  · intro env timestamp payload j j' r h
    rcases append_cases d env timestamp payload j with
      ⟨e', -, happ⟩ | ⟨r', t, calls, -, -, happ, -, -⟩ | ⟨r', hadm, hquiet, happ⟩
    · rw [happ] at h
      cases h
    · rw [happ] at h
      cases h
    · rw [happ] at h
      cases h
      exact ⟨(preflight_ok_iff.mp hadm).2.1, hquiet, rfl⟩

/-! ## Recovery after a crash -/

section Recovery

variable {d : JournalDeps} {limits : JournalLimits} {rs : List JournalRecord} {c : Cursor}
  {t : List UInt8}

/-- A strict prefix of a frame that has room behind the log. -/
theorem tornTail_of_strict_prefix {body : List UInt8} (hroom : c.HasRoom limits body)
    (ht : t <+: frame body) (hne : t ≠ frame body) : TornTail limits c t := by
  have hsize := hroom.size
  have hle := ht.length_le
  rw [length_frame] at hle
  rcases Nat.lt_or_eq_of_le hle with hlt | heq
  · exact .inr ⟨body, hroom.body_ne, hroom.body_le, ht, hlt, by omega⟩
  · exact absurd (ht.eq_of_length (by rw [heq, length_frame])) hne

/-- The next append of a writer at the end of the log is read back behind the old records. -/
theorem readBytes_after_append (hd : d.RoundTrips) (hmagic : journalMagic.length ≤ limits.maxBytes)
    (h : LogRun d.toDeps limits (Cursor.start d.toDeps) rs c) {env : Env} {calls : ℕ}
    {timestamp : DateTime} {payload : JournalEvent} {r : JournalRecord} {j : Journal}
    (happ : append d.toDeps env timestamp payload
      (writerAt limits ⟨journalFile d.toDeps rs, calls⟩ c) = .ok r j) :
    readBytes d limits j.file.bytes = .ok ⟨rs ++ [r], r.recordHash⟩ := by
  rcases append_cases d.toDeps env timestamp payload
      (writerAt limits ⟨journalFile d.toDeps rs, calls⟩ c) with
    ⟨e, -, h'⟩ | ⟨r', t', n, -, -, h', -, -⟩ | ⟨r', hadm, -, h'⟩
  · rw [h'] at happ
    cases happ
  · rw [h'] at happ
    cases happ
  · rw [h'] at happ
    cases happ
    have hrun := logRun_concat_iff.mpr ⟨c, h, (preflight_ok_iff.mp hadm).2.2, rfl⟩
    have hread := readBytes_journalFile hd hmagic hrun
    rw [journalFile_concat] at hread
    exact hread

theorem not_recoveryRefused (hactive : c.lifecycle.active = none)
    (hfinished : t = [] ∨ c.lifecycle.finished = false) : ¬ RecoveryRefused c t := by
  rintro (h | ⟨h, hnil⟩)
  · exact h hactive
  · rcases hfinished with rfl | hfinished
    · exact hnil rfl
    · rw [h] at hfinished
      cases hfinished

/-- Recovery of the file of a run with a strict prefix `t` of the next frame behind it. Unless it
    is refused, it cuts `t` off and returns a writer whose next record is read back behind the old
    ones; if it is refused, the file is unchanged; and under any faults no complete frame is
    removed. The next record only has to respect the size and record limits. -/
theorem recovery_after_crash (hd : d.RoundTrips) {env₀ : Env} (henv₀ : ∀ n, env₀ n = .ok)
    {j₀ : Journal} {disk₀ : Storage}
    (hcreate : createWithLimits d.toDeps env₀ limits ⟨[], 0⟩ = .ok j₀ disk₀)
    (ops : List Operation) :
    let s := (Session.created j₀).run d env₀ limits ops
    let file := s.disk.bytes
    ∃ c : Cursor,
      parseBytes d limits file = .ok ⟨⟨s.returned, c.hash⟩, c.sequence, c.bytes, 0⟩ ∧
      Lifecycle.fromSnapshot ⟨s.returned, c.hash⟩ = .ok c.lifecycle ∧
      ∀ (timestamp : DateTime) (payload : JournalEvent) (t : List UInt8) (calls : ℕ),
        c.HasRoom limits
          (recordBytes d.toDeps (journalRecord d.toDeps c.sequence c.hash timestamp payload)) →
        t <+: frame
          (recordBytes d.toDeps (journalRecord d.toDeps c.sequence c.hash timestamp payload)) →
        t ≠ frame
          (recordBytes d.toDeps (journalRecord d.toDeps c.sequence c.hash timestamp payload)) →
        (c.lifecycle.active = none → (t = [] ∨ c.lifecycle.finished = false) →
          ∀ env : Env, (∀ n, env n = .ok) →
          ∃ j calls', recoverWithLimits d env limits ⟨file ++ t, calls⟩ =
              .ok (j, ⟨t.length⟩) ⟨file, calls'⟩ ∧ j.file = ⟨file, calls'⟩ ∧
            ∀ env' timestamp' payload' r j',
              append d.toDeps env' timestamp' payload' j = .ok r j' →
              readBytes d limits j'.file.bytes = .ok ⟨s.returned ++ [r], r.recordHash⟩) ∧
        (c.lifecycle.active ≠ none ∨ c.lifecycle.finished = true ∧ t ≠ [] →
          ∀ env : Env, ∃ e, recoverWithLimits d env limits ⟨file ++ t, calls⟩ =
            .error e ⟨file ++ t, calls⟩) ∧
        ∀ env : Env,
          (∃ j calls', recoverWithLimits d env limits ⟨file ++ t, calls⟩ =
            .ok (j, ⟨t.length⟩) ⟨file, calls'⟩) ∨
          ∃ e bytes calls', recoverWithLimits d env limits ⟨file ++ t, calls⟩ =
            .error e ⟨bytes, calls'⟩ ∧ (bytes = file ++ t ∨ bytes = file) := by
  intro s
  obtain ⟨hmagic, -, -⟩ := createWithLimits_ok hcreate
  obtain ⟨c, hs⟩ := Session.run_exact hd hmagic henv₀ (Session.created_exact hcreate) ops
  have hparse := parseBytes_journalFile (t := []) hd hmagic hs.run (.inl rfl)
  rw [List.append_nil] at hparse
  simp only [show s.disk.bytes = journalFile d.toDeps s.returned from hs.bytes]
  refine ⟨c, hparse, fromSnapshot_logRun hs.run, ?_⟩
  intro timestamp payload t calls hroom ht hne
  have htorn := tornTail_of_strict_prefix hroom ht hne
  refine ⟨?_, fun hrefused env => recoverWithLimits_rejected hd env hmagic hs.run htorn rfl hrefused,
    ?_⟩
  · intro hactive hfinished env henv
    obtain ⟨calls', hrec⟩ := recoverWithLimits_repaired hd env ⟨_, calls⟩ hmagic hs.run htorn
      rfl (not_recoveryRefused hactive hfinished) ⟨henv _, henv _⟩
    refine ⟨_, calls', hrec, rfl, ?_⟩
    intro env' timestamp' payload' r j' happ
    exact readBytes_after_append hd hmagic hs.run happ
  · intro env
    rcases recoverWithLimits_bytes hd env ⟨_, calls⟩ hmagic hs.run htorn rfl with
      ⟨calls', hrec⟩ | hrec
    · exact .inl ⟨_, calls', hrec⟩
    · exact .inr hrec

theorem recovery_after_crash_approval :
    ∃ j calls', recoverWithLimits referenceJournalDeps (fun _ => .ok) defaultLimits
      ⟨journalMagic ++ (frame (recordBytes referenceDeps approvalRecord)).take 2, 5⟩ =
      .ok (j, ⟨2⟩) ⟨journalMagic, calls'⟩ := by
  obtain ⟨c, hparse, hlife, h⟩ := recovery_after_crash
    referenceJournalDeps_roundTrips (fun _ => rfl)
    (createWithLimits_quiet referenceDeps defaultLimits (by decide)) []
  have hempty := parseBytes_journalFile (t := []) referenceJournalDeps_roundTrips
    (show journalMagic.length ≤ defaultLimits.maxBytes by decide) (logRun_nil _) (.inl rfl)
  rw [List.append_nil] at hempty
  have hstart : c = Cursor.start referenceDeps := by
    have hsame := hempty.symm.trans hparse
    simp only [Except.ok.injEq, ParsedJournal.mk.injEq, JournalSnapshot.mk.injEq] at hsame
    obtain ⟨⟨-, hhash⟩, hsequence, hbytes, -⟩ := hsame
    exact Cursor.ext hhash.symm hsequence.symm hbytes.symm (Except.ok.inj hlife).symm
  subst hstart
  have hshort : (frame (recordBytes referenceDeps approvalRecord)).take 2 ≠
      frame (recordBytes referenceDeps approvalRecord) := by
    intro heq
    have hlen := congrArg List.length heq
    rw [List.length_take, length_frame] at hlen
    omega
  obtain ⟨hrepair, -, -⟩ := h epoch approvalRecord.payload _ 5 approvalRecord_hasRoom
    (List.take_prefix 2 _) hshort
  obtain ⟨j, calls', hrec, -, -⟩ := hrepair rfl (.inr rfl) (fun _ => .ok) (fun _ => rfl)
  refine ⟨j, calls', ?_⟩
  rw [List.length_take, length_frame, Nat.min_eq_left (by omega)] at hrec
  exact hrec

end Recovery

end BaselineOps.Engine
