import Mathlib
import BaselineOps.Journal.Recovery

/-!
# Whole runs of a journal

A session is a file, the writer that is open on it, if any, and the records that successful appends
have returned. Its operations are appends, dropping the writer, reopening and recovering.

* `Session.run_exact`: without I/O faults the file holds exactly the returned records.
* `Session.run_durable`: with any faults the file holds a log with at most one torn frame behind
  it, and a usable writer stands at the end of that log.
-/

namespace BaselineOps.Engine

open BaselineOps.Domain BaselineOps.Lib

/-! ## Model -/

/-- A file with the writer that is open on it and the records returned so far. -/
structure Session where
  writer : Option Journal
  disk : Storage
  returned : List JournalRecord

/-- The operations on a session. -/
inductive Operation where
  | append (timestamp : DateTime) (payload : JournalEvent)
  | drop
  | reopen
  | recover

/-- The session behind a successful `create_with_limits`. -/
def Session.created (j : Journal) : Session where
  writer := some j
  disk := j.file
  returned := []

/-- One operation. Reopening and recovering replace the writer; they leave none behind when they
    fail. -/
def Session.step (d : JournalDeps) (env : Env) (limits : JournalLimits) (s : Session) :
    Operation → Session
  | .append timestamp payload =>
    match s.writer with
    | none => s
    | some j =>
      match append d.toDeps env timestamp payload j with
      | .ok r j' => { writer := some j', disk := j'.file, returned := s.returned ++ [r] }
      | .error _ j' => { s with writer := some j', disk := j'.file }
  | .drop => { s with writer := none }
  | .reopen => { s with writer := (openWithLimits d limits s.disk).toOption }
  | .recover =>
    match recoverWithLimits d env limits s.disk with
    | .ok (j, _) disk => { s with writer := some j, disk := disk }
    | .error _ disk => { s with writer := none, disk := disk }

/-- A run of operations. -/
def Session.run (d : JournalDeps) (env : Env) (limits : JournalLimits) (s : Session)
    (ops : List Operation) : Session :=
  ops.foldl (Session.step d env limits) s

variable {d : JournalDeps} {env : Env} {limits : JournalLimits}

/-- `create_with_limits` writes the magic and returns the writer at the start of the log. -/
theorem createWithLimits_ok {j : Journal} {disk : Storage}
    (h : createWithLimits d.toDeps env limits ⟨[], 0⟩ = .ok j disk) :
    journalMagic.length ≤ limits.maxBytes ∧ disk = ⟨journalMagic, 2⟩ ∧
      j = writerAt limits disk (Cursor.start d.toDeps) := by
  simp only [createWithLimits, initializeJournal, run_bind, writeAll, synchronize] at h
  cases hsize : ensureSizeLimit journalMagic.length limits with
  | error e =>
    rw [hsize] at h
    cases h
  | ok u =>
    rw [hsize, run_check_ok] at h
    simp only [Storage.call] at h
    cases h0 : env 0 with
    | fail k =>
      simp only [h0] at h
      cases h
    | ok =>
      cases h1 : env (0 + 1) with
      | fail k =>
        simp only [h0, h1] at h
        cases h
      | ok =>
        simp only [h0, h1, run_get, run_pure] at h
        cases h
        exact ⟨ensureSizeLimit_ok_iff.mp hsize, by simp, rfl⟩

theorem createWithLimits_quiet (d : Deps) (limits : JournalLimits)
    (h : journalMagic.length ≤ limits.maxBytes) :
    createWithLimits d (fun _ => .ok) limits ⟨[], 0⟩ =
      .ok (writerAt limits ⟨journalMagic, 2⟩ (Cursor.start d)) ⟨journalMagic, 2⟩ := by
  simp only [createWithLimits, run_bind, ensureSizeLimit_ok_iff.mpr h, run_check_ok]
  rfl

/-! ## Runs without faults -/

/-- The file holds exactly the returned records, and an open writer stands at their end. -/
structure Session.Exact (d : JournalDeps) (limits : JournalLimits) (s : Session) (c : Cursor) :
    Prop where
  bytes : s.disk.bytes = journalFile d.toDeps s.returned
  run : LogRun d.toDeps limits (Cursor.start d.toDeps) s.returned c
  writer : ∀ j, s.writer = some j → j = writerAt limits s.disk c

theorem Session.created_exact {j : Journal} {disk : Storage}
    (h : createWithLimits d.toDeps env limits ⟨[], 0⟩ = .ok j disk) :
    (Session.created j).Exact d limits (Cursor.start d.toDeps) := by
  obtain ⟨-, rfl, rfl⟩ := createWithLimits_ok h
  refine ⟨by simp [Session.created, writerAt, journalFile], logRun_nil _, ?_⟩
  intro j hj
  cases hj
  rfl

/-- An append keeps the session exact: a rejected one changes nothing, a complete one adds its
    record on both sides. -/
theorem Session.append_exact {s : Session} {c : Cursor} (henv : ∀ n, env n = .ok)
    (h : s.Exact d limits c) (timestamp : DateTime) (payload : JournalEvent) :
    ∃ c', (s.step d env limits (.append timestamp payload)).Exact d limits c' := by
  cases hw : s.writer with
  | none =>
    refine ⟨c, ?_⟩
    simpa only [Session.step, hw] using h
  | some j =>
    obtain rfl := h.writer j hw
    rcases append_cases d.toDeps env timestamp payload (writerAt limits s.disk c) with
      ⟨e, -, happ⟩ | ⟨r, t, calls, -, hloud, -⟩ | ⟨r, hadm, -, happ⟩
    · refine ⟨c, ?_⟩
      simp only [Session.step, hw, happ]
      refine ⟨h.bytes, h.run, ?_⟩
      intro j hj
      cases hj
      rfl
    · exact absurd (fun i _ => henv _) hloud
    · obtain ⟨-, -, hfits⟩ := preflight_ok_iff.mp hadm
      refine ⟨c.next d.toDeps r, ?_⟩
      simp only [Session.step, hw, happ]
      refine ⟨?_, logRun_concat_iff.mpr ⟨c, h.run, hfits, rfl⟩, ?_⟩
      · rw [journalFile_concat, ← h.bytes]
        rfl
      · intro j hj
        cases hj
        rfl

theorem Session.step_exact {s : Session} {c : Cursor} (hd : d.RoundTrips)
    (hmagic : journalMagic.length ≤ limits.maxBytes) (henv : ∀ n, env n = .ok)
    (h : s.Exact d limits c) (op : Operation) :
    ∃ c', (s.step d env limits op).Exact d limits c' := by
  cases op with
  | append timestamp payload => exact Session.append_exact henv h timestamp payload
  | drop => exact ⟨c, h.bytes, h.run, fun j hj => by cases hj⟩
  | reopen =>
    refine ⟨c, h.bytes, h.run, fun j hj => ?_⟩
    simp only [Session.step, openWithLimits_journalFile hd hmagic h.run h.bytes] at hj
    cases hactive : c.lifecycle.active with
    | some action => simp [hactive, Except.toOption] at hj
    | none => simpa [hactive, Except.toOption, Session.step] using hj.symm
  | recover =>
    have hbytes : s.disk.bytes = journalFile d.toDeps s.returned ++ [] := by simpa using h.bytes
    simp only [Session.step]
    rcases recoverWithLimits_bytes hd env s.disk hmagic h.run (.inl rfl) hbytes with
      ⟨calls, hrec⟩ | ⟨e, bytes, calls, hrec, hsame⟩
    · rw [hrec]
      refine ⟨c, rfl, h.run, fun j hj => ?_⟩
      cases hj
      rfl
    · rw [hrec]
      refine ⟨c, ?_, h.run, fun j hj => by cases hj⟩
      rcases hsame with rfl | rfl
      · exact h.bytes
      · rfl

theorem Session.run_exact {s : Session} {c : Cursor} (hd : d.RoundTrips)
    (hmagic : journalMagic.length ≤ limits.maxBytes) (henv : ∀ n, env n = .ok)
    (h : s.Exact d limits c) (ops : List Operation) :
    ∃ c', (s.run d env limits ops).Exact d limits c' := by
  induction ops generalizing s c with
  | nil => exact ⟨c, h⟩
  | cons op ops ih =>
    obtain ⟨c₁, h₁⟩ := Session.step_exact hd hmagic henv h op
    exact ih h₁

/-- What a reader finds after any run without I/O faults is what the writer has returned, and both
    keep the same accounts. -/
theorem session_round_trip (hd : d.RoundTrips) (henv : ∀ n, env n = .ok) {j₀ : Journal}
    {disk₀ : Storage} (hcreate : createWithLimits d.toDeps env limits ⟨[], 0⟩ = .ok j₀ disk₀)
    (ops : List Operation) :
    let s := (Session.created j₀).run d env limits ops
    ∃ parsed, parseBytes d limits s.disk.bytes = .ok parsed ∧ parsed.trailingBytes = 0 ∧
      readBytes d limits s.disk.bytes = .ok parsed.snapshot ∧
      parsed.snapshot.records = s.returned ∧
      parsed.validBytes = s.disk.bytes.length ∧
      (∀ j, s.writer = some j →
        j.file = s.disk ∧
        parsed.snapshot.terminalHash = j.previousHash ∧ parsed.nextSequence = j.nextSequence ∧
        parsed.validBytes = j.currentBytes ∧
        Lifecycle.fromSnapshot parsed.snapshot = .ok j.lifecycle ∧
        s.disk.bytes.length = j.currentBytes) ∧
      s.disk.bytes.length ≤ limits.maxBytes ∧ s.returned.length ≤ limits.maxRecords := by
  intro s
  obtain ⟨hmagic, -, -⟩ := createWithLimits_ok hcreate
  obtain ⟨c, hs⟩ :=
    Session.run_exact hd hmagic henv (Session.created_exact hcreate) ops
  have hparse := parseBytes_journalFile (t := []) hd hmagic hs.run (.inl rfl)
  rw [List.append_nil, ← hs.bytes] at hparse
  have hlen : s.disk.bytes.length = c.bytes := by
    rw [hs.bytes]
    exact hs.run.length_journalFile
  have hwithin := hs.run.within hmagic (Nat.zero_le _)
  have hcount := hs.run.sequence
  refine ⟨_, hparse, rfl, ?_, rfl, hlen.symm, ?_, ?_, ?_⟩
  · rw [hs.bytes]
    exact readBytes_journalFile hd hmagic hs.run
  · intro j hj
    obtain rfl := hs.writer j hj
    exact ⟨rfl, rfl, rfl, rfl, fromSnapshot_logRun hs.run, hlen⟩
  · rw [hlen]
    exact hwithin.1
  · have hzero : (Cursor.start d.toDeps).sequence.toNat = 0 := rfl
    rw [hzero, Nat.zero_add] at hcount
    rw [← hcount]
    exact hwithin.2

theorem session_round_trip_reference :
    let s := (Session.created
        (writerAt defaultLimits ⟨journalMagic, 2⟩ (Cursor.start referenceDeps))).run
      referenceJournalDeps (fun _ => .ok) defaultLimits
      [.append epoch (.planApproved ⟨⟨Vector.replicate 16 7⟩⟩ ⟨Vector.replicate 32 9⟩),
       .append epoch (.actionFinished "other" .succeeded ⟨Vector.replicate 32 9⟩), .drop, .reopen]
    ∃ parsed, parseBytes referenceJournalDeps defaultLimits s.disk.bytes = .ok parsed ∧
      parsed.snapshot.records = s.returned := by
  obtain ⟨parsed, hparse, -, -, hrecords, -⟩ :=
    session_round_trip referenceJournalDeps_roundTrips (fun _ => rfl)
      (createWithLimits_quiet referenceDeps defaultLimits (by decide))
      [.append epoch (.planApproved ⟨⟨Vector.replicate 16 7⟩⟩ ⟨Vector.replicate 32 9⟩),
       .append epoch (.actionFinished "other" .succeeded ⟨Vector.replicate 32 9⟩), .drop, .reopen]
  exact ⟨parsed, hparse, hrecords⟩

/-! ## Runs with faults -/

/-- The file holds a log with at most one torn frame behind it. A writer that has not failed
    stands at the end of the log, with nothing torn. -/
structure Session.Durable (d : JournalDeps) (limits : JournalLimits) (s : Session)
    (rs : List JournalRecord) (t : List UInt8) (c : Cursor) : Prop where
  bytes : s.disk.bytes = journalFile d.toDeps rs ++ t
  run : LogRun d.toDeps limits (Cursor.start d.toDeps) rs c
  torn : TornTail limits c t
  writer : ∀ j, s.writer = some j →
    j.file = s.disk ∧ (j.writeFailed = true ∨ t = [] ∧ j = writerAt limits s.disk c)

theorem Session.Exact.durable {s : Session} {c : Cursor} (h : s.Exact d limits c) :
    s.Durable d limits s.returned [] c := by
  refine ⟨by simpa using h.bytes, h.run, .inl rfl, fun j hj => ?_⟩
  obtain rfl := h.writer j hj
  exact ⟨rfl, .inr ⟨rfl, rfl⟩⟩

/-- The part of a frame that a broken write leaves behind is torn, or the frame is complete and
    its record has become durable after all. -/
theorem broken_frame_cases {c : Cursor} {r : JournalRecord} {t : List UInt8}
    (hfits : c.Fits d.toDeps limits r) (ht : t <+: frame (recordBytes d.toDeps r)) :
    t = frame (recordBytes d.toDeps r) ∨ TornTail limits c t := by
  have hlen := ht.length_le
  rw [length_frame] at hlen
  by_cases hfull : t.length = 4 + (recordBytes d.toDeps r).length
  · left
    exact ht.eq_of_length (by rw [hfull, length_frame])
  · right
    have hsize := hfits.room.size
    exact .inr ⟨_, hfits.room.body_ne, hfits.room.body_le, ht, by omega, by omega⟩

theorem Session.append_durable {s : Session} {rs : List JournalRecord} {t : List UInt8}
    {c : Cursor} (h : s.Durable d limits rs t c) (timestamp : DateTime) (payload : JournalEvent) :
    ∃ rs' t' c', (s.step d env limits (.append timestamp payload)).Durable d limits rs' t' c' := by
  cases hw : s.writer with
  | none =>
    refine ⟨rs, t, c, ?_⟩
    simpa only [Session.step, hw] using h
  | some j =>
    obtain ⟨hfile, hstate⟩ := h.writer j hw
    rcases append_cases d.toDeps env timestamp payload j with
      ⟨e, -, happ⟩ | ⟨r, t', calls, hadm, -, happ, ht', -⟩ | ⟨r, hadm, -, happ⟩
    · -- Rejected: the session is as before.
      refine ⟨rs, t, c, ?_⟩
      simp only [Session.step, hw, happ]
      exact ⟨hfile ▸ h.bytes, h.run, h.torn, fun k hk => by cases hk; exact ⟨rfl, hfile ▸ hstate⟩⟩
    · obtain ⟨hgood, -, hfits⟩ := preflight_ok_iff.mp hadm
      obtain ⟨rfl, rfl⟩ : t = [] ∧ j = writerAt limits s.disk c := by
        rcases hstate with hbad | hstate
        · rw [hgood] at hbad
          cases hbad
        · exact hstate
      simp only [Session.step, hw, happ]
      have hbytes : (writerAt limits s.disk c).file.bytes ++ t' = journalFile d.toDeps rs ++ t' := by
        rw [writerAt, h.bytes, List.append_nil]
      rcases broken_frame_cases hfits ht' with rfl | htorn
      · refine ⟨rs ++ [r], [], c.next d.toDeps r, ?_, logRun_concat_iff.mpr ⟨c, h.run, hfits, rfl⟩,
          .inl rfl, fun k hk => by cases hk; exact ⟨rfl, .inl rfl⟩⟩
        rw [journalFile_concat, List.append_nil, ← hbytes]
      · exact ⟨rs, t', c, hbytes, h.run, htorn, fun k hk => by cases hk; exact ⟨rfl, .inl rfl⟩⟩
    · obtain ⟨hgood, -, hfits⟩ := preflight_ok_iff.mp hadm
      obtain ⟨rfl, rfl⟩ : t = [] ∧ j = writerAt limits s.disk c := by
        rcases hstate with hbad | hstate
        · rw [hgood] at hbad
          cases hbad
        · exact hstate
      simp only [Session.step, hw, happ]
      refine ⟨rs ++ [r], [], c.next d.toDeps r, ?_, logRun_concat_iff.mpr ⟨c, h.run, hfits, rfl⟩,
        .inl rfl, fun k hk => by cases hk; exact ⟨rfl, .inr ⟨rfl, rfl⟩⟩⟩
      rw [journalFile_concat, List.append_nil]
      simp only [Journal.advance, writerAt, h.bytes, List.append_nil]

theorem Session.step_durable {s : Session} {rs : List JournalRecord} {t : List UInt8} {c : Cursor}
    (hd : d.RoundTrips) (hmagic : journalMagic.length ≤ limits.maxBytes)
    (h : s.Durable d limits rs t c) (op : Operation) :
    ∃ rs' t' c', (s.step d env limits op).Durable d limits rs' t' c' := by
  cases op with
  | append timestamp payload => exact Session.append_durable h timestamp payload
  | drop => exact ⟨rs, t, c, h.bytes, h.run, h.torn, fun j hj => by cases hj⟩
  | reopen =>
    refine ⟨rs, t, c, h.bytes, h.run, h.torn, fun j hj => ?_⟩
    by_cases hne : t = []
    · subst hne
      have hbytes : s.disk.bytes = journalFile d.toDeps rs := by simpa using h.bytes
      simp only [Session.step, openWithLimits_journalFile hd hmagic h.run hbytes] at hj
      cases hactive : c.lifecycle.active with
      | some action => simp [hactive, Except.toOption] at hj
      | none =>
        simp only [hactive, Except.toOption, Option.some.injEq] at hj
        subst hj
        exact ⟨rfl, .inr ⟨rfl, rfl⟩⟩
    · simp [Session.step, openWithLimits_torn hd hmagic h.run h.torn hne h.bytes,
        Except.toOption] at hj
  | recover =>
    simp only [Session.step]
    rcases recoverWithLimits_bytes hd env s.disk hmagic h.run h.torn h.bytes with
      ⟨calls, hrec⟩ | ⟨e, bytes, calls, hrec, hsame⟩
    · rw [hrec]
      refine ⟨rs, [], c, by simp, h.run, .inl rfl, fun j hj => ?_⟩
      cases hj
      exact ⟨rfl, .inr ⟨rfl, rfl⟩⟩
    · rw [hrec]
      rcases hsame with rfl | rfl
      · exact ⟨rs, t, c, h.bytes, h.run, h.torn, fun j hj => by cases hj⟩
      · exact ⟨rs, [], c, by simp, h.run, .inl rfl, fun j hj => by cases hj⟩

theorem Session.run_durable {s : Session} {rs : List JournalRecord} {t : List UInt8} {c : Cursor}
    (hd : d.RoundTrips) (env : Env) (hmagic : journalMagic.length ≤ limits.maxBytes)
    (h : s.Durable d limits rs t c) (ops : List Operation) :
    ∃ rs' t' c', (s.run d env limits ops).Durable d limits rs' t' c' := by
  induction ops generalizing s rs t c with
  | nil => exact ⟨rs, t, c, h⟩
  | cons op ops ih =>
    obtain ⟨rs₁, t₁, c₁, h₁⟩ := Session.step_durable hd hmagic h op
    exact ih h₁

end BaselineOps.Engine
