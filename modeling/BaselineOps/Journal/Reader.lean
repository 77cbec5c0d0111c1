import Mathlib
import BaselineOps.Domain.Reference
import BaselineOps.Journal.Writer

/-!
# The journal reader

Model of `baselineops-engine/src/journal/reader.rs` and of the reading half of `journal.rs`. A
reader is the list of bytes that are still to be read; reads do not fail.

* `step_frame`, `step_torn`: one turn of the parse loop on a complete frame and on a torn one.
* `step_cases`: the turns of the loop that do not fail, with nothing left out.
* `parseBytes_journalFile`: the file of a log, with a torn frame behind it, is parsed to that log.
* `parseBytes_ok`: every accepted file is the file of a log, with trailing bytes behind it.
-/

namespace BaselineOps.Engine

open BaselineOps.Domain BaselineOps.Lib

/-! ## Records -/

/-- `Deps` and `serde_json::from_slice::<JournalRecord>`. -/
structure JournalDeps extends Deps where
  recordFromSlice : List UInt8 → Option JournalRecord

/-- `parse_record` (lines 216–223). -/
def parseRecord (d : JournalDeps) (body : List UInt8) : Except JournalError JournalRecord :=
  match d.recordFromSlice body with
  | none => .error .invalidRecord
  | some record => if recordBytes d.toDeps record ≠ body then .error .nonCanonicalRecord
      else .ok record

/-- `validate_record` (`journal.rs`, lines 486–507). -/
def validateRecord (d : Deps) (record : JournalRecord) (sequence : UInt64)
    (previousHash : Sha256Digest) : Except JournalError Unit :=
  if record.sequence ≠ sequence then .error .sequenceMismatch
  else if record.previousHash ≠ previousHash then .error .previousHashMismatch
  else if d.sha256 (hashPayload d record.sequence record.timestamp record.previousHash
      record.payload) ≠ record.recordHash then .error .recordHashMismatch
  else .ok ()

/-! ## The parse state -/

/-- `ParsedJournal` (lines 32–37). -/
structure ParsedJournal where
  snapshot : JournalSnapshot
  nextSequence : UInt64
  validBytes : ℕ
  trailingBytes : ℕ

/-- `ParseState` (lines 75–83). Its `prefix` buffer is filled by `read_prefix` and consumed by the
    `read_frame` that follows; here the four bytes are passed from one to the other. -/
@[ext]
structure ParseState where
  records : List JournalRecord
  previousHash : Sha256Digest
  nextSequence : UInt64
  validBytes : ℕ
  trailingBytes : ℕ
  lifecycle : Lifecycle

namespace ParseState

/-- `ParseState::new` (lines 86–96). -/
def new (d : Deps) : ParseState where
  records := []
  previousHash := d.sha256 []
  nextSequence := 0
  validBytes := journalMagic.length
  trailingBytes := 0
  lifecycle := {}

/-- `finish` (lines 154–164). -/
def finish (st : ParseState) : ParsedJournal where
  snapshot := { records := st.records, terminalHash := st.previousHash }
  nextSequence := st.nextSequence
  validBytes := st.validBytes
  trailingBytes := st.trailingBytes

/-- The four accounts of the reader. -/
def cursor (st : ParseState) : Cursor where
  hash := st.previousHash
  sequence := st.nextSequence
  bytes := st.validBytes
  lifecycle := st.lifecycle

end ParseState

/-- `ensure_observed_size` (lines 197–214). -/
def ensureObservedSize (validBytes observedBytes : ℕ) (limits : JournalLimits) :
    Except JournalError ℕ := do
  if validBytes + observedBytes < 2 ^ 64 then
    ensureSizeLimit (validBytes + observedBytes) limits
    return validBytes + observedBytes
  else throw (.journalSizeLimitExceeded limits.maxBytes)

/-- `frame_length` (lines 188–195). -/
def frameLength (lengthBytes : List UInt8) : Except JournalError ℕ :=
  let length := fromLeBytes lengthBytes
  if length = 0 ∨ length > maxRecordBytes then .error .recordTooLarge else .ok length

namespace ParseState

/-- `read_prefix` (lines 98–113): the four length bytes with the position behind them, unless the
    reader ends before. -/
def readPrefix (st : ParseState) (reader : List UInt8) (limits : JournalLimits) :
    Except JournalError (ParseState × List UInt8 × Option (List UInt8 × ℕ)) := do
  let (got, reader) := takeAvailable 4 reader
  if got.length = 0 then return (st, reader, none)
  let prefixEnd ← ensureObservedSize st.validBytes got.length limits
  if got.length < 4 then return ({ st with trailingBytes := got.length }, reader, none)
  return (st, reader, some (got, prefixEnd))

/-- `read_frame` (lines 115–133): the body of the frame, unless the reader ends before. -/
def readFrame (st : ParseState) (reader lengthBytes : List UInt8) (prefixEnd : ℕ)
    (limits : JournalLimits) :
    Except JournalError (ParseState × List UInt8 × Option (List UInt8)) := do
  let length ← frameLength lengthBytes
  let remaining := limits.maxBytes - prefixEnd
  let maximumRead := min (remaining + 1) (2 ^ 64 - 1)
  let (got, reader) := takeAvailable (min length maximumRead) reader
  let _ ← ensureObservedSize prefixEnd got.length limits
  if got.length < length then
    return ({ st with trailingBytes := 4 + got.length }, reader, none)
  return (st, reader, some got)

/-- `push_record` (lines 140–152). The addition to `valid_bytes` is the one that `read_frame` has
    checked against the byte limit. -/
def pushRecord (d : Deps) (st : ParseState) (record : JournalRecord) (length : ℕ) :
    Except JournalError ParseState := do
  validateRecord d record st.nextSequence st.previousHash
  st.lifecycle.validate record.payload
  let nextSequence ← nextSequenceNumber st.nextSequence
  return { st with
    lifecycle := st.lifecycle.accept record.payload
    validBytes := st.validBytes + (4 + length)
    previousHash := record.recordHash
    records := st.records ++ [record]
    nextSequence := nextSequence }

/-- `accept_frame` (lines 135–138). -/
def acceptFrame (d : JournalDeps) (st : ParseState) (body : List UInt8) (limits : JournalLimits) :
    Except JournalError ParseState := do
  ensureRecordLimit st.nextSequence limits
  st.pushRecord d.toDeps (← parseRecord d body) body.length

/-- One turn of the loop in `parse_records` (lines 66–71): the state afterwards, and the rest of
    the reader unless the loop ends. -/
def step (d : JournalDeps) (limits : JournalLimits) (st : ParseState) (reader : List UInt8) :
    Except JournalError (ParseState × Option (List UInt8)) := do
  match ← st.readPrefix reader limits with
  | (st, _, none) => return (st, none)
  | (st, reader, some (lengthBytes, prefixEnd)) =>
    match ← st.readFrame reader lengthBytes prefixEnd limits with
    | (st, _, none) => return (st, none)
    | (st, reader, some body) => return (← st.acceptFrame d body limits, some reader)

end ParseState

/-! ## Checks of the loop -/

theorem ensureObservedSize_ok_iff {valid observed n : ℕ} {limits : JournalLimits} :
    ensureObservedSize valid observed limits = .ok n ↔
      valid + observed ≤ limits.maxBytes ∧ n = valid + observed := by
  have hmax := limits.maxBytes_lt
  unfold ensureObservedSize
  split
  · simp only [except_bind_ok_iff, Unique.exists_iff, PUnit.default_eq_unit,
      ensureSizeLimit_ok_iff, pure, Except.pure, Except.ok.injEq]
    rw [eq_comm (a := n)]
  · constructor
    · intro h
      cases h
    · rintro ⟨h, -⟩
      omega

theorem frameLength_ok_iff {lengthBytes : List UInt8} {n : ℕ} :
    frameLength lengthBytes = .ok n ↔ n ≠ 0 ∧ n ≤ maxRecordBytes ∧ n = fromLeBytes lengthBytes := by
  unfold frameLength
  rw [except_guard_ok_iff, Except.ok.injEq]
  constructor
  · rintro ⟨h, rfl⟩
    exact ⟨by omega, by omega, rfl⟩
  · rintro ⟨h0, h1, rfl⟩
    exact ⟨by omega, rfl⟩

theorem parseRecord_ok_iff {d : JournalDeps} {body : List UInt8} {r : JournalRecord} :
    parseRecord d body = .ok r ↔ d.recordFromSlice body = some r ∧ recordBytes d.toDeps r = body := by
  unfold parseRecord
  cases d.recordFromSlice body with
  | none => simp
  | some record =>
    simp only [except_guard_ok_iff, Except.ok.injEq, not_not, Option.some.injEq]
    constructor
    · rintro ⟨h, rfl⟩
      exact ⟨rfl, h⟩
    · rintro ⟨rfl, h⟩
      exact ⟨h, rfl⟩

theorem validateRecord_ok_iff {d : Deps} {r : JournalRecord} {c : Cursor} :
    validateRecord d r c.sequence c.hash = .ok () ↔ c.Continues d r := by
  unfold validateRecord
  simp only [except_guard_ok_iff, not_not, and_true]
  constructor
  · rintro ⟨h1, h2, h3⟩
    rw [h1, h2] at h3
    exact JournalRecord.ext h1 rfl h2 rfl h3.symm
  · intro h
    refine ⟨h.sequence, h.previousHash, ?_⟩
    rw [h.sequence, h.previousHash, h.recordHash]

/-! ## One turn of the loop -/

/-- The state behind an accepted record. -/
def ParseState.push (d : Deps) (st : ParseState) (r : JournalRecord) : ParseState where
  records := st.records ++ [r]
  previousHash := r.recordHash
  nextSequence := st.nextSequence + 1
  validBytes := st.validBytes + (4 + (recordBytes d r).length)
  trailingBytes := st.trailingBytes
  lifecycle := st.lifecycle.accept r.payload

@[simp] theorem cursor_push (d : Deps) (st : ParseState) (r : JournalRecord) :
    (st.push d r).cursor = st.cursor.next d r := rfl

/-- A frame is accepted when it is the canonical text of a record that continues the log. -/
theorem acceptFrame_ok_iff {d : JournalDeps} {limits : JournalLimits} {st st' : ParseState}
    {body : List UInt8} :
    st.acceptFrame d body limits = .ok st' ↔
      ∃ r, d.recordFromSlice body = some r ∧ recordBytes d.toDeps r = body ∧
        st.nextSequence.toNat < limits.maxRecords ∧ st.cursor.Continues d.toDeps r ∧
        st.lifecycle.Admits r.payload ∧ st' = st.push d.toDeps r := by
  simp only [ParseState.acceptFrame, ParseState.pushRecord, except_bind_ok_iff, Unique.exists_iff,
    PUnit.default_eq_unit, ensureRecordLimit_ok_iff, parseRecord_ok_iff,
    Lifecycle.validate_ok_iff, pure, Except.pure, Except.ok.injEq]
  constructor
  · rintro ⟨hcount, r, ⟨hparse, rfl⟩, hchain, hlife, n, hn, rfl⟩
    rw [nextSequenceNumber_ok hn]
    exact ⟨r, hparse, rfl, hcount, validateRecord_ok_iff.mp hchain, hlife, rfl⟩
  · rintro ⟨r, hparse, rfl, hcount, hchain, hlife, rfl⟩
    exact ⟨hcount, r, ⟨hparse, rfl⟩, validateRecord_ok_iff.mpr hchain, hlife, _,
      nextSequenceNumber_eq hcount, rfl⟩

namespace ParseState

variable {d : JournalDeps} {limits : JournalLimits}

theorem step_nil (st : ParseState) : st.step d limits [] = .ok (st, none) := rfl

/-- A complete frame is handed to `accept_frame`. -/
theorem step_frame {st : ParseState} {body : List UInt8} (rest : List UInt8) (hne : body ≠ [])
    (hle : body.length ≤ maxRecordBytes)
    (hsize : st.validBytes + (4 + body.length) ≤ limits.maxBytes) :
    st.step d limits (frame body ++ rest) =
      (st.acceptFrame d body limits).map fun st' => (st', some rest) := by
  have hmax := limits.maxBytes_lt
  have hpos : 0 < body.length := List.length_pos_iff.mpr hne
  have hlen : body.length < 2 ^ 32 := lt_of_le_of_lt hle (by decide)
  have hprefix : st.readPrefix (frame body ++ rest) limits =
      .ok (st, body ++ rest, some (toLeBytes 4 body.length, st.validBytes + 4)) := by
    have htake : takeAvailable 4 (frame body ++ rest) =
        (toLeBytes 4 body.length, body ++ rest) := by
      have := takeAvailable_append (toLeBytes 4 body.length) (body ++ rest)
      rwa [length_toLeBytes, ← List.append_assoc] at this
    have hobs : ensureObservedSize st.validBytes 4 limits = .ok (st.validBytes + 4) :=
      ensureObservedSize_ok_iff.mpr ⟨by omega, rfl⟩
    simp [readPrefix, htake, hobs, bind, Except.bind, pure, Except.pure]
  have hframe : st.readFrame (body ++ rest) (toLeBytes 4 body.length) (st.validBytes + 4) limits =
      .ok (st, rest, some body) := by
    have hlength : frameLength (toLeBytes 4 body.length) = .ok body.length :=
      frameLength_ok_iff.mpr ⟨by omega, hle, (fromLeBytes_frame hlen).symm⟩
    have hmin : min body.length (min (limits.maxBytes - (st.validBytes + 4) + 1) (2 ^ 64 - 1)) =
        body.length := by omega
    have hobs : ensureObservedSize (st.validBytes + 4) body.length limits =
        .ok (st.validBytes + 4 + body.length) :=
      ensureObservedSize_ok_iff.mpr ⟨by omega, rfl⟩
    simp only [readFrame, hlength, hmin, takeAvailable_append, hobs, bind, Except.bind, pure,
      Except.pure, lt_irrefl, if_false]
  simp only [step, hprefix, hframe, bind, Except.bind, pure, Except.pure]
  cases st.acceptFrame d body limits <;> rfl

/-- A frame that breaks off ends the loop, wherever it does, and is counted as trailing. -/
theorem step_torn {st : ParseState} {body t : List UInt8} (hne : body ≠ [])
    (hle : body.length ≤ maxRecordBytes) (ht : t <+: frame body) (htne : t ≠ [])
    (hlt : t.length < 4 + body.length) (hsize : st.validBytes + t.length ≤ limits.maxBytes) :
    st.step d limits t = .ok ({ st with trailingBytes := t.length }, none) := by
  have hmax := limits.maxBytes_lt
  have hpos : 0 < body.length := List.length_pos_iff.mpr hne
  have htpos : 0 < t.length := List.length_pos_iff.mpr htne
  have hlen : body.length < 2 ^ 32 := lt_of_le_of_lt hle (by decide)
  rcases torn_cases ht hlt with h4 | ⟨part, rfl, -, hpart⟩
  · -- The cut is inside the length.
    have htake : takeAvailable 4 t = (t, []) := by
      simp only [takeAvailable]
      rw [List.take_of_length_le (by omega), List.drop_eq_nil_of_le (by omega)]
    have hobs : ensureObservedSize st.validBytes t.length limits =
        .ok (st.validBytes + t.length) := ensureObservedSize_ok_iff.mpr ⟨hsize, rfl⟩
    simp [step, readPrefix, htake, hobs, htne, h4, bind, Except.bind, pure, Except.pure]
  · -- The cut is behind the length, inside the body.
    rw [List.length_append, length_toLeBytes] at hsize
    have htake : takeAvailable 4 (toLeBytes 4 body.length ++ part) =
        (toLeBytes 4 body.length, part) := by
      have := takeAvailable_append (toLeBytes 4 body.length) part
      rwa [length_toLeBytes] at this
    have hobs : ensureObservedSize st.validBytes 4 limits = .ok (st.validBytes + 4) :=
      ensureObservedSize_ok_iff.mpr ⟨by omega, rfl⟩
    have hlength : frameLength (toLeBytes 4 body.length) = .ok body.length :=
      frameLength_ok_iff.mpr ⟨by omega, hle, (fromLeBytes_frame hlen).symm⟩
    have hread : takeAvailable
        (min body.length (min (limits.maxBytes - (st.validBytes + 4) + 1) (2 ^ 64 - 1))) part =
        (part, []) := by
      simp only [takeAvailable]
      rw [List.take_of_length_le (by omega), List.drop_eq_nil_of_le (by omega)]
    have hobs' : ensureObservedSize (st.validBytes + 4) part.length limits =
        .ok (st.validBytes + 4 + part.length) := ensureObservedSize_ok_iff.mpr ⟨by omega, rfl⟩
    simp only [step, readPrefix, readFrame, htake, hobs, hlength, hread, hobs', hpart, bind,
      Except.bind, pure, Except.pure, length_toLeBytes, List.length_append, lt_irrefl, if_true,
      if_false, OfNat.ofNat_ne_zero]

theorem readPrefix_ok {st st' : ParseState} {reader rest : List UInt8}
    {out : Option (List UInt8 × ℕ)} (h : st.readPrefix reader limits = .ok (st', rest, out)) :
    (reader = [] ∧ st' = st ∧ out = none) ∨
    (reader ≠ [] ∧ st' = { st with trailingBytes := reader.length } ∧ out = none ∧
      st.validBytes + reader.length ≤ limits.maxBytes) ∨
    ∃ got, st' = st ∧ out = some (got, st.validBytes + 4) ∧ got.length = 4 ∧
      reader = got ++ rest ∧ st.validBytes + 4 ≤ limits.maxBytes := by
  have htake : takeAvailable 4 reader = (reader.take 4, reader.drop 4) := rfl
  simp only [readPrefix, htake] at h
  by_cases hnil : (reader.take 4).length = 0
  · rw [if_pos hnil] at h
    left
    rw [List.length_take] at hnil
    have : reader = [] := List.length_eq_zero_iff.mp (by omega)
    cases h
    exact ⟨this, rfl, rfl⟩
  · rw [if_neg hnil] at h
    right
    rw [List.length_take] at hnil
    obtain ⟨n, hobs, h⟩ := except_bind_ok_iff.mp h
    obtain ⟨hsize, rfl⟩ := ensureObservedSize_ok_iff.mp hobs
    rw [List.length_take] at hsize
    by_cases hshort : (reader.take 4).length < 4
    · rw [if_pos hshort] at h
      rw [List.length_take] at hshort
      left
      cases h
      have hmin : min 4 reader.length = reader.length := by omega
      refine ⟨fun hreader => hnil (by simp [hreader]), ?_, rfl, by omega⟩
      rw [List.length_take, hmin]
    · rw [if_neg hshort] at h
      rw [List.length_take] at hshort
      right
      cases h
      have hfour : (reader.take 4).length = 4 := by rw [List.length_take]; omega
      exact ⟨reader.take 4, rfl, by rw [hfour], hfour, (List.take_append_drop 4 reader).symm,
        by omega⟩

theorem readFrame_ok {st st' : ParseState} {reader rest lengthBytes : List UInt8} {prefixEnd : ℕ}
    {out : Option (List UInt8)} (hend : prefixEnd ≤ limits.maxBytes) (h4 : 4 ≤ prefixEnd)
    (h : st.readFrame reader lengthBytes prefixEnd limits = .ok (st', rest, out)) :
    (st' = { st with trailingBytes := 4 + reader.length } ∧ out = none ∧
      prefixEnd + reader.length ≤ limits.maxBytes) ∨
    ∃ body, st' = st ∧ out = some body ∧ reader = body ++ rest ∧ body ≠ [] ∧
      body.length = fromLeBytes lengthBytes ∧ body.length ≤ maxRecordBytes ∧
      prefixEnd + body.length ≤ limits.maxBytes := by
  have hmax := limits.maxBytes_lt
  obtain ⟨length, hlength, h⟩ := except_bind_ok_iff.mp h
  obtain ⟨hne, hle, hlength⟩ := frameLength_ok_iff.mp hlength
  have htake : ∀ n, takeAvailable n reader = (reader.take n, reader.drop n) := fun _ => rfl
  simp only [htake] at h
  obtain ⟨n, hobs, h⟩ := except_bind_ok_iff.mp h
  obtain ⟨hsize, rfl⟩ := ensureObservedSize_ok_iff.mp hobs
  rw [List.length_take] at hsize
  by_cases hshort : (reader.take
      (min length (min (limits.maxBytes - prefixEnd + 1) (2 ^ 64 - 1)))).length < length
  · -- The read is short because the reader is: a read cut at the limit has failed above.
    rw [if_pos hshort] at h
    rw [List.length_take] at hshort
    left
    cases h
    have hall : min (min length (min (limits.maxBytes - prefixEnd + 1) (2 ^ 64 - 1)))
        reader.length = reader.length := by omega
    refine ⟨?_, rfl, by omega⟩
    rw [List.length_take, hall]
  · rw [if_neg hshort] at h
    rw [List.length_take] at hshort
    right
    cases h
    have hmin : min length (min (limits.maxBytes - prefixEnd + 1) (2 ^ 64 - 1)) = length := by
      omega
    rw [hmin]
    have hbody : (reader.take length).length = length := by rw [List.length_take]; omega
    refine ⟨reader.take length, rfl, rfl, (List.take_append_drop length reader).symm, ?_,
      by rw [hbody]; exact hlength, by rw [hbody]; exact hle, by rw [hbody]; omega⟩
    intro hnil
    rw [hnil, List.length_nil] at hbody
    omega

/-- The turns that do not fail: nothing left to read, a torn frame, or a complete frame that is
    accepted. -/
theorem step_cases {st st' : ParseState} {reader : List UInt8} {next : Option (List UInt8)}
    (h : st.step d limits reader = .ok (st', next)) :
    (reader = [] ∧ st' = st ∧ next = none) ∨
    (reader ≠ [] ∧ st' = { st with trailingBytes := reader.length } ∧ next = none ∧
      st.validBytes + reader.length ≤ limits.maxBytes) ∨
    ∃ body rest, reader = frame body ++ rest ∧ next = some rest ∧ body ≠ [] ∧
      body.length ≤ maxRecordBytes ∧ st.validBytes + (4 + body.length) ≤ limits.maxBytes ∧
      st.acceptFrame d body limits = .ok st' := by
  obtain ⟨⟨st₁, rest₁, out₁⟩, hprefix, h⟩ := except_bind_ok_iff.mp h
  rcases readPrefix_ok hprefix with ⟨hreader, rfl, rfl⟩ | ⟨hreader, rfl, rfl, hsize⟩ |
    ⟨got, rfl, rfl, hgot, hreader, hsize⟩
  · cases h
    exact .inl ⟨hreader, rfl, rfl⟩
  · cases h
    exact .inr (.inl ⟨hreader, rfl, rfl, hsize⟩)
  · right
    obtain ⟨⟨st₂, rest₂, out₂⟩, hframe, h⟩ := except_bind_ok_iff.mp h
    rcases readFrame_ok hsize (by omega) hframe with ⟨rfl, rfl, hsize₂⟩ |
      ⟨body, rfl, rfl, hrest, hne, hlength, hle, hsize₂⟩
    · left
      cases h
      have hlen : reader.length = 4 + rest₁.length := by rw [hreader, List.length_append, hgot]
      refine ⟨fun hnil => ?_, by rw [hlen], rfl, by omega⟩
      rw [hnil, List.length_nil] at hlen
      omega
    · right
      obtain ⟨st₃, haccept, h⟩ := except_bind_ok_iff.mp h
      cases h
      have hgot' : got = toLeBytes 4 body.length := by
        rw [hlength, ← hgot, toLeBytes_fromLeBytes]
      refine ⟨body, rest₂, ?_, rfl, hne, hle, by omega, haccept⟩
      rw [hreader, hrest, hgot', frame, List.append_assoc]

theorem step_lt {st st' : ParseState} {reader rest : List UInt8}
    (h : st.step d limits reader = .ok (st', some rest)) : rest.length < reader.length := by
  rcases step_cases h with ⟨-, -, hnone⟩ | ⟨-, -, hnone, -⟩ | ⟨body, rest', rfl, hsome, -, -, -, -⟩
  · cases hnone
  · cases hnone
  · cases hsome
    rw [List.length_append, length_frame]
    omega

end ParseState

/-! ## The loop -/

/-- `parse_records` (lines 60–73), from the state that its loop has reached. -/
def parseRecords (d : JournalDeps) (limits : JournalLimits) (st : ParseState)
    (reader : List UInt8) : Except JournalError ParsedJournal :=
  match _h : st.step d limits reader with
  | .error e => .error e
  | .ok (st', none) => .ok st'.finish
  | .ok (st', some rest) => parseRecords d limits st' rest
termination_by reader.length
decreasing_by exact ParseState.step_lt _h

/-- `read_magic` (lines 167–173): the rest of the reader. -/
def readMagic (reader : List UInt8) : Except JournalError (List UInt8) :=
  let (got, reader) := takeAvailable journalMagic.length reader
  if got.length ≠ journalMagic.length ∨ got ≠ journalMagic then .error .badMagic else .ok reader

/-- `parse_bytes` (lines 50–58). -/
def parseBytes (d : JournalDeps) (limits : JournalLimits) (bytes : List UInt8) :
    Except JournalError ParsedJournal := do
  ensureSizeLimit bytes.length limits
  let reader ← readMagic bytes
  parseRecords d limits (ParseState.new d.toDeps) reader

/-- `parse_journal` (lines 39–48) on the bytes of the file at the path. -/
def parseJournal (d : JournalDeps) (limits : JournalLimits) (file : List UInt8) :
    Except JournalError ParsedJournal := do
  ensureSizeLimit file.length limits
  let reader ← readMagic file
  parseRecords d limits (ParseState.new d.toDeps) reader

/-- `read_bytes` (lines 20–29). -/
def readBytes (d : JournalDeps) (limits : JournalLimits) (bytes : List UInt8) :
    Except JournalError JournalSnapshot := do
  let parsed ← parseBytes d limits bytes
  if parsed.trailingBytes ≠ 0 then throw .incompleteFrame
  return parsed.snapshot

/-- `complete_parse` (`journal.rs`, lines 381–390). -/
def completeParse (d : JournalDeps) (limits : JournalLimits) (file : List UInt8) :
    Except JournalError ParsedJournal := do
  let parsed ← parseJournal d limits file
  if parsed.trailingBytes ≠ 0 then throw .incompleteFrame
  return parsed

/-- `read_with_limits` (`journal.rs`, lines 257–262). -/
def readWithLimits (d : JournalDeps) (limits : JournalLimits) (file : List UInt8) :
    Except JournalError JournalSnapshot := do
  return (← completeParse d limits file).snapshot

/-- `verify_with_limits` (`journal.rs`, lines 280–290). -/
def verifyWithLimits (d : JournalDeps) (limits : JournalLimits) (file : List UInt8)
    (expectedTerminalHash : Sha256Digest) : Except JournalError JournalSnapshot := do
  let snapshot ← readWithLimits d limits file
  if snapshot.terminalHash ≠ expectedTerminalHash then throw .terminalHashMismatch
  return snapshot

/-! ## Reading what was written -/

/-- The record codec round-trips: `from_slice` reads canonical text back. -/
def JournalDeps.RoundTrips (d : JournalDeps) : Prop :=
  ∀ r, d.recordFromSlice (recordBytes d.toDeps r) = some r

/-- `t` is what is left behind `c` of a frame whose write broke off, within the byte limit. -/
def TornTail (limits : JournalLimits) (c : Cursor) (t : List UInt8) : Prop :=
  t = [] ∨ ∃ body, body ≠ [] ∧ body.length ≤ maxRecordBytes ∧ t <+: frame body ∧
    t.length < 4 + body.length ∧ c.bytes + t.length ≤ limits.maxBytes

variable {d : JournalDeps} {limits : JournalLimits}

theorem parseRecords_eq (d : JournalDeps) (limits : JournalLimits) (st : ParseState)
    (reader : List UInt8) :
    parseRecords d limits st reader =
      match st.step d limits reader with
      | .error e => .error e
      | .ok (st', none) => .ok st'.finish
      | .ok (st', some rest) => parseRecords d limits st' rest := by
  rw [parseRecords]
  split <;> rename_i heq <;> rw [heq]

theorem parseRecords_more {st st' : ParseState} {reader rest : List UInt8}
    (h : st.step d limits reader = .ok (st', some rest)) :
    parseRecords d limits st reader = parseRecords d limits st' rest := by
  rw [parseRecords_eq, h]

theorem parseRecords_done {st st' : ParseState} {reader : List UInt8}
    (h : st.step d limits reader = .ok (st', none)) :
    parseRecords d limits st reader = .ok st'.finish := by
  rw [parseRecords_eq, h]

/-- The loop takes the frames of a log one after the other. -/
theorem parseRecords_logRun (hd : d.RoundTrips) (st : ParseState) {rs : List JournalRecord}
    {c : Cursor} (h : LogRun d.toDeps limits st.cursor rs c) :
    ∃ st', st'.cursor = c ∧ st'.records = st.records ++ rs ∧
      st'.trailingBytes = st.trailingBytes ∧
      ∀ rest, parseRecords d limits st (recordFrames d.toDeps rs ++ rest) =
        parseRecords d limits st' rest := by
  induction rs generalizing st with
  | nil =>
    refine ⟨st, ?_, by simp, rfl, by simp⟩
    exact (steps_nil_iff.mp h).symm
  | cons r rs ih =>
    obtain ⟨m, ⟨hfits, rfl⟩, hrun⟩ := steps_cons_iff.mp h
    have haccept : st.acceptFrame d (recordBytes d.toDeps r) limits = .ok (st.push d.toDeps r) :=
      acceptFrame_ok_iff.mpr ⟨r, hd r, rfl, hfits.room.count, hfits.chain, hfits.lifecycle, rfl⟩
    obtain ⟨st', hcursor, hrecords, htrail, hparse⟩ := ih (st.push d.toDeps r) hrun
    refine ⟨st', hcursor, ?_, htrail, ?_⟩
    · rw [hrecords]
      simp [ParseState.push]
    · intro rest
      rw [recordFrames_cons, List.append_assoc, ← hparse rest]
      apply parseRecords_more
      rw [ParseState.step_frame _ hfits.room.body_ne hfits.room.body_le hfits.room.size, haccept]
      rfl

theorem parseRecords_torn {st : ParseState} {t : List UInt8} (htrail : st.trailingBytes = 0)
    (ht : TornTail limits st.cursor t) :
    parseRecords d limits st t = .ok { st with trailingBytes := t.length }.finish := by
  have hnil : parseRecords d limits st [] = .ok { st with trailingBytes := 0 }.finish := by
    rw [parseRecords_done (ParseState.step_nil st), ← htrail]
  rcases ht with rfl | ⟨body, hne, hle, hpre, hlt, hsize⟩
  · exact hnil
  · by_cases htne : t = []
    · subst htne
      exact hnil
    · exact parseRecords_done (ParseState.step_torn hne hle hpre htne hlt hsize)

theorem readMagic_append (reader : List UInt8) :
    readMagic (journalMagic ++ reader) = .ok reader := by
  simp [readMagic, takeAvailable_append]

/-- The file of a log, with a torn frame behind it, is parsed to that log. -/
theorem parseBytes_journalFile (hd : d.RoundTrips) {rs : List JournalRecord} {c : Cursor}
    {t : List UInt8} (hmagic : journalMagic.length ≤ limits.maxBytes)
    (h : LogRun d.toDeps limits (Cursor.start d.toDeps) rs c) (ht : TornTail limits c t) :
    parseBytes d limits (journalFile d.toDeps rs ++ t) =
      .ok ⟨⟨rs, c.hash⟩, c.sequence, c.bytes, t.length⟩ := by
  have hlen := h.length_journalFile
  have hwithin := (h.within hmagic (Nat.zero_le _)).1
  have hsize : (journalFile d.toDeps rs ++ t).length ≤ limits.maxBytes := by
    rw [List.length_append, hlen]
    rcases ht with rfl | ⟨-, -, -, -, -, hsize⟩
    · simpa using hwithin
    · exact hsize
  obtain ⟨st, rfl, hrecords, htrail, hparse⟩ :=
    parseRecords_logRun hd (ParseState.new d.toDeps) h
  rw [parseBytes, ensureSizeLimit_ok_iff.mpr hsize, journalFile, List.append_assoc]
  simp only [bind, Except.bind, readMagic_append, hparse, parseRecords_torn htrail ht]
  simp [ParseState.finish, hrecords, ParseState.new, ParseState.cursor]

/-! ## What is accepted -/

/-- Everything the loop accepts is a log, with trailing bytes behind it. -/
theorem parseRecords_ok {st : ParseState} {reader : List UInt8} {p : ParsedJournal}
    (htrail : st.trailingBytes = 0) (h : parseRecords d limits st reader = .ok p) :
    ∃ (rs : List JournalRecord) (t : List UInt8) (st' : ParseState),
      reader = recordFrames d.toDeps rs ++ t ∧
      LogRun d.toDeps limits st.cursor rs st'.cursor ∧ st'.records = st.records ++ rs ∧
      p = { st' with trailingBytes := t.length }.finish := by
  induction hn : reader.length using Nat.strongRecOn generalizing st reader with
  | ind n ih =>
    cases hstep : st.step d limits reader with
    | error e =>
      rw [parseRecords_eq, hstep] at h
      cases h
    | ok out =>
      obtain ⟨st₁, next⟩ := out
      rcases ParseState.step_cases hstep with ⟨rfl, rfl, rfl⟩ | ⟨hne, rfl, rfl, hsize⟩ |
        ⟨body, rest, rfl, rfl, hne, hle, hsize, haccept⟩
      · -- The end of the reader.
        rw [parseRecords_done hstep] at h
        refine ⟨[], [], st₁, rfl, .nil _, by simp, ?_⟩
        cases h
        cases st₁
        simp only at htrail
        simp [ParseState.finish, htrail]
      · -- A torn frame.
        rw [parseRecords_done hstep] at h
        cases h
        exact ⟨[], reader, st, rfl, .nil _, by simp, rfl⟩
      · -- A complete frame, then the rest.
        rw [parseRecords_more hstep] at h
        obtain ⟨r, -, rfl, hcount, hchain, hlife, rfl⟩ := acceptFrame_ok_iff.mp haccept
        have hlt : rest.length < n := by
          rw [← hn, List.length_append, length_frame]
          omega
        obtain ⟨rs, t, st', hrest, hrun, hrecords, hp⟩ :=
          @ih rest.length hlt (st.push d.toDeps r) rest htrail h rfl
        refine ⟨r :: rs, t, st', ?_, ?_, ?_, hp⟩
        · rw [hrest, recordFrames_cons, List.append_assoc]
        · exact .cons ⟨⟨hchain, hlife, hcount, hne, hle, hsize⟩, rfl⟩ hrun
        · rw [hrecords]
          simp [ParseState.push]

theorem readMagic_ok {reader rest : List UInt8} (h : readMagic reader = .ok rest) :
    reader = journalMagic ++ rest := by
  have htake : takeAvailable journalMagic.length reader =
    (reader.take journalMagic.length, reader.drop journalMagic.length) := rfl
  simp only [readMagic, htake, except_guard_ok_iff, Except.ok.injEq, not_or, not_not] at h
  obtain ⟨⟨-, hgot⟩, rfl⟩ := h
  conv_lhs => rw [← List.take_append_drop journalMagic.length reader, hgot]

/-- Every accepted file is the file of a log, with trailing bytes behind it. -/
theorem parseBytes_ok {bytes : List UInt8} {p : ParsedJournal}
    (h : parseBytes d limits bytes = .ok p) :
    ∃ rs t c, bytes = journalFile d.toDeps rs ++ t ∧
      LogRun d.toDeps limits (Cursor.start d.toDeps) rs c ∧ bytes.length ≤ limits.maxBytes ∧
      p = ⟨⟨rs, c.hash⟩, c.sequence, c.bytes, t.length⟩ := by
  simp only [parseBytes, except_bind_ok_iff, Unique.exists_iff, PUnit.default_eq_unit,
    ensureSizeLimit_ok_iff] at h
  obtain ⟨hsize, reader, hmagic, hparse⟩ := h
  obtain ⟨rs, t, st, hreader, hrun, hrecords, rfl⟩ := parseRecords_ok rfl hparse
  refine ⟨rs, t, st.cursor, ?_, hrun, hsize, ?_⟩
  · rw [readMagic_ok hmagic, hreader, journalFile, List.append_assoc]
  · simp [ParseState.finish, hrecords, ParseState.new, ParseState.cursor]

/-- The bytes that `read_bytes` accepts are the file of a log, and nothing else. -/
theorem readBytes_ok {bytes : List UInt8} {snapshot : JournalSnapshot}
    (h : readBytes d limits bytes = .ok snapshot) :
    ∃ c, bytes = journalFile d.toDeps snapshot.records ∧
      LogRun d.toDeps limits (Cursor.start d.toDeps) snapshot.records c ∧
      bytes.length ≤ limits.maxBytes ∧ snapshot.terminalHash = c.hash := by
  obtain ⟨p, hparse, h⟩ := except_bind_ok_iff.mp h
  obtain ⟨rs, t, c, hbytes, hrun, hsize, rfl⟩ := parseBytes_ok hparse
  cases t with
  | nil =>
    cases h
    exact ⟨c, by simpa using hbytes, hrun, hsize, rfl⟩
  | cons b t => cases h

theorem readBytes_journalFile (hd : d.RoundTrips) {rs : List JournalRecord} {c : Cursor}
    (hmagic : journalMagic.length ≤ limits.maxBytes)
    (h : LogRun d.toDeps limits (Cursor.start d.toDeps) rs c) :
    readBytes d limits (journalFile d.toDeps rs) = .ok ⟨rs, c.hash⟩ := by
  have hparse := parseBytes_journalFile (t := []) hd hmagic h (.inl rfl)
  rw [List.append_nil] at hparse
  rw [readBytes, hparse]
  rfl

/-! ## Reference instance -/

open Classical in
/-- `referenceDeps` with a record parser that reads canonical texts, and no others. -/
noncomputable def referenceJournalDeps : JournalDeps where
  toDeps := referenceDeps
  recordFromSlice bytes :=
    if h : ∃ r, recordBytes referenceDeps r = bytes then some h.choose else none

theorem referenceJournalDeps_roundTrips : referenceJournalDeps.RoundTrips := by
  intro r
  have h : ∃ r', recordBytes referenceDeps r' = recordBytes referenceDeps r := ⟨r, rfl⟩
  have hr : h.choose = r := recordBytes_inj referenceDeps_lawful h.choose_spec
  simp only [referenceJournalDeps]
  rw [dif_pos h, hr]

/-- The first record of a journal, an approval. -/
def approvalRecord : JournalRecord :=
  journalRecord referenceDeps 0 (referenceDeps.sha256 []) epoch
    (.planApproved ⟨⟨Vector.replicate 16 7⟩⟩ ⟨Vector.replicate 32 9⟩)

theorem approvalRecord_length : (recordBytes referenceDeps approvalRecord).length ≤ 2400 :=
  length_recordBytes_le (by decide) (weight_planApproved _ _ _)

theorem approvalRecord_hasRoom : (Cursor.start referenceDeps).HasRoom defaultLimits
    (recordBytes referenceDeps approvalRecord) := by
  have hlen := approvalRecord_length
  refine ⟨by decide, recordBytes_ne_nil referenceDeps_lawful _, hlen.trans (by decide), ?_⟩
  have hbytes : (Cursor.start referenceDeps).bytes = 23 := by decide
  have hmax : defaultLimits.maxBytes = 67108864 := rfl
  omega

theorem approvalRecord_logRun :
    LogRun referenceDeps defaultLimits (Cursor.start referenceDeps) [approvalRecord]
      ((Cursor.start referenceDeps).next referenceDeps approvalRecord) :=
  .cons ⟨⟨rfl, ⟨rfl, rfl⟩, approvalRecord_hasRoom⟩, rfl⟩ (.nil _)

end BaselineOps.Engine
