import Mathlib
import BaselineOps.Journal.Session

/-!
# What an accepted journal guarantees

* `journal_tamper_evident`: without a hash collision among the hashed payloads, the terminal hash
  determines the file.
* `lifecycle_language`: replay, writer and reader enforce one and the same language of events.
-/

namespace BaselineOps.Engine

open BaselineOps.Domain BaselineOps.Lib

variable {d : JournalDeps} {limits : JournalLimits}

/-! ## Tamper evidence -/

/-- The byte strings that are hashed for the records of a journal: the empty string for the start
    of the chain, and the payload of every record. -/
def hashInputs (d : Deps) (records : List JournalRecord) : Set (List UInt8) :=
  insert [] {m | ∃ r ∈ records,
    m = hashPayload d r.sequence r.timestamp r.previousHash r.payload}

/-- Every record of a log carries the hash of its own payload. -/
theorem LogRun.recordHash_eq {d : Deps} {c c' : Cursor} {rs : List JournalRecord}
    (h : LogRun d limits c rs c') :
    ∀ r ∈ rs, r.recordHash = d.sha256 (hashPayload d r.sequence r.timestamp r.previousHash
      r.payload) := by
  induction rs generalizing c with
  | nil => simp
  | cons r rs ih =>
    obtain ⟨m, ⟨hfits, rfl⟩, hrun⟩ := steps_cons_iff.mp h
    intro r' hr'
    rcases List.mem_cons.mp hr' with rfl | hmem
    · rw [hfits.chain.recordHash, hfits.chain.sequence, hfits.chain.previousHash]
    · exact ih hrun r' hmem

/-- Two logs from the start with the same final hash are the same, when no two of the hashed byte
    strings collide. -/
theorem LogRun.eq_of_hash_eq {d : Deps} (hd : d.LawfulText) {as bs : List JournalRecord}
    {c c' : Cursor} (ha : LogRun d limits (Cursor.start d) as c)
    (hb : LogRun d limits (Cursor.start d) bs c') (hhash : c.hash = c'.hash)
    (hfree : Set.InjOn d.sha256 (hashInputs d (as ++ bs))) : as = bs := by
  have hmem : ∀ r ∈ as ++ bs,
      hashPayload d r.sequence r.timestamp r.previousHash r.payload ∈
        hashInputs d (as ++ bs) := fun r hr => .inr ⟨r, hr, rfl⟩
  have hempty : [] ∈ hashInputs d (as ++ bs) := .inl rfl
  -- No payload is empty, so no record hash is the hash at the start.
  have hstart : ∀ r ∈ as ++ bs, r.recordHash = d.sha256 (hashPayload d r.sequence r.timestamp
      r.previousHash r.payload) → r.recordHash ≠ (Cursor.start d).hash := by
    intro r hr hrec heq
    rw [hrec] at heq
    exact canonicalJsonBytes_ne_nil hd _ (hfree (hmem r hr) hempty heq)
  refine Chain.unique _ _ ha.chain.1 hb.chain.1 ?_ ?_ ?_ ?_
  · rw [ha.chain.2, hb.chain.2, hhash]
  · intro a haa b hbb heq
    have hra := ha.recordHash_eq a haa
    have hrb := hb.recordHash_eq b hbb
    have hpay := hfree (hmem a (by simp [haa])) (hmem b (by simp [hbb]))
      (by rw [← hra, ← hrb, heq])
    obtain ⟨h1, h2, h3, h4⟩ := hashPayload_inj hd hpay
    exact JournalRecord.ext h1 h2 h3 h4 heq
  · exact fun a haa => hstart a (by simp [haa]) (ha.recordHash_eq a haa)
  · exact fun b hbb => hstart b (by simp [hbb]) (hb.recordHash_eq b hbb)

/-- A journal that `verify_with_limits` accepts is one that `read_bytes` accepts with the expected
    terminal hash. -/
theorem verifyWithLimits_ok {file : List UInt8} {expected : Sha256Digest}
    {snapshot : JournalSnapshot} (h : verifyWithLimits d limits file expected = .ok snapshot) :
    readBytes d limits file = .ok snapshot ∧ snapshot.terminalHash = expected := by
  obtain ⟨snap, hread, h⟩ := except_bind_ok_iff.mp h
  obtain ⟨parsed, hcomplete, hsnap⟩ := except_bind_ok_iff.mp hread
  obtain ⟨p, hparse, hp⟩ := except_bind_ok_iff.mp hcomplete
  by_cases htrail : p.trailingBytes ≠ 0
  · rw [if_pos htrail] at hp
    cases hp
  · by_cases hterm : snap.terminalHash ≠ expected
    · rw [if_pos hterm] at h
      cases h
    · rw [if_neg htrail] at hp
      rw [if_neg hterm] at h
      cases hp
      cases hsnap
      cases h
      refine ⟨?_, not_not.mp hterm⟩
      rw [readBytes, ← parseJournal_eq_parseBytes, hparse]
      simp only [bind, Except.bind]
      rw [if_neg htrail]
      rfl

/-- Two journals that are accepted with the same terminal hash are equal byte for byte, so that
    verification against the terminal hash of a journal accepts that journal only. The hash is
    assumed to have no collision among the payloads of the two journals. -/
theorem journal_tamper_evident (hd : d.toDeps.LawfulText) :
    (∀ (a b : List UInt8) (sa sb : JournalSnapshot), readBytes d limits a = .ok sa →
      readBytes d limits b = .ok sb → sa.terminalHash = sb.terminalHash →
      Set.InjOn d.sha256 (hashInputs d.toDeps (sa.records ++ sb.records)) → a = b) ∧
    ∀ (a b : List UInt8) (sa sb : JournalSnapshot), readBytes d limits a = .ok sa →
      verifyWithLimits d limits b sa.terminalHash = .ok sb →
      Set.InjOn d.sha256 (hashInputs d.toDeps (sa.records ++ sb.records)) → b = a := by
  have main : ∀ (a b : List UInt8) (sa sb : JournalSnapshot), readBytes d limits a = .ok sa →
      readBytes d limits b = .ok sb → sa.terminalHash = sb.terminalHash →
      Set.InjOn d.sha256 (hashInputs d.toDeps (sa.records ++ sb.records)) → a = b := by
    intro a b sa sb ha hb hterm hfree
    obtain ⟨c, hbytes, hrun, -, hhash⟩ := readBytes_ok ha
    obtain ⟨c', hbytes', hrun', -, hhash'⟩ := readBytes_ok hb
    have hrecords := hrun.eq_of_hash_eq hd hrun' (by rw [← hhash, ← hhash', hterm]) hfree
    rw [hbytes, hbytes', hrecords]
  refine ⟨main, ?_⟩
  intro a b sa sb ha hverify hfree
  obtain ⟨hb, hterm⟩ := verifyWithLimits_ok hverify
  exact (main a b sa sb ha hb hterm.symm hfree).symm

theorem journal_tamper_evident_approval :
    readBytes referenceJournalDeps defaultLimits (journalFile referenceDeps [approvalRecord]) =
      .ok ⟨[approvalRecord], approvalRecord.recordHash⟩ ∧
    journalFile referenceDeps [approvalRecord] = journalFile referenceDeps [approvalRecord] := by
  have hread := readBytes_journalFile (d := referenceJournalDeps) referenceJournalDeps_roundTrips
    (by decide) approvalRecord_logRun
  refine ⟨hread, (journal_tamper_evident (d := referenceJournalDeps) referenceDeps_lawful).1 _ _ _ _
    hread hread rfl ?_⟩
  have hne : referenceDeps.sha256 [] ≠ approvalRecord.recordHash := by decide +kernel
  have hinputs : ∀ m ∈ hashInputs referenceDeps ([approvalRecord] ++ [approvalRecord]),
      m = [] ∨ m = hashPayload referenceDeps approvalRecord.sequence approvalRecord.timestamp
        approvalRecord.previousHash approvalRecord.payload := by
    rintro m (rfl | ⟨r, hr, rfl⟩)
    · exact .inl rfl
    · obtain rfl : r = approvalRecord := by simpa using hr
      exact .inr rfl
  intro x hx y hy hxy
  rcases hinputs x hx with rfl | rfl <;> rcases hinputs y hy with rfl | rfl
  · rfl
  · exact absurd hxy hne
  · exact absurd hxy.symm hne
  · rfl

/-! ## One language for replay, writer and reader -/

/-- Records that continue the chain within the limits, whatever their events. -/
def ChainRun (d : Deps) (limits : JournalLimits) : Cursor → List JournalRecord → Cursor → Prop :=
  Steps fun c r c' => c.Continues d r ∧ c.HasRoom limits (recordBytes d r) ∧ c' = c.next d r

/-- A chain whose events can be replayed is a log. -/
theorem ChainRun.logRun {d : Deps} {c c' : Cursor} {rs : List JournalRecord} {s : Lifecycle}
    (h : ChainRun d limits c rs c')
    (hreplay : c.lifecycle.replay (rs.map JournalRecord.payload) = .ok s) :
    LogRun d limits c rs c' := by
  induction rs generalizing c with
  | nil =>
    rw [ChainRun, steps_nil_iff] at h
    subst h
    exact .nil _
  | cons r rs ih =>
    obtain ⟨m, ⟨hchain, hroom, rfl⟩, hrest⟩ := steps_cons_iff.mp h
    rw [List.map_cons, Lifecycle.replay_cons] at hreplay
    obtain ⟨s', hstep, hreplay⟩ := except_bind_ok_iff.mp hreplay
    obtain ⟨hadm, rfl⟩ := Lifecycle.step_ok_iff.mp hstep
    exact .cons ⟨⟨hchain, hadm, hroom⟩, rfl⟩ (ih hrest hreplay)

theorem ChainRun.length_lt {d : Deps} {c c' : Cursor} {rs : List JournalRecord}
    (h : ChainRun d limits c rs c') : ∀ r ∈ rs, (recordBytes d r).length < 2 ^ 32 := by
  induction rs generalizing c with
  | nil => simp
  | cons r rs ih =>
    obtain ⟨m, ⟨-, hroom, rfl⟩, hrest⟩ := steps_cons_iff.mp h
    intro r' hr'
    rcases List.mem_cons.mp hr' with rfl | hmem
    · exact hroom.length_lt
    · exact ih hrest r' hmem

theorem LogRun.chainRun {d : Deps} {c c' : Cursor} {rs : List JournalRecord}
    (h : LogRun d limits c rs c') : ChainRun d limits c rs c' := by
  induction rs generalizing c with
  | nil =>
    rw [LogRun, steps_nil_iff] at h
    subst h
    exact .nil _
  | cons r rs ih =>
    obtain ⟨m, ⟨hfits, rfl⟩, hrest⟩ := steps_cons_iff.mp h
    exact .cons ⟨hfits.chain, hfits.room, rfl⟩ (ih hrest)

/-- The file determines the records. -/
theorem journalFile_inj (hd : d.RoundTrips) {as bs : List JournalRecord}
    (ha : ∀ r ∈ as, (recordBytes d.toDeps r).length < 2 ^ 32)
    (hb : ∀ r ∈ bs, (recordBytes d.toDeps r).length < 2 ^ 32)
    (h : journalFile d.toDeps as = journalFile d.toDeps bs) : as = bs := by
  have hinj : Function.Injective (recordBytes d.toDeps) := by
    intro r r' hr
    have := hd r
    rw [hr, hd r'] at this
    exact (Option.some.inj this).symm
  have hframes := frames_inj (by simpa using ha) (by simpa using hb) (List.append_cancel_left h)
  exact List.map_injective_iff.mpr hinj hframes

theorem Language.replay {events : List JournalEvent} (h : Language events) :
    ∃ s, Lifecycle.replay {} events = .ok s :=
  replay_ok_iff_language.mpr h

theorem LogRun.language {d : Deps} {c : Cursor} {rs : List JournalRecord}
    (h : LogRun d limits (Cursor.start d) rs c) : Language (rs.map JournalRecord.payload) :=
  replay_ok_iff_language.mp ⟨_, h.replay⟩

/-- Behind a log the lifecycle admits the events that keep its event list in the language. -/
theorem LogRun.admits_iff {d : Deps} {c : Cursor} {rs : List JournalRecord}
    (h : LogRun d limits (Cursor.start d) rs c) (event : JournalEvent) :
    c.lifecycle.Admits event ↔ Language (rs.map JournalRecord.payload ++ [event]) := by
  rw [← replay_ok_iff_language]
  constructor
  · intro hadm
    exact ⟨_, Lifecycle.replay_concat_ok_iff.mpr ⟨_, h.replay, hadm, rfl⟩⟩
  · rintro ⟨s, hs⟩
    obtain ⟨m, hm, hadm, -⟩ := Lifecycle.replay_concat_ok_iff.mp hs
    obtain rfl : c.lifecycle = m := Except.ok.inj (h.replay.symm.trans hm)
    exact hadm

/-- The reader accepts a chain of records when its events are in the language. -/
theorem readBytes_iff_language (hd : d.RoundTrips)
    (hmagic : journalMagic.length ≤ limits.maxBytes) {rs : List JournalRecord} {c : Cursor}
    (h : ChainRun d.toDeps limits (Cursor.start d.toDeps) rs c) :
    (∃ snapshot, readBytes d limits (journalFile d.toDeps rs) = .ok snapshot) ↔
      Language (rs.map JournalRecord.payload) := by
  constructor
  · rintro ⟨snapshot, hread⟩
    obtain ⟨c', hbytes, hrun, -, -⟩ := readBytes_ok hread
    rw [journalFile_inj hd h.length_lt hrun.chainRun.length_lt hbytes]
    exact hrun.language
  · intro hlang
    obtain ⟨s, hs⟩ := hlang.replay
    exact ⟨_, readBytes_journalFile hd hmagic (h.logRun hs)⟩

/-- Without a failed write, an append with room for its record succeeds when its event keeps the
    language, and is refused as a lifecycle error when it does not. -/
theorem append_writerAt_iff {env : Env} {disk : Storage} {rs : List JournalRecord} {c : Cursor}
    (h : LogRun d.toDeps limits (Cursor.start d.toDeps) rs c) (timestamp : DateTime)
    (payload : JournalEvent) (hquiet : QuietWrite env disk.calls)
    (hroom : c.HasRoom limits
      (recordBytes d.toDeps (journalRecord d.toDeps c.sequence c.hash timestamp payload))) :
    (Language (rs.map JournalRecord.payload ++ [payload]) →
      ∃ r j, append d.toDeps env timestamp payload (writerAt limits disk c) = .ok r j) ∧
    (¬ Language (rs.map JournalRecord.payload ++ [payload]) →
      ∃ reason, append d.toDeps env timestamp payload (writerAt limits disk c) =
        .error (.invalidLifecycle reason) (writerAt limits disk c)) := by
  rw [← h.admits_iff]
  constructor
  · intro hadm
    have hok := preflight_ok_iff (j := writerAt limits disk c).mpr ⟨rfl, rfl, rfl, hadm, hroom⟩
    rcases append_cases d.toDeps env timestamp payload (writerAt limits disk c) with
      ⟨e, he, -⟩ | ⟨r, t, n, -, hloud, -⟩ | ⟨r, -, -, happ⟩
    · rw [hok] at he
      cases he
    · exact absurd hquiet hloud
    · exact ⟨_, _, happ⟩
  · intro hnot
    cases hvalid : c.lifecycle.validate payload with
    | ok u => exact absurd (Lifecycle.validate_ok_iff.mp hvalid) hnot
    | error e =>
      obtain ⟨reason, rfl⟩ := Lifecycle.validate_error hvalid
      refine ⟨reason, ?_⟩
      have hadm : (writerAt limits disk c).preflight d.toDeps timestamp payload =
          .error (.invalidLifecycle reason) := by
        rw [preflight_of_room rfl hroom, show (writerAt limits disk c).lifecycle = c.lifecycle from rfl,
          hvalid]
        rfl
      rw [append_eq, hadm]

/-- Replay from the default state accepts the language; `stopped` is never cleared; a usable writer
    of any session, with any faults and any number of reopenings, accepts the events that keep the
    language; and the reader accepts a chain of records when its events are in the language. -/
theorem lifecycle_language (hd : d.RoundTrips) :
    (∀ events, (∃ s, Lifecycle.replay {} events = .ok s) ↔ Language events) ∧
    (∀ events more s s', Lifecycle.replay {} events = .ok s → s.stopped = true →
      s.replay more = .ok s' → s'.stopped = true) ∧
    (∀ (limits : JournalLimits) (env : Env) (j₀ : Journal) (disk₀ : Storage),
      createWithLimits d.toDeps env limits ⟨[], 0⟩ = .ok j₀ disk₀ →
      ∀ (ops : List Operation) (j : Journal),
        ((Session.created j₀).run d env limits ops).writer = some j → j.writeFailed = false →
        ∃ rs, readBytes d limits j.file.bytes = .ok ⟨rs, j.previousHash⟩ ∧
          Language (rs.map JournalRecord.payload) ∧
          ∀ (timestamp : DateTime) (payload : JournalEvent),
            (∀ env' r j', append d.toDeps env' timestamp payload j = .ok r j' →
              Language (rs.map JournalRecord.payload ++ [payload])) ∧
            ∀ env', QuietWrite env' j.file.calls →
              j.cursor.HasRoom limits (recordBytes d.toDeps
                (journalRecord d.toDeps j.nextSequence j.previousHash timestamp payload)) →
              (Language (rs.map JournalRecord.payload ++ [payload]) →
                ∃ r j', append d.toDeps env' timestamp payload j = .ok r j') ∧
              (¬ Language (rs.map JournalRecord.payload ++ [payload]) →
                ∃ reason, append d.toDeps env' timestamp payload j =
                  .error (.invalidLifecycle reason) j)) ∧
    (∀ (limits : JournalLimits) (bytes : List UInt8) (snapshot : JournalSnapshot),
      readBytes d limits bytes = .ok snapshot →
      Language (snapshot.records.map JournalRecord.payload)) ∧
    ∀ (limits : JournalLimits) (rs : List JournalRecord) (c : Cursor),
      journalMagic.length ≤ limits.maxBytes →
      ChainRun d.toDeps limits (Cursor.start d.toDeps) rs c →
      ((∃ snapshot, readBytes d limits (journalFile d.toDeps rs) = .ok snapshot) ↔
        Language (rs.map JournalRecord.payload)) := by
  refine ⟨fun events => replay_ok_iff_language,
    fun events more s s' h hs hmore => replay_stopped h hs hmore, ?_, ?_,
    fun limits rs c hmagic h => readBytes_iff_language hd hmagic h⟩
  · intro limits env j₀ disk₀ hcreate ops j hj hgood
    obtain ⟨hmagic, -, -⟩ := createWithLimits_ok hcreate
    obtain ⟨rs, t, c, hs⟩ := Session.run_durable hd env hmagic
      (Session.created_exact hcreate).durable ops
    obtain ⟨hfile, hbad | ⟨rfl, rfl⟩⟩ := hs.writer j hj
    · rw [hgood] at hbad
      cases hbad
    · refine ⟨rs, ?_, hs.run.language, fun timestamp payload => ⟨?_, ?_⟩⟩
      · rw [hfile, hs.bytes, List.append_nil]
        exact readBytes_journalFile hd hmagic hs.run
      · intro env' r j' happ
        rw [← hs.run.admits_iff]
        rcases append_cases d.toDeps env' timestamp payload (writerAt limits _ c) with
          ⟨e, -, h⟩ | ⟨r', t', n, -, -, h, -, -⟩ | ⟨r', hadm, -, -⟩
        · rw [h] at happ
          cases happ
        · rw [h] at happ
          cases happ
        · obtain ⟨-, rfl, hfits⟩ := preflight_ok_iff.mp hadm
          exact hfits.lifecycle
      · intro env' hquiet hroom
        exact append_writerAt_iff hs.run timestamp payload hquiet hroom
  · intro limits bytes snapshot hread
    obtain ⟨c, -, hrun, -, -⟩ := readBytes_ok hread
    exact hrun.language

theorem lifecycle_language_approval :
    (∃ snapshot, readBytes referenceJournalDeps defaultLimits
      (journalFile referenceDeps [approvalRecord]) = .ok snapshot) ↔
      Language [approvalRecord.payload] :=
  (lifecycle_language referenceJournalDeps_roundTrips).2.2.2.2 defaultLimits [approvalRecord] _
    (by decide) approvalRecord_logRun.chainRun

end BaselineOps.Engine
