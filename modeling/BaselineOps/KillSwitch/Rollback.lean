import Mathlib
import BaselineOps.KillSwitch.Outcome

/-!
# The rollback of a committed activation

A committed activation with a rollback time leaves exactly one task under its name, with the script of
its snapshot. The script does not parse.

* `fits_of_length_le`: the command for a snapshot of at most 2000 bytes is within the limit.
* `rollbackScript_of_committed`: the script of every committed run does not parse.
-/

namespace BaselineOps.KillSwitch

open BaselineOps.Domain BaselineOps.Lib

variable {cf : CaseFold} {env : Environment cf} {s : RunState} {host : Host} {l l₀ : Ledger}

theorem Isolated.rollback (h : Isolated env host l₀ l) :
    l.task = l₀.task ∧ l.rollbackScheduled = l₀.rollbackScheduled := by
  cases h with
  | adapters hl => exact ⟨hl.keeps.task, hl.keeps.rollbackScheduled⟩
  | firewallOnly hl => exact ⟨hl.keeps.task, hl.keeps.rollbackScheduled⟩

theorem Prepared.exists_task (h : Prepared env host l) (hminutes : 0 < env.effective.autoRollbackMinutes) :
    ∃ json, l.task = some json ∧ l.rollbackScheduled = true := by
  cases h with
  | withoutRollback hzero => exact absurd hzero (Nat.pos_iff_ne_zero.mp hminutes)
  | withRollback => exact ⟨_, rfl, rfl⟩

/-- A committed activation keeps its rollback task. -/
theorem Ended.exists_task (h : Ended env host l) (hminutes : 0 < env.effective.autoRollbackMinutes)
    (hcommitted : l.committed = true) : env.Clear host ∧ ∃ json, l.task = some json := by
  have hblank : ∀ {l : Ledger}, l.Blank → l.committed = true → env.Clear host ∧ ∃ json, l.task = some json := by
    intro l hblank hcommitted
    rw [hblank.committed] at hcommitted
    cases hcommitted
  cases h with
  | refused => cases hcommitted
  | activated hactivated =>
    cases hactivated with
    | isolated hclear hprepared hisolated =>
      obtain ⟨json, htask, -⟩ := hprepared.exists_task hminutes
      exact ⟨hclear, json, hisolated.rollback.1.trans htask⟩
    | skipped _ _ hl => exact hblank hl hcommitted
  | unprepared hunprepared =>
    cases hunprepared with
    | blank hl => exact hblank hl hcommitted
    | unannounced => cases hcommitted
  | skipped _ _ hl => exact hblank hl hcommitted
  | undone hclear hprepared hinterrupted hundone =>
    obtain ⟨json, htask, -⟩ := hprepared.exists_task hminutes
    rcases hundone with ⟨-, rfl⟩ | ⟨hnot, -, -, rfl⟩ | ⟨hnot, -, rules, -, rfl⟩
    · exact ⟨hclear, json, hinterrupted.rollback.1.trans htask⟩
    · rw [hnot] at hcommitted
      cases hcommitted
    · exact absurd hcommitted (by simp [Ledger.undone, hnot])

/-- The script of the task of a run that has committed its activation. -/
theorem task_of_committed (hminutes : 0 < env.effective.autoRollbackMinutes)
    (hcommitted : (remediate env host).firewallActivationCommitted = true) :
    ∃ json, (remediate env host).host.tasks = host.tasks ++ [env.rollbackTask json] ∧
      ∀ task ∈ host.tasks, cf.equal task.taskName env.rollbackTaskName = false := by
  obtain ⟨l, hended, active, -, hdescribes⟩ := remediate_ends env host
  have hl : l.committed = true := hdescribes.committed.symm.trans hcommitted
  obtain ⟨hclear, json, htask⟩ := hended.exists_task hminutes hl
  refine ⟨json, ?_, hclear.fresh.task⟩
  have htasks := hdescribes.task
  rwa [show (l.reporting active).task = l.task from rfl, htask] at htasks

/-! ## Length of the command -/

theorem encode_append (first second : List Char) :
    Utf16.encode (first ++ second) = Utf16.encode first ++ Utf16.encode second :=
  List.flatMap_append

theorem length_unicodeBytes (text : List Char) : (unicodeBytes text).length = 2 * (Utf16.encode text).length := by
  unfold unicodeBytes
  induction Utf16.encode text with
  | nil => rfl
  | cons unit units ih =>
    rw [List.flatMap_cons, List.length_append, ih, List.length_cons]
    simp only [List.length_cons, List.length_nil]
    omega

theorem length_encode_pieces {texts : List String} {words : List (List Char)} {n : ℕ} (h : Spelled texts words)
    (hlength : (Utf16.encode words.flatten).length = n) : (Utf16.encode (pieces texts)).length = n := by
  rw [pieces_of_spelled h, hlength]

theorem length_rollbackHead : (Utf16.encode (pieces rollbackHead)).length = 88 := by
  apply length_encode_pieces
  · unfold rollbackHead
    repeat constructor
  · decide +kernel

theorem length_rollbackDecode : (Utf16.encode (pieces rollbackDecode)).length = 345 := by
  apply length_encode_pieces
  · unfold rollbackDecode
    repeat constructor
  · decide +kernel

theorem length_rollbackBody : (Utf16.encode (pieces rollbackBody)).length = 4386 := by
  apply length_encode_pieces
  · unfold rollbackBody
    repeat constructor
  · decide +kernel

theorem length_rollbackTail : (Utf16.encode (pieces rollbackTail)).length = 207 := by
  apply length_encode_pieces
  · unfold rollbackTail
    repeat constructor
  · decide +kernel

/-- A character has at least one unit. -/
theorem length_le_length_encode (text : List Char) : text.length ≤ (Utf16.encode text).length := by
  induction text with
  | nil => exact Nat.le_refl 0
  | cons c text ih =>
    have hchar := List.length_pos_of_ne_nil (Utf16.encodeChar_ne_nil c)
    have hcons : Utf16.encode (c :: text) = Utf16.encodeChar c ++ Utf16.encode text := List.flatMap_cons
    rw [hcons, List.length_append, List.length_cons]
    omega

theorem length_rollbackTaskName : env.rollbackTaskName.toList.length ≤ 161 := by
  have hlimit : (Utf16.encode env.effective.taskName.toList).length ≤ 128 :=
    (acceptsName_iff.mp env.effective.taskName_accepted).2.2.2
  have hchars := length_le_length_encode env.effective.taskName.toList
  have hrun := env.rollbackRunId.length
  rw [toList_rollbackTaskName, List.length_append, List.length_cons]
  omega

/-- The command for a snapshot of at most 2000 bytes is within the limit. -/
theorem fits_of_length_le {json : String} (h : (utf8 json).length ≤ 2000) : env.Fits json := by
  have htask := @length_rollbackTaskName cf env
  have hname := length_encode_le_two_mul env.rollbackTaskName.toList
  have hlog : (Utf16.encode (logFileName cf env.rollbackTaskName)).length ≤ 370 := by
    have hbegin : (pieces ["KillSwitch-Rollback-"]).length = 20 := by decide +kernel
    have hend : (pieces [".log"]).length = 4 := by decide +kernel
    have hfilter := List.length_filter_le (cf.inClass (letters ++ digits)) env.rollbackTaskName.toList
    refine Nat.le_trans (length_encode_le_two_mul _) ?_
    rw [logFileName, List.length_append, List.length_append, hbegin, hend]
    omega
  have hsnapshot : (Utf16.encode (snapshotEncoded json)).length ≤ 5336 := by
    refine Nat.le_trans (length_encode_le_two_mul _) ?_
    rw [snapshotEncoded, Base64.length_encode]
    omega
  have hbegin : "-NoProfile -NonInteractive -ExecutionPolicy Bypass -EncodedCommand ".toList.length = 67 := by
    decide +kernel
  unfold Environment.Fits rollbackArguments
  rw [List.length_append, hbegin, Base64.length_encode, length_unicodeBytes]
  unfold rollbackScript rollbackPs
  simp only [encode_append, List.length_append, length_rollbackHead, length_rollbackDecode, length_rollbackBody,
    length_rollbackTail]
  omega

/-! ## A committed run -/

/-- The case mapping of ASCII. -/
def asciiFold : CaseFold where
  fold c := if 65 ≤ c.toNat ∧ c.toNat ≤ 90 then Char.ofNat (c.toNat + 32) else c
  caseless := by
    intro a c hcase hfold
    have hletter : ¬ (65 ≤ c.toNat ∧ c.toNat ≤ 90) ∧ ¬ (97 ≤ c.toNat ∧ c.toNat ≤ 122) := by
      have halpha : c.isAlpha = false := by
        rw [hasCase, Bool.or_eq_false_iff] at hcase
        exact hcase.1
      simp only [Char.isAlpha, Char.isUpper, Char.isLower, UInt32.le_iff_toNat_le, ge_iff_le, Bool.or_eq_false_iff,
        Bool.and_eq_false_iff, decide_eq_false_iff_not] at halpha
      have hval : c.val.toNat = c.toNat := rfl
      have hupper : 'A'.val.toNat = 65 ∧ 'Z'.val.toNat = 90 := ⟨rfl, rfl⟩
      have hlower : 'a'.val.toNat = 97 ∧ 'z'.val.toNat = 122 := ⟨rfl, rfl⟩
      omega
    simp only [if_neg hletter.1] at hfold
    split_ifs at hfold with hupper
    · have hvalid : (a.toNat + 32).isValidChar := .inl (by omega)
      have hnat : (Char.ofNat (a.toNat + 32)).toNat = a.toNat + 32 := by
        rw [Char.ofNat, dif_pos hvalid]
        rfl
      rw [hfold] at hnat
      omega
    · exact hfold

/-- A codec that knows the text of one snapshot. -/
def oneSnapshotJson (snapshot : Snapshot) (text : String) (h : text ≠ "") : SnapshotJson where
  convertTo other := if other = snapshot then text else ""
  convertFrom other := if other = text then some snapshot else none
  roundTrip := by
    intro written read hread
    split_ifs at hread with hwritten htext hempty
    · exact (Option.some.inj hread).symm.trans hwritten.symm
    · exact absurd hempty.symm h

/-- The text that `ConvertTo-Json` writes for the profiles with one action and the rules of a run. -/
def sampleJson (action rulePrefix run : String) : List String := [
    "\x7b\"Version\":3,\"Profiles\":[\x7b\"Name\":\"Domain\",\"Enabled\":true,\"DefaultInboundAction\":\"",
    action, "\",\"DefaultOutboundAction\":\"", action, "\"\x7d,",
    "\x7b\"Name\":\"Private\",\"Enabled\":true,\"DefaultInboundAction\":\"",
    action, "\",\"DefaultOutboundAction\":\"", action, "\"\x7d,",
    "\x7b\"Name\":\"Public\",\"Enabled\":true,\"DefaultInboundAction\":\"",
    action, "\",\"DefaultOutboundAction\":\"", action, "\"\x7d],\"Adapters\":[],\"ManagedRules\":[",
    "\x7b\"Name\":\"", rulePrefix, "-", run, "-OUT-BLOCK\",\"Direction\":\"Outbound\",\"Action\":\"Block\"\x7d,",
    "\x7b\"Name\":\"", rulePrefix, "-", run, "-IN-BLOCK\",\"Direction\":\"Inbound\",\"Action\":\"Block\"\x7d]\x7d"]

/-- That text in one piece. -/
def sampleText (action rulePrefix run : String) : String := String.ofList (pieces (sampleJson action rulePrefix run))

/-- Its profiles. -/
def sampleProfiles (action : DefaultAction) : List SnapshotProfile :=
  [⟨"Domain", true, action.text, action.text⟩, ⟨"Private", true, action.text, action.text⟩,
    ⟨"Public", true, action.text, action.text⟩]

/-- The snapshot of that text. -/
def sampleSnapshot (action : DefaultAction) (rulePrefix run : String) : Snapshot where
  version := 3
  profiles := sampleProfiles action
  adapters := []
  managedRules := [⟨rulePrefix ++ "-" ++ run ++ outSuffix, .outbound, .block⟩,
    ⟨rulePrefix ++ "-" ++ run ++ inSuffix, .inbound, .block⟩]

theorem sampleText_ne {action rulePrefix run : String} : sampleText action rulePrefix run ≠ "" := by
  intro h
  have hlist := congrArg String.toList h
  rw [sampleText, String.toList_ofList] at hlist
  have hempty : ("\x7b\"Version\":3,\"Profiles\":[\x7b\"Name\":\"Domain\",\"Enabled\":true,\"DefaultInboundAction\":\"" :
      String).toList = [] := (List.append_eq_nil_iff.mp hlist).1
  rw [String.toList_eq_nil_iff] at hempty
  revert hempty
  decide

/-- A run identifier. -/
def sampleRunId (digit : Char) (h : digit ∈ "0123456789abcdef".toList) : RunId where
  text := String.ofList (List.replicate 32 digit)
  length := by rw [String.toList_ofList, List.length_replicate]
  digits := by
    intro c hc
    rw [String.toList_ofList] at hc
    rwa [List.eq_of_mem_replicate hc]

/-- A run with a rollback time on a host whose profiles carry one action, with these names, failing calls
    and changed profiles. Every prompt is accepted. -/
def sampleEnvironment (action : DefaultAction) (rulePrefix taskName : String) (run : RunId)
    (fault : Invocation → Option String) (hrule : acceptsName asciiFold 64 rulePrefix = true)
    (htask : acceptsName asciiFold 128 taskName = true) : Environment asciiFold where
  effective := {
    reason := "Incident/Compromise/Manual KillSwitch"
    user := "HOST\\admin"
    includeUserInRegistry := true
    rulePrefix := rulePrefix
    taskName := taskName
    disableAdapters := false
    breakGlassRemoteAddress := []
    breakGlassLocalPort := 3389
    autoRollbackMinutes := 15
    rulePrefix_accepted := hrule
    taskName_accepted := htask
    minutes_le := by decide }
  rollbackRunId := run
  isAdmin := true
  lockHeld := false
  json := oneSnapshotJson (sampleSnapshot action rulePrefix run.text) (sampleText action.text rulePrefix run.text)
    sampleText_ne
  powerShellPath := "C:\\Windows\\System32\\WindowsPowerShell\\v1.0\\powershell.exe"
  time := "2024-01-01T12:00:00"
  accepts _ := true
  fault := fault
  reached := fun name => name = .domainProfile

/-- A host whose profiles carry one action, without rules of its own. -/
def sampleHost (action : DefaultAction) : Host where
  profiles _ := ⟨some true, action, action⟩
  rules := []
  adapters := [⟨"Ethernet", .up⟩]
  tasks := []
  quarantine := []

section Sample

variable {action : DefaultAction} {rulePrefix taskName : String} {run : RunId}
  {fault : Invocation → Option String} {hrule : acceptsName asciiFold 64 rulePrefix = true}
  {htask : acceptsName asciiFold 128 taskName = true}

theorem snapshotOf_sample (host : Host) (h : host.profiles = fun _ => ⟨some true, action, action⟩) :
    (sampleEnvironment action rulePrefix taskName run fault hrule htask).snapshotOf host =
      .ok (sampleSnapshot action rulePrefix run.text) := by
  unfold Environment.snapshotOf
  rw [h]
  rfl

theorem valid_sample (hrule : acceptsName asciiFold 64 rulePrefix = true)
    (htask : acceptsName asciiFold 128 taskName = true) :
    assertCanonicalFirewallSnapshot asciiFold (sampleSnapshot action rulePrefix run.text) = .ok () := by
  have hrules := assertManagedFirewallRules_managedRules
    (sampleEnvironment action rulePrefix taskName run (fun _ => none) hrule htask)
  have hprofiles : assertSnapshotProfiles asciiFold [] (sampleProfiles action) =
      .ok ["Public", "Private", "Domain"] := by
    cases action <;> decide +kernel
  have hnames : (ProfileName.all.map (·.text)).forM (fun name =>
      failIf (["Public", "Private", "Domain"].any (asciiFold.equal name) = false)
        ("Firewall rollback snapshot is missing profile '" ++ name ++ "'.")) = .ok () := by
    decide +kernel
  simp only [assertCanonicalFirewallSnapshot, sampleSnapshot, hprofiles]
  rw [except_bind_ok_iff]
  refine ⟨(), rfl, ?_⟩
  rw [except_bind_ok_iff]
  refine ⟨(), rfl, ?_⟩
  rw [except_bind_ok_iff]
  refine ⟨_, rfl, ?_⟩
  rw [hnames]
  exact hrules

/-- The sample run captures its snapshot on every host with those profiles. -/
theorem captures_sample (host : Host) (h : host.profiles = fun _ => ⟨some true, action, action⟩) :
    (sampleEnvironment action rulePrefix taskName run fault hrule htask).Captures host
      (sampleSnapshot action rulePrefix run.text) (sampleText action.text rulePrefix run.text) where
  captured := snapshotOf_sample host h
  valid := valid_sample hrule htask
  written := if_pos rfl
  read := if_pos rfl
  shown := by
    rw [sampleText, String.toList_ofList]
    rfl

end Sample

/-! ## Runs without failures -/

/-- A run in which nothing stands against the activation. -/
structure Environment.Smooth (env : Environment cf) (host : Host) : Prop where
  admin : env.isAdmin = true
  clear : env.Clear host
  accepts : ∀ prompt, env.accepts prompt = true
  good : ∀ site, ¬ env.Fails site
  prepares : 0 < env.effective.autoRollbackMinutes → ∃ snapshot json, env.Prepares host snapshot json

/-- What a ledger says about a complete activation. -/
structure Ledger.Complete (env : Environment cf) (l : Ledger) : Prop where
  committed : l.committed = true
  rules : l.rules = [env.inboundRule, env.outboundRule]
  profiles : l.profiles = fun _ => true

theorem Environment.Smooth.makesRules (h : env.Smooth host) : env.MakesRules :=
  ⟨⟨h.accepts _, h.good _, h.good _⟩, ⟨h.accepts _, h.good _, h.good _⟩⟩

theorem Firewalled.complete (h : Firewalled env l₀ l) (hsmooth : env.Smooth host) : l.Complete env := by
  cases h with
  | committed => exact ⟨rfl, rfl, rfl⟩
  | rulesOnly _ _ hprofiles =>
    rw [hsmooth.accepts] at hprofiles
    cases hprofiles
  | declined hrules =>
    rw [hsmooth.accepts] at hrules
    cases hrules

theorem Environment.Smooth.not_interrupted (hsmooth : env.Smooth host) : ¬ Interrupted env host l₀ l := by
  intro h
  cases h with
  | rules _ hfails => exact hfails hsmooth.makesRules
  | profiles _ _ _ hfails => exact hsmooth.good _ hfails
  | listing _ _ _ _ hfails => exact hsmooth.good _ hfails
  | disabling _ _ _ _ hfails => exact hsmooth.good _ hfails
  | report _ hfails => exact hsmooth.good _ hfails

/-- A run in which nothing stands against the activation commits it. -/
theorem Ended.complete (h : Ended env host l) (hsmooth : env.Smooth host) : l.Complete env := by
  have hschedule : env.accepts .scheduleTask ≠ false := by
    rw [hsmooth.accepts]
    exact Bool.true_eq_false.mp
  cases h with
  | refused hadmin =>
    rw [hsmooth.admin] at hadmin
    cases hadmin
  | activated hactivated =>
    cases hactivated with
    | isolated _ _ hisolated =>
      cases hisolated with
      | adapters hl =>
        have hcomplete := hl.complete hsmooth
        exact ⟨hcomplete.committed, hcomplete.rules, hcomplete.profiles⟩
      | firewallOnly hl =>
        have hcomplete := hl.complete hsmooth
        exact ⟨hcomplete.committed, hcomplete.rules, hcomplete.profiles⟩
    | skipped _ hdeclined => exact absurd hdeclined hschedule
  | unprepared hunprepared =>
    cases hunprepared with
    | blank _ hreason =>
      rcases hreason with hblocked | ⟨site, -, hfails⟩ | ⟨hminutes, hnone⟩
      · exact absurd hsmooth.clear hblocked
      · exact absurd hfails (hsmooth.good site)
      · obtain ⟨snapshot, json, hprepares⟩ := hsmooth.prepares hminutes
        exact absurd hprepares (hnone snapshot json)
    | unannounced _ _ _ hfails => exact absurd hfails (hsmooth.good _)
  | skipped _ hdeclined => exact absurd hdeclined hschedule
  | undone _ _ hinterrupted => exact absurd hinterrupted hsmooth.not_interrupted

theorem committed_of_smooth (hsmooth : env.Smooth host) :
    (remediate env host).firewallActivationCommitted = true := by
  obtain ⟨l, hended, active, -, hdescribes⟩ := remediate_ends env host
  exact hdescribes.committed.trans (hended.complete hsmooth).committed

/-! ## The script of a committed run -/

/-- Whatever host and configuration: a committed activation leaves the task of the script for some snapshot,
    no other task under its name, and the script does not parse. -/
theorem rollbackScript_of_committed (env : Environment cf) (host : Host)
    (hminutes : 0 < env.effective.autoRollbackMinutes)
    (hcommitted : (remediate env host).firewallActivationCommitted = true) :
    ∃ json, env.rollbackTask json ∈ (remediate env host).host.tasks ∧
      (∀ task ∈ (remediate env host).host.tasks, cf.equal task.taskName env.rollbackTaskName = true →
        task = env.rollbackTask json) ∧
      PowerShell.wellFormed (rollbackScript cf env.rollbackTaskName json) = false := by
  obtain ⟨json, htasks, hothers⟩ := task_of_committed hminutes hcommitted
  refine ⟨json, ?_, fun task htask hname => ?_, rollbackScript_not_wellFormed env.rollbackTaskName json⟩
  · rw [htasks]
    exact List.mem_append_right _ (List.mem_singleton_self _)
  · rw [htasks, List.mem_append, List.mem_singleton] at htask
    rcases htask with hother | rfl
    · rw [hothers task hother] at hname
      cases hname
    · rfl

/-- The sample run: the names of the defaults, on a host that has not configured its default actions. -/
def defaultRun : Environment asciiFold :=
  sampleEnvironment .notConfigured "KILLSWITCH" "KILLSWITCH-ROLLBACK" (sampleRunId '0' (by decide +kernel))
    (fun _ => none) (by decide +kernel) (by decide +kernel)

theorem length_utf8_pieces {texts : List String} {words : List (List Char)} {n : ℕ} (h : Spelled texts words)
    (hlength : (words.flatten.flatMap String.utf8EncodeChar).length ≤ n) :
    (utf8 (String.ofList (pieces texts))).length ≤ n := by
  rw [utf8, String.toList_ofList, pieces_of_spelled h]
  exact hlength

theorem fits_defaultRun : defaultRun.Fits (sampleText "NotConfigured" "KILLSWITCH" defaultRun.rollbackRunId.text) := by
  apply fits_of_length_le
  unfold sampleText
  apply length_utf8_pieces
  · unfold defaultRun sampleEnvironment sampleRunId sampleJson
    repeat constructor
  · decide +kernel

theorem smooth_defaultRun : defaultRun.Smooth (sampleHost .notConfigured) where
  admin := rfl
  clear := ⟨rfl, rfl, rfl⟩
  accepts _ := rfl
  good _ hfails := hfails rfl
  prepares _ := ⟨_, _, rfl, rfl, captures_sample _ rfl, fits_defaultRun⟩

/-- The task of the default configuration. -/
theorem rollbackScript_of_committed_default :
    ∃ json, defaultRun.rollbackTask json ∈ (remediate defaultRun (sampleHost .notConfigured)).host.tasks ∧
      (∀ task ∈ (remediate defaultRun (sampleHost .notConfigured)).host.tasks,
        asciiFold.equal task.taskName defaultRun.rollbackTaskName = true → task = defaultRun.rollbackTask json) ∧
      PowerShell.wellFormed (rollbackScript asciiFold defaultRun.rollbackTaskName json) = false :=
  rollbackScript_of_committed defaultRun _ (by decide) (committed_of_smooth smooth_defaultRun)

/-- The default configuration with a rollback time commits, and its script does not parse. -/
theorem default_rollback_not_wellFormed :
    0 < defaultRun.effective.autoRollbackMinutes ∧
      (remediate defaultRun (sampleHost .notConfigured)).firewallActivationCommitted = true ∧
      ∃ json, (remediate defaultRun (sampleHost .notConfigured)).host.tasks = [defaultRun.rollbackTask json] ∧
        PowerShell.wellFormed (rollbackScript asciiFold defaultRun.rollbackTaskName json) = false := by
  have hcommitted := committed_of_smooth smooth_defaultRun
  obtain ⟨json, htasks, -⟩ := task_of_committed (by decide) hcommitted
  exact ⟨by decide, hcommitted, json, htasks, rollbackScript_not_wellFormed _ json⟩

end BaselineOps.KillSwitch
