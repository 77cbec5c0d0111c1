import Mathlib
import BaselineOps.KillSwitch.Host
import BaselineOps.Lib.Regex

/-!
# Snapshots and managed rules

The checks of rule identities and snapshots, the capture of the state before the activation, the
inventory of earlier activations, and the creation and removal of the rules
(`21-EmergencyKillSwitch.helpers.ps1`, lines 342–402, and `…runtime.ps1`, lines 9–196).

* `assertManagedFirewallRules_inRule`, `assertManagedFirewallRules_created`: the rules of a run pass the check before their removal.
* `matches_managedRulePattern`, `matches_rollbackTaskPattern`: the inventory finds the rules and the task of a run with the same prefix or task name.
-/

namespace BaselineOps.KillSwitch

open BaselineOps.Domain BaselineOps.Lib

variable {cf : CaseFold} (env : Environment cf)

/-! ## Rule identities -/

/-- `$RuleInName`, `$RuleOutName` and `$RuleBgName` end in these texts. -/
def inSuffix : String := "-IN-BLOCK"

/-- The suffix of `$RuleOutName`. -/
def outSuffix : String := "-OUT-BLOCK"

/-- The suffix of `$RuleBgName`. -/
def breakGlassSuffix : String := "-BREAKGLASS-IN-ALLOW"

/-- The name of a rule of this run. -/
def Environment.ruleName (suffix : String) : String :=
  env.effective.rulePrefix ++ "-" ++ env.rollbackRunId.text ++ suffix

/-- `$rollbackTaskName`. -/
def Environment.rollbackTaskName : String := env.effective.taskName ++ "-" ++ env.rollbackRunId.text

/-- `Test-KillSwitchBreakGlassRequested`. -/
def Environment.breakGlassRequested : Bool := env.effective.breakGlassRemoteAddress ≠ []

/-- The first entry of `$ManagedRules`. -/
def Environment.outRule : ManagedRule := ⟨env.ruleName outSuffix, .outbound, .block⟩

/-- The second entry of `$ManagedRules`. -/
def Environment.inRule : ManagedRule :=
  if env.breakGlassRequested then ⟨env.ruleName breakGlassSuffix, .inbound, .allow⟩
  else ⟨env.ruleName inSuffix, .inbound, .block⟩

/-- `$ManagedRules`. -/
def Environment.managedRules : List ManagedRule := [env.outRule, env.inRule]

/-- `Assert-ManagedFirewallRulesSection02`: the names behind those that were seen. -/
def assertRuleIdentities (cf : CaseFold) (seen : List String) : List ManagedRule → Except String Unit
  | [] => .ok ()
  | rule :: rules => do
    failIf (matchesName cf rule.name = false ∨ 256 < utf16Length rule.name ∨ seen.any (cf.equal rule.name) = true)
      "Managed rule identity has an invalid or duplicate name."
    assertRuleIdentities cf (rule.name :: seen) rules

/-- `Assert-ManagedFirewallRules`. -/
def assertManagedFirewallRules (cf : CaseFold) (rules : List ManagedRule) : Except String Unit := do
  failIf (rules.length < 1 ∨ 3 < rules.length)
    "Managed rule identities must contain between one and three rules."
  assertRuleIdentities cf [] rules

/-! ## Snapshots -/

/-- The actions that a canonical snapshot may name. -/
def validActions : List String := ["Allow", "Block", "NotConfigured"]

/-- `Assert-CanonicalFirewallSnapshotSection03`: the profiles behind those that were seen. -/
def assertSnapshotProfiles (cf : CaseFold) (seen : List String) : List SnapshotProfile → Except String (List String)
  | [] => .ok seen
  | profile :: profiles => do
    failIf ((ProfileName.all.map (·.text)).any (cf.equal profile.name) = false)
      ("Firewall rollback snapshot contains unknown profile '" ++ profile.name ++ "'.")
    failIf (seen.any (cf.equal profile.name) = true)
      ("Firewall rollback snapshot contains duplicate profile '" ++ profile.name ++ "'.")
    failIf (validActions.any (cf.equal profile.defaultInboundAction) = false)
      ("Firewall rollback profile '" ++ profile.name ++ "' has invalid DefaultInboundAction value '" ++
        profile.defaultInboundAction ++ "'.")
    failIf (validActions.any (cf.equal profile.defaultOutboundAction) = false)
      ("Firewall rollback profile '" ++ profile.name ++ "' has invalid DefaultOutboundAction value '" ++
        profile.defaultOutboundAction ++ "'.")
    assertSnapshotProfiles cf (profile.name :: seen) profiles

/-- `Assert-CanonicalFirewallSnapshotSection05`. -/
def assertSnapshotAdapters (cf : CaseFold) (seen : List String) : List String → Except String Unit
  | [] => .ok ()
  | adapter :: adapters => do
    failIf (adapter.toList.all isWhitespace = true ∨ 256 < utf16Length adapter ∨ hasControl adapter = true)
      "Firewall rollback snapshot contains an invalid adapter name."
    failIf (seen.any (cf.equal adapter) = true)
      ("Firewall rollback snapshot contains duplicate adapter '" ++ adapter ++ "'.")
    assertSnapshotAdapters cf (adapter :: seen) adapters

/-- `Assert-CanonicalFirewallSnapshot`. The names of the fields are those of the type. -/
def assertCanonicalFirewallSnapshot (cf : CaseFold) (snapshot : Snapshot) : Except String Unit := do
  failIf (snapshot.version ≠ 3) "Firewall rollback snapshot has an unsupported version."
  failIf (snapshot.profiles.length ≠ 3)
    "Firewall rollback snapshot must contain Domain, Private, and Public exactly once."
  let seen ← assertSnapshotProfiles cf [] snapshot.profiles
  (ProfileName.all.map (·.text)).forM fun name =>
    failIf (seen.any (cf.equal name) = false)
      ("Firewall rollback snapshot is missing profile '" ++ name ++ "'.")
  failIf (128 < snapshot.adapters.length) "Firewall rollback snapshot contains too many adapters."
  assertSnapshotAdapters cf [] snapshot.adapters
  assertManagedFirewallRules cf snapshot.managedRules

/-- A profile of the snapshot, with `ConvertTo-StrictFirewallBoolean`. -/
def snapshotProfile (profiles : ProfileName → FirewallProfile) (name : ProfileName) :
    Except String SnapshotProfile :=
  match (profiles name).enabled with
  | none => .error ("Firewall profile field '" ++ name.text ++ ".Enabled' must be a boolean.")
  | some enabled =>
    .ok ⟨name.text, enabled, (profiles name).defaultInboundAction.text, (profiles name).defaultOutboundAction.text⟩

/-- The adapters of the snapshot. -/
def captureAdapterNames : Run (List String) :=
  if env.effective.disableAdapters then query env .captureAdapters (·.upAdapters) else pure []

/-- The `try` block of `Get-CanonicalFirewallRollbackSnapshot`. -/
def captureSnapshot : Run String := do
  let profiles ← query env .captureProfiles (·.profiles)
  let profiles ← check (ProfileName.all.mapM (snapshotProfile profiles))
  let adapters ← captureAdapterNames env
  let snapshot : Snapshot := ⟨3, profiles, adapters, env.managedRules⟩
  check (assertCanonicalFirewallSnapshot cf snapshot)
  let json ← query env .convertToJson fun _ => env.json.convertTo snapshot
  let verified ← query env .verifyFromJson fun _ => env.json.convertFrom json
  -- what does not come back as a snapshot fails a check of its types
  match verified with
  | none => throw "Firewall rollback snapshot contains an invalid value."
  | some verified => check (assertCanonicalFirewallSnapshot cf verified)
  modify fun s => { s with actions.rollbackStateCaptured := true }
  return json

/-- `Get-CanonicalFirewallRollbackSnapshot`. -/
def getCanonicalFirewallRollbackSnapshot : Run (Option String) := do
  match ← attempt (captureSnapshot env) with
  | .ok json => return some json
  | .error message =>
    addRunError ("Failed to capture and validate pre-kill-switch firewall snapshot: " ++ message)
    return none

/-! ## Inventory -/

/-- The letters of a text, in either case. -/
def literal (cf : CaseFold) (text : String) : List (Char → Bool) := text.toList.map fun c => cf.inClass [c]

/-- `[a-fA-F0-9]{32}`. -/
def runIdClasses (cf : CaseFold) : List (Char → Bool) :=
  List.replicate 32 (cf.inClass "abcdefABCDEF0123456789".toList)

/-- `(?:IN-BLOCK|OUT-BLOCK|BREAKGLASS-IN-ALLOW)$`. -/
def ruleKindPattern (cf : CaseFold) : Regex Char :=
  .alt (.followedBy (literal cf "IN-BLOCK") .stop)
    (.alt (.followedBy (literal cf "OUT-BLOCK") .stop) (.followedBy (literal cf "BREAKGLASS-IN-ALLOW") .stop))

/-- `'^' + [regex]::Escape($RulePrefix) + '-(?:[a-fA-F0-9]{32}-)?(?:…)$'`. -/
def managedRulePattern (cf : CaseFold) (rulePrefix : String) : Regex Char :=
  .seq .start (.followedBy (literal cf (rulePrefix ++ "-"))
    (.alt (.followedBy (runIdClasses cf ++ literal cf "-") (ruleKindPattern cf)) (ruleKindPattern cf)))

/-- `'^' + [regex]::Escape($TaskPrefix) + '(?:-[a-fA-F0-9]{32})?$'`. -/
def rollbackTaskPattern (cf : CaseFold) (taskPrefix : String) : Regex Char :=
  .seq .start (.followedBy (literal cf taskPrefix)
    (.alt (.followedBy (literal cf "-" ++ runIdClasses cf) .stop) .stop))

/-- The operator `-match`. -/
def matchesPattern (pattern : Regex Char) (text : String) : Bool := pattern.search '\n' text.toList

/-- The rules of the host that carry an identity of the kill switch. -/
def Host.ruleConflicts (cf : CaseFold) (host : Host) (rulePrefix : String) : List FirewallRule :=
  host.rules.filter fun rule => matchesPattern (managedRulePattern cf rulePrefix) rule.name

/-- The tasks of the host that carry one. -/
def Host.taskConflicts (cf : CaseFold) (host : Host) (taskPrefix : String) : List ScheduledTask :=
  host.tasks.filter fun task => matchesPattern (rollbackTaskPattern cf taskPrefix) task.taskName

/-- An error with its finding. -/
def refuse (code message : String) : Run Bool := do
  addRunError message
  addFinding code
  return false

/-- A property of every item of a list. Under strict mode a list without items does not have it. -/
def readProperty {α : Type} (property : String) (items : List α) (value : α → String) :
    Except String (List String) := do
  failIf (items.length = 0)
    ("The property '" ++ property ++ "' cannot be found on this object. Verify that the property exists.")
  return items.map value

/-- What the inventory reports: nothing, or the names of the rules and of the tasks. -/
def identities (conflicts : List FirewallRule) (taskConflicts : List ScheduledTask) :
    Except String (Option (List String)) := do
  if conflicts.length = 0 ∧ taskConflicts.length = 0 then return none
  let ruleNames ← readProperty "Name" conflicts (·.name)
  let taskNames ← readProperty "TaskName" taskConflicts (·.taskName)
  return some (ruleNames ++ taskNames)

theorem identities_none_iff {conflicts : List FirewallRule} {taskConflicts : List ScheduledTask} :
    identities conflicts taskConflicts = .ok none ↔ conflicts = [] ∧ taskConflicts = [] := by
  unfold identities
  split_ifs with hempty
  · exact iff_of_true rfl (by simpa using hempty)
  · refine iff_of_false ?_ (by simpa using hempty)
    intro h
    obtain ⟨ruleNames, -, h⟩ := except_bind_ok_iff.mp h
    obtain ⟨taskNames, -, h⟩ := except_bind_ok_iff.mp h
    cases h

/-- The `try` block of `Test-NoManagedFirewallRuleConflicts`. -/
def inventory : Run (Option (List String)) := do
  let conflicts ← query env .inventoryRules (·.ruleConflicts cf env.effective.rulePrefix)
  let taskConflicts ← query env .inventoryTasks (·.taskConflicts cf env.effective.taskName)
  check (identities conflicts taskConflicts)

/-- `Test-NoManagedFirewallRuleConflicts`. -/
def testNoManagedFirewallRuleConflicts : Run Bool := do
  match ← attempt (inventory env) with
  | .ok none => return true
  | .ok (some identities) =>
    refuse "Firewall-ManagedRuleConflict"
      ("Preexisting kill-switch rule or rollback-task identity detected (" ++ String.intercalate ", " identities ++
        "); refusing an overlapping activation so the existing rollback remains authoritative.")
  | .error message =>
    refuse "Firewall-ManagedRuleConflict"
      ("Unable to inspect existing kill-switch rule and rollback-task identities before mutation: " ++ message)

/-! ## Creation and removal of rules -/

/-- `Remove-ExactJustCreatedFirewallRule`. -/
def removeExactJustCreatedFirewallRule (name : String) : Run Bool := do
  let removal := invoke env (.removeCreatedRule name) fun host =>
    if host.rulesNamed cf name = [] then .error "No firewall rule was found." else .ok (host.removeRules cf name)
  match ← attempt removal with
  | .ok _ => return true
  | .error message =>
    refuse "Firewall-RuleCleanupFailed" ("Exact cleanup of just-created firewall rule '" ++ name ++
      "' failed after verification failure: " ++ message)

/-- `Test-CreatedKillSwitchFirewallRule`. -/
def testCreatedKillSwitchFirewallRule (cf : CaseFold) (data rule : FirewallRule) : Bool :=
  cf.equal rule.name data.name && rule.enabled && decide (rule.direction = data.direction) &&
    decide (rule.action = data.action)

/-- `Test-KillSwitchRuleVerificationFailed`. -/
def testKillSwitchRuleVerificationFailed (createdRules verifiedRules : List FirewallRule) : Bool :=
  createdRules.length ≠ 1 || verifiedRules.length ≠ 1

/-- The verification in `Invoke-NewOrReplaceRule`: an error of the query, or a rule that is not as it was
    requested. The text is the one of `Get-KillSwitchRuleVerificationMessage`. -/
def verificationMessage (data : FirewallRule) : Run (Option String) := do
  match ← attempt (query env (.createdRules data.name) (·.rulesNamed cf data.name)) with
  | .error message =>
    return some ("Firewall rule '" ++ data.name ++ "' post-create verification query failed: " ++ message)
  | .ok created =>
    if testKillSwitchRuleVerificationFailed created (created.filter (testCreatedKillSwitchFirewallRule cf data)) then
      return some ("Firewall rule '" ++ data.name ++
        "' was not found, was not enabled, or did not match requested settings after creation.")
    else return none

/-- The part of `Invoke-NewOrReplaceRule` behind the creation. -/
def verifyRule (data : FirewallRule) : Run Bool := do
  match ← verificationMessage env data with
  | none => return true
  | some message =>
    addRunError message
    addFinding "Firewall-RuleCreateFailed"
    let _ ← removeExactJustCreatedFirewallRule env data.name
    return false

/-- `New-NetFirewallRule`. -/
def newNetFirewallRule (data : FirewallRule) : Run Unit :=
  invoke env (.newRule data.name) fun host =>
    if host.rulesNamed cf data.name = [] then .ok { host with rules := host.rules ++ [data] }
    else .error "Cannot create a file when that file already exists."

/-- `Get-NetFirewallRule -Name … -ErrorAction SilentlyContinue`. -/
def rulesNamedSilently (site : Invocation) (name : String) : Run (List FirewallRule) := do
  match ← attempt (query env site (·.rulesNamed cf name)) with
  | .ok rules => return rules
  | .error _ => return []

/-- `Invoke-NewOrReplaceRule`. -/
def invokeNewOrReplaceRule (data : FirewallRule) : Run Bool := do
  let existing ← rulesNamedSilently env (.existingRules data.name) data.name
  if existing ≠ [] then
    refuse "Firewall-RuleCollision"
      ("Firewall rule '" ++ data.name ++ "' already exists; refusing to replace owner-unknown rule.")
  else if env.shouldProcess (.createRule data.name) = false then
    addRunError ("Firewall rule '" ++ data.name ++ "' creation skipped by ShouldProcess.")
    return false
  else
    match ← attempt (newNetFirewallRule env data) with
    | .ok _ => verifyRule env data
    | .error message =>
      refuse "Firewall-RuleCreateFailed" ("Firewall rule '" ++ data.name ++ "' creation failed: " ++ message)

/-- The identity of a rule as the removal compares it. -/
def ManagedRule.owns (cf : CaseFold) (rule : ManagedRule) (found : FirewallRule) : Bool :=
  cf.equal found.name rule.name && decide (found.direction = rule.direction) && decide (found.action = rule.action)

/-- One round of `Remove-ExactManagedFirewallRules`. -/
def removeManagedRule (rule : ManagedRule) : Run Unit := do
  let existing ← rulesNamedSilently env (.managedRules rule.name) rule.name
  let owned := existing.filter (rule.owns cf)
  if owned.length ≠ existing.length then
    throw ("Firewall rule identity mismatch for '" ++ rule.name ++ "'; refusing removal.")
  else if owned ≠ [] then
    invoke env (.removeManagedRules rule.name) fun host => .ok (host.removeRules cf rule.name)
  else return ()

/-- `Remove-ExactManagedFirewallRules`. -/
def removeExactManagedFirewallRules (rules : List ManagedRule) : Run Unit := do
  check (assertManagedFirewallRules cf rules)
  rules.forM (removeManagedRule env)

/-! ## Names -/

theorem equal_iff {a b : String} : cf.equal a b = true ↔ a.toList.map cf.fold = b.toList.map cf.fold :=
  decide_eq_true_iff

theorem equal_self (a : String) : cf.equal a a = true := equal_iff.mpr rfl

theorem equal_symm {a b : String} (h : cf.equal a b = true) : cf.equal b a = true :=
  equal_iff.mpr (equal_iff.mp h).symm

/-- Names of different lengths are different. -/
theorem equal_of_length_ne {a b : String} (h : a.toList.length ≠ b.toList.length) : cf.equal a b = false := by
  rw [Bool.eq_false_iff]
  intro heq
  have hlength := congrArg List.length (equal_iff.mp heq)
  rw [List.length_map, List.length_map] at hlength
  exact h hlength

theorem inClass_of_mem {members : List Char} {c : Char} (h : c ∈ members) : cf.inClass members c = true :=
  List.any_eq_true.mpr ⟨c, h, decide_eq_true rfl⟩

theorem toList_ruleName (suffix : String) : (env.ruleName suffix).toList =
    env.effective.rulePrefix.toList ++ '-' :: env.rollbackRunId.text.toList ++ suffix.toList := by
  simp [Environment.ruleName]

theorem toList_rollbackTaskName : env.rollbackTaskName.toList =
    env.effective.taskName.toList ++ '-' :: env.rollbackRunId.text.toList := by
  simp [Environment.rollbackTaskName]

theorem dropFinalNewline_of_not_mem {text : List Char} (h : '\n' ∉ text) : dropFinalNewline text = text := by
  rw [dropFinalNewline, if_neg]
  intro hlast
  exact h (List.mem_of_getLast? hlast)

/-- An accepted name has characters of the class, at least one, and no line feed. -/
theorem acceptsName_iff {limit : ℕ} {text : String} : acceptsName cf limit text = true ↔
    text.toList ≠ [] ∧ (∀ c ∈ text.toList, cf.inClass nameClass c = true) ∧ hasControl text = false ∧
      utf16Length text ≤ limit := by
  have hnewline : hasControl text = false → '\n' ∉ text.toList := by
    intro hcontrol hmem
    have htrue : hasControl text = true := List.any_eq_true.mpr ⟨'\n', hmem, by decide⟩
    rw [htrue] at hcontrol
    cases hcontrol
  unfold acceptsName matchesName
  simp only [Bool.and_eq_true, Bool.not_eq_eq_eq_not, Bool.not_true, decide_eq_true_eq]
  constructor
  · rintro ⟨⟨⟨hne, hall⟩, hcontrol⟩, hlength⟩
    rw [dropFinalNewline_of_not_mem (hnewline hcontrol)] at hne hall
    exact ⟨List.isEmpty_eq_false_iff.mp hne, List.all_eq_true.mp hall, hcontrol, hlength⟩
  · rintro ⟨hne, hall, hcontrol, hlength⟩
    rw [dropFinalNewline_of_not_mem (hnewline hcontrol)]
    exact ⟨⟨⟨List.isEmpty_eq_false_iff.mpr hne, List.all_eq_true.mpr hall⟩, hcontrol⟩, hlength⟩

theorem mem_nameClass_of_runId {c : Char} (h : c ∈ env.rollbackRunId.text.toList) :
    cf.inClass nameClass c = true := by
  have hall : ("0123456789abcdef".toList).all (· ∈ nameClass) = true := by
    have hhex : "0123456789abcdef".toList = ['0', '1', '2', '3', '4', '5', '6', '7', '8', '9', 'a', 'b', 'c', 'd', 'e', 'f'] :=
      String.toList_ofList
    rw [hhex, nameClass, letters_eq, digits_eq]
    decide +kernel
  exact inClass_of_mem (of_decide_eq_true (List.all_eq_true.mp hall c (env.rollbackRunId.digits c h)))

theorem inClass_newline : cf.inClass nameClass '\n' = false := by
  rw [Bool.eq_false_iff]
  intro h
  obtain ⟨m, hm, hfold⟩ := List.any_eq_true.mp h
  have hnewline : m = '\n' := cf.caseless (by decide) (of_decide_eq_true hfold).symm
  rw [hnewline, nameClass, letters_eq, digits_eq] at hm
  revert hm
  decide +kernel

theorem matchesName_of_forall {text : String} (hne : text.toList ≠ [])
    (hall : ∀ c ∈ text.toList, cf.inClass nameClass c = true) : matchesName cf text = true := by
  have hnewline : '\n' ∉ text.toList := by
    intro hmem
    have hclass := hall _ hmem
    rw [inClass_newline] at hclass
    cases hclass
  rw [matchesName, dropFinalNewline_of_not_mem hnewline, List.isEmpty_eq_false_iff.mpr hne,
    List.all_eq_true.mpr hall]
  rfl

/-- A character has at most two units. -/
theorem length_encode_le_two_mul (text : List Char) : (Utf16.encode text).length ≤ 2 * text.length := by
  induction text with
  | nil => exact Nat.le_refl 0
  | cons c text ih =>
    have hchar : (Utf16.encodeChar c).length ≤ 2 := by
      unfold Utf16.encodeChar
      split_ifs <;> simp
    have hcons : Utf16.encode (c :: text) = Utf16.encodeChar c ++ Utf16.encode text := List.flatMap_cons
    rw [hcons, List.length_append, List.length_cons]
    omega

/-- The suffixes of the names of the rules. -/
def ruleSuffixes : List String := [inSuffix, outSuffix, breakGlassSuffix]

theorem toList_inSuffix : inSuffix.toList = ['-', 'I', 'N', '-', 'B', 'L', 'O', 'C', 'K'] :=
  String.toList_ofList

theorem toList_outSuffix : outSuffix.toList = ['-', 'O', 'U', 'T', '-', 'B', 'L', 'O', 'C', 'K'] :=
  String.toList_ofList

theorem toList_breakGlassSuffix : breakGlassSuffix.toList = ['-', 'B', 'R', 'E', 'A', 'K', 'G', 'L', 'A', 'S',
    'S', '-', 'I', 'N', '-', 'A', 'L', 'L', 'O', 'W'] :=
  String.toList_ofList

theorem suffix_class : ∀ suffix ∈ ruleSuffixes, suffix.toList.length ≤ 20 ∧ suffix.toList.all (· ∈ nameClass) = true := by
  simp only [ruleSuffixes, List.forall_mem_cons, toList_inSuffix, toList_outSuffix, toList_breakGlassSuffix, nameClass,
    letters_eq, digits_eq]
  decide +kernel

theorem dash_mem_nameClass : '-' ∈ nameClass := List.mem_append_right _ (by decide)

theorem inClass_of_mem_ruleName {suffix : String} (hsuffix : suffix ∈ ruleSuffixes) {c : Char}
    (hc : c ∈ (env.ruleName suffix).toList) : cf.inClass nameClass c = true := by
  rw [toList_ruleName, List.mem_append, List.mem_append, List.mem_cons] at hc
  obtain (hc | rfl | hc) | hc := hc
  · exact (acceptsName_iff.mp env.effective.rulePrefix_accepted).2.1 c hc
  · exact inClass_of_mem dash_mem_nameClass
  · exact mem_nameClass_of_runId env hc
  · exact inClass_of_mem (of_decide_eq_true (List.all_eq_true.mp (suffix_class suffix hsuffix).2 c hc))

theorem matchesName_ruleName {suffix : String} (hsuffix : suffix ∈ ruleSuffixes) :
    matchesName cf (env.ruleName suffix) = true := by
  refine matchesName_of_forall ?_ fun c => inClass_of_mem_ruleName env hsuffix
  rw [toList_ruleName]
  simp

theorem utf16Length_ruleName {suffix : String} (hsuffix : suffix ∈ ruleSuffixes) :
    utf16Length (env.ruleName suffix) ≤ 256 := by
  have hmanaged : (Utf16.encode env.effective.rulePrefix.toList).length ≤ 64 :=
    (acceptsName_iff.mp env.effective.rulePrefix_accepted).2.2.2
  have hrest := length_encode_le_two_mul ('-' :: env.rollbackRunId.text.toList ++ suffix.toList)
  have hlength := env.rollbackRunId.length
  have hshort := (suffix_class suffix hsuffix).1
  rw [List.length_append, List.length_cons, hlength] at hrest
  have happend : Utf16.encode (env.ruleName suffix).toList = Utf16.encode env.effective.rulePrefix.toList ++
      Utf16.encode ('-' :: env.rollbackRunId.text.toList ++ suffix.toList) := by
    rw [toList_ruleName, List.append_assoc]
    exact List.flatMap_append
  rw [utf16Length, happend, List.length_append]
  omega

theorem matchesName_rollbackTaskName : matchesName cf env.rollbackTaskName = true := by
  refine matchesName_of_forall ?_ fun c hc => ?_
  · rw [toList_rollbackTaskName]
    simp
  · rw [toList_rollbackTaskName, List.mem_append, List.mem_cons] at hc
    obtain hc | rfl | hc := hc
    · exact (acceptsName_iff.mp env.effective.taskName_accepted).2.1 c hc
    · exact inClass_of_mem dash_mem_nameClass
    · exact mem_nameClass_of_runId env hc

/-- The rules of a run have different names. -/
theorem equal_outRule_inRule : cf.equal env.outRule.name env.inRule.name = false := by
  apply equal_of_length_ne
  unfold Environment.outRule Environment.inRule
  have hout : outSuffix.toList.length = 10 := by rw [toList_outSuffix]; rfl
  have hin : inSuffix.toList.length = 9 := by rw [toList_inSuffix]; rfl
  have hbreak : breakGlassSuffix.toList.length = 20 := by rw [toList_breakGlassSuffix]; rfl
  split_ifs <;> simp only [toList_ruleName, List.length_append] <;> omega

theorem inRule_name : ∃ suffix ∈ ruleSuffixes, env.inRule.name = env.ruleName suffix := by
  unfold Environment.inRule
  split_ifs
  · exact ⟨breakGlassSuffix, by decide, rfl⟩
  · exact ⟨inSuffix, by decide, rfl⟩

theorem outRule_name : ∃ suffix ∈ ruleSuffixes, env.outRule.name = env.ruleName suffix :=
  ⟨outSuffix, by decide, rfl⟩

theorem assertRuleIdentities_cons {seen : List String} {rule : ManagedRule} {rules : List ManagedRule}
    (hname : ∃ suffix ∈ ruleSuffixes, rule.name = env.ruleName suffix)
    (hseen : seen.any (cf.equal rule.name) = false) (hrest : assertRuleIdentities cf (rule.name :: seen) rules = .ok ()) :
    assertRuleIdentities cf seen (rule :: rules) = .ok () := by
  obtain ⟨suffix, hsuffix, hname⟩ := hname
  have hvalid : matchesName cf rule.name = true := by
    rw [hname]
    exact matchesName_ruleName env hsuffix
  have hlength : utf16Length rule.name ≤ 256 := by
    rw [hname]
    exact utf16Length_ruleName env hsuffix
  rw [assertRuleIdentities, except_bind_ok_iff]
  refine ⟨(), failIf_ok_iff.mpr ?_, hrest⟩
  rw [hvalid, hseen]
  simp only [Bool.true_eq_false, Bool.false_eq_true, false_or, or_false]
  omega

theorem assertManagedFirewallRules_inRule : assertManagedFirewallRules cf [env.inRule] = .ok () := by
  rw [assertManagedFirewallRules, except_bind_ok_iff]
  exact ⟨(), failIf_ok_iff.mpr (by simp), assertRuleIdentities_cons env (inRule_name env) rfl rfl⟩

theorem assertManagedFirewallRules_created :
    assertManagedFirewallRules cf [env.inRule, env.outRule] = .ok () := by
  rw [assertManagedFirewallRules, except_bind_ok_iff]
  refine ⟨(), failIf_ok_iff.mpr (by simp), assertRuleIdentities_cons env (inRule_name env) rfl ?_⟩
  refine assertRuleIdentities_cons env (outRule_name env) ?_ rfl
  rw [List.any_cons, equal_outRule_inRule]
  rfl

theorem assertManagedFirewallRules_managedRules :
    assertManagedFirewallRules cf env.managedRules = .ok () := by
  have hdifferent : cf.equal env.inRule.name env.outRule.name = false := by
    rw [Bool.eq_false_iff]
    intro h
    have hsymm := equal_symm h
    rw [equal_outRule_inRule] at hsymm
    cases hsymm
  rw [assertManagedFirewallRules, except_bind_ok_iff]
  refine ⟨(), failIf_ok_iff.mpr (by simp [Environment.managedRules]),
    assertRuleIdentities_cons env (outRule_name env) rfl ?_⟩
  refine assertRuleIdentities_cons env (inRule_name env) ?_ rfl
  rw [List.any_cons, hdifferent]
  rfl

/-! ## Patterns -/

theorem forall₂_literal {text : String} {word : List Char}
    (h : word.map cf.fold = text.toList.map cf.fold) :
    List.Forall₂ (fun accepts c => accepts c = true) (literal cf text) word := by
  unfold literal
  generalize text.toList = letters at h
  induction letters generalizing word with
  | nil =>
    rw [List.map_nil, List.map_eq_nil_iff] at h
    subst h
    exact .nil
  | cons c letters ih =>
    rw [List.map_cons, List.map_eq_cons_iff] at h
    obtain ⟨d, rest, rfl, hfold, hrest⟩ := h
    refine .cons ?_ (ih hrest)
    simpa [CaseFold.inClass] using hfold

theorem forall₂_replicate {accepts : Char → Bool} {word : List Char} (h : ∀ c ∈ word, accepts c = true) :
    List.Forall₂ (fun accepts c => accepts c = true) (List.replicate word.length accepts) word := by
  induction word with
  | nil => exact .nil
  | cons c word ih => exact .cons (h c List.mem_cons_self) (ih fun d hd => h d (List.mem_cons_of_mem c hd))

theorem forall₂_runIdClasses {word : List Char}
    (h : word.map cf.fold = env.rollbackRunId.text.toList.map cf.fold) :
    List.Forall₂ (fun accepts c => accepts c = true) (runIdClasses cf) word := by
  have hlength : word.length = 32 := by
    have hmap := congrArg List.length h
    rw [List.length_map, List.length_map, env.rollbackRunId.length] at hmap
    exact hmap
  have hhex : ("0123456789abcdef".toList).all (· ∈ "abcdefABCDEF0123456789".toList) = true := by
    have hdigits : "0123456789abcdef".toList = ['0', '1', '2', '3', '4', '5', '6', '7', '8', '9', 'a', 'b', 'c', 'd', 'e', 'f'] :=
      String.toList_ofList
    have hclass : "abcdefABCDEF0123456789".toList = ['a', 'b', 'c', 'd', 'e', 'f', 'A', 'B', 'C', 'D', 'E', 'F', '0', '1', '2', '3', '4', '5', '6', '7', '8',
      '9'] :=
      String.toList_ofList
    rw [hdigits, hclass]
    decide +kernel
  have hclass : ∀ c ∈ word, cf.inClass "abcdefABCDEF0123456789".toList c = true := by
    intro c hc
    obtain ⟨d, hd, hfold⟩ := List.mem_map.mp (h ▸ List.mem_map_of_mem hc : cf.fold c ∈ _)
    have hmem := List.all_eq_true.mp hhex d (env.rollbackRunId.digits d hd)
    exact List.any_eq_true.mpr ⟨d, of_decide_eq_true hmem, decide_eq_true hfold.symm⟩
  have hword := forall₂_replicate hclass
  rwa [hlength] at hword

theorem literal_ne_nil {text : String} (h : text.toList ≠ []) : literal cf text ≠ [] := by
  unfold literal
  simpa using h

theorem mem_stop : ([] : List Char) ∈ (Regex.stop : Regex Char).remainders '\n' false [] :=
  Regex.mem_remainders_stop.mpr ⟨.inl rfl, rfl⟩

/-- Behind the first letter, an expression of letters and a rest. -/
theorem mem_followedBy_false {classes : List (Char → Bool)} {r : Regex Char} {word tail rest : List Char}
    (hword : List.Forall₂ (fun accepts c => accepts c = true) classes word)
    (hrest : rest ∈ r.remainders '\n' false tail) :
    rest ∈ (Regex.followedBy classes r).remainders '\n' false (word ++ tail) := by
  induction hword with
  | nil => exact hrest
  | cons hc hword ih => exact Regex.mem_remainders_seq.mpr ⟨_, Regex.mem_remainders_lit.mpr ⟨_, hc, rfl⟩, ih⟩

theorem mem_ruleKindPattern {suffix : String} (hsuffix : suffix ∈ ruleSuffixes) {word : List Char}
    (h : word.map cf.fold = suffix.toList.tail.map cf.fold) :
    [] ∈ (ruleKindPattern cf).remainders '\n' false word := by
  have hliteral : ∀ {text : String}, suffix.toList.tail = text.toList →
      [] ∈ (Regex.followedBy (literal cf text) .stop).remainders '\n' false word := by
    intro text htext
    have hmem := @mem_followedBy_false (literal cf text) .stop word [] [] (forall₂_literal (htext ▸ h)) mem_stop
    rwa [List.append_nil] at hmem
  simp only [ruleKindPattern, Regex.mem_remainders_alt]
  simp only [ruleSuffixes, List.mem_cons, List.not_mem_nil, or_false] at hsuffix
  obtain rfl | rfl | rfl := hsuffix
  · exact .inl (hliteral (by rw [toList_inSuffix]; exact String.toList_ofList.symm))
  · exact .inr (.inl (hliteral (by rw [toList_outSuffix]; exact String.toList_ofList.symm)))
  · exact .inr (.inr (hliteral (by rw [toList_breakGlassSuffix]; exact String.toList_ofList.symm)))

theorem search_of_mem {r : Regex Char} {text : List Char} (h : [] ∈ r.remainders '\n' true text) :
    (Regex.seq .start r).search '\n' text = true := by
  refine Regex.search_iff.mpr ⟨[], text, rfl, [], ?_⟩
  refine Regex.mem_remainders_seq.mpr ⟨text, Regex.mem_remainders_start.mpr ⟨rfl, rfl⟩, ?_⟩
  simpa using h

/-- The inventory finds a rule with the name of a run, in any case, under the same prefix. -/
theorem matches_managedRulePattern {suffix rulePrefix name : String} (hsuffix : suffix ∈ ruleSuffixes)
    (hmanaged : cf.equal env.effective.rulePrefix rulePrefix = true)
    (hname : cf.equal name (env.ruleName suffix) = true) :
    matchesPattern (managedRulePattern cf rulePrefix) name = true := by
  have hdash : suffix.toList = '-' :: suffix.toList.tail := by
    simp only [ruleSuffixes, List.mem_cons, List.not_mem_nil, or_false] at hsuffix
    obtain rfl | rfl | rfl := hsuffix
    · rw [toList_inSuffix]; rfl
    · rw [toList_outSuffix]; rfl
    · rw [toList_breakGlassSuffix]; rfl
  -- the name falls into the prefix, the run and the kind of the rule
  have hfold : name.toList.map cf.fold = (rulePrefix ++ "-").toList.map cf.fold ++
      (env.rollbackRunId.text.toList.map cf.fold ++ ("-".toList.map cf.fold ++ suffix.toList.tail.map cf.fold)) := by
    rw [equal_iff.mp hname, toList_ruleName, hdash]
    simp only [List.map_append, List.map_cons, String.toList_append, List.append_assoc, ← equal_iff.mp hmanaged,
      List.tail_cons]
    rfl
  obtain ⟨head, _, hwords, hhead, hrest⟩ := List.map_eq_append_iff.mp hfold
  obtain ⟨run, _, rfl, hrun, hrest⟩ := List.map_eq_append_iff.mp hrest
  obtain ⟨dash, kind, rfl, hdashFold, hkind⟩ := List.map_eq_append_iff.mp hrest
  refine search_of_mem ((Regex.mem_remainders_followedBy (literal_ne_nil (by simp))).mpr
    ⟨head, _, hwords, forall₂_literal hhead, ?_⟩)
  rw [Regex.mem_remainders_alt, ← List.append_assoc]
  left
  exact mem_followedBy_false (List.rel_append (forall₂_runIdClasses env hrun) (forall₂_literal hdashFold))
    (mem_ruleKindPattern hsuffix hkind)

/-- The inventory finds a task with the name of a run, in any case, under the same name. -/
theorem matches_rollbackTaskPattern {taskName name : String}
    (htask : cf.equal env.effective.taskName taskName = true)
    (hname : cf.equal name env.rollbackTaskName = true) :
    matchesPattern (rollbackTaskPattern cf taskName) name = true := by
  have hfold : name.toList.map cf.fold = taskName.toList.map cf.fold ++
      ("-".toList.map cf.fold ++ env.rollbackRunId.text.toList.map cf.fold) := by
    rw [equal_iff.mp hname, toList_rollbackTaskName, ← equal_iff.mp htask, List.map_append, List.map_cons]
    rfl
  have hne : taskName.toList ≠ [] := by
    intro hnil
    have hmap := equal_iff.mp htask
    rw [hnil, List.map_nil, List.map_eq_nil_iff] at hmap
    exact (acceptsName_iff.mp env.effective.taskName_accepted).1 hmap
  obtain ⟨head, _, hwords, hhead, hrest⟩ := List.map_eq_append_iff.mp hfold
  obtain ⟨dash, run, rfl, hdash, hrun⟩ := List.map_eq_append_iff.mp hrest
  refine search_of_mem ((Regex.mem_remainders_followedBy (literal_ne_nil hne)).mpr
    ⟨head, _, hwords, forall₂_literal hhead, ?_⟩)
  rw [Regex.mem_remainders_alt]
  left
  have hmem := @mem_followedBy_false (literal cf "-" ++ runIdClasses cf) .stop (dash ++ run) [] []
    (List.rel_append (forall₂_literal hdash) (forall₂_runIdClasses env hrun)) mem_stop
  rwa [List.append_nil] at hmem

end BaselineOps.KillSwitch
