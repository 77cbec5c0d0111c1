import Mathlib
import BaselineOps.KillSwitch.RollbackText

/-!
# Activation of the kill switch

The stages of a remediation run, the cleanup behind a failure and the report
(`21-EmergencyKillSwitch.ps1`, lines 407–659, with `Set-QuarantineFlag` and the summary of
`21-EmergencyKillSwitch.helpers.ps1`). Event log entries change nothing that is modelled and catch their
own errors.
-/

namespace BaselineOps.KillSwitch

open BaselineOps.Domain BaselineOps.Lib

variable {cf : CaseFold} (env : Environment cf)

/-! ## Stages 01 and 02 -/

/-- `Invoke-Capability21MainPhase07Step02Stage01`. -/
def step02Stage01 : Run Unit := do
  query env .enterLock fun _ => ()
  if env.lockHeld then
    addRunError ("Another emergency kill-switch remediation is already in progress or its trusted lock " ++
      "cannot be opened exclusively; refusing concurrent execution.")
    throw "Emergency kill-switch remediation is already in progress."
  else if (← testNoManagedFirewallRuleConflicts env) = false then
    throw ("A preexisting kill-switch activation or unowned legacy rule was found; " ++
      "refusing overlapping activation.")
  else return ()

/-- A prompt was declined. -/
def declineConfirmation : Run Unit := modify fun s => { s with actions.confirmDeclined := true }

/-- The snapshot part of stage 02. -/
def captureRollbackSnapshot : Run Unit :=
  if env.shouldProcess .captureSnapshot then do
    let json ← getCanonicalFirewallRollbackSnapshot env
    modify fun s => { s with rollbackSnapshotJson := json }
    match json with
    | none => throw "Pre-kill-switch firewall snapshot capture failed; aborting before firewall mutation."
    | some json =>
      if json.toList.all isWhitespace then
        throw "Pre-kill-switch firewall snapshot capture failed; aborting before firewall mutation."
      else
        let adapters ← query env .adaptersFromJson fun _ => (env.json.convertFrom json).elim [] (·.adapters)
        modify fun s => { s with adapterNamesToDisable := adapters }
  else declineConfirmation

/-- The scheduling part of stage 02. -/
def scheduleRollback : Run Unit :=
  if env.shouldProcess .scheduleTask then do
    let scheduled ← scheduleAutoRollback env env.effective.autoRollbackMinutes env.rollbackTaskName
      env.managedRules (← get).rollbackSnapshotJson
    modify fun s => { s with actions.rollbackScheduled := scheduled }
    if scheduled = false then
      throw "Automatic rollback scheduling failed; aborting before firewall mutation."
    else modify fun s => { s with rollbackSnapshotEmbedded := true }
  else declineConfirmation

/-- `Invoke-Capability21MainPhase07Step02Stage02`. -/
def step02Stage02 : Run Unit := do
  if 0 < env.effective.autoRollbackMinutes ∧ (← get).actions.confirmDeclined = false then
    captureRollbackSnapshot env
    scheduleRollback env
  else return ()

/-! ## Stage 03 -/

/-- The settings of the inbound rule. -/
def Environment.inboundRule : FirewallRule :=
  if env.breakGlassRequested then
    { name := env.ruleName breakGlassSuffix
      displayName := env.effective.rulePrefix ++ " BreakGlass Inbound Allow"
      direction := .inbound
      action := .allow
      enabled := true
      remoteAddress := env.effective.breakGlassRemoteAddress
      protocol := "TCP"
      localPort := some env.effective.breakGlassLocalPort
      description := "Kill switch: break-glass inbound allow" }
  else
    { name := env.ruleName inSuffix
      displayName := env.effective.rulePrefix ++ " Inbound Block"
      direction := .inbound
      action := .block
      enabled := true
      remoteAddress := []
      protocol := "Any"
      localPort := none
      description := "Kill switch: block inbound" }

/-- The settings of the outbound rule. -/
def Environment.outboundRule : FirewallRule :=
  { name := env.ruleName outSuffix
    displayName := env.effective.rulePrefix ++ " Outbound Block"
    direction := .outbound
    action := .block
    enabled := true
    remoteAddress := []
    protocol := "Any"
    localPort := none
    description := "Kill switch: block outbound" }

/-- `BreakGlassApplied` is the result for the rule of the break-glass access. -/
def noteBreakGlass (created : Bool) : Run Unit :=
  if env.breakGlassRequested then modify fun s => { s with actions.breakGlassApplied := created } else return ()

/-- The inbound part of `Add-KillSwitchFirewallRules`. -/
def addInboundRule : Run Unit := do
  let created ← invokeNewOrReplaceRule env env.inboundRule
  noteBreakGlass env created
  if created = false then
    throw (if env.breakGlassRequested then
      "Break-glass firewall rule creation or verification failed; aborting before isolation."
      else "Inbound block firewall rule creation or verification failed.")
  else modify fun s => { s with createdManagedRules := s.createdManagedRules ++ [env.inRule] }

/-- The outbound part of `Add-KillSwitchFirewallRules`. -/
def addOutboundRule : Run Unit := do
  let created ← invokeNewOrReplaceRule env env.outboundRule
  if created = false then throw "Outbound block firewall rule creation or verification failed."
  else modify fun s => { s with createdManagedRules := s.createdManagedRules ++ [env.outRule] }

/-- `Add-KillSwitchFirewallRules`. Behind the two parts both rules have been created. -/
def addKillSwitchFirewallRules : Run Unit :=
  if env.shouldProcess .createRules then do
    addInboundRule env
    addOutboundRule env
    modify fun s => { s with actions.rulesCreated := true }
  else declineConfirmation

/-- `Set-NetFirewallProfile -All`. -/
def setNetFirewallProfile : Run Unit :=
  match env.fault .setProfiles with
  | some message => do
    modify fun s => { s with host := s.host.isolate env.reached }
    throw message
  | none => modify fun s => { s with host := s.host.isolate fun _ => true, profilesSet := true }

/-- A value of the registry key. -/
def setFlagValue (name value : String) : Run Unit :=
  invoke env (.setFlagValue name) fun host => .ok { host with quarantine := host.quarantine ++ [(name, value)] }

/-- The user is written where the configuration asks for it. -/
def setUserValue : Run Unit :=
  if env.effective.includeUserInRegistry then setFlagValue env "User" env.effective.user else return ()

/-- The `try` block of `Set-QuarantineFlag`. -/
def writeQuarantineFlag : Run Unit := do
  invoke env .newFlagKey fun host => .ok { host with quarantine := [] }
  setFlagValue env "Isolated" "1"
  setFlagValue env "Time" env.time
  setFlagValue env "Reason" env.effective.reason
  setUserValue env
  modify fun s => { s with actions.registryWritten := true }

/-- `Set-QuarantineFlag`. -/
def setQuarantineFlag : Run Unit := do
  match ← attempt (writeQuarantineFlag env) with
  | .ok _ => return ()
  | .error message => addRunError ("Registry flag write failed: " ++ message)

/-- `Enable-KillSwitchFirewallProfiles`. -/
def enableKillSwitchFirewallProfiles : Run Unit := do
  if (← get).actions.confirmDeclined = false ∧ env.shouldProcess .setProfiles = true then
    setNetFirewallProfile env
    modify fun s => { s with actions.firewallProfileSet := true, firewallActivationCommitted := true }
    if env.shouldProcess .writeFlag then setQuarantineFlag env else declineConfirmation
  else declineConfirmation

/-- The loop of `Disable-KillSwitchNetworkAdapters`. -/
def disableNetAdapters (round : ℕ) : List String → Run Unit
  | [] => return ()
  | name :: names => do
    invoke env (.disableAdapter round) fun host =>
      if host.adapters.any fun adapter => cf.equal adapter.name name then .ok (host.disableAdapter cf name)
      else .error "No matching adapter was found."
    disableNetAdapters (round + 1) names

/-- The names for a run without rollback, which has no snapshot. -/
def listAdapterNames : Run Unit :=
  if env.effective.autoRollbackMinutes = 0 then do
    let names ← query env .listAdapters (·.upAdapters)
    modify fun s => { s with adapterNamesToDisable := names }
  else return ()

/-- `Disable-KillSwitchNetworkAdapters`. -/
def disableKillSwitchNetworkAdapters : Run Unit :=
  if env.effective.disableAdapters then
    if env.shouldProcess .disableAdapters then do
      listAdapterNames env
      disableNetAdapters env 0 (← get).adapterNamesToDisable
      modify fun s => { s with actions.adaptersDisabled := decide (s.adapterNamesToDisable ≠ []) }
    else declineConfirmation
  else return ()

/-- `Invoke-Capability21MainPhase07Step02Stage03`. -/
def step02Stage03 : Run Unit := do
  if (← get).actions.confirmDeclined = false then
    addKillSwitchFirewallRules env
    enableKillSwitchFirewallProfiles env
    disableKillSwitchNetworkAdapters env
  else return ()

/-! ## Cleanup and report -/

/-- `Test-KillSwitchPartialCleanupAllowed`. -/
def testKillSwitchPartialCleanupAllowed (activationCommitted rollbackTaskCancelled : Bool) : Bool :=
  !activationCommitted && rollbackTaskCancelled

/-- The first part of `Undo-PartialKillSwitchActivation`. -/
def cancelRollbackTask : Run Bool := do
  let s ← get
  if s.firewallActivationCommitted = false ∧ s.actions.rollbackScheduled = true then
    let cancel := invoke env .unregisterTask fun host =>
      if host.tasks.any fun task => cf.equal task.taskName env.rollbackTaskName then
        .ok (host.unregister cf env.rollbackTaskName)
      else .error "No scheduled task was found."
    match ← attempt cancel with
    | .ok _ =>
      modify fun s => { s with actions.rollbackScheduled := false, rollbackSnapshotEmbedded := false }
      return true
    | .error message =>
      addRunError ("Failed activation rollback-task cancellation failed: " ++ message)
      return false
  else return true

/-- `Undo-PartialKillSwitchActivation`. -/
def undoPartialKillSwitchActivation : Run Unit := do
  let rollbackTaskCancelled ← cancelRollbackTask env
  let s ← get
  if testKillSwitchPartialCleanupAllowed s.firewallActivationCommitted rollbackTaskCancelled = true ∧
      s.createdManagedRules ≠ [] then
    match ← attempt (removeExactManagedFirewallRules env s.createdManagedRules) with
    | .ok _ => return ()
    | .error message => addRunError ("Partial activation cleanup failed: " ++ message)
  else return ()

/-- `Resolve-Outcome`. -/
def resolveOutcome : Run Unit := modify fun s => { s with isolationActive :=
  s.actions.firewallProfileSet || s.actions.rulesCreated || s.actions.adaptersDisabled }

/-- `Invoke-Capability21MainPhase07Step02Stage04`. -/
def step02Stage04 : Run Unit := do
  resolveOutcome
  query env .reportCompletion fun _ => ()

/-- `Invoke-KillSwitchConsoleSummary`. -/
def invokeKillSwitchConsoleSummary : Run Unit := do
  query env .summaryTime fun _ => ()
  resolveOutcome
  query env .summaryLines fun _ => ()

/-- The `try` block of `Invoke-Capability21MainPhase07Step02`. -/
def activate : Run Unit := do
  step02Stage01 env
  step02Stage02 env
  step02Stage03 env
  step02Stage04 env

/-- Its `catch` block. -/
def recoverFrom (message : String) : Run Unit := do
  addRunError ("Unhandled error: " ++ message)
  undoPartialKillSwitchActivation env
  query env .reportFailure fun _ => ()

/-- The `try` block with its `catch` block. -/
def activateOrRecover : Run Unit := do
  match ← attempt (activate env) with
  | .ok _ => return ()
  | .error message => recoverFrom env message

/-- `Invoke-Capability21MainPhase07Step02`. -/
def step02 : Run Unit := do
  let outcome ← attempt (activateOrRecover env)
  let _ ← attempt (invokeKillSwitchConsoleSummary env)
  check outcome

/-- `Invoke-Capability21MainPhase07` in the mode `Remediate`. -/
def phase07 : Run Unit :=
  if env.isAdmin then step02 env
  else do
    addRunError "Administrative privileges are required for remediation."
    invokeKillSwitchConsoleSummary env

/-- What a remediation run on a host leaves behind. -/
def remediate (host : Host) : RunState := stateAfter (phase07 env { host })

end BaselineOps.KillSwitch
