import Mathlib
import BaselineOps.Domain.Validate
import BaselineOps.Lib.Hoare
import BaselineOps.Lib.Utf16

/-!
# Host and run state of the emergency kill switch

What `21-EmergencyKillSwitch.ps1` reads and changes: firewall profiles and rules, network adapters,
scheduled tasks and the quarantine flag, the record of one run, and the cmdlets it calls. Every prompt
and every call of a cmdlet has a name; the environment says which prompts are accepted and which calls
fail. The script sets `$ErrorActionPreference = 'Stop'`, so a failing cmdlet throws, unless it is called
with `SilentlyContinue`.
-/

namespace BaselineOps.KillSwitch

open BaselineOps.Domain BaselineOps.Lib

/-! ## Names -/

/-- Letters, and what lies outside ASCII and the block of the quotation marks. -/
def hasCase (c : Char) : Bool :=
  c.isAlpha || (128 ≤ c.toNat && !(0x2000 ≤ c.toNat && c.toNat ≤ 0x206f))

/-- The case mapping of `-eq`, `-match`, `-contains` and of the keys of a hashtable. A character without
    case is equal to itself only. -/
structure CaseFold where
  fold : Char → Char
  caseless : ∀ {a c}, hasCase c = false → fold a = fold c → a = c

variable (cf : CaseFold)

/-- The operator `-eq` on texts. -/
def CaseFold.equal (a b : String) : Bool := decide (a.toList.map cf.fold = b.toList.map cf.fold)

/-- The character class of a pattern, which ignores case. -/
def CaseFold.inClass (members : List Char) (c : Char) : Bool := members.any fun m => cf.fold c = cf.fold m

/-- The number of UTF-16 units, which is the `Length` of a text. -/
def utf16Length (text : String) : ℕ := (Utf16.encode text.toList).length

/-- The anchor `$` also matches before a line feed at the end. -/
def dropFinalNewline (text : List Char) : List Char :=
  if text.getLast? = some '\n' then text.dropLast else text

/-- `a-zA-Z`. -/
def letters : List Char := "abcdefghijklmnopqrstuvwxyzABCDEFGHIJKLMNOPQRSTUVWXYZ".toList

/-- `0-9`. -/
def digits : List Char := "0123456789".toList

/-- `[a-zA-Z0-9_-]`. -/
def nameClass : List Char := letters ++ digits ++ ['_', '-']

theorem letters_eq : letters = ['a', 'b', 'c', 'd', 'e', 'f', 'g', 'h', 'i', 'j', 'k', 'l', 'm', 'n', 'o', 'p',
    'q', 'r', 's', 't', 'u', 'v', 'w', 'x', 'y', 'z', 'A', 'B', 'C', 'D', 'E', 'F', 'G', 'H', 'I', 'J', 'K',
    'L', 'M', 'N', 'O', 'P', 'Q', 'R', 'S', 'T', 'U', 'V', 'W', 'X', 'Y', 'Z'] :=
  String.toList_ofList

theorem digits_eq : digits = ['0', '1', '2', '3', '4', '5', '6', '7', '8', '9'] :=
  String.toList_ofList

/-- The pattern `^[a-zA-Z0-9_-]+$`. -/
def matchesName (text : String) : Bool :=
  !(dropFinalNewline text.toList).isEmpty && (dropFinalNewline text.toList).all (cf.inClass nameClass)

/-- The pattern `[\x00-\x1f]`. -/
def hasControl (text : String) : Bool := text.toList.any fun c => c.toNat ≤ 0x1f

/-- What the configuration schema and phases 02 and 03 let through as a prefix or a task name. -/
def acceptsName (limit : ℕ) (text : String) : Bool :=
  matchesName cf text && !hasControl text && decide (utf16Length text ≤ limit)

/-- `[guid]::NewGuid().ToString('N')`. -/
structure RunId where
  text : String
  length : text.toList.length = 32
  digits : ∀ c ∈ text.toList, c ∈ "0123456789abcdef".toList
deriving DecidableEq

/-! ## Host -/

/-- The three profiles of the firewall. -/
inductive ProfileName where
  | domainProfile
  | privateProfile
  | publicProfile
deriving DecidableEq

/-- The name of a profile, as a text. -/
def ProfileName.text : ProfileName → String
  | .domainProfile => "Domain"
  | .privateProfile => "Private"
  | .publicProfile => "Public"

/-- `@('Domain','Private','Public')`. -/
def ProfileName.all : List ProfileName := [.domainProfile, .privateProfile, .publicProfile]

/-- The default action of a profile, inbound or outbound. -/
inductive DefaultAction where
  | allow
  | block
  | notConfigured
deriving DecidableEq

/-- The action as a text. -/
def DefaultAction.text : DefaultAction → String
  | .allow => "Allow"
  | .block => "Block"
  | .notConfigured => "NotConfigured"

/-- A firewall profile. `enabled` is empty where the policy leaves it unconfigured. -/
structure FirewallProfile where
  enabled : Option Bool
  defaultInboundAction : DefaultAction
  defaultOutboundAction : DefaultAction
deriving DecidableEq

/-- What `Set-NetFirewallProfile -All -Enabled True -DefaultInboundAction Block -DefaultOutboundAction Block`
    makes of a profile. -/
def FirewallProfile.isolated : FirewallProfile := ⟨some true, .block, .block⟩

/-- The direction of a firewall rule. -/
inductive Direction where
  | inbound
  | outbound
deriving DecidableEq

/-- The action of a firewall rule. -/
inductive RuleAction where
  | allow
  | block
deriving DecidableEq

/-- The data of `New-KillSwitchFirewallRuleData`, and whether the rule is enabled. -/
structure FirewallRule where
  name : String
  displayName : String
  direction : Direction
  action : RuleAction
  enabled : Bool
  remoteAddress : List String
  protocol : String
  localPort : Option ℕ
  description : String
deriving DecidableEq

/-- The states of a network adapter that the script tells apart. -/
inductive AdapterStatus where
  | up
  | disconnected
  | disabled
deriving DecidableEq

/-- What the script reads of a network adapter. -/
structure Adapter where
  name : String
  status : AdapterStatus
deriving DecidableEq

/-- A registered task with the one action it has. -/
structure ScheduledTask where
  taskName : String
  execute : String
  argument : String
deriving DecidableEq

/-- What the activation reads and changes on the machine. -/
structure Host where
  profiles : ProfileName → FirewallProfile
  rules : List FirewallRule
  adapters : List Adapter
  tasks : List ScheduledTask
  /-- The values of the registry key of the quarantine flag. -/
  quarantine : List (String × String)

/-- `Get-NetFirewallRule -Name`. -/
def Host.rulesNamed (host : Host) (name : String) : List FirewallRule :=
  host.rules.filter fun rule => cf.equal rule.name name

/-- `Remove-NetFirewallRule -Name`. -/
def Host.removeRules (host : Host) (name : String) : Host :=
  { host with rules := host.rules.filter fun rule => !cf.equal rule.name name }

/-- `Unregister-ScheduledTask -TaskName`. -/
def Host.unregister (host : Host) (name : String) : Host :=
  { host with tasks := host.tasks.filter fun task => !cf.equal task.taskName name }

/-- `Register-ScheduledTask -Force`. -/
def Host.register (host : Host) (task : ScheduledTask) : Host :=
  { host with tasks := (host.tasks.filter fun other => !cf.equal other.taskName task.taskName) ++ [task] }

/-- `Get-NetAdapter | Where-Object { $_.Status -eq 'Up' } | ForEach-Object { [string]$_.Name }`. -/
def Host.upAdapters (host : Host) : List String :=
  (host.adapters.filter fun adapter => adapter.status = .up).map (·.name)

/-- `Disable-NetAdapter -Name`. -/
def Host.disableAdapter (host : Host) (name : String) : Host :=
  { host with adapters := host.adapters.map fun adapter =>
      if cf.equal adapter.name name then { adapter with status := .disabled } else adapter }

/-- `Set-NetFirewallProfile -All`, as far as it has come: on the given profiles. -/
def Host.isolate (host : Host) (reached : ProfileName → Bool) : Host :=
  { host with profiles := fun name => if reached name then .isolated else host.profiles name }

/-! ## Snapshots -/

/-- An entry of `$ManagedRules`. -/
structure ManagedRule where
  name : String
  direction : Direction
  action : RuleAction
deriving DecidableEq

/-- An entry of `Profiles` in the snapshot. -/
structure SnapshotProfile where
  name : String
  enabled : Bool
  defaultInboundAction : String
  defaultOutboundAction : String
deriving DecidableEq

/-- The object that is stored for the rollback. -/
structure Snapshot where
  version : ℕ
  profiles : List SnapshotProfile
  adapters : List String
  managedRules : List ManagedRule
deriving DecidableEq

/-- `ConvertTo-Json -Depth 4 -Compress` and `ConvertFrom-Json`. What is read back as a snapshot is the
    snapshot that was written; values that come back with another type are not read as one. -/
structure SnapshotJson where
  convertTo : Snapshot → String
  convertFrom : String → Option Snapshot
  roundTrip : ∀ {snapshot other}, convertFrom (convertTo snapshot) = some other → other = snapshot

/-! ## Environment of a run -/

/-- What a run takes from its parameters and its configuration. -/
structure Effective where
  reason : String
  user : String
  includeUserInRegistry : Bool
  rulePrefix : String
  taskName : String
  disableAdapters : Bool
  breakGlassRemoteAddress : List String
  breakGlassLocalPort : ℕ
  autoRollbackMinutes : ℕ
  rulePrefix_accepted : acceptsName cf 64 rulePrefix = true
  taskName_accepted : acceptsName cf 128 taskName = true
  minutes_le : autoRollbackMinutes ≤ 1440

/-- The calls of `ShouldProcess`. -/
inductive Prompt where
  | captureSnapshot
  | scheduleTask
  | createRules
  | createRule (name : String)
  | setProfiles
  | writeFlag
  | disableAdapters
deriving DecidableEq

/-- The calls of cmdlets, each where it stands in the script. -/
inductive Invocation where
  /-- The calls of `Enter-KillSwitchRemediationLock`. -/
  | enterLock
  /-- `Get-NetFirewallRule` and `Get-ScheduledTask` of the inventory. -/
  | inventoryRules
  | inventoryTasks
  /-- `Get-NetFirewallProfile`, `Get-NetAdapter` and the conversions of the capture. -/
  | captureProfiles
  | captureAdapters
  | convertToJson
  | verifyFromJson
  | adaptersFromJson
  /-- `Get-Date` of `Schedule-AutoRollback`. -/
  | rollbackTime
  /-- `Join-Path` and `Get-Item` of `Resolve-CanonicalWindowsPowerShellPath`. -/
  | resolvePowerShell
  /-- `New-ScheduledTaskAction`, `New-ScheduledTaskTrigger`, `New-ScheduledTaskSettingsSet`. -/
  | newTaskDefinition
  | registerTask
  /-- `Write-UiLine` behind the registration. -/
  | announceTask
  /-- `Get-NetFirewallRule` before the creation of a rule. -/
  | existingRules (name : String)
  | newRule (name : String)
  | createdRules (name : String)
  /-- `Remove-NetFirewallRule` of `Remove-ExactJustCreatedFirewallRule`. -/
  | removeCreatedRule (name : String)
  | setProfiles
  /-- `New-Item`, and `Set-ItemProperty` for a value. -/
  | newFlagKey
  | setFlagValue (name : String)
  /-- `Get-NetAdapter` of `Disable-KillSwitchNetworkAdapters`. -/
  | listAdapters
  /-- `Disable-NetAdapter`, in the given round. -/
  | disableAdapter (round : ℕ)
  | unregisterTask
  /-- `Get-NetFirewallRule` and `Remove-NetFirewallRule` of `Remove-ExactManagedFirewallRules`. -/
  | managedRules (name : String)
  | removeManagedRules (name : String)
  /-- `Get-Date` and the console lines behind a finished activation. -/
  | reportCompletion
  /-- The console lines behind a failed one. -/
  | reportFailure
  /-- `Get-Date` and `New-TimeSpan` of the summary, and its console lines. -/
  | summaryTime
  | summaryLines
deriving DecidableEq

/-- What a run finds outside the script. -/
structure Environment where
  effective : Effective cf
  rollbackRunId : RunId
  isAdmin : Bool
  /-- Another remediation holds the lock. -/
  lockHeld : Bool
  json : SnapshotJson
  powerShellPath : String
  time : String
  accepts : Prompt → Bool
  fault : Invocation → Option String
  /-- The profiles that `Set-NetFirewallProfile -All` has changed where it fails. -/
  reached : ProfileName → Bool

/-! ## Run state -/

/-- `Run.Actions`, without the entries that no modelled function writes. -/
structure Actions where
  registryWritten : Bool := false
  firewallProfileSet : Bool := false
  rulesCreated : Bool := false
  breakGlassApplied : Bool := false
  adaptersDisabled : Bool := false
  rollbackStateCaptured : Bool := false
  rollbackScheduled : Bool := false
  confirmDeclined : Bool := false
deriving DecidableEq

/-- `$RunState` and the host. `profilesSet` is history: `Set-NetFirewallProfile` has succeeded. -/
structure RunState where
  host : Host
  actions : Actions := {}
  isolationActive : Bool := false
  errors : List String := []
  findings : List String := []
  rollbackSnapshotJson : Option String := none
  rollbackSnapshotEmbedded : Bool := false
  adapterNamesToDisable : List String := []
  createdManagedRules : List ManagedRule := []
  firewallActivationCommitted : Bool := false
  profilesSet : Bool := false

/-- A part of the script. -/
abbrev Run := EStateM String RunState

/-- `Add-RunError`. -/
def addRunError (message : String) : Run Unit :=
  modify fun s => { s with errors := s.errors ++ [message] }

/-- `Add-Finding`, with the code of the finding. -/
def addFinding (code : String) : Run Unit :=
  modify fun s => { s with findings := s.findings ++ [code] }

variable {cf} (env : Environment cf)

/-- `ShouldProcess`. -/
def Environment.shouldProcess (prompt : Prompt) : Bool := env.accepts prompt

/-- A cmdlet that changes nothing, and what it returns. -/
def query {α : Type} (site : Invocation) (f : Host → α) : Run α := do
  match env.fault site with
  | some message => throw message
  | none => return f (← get).host

/-- A cmdlet that changes the host. It changes nothing where it fails. -/
def invoke (site : Invocation) (f : Host → Except String Host) : Run Unit := do
  match env.fault site with
  | some message => throw message
  | none =>
    let s ← get
    let host ← check (f s.host)
    set { s with host }

end BaselineOps.KillSwitch
