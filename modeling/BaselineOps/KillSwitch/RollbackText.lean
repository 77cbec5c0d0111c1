import Mathlib
import BaselineOps.KillSwitch.Snapshot
import BaselineOps.Lib.Base64
import BaselineOps.Lib.PowerShell

/-!
# The rollback script

`Schedule-AutoRollback` (`21-EmergencyKillSwitch.runtime.ps1`, lines 215–320): the script that is written
into the scheduled task, and its registration.

The handler of `Enable-NetAdapter` reports `"Network adapter $adapterName: …"`. A colon behind the name of
a variable begins a scope or a drive, and a blank cannot follow.

* `rollbackScript_not_wellFormed`: the script is no PowerShell, whatever is written into it.
-/

namespace BaselineOps.KillSwitch

open BaselineOps.Domain BaselineOps.Lib

variable {cf : CaseFold} (env : Environment cf)

/-! ## Text -/

/-- The text up to the name of the log file. -/
def rollbackHead : List String := [
    "$ErrorActionPreference = 'Stop'\n",
    "$logPath = Join-Path ([System.IO.Path]::GetTempPath()) '"]

/-- The text between the name of the log file and the snapshot. -/
def rollbackDecode : List String := [
    "'\n",
    "function Write-RollbackLog \x7b param([string]$Message) try \x7b Add-Content -Path ",
    "$logPath -Value \"$(Get-Date -Format 'yyyy-MM-dd HH:mm:ss') $Message\" \x7d catch ",
    "\x7b <# best-effort: log file may not be writable #> \x7d \x7d\n",
    "try \x7b\n",
    "  Write-RollbackLog 'Starting rollback...'\n",
    "  $snapshotJson = [System.Text.Encoding]::UTF8.GetString([Convert]::FromBase64",
    "String('"]

/-- The text between the snapshot and the name of the task. -/
def rollbackBody : List String := [
    "'))\n",
    "  $saved = $snapshotJson | ConvertFrom-Json -ErrorAction Stop\n",
    "  $requiredNames = @('Domain', 'Private', 'Public'); $requiredFields = ",
    "@('Name', 'Enabled', 'DefaultInboundAction', 'DefaultOutboundAction'); ",
    "$validActions = @('Allow', 'Block', 'NotConfigured')\n",
    "  if (@($saved.PSObject.Properties.Name).Count -ne 4 -or ",
    "@($saved.PSObject.Properties.Name | Where-Object \x7b @('Version', 'Profiles', ",
    "'Adapters', 'ManagedRules') -notcontains $_ \x7d).Count -ne 0 -or ",
    "[int]$saved.Version -ne 3 -or @($saved.Profiles).Count -ne 3 -or ",
    "@($saved.Adapters).Count -gt 128) \x7b throw 'Embedded firewall snapshot has an ",
    "invalid schema.' \x7d\n",
    "  $seen = @\x7b\x7d\n",
    "  foreach ($s in @($saved.Profiles)) \x7b\n",
    "    if ($null -eq $s -or @($s.PSObject.Properties.Name).Count -ne ",
    "$requiredFields.Count -or @($s.PSObject.Properties.Name | Where-Object \x7b ",
    "$requiredFields -notcontains $_ \x7d).Count -ne 0) \x7b throw 'Embedded firewall ",
    "snapshot profile has missing or unexpected fields.' \x7d\n",
    "    if ($requiredNames -notcontains [string]$s.Name -or ",
    "$seen.ContainsKey([string]$s.Name)) \x7b throw 'Embedded firewall snapshot has ",
    "unknown or duplicate profile names.' \x7d\n",
    "    if ($s.Enabled -isnot [bool] -or $validActions -notcontains ",
    "[string]$s.DefaultInboundAction -or $validActions -notcontains ",
    "[string]$s.DefaultOutboundAction) \x7b throw 'Embedded firewall snapshot ",
    "contains invalid profile values.' \x7d\n",
    "    $seen[[string]$s.Name] = $true\n",
    "  \x7d\n",
    "  if (@($seen.Keys | Where-Object \x7b $requiredNames -contains $_ \x7d).Count -ne ",
    "3) \x7b throw 'Embedded firewall snapshot is missing required profiles.' \x7d\n",
    "  $seenAdapters = @\x7b\x7d\n",
    "  foreach ($adapterName in @($saved.Adapters)) \x7b\n",
    "    if ($adapterName -isnot [string] -or [string]::IsNullOrWhiteSpace($adapter",
    "Name) -or $adapterName.Length -gt 256 -or $adapterName -match '[\\x00-\\x1f]' ",
    "-or $seenAdapters.ContainsKey($adapterName)) \x7b throw 'Embedded firewall ",
    "snapshot contains an invalid or duplicate adapter name.' \x7d\n",
    "    $seenAdapters[$adapterName] = $true\n",
    "  \x7d\n",
    "  $seenRules = @\x7b\x7d\n",
    "  foreach ($managedRule in @($saved.ManagedRules)) \x7b\n",
    "    if ($null -eq $managedRule -or @($managedRule.PSObject.Properties.Name).Co",
    "unt -ne 3 -or @($managedRule.PSObject.Properties.Name | Where-Object \x7b ",
    "@('Name', 'Direction', 'Action') -notcontains $_ \x7d).Count -ne 0 -or ",
    "$managedRule.Name -isnot [string] -or $managedRule.Name -notmatch ",
    "'^[A-Za-z0-9_-]+$' -or $seenRules.ContainsKey($managedRule.Name) -or ",
    "@('Inbound','Outbound') -notcontains [string]$managedRule.Direction -or ",
    "@('Allow','Block') -notcontains [string]$managedRule.Action) \x7b throw ",
    "'Embedded firewall snapshot contains invalid managed rule identities.' \x7d\n",
    "    $seenRules[$managedRule.Name] = $true\n",
    "  \x7d\n",
    "  $rollbackErrors = New-Object System.Collections.Generic.List[string]\n",
    "  foreach ($s in @($saved.Profiles)) \x7b\n",
    "    try \x7b Set-NetFirewallProfile -Name $s.Name -Enabled $s.Enabled ",
    "-DefaultInboundAction $s.DefaultInboundAction -DefaultOutboundAction ",
    "$s.DefaultOutboundAction -ErrorAction Stop \x7d\n",
    "    catch \x7b [void]$rollbackErrors.Add(\"Firewall profile $($s.Name): ",
    "$($_.Exception.Message)\") \x7d\n",
    "  \x7d\n",
    "  Write-RollbackLog 'Firewall profiles restored from embedded pre-kill-switch ",
    "snapshot'\n",
    "  foreach ($adapterName in @($saved.Adapters)) \x7b\n",
    "    try \x7b Enable-NetAdapter -Name $adapterName -Confirm:$false -ErrorAction ",
    "Stop \x7d\n",
    "    catch \x7b [void]$rollbackErrors.Add(\"Network adapter $adapterName: ",
    "$($_.Exception.Message)\") \x7d\n",
    "  \x7d\n",
    "  if (@($saved.Adapters).Count -gt 0) \x7b Write-RollbackLog 'Network adapters ",
    "disabled by the kill switch were re-enabled' \x7d\n",
    "  foreach ($managedRule in @($saved.ManagedRules)) \x7b\n",
    "    try \x7b\n",
    "      $existingRules = @(Get-NetFirewallRule -Name $managedRule.Name ",
    "-ErrorAction SilentlyContinue | Where-Object \x7b $null -ne $_ \x7d)\n",
    "      $ownedRules = @($existingRules | Where-Object \x7b [string]$_.Name -eq ",
    "[string]$managedRule.Name -and [string]$_.Direction -eq ",
    "[string]$managedRule.Direction -and [string]$_.Action -eq ",
    "[string]$managedRule.Action \x7d)\n",
    "      if ($ownedRules.Count -ne $existingRules.Count) \x7b throw \"Rule identity ",
    "mismatch; refusing removal of $($managedRule.Name).\" \x7d\n",
    "      if ($ownedRules.Count -gt 0) \x7b $ownedRules | Remove-NetFirewallRule ",
    "-ErrorAction Stop \x7d\n",
    "    \x7d catch \x7b\n",
    "      [void]$rollbackErrors.Add(\"Rule $($managedRule.Name) removal: ",
    "$($_.Exception.Message)\")\n",
    "    \x7d\n",
    "  \x7d\n",
    "  Write-RollbackLog 'Kill switch rules removed or already absent'\n",
    "  if ($rollbackErrors.Count -gt 0) \x7b throw ($rollbackErrors -join '; ') \x7d\n",
    "  Unregister-ScheduledTask -TaskName '"]

/-- The text behind the name of the task. -/
def rollbackTail : List String := [
    "' -Confirm:$false -ErrorAction Stop\n",
    "  Write-RollbackLog 'Rollback task removed'\n",
    "  Write-RollbackLog 'Rollback completed successfully'\n",
    "\x7d catch \x7b\n",
    "  Write-RollbackLog \"ERROR: $($_.Exception.Message)\"\n",
    "  exit 1\n",
    "\x7d"]

/-- The characters of a text that is given in pieces. -/
def pieces (texts : List String) : List Char := texts.flatMap (·.toList)

/-- `$rollbackPs`. -/
def rollbackPs (logFileName snapshotEncoded taskName : List Char) : List Char :=
  pieces rollbackHead ++ logFileName ++ pieces rollbackDecode ++ snapshotEncoded ++ pieces rollbackBody ++
    taskName ++ pieces rollbackTail

/-- `"KillSwitch-Rollback-$($TaskName -replace '[^a-zA-Z0-9]', '').log"`. -/
def logFileName (cf : CaseFold) (taskName : String) : List Char :=
  pieces ["KillSwitch-Rollback-"] ++ taskName.toList.filter (cf.inClass (letters ++ digits)) ++ pieces [".log"]

/-- `[Convert]::ToBase64String([System.Text.Encoding]::UTF8.GetBytes($SnapshotJson))`. -/
def snapshotEncoded (snapshotJson : String) : List Char := Base64.encode (utf8 snapshotJson)

/-- The script for a task and a snapshot. -/
@[irreducible] def rollbackScript (cf : CaseFold) (taskName snapshotJson : String) : List Char :=
  rollbackPs (logFileName cf taskName) (snapshotEncoded snapshotJson) taskName.toList

/-- `[System.Text.Encoding]::Unicode.GetBytes`. -/
def unicodeBytes (text : List Char) : List UInt8 :=
  (Utf16.encode text).flatMap fun unit => [UInt8.ofNat unit.toNat, UInt8.ofNat (unit.toNat / 256)]

/-- `$actionArguments`. -/
def rollbackArguments (script : List Char) : List Char :=
  "-NoProfile -NonInteractive -ExecutionPolicy Bypass -EncodedCommand ".toList ++
    Base64.encode (unicodeBytes script)

theorem hasCase_of_isSingleQuote {c : Char} (h : PowerShell.isSingleQuote c = true) : hasCase c = false := by
  unfold PowerShell.isSingleQuote at h
  rw [Bool.or_eq_true, Bool.and_eq_true, decide_eq_true_eq, decide_eq_true_eq, decide_eq_true_eq] at h
  obtain rfl | ⟨hlow, hhigh⟩ := h
  · decide
  · have halpha : c.isAlpha = false := by
      simp only [Char.isAlpha, Char.isUpper, Char.isLower, UInt32.le_iff_toNat_le, ge_iff_le]
      have hval : c.val.toNat = c.toNat := rfl
      simp only [hval, Bool.or_eq_false_iff, Bool.and_eq_false_iff, decide_eq_false_iff_not]
      have hupper : 'Z'.val.toNat = 90 := rfl
      have hlower : 'z'.val.toNat = 122 := rfl
      omega
    unfold hasCase
    rw [halpha]
    simp only [Bool.false_or, Bool.and_eq_false_iff, decide_eq_false_iff_not, Bool.not_eq_eq_eq_not,
      Bool.not_false, Bool.and_eq_true, decide_eq_true_eq]
    omega

/-- A class of characters that are no quotes has none in either case. -/
theorem isSingleQuote_of_inClass {members : List Char} (h : members.all (!PowerShell.isSingleQuote ·) = true)
    {c : Char} (hc : cf.inClass members c = true) : PowerShell.isSingleQuote c = false := by
  by_contra hquote
  rw [Bool.not_eq_false] at hquote
  obtain ⟨m, hm, hfold⟩ := List.any_eq_true.mp hc
  have hmc : m = c := cf.caseless (hasCase_of_isSingleQuote hquote) (of_decide_eq_true hfold).symm
  have hmember := List.all_eq_true.mp h m hm
  rw [hmc, hquote] at hmember
  cases hmember

theorem isSingleQuote_of_mem_logFileName {taskName : String} {c : Char} (hc : c ∈ logFileName cf taskName) :
    PowerShell.isSingleQuote c = false := by
  have hbegin : (pieces ["KillSwitch-Rollback-"]).all (!PowerShell.isSingleQuote ·) = true := by decide +kernel
  have hend : (pieces [".log"]).all (!PowerShell.isSingleQuote ·) = true := by decide +kernel
  have hclass : (letters ++ digits).all (!PowerShell.isSingleQuote ·) = true := by decide +kernel
  rw [logFileName, List.mem_append, List.mem_append] at hc
  rcases hc with (hc | hc) | hc
  · simpa using List.all_eq_true.mp hbegin c hc
  · exact isSingleQuote_of_inClass hclass (List.mem_filter.mp hc).2
  · simpa using List.all_eq_true.mp hend c hc

theorem isSingleQuote_of_mem_snapshotEncoded {snapshotJson : String} {c : Char}
    (hc : c ∈ snapshotEncoded snapshotJson) : PowerShell.isSingleQuote c = false := by
  have hall : ('=' :: Base64.alphabet).all (!PowerShell.isSingleQuote ·) = true := by decide +kernel
  simpa using List.all_eq_true.mp hall c (Base64.mem_encode hc)

/-- The literals and their characters. The kernel compares the two without decoding UTF-8. -/
inductive Spelled : List String → List (List Char) → Prop where
  | nil : Spelled [] []
  | cons {texts : List String} {words : List (List Char)} (word : List Char) (h : Spelled texts words) :
      Spelled (String.ofList word :: texts) (word :: words)

theorem pieces_of_spelled {texts : List String} {words : List (List Char)} (h : Spelled texts words) :
    pieces texts = words.flatten := by
  induction h with
  | nil => rfl
  | cons word h ih => rw [pieces, List.flatMap_cons, String.toList_ofList, List.flatten_cons, ← ih, pieces]

theorem scan_pieces {stack : PowerShell.Stack} {texts : List String} {words : List (List Char)}
    {result : Option PowerShell.Stack} (h : Spelled texts words)
    (hscan : PowerShell.scan stack words.flatten = result) :
    PowerShell.scan stack (pieces texts) = result := by
  rw [pieces_of_spelled h, hscan]

theorem scan_rollbackHead : PowerShell.scan [] (pieces rollbackHead) = some [.literal] := by
  apply scan_pieces
  · unfold rollbackHead
    repeat constructor
  · decide +kernel

theorem scan_rollbackDecode : PowerShell.scan [.literal] (pieces rollbackDecode) =
    some [.literal, .paren, .paren, .brace] := by
  apply scan_pieces
  · unfold rollbackDecode
    repeat constructor
  · decide +kernel

/-- The scanner stops behind `"Network adapter $adapterName:`. -/
theorem scan_rollbackBody :
    PowerShell.scan [.literal, .paren, .paren, .brace] (pieces rollbackBody) = none := by
  apply scan_pieces
  · unfold rollbackBody
    repeat constructor
  · decide +kernel

/-- The script is no PowerShell, whatever name and snapshot are written into it. -/
theorem rollbackScript_not_wellFormed (taskName snapshotJson : String) :
    PowerShell.wellFormed (rollbackScript cf taskName snapshotJson) = false := by
  unfold rollbackScript rollbackPs
  rw [List.append_assoc]
  apply PowerShell.wellFormed_of_scan_none
  rw [PowerShell.scan_append, PowerShell.scan_append, PowerShell.scan_append, PowerShell.scan_append,
    scan_rollbackHead, Option.bind_some, PowerShell.scan_literal fun _ => isSingleQuote_of_mem_logFileName,
    Option.bind_some, scan_rollbackDecode, Option.bind_some,
    PowerShell.scan_literal fun _ => isSingleQuote_of_mem_snapshotEncoded, Option.bind_some, scan_rollbackBody]

/-! ## Registration -/

/-- The registration in `Schedule-AutoRollback` (lines 305–317). -/
def registerRollbackTask (taskName : String) (arguments : List Char) : Run Unit := do
  let powerShellPath ← query env .resolvePowerShell fun _ => env.powerShellPath
  let task ← query env .newTaskDefinition fun _ =>
    (⟨taskName, powerShellPath, String.ofList arguments⟩ : ScheduledTask)
  invoke env .registerTask fun host => .ok (host.register cf task)

/-- The end of `Schedule-AutoRollback` (lines 298–319): the length of the command, the registration and its
    announcement. -/
def registerWithinLimit (taskName : String) (arguments : List Char) : Run Bool :=
  if 30000 < arguments.length then do
    addRunError ("Auto-rollback scheduled-task command exceeds the 30000-character safety limit (" ++
      toString arguments.length ++ ").")
    return false
  else do
    match ← attempt (registerRollbackTask env taskName arguments) with
    | .error message =>
      addRunError ("Auto-rollback schedule failed: " ++ message)
      return false
    | .ok _ =>
      query env .announceTask fun _ => ()
      return true

/-- The binding of the mandatory parameter `SnapshotJson`, where null becomes the empty text. -/
def bindSnapshotJson (snapshotJson : Option String) : Except String String :=
  if snapshotJson.getD "" = "" then
    .error "Cannot bind argument to parameter 'SnapshotJson' because it is an empty string."
  else .ok (snapshotJson.getD "")

/-- `Schedule-AutoRollback`. -/
def scheduleAutoRollback (minutes : ℕ) (taskName : String) (rules : List ManagedRule)
    (snapshotJson : Option String) : Run Bool := do
  let snapshotJson ← check (bindSnapshotJson snapshotJson)
  if minutes = 0 then return false
  else if matchesName cf taskName = false then
    addRunError ("Schedule-AutoRollback: TaskName '" ++ taskName ++
      "' contains invalid characters (allowed: a-z A-Z 0-9 - _)")
    return false
  else
    match assertManagedFirewallRules cf rules with
    | .error message =>
      addRunError ("Schedule-AutoRollback: invalid managed rule identities: " ++ message)
      return false
    | .ok _ =>
      query env .rollbackTime fun _ => ()
      registerWithinLimit env taskName (rollbackArguments (rollbackScript cf taskName snapshotJson))

end BaselineOps.KillSwitch
