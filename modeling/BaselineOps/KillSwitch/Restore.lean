import Mathlib
import BaselineOps.KillSwitch.Rollback

/-!
# What the rollback script does

The body of the script, as a run of its own: the profiles and adapters of the snapshot, the rules of the
activation, and the task behind them if nothing has failed. PowerShell parses a script before it runs any of
it, so the call `read` stands for the parser as well.

* `rollback_profiles`: a completed rollback restores the profiles that were captured.
* `rollback_tasks`: the task goes with a completed rollback only.
-/

namespace BaselineOps.KillSwitch

open BaselineOps.Domain BaselineOps.Lib

variable {cf : CaseFold}

/-- The calls of the script. -/
inductive RollbackCall where
  /-- The parser, and what comes before the first change: the decoding and the checks of the snapshot. -/
  | read
  | setProfile (name : String)
  | enableAdapter (name : String)
  | findRules (name : String)
  | removeRules (name : String)
  | unregister
deriving DecidableEq

/-- The names and actions that a capture writes. -/
def ProfileName.ofText (text : String) : Option ProfileName := ProfileName.all.find? fun name => name.text = text

/-- The action of a text. -/
def DefaultAction.ofText (text : String) : Option DefaultAction :=
  [DefaultAction.allow, .block, .notConfigured].find? fun action => action.text = text

/-- `Set-NetFirewallProfile -Name`. -/
def Host.setProfile (host : Host) (name : ProfileName) (profile : FirewallProfile) : Host :=
  { host with profiles := Function.update host.profiles name profile }

/-- `Enable-NetAdapter -Name`. -/
def Host.enableAdapter (cf : CaseFold) (host : Host) (name : String) : Host :=
  { host with adapters := host.adapters.map fun adapter =>
      if cf.equal adapter.name name then { adapter with status := .up } else adapter }

/-! ## The body of the script -/

variable (cf) (fault : RollbackCall → Bool)

/-- A round over the profiles, and whether it notes no error. -/
def restoreProfile (host : Host) (saved : SnapshotProfile) : Host × Bool :=
  match fault (.setProfile saved.name), ProfileName.ofText saved.name, DefaultAction.ofText saved.defaultInboundAction,
      DefaultAction.ofText saved.defaultOutboundAction with
  | false, some name, some inbound, some outbound => (host.setProfile name ⟨some saved.enabled, inbound, outbound⟩, true)
  | _, _, _, _ => (host, false)

/-- A round over the adapters. -/
def restoreAdapter (host : Host) (name : String) : Host × Bool :=
  if fault (.enableAdapter name) = false ∧ (host.adapters.any fun adapter => cf.equal adapter.name name) = true then
    (host.enableAdapter cf name, true)
  else (host, false)

/-- A round over the rules. The search for the rules is silent. -/
def restoreRule (host : Host) (rule : ManagedRule) : Host × Bool :=
  let existing := if fault (.findRules rule.name) then [] else host.rulesNamed cf rule.name
  let owned := existing.filter (rule.owns cf)
  if owned.length ≠ existing.length then (host, false)
  else if owned = [] then (host, true)
  else if fault (.removeRules rule.name) then (host, false)
  else (host.removeRules cf rule.name, true)

/-- The rounds of a loop: each is done, whatever the ones before it have noted. -/
def rounds {α : Type} (round : Host → α → Host × Bool) : List α → Host × Bool → Host × Bool
  | [], s => s
  | item :: items, s => rounds round items ((round s.1 item).1, s.2 && (round s.1 item).2)

/-- The three loops. -/
def restore (snapshot : Snapshot) (host : Host) : Host × Bool :=
  rounds (restoreRule cf fault) snapshot.managedRules
    (rounds (restoreAdapter cf fault) snapshot.adapters
      (rounds (restoreProfile fault) snapshot.profiles (host, true)))

/-- The script of a task, and whether it is completed. -/
def rollback (snapshot : Snapshot) (taskName : String) (host : Host) : Host × Bool :=
  if fault .read then (host, false)
  else
    let s := restore cf fault snapshot host
    if s.2 = false then s
    else if fault .unregister = false ∧ (s.1.tasks.any fun task => cf.equal task.taskName taskName) = true then
      (s.1.unregister cf taskName, true)
    else (s.1, false)

/-! ## Profiles -/

variable {cf} {fault} {host after : Host} {s : Host × Bool}

/-- A completed loop has completed each round. -/
theorem rounds_snd {α : Type} {round : Host → α → Host × Bool} {items : List α}
    (h : (rounds round items s).2 = true) : s.2 = true := by
  induction items generalizing s with
  | nil => exact h
  | cons item items ih =>
    have hstep : (s.2 && (round s.1 item).2) = true := ih h
    rw [Bool.and_eq_true] at hstep
    exact hstep.1

theorem rounds_keeps {α β : Type} {round : Host → α → Host × Bool} {f : Host → β}
    (hround : ∀ host item, f (round host item).1 = f host) (items : List α) (s : Host × Bool) :
    f (rounds round items s).1 = f s.1 := by
  induction items generalizing s with
  | nil => rfl
  | cons item items ih =>
    rw [rounds, ih]
    exact hround s.1 item

theorem restoreAdapter_frame (host : Host) (name : String) :
    (restoreAdapter cf fault host name).1.profiles = host.profiles ∧
      (restoreAdapter cf fault host name).1.tasks = host.tasks := by
  unfold restoreAdapter
  split_ifs <;> exact ⟨rfl, rfl⟩

theorem restoreRule_frame (host : Host) (rule : ManagedRule) :
    (restoreRule cf fault host rule).1.profiles = host.profiles ∧
      (restoreRule cf fault host rule).1.tasks = host.tasks := by
  unfold restoreRule
  dsimp only
  split_ifs <;> exact ⟨rfl, rfl⟩

theorem restoreProfile_tasks (host : Host) (saved : SnapshotProfile) :
    (restoreProfile fault host saved).1.tasks = host.tasks := by
  unfold restoreProfile
  split <;> rfl

/-- The entry of a snapshot for a profile that is configured. -/
def SnapshotProfile.of (profiles : ProfileName → FirewallProfile) (enabled : ProfileName → Bool) (name : ProfileName) :
    SnapshotProfile :=
  ⟨name.text, enabled name, (profiles name).defaultInboundAction.text, (profiles name).defaultOutboundAction.text⟩

theorem ofText_profileName (name : ProfileName) : ProfileName.ofText name.text = some name := by
  cases name <;> decide

theorem ofText_defaultAction (action : DefaultAction) : DefaultAction.ofText action.text = some action := by
  cases action <;> decide

theorem restoreProfile_of {profiles : ProfileName → FirewallProfile} {enabled : ProfileName → Bool}
    {name : ProfileName} (h : (restoreProfile fault host (.of profiles enabled name)).2 = true) :
    (restoreProfile fault host (.of profiles enabled name)).1 =
      host.setProfile name ⟨some (enabled name), (profiles name).defaultInboundAction,
        (profiles name).defaultOutboundAction⟩ := by
  unfold restoreProfile at h ⊢
  simp only [SnapshotProfile.of, ofText_profileName, ofText_defaultAction] at h ⊢
  cases hfault : fault (.setProfile name.text) with
  | true =>
    rw [hfault] at h
    cases h
  | false => rfl

/-- A completed loop over profiles of a capture restores them, and only them. -/
theorem rounds_restoreProfile {profiles : ProfileName → FirewallProfile} {enabled : ProfileName → Bool}
    (henabled : ∀ name, (profiles name).enabled = some (enabled name)) {names : List ProfileName}
    (h : (rounds (restoreProfile fault) (names.map (.of profiles enabled)) s).2 = true) (name : ProfileName) :
    (rounds (restoreProfile fault) (names.map (.of profiles enabled)) s).1.profiles name =
      if name ∈ names then profiles name else s.1.profiles name := by
  induction names generalizing s with
  | nil => rfl
  | cons first names ih =>
    rw [List.map_cons, rounds] at h ⊢
    rw [ih h]
    have hfirst := rounds_snd h
    rw [Bool.and_eq_true] at hfirst
    rw [restoreProfile_of hfirst.2, ← henabled first]
    by_cases hmem : name ∈ names
    · rw [if_pos hmem, if_pos (List.mem_cons_of_mem _ hmem)]
    · rw [if_neg hmem]
      show Function.update s.1.profiles first (profiles first) name = _
      by_cases hsame : name = first
      · subst hsame
        rw [Function.update_self, if_pos List.mem_cons_self]
      · rw [Function.update_of_ne hsame, if_neg fun hcons => (List.mem_cons.mp hcons).elim hsame hmem]

/-- What a capture of the profiles has seen. -/
theorem profiles_of_snapshotOf {env : Environment cf} {snapshot : Snapshot} (h : env.snapshotOf host = .ok snapshot) :
    ∃ enabled : ProfileName → Bool, (∀ name, (host.profiles name).enabled = some (enabled name)) ∧
      snapshot.profiles = ProfileName.all.map (.of host.profiles enabled) := by
  have hentry : ∀ {name : ProfileName} {saved : SnapshotProfile}, snapshotProfile host.profiles name = .ok saved →
      (host.profiles name).enabled = some ((host.profiles name).enabled.getD false) ∧
        saved = .of host.profiles (fun name => (host.profiles name).enabled.getD false) name := by
    intro name saved hsaved
    unfold snapshotProfile at hsaved
    cases henabled : (host.profiles name).enabled with
    | none =>
      rw [henabled] at hsaved
      cases hsaved
    | some enabled =>
      rw [henabled] at hsaved
      obtain rfl := Except.ok.inj hsaved
      refine ⟨rfl, ?_⟩
      rw [SnapshotProfile.of, henabled]
      rfl
  rw [Environment.snapshotOf, except_bind_ok_iff] at h
  obtain ⟨saved, hsaved, h⟩ := h
  simp only [ProfileName.all, List.mapM_cons, List.mapM_nil, except_bind_ok_iff] at hsaved
  obtain ⟨domainEntry, hdomain, rest, ⟨privateEntry, hprivate, rest', ⟨publicEntry, hpublic, _, hnil, hrest'⟩, hrest⟩,
    hall⟩ := hsaved
  refine ⟨fun name => (host.profiles name).enabled.getD false, fun name => ?_, ?_⟩
  · cases name with
    | domainProfile => exact (hentry hdomain).1
    | privateProfile => exact (hentry hprivate).1
    | publicProfile => exact (hentry hpublic).1
  · obtain rfl := Except.ok.inj hnil
    obtain rfl := Except.ok.inj hrest'
    obtain rfl := Except.ok.inj hrest
    obtain rfl := Except.ok.inj hall
    obtain rfl := Except.ok.inj h
    rw [(hentry hdomain).2, (hentry hprivate).2, (hentry hpublic).2]
    rfl

theorem restore_tasks (snapshot : Snapshot) (host : Host) : (restore cf fault snapshot host).1.tasks = host.tasks := by
  unfold restore
  rw [rounds_keeps (f := (·.tasks)) fun host rule => (restoreRule_frame host rule).2,
    rounds_keeps (f := (·.tasks)) fun host name => (restoreAdapter_frame host name).2,
    rounds_keeps (f := (·.tasks)) restoreProfile_tasks]

theorem restore_profiles {env : Environment cf} {snapshot : Snapshot} (hcaptured : env.snapshotOf host = .ok snapshot)
    (h : (restore cf fault snapshot after).2 = true) :
    (restore cf fault snapshot after).1.profiles = host.profiles := by
  obtain ⟨enabled, henabled, hprofiles⟩ := profiles_of_snapshotOf hcaptured
  unfold restore at h ⊢
  have hgood := rounds_snd (rounds_snd h)
  rw [rounds_keeps (f := (·.profiles)) fun host rule => (restoreRule_frame host rule).1,
    rounds_keeps (f := (·.profiles)) fun host name => (restoreAdapter_frame host name).1]
  rw [hprofiles] at hgood ⊢
  funext name
  rw [rounds_restoreProfile henabled hgood, if_pos (by cases name <;> decide)]

/-- A completed rollback restores the profiles of the capture. -/
theorem rollback_profiles {env : Environment cf} {snapshot : Snapshot} {taskName : String}
    (hcaptured : env.snapshotOf host = .ok snapshot) (h : (rollback cf fault snapshot taskName after).2 = true) :
    (rollback cf fault snapshot taskName after).1.profiles = host.profiles := by
  unfold rollback at h ⊢
  dsimp only at h ⊢
  split_ifs at h ⊢ with hread hrestored hunregister
  · rw [hrestored] at h
    cases h
  · exact restore_profiles hcaptured (Bool.eq_true_of_not_eq_false hrestored)

/-- The task goes with a completed rollback, and no other task goes. -/
theorem rollback_tasks {snapshot : Snapshot} {taskName : String} :
    (rollback cf fault snapshot taskName host).1.tasks =
      if (rollback cf fault snapshot taskName host).2 then
        host.tasks.filter fun task => !cf.equal task.taskName taskName
      else host.tasks := by
  unfold rollback
  dsimp only
  split_ifs with hread hrestored hunregister hcompleted <;>
    simp_all [Host.unregister, restore_tasks]

end BaselineOps.KillSwitch
