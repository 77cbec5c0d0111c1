import Mathlib
import BaselineOps.KillSwitch.Report

/-!
# What the prompts allow

Each change of a run against the prompts before it, whatever is accepted or declined and whatever fails. With
`-WhatIf` every prompt counts as declined.

* `remediate_consented`: a part of the host that was not agreed to is as before.
-/

namespace BaselineOps.KillSwitch

open BaselineOps.Domain BaselineOps.Lib

variable {cf : CaseFold} {env : Environment cf} {host : Host} {l l₀ l₁ : Ledger}

/-- The prompts and the configuration behind a rollback task. -/
structure Environment.Schedules (env : Environment cf) : Prop where
  minutes : 0 < env.effective.autoRollbackMinutes
  capture : env.accepts .captureSnapshot = true
  schedule : env.accepts .scheduleTask = true

/-- The prompts behind the profiles: without the rules they are not asked for. -/
structure Environment.Isolates (env : Environment cf) : Prop where
  rules : env.accepts .createRules = true
  profiles : env.accepts .setProfiles = true

/-- Every change of the host was agreed to. -/
structure Consented (env : Environment cf) (host after : Host) : Prop where
  rules : after.rules ≠ host.rules → env.accepts .createRules = true
  tasks : after.tasks ≠ host.tasks → env.Schedules
  profiles : after.profiles ≠ host.profiles → env.Isolates
  adapters : after.adapters ≠ host.adapters → env.Disables

/-! ## Ledgers of a run -/

/-- What a ledger lists was agreed to. -/
structure Ledger.Agreed (env : Environment cf) (l : Ledger) : Prop where
  rules : l.rules ≠ [] → env.accepts .createRules = true
  task : l.task ≠ none → env.Schedules
  profiles : l.profiles ≠ (fun _ => false) → env.Isolates
  disabled : l.disabled ≠ [] → env.Disables

theorem Ledger.Blank.agreed (h : l.Blank) : l.Agreed env where
  rules hne := absurd h.rules hne
  task hne := absurd h.task hne
  profiles hne := absurd h.profiles hne
  disabled hne := absurd h.disabled hne

theorem agreed_scheduled {snapshot : Snapshot} {json : String} {rollbackScheduled : Bool}
    (hminutes : 0 < env.effective.autoRollbackMinutes) (h : env.Prepares host snapshot json) :
    (Ledger.scheduled snapshot json rollbackScheduled).Agreed env where
  rules hne := absurd rfl hne
  task _ := ⟨hminutes, h.capture, h.schedule⟩
  profiles hne := absurd rfl hne
  disabled hne := absurd rfl hne

theorem Prepared.agreed (h : Prepared env host l) : l.Agreed env := by
  cases h with
  | withoutRollback => exact Ledger.blank_start.agreed
  | withRollback hminutes hprepares => exact agreed_scheduled hminutes hprepares

theorem Firewalled.agreed (h : Firewalled env l₀ l) (hprepared : Prepared env host l₀) : l.Agreed env := by
  have hagreed := hprepared.agreed
  cases h with
  | committed hrules _ hprofiles =>
    exact { hagreed with rules := fun _ => hrules, profiles := fun _ => ⟨hrules, hprofiles⟩ }
  | rulesOnly hrules => exact { hagreed with rules := fun _ => hrules }
  | declined => exact { hagreed with }

theorem Isolated.agreed (h : Isolated env host l₀ l) (hprepared : Prepared env host l₀) : l.Agreed env := by
  cases h with
  | adapters hl hrequested hprompt =>
    exact { hl.agreed hprepared with disabled := fun _ => ⟨hrequested, hprompt⟩ }
  | firewallOnly hl => exact { hl.agreed hprepared with }

theorem Interrupted.agreed (h : Interrupted env host l₀ l) (hprepared : Prepared env host l₀) : l.Agreed env := by
  have hagreed := hprepared.agreed
  cases h with
  | rules hrules => exact { hagreed with rules := fun _ => hrules }
  | profiles hrules _ hprofiles =>
    exact { hagreed with rules := fun _ => hrules, profiles := fun _ => ⟨hrules, hprofiles⟩ }
  | listing hl => exact hl.agreed hprepared
  | disabling hl hrequested hprompt =>
    exact { hl.agreed hprepared with disabled := fun _ => ⟨hrequested, hprompt⟩ }
  | report hisolated => exact { hisolated.agreed hprepared with }

/-- The cleanup only takes back. -/
theorem Undone.agreed (h : Undone env l₁ l) (hagreed : l₁.Agreed env) : l.Agreed env := by
  rcases h with ⟨-, rfl⟩ | ⟨-, -, -, rfl⟩ | ⟨-, -, rules, hremoved, rfl⟩
  · exact hagreed
  · exact hagreed
  · refine { hagreed with rules := fun hne => hagreed.rules fun hnil => hne ?_
                          task := fun hne => hagreed.task fun hnone => hne ?_ }
    · have hsub := hremoved.1
      rw [hnil] at hsub
      exact List.sublist_nil.mp hsub
    · show (if l₁.rollbackScheduled then none else l₁.task) = none
      rw [hnone, ite_self]

theorem Ended.agreed (h : Ended env host l) : l.Agreed env := by
  cases h with
  | refused => exact Ledger.blank_start.agreed
  | activated hactivated =>
    cases hactivated with
    | isolated _ hprepared hisolated => exact { hisolated.agreed hprepared with }
    | skipped _ _ hblank => exact hblank.agreed
  | unprepared hunprepared =>
    cases hunprepared with
    | blank hblank => exact hblank.agreed
    | unannounced _ hminutes hprepares => exact agreed_scheduled hminutes hprepares
  | skipped _ _ hblank => exact hblank.agreed
  | undone _ hprepared hinterrupted hundone => exact hundone.agreed (hinterrupted.agreed hprepared)

/-- Whatever prompts are accepted and whatever fails, a run changes only what was agreed to. -/
theorem remediate_consented (env : Environment cf) (host : Host) :
    Consented env host (remediate env host).host := by
  obtain ⟨l, hended, active, -, hdescribes⟩ := remediate_ends env host
  have hagreed := hended.agreed
  constructor
  · refine fun hne => hagreed.rules fun hnil => hne ?_
    rw [hdescribes.rules, show (l.reporting active).rules = [] from hnil, List.append_nil]
  · refine fun hne => hagreed.task fun hnone => hne ?_
    rw [hdescribes.task, show (l.reporting active).task = none from hnone]
    exact List.append_nil _
  · refine fun hne => hagreed.profiles fun hnone => hne ?_
    rw [hdescribes.profiles, show (l.reporting active).profiles = _ from hnone]
    rfl
  · refine fun hne => hagreed.disabled fun hnil => hne ?_
    rw [hdescribes.disabled, show (l.reporting active).disabled = [] from hnil]
    rfl

end BaselineOps.KillSwitch
