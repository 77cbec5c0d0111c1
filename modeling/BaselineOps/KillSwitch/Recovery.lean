import Mathlib
import BaselineOps.KillSwitch.Rollback

/-!
# Recovery behind a failed activation

Runs with a rollback time in which every prompt is accepted and at most one cmdlet fails. The commit is
noted behind `Set-NetFirewallProfile`; where that call fails after it has changed a profile, the cleanup
cancels the rollback task and nothing restores the profile.

* `recoverable_iff`: that is the only way to a host which neither is as before nor has its rollback task.
-/

namespace BaselineOps.KillSwitch

open BaselineOps.Domain BaselineOps.Lib

variable {cf : CaseFold} {env : Environment cf} {host : Host} {l l₀ : Ledger}

/-- At most one call of a cmdlet fails. -/
def Environment.FailsOnce (env : Environment cf) : Prop := ∀ ⦃site other⦄, env.Fails site → env.Fails other → site = other

/-- The rollback task is registered, or profiles, rules, adapters and tasks are the initial ones. Rules and
    tasks that were there before keep their places: what is created is put behind them, so that none of them
    was removed and created again. -/
structure Recoverable (env : Environment cf) (host after : Host) : Prop where
  recovery : (∃ json, env.rollbackTask json ∈ after.tasks) ∨
    (after.profiles = host.profiles ∧ after.rules = host.rules ∧ after.adapters = host.adapters ∧
      after.tasks = host.tasks)
  rules : host.rules <+: after.rules
  tasks : host.tasks <+: after.tasks

/-- The run comes to the profiles, and the call that sets them fails behind a change. -/
structure Exposed (env : Environment cf) (host : Host) : Prop where
  admin : env.isAdmin = true
  clear : env.Clear host
  prepares : ∃ snapshot json, env.Prepares host snapshot json
  fails : env.Fails .setProfiles
  changed : ∃ name, env.reached name = true ∧ host.profiles name ≠ .isolated

/-! ## Single failures -/

theorem makesRules_of_failsOnce (honce : env.FailsOnce) (haccepts : ∀ prompt, env.accepts prompt = true)
    {site : Invocation} (hfails : env.Fails site)
    (hsite : ∀ name, site ≠ .newRule name ∧ site ≠ .createdRules name) : env.MakesRules := by
  have hmakes : ∀ rule, env.Makes rule := fun rule =>
    ⟨haccepts _, fun hnew => (hsite _).1 (honce hfails hnew), fun hcreated => (hsite _).2 (honce hfails hcreated)⟩
  exact ⟨hmakes _, hmakes _⟩

theorem not_strands (honce : env.FailsOnce) (rule : FirewallRule) : ¬ env.Strands rule := by
  rintro ⟨hverify, hremove⟩
  cases honce hverify hremove

theorem exists_fails_of_not_makes (haccepts : ∀ prompt, env.accepts prompt = true) (h : ¬ env.MakesRules) :
    ∃ site, env.Fails site ∧ ((∃ name, site = .newRule name) ∨ ∃ name, site = .createdRules name) := by
  by_contra hnone
  simp only [not_exists, not_and, not_or] at hnone
  have hmakes : ∀ rule, env.Makes rule := fun rule =>
    ⟨haccepts _, fun hfails => (hnone _ hfails).1 _ rfl, fun hfails => (hnone _ hfails).2 _ rfl⟩
  exact h ⟨hmakes _, hmakes _⟩

/-- With accepted prompts an activation behind the profiles is committed. -/
theorem Firewalled.committed_of_accepts (h : Firewalled env l₀ l) (haccepts : ∀ prompt, env.accepts prompt = true) :
    l.committed = true := by
  cases h with
  | committed => rfl
  | rulesOnly _ _ hprofiles =>
    rw [haccepts] at hprofiles
    cases hprofiles
  | declined hrules =>
    rw [haccepts] at hrules
    cases hrules

theorem Isolated.committed_of_accepts (h : Isolated env host l₀ l) (haccepts : ∀ prompt, env.accepts prompt = true) :
    l.committed = true := by
  cases h with
  | adapters hl => exact hl.committed_of_accepts haccepts
  | firewallOnly hl => exact hl.committed_of_accepts haccepts

theorem Prepared.uncommitted (h : Prepared env host l) : l.committed = false := by
  cases h <;> rfl

/-- A failure before the commit: in the creation of the rules, or of the profiles. -/
theorem Interrupted.uncommitted (h : Interrupted env host l₀ l) (haccepts : ∀ prompt, env.accepts prompt = true)
    (hcommitted : l.committed = false) :
    (∃ rules created, ¬ env.MakesRules ∧ RulesPartial env rules created ∧ l = { l₀ with rules, created }) ∨
    (env.Fails .setProfiles ∧ l = { l₀.withRules env with profiles := env.reached }) := by
  have hnever : ∀ {l : Ledger}, Firewalled env l₀ l → l.committed = false → False := by
    intro l hl hfalse
    rw [hl.committed_of_accepts haccepts] at hfalse
    cases hfalse
  cases h with
  | rules _ hfails hstopped => exact .inl ⟨_, _, hfails, hstopped, rfl⟩
  | profiles _ _ _ hfails => exact .inr ⟨hfails, rfl⟩
  | listing hl => exact (hnever hl hcommitted).elim
  | disabling hl => exact (hnever hl hcommitted).elim
  | report hisolated =>
    have htrue := hisolated.committed_of_accepts haccepts
    exact absurd hcommitted (by simp [Ledger.resolved, htrue])

/-- Where no removal fails, the cleanup removes the rules that were noted. -/
theorem Removed.eq_nil {rules : List FirewallRule} (h : Removed env l.created l.rules rules)
    (hgood : ∀ rule ∈ l.created, ¬ env.FailsRemoval rule)
    (hnoted : ∀ rule ∈ l.rules, ∃ removed ∈ l.created, cf.equal rule.name removed.name = true) : rules = [] := by
  rw [h.2 hgood, withoutRules, List.filter_eq_nil_iff]
  intro rule hrule
  obtain ⟨removed, hremoved, hname⟩ := hnoted rule hrule
  have hany : (l.created.any fun removed => cf.equal rule.name removed.name) = true :=
    List.any_eq_true.mpr ⟨removed, hremoved, hname⟩
  rw [hany]
  exact Bool.false_ne_true

theorem inboundRule_equal : cf.equal env.inboundRule.name env.inRule.name = true := by
  rw [inboundRule_name]
  exact equal_self _

theorem noted_withRules (hrules : l.rules = [env.inboundRule, env.outboundRule])
    (hcreated : l.created = [env.inRule, env.outRule]) :
    ∀ rule ∈ l.rules, ∃ removed ∈ l.created, cf.equal rule.name removed.name = true := by
  rw [hrules, hcreated]
  intro rule hrule
  rw [List.mem_cons, List.mem_singleton] at hrule
  rcases hrule with rfl | rfl
  · exact ⟨env.inRule, List.mem_cons_self, inboundRule_equal⟩
  · exact ⟨env.outRule, List.mem_cons_of_mem _ (List.mem_singleton_self _), equal_self _⟩

theorem noted_of_stopped {rules : List FirewallRule} {created : List ManagedRule} (honce : env.FailsOnce)
    (h : RulesPartial env rules created) :
    ∀ rule ∈ rules, ∃ removed ∈ created, cf.equal rule.name removed.name = true := by
  rcases h with ⟨rfl, rfl⟩ | ⟨rfl, rfl⟩ | ⟨rfl, rfl, hstrands⟩ | ⟨rfl, rfl, hstrands⟩
  · intro rule hrule
    cases hrule
  · intro rule hrule
    rw [List.mem_singleton.mp hrule]
    exact ⟨env.inRule, List.mem_singleton_self _, inboundRule_equal⟩
  · exact (not_strands honce _ hstrands).elim
  · exact (not_strands honce _ hstrands).elim

/-! ## Exactness -/

theorem Prepared.of_minutes (h : Prepared env host l) (hminutes : 0 < env.effective.autoRollbackMinutes) :
    ∃ snapshot json, env.Prepares host snapshot json ∧ l = .scheduled snapshot json true := by
  cases h with
  | withoutRollback hzero => exact absurd hzero (Nat.pos_iff_ne_zero.mp hminutes)
  | withRollback _ hprepares => exact ⟨_, _, hprepares, rfl⟩

theorem Ledger.Describes.prefixes {s : RunState} (h : l.Describes env host s) :
    host.rules <+: s.host.rules ∧ host.tasks <+: s.host.tasks := by
  rw [h.rules, h.task]
  exact ⟨List.prefix_append _ _, List.prefix_append _ _⟩

/-- With its task in the ledger a run is recoverable. -/
theorem recoverable_of_task {s : RunState} (h : l.Describes env host s) {json : String} (htask : l.task = some json) :
    Recoverable env host s.host where
  recovery := by
    left
    refine ⟨json, ?_⟩
    rw [h.task, htask]
    exact List.mem_append_right _ (List.mem_singleton_self _)
  rules := h.prefixes.1
  tasks := h.prefixes.2

/-- With nothing in the ledger the host is as before. -/
theorem recoverable_of_nothing {s : RunState} (h : l.Describes env host s) (hrules : l.rules = [])
    (htask : l.task = none) (hprofiles : (host.isolate l.profiles).profiles = host.profiles)
    (hdisabled : l.disabled = []) : Recoverable env host s.host where
  recovery := by
    right
    refine ⟨h.profiles.trans hprofiles, ?_, ?_, ?_⟩
    · rw [h.rules, hrules, List.append_nil]
    · rw [h.disabled, hdisabled]
      rfl
    · rw [h.task, htask]
      exact List.append_nil _
  rules := h.prefixes.1
  tasks := h.prefixes.2

theorem Isolated.exists_task (h : Isolated env host l₀ l) (hprepared : Prepared env host l₀)
    (hminutes : 0 < env.effective.autoRollbackMinutes) : ∃ json, l.task = some json := by
  obtain ⟨json, htask, -⟩ := hprepared.exists_task hminutes
  exact ⟨json, h.rollback.1.trans htask⟩

/-- What the cleanup leaves of an activation that a single failure has stopped before the commit. -/
theorem undone_of_uncommitted (honce : env.FailsOnce) (haccepts : ∀ prompt, env.accepts prompt = true)
    (hprepared : Prepared env host l₀) (hminutes : 0 < env.effective.autoRollbackMinutes)
    (h : Interrupted env host l₀ l) (hcommitted : l.committed = false) {rules : List FirewallRule}
    (hremoved : Removed env l.created l.rules rules) :
    rules = [] ∧ (l.undone rules).task = none ∧ l.disabled = [] ∧
      (l.profiles = (fun _ => false) ∨ env.Fails .setProfiles ∧ l.profiles = env.reached) := by
  obtain ⟨json, -, hscheduled⟩ := hprepared.exists_task hminutes
  have htask : (l.undone rules).task = none := by
    rw [Ledger.undone, h.rollback.2, hscheduled]
    rfl
  rcases h.uncommitted haccepts hcommitted with ⟨partialRules, created, hfails, hstopped, rfl⟩ | ⟨hfails, rfl⟩
  · obtain ⟨site, hsite, hkind⟩ := exists_fails_of_not_makes haccepts hfails
    refine ⟨hremoved.eq_nil (fun rule _ hremoval => ?_) (noted_of_stopped honce hstopped), htask,
      hprepared.untouched.disabled, .inl hprepared.untouched.profiles⟩
    rcases hremoval with hremoval | hremoval <;> rcases hkind with ⟨name, rfl⟩ | ⟨name, rfl⟩ <;>
      cases honce hsite hremoval
  · refine ⟨hremoved.eq_nil (fun rule _ hremoval => ?_) (noted_withRules rfl rfl), htask,
      hprepared.untouched.disabled, .inr ⟨hfails, rfl⟩⟩
    rcases hremoval with hremoval | hremoval <;> cases honce hfails hremoval

theorem isolate_eq_of_unchanged {reached : ProfileName → Bool}
    (h : ∀ name, reached name = true → host.profiles name = .isolated) :
    (host.isolate reached).profiles = host.profiles := by
  funext name
  show (if reached name then FirewallProfile.isolated else host.profiles name) = host.profiles name
  split_ifs with hreached
  · exact (h name hreached).symm
  · rfl

theorem Unprepared.recoverable {s : RunState} {active : Bool} (h : Unprepared env host l)
    (hs : (l.reporting active).Describes env host s) : Recoverable env host s.host := by
  cases h with
  | blank hblank =>
    refine recoverable_of_nothing hs hblank.rules hblank.task ?_ hblank.disabled
    rw [show (l.reporting active).profiles = _ from hblank.profiles]
    rfl
  | unannounced => exact recoverable_of_task hs rfl

theorem recoverable_of_not_exposed (hminutes : 0 < env.effective.autoRollbackMinutes)
    (haccepts : ∀ prompt, env.accepts prompt = true) (honce : env.FailsOnce) (hexposed : ¬ Exposed env host) :
    Recoverable env host (remediate env host).host := by
  cases hadmin : env.isAdmin with
  | false =>
    obtain ⟨active, -, hdescribes⟩ := remediate_of_not_admin host hadmin
    exact recoverable_of_nothing hdescribes rfl rfl rfl rfl
  | true =>
    obtain ⟨l, hended, active, -, hdescribes⟩ := remediate_ends env host
    have hschedule : env.accepts .scheduleTask ≠ false := by
      rw [haccepts]
      exact Bool.true_eq_false.mp
    cases hended with
    | refused hnot =>
      rw [hadmin] at hnot
      cases hnot
    | activated hactivated =>
      cases hactivated with
      | isolated _ hprepared hisolated =>
        obtain ⟨json, htask⟩ := hisolated.exists_task hprepared hminutes
        exact recoverable_of_task hdescribes htask
      | skipped _ hdeclined => exact absurd hdeclined hschedule
    | unprepared hunprepared => exact hunprepared.recoverable hdescribes
    | skipped _ hdeclined => exact absurd hdeclined hschedule
    | undone hclear hprepared hinterrupted hundone =>
      obtain ⟨json, htask, -⟩ := hprepared.exists_task hminutes
      rcases hundone with ⟨-, rfl⟩ | ⟨-, -, -, rfl⟩ | ⟨hcommitted, -, rules, hremoved, rfl⟩
      · exact recoverable_of_task hdescribes (hinterrupted.rollback.1.trans htask)
      · exact recoverable_of_task hdescribes (hinterrupted.rollback.1.trans htask)
      · obtain ⟨hrules, hnone, hdisabled, hprofiles⟩ :=
          undone_of_uncommitted honce haccepts hprepared hminutes hinterrupted hcommitted hremoved
        refine recoverable_of_nothing hdescribes hrules hnone ?_ hdisabled
        rcases hprofiles with hfalse | ⟨hfails, hreached⟩
        · rw [show (Ledger.reporting (Ledger.undone _ rules) active).profiles = _ from hfalse]
          rfl
        · rw [show (Ledger.reporting (Ledger.undone _ rules) active).profiles = _ from hreached]
          refine isolate_eq_of_unchanged fun name hname => ?_
          by_contra hchanged
          obtain ⟨snapshot, json, hprepares, -⟩ := hprepared.of_minutes hminutes
          exact hexposed ⟨hadmin, hclear, ⟨snapshot, json, hprepares⟩, hfails, name, hname, hchanged⟩

/-- Where the profiles fail, the run has come to them and the cleanup has cancelled the task. -/
theorem Ended.of_exposed (h : Ended env host l) (hminutes : 0 < env.effective.autoRollbackMinutes)
    (haccepts : ∀ prompt, env.accepts prompt = true) (honce : env.FailsOnce) (hexposed : Exposed env host) :
    l.task = none ∧ l.profiles = env.reached := by
  have hschedule : env.accepts .scheduleTask ≠ false := by
    rw [haccepts]
    exact Bool.true_eq_false.mp
  have hgood : ∀ {site : Invocation}, env.Fails site → site = .setProfiles := fun hfails =>
    (honce hexposed.fails hfails).symm
  cases h with
  | refused hnot =>
    rw [hexposed.admin] at hnot
    cases hnot
  | activated hactivated =>
    cases hactivated with
    | isolated _ _ hisolated =>
      have hfirewalled : ∀ {l₀ l : Ledger}, ¬ Firewalled env l₀ l := by
        intro l₀ l hl
        cases hl with
        | committed _ _ _ hfine => exact hfine hexposed.fails
        | rulesOnly _ _ hprofiles =>
          rw [haccepts] at hprofiles
          cases hprofiles
        | declined hrules =>
          rw [haccepts] at hrules
          cases hrules
      cases hisolated with
      | adapters hl => exact (hfirewalled hl).elim
      | firewallOnly hl => exact (hfirewalled hl).elim
    | skipped _ hdeclined => exact absurd hdeclined hschedule
  | unprepared hunprepared =>
    cases hunprepared with
    | blank _ hreason =>
      rcases hreason with hblocked | ⟨site, hsite, hfails⟩ | ⟨-, hnone⟩
      · exact absurd hexposed.clear hblocked
      · rw [hgood hfails] at hsite
        exact absurd hsite (by decide)
      · obtain ⟨snapshot, json, hprepares⟩ := hexposed.prepares
        exact absurd hprepares (hnone snapshot json)
    | unannounced _ _ _ hfails => cases hgood hfails
  | skipped _ hdeclined => exact absurd hdeclined hschedule
  | undone hclear hprepared hinterrupted hundone =>
    have huncommitted : ∀ {l₀ l : Ledger}, Prepared env host l₀ → Interrupted env host l₀ l → l.committed = false := by
      intro l₀ l hl₀ hl
      cases hl with
      | rules => exact hl₀.uncommitted
      | profiles => exact hl₀.uncommitted
      | listing _ _ _ _ hfails => cases hgood hfails
      | disabling _ _ _ _ hfails => cases hgood hfails
      | report _ hfails => cases hgood hfails
    have hcommitted := huncommitted hprepared hinterrupted
    rcases hundone with ⟨htrue, -⟩ | ⟨-, -, hfails, -⟩ | ⟨-, -, rules, hremoved, rfl⟩
    · rw [hcommitted] at htrue
      cases htrue
    · cases hgood hfails
    · obtain ⟨-, hnone, -, hprofiles⟩ :=
        undone_of_uncommitted honce haccepts hprepared hminutes hinterrupted hcommitted hremoved
      refine ⟨hnone, ?_⟩
      rcases hinterrupted.uncommitted haccepts hcommitted with ⟨_, _, hfails, -, -⟩ | ⟨-, rfl⟩
      · exact absurd (makesRules_of_failsOnce honce haccepts hexposed.fails (by simp)) hfails
      · rfl

theorem not_recoverable_of_exposed (hminutes : 0 < env.effective.autoRollbackMinutes)
    (haccepts : ∀ prompt, env.accepts prompt = true) (honce : env.FailsOnce) (hexposed : Exposed env host) :
    ¬ Recoverable env host (remediate env host).host := by
  intro hrecoverable
  obtain ⟨l, hended, active, -, hdescribes⟩ := remediate_ends env host
  obtain ⟨hnone, hreached⟩ := hended.of_exposed hminutes haccepts honce hexposed
  have htasks : (remediate env host).host.tasks = host.tasks := by
    rw [hdescribes.task, show (l.reporting active).task = none from hnone]
    exact List.append_nil _
  have hprofiles : (remediate env host).host.profiles = (host.isolate env.reached).profiles := by
    rw [hdescribes.profiles, show (l.reporting active).profiles = env.reached from hreached]
  rcases hrecoverable.recovery with ⟨json, htask⟩ | ⟨hsame, -⟩
  · rw [htasks] at htask
    have hother := hexposed.clear.fresh.task _ htask
    rw [show (env.rollbackTask json).taskName = env.rollbackTaskName from rfl, equal_self] at hother
    cases hother
  · obtain ⟨name, hname, hchanged⟩ := hexposed.changed
    apply hchanged
    have hfield := congrFun (hprofiles.symm.trans hsame) name
    rw [← hfield]
    exact if_pos hname

/-- With accepted prompts and at most one failing cmdlet, the host is recoverable unless the call that sets
    the profiles fails behind a change. -/
theorem recoverable_iff (env : Environment cf) (host : Host) (hminutes : 0 < env.effective.autoRollbackMinutes)
    (haccepts : ∀ prompt, env.accepts prompt = true) (honce : env.FailsOnce) :
    Recoverable env host (remediate env host).host ↔ ¬ Exposed env host :=
  ⟨fun hrecoverable hexposed => not_recoverable_of_exposed hminutes haccepts honce hexposed hrecoverable,
    recoverable_of_not_exposed hminutes haccepts honce⟩

/-- Without a failing cmdlet the default configuration leaves a recoverable host. -/
theorem recoverable_iff_default :
    Recoverable defaultRun (sampleHost .notConfigured) (remediate defaultRun (sampleHost .notConfigured)).host ↔
      ¬ Exposed defaultRun (sampleHost .notConfigured) :=
  recoverable_iff defaultRun _ (by decide) (fun _ => rfl) fun _ _ hfails => absurd rfl hfails

/-- The default configuration where `Set-NetFirewallProfile` fails behind the domain profile. -/
def profileFaultRun : Environment asciiFold :=
  { defaultRun with
    fault := fun site => if site = .setProfiles then some "Access is denied." else none }

theorem failsOnce_profileFaultRun : profileFaultRun.FailsOnce := by
  have honly : ∀ {site : Invocation}, profileFaultRun.Fails site → site = .setProfiles := by
    intro site hfails
    by_contra hother
    exact hfails (if_neg hother)
  intro site other hsite hother
  rw [honly hsite, honly hother]

theorem exposed_profileFaultRun : Exposed profileFaultRun (sampleHost .notConfigured) where
  admin := rfl
  clear := ⟨rfl, rfl, rfl⟩
  prepares := ⟨_, _, rfl, rfl, captures_sample _ rfl, fits_defaultRun⟩
  fails := Option.some_ne_none _
  changed := ⟨.domainProfile, rfl, by decide⟩

/-- The domain profile stays blocked behind the failed call, with no task to restore it. -/
theorem profileFault_not_recoverable :
    0 < profileFaultRun.effective.autoRollbackMinutes ∧ (∀ prompt, profileFaultRun.accepts prompt = true) ∧
      profileFaultRun.FailsOnce ∧
      ¬ Recoverable profileFaultRun (sampleHost .notConfigured)
        (remediate profileFaultRun (sampleHost .notConfigured)).host :=
  ⟨by decide, fun _ => rfl, failsOnce_profileFaultRun,
    not_recoverable_of_exposed (by decide) (fun _ => rfl) failsOnce_profileFaultRun exposed_profileFaultRun⟩

end BaselineOps.KillSwitch
