import Mathlib
import BaselineOps.KillSwitch.Recovery

/-!
# The report of a run

The flags of a run against its effects on the host, where at most one cmdlet fails and a failing cmdlet
changes nothing. The cleanup takes back rules without their flag, the flag of the adapters is set behind the
last of them, and the flag of the task is the result of a function that may throw behind the registration.

* `truthful_iff`: a run reports falsely in exactly the cases of `Misreports`.
-/

namespace BaselineOps.KillSwitch

open BaselineOps.Domain BaselineOps.Lib

variable {cf : CaseFold} {env : Environment cf} {host : Host} {l l₀ l₁ : Ledger} {s : RunState}

/-! ## Effects and flags -/

/-- Both rules of the run are on the host, and were not there before. -/
def RulesInForce (env : Environment cf) (host after : Host) : Prop :=
  ∀ rule ∈ [env.inboundRule, env.outboundRule], rule ∈ after.rules ∧ rule ∉ host.rules

/-- The run has set the profiles, and they still block. -/
def ProfilesInForce (s : RunState) : Prop := s.profilesSet = true ∧ ∀ name, s.host.profiles name = .isolated

/-- An adapter that was up before the run is no longer. -/
def AdaptersInForce (host after : Host) : Prop := ∃ name ∈ host.upAdapters, name ∉ after.upAdapters

/-- The rollback task of the run is registered, and was not before. -/
def RollbackInForce (env : Environment cf) (host after : Host) : Prop :=
  ∃ json, env.rollbackTask json ∈ after.tasks ∧ env.rollbackTask json ∉ host.tasks

/-- The flags of a run say what is in force on the host behind it. -/
structure Truthful (env : Environment cf) (host : Host) (s : RunState) : Prop where
  isolationActive : s.isolationActive = true ↔
    ProfilesInForce s ∨ RulesInForce env host s.host ∨ AdaptersInForce host s.host
  rulesCreated : s.actions.rulesCreated = true ↔ RulesInForce env host s.host
  firewallProfileSet : s.actions.firewallProfileSet = true ↔ ProfilesInForce s
  adaptersDisabled : s.actions.adaptersDisabled = true ↔ AdaptersInForce host s.host
  rollbackScheduled : s.actions.rollbackScheduled = true ↔ RollbackInForce env host s.host

/-! ## When a run reports falsely -/

/-- The run comes to the firewall rules. -/
structure Environment.Proceeds (env : Environment cf) (host : Host) : Prop where
  admin : env.isAdmin = true
  clear : env.Clear host
  prepares : 0 < env.effective.autoRollbackMinutes → ∃ snapshot json, env.Prepares host snapshot json

/-- The prompts for the rules are accepted. -/
structure Environment.AcceptsRules (env : Environment cf) : Prop where
  rules : env.accepts .createRules = true
  inbound : env.accepts (.createRule env.inboundRule.name) = true
  outbound : env.accepts (.createRule env.outboundRule.name) = true

/-- The run disables adapters. -/
structure Environment.Disables (env : Environment cf) : Prop where
  requested : env.effective.disableAdapters = true
  prompt : env.accepts .disableAdapters = true

/-- A call fails behind the profiles. -/
def Environment.FailsLate (env : Environment cf) (host : Host) : Prop :=
  env.Fails .reportCompletion ∨
    env.Disables ∧ (env.effective.autoRollbackMinutes = 0 ∧ env.Fails .listAdapters ∨
      ∃ i < host.upAdapters.length, env.Fails (.disableAdapter i))

/-- The runs that report falsely. -/
inductive Misreports (env : Environment cf) (host : Host) : Prop where
  /-- The task is registered, and the flag not set. -/
  | task (h : env.Proceeds host) (hminutes : 0 < env.effective.autoRollbackMinutes) (hfails : env.Fails .announceTask)
  /-- The rules are removed behind profiles that could not be set, and their flag stays. -/
  | profiles (h : env.Proceeds host) (hrules : env.AcceptsRules) (hprompt : env.accepts .setProfiles = true)
      (hfails : env.Fails .setProfiles)
  /-- The rules are removed behind profiles that were declined. -/
  | rules (h : env.Proceeds host) (hrules : env.AcceptsRules) (hprompt : env.accepts .setProfiles = false)
      (hfails : env.FailsLate host)
  /-- Some adapters are disabled, and the flag is not set. -/
  | adapters {i : ℕ} (h : env.Proceeds host) (hrules : env.accepts .createRules = true → env.AcceptsRules)
      (hdisables : env.Disables) (hpos : 0 < i) (hi : i < host.upAdapters.length) (hfails : env.Fails (.disableAdapter i))

/-! ## Flags of a ledger -/

/-- What every ledger says about the host. -/
structure Ledger.Sound (env : Environment cf) (host : Host) (l : Ledger) : Prop where
  rules : l.rules ≠ [] → env.Clear host
  task : l.task ≠ none → env.Clear host
  profiles : l.profilesSet = true → l.profiles = fun _ => true
  disabled : ∀ name ∈ l.disabled, name ∈ host.upAdapters

/-- The flags of a ledger say what it lists. -/
structure Ledger.Honest (env : Environment cf) (l : Ledger) : Prop where
  rulesCreated : l.rulesCreated = true ↔ env.inboundRule ∈ l.rules ∧ env.outboundRule ∈ l.rules
  firewallProfileSet : l.firewallProfileSet = l.profilesSet
  adaptersDisabled : l.adaptersDisabled = true ↔ l.disabled ≠ []
  rollbackScheduled : l.rollbackScheduled = true ↔ l.task ≠ none

theorem not_mem_of_rulesNamed {rule : FirewallRule} {name : String} (h : host.rulesNamed cf name = [])
    (hname : cf.equal rule.name name = true) : rule ∉ host.rules :=
  fun hrule => List.filter_eq_nil_iff.mp h rule hrule hname

theorem Environment.Fresh.rules (h : env.Fresh host) :
    ∀ rule ∈ [env.inboundRule, env.outboundRule], rule ∉ host.rules := by
  intro rule hrule
  rw [List.mem_cons, List.mem_singleton] at hrule
  rcases hrule with rfl | rfl
  · exact not_mem_of_rulesNamed h.inRule inboundRule_equal
  · exact not_mem_of_rulesNamed h.outRule (equal_self _)

theorem rulesInForce_iff (hsound : l.Sound env host) (h : l.Describes env host s) :
    RulesInForce env host s.host ↔ env.inboundRule ∈ l.rules ∧ env.outboundRule ∈ l.rules := by
  have hmem : ∀ {rule : FirewallRule}, rule ∈ s.host.rules → rule ∉ host.rules → rule ∈ l.rules := by
    intro rule hrule hnot
    rw [h.rules, List.mem_append] at hrule
    exact hrule.resolve_left hnot
  constructor
  · intro hforce
    obtain ⟨hin, hnotIn⟩ := hforce _ List.mem_cons_self
    obtain ⟨hout, hnotOut⟩ := hforce _ (List.mem_cons_of_mem _ (List.mem_singleton_self _))
    exact ⟨hmem hin hnotIn, hmem hout hnotOut⟩
  · rintro ⟨hin, hout⟩ rule hrule
    have hclear := hsound.rules (List.ne_nil_of_mem hin)
    refine ⟨?_, hclear.fresh.rules rule hrule⟩
    rw [h.rules, List.mem_append]
    rw [List.mem_cons, List.mem_singleton] at hrule
    rcases hrule with rfl | rfl
    · exact .inr hin
    · exact .inr hout

theorem profilesInForce_iff (hsound : l.Sound env host) (h : l.Describes env host s) :
    ProfilesInForce s ↔ l.profilesSet = true := by
  rw [ProfilesInForce, h.profilesSet]
  refine ⟨fun hforce => hforce.1, fun hset => ⟨hset, fun name => ?_⟩⟩
  rw [h.profiles, hsound.profiles hset]
  rfl

theorem rollbackInForce_iff (hsound : l.Sound env host) (h : l.Describes env host s) :
    RollbackInForce env host s.host ↔ l.task ≠ none := by
  unfold RollbackInForce
  rw [h.task]
  constructor
  · rintro ⟨json, htask, hnot⟩ hnone
    rw [hnone, List.mem_append] at htask
    rcases htask with htask | htask
    · exact hnot htask
    · cases htask
  · intro hsome
    obtain ⟨json, hjson⟩ := Option.ne_none_iff_exists'.mp hsome
    refine ⟨json, ?_, fun htask => ?_⟩
    · rw [hjson, List.mem_append]
      exact .inr (List.mem_singleton_self _)
    · have hother := (hsound.task hsome).fresh.task _ htask
      rw [show (env.rollbackTask json).taskName = env.rollbackTaskName from rfl, equal_self] at hother
      cases hother

/-! ### Adapters -/

theorem upAdapters_congr {before after : Host} (h : before.adapters = after.adapters) :
    before.upAdapters = after.upAdapters := by
  unfold Host.upAdapters
  rw [h]

theorem mem_upAdapters_disableAdapter {name first : String} :
    name ∈ (host.disableAdapter cf first).upAdapters ↔ name ∈ host.upAdapters ∧ cf.equal name first = false := by
  unfold Host.upAdapters Host.disableAdapter
  simp only [List.mem_map, List.mem_filter, decide_eq_true_eq]
  constructor
  · rintro ⟨_, ⟨⟨adapter, hadapter, rfl⟩, hup⟩, rfl⟩
    cases hequal : cf.equal adapter.name first with
    | true =>
      rw [hequal, if_pos rfl] at hup
      cases hup
    | false =>
      simp only [hequal, Bool.false_eq_true, if_false] at hup ⊢
      exact ⟨⟨adapter, ⟨hadapter, hup⟩, rfl⟩, trivial⟩
  · rintro ⟨⟨adapter, ⟨hadapter, hup⟩, rfl⟩, hequal⟩
    refine ⟨adapter, ⟨⟨adapter, hadapter, ?_⟩, hup⟩, rfl⟩
    rw [hequal, if_neg Bool.false_ne_true]

/-- A disabled adapter stays down. -/
theorem mem_upAdapters_disableAll {name : String} {names : List String} :
    name ∈ (host.disableAll cf names).upAdapters ↔
      name ∈ host.upAdapters ∧ ∀ other ∈ names, cf.equal name other = false := by
  induction names generalizing host with
  | nil => simp [Host.disableAll]
  | cons first names ih =>
    rw [Host.disableAll, List.foldl_cons, ← Host.disableAll, ih, mem_upAdapters_disableAdapter,
      List.forall_mem_cons, and_assoc]

theorem adaptersInForce_iff (hsound : l.Sound env host) (h : l.Describes env host s) :
    AdaptersInForce host s.host ↔ l.disabled ≠ [] := by
  unfold AdaptersInForce
  rw [upAdapters_congr h.disabled]
  constructor
  · rintro ⟨name, hup, hdown⟩ hnil
    rw [hnil] at hdown
    exact hdown hup
  · intro hne
    obtain ⟨name, hname⟩ := List.exists_mem_of_ne_nil _ hne
    refine ⟨name, hsound.disabled name hname, fun hup => ?_⟩
    have hother := (mem_upAdapters_disableAll.mp hup).2 name hname
    rw [equal_self] at hother
    cases hother

/-- A run reports truthfully where its ledger has honest flags. -/
theorem truthful_of_honest {active : Bool} (hsound : l.Sound env host) (hactive : active = l.active)
    (h : (l.reporting active).Describes env host s) (hhonest : l.Honest env) : Truthful env host s := by
  have hsound' : (l.reporting active).Sound env host := { hsound with }
  have hrules : s.actions.rulesCreated = true ↔ RulesInForce env host s.host := by
    rw [h.rulesCreated, rulesInForce_iff hsound' h]
    exact hhonest.rulesCreated
  have hprofiles : s.actions.firewallProfileSet = true ↔ ProfilesInForce s := by
    rw [h.firewallProfileSet, profilesInForce_iff hsound' h]
    exact Eq.congr_left hhonest.firewallProfileSet
  have hadapters : s.actions.adaptersDisabled = true ↔ AdaptersInForce host s.host := by
    rw [h.adaptersDisabled, adaptersInForce_iff hsound' h]
    exact hhonest.adaptersDisabled
  refine ⟨?_, hrules, hprofiles, hadapters, ?_⟩
  · rw [← hrules, ← hprofiles, ← hadapters, h.isolationActive, h.firewallProfileSet, h.rulesCreated,
      h.adaptersDisabled]
    show active = true ↔ _
    rw [hactive, Ledger.active, Bool.or_eq_true, Bool.or_eq_true, or_assoc]
    rfl
  · rw [h.rollbackScheduled, rollbackInForce_iff hsound' h]
    exact hhonest.rollbackScheduled

theorem honest_of_truthful {active : Bool} (hsound : l.Sound env host)
    (h : (l.reporting active).Describes env host s) (htruthful : Truthful env host s) : l.Honest env := by
  have hsound' : (l.reporting active).Sound env host := { hsound with }
  have hrules := htruthful.rulesCreated.trans (rulesInForce_iff hsound' h)
  have hprofiles := htruthful.firewallProfileSet.trans (profilesInForce_iff hsound' h)
  have hadapters := htruthful.adaptersDisabled.trans (adaptersInForce_iff hsound' h)
  have hrollback := htruthful.rollbackScheduled.trans (rollbackInForce_iff hsound' h)
  rw [h.rulesCreated] at hrules
  rw [h.firewallProfileSet] at hprofiles
  rw [h.adaptersDisabled] at hadapters
  rw [h.rollbackScheduled] at hrollback
  exact ⟨hrules, Bool.eq_iff_iff.mpr hprofiles, hadapters, hrollback⟩

/-! ## Ledgers of a run -/

theorem Prepared.targets_eq (h : Prepared env host l) (hrequested : env.effective.disableAdapters = true) :
    l.targets env host = host.upAdapters := by
  unfold Ledger.targets
  cases h with
  | withoutRollback hminutes => exact if_pos hminutes
  | withRollback hminutes hprepares =>
    rw [if_neg (Nat.pos_iff_ne_zero.mp hminutes)]
    show Snapshot.adapters _ = _
    rw [mapM_profiles_adapters hprepares.captures.captured, if_pos hrequested]

theorem Ledger.Blank.sound (h : l.Blank) : l.Sound env host where
  rules hne := absurd h.rules hne
  task hne := absurd h.task hne
  profiles hset := by
    rw [h.profilesSet] at hset
    cases hset
  disabled name hname := by
    rw [h.disabled] at hname
    cases hname

theorem Ledger.Blank.honest (h : l.Blank) : l.Honest env where
  rulesCreated := by simp [h.rulesCreated, h.rules]
  firewallProfileSet := h.firewallProfileSet.trans h.profilesSet.symm
  adaptersDisabled := by simp [h.adaptersDisabled, h.disabled]
  rollbackScheduled := by simp [h.rollbackScheduled, h.task]

theorem Prepared.sound (h : Prepared env host l) (hclear : env.Clear host) : l.Sound env host := by
  have hnone : ∀ {name : String}, name ∈ l.disabled → name ∈ host.upAdapters := by
    intro name hname
    rw [h.untouched.disabled] at hname
    cases hname
  cases h <;> exact ⟨fun _ => hclear, fun _ => hclear, Bool.false_ne_true.elim, fun _ => hnone⟩

theorem Prepared.honest (h : Prepared env host l) : l.Honest env := by
  cases h with
  | withoutRollback => exact Ledger.blank_start.honest
  | withRollback =>
    refine ⟨?_, rfl, ?_, ?_⟩
    · simp [Ledger.scheduled]
    · simp [Ledger.scheduled]
    · simp [Ledger.scheduled]

theorem Firewalled.sound (h : Firewalled env l₀ l) (hprepared : Prepared env host l₀) (hclear : env.Clear host) :
    l.Sound env host := by
  have hsound := hprepared.sound hclear
  cases h with
  | committed => exact { hsound with rules := fun _ => hclear, profiles := fun _ => rfl }
  | rulesOnly => exact { hsound with rules := fun _ => hclear }
  | declined => exact { hsound with }

theorem Firewalled.honest (h : Firewalled env l₀ l) (hprepared : Prepared env host l₀) : l.Honest env := by
  have hhonest := hprepared.honest
  have hboth : env.inboundRule ∈ [env.inboundRule, env.outboundRule] ∧
      env.outboundRule ∈ [env.inboundRule, env.outboundRule] :=
    ⟨List.mem_cons_self, List.mem_cons_of_mem _ (List.mem_singleton_self _)⟩
  cases h with
  | committed => exact { hhonest with rulesCreated := iff_of_true rfl hboth, firewallProfileSet := rfl }
  | rulesOnly => exact { hhonest with rulesCreated := iff_of_true rfl hboth }
  | declined => exact { hhonest with }

/-- The ledgers that the cleanup does not make dishonest. -/
theorem Firewalled.settled (h : Firewalled env l₀ l) (hprepared : Prepared env host l₀) :
    (l.committed = true ∨ l.rulesCreated = false) ∨ env.AcceptsRules ∧ env.accepts .setProfiles = false := by
  cases h with
  | committed => exact .inl (.inl rfl)
  | rulesOnly hrules hmakes hprofiles => exact .inr ⟨⟨hrules, hmakes.1.accepted, hmakes.2.accepted⟩, hprofiles⟩
  | declined => cases hprepared <;> exact .inl (.inr rfl)

theorem Isolated.sound (h : Isolated env host l₀ l) (hprepared : Prepared env host l₀) (hclear : env.Clear host) :
    l.Sound env host := by
  cases h with
  | adapters hl hrequested =>
    refine { hl.sound hprepared hclear with disabled := fun name hname => ?_ }
    rwa [← hprepared.targets_eq hrequested]
  | firewallOnly hl => exact { hl.sound hprepared hclear with }

theorem Isolated.honest (h : Isolated env host l₀ l) (hprepared : Prepared env host l₀) : l.Honest env := by
  cases h with
  | adapters hl => exact { hl.honest hprepared with adaptersDisabled := decide_eq_true_iff }
  | firewallOnly hl => exact { hl.honest hprepared with }

theorem Isolated.settled (h : Isolated env host l₀ l) (hprepared : Prepared env host l₀) :
    (l.committed = true ∨ l.rulesCreated = false) ∨ env.AcceptsRules ∧ env.accepts .setProfiles = false := by
  cases h with
  | adapters hl => exact hl.settled hprepared
  | firewallOnly hl => exact hl.settled hprepared

theorem Interrupted.sound (h : Interrupted env host l₀ l) (hprepared : Prepared env host l₀)
    (hclear : env.Clear host) : l.Sound env host := by
  have hsound := hprepared.sound hclear
  cases h with
  | rules => exact { hsound with rules := fun _ => hclear }
  | profiles =>
    refine { hsound with rules := fun _ => hclear, profiles := fun hset => ?_ }
    cases hprepared <;> cases hset
  | listing hl => exact hl.sound hprepared hclear
  | disabling hl hrequested =>
    refine { hl.sound hprepared hclear with disabled := fun name hname => ?_ }
    rw [← hprepared.targets_eq hrequested]
    exact List.mem_of_mem_take hname
  | report hisolated => exact { hisolated.sound hprepared hclear with }

theorem Undone.sound (h : Undone env l₁ l) (hsound : l₁.Sound env host) (hclear : env.Clear host) :
    l.Sound env host := by
  rcases h with ⟨-, rfl⟩ | ⟨-, -, -, rfl⟩ | ⟨-, -, rules, -, rfl⟩
  · exact hsound
  · exact hsound
  · exact { hsound with rules := fun _ => hclear, task := fun _ => hclear }

theorem Ended.sound (h : Ended env host l) : l.Sound env host := by
  cases h with
  | refused => exact Ledger.blank_start.sound
  | activated hactivated =>
    cases hactivated with
    | isolated hclear hprepared hisolated => exact { hisolated.sound hprepared hclear with }
    | skipped _ _ hblank => exact hblank.sound
  | unprepared hunprepared =>
    cases hunprepared with
    | blank hblank => exact hblank.sound
    | unannounced hclear =>
      refine ⟨fun _ => hclear, fun _ => hclear, Bool.false_ne_true.elim, fun name hname => ?_⟩
      cases hname
  | skipped _ _ hblank => exact hblank.sound
  | undone hclear hprepared hinterrupted hundone =>
    exact hundone.sound (hinterrupted.sound hprepared hclear) hclear

theorem outboundRule_ne : env.outboundRule ≠ env.inboundRule := by
  intro hsame
  have hname := @equal_outRule_inRule cf env
  rw [← inboundRule_name, ← hsame, show env.outboundRule.name = env.outRule.name from rfl, equal_self] at hname
  cases hname

theorem Ledger.Honest.undone {rules : List FirewallRule} (h : l.Honest env) (hflag : l.rulesCreated = false)
    (hsub : rules.Sublist l.rules) : (l.undone rules).Honest env where
  rulesCreated := by
    have hbefore := h.rulesCreated
    rw [hflag] at hbefore
    refine iff_of_false (fun htrue => ?_) fun hboth =>
      Bool.false_ne_true (hbefore.mpr ⟨hsub.subset hboth.1, hsub.subset hboth.2⟩)
    rw [show (l.undone rules).rulesCreated = l.rulesCreated from rfl, hflag] at htrue
    cases htrue
  firewallProfileSet := h.firewallProfileSet
  adaptersDisabled := h.adaptersDisabled
  rollbackScheduled := by
    refine iff_of_false Bool.false_ne_true fun hsome => ?_
    have htask := h.rollbackScheduled
    rw [show (l.undone rules).task = if l.rollbackScheduled then none else l.task from rfl] at hsome
    split_ifs at hsome with hscheduled
    · exact hsome rfl
    · exact hscheduled (htask.mpr hsome)

theorem Undone.honest (h : Undone env l₁ l) (hhonest : l₁.Honest env)
    (hsettled : l₁.committed = true ∨ l₁.rulesCreated = false) : l.Honest env := by
  rcases h with ⟨-, rfl⟩ | ⟨-, -, -, rfl⟩ | ⟨hnot, -, rules, hremoved, rfl⟩
  · exact hhonest
  · exact hhonest
  · refine hhonest.undone (hsettled.resolve_left fun hcommitted => ?_) hremoved.1
    rw [hnot] at hcommitted
    cases hcommitted

theorem RulesPartial.not_both {rules : List FirewallRule} {created : List ManagedRule} (honce : env.FailsOnce)
    (h : RulesPartial env rules created) : ¬ (env.inboundRule ∈ rules ∧ env.outboundRule ∈ rules) := by
  rintro ⟨-, hout⟩
  rcases h with ⟨rfl, -⟩ | ⟨rfl, -⟩ | ⟨-, -, hstrands⟩ | ⟨-, -, hstrands⟩
  · cases hout
  · exact outboundRule_ne (List.mem_singleton.mp hout)
  · exact not_strands honce _ hstrands
  · exact not_strands honce _ hstrands

/-- An interrupted run is honest, unless it misreports. -/
theorem Interrupted.honest (honce : env.FailsOnce) (hproceeds : env.Proceeds host)
    (hprepared : Prepared env host l₀) (h : Interrupted env host l₀ l₁) (hundone : Undone env l₁ l)
    (hnot : ¬ Misreports env host) : l.Honest env := by
  cases h with
  | rules _ _ hstopped =>
    have hhonest := hprepared.honest
    have hflag : l₀.rulesCreated = false := by cases hprepared <;> rfl
    refine hundone.honest { hhonest with rulesCreated := ?_ } (.inr hflag)
    refine iff_of_false (fun htrue => ?_) (hstopped.not_both honce)
    rw [hflag] at htrue
    cases htrue
  | profiles hrules hmakes hprofiles hfails =>
    exact absurd (.profiles hproceeds ⟨hrules, hmakes.1.accepted, hmakes.2.accepted⟩ hprofiles hfails) hnot
  | listing hl hrequested hprompt hminutes hfails =>
    refine hundone.honest (hl.honest hprepared) ((hl.settled hprepared).resolve_right fun hdeclined => ?_)
    exact hnot (.rules hproceeds hdeclined.1 hdeclined.2 (.inr ⟨⟨hrequested, hprompt⟩, .inl ⟨hminutes, hfails⟩⟩))
  | @disabling l i hl hrequested hprompt hi hfails =>
    rw [hprepared.targets_eq hrequested] at hi
    cases i with
    | succ i =>
      refine absurd (.adapters hproceeds (fun hrules => ?_) ⟨hrequested, hprompt⟩ i.succ_pos hi hfails) hnot
      cases hl with
      | committed _ hmakes => exact ⟨hrules, hmakes.1.accepted, hmakes.2.accepted⟩
      | rulesOnly _ hmakes => exact ⟨hrules, hmakes.1.accepted, hmakes.2.accepted⟩
      | declined hdeclined =>
        rw [hrules] at hdeclined
        cases hdeclined
    | zero =>
      have hhonest := hl.honest hprepared
      refine hundone.honest { hhonest with adaptersDisabled := ?_ }
        ((hl.settled hprepared).resolve_right fun hdeclined => ?_)
      · exact iff_of_false Bool.false_ne_true fun hne => hne rfl
      · exact hnot (.rules hproceeds hdeclined.1 hdeclined.2 (.inr ⟨⟨hrequested, hprompt⟩, .inr ⟨0, hi, hfails⟩⟩))
  | report hisolated hfails =>
    refine hundone.honest { hisolated.honest hprepared with }
      ((hisolated.settled hprepared).resolve_right fun hdeclined => ?_)
    exact hnot (.rules hproceeds hdeclined.1 hdeclined.2 (.inl hfails))

theorem Prepared.proceeds (h : Prepared env host l) (hadmin : env.isAdmin = true) (hclear : env.Clear host) :
    env.Proceeds host := by
  refine ⟨hadmin, hclear, fun hminutes => ?_⟩
  obtain ⟨snapshot, json, hprepares, -⟩ := h.of_minutes hminutes
  exact ⟨snapshot, json, hprepares⟩

theorem Ended.honest (h : Ended env host l) (honce : env.FailsOnce) (hadmin : env.isAdmin = true)
    (hnot : ¬ Misreports env host) : l.Honest env := by
  cases h with
  | refused => exact Ledger.blank_start.honest
  | activated hactivated =>
    cases hactivated with
    | isolated _ hprepared hisolated => exact { hisolated.honest hprepared with }
    | skipped _ _ hblank => exact hblank.honest
  | unprepared hunprepared =>
    cases hunprepared with
    | blank hblank => exact hblank.honest
    | unannounced hclear hminutes hprepares hfails =>
      exact absurd (.task ⟨hadmin, hclear, fun _ => ⟨_, _, hprepares⟩⟩ hminutes hfails) hnot
  | skipped _ _ hblank => exact hblank.honest
  | undone hclear hprepared hinterrupted hundone =>
    exact hinterrupted.honest honce (hprepared.proceeds hadmin hclear) hprepared hundone hnot

/-! ## The reported outcome -/

theorem Interrupted.isolationActive (h : Interrupted env host l₀ l₁) (honce : env.FailsOnce)
    (hfails : env.Fails .summaryTime) (hprepared : Prepared env host l₀) (hundone : Undone env l₁ l) :
    l.isolationActive = l.active := by
  cases h with
  | rules =>
    rcases hundone with ⟨-, rfl⟩ | ⟨-, -, -, rfl⟩ | ⟨-, -, rules, -, rfl⟩ <;> cases hprepared <;> rfl
  | profiles _ _ _ hother => cases honce hfails hother
  | listing _ _ _ _ hother => cases honce hfails hother
  | disabling _ _ _ _ hother => cases honce hfails hother
  | report _ hother => cases honce hfails hother

theorem Ledger.Blank.active_eq (h : l.Blank) : l.isolationActive = l.active := by
  rw [Ledger.active, h.isolationActive, h.firewallProfileSet, h.rulesCreated, h.adaptersDisabled]
  rfl

/-- The outcome of a run belongs to its flags, also where the summary fails. -/
theorem Ended.reported (h : Ended env host l) (honce : env.FailsOnce) {active : Bool}
    (hreported : Reported env l active) : active = l.active := by
  obtain rfl | ⟨hfails, rfl⟩ := hreported
  · rfl
  cases h with
  | refused => rfl
  | activated hactivated =>
    cases hactivated with
    | isolated => rfl
    | skipped _ _ hblank => exact hblank.active_eq
  | unprepared hunprepared =>
    cases hunprepared with
    | blank hblank => exact hblank.active_eq
    | unannounced => rfl
  | skipped _ _ hblank => exact hblank.active_eq
  | undone _ hprepared hinterrupted hundone => exact hinterrupted.isolationActive honce hfails hprepared hundone

theorem truthful_of_not_misreports (honce : env.FailsOnce) (hnot : ¬ Misreports env host) :
    Truthful env host (remediate env host) := by
  cases hadmin : env.isAdmin with
  | false =>
    obtain ⟨active, hreported, hdescribes⟩ := remediate_of_not_admin host hadmin
    have hended : Ended env host {} := .refused hadmin
    exact truthful_of_honest hended.sound (hended.reported honce hreported) hdescribes Ledger.blank_start.honest
  | true =>
    obtain ⟨l, hended, active, hreported, hdescribes⟩ := remediate_ends env host
    exact truthful_of_honest hended.sound (hended.reported honce hreported) hdescribes
      (hended.honest honce hadmin hnot)

/-! ## False reports -/

/-- Where no call fails before it, a run comes to the firewall rules. -/
theorem Ended.of_proceeds (h : Ended env host l) (hproceeds : env.Proceeds host)
    (hlate : ¬ env.FailsPreparation) (hannounced : ¬ env.Fails .announceTask) :
    ∃ l₀ : Ledger, Prepared env host l₀ ∧ ((∃ l₁ : Ledger, Isolated env host l₀ l₁ ∧ ¬ env.Fails .reportCompletion) ∨
      ∃ l₁ : Ledger, Interrupted env host l₀ l₁ ∧ Undone env l₁ l) := by
  have hschedule : 0 < env.effective.autoRollbackMinutes → env.accepts .scheduleTask ≠ false := by
    intro hminutes hdeclined
    obtain ⟨_, _, hprepares⟩ := hproceeds.prepares hminutes
    rw [hprepares.schedule] at hdeclined
    cases hdeclined
  cases h with
  | refused hnot =>
    rw [hproceeds.admin] at hnot
    cases hnot
  | activated hactivated =>
    cases hactivated with
    | isolated _ hprepared hisolated hreport => exact ⟨_, hprepared, .inl ⟨_, hisolated, hreport⟩⟩
    | skipped hminutes hdeclined => exact absurd hdeclined (hschedule hminutes)
  | unprepared hunprepared =>
    cases hunprepared with
    | blank _ hreason =>
      rcases hreason with hblocked | hfails | ⟨hminutes, hnone⟩
      · exact absurd hproceeds.clear hblocked
      · exact absurd hfails hlate
      · obtain ⟨snapshot, json, hprepares⟩ := hproceeds.prepares hminutes
        exact absurd hprepares (hnone snapshot json)
    | unannounced _ _ _ hfails => exact absurd hfails hannounced
  | skipped hminutes hdeclined => exact absurd hdeclined (hschedule hminutes)
  | undone _ hprepared hinterrupted hundone => exact ⟨_, hprepared, .inr ⟨_, hinterrupted, hundone⟩⟩

theorem Environment.AcceptsRules.makesRules (h : env.AcceptsRules)
    (hgood : ∀ name, ¬ env.Fails (.newRule name) ∧ ¬ env.Fails (.createdRules name)) : env.MakesRules :=
  ⟨⟨h.inbound, (hgood _).1, (hgood _).2⟩, ⟨h.outbound, (hgood _).1, (hgood _).2⟩⟩

/-- The rules of an activation that is not committed go where no other call fails, and their flag stays. -/
theorem Undone.not_honest (h : Undone env l₁ l) (hcommitted : l₁.committed = false) (hflag : l₁.rulesCreated = true)
    (hgood : ¬ env.Fails .unregisterTask ∧ ∀ rule, ¬ env.FailsRemoval rule)
    (hnoted : ∀ rule ∈ l₁.rules, ∃ removed ∈ l₁.created, cf.equal rule.name removed.name = true) :
    ¬ l.Honest env := by
  intro hhonest
  rcases h with ⟨htrue, -⟩ | ⟨-, -, hfails, -⟩ | ⟨-, -, rules, hremoved, rfl⟩
  · rw [hcommitted] at htrue
    cases htrue
  · exact hgood.1 hfails
  · have hnil := hremoved.eq_nil (fun rule _ => hgood.2 rule) hnoted
    have hmem := (hhonest.rulesCreated.mp hflag).1
    rw [show (l₁.undone rules).rules = rules from rfl, hnil] at hmem
    cases hmem

/-- The site of a late failure. -/
theorem Environment.FailsLate.site (h : env.FailsLate host) : ∃ site, env.Fails site ∧
    (site = .reportCompletion ∨ site = .listAdapters ∨ ∃ i, site = .disableAdapter i) := by
  rcases h with hfails | ⟨-, ⟨-, hfails⟩ | ⟨i, -, hfails⟩⟩
  · exact ⟨_, hfails, .inl rfl⟩
  · exact ⟨_, hfails, .inr (.inl rfl)⟩
  · exact ⟨_, hfails, .inr (.inr ⟨i, rfl⟩)⟩

theorem Isolated.not_failsLate (h : Isolated env host l₀ l) (hprepared : Prepared env host l₀)
    (hreport : ¬ env.Fails .reportCompletion) : ¬ env.FailsLate host := by
  rintro (hfails | ⟨hdisables, hfails⟩)
  · exact hreport hfails
  · cases h with
    | adapters _ _ _ hlist hdisable =>
      rw [hprepared.targets_eq hdisables.requested] at hdisable
      rcases hfails with ⟨hminutes, hfails⟩ | ⟨i, hi, hfails⟩
      · exact hlist hminutes hfails
      · exact hdisable i hi hfails
    | firewallOnly _ hskip =>
      rw [hdisables.requested, hdisables.prompt] at hskip
      rcases hskip with hskip | hskip <;> cases hskip

theorem not_failsPreparation (honce : env.FailsOnce) {site : Invocation} (hfails : env.Fails site)
    (hsite : site ∉ preparationSites) : ¬ env.FailsPreparation := by
  rintro ⟨other, hother, hfailsOther⟩
  rw [honce hfailsOther hfails] at hother
  exact hsite hother

/-- Where the announcement fails, the task is there without its flag. -/
theorem Ended.not_honest_of_announcement (h : Ended env host l) (honce : env.FailsOnce)
    (hproceeds : env.Proceeds host) (hminutes : 0 < env.effective.autoRollbackMinutes)
    (hfails : env.Fails .announceTask) : ¬ l.Honest env := by
  have hprepared : ∀ {l : Ledger}, ¬ Prepared env host l := by
    intro l hl
    cases hl with
    | withoutRollback hzero => exact absurd hzero (Nat.pos_iff_ne_zero.mp hminutes)
    | withRollback _ _ hannounced => exact hannounced hfails
  have hlate := not_failsPreparation honce hfails (by decide)
  obtain ⟨_, _, hprepares⟩ := hproceeds.prepares hminutes
  have hschedule : env.accepts .scheduleTask ≠ false := by
    rw [hprepares.schedule]
    exact Bool.true_eq_false.mp
  cases h with
  | refused hnot =>
    rw [hproceeds.admin] at hnot
    cases hnot
  | activated hactivated =>
    cases hactivated with
    | isolated _ hl => exact (hprepared hl).elim
    | skipped _ hdeclined => exact absurd hdeclined hschedule
  | unprepared hunprepared =>
    cases hunprepared with
    | blank _ hreason =>
      rcases hreason with hblocked | hother | ⟨-, hnone⟩
      · exact absurd hproceeds.clear hblocked
      · exact absurd hother hlate
      · exact absurd hprepares (hnone _ _)
    | unannounced =>
      intro hhonest
      exact Bool.false_ne_true (hhonest.rollbackScheduled.mpr (Option.some_ne_none _))
  | skipped _ hdeclined => exact absurd hdeclined hschedule
  | undone _ hl => exact (hprepared hl).elim

theorem Interrupted.not_honest_of_profiles (h : Interrupted env host l₀ l₁) (hprepared : Prepared env host l₀)
    (hundone : Undone env l₁ l) (honce : env.FailsOnce) (hrules : env.AcceptsRules) (hfails : env.Fails .setProfiles) :
    ¬ l.Honest env := by
  cases h with
  | rules _ hmakes =>
    refine absurd (hrules.makesRules fun name => ⟨fun hother => ?_, fun hother => ?_⟩) hmakes
    · cases honce hfails hother
    · cases honce hfails hother
  | profiles =>
    refine hundone.not_honest hprepared.uncommitted rfl ⟨fun hother => ?_, fun rule hother => ?_⟩
      (noted_withRules rfl rfl)
    · cases honce hfails hother
    · rcases hother with hother | hother <;> cases honce hfails hother
  | listing _ _ _ _ hother => cases honce hfails hother
  | disabling _ _ _ _ hother => cases honce hfails hother
  | report _ hother => cases honce hfails hother

/-- The ledgers behind declined profiles. -/
theorem Firewalled.of_declined (h : Firewalled env l₀ l) (hprepared : Prepared env host l₀)
    (hrules : env.AcceptsRules) (hprompt : env.accepts .setProfiles = false) :
    l.committed = false ∧ l.rulesCreated = true ∧ l.rules = [env.inboundRule, env.outboundRule] ∧
      l.created = [env.inRule, env.outRule] := by
  cases h with
  | committed _ _ haccepts =>
    rw [hprompt] at haccepts
    cases haccepts
  | rulesOnly => exact ⟨hprepared.uncommitted, rfl, rfl, rfl⟩
  | declined hdeclined =>
    rw [hrules.rules] at hdeclined
    cases hdeclined

theorem Isolated.of_declined (h : Isolated env host l₀ l) (hprepared : Prepared env host l₀)
    (hrules : env.AcceptsRules) (hprompt : env.accepts .setProfiles = false) :
    l.committed = false ∧ l.rulesCreated = true ∧ l.rules = [env.inboundRule, env.outboundRule] ∧
      l.created = [env.inRule, env.outRule] := by
  cases h with
  | adapters hl => exact hl.of_declined hprepared hrules hprompt
  | firewallOnly hl => exact hl.of_declined hprepared hrules hprompt

theorem Interrupted.not_honest_of_declined (h : Interrupted env host l₀ l₁) (hprepared : Prepared env host l₀)
    (hundone : Undone env l₁ l) (honce : env.FailsOnce) (hrules : env.AcceptsRules)
    (hprompt : env.accepts .setProfiles = false) (hfails : env.FailsLate host) : ¬ l.Honest env := by
  obtain ⟨site, hsite, hkind⟩ := hfails.site
  have hother : ∀ {other : Invocation}, env.Fails other →
      other = .reportCompletion ∨ other = .listAdapters ∨ ∃ i, other = .disableAdapter i := by
    intro other hother
    rwa [honce hother hsite]
  have hgood : ¬ env.Fails .unregisterTask ∧ ∀ rule, ¬ env.FailsRemoval rule := by
    refine ⟨fun hremoval => ?_, fun rule hremoval => ?_⟩
    · rcases hother hremoval with h | h | ⟨_, h⟩ <;> cases h
    · rcases hremoval with hremoval | hremoval <;> rcases hother hremoval with h | h | ⟨_, h⟩ <;> cases h
  have hdeclined : ∀ {l₂ : Ledger}, l₂.committed = false ∧ l₂.rulesCreated = true ∧
      l₂.rules = [env.inboundRule, env.outboundRule] ∧ l₂.created = [env.inRule, env.outRule] →
      Undone env l₂ l → ¬ l.Honest env := by
    rintro l₂ ⟨hcommitted, hflag, hlist, hcreated⟩ hundone
    exact hundone.not_honest hcommitted hflag hgood (noted_withRules hlist hcreated)
  cases h with
  | rules _ hmakes =>
    refine absurd (hrules.makesRules fun name => ⟨fun hnew => ?_, fun hcreated => ?_⟩) hmakes
    · rcases hother hnew with h | h | ⟨_, h⟩ <;> cases h
    · rcases hother hcreated with h | h | ⟨_, h⟩ <;> cases h
  | profiles _ _ haccepts =>
    rw [hprompt] at haccepts
    cases haccepts
  | listing hl => exact hdeclined (hl.of_declined hprepared hrules hprompt) hundone
  | disabling hl =>
    refine hdeclined ?_ hundone
    exact hl.of_declined hprepared hrules hprompt
  | report hisolated =>
    refine hdeclined ?_ hundone
    exact hisolated.of_declined hprepared hrules hprompt

theorem Undone.adapters (h : Undone env l₁ l) :
    l.adaptersDisabled = l₁.adaptersDisabled ∧ l.disabled = l₁.disabled := by
  rcases h with ⟨-, rfl⟩ | ⟨-, -, -, rfl⟩ | ⟨-, -, _, -, rfl⟩ <;> exact ⟨rfl, rfl⟩

theorem Interrupted.not_honest_of_adapter (h : Interrupted env host l₀ l₁) (hprepared : Prepared env host l₀)
    (hundone : Undone env l₁ l) (honce : env.FailsOnce) (hrules : env.accepts .createRules = true → env.AcceptsRules)
    (hdisables : env.Disables) {i : ℕ} (hpos : 0 < i) (hi : i < host.upAdapters.length)
    (hfails : env.Fails (.disableAdapter i)) : ¬ l.Honest env := by
  cases h with
  | rules haccepts hmakes =>
    refine absurd ((hrules haccepts).makesRules fun name => ⟨fun hother => ?_, fun hother => ?_⟩) hmakes
    · cases honce hfails hother
    · cases honce hfails hother
  | profiles _ _ _ hother => cases honce hfails hother
  | listing _ _ _ _ hother => cases honce hfails hother
  | disabling _ _ _ _ hother =>
    cases honce hfails hother
    intro hhonest
    obtain ⟨hflag, hlist⟩ := hundone.adapters
    have hdisabled := hhonest.adaptersDisabled.mpr
    rw [hflag, hlist] at hdisabled
    refine Bool.false_ne_true (hdisabled fun hnil => ?_)
    have hlength : ((l₀.targets env host).take i).length = 0 := congrArg List.length hnil
    rw [List.length_take, hprepared.targets_eq hdisables.requested] at hlength
    omega
  | report _ hother => cases honce hfails hother

/-- A run that misreports ends with a dishonest ledger. -/
theorem Ended.not_honest (h : Ended env host l) (honce : env.FailsOnce) (hmisreports : Misreports env host) :
    ¬ l.Honest env := by
  have hcome : ∀ {site : Invocation}, env.Fails site → site ∉ preparationSites → site ≠ .announceTask →
      ¬ env.FailsPreparation ∧ ¬ env.Fails .announceTask :=
    fun hfails hsite hother => ⟨not_failsPreparation honce hfails hsite, fun hannounce => hother (honce hfails hannounce)⟩
  cases hmisreports with
  | task hproceeds hminutes hfails => exact h.not_honest_of_announcement honce hproceeds hminutes hfails
  | profiles hproceeds hrules hprompt hfails =>
    obtain ⟨hlate, hannounced⟩ := hcome hfails (by decide) (by decide)
    obtain ⟨l₀, hprepared, ⟨l₁, hisolated, -⟩ | ⟨l₁, hinterrupted, hundone⟩⟩ := h.of_proceeds hproceeds hlate hannounced
    · have hfirewalled : ∀ {l : Ledger}, ¬ Firewalled env l₀ l := by
        intro l hl
        cases hl with
        | committed _ _ _ hgood => exact hgood hfails
        | rulesOnly _ _ hdeclined =>
          rw [hprompt] at hdeclined
          cases hdeclined
        | declined hdeclined =>
          rw [hrules.rules] at hdeclined
          cases hdeclined
      cases hisolated with
      | adapters hl => exact (hfirewalled hl).elim
      | firewallOnly hl => exact (hfirewalled hl).elim
    · exact hinterrupted.not_honest_of_profiles hprepared hundone honce hrules hfails
  | rules hproceeds hrules hprompt hfails =>
    obtain ⟨site, hsite, hkind⟩ := hfails.site
    obtain ⟨hlate, hannounced⟩ := hcome hsite (by rcases hkind with rfl | rfl | ⟨i, rfl⟩ <;> simp [preparationSites])
      (by rcases hkind with rfl | rfl | ⟨i, rfl⟩ <;> simp)
    obtain ⟨l₀, hprepared, ⟨l₁, hisolated, hreport⟩ | ⟨l₁, hinterrupted, hundone⟩⟩ :=
      h.of_proceeds hproceeds hlate hannounced
    · exact (hisolated.not_failsLate hprepared hreport hfails).elim
    · exact hinterrupted.not_honest_of_declined hprepared hundone honce hrules hprompt hfails
  | adapters hproceeds hrules hdisables hpos hi hfails =>
    obtain ⟨hlate, hannounced⟩ := hcome hfails (by simp [preparationSites]) (by simp)
    obtain ⟨l₀, hprepared, ⟨l₁, hisolated, hreport⟩ | ⟨l₁, hinterrupted, hundone⟩⟩ :=
      h.of_proceeds hproceeds hlate hannounced
    · exact (hisolated.not_failsLate hprepared hreport (.inr ⟨hdisables, .inr ⟨_, hi, hfails⟩⟩)).elim
    · exact hinterrupted.not_honest_of_adapter hprepared hundone honce hrules hdisables hpos hi hfails

theorem not_truthful_of_misreports (honce : env.FailsOnce) (hmisreports : Misreports env host) :
    ¬ Truthful env host (remediate env host) := by
  intro htruthful
  obtain ⟨l, hended, active, -, hdescribes⟩ := remediate_ends env host
  exact hended.not_honest honce hmisreports (honest_of_truthful hended.sound hdescribes htruthful)

/-- Whatever prompts are declined: with at most one failing cmdlet, the report is false in exactly the cases of
    `Misreports`. -/
theorem truthful_iff (env : Environment cf) (host : Host) (honce : env.FailsOnce) :
    Truthful env host (remediate env host) ↔ ¬ Misreports env host :=
  ⟨fun htruthful hmisreports => not_truthful_of_misreports honce hmisreports htruthful,
    truthful_of_not_misreports honce⟩

/-- Without a failing cmdlet. -/
theorem truthful_iff_default :
    Truthful defaultRun (sampleHost .notConfigured) (remediate defaultRun (sampleHost .notConfigured)) ↔
      ¬ Misreports defaultRun (sampleHost .notConfigured) :=
  truthful_iff defaultRun _ fun _ _ hfails => absurd rfl hfails

/-- The default configuration where `Set-NetFirewallProfile` fails at once. -/
def refusedProfilesRun : Environment asciiFold := { profileFaultRun with reached := fun _ => false }

/-- The rules are removed, and the run reports them and an active isolation. -/
theorem refusedProfiles_not_truthful :
    refusedProfilesRun.FailsOnce ∧ (∀ name, refusedProfilesRun.reached name = false) ∧
      ¬ Truthful refusedProfilesRun (sampleHost .notConfigured)
        (remediate refusedProfilesRun (sampleHost .notConfigured)) := by
  have honce : refusedProfilesRun.FailsOnce := failsOnce_profileFaultRun
  obtain ⟨snapshot, json, hprepares⟩ := exposed_profileFaultRun.prepares
  have hproceeds : refusedProfilesRun.Proceeds (sampleHost .notConfigured) :=
    ⟨rfl, ⟨rfl, rfl, rfl⟩, fun _ => ⟨snapshot, json, rfl, rfl, { hprepares.captures with }, hprepares.fits⟩⟩
  exact ⟨honce, fun _ => rfl, not_truthful_of_misreports honce
    (.profiles hproceeds ⟨rfl, rfl, rfl⟩ rfl (Option.some_ne_none _))⟩

end BaselineOps.KillSwitch
