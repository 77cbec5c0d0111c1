import Mathlib
import BaselineOps.KillSwitch.Activation

/-!
# What a run has done

A ledger lists the effects of a run on the host and what the run has written down about them. Each stage
is described once, for every pattern of prompts and failing cmdlets, by the ledgers in which it can end
and the reasons for them.

* `ensures_prepared`: the stages before the first change of the firewall.
* `ensures_addKillSwitchFirewallRules`, `ensures_enableKillSwitchFirewallProfiles`,
  `ensures_disableKillSwitchNetworkAdapters`: the changes.
* `ensures_undo`: the cleanup.
-/

namespace BaselineOps.KillSwitch

open BaselineOps.Domain BaselineOps.Lib

variable {cf : CaseFold} {env : Environment cf} {s : RunState}

/-! ## Cmdlets -/

/-- The call fails. -/
def Environment.Fails (env : Environment cf) (site : Invocation) : Prop := env.fault site ≠ none

theorem ensures_query {α : Type} {site : Invocation} {f : Host → α} {Q : α → RunState → Prop}
    {E : String → RunState → Prop} (hok : ¬ env.Fails site → Q (f s.host) s)
    (herror : env.Fails site → ∀ message, E message s) : Ensures (query env site f) s Q E := by
  unfold query
  cases hfault : env.fault site with
  | some message => exact ensures_throw (herror (by simp [Environment.Fails, hfault]) message)
  | none =>
    apply ensures_bind
    exact ensures_get (hok (by simp [Environment.Fails, hfault]))

theorem ensures_invoke {site : Invocation} {f : Host → Except String Host} {Q : Unit → RunState → Prop}
    {E : String → RunState → Prop} (hok : ¬ env.Fails site → ∀ host, f s.host = .ok host → Q () { s with host })
    (herror : env.Fails site ∨ (∃ message, f s.host = .error message) → ∀ message, E message s) :
    Ensures (invoke env site f) s Q E := by
  unfold invoke
  cases hfault : env.fault site with
  | some message => exact ensures_throw (herror (.inl (by simp [Environment.Fails, hfault])) message)
  | none =>
    apply ensures_bind
    refine ensures_get ?_
    apply ensures_bind
    refine ensures_check (fun host hhost => ?_) fun message hmessage => herror (.inr ⟨message, hmessage⟩) message
    exact hok (by simp [Environment.Fails, hfault]) host hhost

/-- The states differ in errors and findings at most. -/
def Noted (s s' : RunState) : Prop := ∃ errors findings, s' = { s with errors := errors, findings := findings }

theorem Noted.refl (s : RunState) : Noted s s := ⟨s.errors, s.findings, rfl⟩

theorem Noted.trans {s s' s'' : RunState} (h : Noted s s') (h' : Noted s' s'') : Noted s s'' := by
  obtain ⟨errors, findings, rfl⟩ := h
  obtain ⟨errors', findings', rfl⟩ := h'
  exact ⟨errors', findings', rfl⟩

theorem ensures_addRunError {message : String} {Q : Unit → RunState → Prop} {E : String → RunState → Prop}
    (h : ∀ s', Noted s s' → Q () s') : Ensures (addRunError message) s Q E :=
  ensures_modify (h _ ⟨_, s.findings, rfl⟩)

theorem ensures_addFinding {code : String} {Q : Unit → RunState → Prop} {E : String → RunState → Prop}
    (h : ∀ s', Noted s s' → Q () s') : Ensures (addFinding code) s Q E :=
  ensures_modify (h _ ⟨s.errors, _, rfl⟩)

theorem ensures_refuse {code message : String} {Q : Bool → RunState → Prop} {E : String → RunState → Prop}
    (h : ∀ s', Noted s s' → Q false s') : Ensures (refuse code message) s Q E := by
  unfold refuse
  apply ensures_bind
  refine ensures_addRunError fun s₁ h₁ => ?_
  apply ensures_bind
  refine ensures_addFinding fun s₂ h₂ => ?_
  exact ensures_pure (h s₂ (h₁.trans h₂))

theorem ensures_rulesNamedSilently {site : Invocation} {name : String} {Q : List FirewallRule → RunState → Prop}
    {E : String → RunState → Prop} (hok : Q (s.host.rulesNamed cf name) s) (hfail : env.Fails site → Q [] s) :
    Ensures (rulesNamedSilently env site name) s Q E := by
  unfold rulesNamedSilently
  apply ensures_bind
  apply ensures_attempt
  exact ensures_query (fun _ => ensures_pure hok) fun hfails _ => ensures_pure (hfail hfails)

theorem ensures_rulesNamedSilently_nil {site : Invocation} {name : String}
    {Q : List FirewallRule → RunState → Prop} {E : String → RunState → Prop}
    (hnone : s.host.rulesNamed cf name = []) (h : Q [] s) : Ensures (rulesNamedSilently env site name) s Q E :=
  ensures_rulesNamedSilently (by rwa [hnone]) fun _ => h

/-! ## Rules -/

/-- The run with one more rule on the host. -/
def RunState.withRule (s : RunState) (rule : FirewallRule) : RunState :=
  { s with host := { s.host with rules := s.host.rules ++ [rule] } }

/-- A rule that a run creates is created and verified. -/
structure Environment.Makes (env : Environment cf) (rule : FirewallRule) : Prop where
  accepted : env.accepts (.createRule rule.name) = true
  created : ¬ env.Fails (.newRule rule.name)
  verified : ¬ env.Fails (.createdRules rule.name)

/-- The verification of a rule and its removal both fail. -/
def Environment.Strands (env : Environment cf) (rule : FirewallRule) : Prop :=
  env.Fails (.createdRules rule.name) ∧ env.Fails (.removeCreatedRule rule.name)

/-- The ways in which the creation of a rule ends. -/
def RuleOutcome (env : Environment cf) (rule : FirewallRule) (s : RunState) (created : Bool) (s' : RunState) : Prop :=
  (created = true ∧ Noted (s.withRule rule) s' ∧ env.Makes rule) ∨
  (created = false ∧ Noted s s' ∧ ¬ env.Makes rule) ∨
  (created = false ∧ Noted (s.withRule rule) s' ∧ env.Strands rule)

variable {rule : FirewallRule}

theorem rulesNamed_withRule (hnone : s.host.rulesNamed cf rule.name = []) :
    (s.withRule rule).host.rulesNamed cf rule.name = [rule] := by
  unfold Host.rulesNamed RunState.withRule at *
  rw [List.filter_append, hnone, List.nil_append]
  simp [equal_self]

theorem removeRules_withRule (hnone : s.host.rulesNamed cf rule.name = []) :
    (s.withRule rule).host.removeRules cf rule.name = s.host := by
  have hkeep : s.host.rules.filter (fun other => !cf.equal other.name rule.name) = s.host.rules := by
    refine List.filter_eq_self.mpr fun other hother => ?_
    have hmem := List.filter_eq_nil_iff.mp hnone other hother
    simpa using hmem
  unfold Host.removeRules RunState.withRule
  rw [List.filter_append, hkeep]
  simp [equal_self]

theorem ensures_removeExactJustCreatedFirewallRule (hnone : s.host.rulesNamed cf rule.name = []) {s₁ : RunState}
    (hs₁ : Noted (s.withRule rule) s₁) {E : String → RunState → Prop} :
    Ensures (removeExactJustCreatedFirewallRule env rule.name) s₁
      (fun _ s' => Noted s s' ∨ Noted (s.withRule rule) s' ∧ env.Fails (.removeCreatedRule rule.name)) E := by
  obtain ⟨errors, findings, rfl⟩ := hs₁
  have hpresent := rulesNamed_withRule hnone
  unfold removeExactJustCreatedFirewallRule
  apply ensures_bind
  apply ensures_attempt
  refine ensures_invoke (fun _ host hhost => ?_) fun hfails message => ?_
  · rw [hpresent, if_neg (List.cons_ne_nil _ _)] at hhost
    obtain rfl : (s.withRule rule).host.removeRules cf rule.name = host := Except.ok.inj hhost
    refine ensures_pure (.inl ⟨errors, findings, ?_⟩)
    rw [removeRules_withRule hnone]
    rfl
  · refine ensures_refuse fun s₂ hs₂ => .inr ⟨Noted.trans ⟨errors, findings, rfl⟩ hs₂, ?_⟩
    rcases hfails with hfails | ⟨_, herror⟩
    · exact hfails
    · rw [hpresent, if_neg (List.cons_ne_nil _ _)] at herror
      cases herror

theorem ensures_verifyRule (hnone : s.host.rulesNamed cf rule.name = []) (henabled : rule.enabled = true)
    {E : String → RunState → Prop} :
    Ensures (verifyRule env rule) (s.withRule rule) (fun created s' =>
      (created = true ∧ Noted (s.withRule rule) s' ∧ ¬ env.Fails (.createdRules rule.name)) ∨
      (created = false ∧ env.Fails (.createdRules rule.name) ∧
        (Noted s s' ∨ Noted (s.withRule rule) s' ∧ env.Fails (.removeCreatedRule rule.name)))) E := by
  unfold verifyRule verificationMessage
  apply ensures_bind
  apply ensures_bind
  apply ensures_attempt
  refine ensures_query (fun hverified => ?_) fun hfails message => ?_
  · have hmatches : testCreatedKillSwitchFirewallRule cf rule rule = true := by
      simp [testCreatedKillSwitchFirewallRule, equal_self, henabled]
    have hpassed : testKillSwitchRuleVerificationFailed ((s.withRule rule).host.rulesNamed cf rule.name)
        (((s.withRule rule).host.rulesNamed cf rule.name).filter (testCreatedKillSwitchFirewallRule cf rule)) =
          false := by
      rw [rulesNamed_withRule hnone, List.filter_cons_of_pos hmatches]
      rfl
    simp only [hpassed, Bool.false_eq_true, if_false]
    exact ensures_pure (ensures_pure (.inl ⟨rfl, Noted.refl _, hverified⟩))
  · refine ensures_pure ?_
    apply ensures_bind
    refine ensures_addRunError fun s₁ h₁ => ?_
    apply ensures_bind
    refine ensures_addFinding fun s₂ h₂ => ?_
    apply ensures_bind
    refine (ensures_removeExactJustCreatedFirewallRule hnone (h₁.trans h₂)).mono (fun _ s₃ h₃ => ?_)
      fun _ _ h => h
    exact ensures_pure (.inr ⟨rfl, hfails, h₃⟩)

theorem ensures_invokeNewOrReplaceRule (hnone : s.host.rulesNamed cf rule.name = [])
    (henabled : rule.enabled = true) {E : String → RunState → Prop} :
    Ensures (invokeNewOrReplaceRule env rule) s (RuleOutcome env rule s) E := by
  unfold invokeNewOrReplaceRule
  apply ensures_bind
  apply ensures_rulesNamedSilently_nil hnone
  simp only [ne_eq, not_true_eq_false, if_false]
  cases hprompt : env.shouldProcess (.createRule rule.name) with
  | false =>
    simp only [if_true]
    apply ensures_bind
    refine ensures_addRunError fun s₁ h₁ => ensures_pure (.inr (.inl ⟨rfl, h₁, fun hmakes => ?_⟩))
    have haccepted := hmakes.accepted
    rw [show env.accepts (.createRule rule.name) = false from hprompt] at haccepted
    cases haccepted
  | true =>
    simp only [Bool.true_eq_false, if_false]
    apply ensures_bind
    apply ensures_attempt
    refine ensures_invoke (fun hcreated host hhost => ?_) fun hfails message => ?_
    · simp only [hnone, if_true] at hhost
      obtain rfl := (Except.ok.inj hhost)
      refine (ensures_verifyRule hnone henabled).mono (fun created s' h => ?_) fun _ _ h => h
      rcases h with ⟨htrue, hnoted, hverified⟩ | ⟨hfalse, hunverified, hnoted | ⟨hnoted, hremove⟩⟩
      · exact .inl ⟨htrue, hnoted, hprompt, hcreated, hverified⟩
      · exact .inr (.inl ⟨hfalse, hnoted, fun hmakes => hmakes.verified hunverified⟩)
      · exact .inr (.inr ⟨hfalse, hnoted, hunverified, hremove⟩)
    · refine ensures_refuse fun s₁ h₁ => .inr (.inl ⟨rfl, h₁, fun hmakes => ?_⟩)
      rcases hfails with hfails | ⟨_, herror⟩
      · exact hmakes.created hfails
      · simp only [hnone, if_true] at herror
        cases herror

/-! ## Ledgers -/

/-- The effects of a run on the host, and what it has written down. -/
structure Ledger where
  /-- The rules of the run on the host. -/
  rules : List FirewallRule := []
  /-- The snapshot in the rollback task of the run. -/
  task : Option String := none
  /-- The profiles that the run has changed. -/
  profiles : ProfileName → Bool := fun _ => false
  /-- The adapters that the run has disabled. -/
  disabled : List String := []
  profilesSet : Bool := false
  rollbackScheduled : Bool := false
  rulesCreated : Bool := false
  firewallProfileSet : Bool := false
  adaptersDisabled : Bool := false
  confirmDeclined : Bool := false
  committed : Bool := false
  isolationActive : Bool := false
  created : List ManagedRule := []
  names : List String := []
  snapshotJson : Option String := none

/-- The rollback task with a snapshot. -/
def Environment.rollbackTask (env : Environment cf) (snapshotJson : String) : ScheduledTask :=
  ⟨env.rollbackTaskName, env.powerShellPath,
    String.ofList (rollbackArguments (rollbackScript cf env.rollbackTaskName snapshotJson))⟩

/-- The host behind the calls of `Disable-NetAdapter`. -/
def Host.disableAll (cf : CaseFold) (host : Host) (names : List String) : Host :=
  names.foldl (Host.disableAdapter cf) host

/-- The state of a run on `host` is the one of the ledger. -/
structure Ledger.Describes (env : Environment cf) (host : Host) (l : Ledger) (s : RunState) : Prop where
  rules : s.host.rules = host.rules ++ l.rules
  task : s.host.tasks = host.tasks ++ (l.task.map env.rollbackTask).toList
  profiles : s.host.profiles = (host.isolate l.profiles).profiles
  disabled : s.host.adapters = (host.disableAll cf l.disabled).adapters
  profilesSet : s.profilesSet = l.profilesSet
  rollbackScheduled : s.actions.rollbackScheduled = l.rollbackScheduled
  rulesCreated : s.actions.rulesCreated = l.rulesCreated
  firewallProfileSet : s.actions.firewallProfileSet = l.firewallProfileSet
  adaptersDisabled : s.actions.adaptersDisabled = l.adaptersDisabled
  confirmDeclined : s.actions.confirmDeclined = l.confirmDeclined
  committed : s.firewallActivationCommitted = l.committed
  isolationActive : s.isolationActive = l.isolationActive
  created : s.createdManagedRules = l.created
  names : s.adapterNamesToDisable = l.names
  snapshotJson : s.rollbackSnapshotJson = l.snapshotJson

variable {host : Host} {l : Ledger}

theorem Ledger.Describes.noted {s' : RunState} (h : l.Describes env host s) (hs' : Noted s s') :
    l.Describes env host s' := by
  obtain ⟨errors, findings, rfl⟩ := hs'
  exact { h with }

theorem Ledger.describes_start : Ledger.Describes env host {} { host } where
  rules := (List.append_nil _).symm
  task := (List.append_nil _).symm
  profiles := rfl
  disabled := rfl
  profilesSet := rfl
  rollbackScheduled := rfl
  rulesCreated := rfl
  firewallProfileSet := rfl
  adaptersDisabled := rfl
  confirmDeclined := rfl
  committed := rfl
  isolationActive := rfl
  created := rfl
  names := rfl
  snapshotJson := rfl

/-- No rule and no task of the host has a name of the run. -/
structure Environment.Fresh (env : Environment cf) (host : Host) : Prop where
  inRule : host.rulesNamed cf env.inRule.name = []
  outRule : host.rulesNamed cf env.outRule.name = []
  task : ∀ task ∈ host.tasks, cf.equal task.taskName env.rollbackTaskName = false

/-! ## Creation of the rules -/

theorem inboundRule_name : env.inboundRule.name = env.inRule.name := by
  unfold Environment.inboundRule Environment.inRule
  split_ifs <;> rfl

theorem inboundRule_enabled : env.inboundRule.enabled = true := by
  unfold Environment.inboundRule
  split_ifs <;> rfl

theorem inRule_owns_inboundRule : env.inRule.owns cf env.inboundRule = true := by
  unfold Environment.inboundRule Environment.inRule ManagedRule.owns
  split_ifs <;> simp [equal_self]

theorem outRule_owns_outboundRule : env.outRule.owns cf env.outboundRule = true := by
  simp [ManagedRule.owns, Environment.outRule, Environment.outboundRule, equal_self]

/-- Both rules are created and verified. -/
def Environment.MakesRules (env : Environment cf) : Prop := env.Makes env.inboundRule ∧ env.Makes env.outboundRule

/-- The rules of the run on the host and the created ones that it has written down, where the creation has
    ended early. -/
def RulesPartial (env : Environment cf) (rules : List FirewallRule) (created : List ManagedRule) : Prop :=
  (rules = [] ∧ created = []) ∨ (rules = [env.inboundRule] ∧ created = [env.inRule]) ∨
  (rules = [env.inboundRule] ∧ created = [] ∧ env.Strands env.inboundRule) ∨
  (rules = [env.inboundRule, env.outboundRule] ∧ created = [env.inRule] ∧ env.Strands env.outboundRule)

theorem ensures_declineConfirmation (h : l.Describes env host s) {E : String → RunState → Prop} :
    Ensures declineConfirmation s
      (fun _ s' => Ledger.Describes env host { l with confirmDeclined := true } s') E :=
  ensures_modify { h with confirmDeclined := rfl }

theorem Ledger.Describes.withRule {rule : FirewallRule} (h : l.Describes env host s) :
    Ledger.Describes env host { l with rules := l.rules ++ [rule] } (s.withRule rule) :=
  { h with
    rules := by
      show s.host.rules ++ [rule] = host.rules ++ (l.rules ++ [rule])
      rw [h.rules, List.append_assoc] }

theorem ensures_noteBreakGlass {created : Bool} (h : l.Describes env host s) {Q : Unit → RunState → Prop}
    {E : String → RunState → Prop} (hQ : ∀ s', l.Describes env host s' → Q () s') :
    Ensures (noteBreakGlass env created) s Q E := by
  unfold noteBreakGlass
  cases env.breakGlassRequested with
  | true => exact ensures_modify (hQ _ { h with })
  | false => exact ensures_pure (hQ _ h)

theorem ensures_addInboundRule (h : l.Describes env host s) (hfresh : env.Fresh host) (hrules : l.rules = [])
    (hcreated : l.created = []) :
    Ensures (addInboundRule env) s
      (fun _ s' => env.Makes env.inboundRule ∧
        Ledger.Describes env host { l with rules := [env.inboundRule], created := [env.inRule] } s')
      (fun _ s' => ¬ env.MakesRules ∧ ∃ rules created, RulesPartial env rules created ∧
        Ledger.Describes env host { l with rules, created } s') := by
  have hnone : s.host.rulesNamed cf env.inboundRule.name = [] := by
    rw [inboundRule_name, Host.rulesNamed, h.rules, hrules, List.append_nil]
    exact hfresh.inRule
  unfold addInboundRule
  apply ensures_bind
  refine (ensures_invokeNewOrReplaceRule hnone inboundRule_enabled).mono (fun created s₁ h₁ => ?_)
    fun _ _ h => h
  rcases h₁ with ⟨rfl, hnoted, hmakes⟩ | ⟨rfl, hnoted, hfails⟩ | ⟨rfl, hnoted, hstrands⟩
  · apply ensures_bind
    refine ensures_noteBreakGlass (h.withRule.noted hnoted) fun s' hs' => ?_
    refine ensures_modify ⟨hmakes, ?_⟩
    rw [hrules] at hs'
    exact { hs' with created := by rw [hs'.created, hcreated]; rfl }
  · apply ensures_bind
    refine ensures_noteBreakGlass (h.noted hnoted) fun s' hs' => ?_
    refine ensures_throw ⟨fun hmakes => hfails hmakes.1, [], [], .inl ⟨rfl, rfl⟩, ?_⟩
    rw [← hrules, ← hcreated]
    exact hs'
  · apply ensures_bind
    refine ensures_noteBreakGlass (h.withRule.noted hnoted) fun s' hs' => ?_
    refine ensures_throw ⟨fun hmakes => hmakes.1.verified hstrands.1, [env.inboundRule], [],
      .inr (.inr (.inl ⟨rfl, rfl, hstrands⟩)), ?_⟩
    rw [hrules] at hs'
    rw [← hcreated]
    exact hs'

theorem ensures_addOutboundRule
    (h : Ledger.Describes env host { l with rules := [env.inboundRule], created := [env.inRule] } s)
    (hfresh : env.Fresh host) :
    Ensures (addOutboundRule env) s
      (fun _ s' => env.Makes env.outboundRule ∧ Ledger.Describes env host { l with
        rules := [env.inboundRule, env.outboundRule], created := [env.inRule, env.outRule] } s')
      (fun _ s' => ¬ env.MakesRules ∧ ∃ rules created, RulesPartial env rules created ∧
        Ledger.Describes env host { l with rules, created } s') := by
  have hnone : s.host.rulesNamed cf env.outboundRule.name = [] := by
    have hdifferent : cf.equal env.inboundRule.name env.outRule.name = false := by
      rw [inboundRule_name, Bool.eq_false_iff]
      intro hequal
      have hsymm := equal_symm hequal
      rw [equal_outRule_inRule] at hsymm
      cases hsymm
    have houtside : host.rules.filter (fun rule => cf.equal rule.name env.outRule.name) = [] := hfresh.outRule
    show s.host.rules.filter (fun rule => cf.equal rule.name env.outRule.name) = []
    rw [h.rules, List.filter_append, houtside, List.nil_append]
    simp [hdifferent]
  unfold addOutboundRule
  apply ensures_bind
  refine (ensures_invokeNewOrReplaceRule hnone rfl).mono (fun created s₁ h₁ => ?_) fun _ _ h => h
  rcases h₁ with ⟨rfl, hnoted, hmakes⟩ | ⟨rfl, hnoted, hfails⟩ | ⟨rfl, hnoted, hstrands⟩
  · have hs₁ := h.withRule.noted hnoted
    refine ensures_modify ⟨hmakes, ?_⟩
    exact { hs₁ with created := by rw [hs₁.created]; rfl }
  · exact ensures_throw ⟨fun hmakes => hfails hmakes.2, _, _, .inr (.inl ⟨rfl, rfl⟩), h.noted hnoted⟩
  · exact ensures_throw ⟨fun hmakes => hmakes.2.verified hstrands.1, _, _,
      .inr (.inr (.inr ⟨rfl, rfl, hstrands⟩)), h.withRule.noted hnoted⟩

theorem ensures_addKillSwitchFirewallRules (h : l.Describes env host s) (hfresh : env.Fresh host)
    (hrules : l.rules = []) (hcreated : l.created = []) :
    Ensures (addKillSwitchFirewallRules env) s
      (fun _ s' => (env.accepts .createRules = true ∧ env.MakesRules ∧ Ledger.Describes env host { l with
          rules := [env.inboundRule, env.outboundRule], created := [env.inRule, env.outRule],
          rulesCreated := true } s') ∨
        (env.accepts .createRules = false ∧ Ledger.Describes env host { l with confirmDeclined := true } s'))
      (fun _ s' => env.accepts .createRules = true ∧ ¬ env.MakesRules ∧ ∃ rules created,
        RulesPartial env rules created ∧ Ledger.Describes env host { l with rules, created } s') := by
  unfold addKillSwitchFirewallRules Environment.shouldProcess
  cases hprompt : env.accepts .createRules with
  | false =>
    refine (ensures_declineConfirmation h).mono (fun _ s' hs' => .inr ⟨rfl, hs'⟩) fun _ _ h => h
  | true =>
    apply ensures_bind
    refine (ensures_addInboundRule h hfresh hrules hcreated).mono (fun _ s₁ h₁ => ?_)
      fun _ _ hfail => ⟨rfl, hfail⟩
    apply ensures_bind
    refine (ensures_addOutboundRule h₁.2 hfresh).mono (fun _ s₂ h₂ => ?_) fun _ _ hfail => ⟨rfl, hfail⟩
    exact ensures_modify (.inl ⟨rfl, ⟨h₁.1, h₂.1⟩, { h₂.2 with rulesCreated := rfl }⟩)

/-! ## Profiles -/

/-- A cmdlet that touches the quarantine flag only, and whose error is caught further out. -/
theorem ensures_invoke_quarantine {site : Invocation} {f : Host → List (String × String)}
    (h : l.Describes env host s) {Q : Unit → RunState → Prop} {E : String → RunState → Prop}
    (hok : ∀ s', l.Describes env host s' → Q () s') (herror : ∀ message, E message s) :
    Ensures (invoke env site fun host => .ok { host with quarantine := f host }) s Q E := by
  refine ensures_invoke (fun _ after hafter => ?_) fun _ => herror
  obtain rfl := Except.ok.inj hafter
  exact hok _ { h with }

theorem ensures_setQuarantineFlag (h : l.Describes env host s) {E : String → RunState → Prop} :
    Ensures (setQuarantineFlag env) s (fun _ s' => l.Describes env host s') E := by
  have herror : ∀ {s : RunState}, l.Describes env host s → ∀ message,
      Ensures (addRunError ("Registry flag write failed: " ++ message)) s (fun _ s' => l.Describes env host s') E :=
    fun hs message => ensures_addRunError fun _ hnoted => hs.noted hnoted
  unfold setQuarantineFlag writeQuarantineFlag setFlagValue setUserValue
  apply ensures_bind
  apply ensures_attempt
  apply ensures_bind
  refine ensures_invoke_quarantine h (fun s₁ h₁ => ?_) (herror h)
  apply ensures_bind
  refine ensures_invoke_quarantine h₁ (fun s₂ h₂ => ?_) (herror h₁)
  apply ensures_bind
  refine ensures_invoke_quarantine h₂ (fun s₃ h₃ => ?_) (herror h₂)
  apply ensures_bind
  refine ensures_invoke_quarantine h₃ (fun s₄ h₄ => ?_) (herror h₃)
  apply ensures_bind
  cases env.effective.includeUserInRegistry with
  | true =>
    simp only [if_true]
    refine ensures_invoke_quarantine h₄ (fun s₅ h₅ => ?_) (herror h₄)
    exact ensures_modify (ensures_pure { h₅ with })
  | false => exact ensures_pure (ensures_modify (ensures_pure { h₄ with }))

theorem isolate_profiles {first second : ProfileName → Bool} {before after : Host}
    (h : before.profiles = (after.isolate first).profiles) (hnone : first = fun _ => false) :
    (before.isolate second).profiles = (after.isolate second).profiles := by
  funext name
  show (if second name then _ else before.profiles name) = if second name then _ else after.profiles name
  rw [h, hnone]
  rfl

/-- The ledger behind a committed activation. -/
def Ledger.commit (l : Ledger) (declined : Bool) : Ledger :=
  { l with
    profiles := fun _ => true
    profilesSet := true
    firewallProfileSet := true
    committed := true
    confirmDeclined := declined }

theorem ensures_setNetFirewallProfile (h : l.Describes env host s) (hnone : l.profiles = fun _ => false) :
    Ensures (setNetFirewallProfile env) s
      (fun _ s' => ¬ env.Fails .setProfiles ∧
        Ledger.Describes env host { l with profiles := fun _ => true, profilesSet := true } s')
      (fun _ s' => env.Fails .setProfiles ∧ Ledger.Describes env host { l with profiles := env.reached } s') := by
  unfold setNetFirewallProfile
  cases hfault : env.fault .setProfiles with
  | none =>
    refine ensures_modify ⟨by simp [Environment.Fails, hfault], ?_⟩
    exact { h with profiles := isolate_profiles h.profiles hnone, profilesSet := rfl }
  | some message =>
    apply ensures_bind
    refine ensures_modify (ensures_throw ⟨by simp [Environment.Fails, hfault], ?_⟩)
    exact { h with profiles := isolate_profiles h.profiles hnone }

theorem ensures_enableKillSwitchFirewallProfiles (h : l.Describes env host s)
    (hnone : l.profiles = fun _ => false) :
    Ensures (enableKillSwitchFirewallProfiles env) s
      (fun _ s' => (l.confirmDeclined = false ∧ env.accepts .setProfiles = true ∧ ¬ env.Fails .setProfiles ∧
          ∃ declined, (l.commit declined).Describes env host s') ∨
        ((l.confirmDeclined = true ∨ env.accepts .setProfiles = false) ∧
          Ledger.Describes env host { l with confirmDeclined := true } s'))
      (fun _ s' => l.confirmDeclined = false ∧ env.accepts .setProfiles = true ∧ env.Fails .setProfiles ∧
        Ledger.Describes env host { l with profiles := env.reached } s') := by
  unfold enableKillSwitchFirewallProfiles Environment.shouldProcess
  apply ensures_bind
  refine ensures_get ?_
  rw [h.confirmDeclined]
  by_cases hgo : l.confirmDeclined = false ∧ env.accepts .setProfiles = true
  · rw [if_pos hgo]
    apply ensures_bind
    refine (ensures_setNetFirewallProfile h hnone).mono (fun _ s₁ h₁ => ?_)
      fun _ s₁ h₁ => ⟨hgo.1, hgo.2, h₁⟩
    apply ensures_bind
    have hcommit : (l.commit l.confirmDeclined).Describes env host
        { s₁ with
          actions.firewallProfileSet := true
          firewallActivationCommitted := true } :=
      { h₁.2 with firewallProfileSet := rfl, committed := rfl }
    refine ensures_modify ?_
    cases env.accepts .writeFlag with
    | true =>
      exact (ensures_setQuarantineFlag hcommit).mono (fun _ s₂ h₂ => .inl ⟨hgo.1, hgo.2, h₁.1, _, h₂⟩)
        fun _ _ h => h
    | false =>
      exact (ensures_declineConfirmation hcommit).mono (fun _ s₂ h₂ => .inl ⟨hgo.1, hgo.2, h₁.1, _, h₂⟩)
        fun _ _ h => h
  · rw [if_neg hgo]
    refine (ensures_declineConfirmation h).mono (fun _ s₁ h₁ => .inr ⟨?_, h₁⟩) fun _ _ h => h
    cases hdeclined : l.confirmDeclined with
    | true => exact .inl rfl
    | false =>
      right
      rw [Bool.eq_false_iff]
      exact fun haccepts => hgo ⟨hdeclined, haccepts⟩

/-! ## Adapters -/

theorem disableAll_append (names : List String) (name : String) :
    host.disableAll cf (names ++ [name]) = (host.disableAll cf names).disableAdapter cf name := by
  rw [Host.disableAll, List.foldl_append]
  rfl

theorem adapter_names_disableAll (names : List String) :
    (host.disableAll cf names).adapters.map (·.name) = host.adapters.map (·.name) := by
  induction names generalizing host with
  | nil => rfl
  | cons name names ih =>
    have hcons : host.disableAll cf (name :: names) = (host.disableAdapter cf name).disableAll cf names := rfl
    rw [hcons, ih, Host.disableAdapter, List.map_map]
    refine List.map_congr_left fun adapter _ => ?_
    simp only [Function.comp_apply]
    split_ifs <;> rfl

theorem disableAdapter_adapters {before after : Host} (h : before.adapters = after.adapters) (name : String) :
    (before.disableAdapter cf name).adapters = (after.disableAdapter cf name).adapters := by
  unfold Host.disableAdapter
  rw [h]

/-- The loop over the adapters: it stops at the first failing call. -/
theorem ensures_disableNetAdapters {round : ℕ} {names : List String} (h : l.Describes env host s)
    (hnames : ∀ name ∈ names, name ∈ host.adapters.map (·.name)) :
    Ensures (disableNetAdapters env round names) s
      (fun _ s' => (∀ i < names.length, ¬ env.Fails (.disableAdapter (round + i))) ∧
        Ledger.Describes env host { l with disabled := l.disabled ++ names } s')
      (fun _ s' => ∃ i < names.length, env.Fails (.disableAdapter (round + i)) ∧
        Ledger.Describes env host { l with disabled := l.disabled ++ names.take i } s') := by
  induction names generalizing round s l with
  | nil =>
    refine ensures_pure ⟨fun i hi => absurd hi (Nat.not_lt_zero i), ?_⟩
    exact { h with disabled := by rw [List.append_nil]; exact h.disabled }
  | cons name names ih =>
    have hpresent : (s.host.adapters.any fun adapter => cf.equal adapter.name name) = true := by
      have hmem := hnames name List.mem_cons_self
      rw [← @adapter_names_disableAll cf host l.disabled, ← h.disabled, List.mem_map] at hmem
      obtain ⟨adapter, hadapter, rfl⟩ := hmem
      exact List.any_eq_true.mpr ⟨adapter, hadapter, equal_self _⟩
    unfold disableNetAdapters
    apply ensures_bind
    refine ensures_invoke (fun hgood after hafter => ?_) fun hfails message => ?_
    · rw [hpresent, if_pos rfl] at hafter
      obtain rfl := Except.ok.inj hafter
      have hstep : Ledger.Describes env host { l with disabled := l.disabled ++ [name] }
          { s with host := s.host.disableAdapter cf name } :=
        { h with
          disabled := by
            show (s.host.disableAdapter cf name).adapters = (host.disableAll cf (l.disabled ++ [name])).adapters
            rw [disableAll_append]
            exact disableAdapter_adapters h.disabled name }
      refine (ih hstep fun n hn => hnames n (List.mem_cons_of_mem name hn)).mono (fun _ s' hs' => ?_)
        fun _ s' hs' => ?_
      · refine ⟨fun i hi => ?_, ?_⟩
        · cases i with
          | zero => exact hgood
          | succ i =>
            have hrest := hs'.1 i (by simpa using hi)
            rwa [show round + 1 + i = round + (i + 1) by omega] at hrest
        · have hdescribes := hs'.2
          rwa [List.append_assoc, List.singleton_append] at hdescribes
      · obtain ⟨i, hi, hfails, hdescribes⟩ := hs'
        refine ⟨i + 1, by simpa using hi, ?_, ?_⟩
        · rwa [show round + (i + 1) = round + 1 + i by omega]
        · rwa [List.append_assoc, List.singleton_append] at hdescribes
    · rcases hfails with hfails | ⟨_, herror⟩
      · refine ⟨0, by simp, hfails, ?_⟩
        rw [List.take_zero, List.append_nil]
        exact h
      · rw [hpresent, if_pos rfl] at herror
        cases herror

/-- The adapters that a run disables when it comes to that: those of the snapshot, or of the host. -/
def Ledger.targets (env : Environment cf) (host : Host) (l : Ledger) : List String :=
  if env.effective.autoRollbackMinutes = 0 then host.upAdapters else l.names

/-- The ledger behind adapters that were disabled. -/
def Ledger.disabling (l : Ledger) (targets disabled : List String) (complete : Bool) : Ledger :=
  { l with
    names := targets
    disabled := disabled
    adaptersDisabled := complete }

theorem mem_adapter_names_of_mem_upAdapters {name : String} (h : name ∈ host.upAdapters) :
    name ∈ host.adapters.map (·.name) := by
  obtain ⟨adapter, hadapter, rfl⟩ := List.mem_map.mp h
  exact List.mem_map_of_mem (List.mem_filter.mp hadapter).1

theorem ensures_listAdapterNames (h : l.Describes env host s) (hnone : l.disabled = []) :
    Ensures (listAdapterNames env) s
      (fun _ s' => (env.effective.autoRollbackMinutes = 0 → ¬ env.Fails .listAdapters) ∧
        Ledger.Describes env host { l with names := l.targets env host } s')
      (fun _ s' => env.effective.autoRollbackMinutes = 0 ∧ env.Fails .listAdapters ∧ l.Describes env host s') := by
  unfold listAdapterNames Ledger.targets
  by_cases hminutes : env.effective.autoRollbackMinutes = 0
  · simp only [hminutes, if_true]
    apply ensures_bind
    refine ensures_query (fun hgood => ?_) fun hfails _ => ⟨trivial, hfails, h⟩
    refine ensures_modify ⟨fun _ => hgood, { h with names := ?_ }⟩
    show s.host.upAdapters = host.upAdapters
    have hadapters : s.host.adapters = host.adapters := by
      rw [h.disabled, hnone]
      rfl
    unfold Host.upAdapters
    rw [hadapters]
  · simp only [hminutes, if_false]
    exact ensures_pure ⟨fun hzero => absurd hzero not_false, { h with }⟩

theorem ensures_disableKillSwitchNetworkAdapters (h : l.Describes env host s) (hnone : l.disabled = [])
    (hnames : ∀ name ∈ l.names, name ∈ host.adapters.map (·.name)) :
    Ensures (disableKillSwitchNetworkAdapters env) s
      (fun _ s' => (env.effective.disableAdapters = true ∧ env.accepts .disableAdapters = true ∧
          (env.effective.autoRollbackMinutes = 0 → ¬ env.Fails .listAdapters) ∧
          (∀ i < (l.targets env host).length, ¬ env.Fails (.disableAdapter i)) ∧
          (l.disabling (l.targets env host) (l.targets env host) (decide (l.targets env host ≠ []))).Describes
            env host s') ∨
        ((env.effective.disableAdapters = false ∨ env.accepts .disableAdapters = false) ∧
          ∃ declined, Ledger.Describes env host { l with confirmDeclined := declined } s'))
      (fun _ s' => env.effective.disableAdapters = true ∧ env.accepts .disableAdapters = true ∧
        ((env.effective.autoRollbackMinutes = 0 ∧ env.Fails .listAdapters ∧ l.Describes env host s') ∨
          ∃ i < (l.targets env host).length, env.Fails (.disableAdapter i) ∧
            (l.disabling (l.targets env host) ((l.targets env host).take i) l.adaptersDisabled).Describes
              env host s')) := by
  have htargets : ∀ name ∈ l.targets env host, name ∈ host.adapters.map (·.name) := by
    intro name hname
    unfold Ledger.targets at hname
    split_ifs at hname
    · exact mem_adapter_names_of_mem_upAdapters hname
    · exact hnames name hname
  unfold disableKillSwitchNetworkAdapters Environment.shouldProcess
  cases hrequested : env.effective.disableAdapters with
  | false => exact ensures_pure (.inr ⟨.inl rfl, l.confirmDeclined, h⟩)
  | true =>
    cases hprompt : env.accepts .disableAdapters with
    | false =>
      exact (ensures_declineConfirmation h).mono (fun _ s' hs' => .inr ⟨.inr rfl, true, hs'⟩) fun _ _ h => h
    | true =>
      apply ensures_bind
      refine (ensures_listAdapterNames h hnone).mono (fun _ s₁ h₁ => ?_)
        fun _ s₁ h₁ => ⟨rfl, rfl, .inl h₁⟩
      apply ensures_bind
      refine ensures_get ?_
      apply ensures_bind
      rw [h₁.2.names]
      refine (ensures_disableNetAdapters h₁.2 htargets).mono (fun _ s₂ h₂ => ?_) fun _ s₂ h₂ => ?_
      · have hdisabled := h₂.2
        simp only [hnone, List.nil_append, Nat.zero_add] at h₂ hdisabled
        refine ensures_modify (.inl ⟨rfl, rfl, h₁.1, h₂.1, ?_⟩)
        refine { hdisabled with adaptersDisabled := ?_ }
        show decide (s₂.adapterNamesToDisable ≠ []) = _
        rw [hdisabled.names]
        rfl
      · obtain ⟨i, hi, hfails, hdisabled⟩ := h₂
        rw [hnone, List.nil_append] at hdisabled
        rw [Nat.zero_add] at hfails
        exact ⟨rfl, rfl, .inr ⟨i, hi, hfails, hdisabled⟩⟩

/-! ## Cleanup -/

/-- A call of the removal of a rule fails. -/
def Environment.FailsRemoval (env : Environment cf) (rule : ManagedRule) : Prop :=
  env.Fails (.managedRules rule.name) ∨ env.Fails (.removeManagedRules rule.name)

/-- The rules that carry no name of the given ones. -/
def withoutRules (cf : CaseFold) (created : List ManagedRule) (rules : List FirewallRule) : List FirewallRule :=
  rules.filter fun rule => !created.any fun removed => cf.equal rule.name removed.name

/-- Rules that a run may have put on the host. -/
def OwnRules (env : Environment cf) (rules : List FirewallRule) : Prop :=
  ∀ rule ∈ rules, rule = env.inboundRule ∨ rule = env.outboundRule

theorem OwnRules.owns {rules : List FirewallRule} (h : OwnRules env rules) {removed : ManagedRule}
    (hremoved : removed = env.inRule ∨ removed = env.outRule) {rule : FirewallRule} (hrule : rule ∈ rules)
    (hname : cf.equal rule.name removed.name = true) : removed.owns cf rule = true := by
  have hdifferent := @equal_outRule_inRule cf env
  obtain rfl | rfl := h rule hrule <;> obtain rfl | rfl := hremoved
  · exact inRule_owns_inboundRule
  · rw [inboundRule_name] at hname
    rw [equal_symm hname] at hdifferent
    cases hdifferent
  · rw [show env.outboundRule.name = env.outRule.name from rfl, hdifferent] at hname
    cases hname
  · exact outRule_owns_outboundRule

theorem Environment.Fresh.rulesNamed (h : env.Fresh host) {removed : ManagedRule}
    (hremoved : removed = env.inRule ∨ removed = env.outRule) :
    host.rules.filter (fun rule => cf.equal rule.name removed.name) = [] := by
  obtain rfl | rfl := hremoved
  · exact h.inRule
  · exact h.outRule

theorem ensures_removeManagedRule {removed : ManagedRule} (h : l.Describes env host s) (hfresh : env.Fresh host)
    (hown : OwnRules env l.rules) (hremoved : removed = env.inRule ∨ removed = env.outRule) :
    Ensures (removeManagedRule env removed) s
      (fun _ s' => Ledger.Describes env host { l with rules := withoutRules cf [removed] l.rules } s' ∨
        env.FailsRemoval removed ∧ l.Describes env host s')
      (fun _ s' => env.FailsRemoval removed ∧ l.Describes env host s') := by
  have houtside := hfresh.rulesNamed hremoved
  have hfound : s.host.rulesNamed cf removed.name =
      l.rules.filter fun rule => cf.equal rule.name removed.name := by
    rw [Host.rulesNamed, h.rules, List.filter_append, houtside, List.nil_append]
  have howned : (s.host.rulesNamed cf removed.name).filter (removed.owns cf) = s.host.rulesNamed cf removed.name := by
    rw [hfound]
    refine List.filter_eq_self.mpr fun rule hrule => ?_
    exact hown.owns hremoved (List.mem_filter.mp hrule).1 (List.mem_filter.mp hrule).2
  have hwithout : withoutRules cf [removed] l.rules =
      l.rules.filter fun rule => !cf.equal rule.name removed.name := by
    simp [withoutRules]
  have hkept : host.rules.filter (fun rule => !cf.equal rule.name removed.name) = host.rules := by
    refine List.filter_eq_self.mpr fun rule hrule => ?_
    simpa using List.filter_eq_nil_iff.mp houtside rule hrule
  unfold removeManagedRule
  apply ensures_bind
  refine ensures_rulesNamedSilently ?_ fun hfails => ?_
  · simp only [howned, ne_eq, not_true_eq_false, if_false]
    by_cases hnone : s.host.rulesNamed cf removed.name = []
    · simp only [hnone, not_true_eq_false, if_false]
      refine ensures_pure (.inl ?_)
      rw [hfound] at hnone
      refine { h with rules := ?_ }
      rw [h.rules, hwithout]
      congr 1
      refine (List.filter_eq_self.mpr fun rule hrule => ?_).symm
      simpa using List.filter_eq_nil_iff.mp hnone rule hrule
    · simp only [hnone, not_false_eq_true, if_true]
      refine ensures_invoke (fun _ after hafter => .inl ?_) fun hfails _ => ⟨.inr ?_, h⟩
      · obtain rfl := Except.ok.inj hafter
        refine { h with rules := ?_ }
        show s.host.rules.filter (fun rule => !cf.equal rule.name removed.name) = _
        rw [h.rules, List.filter_append, hkept, hwithout]
      · rcases hfails with hfails | ⟨_, herror⟩
        · exact hfails
        · cases herror
  · simp only [List.filter_nil, ne_eq, not_true_eq_false, if_false]
    exact ensures_pure (.inr ⟨.inl hfails, h⟩)

/-- What removal leaves: all rules without a name of the removed ones where no call fails. -/
def Removed (env : Environment cf) (removed : List ManagedRule) (before after : List FirewallRule) : Prop :=
  after.Sublist before ∧
    ((∀ rule ∈ removed, ¬ env.FailsRemoval rule) → after = withoutRules cf removed before)

theorem withoutRules_append (first second : List ManagedRule) (rules : List FirewallRule) :
    withoutRules cf (first ++ second) rules = withoutRules cf second (withoutRules cf first rules) := by
  unfold withoutRules
  rw [List.filter_filter]
  refine List.filter_congr fun rule _ => ?_
  rw [List.any_append, Bool.not_or, Bool.and_comm]

theorem ensures_removeExactManagedFirewallRules {created : List ManagedRule} (h : l.Describes env host s)
    (hfresh : env.Fresh host) (hown : OwnRules env l.rules)
    (hcreated : ∀ removed ∈ created, removed = env.inRule ∨ removed = env.outRule)
    (hvalid : assertManagedFirewallRules cf created = .ok ()) :
    Ensures (removeExactManagedFirewallRules env created) s
      (fun _ s' => ∃ rules, Removed env created l.rules rules ∧ Ledger.Describes env host { l with rules } s')
      (fun _ s' => ∃ rules, Removed env created l.rules rules ∧ Ledger.Describes env host { l with rules } s') := by
  unfold removeExactManagedFirewallRules
  rw [hvalid]
  apply ensures_bind
  refine ensures_check (fun _ _ => ?_) fun _ herror => by cases herror
  -- the rules that are left behind the removals done so far
  have hloop := @ensures_forM_done String RunState ManagedRule
    (fun _ s' => ∃ rules, Removed env created l.rules rules ∧ Ledger.Describes env host { l with rules } s')
    s created (removeManagedRule env)
    (fun done s' => ∃ rules, Removed env done l.rules rules ∧ Ledger.Describes env host { l with rules } s') []
  refine (hloop ?_ ?_).mono (fun _ _ h => h) fun _ _ h => h
  · refine ⟨l.rules, ⟨List.Sublist.refl _, fun _ => ?_⟩, { h with }⟩
    simp [withoutRules]
  · rintro done removed hremoved s₁ ⟨rules, ⟨hsub, hexact⟩, h₁⟩
    have hown₁ : OwnRules env rules := fun rule hrule => hown rule (hsub.subset hrule)
    refine (ensures_removeManagedRule h₁ hfresh hown₁ (hcreated removed hremoved)).mono (fun _ s₂ h₂ => ?_)
      fun _ s₂ h₂ => ?_
    · rcases h₂ with h₂ | ⟨hfails, h₂⟩
      · refine ⟨_, ⟨List.filter_sublist.trans hsub, fun hgood => ?_⟩, h₂⟩
        rw [withoutRules_append, hexact fun rule hrule => hgood rule (List.mem_append_left _ hrule)]
        rfl
      · exact ⟨rules, ⟨hsub, fun hgood => absurd hfails
          (hgood removed (List.mem_append_right _ (List.mem_singleton_self removed)))⟩, h₂⟩
    · refine ⟨rules, ⟨hsub, fun hgood => ?_⟩, h₂.2⟩
      exact absurd h₂.1 (hgood removed hremoved)

/-- The ledger behind the cleanup of an activation that was not committed. -/
def Ledger.undone (l : Ledger) (rules : List FirewallRule) : Ledger :=
  { l with
    rules := rules
    task := if l.rollbackScheduled then none else l.task
    rollbackScheduled := false }

/-- The ways in which the cleanup ends: it leaves a committed activation alone, and removes rules only
    behind the rollback task. -/
def Undone (env : Environment cf) (l l' : Ledger) : Prop :=
  (l.committed = true ∧ l' = l) ∨
  (l.committed = false ∧ l.rollbackScheduled = true ∧ env.Fails .unregisterTask ∧ l' = l) ∨
  (l.committed = false ∧ (l.rollbackScheduled = true → ¬ env.Fails .unregisterTask) ∧
    ∃ rules, Removed env l.created l.rules rules ∧ l' = l.undone rules)

/-- What the cleanup relies on. -/
structure Ledger.Undoable (env : Environment cf) (l : Ledger) : Prop where
  own : OwnRules env l.rules
  created : ∀ removed ∈ l.created, removed = env.inRule ∨ removed = env.outRule
  valid : l.created ≠ [] → assertManagedFirewallRules cf l.created = .ok ()
  scheduled : l.rollbackScheduled = true → l.task ≠ none

theorem ensures_cancelRollbackTask (h : l.Describes env host s) (hfresh : env.Fresh host)
    (hundo : l.Undoable env) {E : String → RunState → Prop} :
    Ensures (cancelRollbackTask env) s
      (fun cancelled s' =>
        (cancelled = true ∧ l.committed = true ∧ l.Describes env host s') ∨
        (cancelled = true ∧ l.committed = false ∧ (l.rollbackScheduled = true → ¬ env.Fails .unregisterTask) ∧
          (l.undone l.rules).Describes env host s') ∨
        (cancelled = false ∧ l.committed = false ∧ l.rollbackScheduled = true ∧ env.Fails .unregisterTask ∧
          l.Describes env host s')) E := by
  unfold cancelRollbackTask
  apply ensures_bind
  refine ensures_get ?_
  rw [h.committed, h.rollbackScheduled]
  by_cases hcancel : l.committed = false ∧ l.rollbackScheduled = true
  · obtain ⟨hcommitted, hscheduled⟩ := hcancel
    obtain ⟨json, hjson⟩ := Option.ne_none_iff_exists'.mp (hundo.scheduled hscheduled)
    have htasks : s.host.tasks = host.tasks ++ [env.rollbackTask json] := by
      rw [h.task, hjson]
      rfl
    have hpresent : (s.host.tasks.any fun task => cf.equal task.taskName env.rollbackTaskName) = true := by
      rw [htasks]
      exact List.any_eq_true.mpr ⟨env.rollbackTask json, List.mem_append_right _ (List.mem_singleton_self _),
        equal_self _⟩
    have hremoved : s.host.tasks.filter (fun task => !cf.equal task.taskName env.rollbackTaskName) = host.tasks := by
      have hown : [env.rollbackTask json].filter (fun task => !cf.equal task.taskName env.rollbackTaskName) = [] := by
        simp [Environment.rollbackTask, equal_self]
      rw [htasks, List.filter_append, hown, List.append_nil]
      exact List.filter_eq_self.mpr fun task htask => by simp [hfresh.task task htask]
    rw [if_pos ⟨hcommitted, hscheduled⟩]
    apply ensures_bind
    apply ensures_attempt
    refine ensures_invoke (fun hgood after hafter => ?_) fun hfails message => ?_
    · rw [hpresent, if_pos rfl] at hafter
      obtain rfl := Except.ok.inj hafter
      apply ensures_bind
      refine ensures_modify (ensures_pure (.inr (.inl ⟨rfl, hcommitted, fun _ => hgood, ?_⟩)))
      have hnone : (l.undone l.rules).task = none := by simp [Ledger.undone, hscheduled]
      refine { h with task := ?_, rollbackScheduled := rfl }
      rw [hnone]
      exact hremoved.trans (List.append_nil _).symm
    · apply ensures_bind
      refine ensures_addRunError fun s₁ h₁ => ensures_pure (.inr (.inr ⟨rfl, hcommitted, hscheduled, ?_, h.noted h₁⟩))
      rcases hfails with hfails | ⟨_, herror⟩
      · exact hfails
      · rw [hpresent, if_pos rfl] at herror
        cases herror
  · rw [if_neg hcancel]
    refine ensures_pure ?_
    cases hcommitted : l.committed with
    | true => exact .inl ⟨rfl, rfl, h⟩
    | false =>
      have hscheduled : l.rollbackScheduled = false := by
        rw [Bool.eq_false_iff]
        exact fun hscheduled => hcancel ⟨hcommitted, hscheduled⟩
      refine .inr (.inl ⟨rfl, rfl, fun htrue => ?_, ?_⟩)
      · rw [hscheduled] at htrue
        cases htrue
      · refine { h with task := ?_, rollbackScheduled := ?_ }
        · rw [h.task]
          simp [Ledger.undone, hscheduled]
        · rw [h.rollbackScheduled, hscheduled]
          rfl

theorem ensures_undo (h : l.Describes env host s) (hfresh : env.Fresh host) (hundo : l.Undoable env)
    {E : String → RunState → Prop} :
    Ensures (undoPartialKillSwitchActivation env) s
      (fun _ s' => ∃ l', Undone env l l' ∧ l'.Describes env host s') E := by
  unfold undoPartialKillSwitchActivation
  apply ensures_bind
  refine (ensures_cancelRollbackTask h hfresh hundo).mono (fun cancelled s₁ h₁ => ?_) fun _ _ h => h
  apply ensures_bind
  refine ensures_get ?_
  rcases h₁ with ⟨rfl, hcommitted, h₁⟩ | ⟨rfl, hcommitted, hgood, h₁⟩ | ⟨rfl, hcommitted, hscheduled, hfails, h₁⟩
  · rw [h₁.committed, hcommitted]
    simp only [testKillSwitchPartialCleanupAllowed, Bool.not_true, Bool.false_and, Bool.false_eq_true, false_and,
      if_false]
    exact ensures_pure ⟨l, .inl ⟨hcommitted, rfl⟩, h₁⟩
  · have hstate : s₁.firewallActivationCommitted = false := h₁.committed.trans hcommitted
    have hcreated : s₁.createdManagedRules = l.created := h₁.created
    rw [hstate, hcreated]
    simp only [testKillSwitchPartialCleanupAllowed, Bool.not_false, Bool.true_and, true_and]
    have hfinish : ∀ {rules : List FirewallRule} {s' : RunState}, Removed env l.created l.rules rules →
        (l.undone rules).Describes env host s' → ∃ l', Undone env l l' ∧ l'.Describes env host s' :=
      fun hremoved hs' => ⟨_, .inr (.inr ⟨hcommitted, hgood, _, hremoved, rfl⟩), hs'⟩
    by_cases hnone : l.created = []
    · rw [if_neg (by simp [hnone])]
      refine ensures_pure (hfinish ⟨List.Sublist.refl _, fun _ => ?_⟩ h₁)
      rw [hnone]
      simp [withoutRules]
    · rw [if_pos hnone]
      apply ensures_bind
      apply ensures_attempt
      refine (ensures_removeExactManagedFirewallRules h₁ hfresh hundo.own hundo.created
        (hundo.valid hnone)).mono (fun _ s₂ h₂ => ?_) fun message s₂ h₂ => ?_
      · obtain ⟨rules, hremoved, h₂⟩ := h₂
        exact ensures_pure (hfinish hremoved h₂)
      · obtain ⟨rules, hremoved, h₂⟩ := h₂
        exact ensures_addRunError fun s₃ h₃ => hfinish hremoved (h₂.noted h₃)
  · rw [h₁.committed, hcommitted]
    simp only [testKillSwitchPartialCleanupAllowed, Bool.and_false, Bool.false_eq_true, false_and, if_false]
    exact ensures_pure ⟨l, .inr (.inl ⟨hcommitted, hscheduled, hfails, rfl⟩), h₁⟩

/-! ## Preparation -/

/-- No remediation holds the lock, and nothing on the host has an identity of an earlier activation. -/
structure Environment.Clear (env : Environment cf) (host : Host) : Prop where
  unlocked : env.lockHeld = false
  rules : host.ruleConflicts cf env.effective.rulePrefix = []
  tasks : host.taskConflicts cf env.effective.taskName = []

theorem rulesNamed_of_ruleConflicts (h : host.ruleConflicts cf env.effective.rulePrefix = []) {suffix name : String}
    (hsuffix : suffix ∈ ruleSuffixes) (hname : name = env.ruleName suffix) : host.rulesNamed cf name = [] := by
  refine List.filter_eq_nil_iff.mpr fun rule hrule hequal => ?_
  rw [hname] at hequal
  exact List.filter_eq_nil_iff.mp h rule hrule (matches_managedRulePattern env hsuffix (equal_self _) hequal)

theorem Environment.Clear.fresh (h : env.Clear host) : env.Fresh host where
  inRule := by
    obtain ⟨suffix, hsuffix, hname⟩ := inRule_name env
    exact rulesNamed_of_ruleConflicts h.rules hsuffix hname
  outRule := by
    obtain ⟨suffix, hsuffix, hname⟩ := outRule_name env
    exact rulesNamed_of_ruleConflicts h.rules hsuffix hname
  task := by
    intro task htask
    rw [Bool.eq_false_iff]
    intro hequal
    exact List.filter_eq_nil_iff.mp h.tasks task htask (matches_rollbackTaskPattern env (equal_self _) hequal)

/-- The calls before the first change of the firewall. -/
def preparationSites : List Invocation :=
  [.enterLock, .inventoryRules, .inventoryTasks, .captureProfiles, .captureAdapters, .convertToJson,
    .verifyFromJson, .adaptersFromJson, .rollbackTime, .resolvePowerShell, .newTaskDefinition, .registerTask]

/-- One of those calls fails. -/
def Environment.FailsPreparation (env : Environment cf) : Prop := ∃ site ∈ preparationSites, env.Fails site

theorem failsPreparation {site : Invocation} (h : env.Fails site) (hsite : site ∈ preparationSites := by decide) :
    env.FailsPreparation :=
  ⟨site, hsite, h⟩

theorem ensures_testNoManagedFirewallRuleConflicts (h : l.Describes env host s) (hrules : l.rules = [])
    (htask : l.task = none) {E : String → RunState → Prop} :
    Ensures (testNoManagedFirewallRuleConflicts env) s
      (fun clear s' => l.Describes env host s' ∧
        ((clear = true ∧ host.ruleConflicts cf env.effective.rulePrefix = [] ∧
            host.taskConflicts cf env.effective.taskName = []) ∨
          (clear = false ∧ (¬ env.Clear host ∨ env.FailsPreparation)))) E := by
  have hsameRules : s.host.rules = host.rules := by rw [h.rules, hrules, List.append_nil]
  have hsameTasks : s.host.tasks = host.tasks := by
    rw [h.task, htask]
    exact List.append_nil _
  unfold testNoManagedFirewallRuleConflicts inventory
  apply ensures_bind
  apply ensures_attempt
  apply ensures_bind
  refine ensures_query (fun _ => ?_) fun hfails message =>
    ensures_refuse fun s₁ h₁ => ⟨h.noted h₁, .inr ⟨rfl, .inr (failsPreparation hfails)⟩⟩
  apply ensures_bind
  refine ensures_query (fun _ => ?_) fun hfails message =>
    ensures_refuse fun s₁ h₁ => ⟨h.noted h₁, .inr ⟨rfl, .inr (failsPreparation hfails)⟩⟩
  have hfoundRules : s.host.ruleConflicts cf env.effective.rulePrefix =
      host.ruleConflicts cf env.effective.rulePrefix := by
    unfold Host.ruleConflicts
    rw [hsameRules]
  have hfoundTasks : s.host.taskConflicts cf env.effective.taskName =
      host.taskConflicts cf env.effective.taskName := by
    unfold Host.taskConflicts
    rw [hsameTasks]
  rw [hfoundRules, hfoundTasks]
  have hunclear : ∀ {answer}, identities (host.ruleConflicts cf env.effective.rulePrefix)
      (host.taskConflicts cf env.effective.taskName) = answer → answer ≠ .ok none → ¬ env.Clear host := by
    intro answer hanswer hne hclear
    exact hne (hanswer.symm.trans (identities_none_iff.mpr ⟨hclear.rules, hclear.tasks⟩))
  apply ensures_check
  · intro found hfound
    cases found with
    | none => exact ensures_pure ⟨h, .inl ⟨rfl, identities_none_iff.mp hfound⟩⟩
    | some names => exact ensures_refuse fun s₁ h₁ => ⟨h.noted h₁, .inr ⟨rfl, .inl (hunclear hfound (by simp))⟩⟩
  · intro message hfound
    exact ensures_refuse fun s₁ h₁ => ⟨h.noted h₁, .inr ⟨rfl, .inl (hunclear hfound (by simp))⟩⟩

theorem ensures_step02Stage01 (h : l.Describes env host s) (hrules : l.rules = []) (htask : l.task = none) :
    Ensures (step02Stage01 env) s (fun _ s' => env.Clear host ∧ l.Describes env host s')
      (fun _ s' => (¬ env.Clear host ∨ env.FailsPreparation) ∧ l.Describes env host s') := by
  unfold step02Stage01
  apply ensures_bind
  refine ensures_query (fun _ => ?_) fun hfails _ => ⟨.inr (failsPreparation hfails), h⟩
  cases hlock : env.lockHeld with
  | true =>
    apply ensures_bind
    refine ensures_addRunError fun s₁ h₁ => ensures_throw ⟨.inl fun hclear => ?_, h.noted h₁⟩
    rw [hclear.unlocked] at hlock
    cases hlock
  | false =>
    simp only [Bool.false_eq_true, if_false]
    apply ensures_bind
    refine (ensures_testNoManagedFirewallRuleConflicts h hrules htask).mono (fun clear s₁ h₁ => ?_) fun _ _ h => h
    obtain ⟨h₁, ⟨rfl, hrules, htasks⟩ | ⟨rfl, hreason⟩⟩ := h₁
    · exact ensures_pure ⟨⟨hlock, hrules, htasks⟩, h₁⟩
    · exact ensures_throw ⟨hreason, h₁⟩

/-! ### Capture -/

/-- The snapshot of a run on a host. -/
def Environment.snapshotOf (env : Environment cf) (host : Host) : Except String Snapshot := do
  let profiles ← ProfileName.all.mapM (snapshotProfile host.profiles)
  return ⟨3, profiles, if env.effective.disableAdapters then host.upAdapters else [], env.managedRules⟩

/-- The snapshot of the host is a valid one, and this text stands for it. -/
structure Environment.Captures (env : Environment cf) (host : Host) (snapshot : Snapshot) (json : String) : Prop where
  captured : env.snapshotOf host = .ok snapshot
  valid : assertCanonicalFirewallSnapshot cf snapshot = .ok ()
  written : env.json.convertTo snapshot = json
  read : env.json.convertFrom json = some snapshot
  shown : json.toList.all isWhitespace = false

/-- The ledger before the firewall is changed: at most a snapshot has been taken. -/
structure Ledger.Blank (l : Ledger) : Prop where
  rules : l.rules = []
  task : l.task = none
  profiles : l.profiles = fun _ => false
  disabled : l.disabled = []
  profilesSet : l.profilesSet = false
  rollbackScheduled : l.rollbackScheduled = false
  rulesCreated : l.rulesCreated = false
  firewallProfileSet : l.firewallProfileSet = false
  adaptersDisabled : l.adaptersDisabled = false
  committed : l.committed = false
  isolationActive : l.isolationActive = false
  created : l.created = []

theorem Ledger.blank_start : Ledger.Blank {} := ⟨rfl, rfl, rfl, rfl, rfl, rfl, rfl, rfl, rfl, rfl, rfl, rfl⟩

theorem Ledger.Blank.profiles_eq (h : l.Blank) (hs : l.Describes env host s) : s.host.profiles = host.profiles := by
  rw [hs.profiles, h.profiles]
  rfl

theorem Ledger.Blank.upAdapters_eq (h : l.Blank) (hs : l.Describes env host s) :
    s.host.upAdapters = host.upAdapters := by
  have hadapters : s.host.adapters = host.adapters := by
    rw [hs.disabled, h.disabled]
    rfl
  unfold Host.upAdapters
  rw [hadapters]

theorem ensures_captureAdapterNames (h : l.Describes env host s) (hblank : l.Blank) :
    Ensures (captureAdapterNames env) s
      (fun names s' => s' = s ∧ names = if env.effective.disableAdapters then host.upAdapters else [])
      (fun _ s' => s' = s ∧ env.FailsPreparation) := by
  unfold captureAdapterNames
  cases env.effective.disableAdapters with
  | true => exact ensures_query (fun _ => ⟨rfl, hblank.upAdapters_eq h⟩) fun hfails _ => ⟨rfl, failsPreparation hfails⟩
  | false => exact ensures_pure ⟨rfl, rfl⟩

theorem ensures_captureSnapshot (h : l.Describes env host s) (hblank : l.Blank) :
    Ensures (captureSnapshot env) s
      (fun json s' => l.Describes env host s' ∧ ∃ snapshot, env.snapshotOf host = .ok snapshot ∧
        assertCanonicalFirewallSnapshot cf snapshot = .ok () ∧ env.json.convertTo snapshot = json ∧
        env.json.convertFrom json = some snapshot)
      (fun _ s' => l.Describes env host s' ∧ ((∀ snapshot json, ¬ env.Captures host snapshot json) ∨
        env.FailsPreparation)) := by
  have hfailing : ∀ {site : Invocation}, site ∈ preparationSites → env.Fails site → ∀ {s' : RunState}, s' = s →
      l.Describes env host s' ∧ ((∀ snapshot json, ¬ env.Captures host snapshot json) ∨ env.FailsPreparation) := by
    rintro site hsite hfails s' rfl
    exact ⟨h, .inr ⟨site, hsite, hfails⟩⟩
  unfold captureSnapshot
  apply ensures_bind
  refine ensures_query (fun _ => ?_) fun hfails _ => hfailing (by decide) hfails rfl
  apply ensures_bind
  rw [hblank.profiles_eq h]
  refine ensures_check (fun profiles hprofiles => ?_) fun message hmessage => ⟨h, .inl fun snapshot json hcaptures => ?_⟩
  · apply ensures_bind
    refine (ensures_captureAdapterNames h hblank).mono (fun names s₁ h₁ => ?_)
      fun _ s₁ h₁ => ⟨h₁.1 ▸ h, .inr h₁.2⟩
    obtain ⟨rfl, rfl⟩ := h₁
    have hsnapshot : env.snapshotOf host = .ok ⟨3, profiles,
        if env.effective.disableAdapters then host.upAdapters else [], env.managedRules⟩ := by
      rw [Environment.snapshotOf, hprofiles]
      rfl
    have hunique : ∀ snapshot json, env.Captures host snapshot json → snapshot = ⟨3, profiles,
        if env.effective.disableAdapters then host.upAdapters else [], env.managedRules⟩ := by
      intro snapshot json hcaptures
      have hboth := hcaptures.captured
      rw [hsnapshot] at hboth
      exact (Except.ok.inj hboth).symm
    apply ensures_bind
    refine ensures_check (fun _ hvalid => ?_) fun message hmessage => ⟨h, .inl fun snapshot json hcaptures => ?_⟩
    · apply ensures_bind
      refine ensures_query (fun _ => ?_) fun hfails _ => hfailing (by decide) hfails rfl
      apply ensures_bind
      refine ensures_query (fun _ => ?_) fun hfails _ => hfailing (by decide) hfails rfl
      cases hread : env.json.convertFrom (env.json.convertTo ⟨3, profiles,
          if env.effective.disableAdapters then host.upAdapters else [], env.managedRules⟩) with
      | none =>
        apply ensures_bind
        refine ensures_throw ⟨h, .inl fun snapshot json hcaptures => ?_⟩
        have hagain := hcaptures.read
        rw [← hcaptures.written, hunique snapshot json hcaptures, hread] at hagain
        cases hagain
      | some verified =>
        obtain rfl := env.json.roundTrip hread
        apply ensures_bind
        rw [hvalid]
        refine ensures_check (fun _ _ => ?_) fun _ herror => by cases herror
        apply ensures_bind
        exact ensures_modify (ensures_pure ⟨{ h with }, _, hsnapshot, hvalid, rfl, hread⟩)
    · have hvalid := hcaptures.valid
      rw [hunique snapshot json hcaptures, hmessage] at hvalid
      cases hvalid
  · have hsnapshot := hcaptures.captured
    rw [Environment.snapshotOf, hmessage] at hsnapshot
    cases hsnapshot

theorem ensures_captureRollbackSnapshot (h : l.Describes env host s) (hblank : l.Blank) :
    Ensures (captureRollbackSnapshot env) s
      (fun _ s' => (env.accepts .captureSnapshot = true ∧ ∃ snapshot json, env.Captures host snapshot json ∧
          Ledger.Describes env host { l with snapshotJson := some json, names := snapshot.adapters } s') ∨
        (env.accepts .captureSnapshot = false ∧ Ledger.Describes env host { l with confirmDeclined := true } s'))
      (fun _ s' => env.accepts .captureSnapshot = true ∧
        ((∀ snapshot json, ¬ env.Captures host snapshot json) ∨ env.FailsPreparation) ∧
        ∃ snapshotJson, Ledger.Describes env host { l with snapshotJson } s') := by
  unfold captureRollbackSnapshot Environment.shouldProcess
  cases hprompt : env.accepts .captureSnapshot with
  | false => exact (ensures_declineConfirmation h).mono (fun _ s' hs' => .inr ⟨rfl, hs'⟩) fun _ _ h => h
  | true =>
    unfold getCanonicalFirewallRollbackSnapshot
    apply ensures_bind
    apply ensures_bind
    apply ensures_attempt
    refine (ensures_captureSnapshot h hblank).mono (fun json s₁ h₁ => ?_) fun message s₁ h₁ => ?_
    · obtain ⟨h₁, snapshot, hsnapshot, hvalid, hwritten, hread⟩ := h₁
      refine ensures_pure ?_
      apply ensures_bind
      have h₂ : Ledger.Describes env host { l with snapshotJson := some json }
          { s₁ with rollbackSnapshotJson := some json } := { h₁ with snapshotJson := rfl }
      refine ensures_modify ?_
      dsimp only
      cases hshown : json.toList.all isWhitespace with
      | true =>
        refine ensures_throw ⟨rfl, .inl fun other text hcaptures => ?_, _, h₂⟩
        have hsame := hcaptures.captured
        rw [hsnapshot] at hsame
        have hblankText := hcaptures.shown
        rw [← hcaptures.written, ← Except.ok.inj hsame, hwritten, hshown] at hblankText
        cases hblankText
      | false =>
        apply ensures_bind
        refine ensures_query (fun _ => ?_) fun hfails _ => ⟨rfl, .inr (failsPreparation hfails), _, h₂⟩
        refine ensures_modify (.inl ⟨rfl, snapshot, json, ⟨hsnapshot, hvalid, hwritten, hread, hshown⟩, ?_⟩)
        refine { h₂ with names := ?_ }
        show (env.json.convertFrom json).elim [] (·.adapters) = snapshot.adapters
        rw [hread]
        rfl
    · apply ensures_bind
      refine ensures_addRunError fun s₂ h₂ => ensures_pure ?_
      apply ensures_bind
      have h₃ := h₁.1.noted h₂
      exact ensures_modify (ensures_throw ⟨rfl, h₁.2, none, { h₃ with snapshotJson := rfl }⟩)

/-! ### Scheduling -/

/-- The command for the snapshot is within the limit. -/
def Environment.Fits (env : Environment cf) (json : String) : Prop :=
  (rollbackArguments (rollbackScript cf env.rollbackTaskName json)).length ≤ 30000

theorem ensures_registerRollbackTask {json : String} (h : l.Describes env host s) (hfresh : env.Fresh host)
    (htask : l.task = none) :
    Ensures (registerRollbackTask env env.rollbackTaskName
        (rollbackArguments (rollbackScript cf env.rollbackTaskName json))) s
      (fun _ s' => Ledger.Describes env host { l with task := some json } s')
      (fun _ s' => env.FailsPreparation ∧ s' = s) := by
  unfold registerRollbackTask
  apply ensures_bind
  refine ensures_query (fun _ => ?_) fun hfails _ => ⟨failsPreparation hfails, rfl⟩
  apply ensures_bind
  refine ensures_query (fun _ => ?_) fun hfails _ => ⟨failsPreparation hfails, rfl⟩
  refine ensures_invoke (fun _ after hafter => ?_) fun hfails _ => ⟨?_, rfl⟩
  · obtain rfl := Except.ok.inj hafter
    refine { h with task := ?_ }
    show s.host.tasks.filter (fun other => !cf.equal other.taskName env.rollbackTaskName) ++
      [env.rollbackTask json] = _
    have hsame : s.host.tasks = host.tasks := by
      rw [h.task, htask]
      exact List.append_nil _
    rw [hsame, List.filter_eq_self.mpr fun other hother => by simp [hfresh.task other hother]]
    rfl
  · rcases hfails with hfails | ⟨_, herror⟩
    · exact failsPreparation hfails
    · cases herror

theorem ensures_registerWithinLimit {json : String} (h : l.Describes env host s) (hfresh : env.Fresh host)
    (htask : l.task = none) :
    Ensures (registerWithinLimit env env.rollbackTaskName
        (rollbackArguments (rollbackScript cf env.rollbackTaskName json))) s
      (fun scheduled s' =>
        (scheduled = true ∧ env.Fits json ∧ ¬ env.Fails .announceTask ∧
          Ledger.Describes env host { l with task := some json } s') ∨
        (scheduled = false ∧ (¬ env.Fits json ∨ env.FailsPreparation) ∧ l.Describes env host s'))
      (fun _ s' => env.Fails .announceTask ∧ env.Fits json ∧
        Ledger.Describes env host { l with task := some json } s') := by
  have hregister := @ensures_registerRollbackTask cf env s host l json h hfresh htask
  unfold Environment.Fits
  generalize rollbackArguments (rollbackScript cf env.rollbackTaskName json) = arguments at hregister ⊢
  unfold registerWithinLimit
  rcases Nat.lt_or_ge 30000 arguments.length with hlong | hfits
  · rw [if_pos hlong]
    apply ensures_bind
    exact ensures_addRunError fun s₁ h₁ =>
      ensures_pure (.inr ⟨rfl, .inl (Nat.not_le.mpr hlong), h.noted h₁⟩)
  · rw [if_neg (Nat.not_lt.mpr hfits)]
    apply ensures_bind
    apply ensures_attempt
    refine hregister.mono (fun _ s₁ h₁ => ?_) fun message s₁ h₁ => ?_
    · apply ensures_bind
      refine ensures_query (fun hgood => ?_) fun hfails _ => ⟨hfails, hfits, h₁⟩
      exact ensures_pure (.inl ⟨rfl, hfits, hgood, h₁⟩)
    · obtain ⟨hfails, rfl⟩ := h₁
      apply ensures_bind
      exact ensures_addRunError fun s₂ h₂ => ensures_pure (.inr ⟨rfl, .inr hfails, h.noted h₂⟩)

theorem ensures_scheduleAutoRollback {json : String} (h : l.Describes env host s) (hfresh : env.Fresh host)
    (htask : l.task = none) (hminutes : 0 < env.effective.autoRollbackMinutes)
    (hshown : json.toList.all isWhitespace = false) :
    Ensures (scheduleAutoRollback env env.effective.autoRollbackMinutes env.rollbackTaskName env.managedRules
        (some json)) s
      (fun scheduled s' =>
        (scheduled = true ∧ env.Fits json ∧ ¬ env.Fails .announceTask ∧
          Ledger.Describes env host { l with task := some json } s') ∨
        (scheduled = false ∧ (¬ env.Fits json ∨ env.FailsPreparation) ∧ l.Describes env host s'))
      (fun _ s' => (env.FailsPreparation ∧ l.Describes env host s') ∨
        (env.Fails .announceTask ∧ env.Fits json ∧ Ledger.Describes env host { l with task := some json } s')) := by
  have hbind : bindSnapshotJson (some json) = .ok json := by
    refine if_neg fun hempty => ?_
    have hnil : json.toList = [] := String.toList_eq_nil_iff.mpr hempty
    rw [hnil] at hshown
    cases hshown
  unfold scheduleAutoRollback
  apply ensures_bind
  rw [hbind]
  refine ensures_check (fun bound hbound => ?_) fun _ herror => by cases herror
  obtain rfl := Except.ok.inj hbound
  rw [if_neg (Nat.pos_iff_ne_zero.mp hminutes), matchesName_rollbackTaskName, if_neg (by simp),
    assertManagedFirewallRules_managedRules]
  apply ensures_bind
  refine ensures_query (fun _ => ?_) fun hfails _ => .inl ⟨failsPreparation hfails, h⟩
  exact (ensures_registerWithinLimit h hfresh htask).mono (fun _ _ h => h) fun _ _ h => .inr h

end BaselineOps.KillSwitch
