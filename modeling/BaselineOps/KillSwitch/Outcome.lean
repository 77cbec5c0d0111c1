import Mathlib
import BaselineOps.KillSwitch.Ledger

/-!
# How a run ends

The ledgers in which the stages of a run end, and the one that the whole run leaves behind, with the
prompts and failing cmdlets that lead there.

* `ensures_activate`: the `try` block.
* `remediate_ends`: every run ends in a ledger of `Ended`.
-/

namespace BaselineOps.KillSwitch

open BaselineOps.Domain BaselineOps.Lib

variable {cf : CaseFold} {env : Environment cf} {s : RunState} {host : Host} {l l₀ : Ledger}

/-! ## Stage 02 -/

/-- The snapshot is taken and its command scheduled, as far as prompts and the host allow it. -/
structure Environment.Prepares (env : Environment cf) (host : Host) (snapshot : Snapshot) (json : String) : Prop where
  capture : env.accepts .captureSnapshot = true
  schedule : env.accepts .scheduleTask = true
  captures : env.Captures host snapshot json
  fits : env.Fits json

/-- The ledger behind the scheduling. -/
def Ledger.scheduled (snapshot : Snapshot) (json : String) (rollbackScheduled : Bool) : Ledger :=
  { task := some json, rollbackScheduled, names := snapshot.adapters, snapshotJson := some json }

/-- The ledgers from which the firewall is changed. -/
inductive Prepared (env : Environment cf) (host : Host) : Ledger → Prop where
  | withoutRollback (hminutes : env.effective.autoRollbackMinutes = 0) : Prepared env host {}
  | withRollback {snapshot : Snapshot} {json : String} (hminutes : 0 < env.effective.autoRollbackMinutes)
      (h : env.Prepares host snapshot json) (hannounced : ¬ env.Fails .announceTask) :
      Prepared env host (.scheduled snapshot json true)

/-- The ledgers in which the preparation fails. -/
inductive Unprepared (env : Environment cf) (host : Host) : Ledger → Prop where
  | blank {l : Ledger} (hblank : l.Blank)
      (h : ¬ env.Clear host ∨ env.FailsPreparation ∨
        (0 < env.effective.autoRollbackMinutes ∧ ∀ snapshot json, ¬ env.Prepares host snapshot json)) :
      Unprepared env host l
  | unannounced {snapshot : Snapshot} {json : String} (hclear : env.Clear host)
      (hminutes : 0 < env.effective.autoRollbackMinutes)
      (h : env.Prepares host snapshot json) (hfails : env.Fails .announceTask) :
      Unprepared env host (.scheduled snapshot json false)

theorem Ledger.Blank.declined (h : l.Blank) : Ledger.Blank { l with confirmDeclined := true } := { h with }

theorem Ledger.Blank.captured (h : l.Blank) (snapshotJson : Option String) (names : List String) :
    Ledger.Blank { l with snapshotJson, names } := { h with }

theorem ensures_scheduleRollback_none (h : l.Describes env host s) (hnone : l.snapshotJson = none) :
    Ensures (scheduleRollback env) s
      (fun _ s' => env.accepts .scheduleTask = false ∧
        Ledger.Describes env host { l with confirmDeclined := true } s')
      (fun _ s' => l.Describes env host s') := by
  unfold scheduleRollback Environment.shouldProcess
  cases hprompt : env.accepts .scheduleTask with
  | false => exact (ensures_declineConfirmation h).mono (fun _ s' hs' => ⟨rfl, hs'⟩) fun _ _ h => h
  | true =>
    apply ensures_bind
    refine ensures_get ?_
    rw [h.snapshotJson, hnone]
    apply ensures_bind
    unfold scheduleAutoRollback
    apply ensures_bind
    exact ensures_check (fun _ hbound => by cases hbound) fun _ _ => h

/-- The ledger behind the capture. -/
def Ledger.capturing (snapshot : Snapshot) (json : String) : Ledger :=
  { names := snapshot.adapters, snapshotJson := some json }

theorem ensures_scheduleRollback {snapshot : Snapshot} {json : String}
    (h : (Ledger.capturing snapshot json).Describes env host s) (hclear : env.Clear host)
    (hminutes : 0 < env.effective.autoRollbackMinutes) (hcapture : env.accepts .captureSnapshot = true)
    (hcaptures : env.Captures host snapshot json) :
    Ensures (scheduleRollback env) s
      (fun _ s' => (∃ l : Ledger, Prepared env host l ∧ l.Describes env host s') ∨
        (env.accepts .scheduleTask = false ∧ ∃ l : Ledger, l.Blank ∧ l.confirmDeclined = true ∧ l.Describes env host s'))
      (fun _ s' => ∃ l : Ledger, Unprepared env host l ∧ l.Describes env host s') := by
  have hblank : (Ledger.capturing snapshot json).Blank := Ledger.blank_start.captured _ _
  unfold scheduleRollback Environment.shouldProcess
  cases hprompt : env.accepts .scheduleTask with
  | false =>
    exact (ensures_declineConfirmation h).mono (fun _ s' hs' => .inr ⟨rfl, _, hblank.declined, rfl, hs'⟩)
      fun _ _ h => h
  | true =>
    have hunfit : ¬ env.Fits json → ∀ other text, ¬ env.Prepares host other text := by
      intro hunfit other text hprepares
      have hsnapshot : snapshot = other :=
        Except.ok.inj (hcaptures.captured.symm.trans hprepares.captures.captured)
      have htext : json = text := by rw [← hcaptures.written, ← hprepares.captures.written, hsnapshot]
      exact hunfit (htext ▸ hprepares.fits)
    apply ensures_bind
    refine ensures_get ?_
    have hjson : s.rollbackSnapshotJson = some json := h.snapshotJson
    rw [hjson]
    apply ensures_bind
    refine (ensures_scheduleAutoRollback h hclear.fresh rfl hminutes hcaptures.shown).mono
      (fun scheduled s₁ h₁ => ?_) fun message s₁ h₁ => ?_
    · apply ensures_bind
      rcases h₁ with ⟨rfl, hfits, hannounced, h₁⟩ | ⟨rfl, hreason, h₁⟩
      · refine ensures_modify (ensures_modify (.inl
          ⟨_, .withRollback hminutes ⟨hcapture, hprompt, hcaptures, hfits⟩ hannounced, ?_⟩))
        exact { h₁ with rollbackScheduled := rfl }
      · refine ensures_modify (ensures_throw ⟨_, .blank hblank ?_, { h₁ with rollbackScheduled := rfl }⟩)
        rcases hreason with hunfits | hfails
        · exact .inr (.inr ⟨hminutes, hunfit hunfits⟩)
        · exact .inr (.inl hfails)
    · rcases h₁ with ⟨hfails, h₁⟩ | ⟨hfails, hfits, h₁⟩
      · exact ⟨_, .blank hblank (.inr (.inl hfails)), h₁⟩
      · exact ⟨_, .unannounced hclear hminutes ⟨hcapture, hprompt, hcaptures, hfits⟩ hfails, { h₁ with }⟩

theorem ensures_step02Stage02 (h : Ledger.Describes env host {} s) (hclear : env.Clear host) :
    Ensures (step02Stage02 env) s
      (fun _ s' => (∃ l : Ledger, Prepared env host l ∧ l.Describes env host s') ∨
        (0 < env.effective.autoRollbackMinutes ∧ env.accepts .scheduleTask = false ∧
          ∃ l : Ledger, l.Blank ∧ l.confirmDeclined = true ∧ l.Describes env host s'))
      (fun _ s' => ∃ l : Ledger, Unprepared env host l ∧ l.Describes env host s') := by
  unfold step02Stage02
  apply ensures_bind
  refine ensures_get ?_
  have hdeclined : s.actions.confirmDeclined = false := h.confirmDeclined
  rw [hdeclined]
  by_cases hminutes : 0 < env.effective.autoRollbackMinutes
  · rw [if_pos ⟨hminutes, rfl⟩]
    apply ensures_bind
    refine (ensures_captureRollbackSnapshot h Ledger.blank_start).mono (fun _ s₁ h₁ => ?_) fun _ s₁ h₁ => ?_
    · rcases h₁ with ⟨hcapture, snapshot, json, hcaptures, h₁⟩ | ⟨hcapture, h₁⟩
      · refine (ensures_scheduleRollback h₁ hclear hminutes hcapture hcaptures).mono (fun _ s₂ h₂ => ?_)
          fun _ _ h => h
        rcases h₂ with h₂ | h₂
        · exact .inl h₂
        · exact .inr ⟨hminutes, h₂⟩
      · have hblank : Ledger.Blank { confirmDeclined := true } := Ledger.blank_start.declined
        refine (ensures_scheduleRollback_none h₁ rfl).mono (fun _ s₂ h₂ => .inr ⟨hminutes, h₂.1, _, hblank, rfl, h₂.2⟩)
          fun _ s₂ h₂ => ⟨_, .blank hblank (.inr (.inr ⟨hminutes, fun _ _ hprepares => ?_⟩)), h₂⟩
        rw [hprepares.capture] at hcapture
        cases hcapture
    · obtain ⟨hcapture, hreason, json, h₁⟩ := h₁
      refine ⟨_, .blank (Ledger.blank_start.captured json []) ?_, h₁⟩
      rcases hreason with hnone | hfails
      · exact .inr (.inr ⟨hminutes, fun snapshot json hprepares => hnone snapshot json hprepares.captures⟩)
      · exact .inr (.inl hfails)
  · rw [if_neg fun hgo => hminutes hgo.1]
    exact ensures_pure (.inl ⟨_, .withoutRollback (Nat.eq_zero_of_not_pos hminutes), h⟩)

/-! ## Stages 03 and 04 -/

/-- The ledger with both rules. -/
def Ledger.withRules (env : Environment cf) (l : Ledger) : Ledger :=
  { l with
    rules := [env.inboundRule, env.outboundRule]
    created := [env.inRule, env.outRule]
    rulesCreated := true }

/-- The ledger behind a declined prompt. -/
def Ledger.decline (l : Ledger) : Ledger := { l with confirmDeclined := true }

/-- The ledgers behind rules and profiles. -/
inductive Firewalled (env : Environment cf) (l₀ : Ledger) : Ledger → Prop where
  | committed {declined : Bool} (hrules : env.accepts .createRules = true) (hmakes : env.MakesRules)
      (hprofiles : env.accepts .setProfiles = true) (hgood : ¬ env.Fails .setProfiles) :
      Firewalled env l₀ ((l₀.withRules env).commit declined)
  | rulesOnly (hrules : env.accepts .createRules = true) (hmakes : env.MakesRules)
      (hprofiles : env.accepts .setProfiles = false) : Firewalled env l₀ (l₀.withRules env).decline
  | declined (hrules : env.accepts .createRules = false) : Firewalled env l₀ l₀.decline

/-- The ledgers behind stage 03. -/
inductive Isolated (env : Environment cf) (host : Host) (l₀ : Ledger) : Ledger → Prop where
  | adapters {l : Ledger} (hfirewalled : Firewalled env l₀ l) (hrequested : env.effective.disableAdapters = true)
      (hprompt : env.accepts .disableAdapters = true)
      (hlist : env.effective.autoRollbackMinutes = 0 → ¬ env.Fails .listAdapters)
      (hdisable : ∀ i < (l₀.targets env host).length, ¬ env.Fails (.disableAdapter i)) :
      Isolated env host l₀ (l.disabling (l₀.targets env host) (l₀.targets env host) (l₀.targets env host ≠ []))
  | firewallOnly {l : Ledger} {declined : Bool} (hfirewalled : Firewalled env l₀ l)
      (hskip : env.effective.disableAdapters = false ∨ env.accepts .disableAdapters = false) :
      Isolated env host l₀ { l with confirmDeclined := declined }

/-- `Resolve-Outcome`. -/
def Ledger.active (l : Ledger) : Bool := l.firewallProfileSet || l.rulesCreated || l.adaptersDisabled

/-- The ledger with its outcome. -/
def Ledger.resolved (l : Ledger) : Ledger := { l with isolationActive := l.active }

/-- The ledgers in which stages 03 and 04 fail. -/
inductive Interrupted (env : Environment cf) (host : Host) (l₀ : Ledger) : Ledger → Prop where
  | rules {rules : List FirewallRule} {created : List ManagedRule} (hrules : env.accepts .createRules = true)
      (hfails : ¬ env.MakesRules) (hstopped : RulesPartial env rules created) :
      Interrupted env host l₀ { l₀ with rules, created }
  | profiles (hrules : env.accepts .createRules = true) (hmakes : env.MakesRules)
      (hprofiles : env.accepts .setProfiles = true) (hfails : env.Fails .setProfiles) :
      Interrupted env host l₀ { l₀.withRules env with profiles := env.reached }
  | listing {l : Ledger} (hfirewalled : Firewalled env l₀ l) (hrequested : env.effective.disableAdapters = true)
      (hprompt : env.accepts .disableAdapters = true) (hminutes : env.effective.autoRollbackMinutes = 0)
      (hfails : env.Fails .listAdapters) : Interrupted env host l₀ l
  | disabling {l : Ledger} {i : ℕ} (hfirewalled : Firewalled env l₀ l)
      (hrequested : env.effective.disableAdapters = true) (hprompt : env.accepts .disableAdapters = true)
      (hi : i < (l₀.targets env host).length) (hfails : env.Fails (.disableAdapter i)) :
      Interrupted env host l₀ (l.disabling (l₀.targets env host) ((l₀.targets env host).take i) false)
  | report {l : Ledger} (hisolated : Isolated env host l₀ l) (hfails : env.Fails .reportCompletion) :
      Interrupted env host l₀ l.resolved

theorem Prepared.adaptersDisabled (h : Prepared env host l) : l.adaptersDisabled = false := by
  cases h <;> rfl

/-- What the firewall stages leave of the ledger. -/
structure Firewalled.Keeps (l₀ l : Ledger) : Prop where
  disabled : l.disabled = l₀.disabled
  names : l.names = l₀.names
  adaptersDisabled : l.adaptersDisabled = l₀.adaptersDisabled
  rollbackScheduled : l.rollbackScheduled = l₀.rollbackScheduled
  task : l.task = l₀.task

theorem Firewalled.keeps (h : Firewalled env l₀ l) : Firewalled.Keeps l₀ l := by
  cases h <;> exact ⟨rfl, rfl, rfl, rfl, rfl⟩

theorem targets_congr (h : l.names = l₀.names) : l.targets env host = l₀.targets env host := by
  unfold Ledger.targets
  rw [h]

theorem mapM_profiles_adapters {snapshot : Snapshot} (h : env.snapshotOf host = .ok snapshot) :
    snapshot.adapters = if env.effective.disableAdapters then host.upAdapters else [] := by
  rw [Environment.snapshotOf, except_bind_ok_iff] at h
  obtain ⟨profiles, -, h⟩ := h
  rw [← Except.ok.inj h]

theorem Prepared.names (h : Prepared env host l) : ∀ name ∈ l.names, name ∈ host.adapters.map (·.name) := by
  cases h with
  | withoutRollback hminutes =>
    intro name hname
    cases hname
  | withRollback hminutes hprepares =>
    intro name hname
    change name ∈ Snapshot.adapters _ at hname
    rw [mapM_profiles_adapters hprepares.captures.captured] at hname
    split_ifs at hname
    · exact mem_adapter_names_of_mem_upAdapters hname
    · cases hname

/-- The ledgers from which the firewall is changed, without what is known of the rollback. -/
structure Prepared.Untouched (l : Ledger) : Prop where
  rules : l.rules = []
  profiles : l.profiles = fun _ => false
  disabled : l.disabled = []
  created : l.created = []
  confirmDeclined : l.confirmDeclined = false

theorem Prepared.untouched (h : Prepared env host l) : Prepared.Untouched l := by
  cases h <;> exact ⟨rfl, rfl, rfl, rfl, rfl⟩

theorem ensures_firewall (hl : Prepared env host l) (h : l.Describes env host s) (hclear : env.Clear host) :
    Ensures (do
        addKillSwitchFirewallRules env
        enableKillSwitchFirewallProfiles env) s
      (fun _ s' => ∃ l' : Ledger, Firewalled env l l' ∧ l'.Describes env host s')
      (fun _ s' => ∃ l' : Ledger, Interrupted env host l l' ∧ l'.Describes env host s') := by
  have huntouched := hl.untouched
  apply ensures_bind
  refine (ensures_addKillSwitchFirewallRules h hclear.fresh huntouched.rules huntouched.created).mono
    (fun _ s₁ h₁ => ?_) fun _ s₁ h₁ => ?_
  · rcases h₁ with ⟨hrules, hmakes, h₁⟩ | ⟨hrules, h₁⟩
    · refine (ensures_enableKillSwitchFirewallProfiles h₁ huntouched.profiles).mono (fun _ s₂ h₂ => ?_)
        fun _ s₂ h₂ => ?_
      · rcases h₂ with ⟨-, hprofiles, hgood, declined, h₂⟩ | ⟨hdeclined | hprofiles, h₂⟩
        · exact ⟨_, .committed hrules hmakes hprofiles hgood, h₂⟩
        · rw [show Ledger.confirmDeclined _ = l.confirmDeclined from rfl, huntouched.confirmDeclined] at hdeclined
          cases hdeclined
        · exact ⟨_, .rulesOnly hrules hmakes hprofiles, h₂⟩
      · obtain ⟨-, hprofiles, hfails, h₂⟩ := h₂
        exact ⟨_, .profiles hrules hmakes hprofiles hfails, h₂⟩
    · refine (ensures_enableKillSwitchFirewallProfiles h₁ huntouched.profiles).mono (fun _ s₂ h₂ => ?_)
        fun _ s₂ h₂ => ?_
      · rcases h₂ with ⟨hgo, -⟩ | ⟨-, h₂⟩
        · cases hgo
        · exact ⟨_, .declined hrules, h₂⟩
      · obtain ⟨hgo, -⟩ := h₂
        cases hgo
  · obtain ⟨hrules, hfails, rules, created, hstopped, h₁⟩ := h₁
    exact ⟨_, .rules hrules hfails hstopped, h₁⟩

theorem ensures_step02Stage03 (hl : Prepared env host l) (h : l.Describes env host s) (hclear : env.Clear host) :
    Ensures (step02Stage03 env) s (fun _ s' => ∃ l' : Ledger, Isolated env host l l' ∧ l'.Describes env host s')
      (fun _ s' => ∃ l' : Ledger, Interrupted env host l l' ∧ l'.Describes env host s') := by
  unfold step02Stage03
  apply ensures_bind
  refine ensures_get ?_
  rw [h.confirmDeclined, if_pos hl.untouched.confirmDeclined]
  have hfirewall := ensures_firewall hl h hclear
  have hassoc : (do
        addKillSwitchFirewallRules env
        enableKillSwitchFirewallProfiles env
        disableKillSwitchNetworkAdapters env) = ((do
        addKillSwitchFirewallRules env
        enableKillSwitchFirewallProfiles env) >>= fun _ => disableKillSwitchNetworkAdapters env) := by
    rw [bind_assoc]
  rw [hassoc]
  apply ensures_bind
  refine hfirewall.mono (fun _ s₁ h₁ => ?_) fun _ _ h => h
  obtain ⟨l₁, hfirewalled, h₁⟩ := h₁
  have hkeeps := hfirewalled.keeps
  have htargets : l₁.targets env host = l.targets env host := targets_congr hkeeps.names
  refine (ensures_disableKillSwitchNetworkAdapters h₁ (hkeeps.disabled.trans hl.untouched.disabled)
    (by rw [hkeeps.names]; exact hl.names)).mono (fun _ s₂ h₂ => ?_) fun _ s₂ h₂ => ?_
  · rw [htargets] at h₂
    rcases h₂ with ⟨hrequested, hprompt, hlist, hdisable, h₂⟩ | ⟨hskip, declined, h₂⟩
    · exact ⟨_, .adapters hfirewalled hrequested hprompt hlist hdisable, h₂⟩
    · exact ⟨_, .firewallOnly hfirewalled hskip, h₂⟩
  · rw [htargets, hkeeps.adaptersDisabled, hl.adaptersDisabled] at h₂
    obtain ⟨hrequested, hprompt, ⟨hminutes, hfails, h₂⟩ | ⟨i, hi, hfails, h₂⟩⟩ := h₂
    · exact ⟨_, .listing hfirewalled hrequested hprompt hminutes hfails, h₂⟩
    · exact ⟨_, .disabling hfirewalled hrequested hprompt hi hfails, h₂⟩

theorem ensures_resolveOutcome (h : l.Describes env host s) {Q : Unit → RunState → Prop}
    {E : String → RunState → Prop} (hQ : ∀ s', l.resolved.Describes env host s' → Q () s') :
    Ensures resolveOutcome s Q E := by
  refine ensures_modify (hQ _ { h with isolationActive := ?_ })
  show (s.actions.firewallProfileSet || s.actions.rulesCreated || s.actions.adaptersDisabled) = l.active
  rw [h.firewallProfileSet, h.rulesCreated, h.adaptersDisabled]
  rfl

theorem ensures_step02Stage04 (h : l.Describes env host s) :
    Ensures (step02Stage04 env) s
      (fun _ s' => ¬ env.Fails .reportCompletion ∧ l.resolved.Describes env host s')
      (fun _ s' => env.Fails .reportCompletion ∧ l.resolved.Describes env host s') := by
  unfold step02Stage04
  apply ensures_bind
  refine ensures_resolveOutcome h fun s₁ h₁ => ?_
  exact ensures_query (fun hgood => ⟨hgood, h₁⟩) fun hfails _ => ⟨hfails, h₁⟩

/-! ## The whole run -/

/-- The ledgers in which the `try` block ends. -/
inductive Activated (env : Environment cf) (host : Host) : Ledger → Prop where
  | isolated {l₀ l : Ledger} (hclear : env.Clear host) (hprepared : Prepared env host l₀)
      (h : Isolated env host l₀ l) (hreport : ¬ env.Fails .reportCompletion) : Activated env host l.resolved
  | skipped {l : Ledger} (hminutes : 0 < env.effective.autoRollbackMinutes)
      (hschedule : env.accepts .scheduleTask = false) (hblank : l.Blank) : Activated env host l

/-- The ledgers in which the `try` block throws. -/
inductive Aborted (env : Environment cf) (host : Host) : Ledger → Prop where
  | unprepared {l : Ledger} (h : Unprepared env host l) : Aborted env host l
  | skipped {l : Ledger} (hminutes : 0 < env.effective.autoRollbackMinutes)
      (hschedule : env.accepts .scheduleTask = false) (hblank : l.Blank) : Aborted env host l
  | interrupted {l₀ l : Ledger} (hclear : env.Clear host) (hprepared : Prepared env host l₀)
      (h : Interrupted env host l₀ l) : Aborted env host l

theorem Ledger.Blank.resolved (h : l.Blank) : l.resolved.Blank := by
  have hactive : l.active = false := by
    rw [Ledger.active, h.firewallProfileSet, h.rulesCreated, h.adaptersDisabled]
    rfl
  exact { h with isolationActive := hactive }

theorem ensures_activate (h : Ledger.Describes env host {} s) :
    Ensures (activate env) s (fun _ s' => ∃ l : Ledger, Activated env host l ∧ l.Describes env host s')
      (fun _ s' => ∃ l : Ledger, Aborted env host l ∧ l.Describes env host s') := by
  unfold activate
  apply ensures_bind
  refine (ensures_step02Stage01 h rfl rfl).mono (fun _ s₁ h₁ => ?_) fun _ s₁ h₁ => ?_
  · obtain ⟨hclear, h₁⟩ := h₁
    apply ensures_bind
    refine (ensures_step02Stage02 h₁ hclear).mono (fun _ s₂ h₂ => ?_) fun _ s₂ h₂ => ?_
    · apply ensures_bind
      rcases h₂ with ⟨l, hprepared, h₂⟩ | ⟨hminutes, hschedule, l, hblank, hdeclined, h₂⟩
      · refine (ensures_step02Stage03 hprepared h₂ hclear).mono (fun _ s₃ h₃ => ?_) fun _ s₃ h₃ => ?_
        · obtain ⟨l', hisolated, h₃⟩ := h₃
          refine (ensures_step02Stage04 h₃).mono (fun _ s₄ h₄ => ?_) fun _ s₄ h₄ => ?_
          · exact ⟨_, .isolated hclear hprepared hisolated h₄.1, h₄.2⟩
          · exact ⟨_, .interrupted hclear hprepared (.report hisolated h₄.1), h₄.2⟩
        · obtain ⟨l', hinterrupted, h₃⟩ := h₃
          exact ⟨_, .interrupted hclear hprepared hinterrupted, h₃⟩
      · unfold step02Stage03
        apply ensures_bind
        refine ensures_get ?_
        rw [h₂.confirmDeclined, hdeclined, if_neg Bool.true_eq_false.mp]
        refine ensures_pure ((ensures_step02Stage04 h₂).mono (fun _ s₄ h₄ => ?_) fun _ s₄ h₄ => ?_)
        · exact ⟨_, .skipped hminutes hschedule hblank.resolved, h₄.2⟩
        · exact ⟨_, .skipped hminutes hschedule hblank.resolved, h₄.2⟩
    · obtain ⟨l, hunprepared, h₂⟩ := h₂
      exact ⟨_, .unprepared hunprepared, h₂⟩
  · refine ⟨_, .unprepared (.blank Ledger.blank_start ?_), h₁.2⟩
    rcases h₁.1 with hblocked | hfails
    · exact .inl hblocked
    · exact .inr (.inl hfails)

/-- The cleanup has nothing to do before the first change of the firewall. -/
theorem ensures_undo_nothing (h : l.Describes env host s) (hscheduled : l.rollbackScheduled = false)
    (hcreated : l.created = []) {E : String → RunState → Prop} :
    Ensures (undoPartialKillSwitchActivation env) s (fun _ s' => l.Describes env host s') E := by
  unfold undoPartialKillSwitchActivation cancelRollbackTask
  apply ensures_bind
  apply ensures_bind
  refine ensures_get ?_
  rw [h.rollbackScheduled, hscheduled, if_neg (by simp)]
  refine ensures_pure ?_
  apply ensures_bind
  refine ensures_get ?_
  rw [h.created, hcreated, if_neg (by simp)]
  exact ensures_pure h

/-- The part of the ledger that only the preparation and the cleanup change. -/
theorem Interrupted.rollback (h : Interrupted env host l₀ l) :
    l.task = l₀.task ∧ l.rollbackScheduled = l₀.rollbackScheduled := by
  cases h with
  | rules hrules hfails hstopped => exact ⟨rfl, rfl⟩
  | profiles hrules hmakes hprofiles hfails => exact ⟨rfl, rfl⟩
  | listing hl => exact ⟨hl.keeps.task, hl.keeps.rollbackScheduled⟩
  | disabling hl => exact ⟨hl.keeps.task, hl.keeps.rollbackScheduled⟩
  | report hisolated =>
    cases hisolated with
    | adapters hl => exact ⟨hl.keeps.task, hl.keeps.rollbackScheduled⟩
    | firewallOnly hl => exact ⟨hl.keeps.task, hl.keeps.rollbackScheduled⟩

/-- The rules and the created ones of the ledger belong together. -/
structure Matching (env : Environment cf) (l : Ledger) : Prop where
  own : OwnRules env l.rules
  created : ∀ removed ∈ l.created, removed = env.inRule ∨ removed = env.outRule
  valid : l.created ≠ [] → assertManagedFirewallRules cf l.created = .ok ()

theorem matching_of_stopped {rules : List FirewallRule} {created : List ManagedRule}
    (h : RulesPartial env rules created) (hrules : l.rules = rules) (hcreated : l.created = created) :
    Matching env l := by
  have hin : Matching env { rules := [env.inboundRule], created := [env.inRule] } :=
    ⟨fun rule hrule => .inl (List.mem_singleton.mp hrule), fun rule hrule => .inl (List.mem_singleton.mp hrule),
      fun _ => assertManagedFirewallRules_inRule env⟩
  have hnone : ∀ {l : Ledger}, OwnRules env l.rules → l.created = [] → Matching env l := by
    intro l hown hempty
    refine ⟨hown, fun rule hrule => ?_, fun hne => absurd hempty hne⟩
    rw [hempty] at hrule
    cases hrule
  rcases h with ⟨rfl, rfl⟩ | ⟨rfl, rfl⟩ | ⟨rfl, rfl, -⟩ | ⟨rfl, rfl, -⟩
  · exact hnone (by rw [hrules]; intro rule hrule; cases hrule) hcreated
  · exact ⟨by rw [hrules]; exact hin.own, by rw [hcreated]; exact hin.created, by rw [hcreated]; exact hin.valid⟩
  · exact hnone (by rw [hrules]; exact hin.own) hcreated
  · refine ⟨?_, by rw [hcreated]; exact hin.created, by rw [hcreated]; exact hin.valid⟩
    rw [hrules]
    intro rule hrule
    rwa [List.mem_cons, List.mem_singleton] at hrule

theorem matching_withRules (hrules : l.rules = [env.inboundRule, env.outboundRule])
    (hcreated : l.created = [env.inRule, env.outRule]) : Matching env l where
  own := by
    rw [hrules]
    intro rule hrule
    rwa [List.mem_cons, List.mem_singleton] at hrule
  created := by
    rw [hcreated]
    intro rule hrule
    rwa [List.mem_cons, List.mem_singleton] at hrule
  valid := by
    rw [hcreated]
    exact fun _ => assertManagedFirewallRules_created env

theorem Firewalled.matching (h : Firewalled env l₀ l) (huntouched : Prepared.Untouched l₀) : Matching env l := by
  cases h with
  | committed => exact matching_withRules rfl rfl
  | rulesOnly => exact matching_withRules rfl rfl
  | declined => exact matching_of_stopped (.inl ⟨rfl, rfl⟩) huntouched.rules huntouched.created

theorem Interrupted.matching (h : Interrupted env host l₀ l) (huntouched : Prepared.Untouched l₀) :
    Matching env l := by
  cases h with
  | rules hrules hfails hstopped => exact matching_of_stopped hstopped rfl rfl
  | profiles => exact matching_withRules rfl rfl
  | listing hl => exact hl.matching huntouched
  | disabling hl =>
    have hmatching := hl.matching huntouched
    exact ⟨hmatching.own, hmatching.created, hmatching.valid⟩
  | report hisolated =>
    cases hisolated with
    | adapters hl =>
      have hmatching := hl.matching huntouched
      exact ⟨hmatching.own, hmatching.created, hmatching.valid⟩
    | firewallOnly hl =>
      have hmatching := hl.matching huntouched
      exact ⟨hmatching.own, hmatching.created, hmatching.valid⟩

theorem Prepared.scheduled_task (h : Prepared env host l) (hscheduled : l.rollbackScheduled = true) :
    l.task ≠ none := by
  cases h with
  | withoutRollback => cases hscheduled
  | withRollback => exact Option.some_ne_none _

theorem Interrupted.undoable (h : Interrupted env host l₀ l) (hprepared : Prepared env host l₀) :
    l.Undoable env := by
  have hmatching := h.matching hprepared.untouched
  have hrollback := h.rollback
  refine ⟨hmatching.own, hmatching.created, hmatching.valid, fun hscheduled => ?_⟩
  rw [hrollback.1]
  exact hprepared.scheduled_task (hrollback.2 ▸ hscheduled)

/-- The ledgers in which a run ends, before its report. -/
inductive Ended (env : Environment cf) (host : Host) : Ledger → Prop where
  | refused (hadmin : env.isAdmin = false) : Ended env host {}
  | activated {l : Ledger} (h : Activated env host l) : Ended env host l
  | unprepared {l : Ledger} (h : Unprepared env host l) : Ended env host l
  | skipped {l : Ledger} (hminutes : 0 < env.effective.autoRollbackMinutes)
      (hschedule : env.accepts .scheduleTask = false) (hblank : l.Blank) : Ended env host l
  | undone {l₀ l l' : Ledger} (hclear : env.Clear host) (hprepared : Prepared env host l₀)
      (h : Interrupted env host l₀ l) (hundone : Undone env l l') : Ended env host l'

theorem Unprepared.idle (h : Unprepared env host l) : l.rollbackScheduled = false ∧ l.created = [] := by
  cases h with
  | blank hblank => exact ⟨hblank.rollbackScheduled, hblank.created⟩
  | unannounced => exact ⟨rfl, rfl⟩

theorem ensures_recoverFrom {message : String} (haborted : Aborted env host l) (h : l.Describes env host s) :
    Ensures (recoverFrom env message) s
      (fun _ s' => ∃ l' : Ledger, Ended env host l' ∧ l'.Describes env host s')
      (fun _ s' => ∃ l' : Ledger, Ended env host l' ∧ l'.Describes env host s') := by
  have hreport : ∀ {l' : Ledger} {s' : RunState}, Ended env host l' → l'.Describes env host s' →
      Ensures (query env .reportFailure fun _ => ()) s'
        (fun _ s'' => ∃ l'' : Ledger, Ended env host l'' ∧ l''.Describes env host s'')
        (fun _ s'' => ∃ l'' : Ledger, Ended env host l'' ∧ l''.Describes env host s'') :=
    fun hended hs' => ensures_query (fun _ => ⟨_, hended, hs'⟩) fun _ _ => ⟨_, hended, hs'⟩
  unfold recoverFrom
  apply ensures_bind
  refine ensures_addRunError fun s₁ hnoted => ?_
  have h₁ := h.noted hnoted
  apply ensures_bind
  cases haborted with
  | unprepared hunprepared =>
    exact (ensures_undo_nothing h₁ hunprepared.idle.1 hunprepared.idle.2).mono
      (fun _ s₂ h₂ => hreport (.unprepared hunprepared) h₂) fun _ _ h => h
  | skipped hminutes hschedule hblank =>
    exact (ensures_undo_nothing h₁ hblank.rollbackScheduled hblank.created).mono
      (fun _ s₂ h₂ => hreport (.skipped hminutes hschedule hblank) h₂) fun _ _ h => h
  | interrupted hclear hprepared hinterrupted =>
    refine (ensures_undo h₁ hclear.fresh (hinterrupted.undoable hprepared)).mono (fun _ s₂ h₂ => ?_) fun _ _ h => h
    obtain ⟨l', hundone, h₂⟩ := h₂
    exact hreport (.undone hclear hprepared hinterrupted hundone) h₂

/-- The report of a run: the flag is resolved again, unless the clock fails. -/
def Reported (env : Environment cf) (l : Ledger) (active : Bool) : Prop :=
  active = l.active ∨ (env.Fails .summaryTime ∧ active = l.isolationActive)

/-- The ledger with the reported flag. -/
def Ledger.reporting (l : Ledger) (active : Bool) : Ledger := { l with isolationActive := active }

theorem ensures_invokeKillSwitchConsoleSummary (h : l.Describes env host s) :
    Ensures (invokeKillSwitchConsoleSummary env) s
      (fun _ s' => ∃ active, Reported env l active ∧ (l.reporting active).Describes env host s')
      (fun _ s' => ∃ active, Reported env l active ∧ (l.reporting active).Describes env host s') := by
  unfold invokeKillSwitchConsoleSummary
  apply ensures_bind
  refine ensures_query (fun _ => ?_) fun hfails _ => ⟨l.isolationActive, .inr ⟨hfails, rfl⟩, h⟩
  apply ensures_bind
  refine ensures_resolveOutcome h fun s₁ h₁ => ?_
  exact ensures_query (fun _ => ⟨l.active, .inl rfl, h₁⟩) fun _ _ => ⟨l.active, .inl rfl, h₁⟩

theorem ensures_activateOrRecover (h : Ledger.Describes env host {} s) :
    Ensures (activateOrRecover env) s
      (fun _ s' => ∃ l : Ledger, Ended env host l ∧ l.Describes env host s')
      (fun _ s' => ∃ l : Ledger, Ended env host l ∧ l.Describes env host s') := by
  unfold activateOrRecover
  apply ensures_bind
  apply ensures_attempt
  refine (ensures_activate h).mono (fun _ s₁ h₁ => ?_) fun message s₁ h₁ => ?_
  · obtain ⟨l, hactivated, h₁⟩ := h₁
    exact ensures_pure ⟨l, .activated hactivated, h₁⟩
  · obtain ⟨l, haborted, h₁⟩ := h₁
    exact ensures_recoverFrom haborted h₁

/-- A run without administrative rights only reports. -/
theorem ensures_phase07_of_not_admin (hadmin : env.isAdmin = false) (h : Ledger.Describes env host {} s) :
    Ensures (phase07 env) s
      (fun _ s' => ∃ active, Reported env {} active ∧ (Ledger.reporting {} active).Describes env host s')
      (fun _ s' => ∃ active, Reported env {} active ∧ (Ledger.reporting {} active).Describes env host s') := by
  unfold phase07
  rw [hadmin]
  apply ensures_bind
  exact ensures_addRunError fun s₁ h₁ => ensures_invokeKillSwitchConsoleSummary (h.noted h₁)

theorem remediate_of_not_admin (host : Host) (hadmin : env.isAdmin = false) :
    ∃ active, Reported env {} active ∧ (Ledger.reporting {} active).Describes env host (remediate env host) :=
  (ensures_phase07_of_not_admin hadmin Ledger.describes_start).stateAfter

/-- Every run ends in one of the ledgers, with its report. -/
theorem remediate_ends (env : Environment cf) (host : Host) :
    ∃ l : Ledger, Ended env host l ∧ ∃ active, Reported env l active ∧
      (l.reporting active).Describes env host (remediate env host) := by
  have hstart : Ledger.Describes env host {} { host } := Ledger.describes_start
  cases hadmin : env.isAdmin with
  | false => exact ⟨_, .refused hadmin, remediate_of_not_admin host hadmin⟩
  | true =>
    unfold remediate
    refine Ensures.stateAfter (I := fun s => ∃ l : Ledger, Ended env host l ∧ ∃ active, Reported env l active ∧
        (l.reporting active).Describes env host s) ?_
    unfold phase07
    rw [hadmin, if_pos rfl]
    unfold step02
    apply ensures_bind
    apply ensures_attempt
    have hfinish : ∀ (outcome : Except String Unit) {s₁ : RunState},
        (∃ l : Ledger, Ended env host l ∧ l.Describes env host s₁) →
        Ensures (do
          let _ ← attempt (invokeKillSwitchConsoleSummary env)
          check outcome) s₁
          (fun _ s => ∃ l : Ledger, Ended env host l ∧ ∃ active, Reported env l active ∧
            (l.reporting active).Describes env host s)
          (fun _ s => ∃ l : Ledger, Ended env host l ∧ ∃ active, Reported env l active ∧
            (l.reporting active).Describes env host s) := by
      rintro outcome s₁ ⟨l, hended, h₁⟩
      apply ensures_bind
      apply ensures_attempt
      exact (ensures_invokeKillSwitchConsoleSummary h₁).mono
        (fun _ s₂ h₂ => ensures_check (fun _ _ => ⟨l, hended, h₂⟩) fun _ _ => ⟨l, hended, h₂⟩)
        fun _ s₂ h₂ => ensures_check (fun _ _ => ⟨l, hended, h₂⟩) fun _ _ => ⟨l, hended, h₂⟩
    exact (ensures_activateOrRecover hstart).mono (fun _ _ h₁ => hfinish (.ok ()) h₁)
      fun message _ h₁ => hfinish (.error message) h₁

end BaselineOps.KillSwitch
