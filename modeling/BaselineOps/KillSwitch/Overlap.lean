import Mathlib
import BaselineOps.KillSwitch.Recovery
import BaselineOps.KillSwitch.Restore
import BaselineOps.Lib.Steps

/-!
# Activations and rollbacks on one host

Runs of activations with a rollback time and of the rollbacks that they have scheduled, in any order. An
activation is refused where its inventory finds another one, which goes by the prefix and the task name of
its own configuration.

* `exclusive_of_steps`: where each activation finds those before it, at most one is live, and its rollback
  restores the profiles from before all of them.
* `overlapping_activations`: other names are not found.
-/

namespace BaselineOps.KillSwitch

open BaselineOps.Domain BaselineOps.Lib

/-! ## System -/

/-- An activation whose rollback task is registered, with the snapshot in the task. -/
structure Activation (cf : CaseFold) where
  env : Environment cf
  snapshotJson : String
  committed : Bool

/-- The host, and the activations whose rollback has not completed. -/
structure System (cf : CaseFold) where
  host : Host
  live : List (Activation cf)

/-- What happens next on the machine. -/
inductive Event (cf : CaseFold) where
  | activate (env : Environment cf) (hminutes : 0 < env.effective.autoRollbackMinutes)
  /-- The task of a live activation runs. -/
  | rollback (index : ℕ) (fault : RollbackCall → Bool)

variable {cf : CaseFold}

/-- A task of that name is registered. -/
def Host.hasTask (cf : CaseFold) (host : Host) (name : String) : Bool :=
  host.tasks.any fun task => cf.equal task.taskName name

/-- A run in the mode `Remediate`. It is live from the registration of its task. -/
def System.activate (sys : System cf) (env : Environment cf) : System cf where
  host := (remediate env sys.host).host
  live :=
    if (remediate env sys.host).host.hasTask cf env.rollbackTaskName = true ∧
        sys.host.hasTask cf env.rollbackTaskName = false then
      sys.live ++ [⟨env, (remediate env sys.host).rollbackSnapshotJson.getD "",
        (remediate env sys.host).firewallActivationCommitted⟩]
    else sys.live

/-- The task of an activation. -/
def Activation.rollback (a : Activation cf) (fault : RollbackCall → Bool) (host : Host) : Host × Bool :=
  match a.env.json.convertFrom a.snapshotJson with
  | none => (host, false)
  | some snapshot => KillSwitch.rollback cf fault snapshot a.env.rollbackTaskName host

/-- The machine behind an event. The rollback of an activation that is not live changes nothing. -/
def System.next (sys : System cf) : Event cf → System cf
  | .activate env _ => sys.activate env
  | .rollback index fault =>
    match sys.live[index]? with
    | none => sys
    | some a =>
      { host := (a.rollback fault sys.host).1
        live :=
          if (a.rollback fault sys.host).2 then
            sys.live.filter fun other => !cf.equal other.env.rollbackTaskName a.env.rollbackTaskName
          else sys.live }

/-- The inventory of a run finds a live activation: by its task, or by a rule that it has left. -/
def Activation.Detected (a : Activation cf) (env : Environment cf) (host : Host) : Prop :=
  cf.equal a.env.effective.taskName env.effective.taskName = true ∨
    (cf.equal a.env.effective.rulePrefix env.effective.rulePrefix = true ∧
      ∃ suffix ∈ ruleSuffixes, ∃ rule ∈ host.rules, cf.equal rule.name (a.env.ruleName suffix) = true)

/-- A run finds the live activations, and does not leave profiles behind a failure. -/
def Meets (sys : System cf) : Event cf → Prop
  | .activate env _ => (∀ a ∈ sys.live, a.Detected env sys.host) ∧
      (env.Fails .setProfiles → ∀ name, env.reached name = true → sys.host.profiles name = .isolated)
  | .rollback _ _ => True

/-- At most one activation is live, and a completed rollback restores the initial profiles. -/
structure Exclusive (initial : Host) (sys : System cf) : Prop where
  alone : sys.live.length ≤ 1
  restores : ∀ a ∈ sys.live, ∀ fault, (a.rollback fault sys.host).2 = true →
    (a.rollback fault sys.host).1.profiles = initial.profiles

/-! ## One activation -/

variable {env : Environment cf} {host initial : Host} {l l₀ l₁ : Ledger} {sys sys' : System cf} {s : RunState}

theorem System.activate_host (sys : System cf) (env : Environment cf) :
    (sys.activate env).host = (remediate env sys.host).host := rfl

theorem not_clear_of_detected {a : Activation cf} (hdetected : a.Detected env host)
    (htask : host.hasTask cf a.env.rollbackTaskName = true) : ¬ env.Clear host := by
  intro hclear
  rcases hdetected with hname | ⟨hmanaged, suffix, hsuffix, rule, hrule, hname⟩
  · obtain ⟨task, htask, hequal⟩ := List.any_eq_true.mp htask
    exact List.filter_eq_nil_iff.mp hclear.tasks task htask (matches_rollbackTaskPattern a.env hname hequal)
  · exact List.filter_eq_nil_iff.mp hclear.rules rule hrule (matches_managedRulePattern a.env hsuffix hmanaged hname)

/-- A run that is refused leaves nothing. -/
theorem Ended.blank_of_not_clear (h : Ended env host l) (hnot : ¬ env.Clear host) : l.Blank := by
  cases h with
  | refused => exact Ledger.blank_start
  | activated hactivated =>
    cases hactivated with
    | isolated hclear => exact absurd hclear hnot
    | skipped _ _ hblank => exact hblank
  | unprepared hunprepared =>
    cases hunprepared with
    | blank hblank => exact hblank
    | unannounced hclear => exact absurd hclear hnot
  | skipped _ _ hblank => exact hblank
  | undone hclear => exact absurd hclear hnot

theorem Prepared.of_task {json : String} (h : Prepared env host l) (htask : l.task = some json) :
    l.snapshotJson = some json ∧ ∃ snapshot, env.Captures host snapshot json := by
  cases h with
  | withoutRollback => cases htask
  | withRollback _ hprepares =>
    obtain rfl := Option.some.inj htask
    exact ⟨rfl, _, hprepares.captures⟩

theorem Firewalled.snapshotJson (h : Firewalled env l₀ l) : l.snapshotJson = l₀.snapshotJson := by
  cases h <;> rfl

theorem Isolated.snapshotJson (h : Isolated env host l₀ l) : l.snapshotJson = l₀.snapshotJson := by
  cases h with
  | adapters hl => exact hl.snapshotJson
  | firewallOnly hl => exact hl.snapshotJson

theorem Interrupted.snapshotJson (h : Interrupted env host l₀ l) : l.snapshotJson = l₀.snapshotJson := by
  cases h with
  | rules => rfl
  | profiles => rfl
  | listing hl => exact hl.snapshotJson
  | disabling hl => exact hl.snapshotJson
  | report hisolated => exact hisolated.snapshotJson

theorem Undone.task {json : String} (h : Undone env l₁ l) (htask : l.task = some json) :
    l₁.task = some json ∧ l.snapshotJson = l₁.snapshotJson := by
  rcases h with ⟨-, rfl⟩ | ⟨-, -, -, rfl⟩ | ⟨-, -, rules, -, rfl⟩
  · exact ⟨htask, rfl⟩
  · exact ⟨htask, rfl⟩
  · rw [show (l₁.undone rules).task = if l₁.rollbackScheduled then none else l₁.task from rfl] at htask
    split_ifs at htask
    exact ⟨htask, rfl⟩

/-- The task of a run carries the snapshot of its host. -/
theorem Ended.of_task {json : String} (h : Ended env host l) (htask : l.task = some json) :
    env.Clear host ∧ l.snapshotJson = some json ∧ ∃ snapshot, env.Captures host snapshot json := by
  have hblank : ∀ {l : Ledger}, l.Blank → l.task ≠ some json := by
    intro l hl hsome
    rw [hl.task] at hsome
    cases hsome
  cases h with
  | refused => cases htask
  | activated hactivated =>
    cases hactivated with
    | isolated hclear hprepared hisolated =>
      obtain ⟨hjson, hcaptures⟩ := hprepared.of_task (hisolated.rollback.1.symm.trans htask)
      exact ⟨hclear, hisolated.snapshotJson.trans hjson, hcaptures⟩
    | skipped _ _ hl => exact absurd htask (hblank hl)
  | unprepared hunprepared =>
    cases hunprepared with
    | blank hl => exact absurd htask (hblank hl)
    | unannounced hclear _ hprepares =>
      obtain rfl := Option.some.inj htask
      exact ⟨hclear, rfl, _, hprepares.captures⟩
  | skipped _ _ hl => exact absurd htask (hblank hl)
  | undone hclear hprepared hinterrupted hundone =>
    obtain ⟨htask₁, hjson₁⟩ := hundone.task htask
    obtain ⟨hjson, hcaptures⟩ := hprepared.of_task (hinterrupted.rollback.1.symm.trans htask₁)
    exact ⟨hclear, hjson₁.trans (hinterrupted.snapshotJson.trans hjson), hcaptures⟩

/-! ### Runs without a task -/

theorem Firewalled.profiles (h : Firewalled env l₀ l) (hprepared : Prepared env host l₀) :
    l.committed = true ∨ l.profiles = fun _ => false := by
  cases h with
  | committed => exact .inl rfl
  | rulesOnly => exact .inr hprepared.untouched.profiles
  | declined => exact .inr hprepared.untouched.profiles

theorem Interrupted.profiles_cases (h : Interrupted env host l₀ l) (hprepared : Prepared env host l₀) :
    l.committed = true ∨ l.profiles = (fun _ => false) ∨ (env.Fails .setProfiles ∧ l.profiles = env.reached) := by
  cases h with
  | rules => exact .inr (.inl hprepared.untouched.profiles)
  | profiles _ _ _ hfails => exact .inr (.inr ⟨hfails, rfl⟩)
  | listing hl => exact (hl.profiles hprepared).imp_right .inl
  | disabling hl => exact (hl.profiles hprepared).imp_right .inl
  | report hisolated =>
    cases hisolated with
    | adapters hl => exact (hl.profiles hprepared).imp_right .inl
    | firewallOnly hl => exact (hl.profiles hprepared).imp_right .inl

/-- Without its task a run has changed the profiles at most in a failed call. -/
theorem Ended.of_no_task (h : Ended env host l) (hminutes : 0 < env.effective.autoRollbackMinutes)
    (hnone : l.task = none) :
    l.profiles = (fun _ => false) ∨ (env.Fails .setProfiles ∧ l.profiles = env.reached) := by
  have hkept : ∀ {l : Ledger}, (∃ json, l.task = some json) → l.task ≠ none := by
    rintro l ⟨json, hsome⟩ hnone
    rw [hsome] at hnone
    cases hnone
  cases h with
  | refused => exact .inl rfl
  | activated hactivated =>
    cases hactivated with
    | isolated _ hprepared hisolated => exact absurd hnone (hkept (hisolated.exists_task hprepared hminutes))
    | skipped _ _ hblank => exact .inl hblank.profiles
  | unprepared hunprepared =>
    cases hunprepared with
    | blank hblank => exact .inl hblank.profiles
    | unannounced => cases hnone
  | skipped _ _ hblank => exact .inl hblank.profiles
  | undone _ hprepared hinterrupted hundone =>
    obtain ⟨json, htask, -⟩ := hprepared.exists_task hminutes
    have hsome := hinterrupted.rollback.1.trans htask
    rcases hundone with ⟨-, rfl⟩ | ⟨-, -, -, rfl⟩ | ⟨hnot, -, rules, -, rfl⟩
    · exact absurd hnone (hkept ⟨json, hsome⟩)
    · exact absurd hnone (hkept ⟨json, hsome⟩)
    · refine (hinterrupted.profiles_cases hprepared).resolve_left fun hcommitted => ?_
      rw [hnot] at hcommitted
      cases hcommitted

/-! ## Runs of the system -/

/-- Either no activation is live and the profiles are the initial ones, or one is live whose snapshot was
    taken of them. -/
inductive Held (initial : Host) (sys : System cf) : Prop where
  | idle (hlive : sys.live = []) (hprofiles : sys.host.profiles = initial.profiles)
  | single {a : Activation cf} {before : Host} {snapshot : Snapshot} (hlive : sys.live = [a])
      (htask : sys.host.hasTask cf a.env.rollbackTaskName = true) (hbefore : before.profiles = initial.profiles)
      (hcaptures : a.env.Captures before snapshot a.snapshotJson)

theorem hasTask_of_task {json : String} (h : l.Describes env host s) (htask : l.task = some json) :
    s.host.hasTask cf env.rollbackTaskName = true := by
  refine List.any_eq_true.mpr ⟨env.rollbackTask json, ?_, equal_self _⟩
  rw [h.task, htask]
  exact List.mem_append_right _ (List.mem_singleton_self _)

theorem tasks_of_no_task (h : l.Describes env host s) (hnone : l.task = none) : s.host.tasks = host.tasks := by
  rw [h.task, hnone]
  exact List.append_nil _

theorem hasTask_congr {before after : Host} (h : after.tasks = before.tasks) (name : String) :
    after.hasTask cf name = before.hasTask cf name := by
  unfold Host.hasTask
  rw [h]

theorem hasTask_of_fresh (h : env.Fresh host) : host.hasTask cf env.rollbackTaskName = false :=
  List.any_eq_false.mpr fun task htask => by simp [h.task task htask]

/-- A run without a task leaves the live activations as they are. -/
theorem live_activate_of_no_task (h : l.Describes env sys.host (remediate env sys.host)) (hnone : l.task = none) :
    (sys.activate env).live = sys.live := by
  refine if_neg fun hregistered => ?_
  rw [hasTask_congr (tasks_of_no_task h hnone), hregistered.2] at hregistered
  cases hregistered.1

/-- A run that is refused leaves the live activations, the rules and the tasks as they are. -/
structure Refuses (env : Environment cf) (sys : System cf) : Prop where
  uncommitted : (remediate env sys.host).firewallActivationCommitted = false
  live : (sys.activate env).live = sys.live
  rules : (sys.activate env).host.rules = sys.host.rules
  tasks : (sys.activate env).host.tasks = sys.host.tasks

theorem refuses_of_detected {a : Activation cf} (hdetected : a.Detected env sys.host)
    (htask : sys.host.hasTask cf a.env.rollbackTaskName = true) : Refuses env sys := by
  obtain ⟨l, hended, active, -, hdescribes⟩ := remediate_ends env sys.host
  have hblank := hended.blank_of_not_clear (not_clear_of_detected hdetected htask)
  refine ⟨hdescribes.committed.trans hblank.committed, live_activate_of_no_task hdescribes hblank.task, ?_,
    tasks_of_no_task hdescribes hblank.task⟩
  rw [System.activate_host, hdescribes.rules, show (l.reporting active).rules = [] from hblank.rules,
    List.append_nil]

theorem Held.activate_idle (hlive : sys.live = []) (hprofiles : sys.host.profiles = initial.profiles)
    (hminutes : 0 < env.effective.autoRollbackMinutes) (hmeets : Meets sys (.activate env hminutes)) :
    Held initial (sys.activate env) := by
  obtain ⟨l, hended, active, -, hdescribes⟩ := remediate_ends env sys.host
  cases htask : l.task with
  | none =>
    refine .idle ((live_activate_of_no_task hdescribes htask).trans hlive) ?_
    show (remediate env sys.host).host.profiles = _
    rw [← hprofiles, hdescribes.profiles]
    rcases hended.of_no_task hminutes htask with hnone | ⟨hfails, hreached⟩
    · rw [show (l.reporting active).profiles = _ from hnone]
      rfl
    · rw [show (l.reporting active).profiles = _ from hreached]
      exact isolate_eq_of_unchanged (hmeets.2 hfails)
  | some json =>
    obtain ⟨hclear, hjson, snapshot, hcaptures⟩ := hended.of_task htask
    have hregistered : (remediate env sys.host).host.hasTask cf env.rollbackTaskName = true :=
      hasTask_of_task hdescribes htask
    have hsnapshotJson : (remediate env sys.host).rollbackSnapshotJson = some json := hdescribes.snapshotJson.trans hjson
    refine @Held.single cf initial _ ⟨env, json, (remediate env sys.host).firewallActivationCommitted⟩ sys.host
      snapshot ?_ hregistered hprofiles hcaptures
    show (if _ then _ else _) = _
    rw [if_pos ⟨hregistered, hasTask_of_fresh hclear.fresh⟩, hlive, hsnapshotJson]
    rfl

/-- A run that finds a live activation leaves the host as it is. -/
theorem Held.activate_single {a : Activation cf} {before : Host} {snapshot : Snapshot} (hlive : sys.live = [a])
    (htask : sys.host.hasTask cf a.env.rollbackTaskName = true) (hbefore : before.profiles = initial.profiles)
    (hcaptures : a.env.Captures before snapshot a.snapshotJson) (hminutes : 0 < env.effective.autoRollbackMinutes)
    (hmeets : Meets sys (.activate env hminutes)) : Held initial (sys.activate env) := by
  have hdetected : a.Detected env sys.host := hmeets.1 a (hlive ▸ List.mem_singleton_self a)
  have hrefused := refuses_of_detected hdetected htask
  refine .single (hrefused.live.trans hlive) ?_ hbefore hcaptures
  rw [hasTask_congr hrefused.tasks]
  exact htask

theorem Activation.rollback_eq {a : Activation cf} {before : Host} {snapshot : Snapshot}
    (hcaptures : a.env.Captures before snapshot a.snapshotJson) (fault : RollbackCall → Bool) (host : Host) :
    a.rollback fault host = KillSwitch.rollback cf fault snapshot a.env.rollbackTaskName host := by
  unfold Activation.rollback
  rw [hcaptures.read]

theorem Held.rollback (h : Held initial sys) (index : ℕ) (fault : RollbackCall → Bool) :
    Held initial (sys.next (.rollback index fault)) := by
  unfold System.next
  cases h with
  | idle hlive hprofiles =>
    rw [hlive]
    exact .idle hlive hprofiles
  | @single a before snapshot hlive htask hbefore hcaptures =>
    cases index with
    | succ index =>
      rw [hlive]
      exact .single hlive htask hbefore hcaptures
    | zero =>
      rw [hlive]
      simp only [List.getElem?_cons_zero]
      have heq := Activation.rollback_eq hcaptures fault sys.host
      have htasks := @rollback_tasks cf fault sys.host snapshot a.env.rollbackTaskName
      cases hcompleted : (a.rollback fault sys.host).2 with
      | true =>
        refine .idle ?_ ?_
        · simp [equal_self]
        · rw [heq] at hcompleted ⊢
          rw [← hbefore]
          exact rollback_profiles hcaptures.captured hcompleted
      | false =>
        refine .single rfl ?_ hbefore hcaptures
        rw [heq] at hcompleted
        rw [hcompleted, if_neg Bool.false_ne_true] at htasks
        rw [heq, hasTask_congr htasks]
        exact htask

/-- What one event preserves. -/
theorem Held.next (h : Held initial sys) {event : Event cf} (hmeets : Meets sys event) :
    Held initial (sys.next event) := by
  cases event with
  | activate env hminutes =>
    cases h with
    | idle hlive hprofiles => exact Held.activate_idle hlive hprofiles hminutes hmeets
    | single hlive htask hbefore hcaptures =>
      exact Held.activate_single hlive htask hbefore hcaptures hminutes hmeets
  | rollback index fault => exact h.rollback index fault

/-- A run of the system in which every event meets the condition. -/
def MeetingRun (host : Host) (events : List (Event cf)) (sys : System cf) : Prop :=
  Steps (fun sys event sys' => Meets sys event ∧ sys' = sys.next event) ⟨host, []⟩ events sys

theorem held_of_steps {events : List (Event cf)} (h : MeetingRun host events sys) : Held host sys := by
  refine Steps.run_induction (P := fun _ sys => Held host sys) (.idle rfl rfl) ?_ h
  rintro _ _ _ _ - hheld ⟨hmeets, rfl⟩
  exact hheld.next hmeets

theorem Held.exclusive (h : Held initial sys) : Exclusive initial sys := by
  cases h with
  | idle hlive =>
    refine ⟨by rw [hlive]; exact Nat.zero_le _, fun a ha => ?_⟩
    rw [hlive] at ha
    cases ha
  | single hlive _ hbefore hcaptures =>
    refine ⟨by rw [hlive]; exact Nat.le_refl _, fun b hb fault hcompleted => ?_⟩
    rw [hlive, List.mem_singleton] at hb
    subst hb
    rw [Activation.rollback_eq hcaptures] at hcompleted ⊢
    rw [← hbefore]
    exact rollback_profiles hcaptures.captured hcompleted

theorem Held.live_of_committed (h : Held initial sys) {hminutes : 0 < env.effective.autoRollbackMinutes}
    (hmeets : Meets sys (.activate env hminutes))
    (hcommitted : (remediate env sys.host).firewallActivationCommitted = true) : sys.live = [] := by
  cases h with
  | idle hlive => exact hlive
  | @single a _ _ hlive htask =>
    have hdetected : a.Detected env sys.host := hmeets.1 a (hlive ▸ List.mem_singleton_self a)
    rw [(refuses_of_detected hdetected htask).uncommitted] at hcommitted
    cases hcommitted

/-! ## A refused run -/

/-- What a run leaves where nothing stands against it. -/
structure Smoothly (env : Environment cf) (host : Host) (s : RunState) (json : String) : Prop where
  rules : s.host.rules = host.rules ++ [env.inboundRule, env.outboundRule]
  tasks : s.host.tasks = host.tasks ++ [env.rollbackTask json]
  profiles : s.host.profiles = fun _ => .isolated
  committed : s.firewallActivationCommitted = true
  snapshotJson : s.rollbackSnapshotJson = some json

theorem exists_smoothly (hsmooth : env.Smooth host) (hminutes : 0 < env.effective.autoRollbackMinutes) :
    ∃ json snapshot, env.Captures host snapshot json ∧ Smoothly env host (remediate env host) json := by
  obtain ⟨l, hended, active, -, hdescribes⟩ := remediate_ends env host
  have hcomplete := hended.complete hsmooth
  obtain ⟨-, json, htask⟩ := hended.exists_task hminutes hcomplete.committed
  obtain ⟨-, hjson, snapshot, hcaptures⟩ := hended.of_task htask
  refine ⟨json, snapshot, hcaptures, ?_, ?_, ?_, hdescribes.committed.trans hcomplete.committed,
    hdescribes.snapshotJson.trans hjson⟩
  · rw [hdescribes.rules]
    exact congrArg _ hcomplete.rules
  · rw [hdescribes.task, show (l.reporting active).task = l.task from rfl, htask]
    rfl
  · rw [hdescribes.profiles, show (l.reporting active).profiles = _ from hcomplete.profiles]
    rfl

theorem live_of_smooth (hsmooth : env.Smooth sys.host) {json : String}
    (h : Smoothly env sys.host (remediate env sys.host) json) :
    (sys.activate env).live = sys.live ++ [⟨env, json, true⟩] := by
  have hregistered : (remediate env sys.host).host.hasTask cf env.rollbackTaskName = true := by
    refine List.any_eq_true.mpr ⟨env.rollbackTask json, ?_, equal_self _⟩
    rw [h.tasks]
    exact List.mem_append_right _ (List.mem_singleton_self _)
  show (if _ then _ else _) = _
  rw [if_pos ⟨hregistered, hasTask_of_fresh hsmooth.clear.fresh⟩, h.snapshotJson, h.committed]
  rfl

/-- A completed rollback of the only live activation leaves none. -/
theorem next_rollback_of_completed {a : Activation cf} {fault : RollbackCall → Bool}
    (hlive : sys.live = [a]) (hcompleted : (a.rollback fault sys.host).2 = true) :
    sys.next (.rollback 0 fault) = ⟨(a.rollback fault sys.host).1, []⟩ := by
  rw [System.next, hlive]
  simp [hcompleted, equal_self]

/-- A run that finds a smooth one is refused before the rollback of that one and goes through behind it. -/
theorem exists_meetingRun {first second : Environment cf}
    (hfirst : first.Smooth host) (hminutes : 0 < first.effective.autoRollbackMinutes)
    (hminutes' : 0 < second.effective.autoRollbackMinutes) (hgood : ∀ site, ¬ second.Fails site)
    (hname : cf.equal first.effective.taskName second.effective.taskName = true)
    (hrestored : ∀ {snapshot json after}, first.Captures host snapshot json →
      after.rules = host.rules ++ [first.inboundRule, first.outboundRule] →
      after.tasks = host.tasks ++ [first.rollbackTask json] →
        (rollback cf (fun _ => false) snapshot first.rollbackTaskName after).2 = true ∧
          second.Smooth (rollback cf (fun _ => false) snapshot first.rollbackTaskName after).1) :
    ∃ sys : System cf,
      MeetingRun host [.activate first hminutes, .activate second hminutes', .rollback 0 fun _ => false,
        .activate second hminutes'] sys ∧
      (remediate first host).firewallActivationCommitted = true ∧
      (remediate second (remediate first host).host).firewallActivationCommitted = false ∧
      sys.live.map (fun a => (a.env.rollbackRunId.text, a.committed)) = [(second.rollbackRunId.text, true)] := by
  obtain ⟨json, snapshot, hcaptures, hafter⟩ := exists_smoothly hfirst hminutes
  have hlive : (System.activate ⟨host, []⟩ first).live = [⟨first, json, true⟩] :=
    @live_of_smooth cf first ⟨host, []⟩ hfirst json hafter
  have hregistered : (System.activate ⟨host, []⟩ first).host.hasTask cf first.rollbackTaskName = true := by
    refine List.any_eq_true.mpr ⟨first.rollbackTask json, ?_, equal_self _⟩
    rw [System.activate_host, hafter.tasks]
    exact List.mem_append_right _ (List.mem_singleton_self _)
  have hdetected : ∀ host : Host, Activation.Detected ⟨first, json, true⟩ second host := fun _ => .inl hname
  have hrefused := refuses_of_detected (hdetected (System.activate ⟨host, []⟩ first).host) hregistered
  have hmeets : Meets (⟨host, []⟩ : System cf) (.activate first hminutes) :=
    ⟨fun a ha => absurd ha List.not_mem_nil, fun hfails => absurd hfails (hfirst.good _)⟩
  have hmeets₂ : Meets (System.activate ⟨host, []⟩ first) (.activate second hminutes') := by
    refine ⟨fun a ha => ?_, fun hfails => absurd hfails (hgood _)⟩
    rw [hlive, List.mem_singleton] at ha
    rw [ha]
    exact hdetected _
  -- the rollback of the first run
  have hlive₂ : ((System.activate ⟨host, []⟩ first).activate second).live = [⟨first, json, true⟩] := by
    rw [hrefused.live, hlive]
  obtain ⟨hcompleted, hsmooth⟩ := hrestored hcaptures (hrefused.rules.trans hafter.rules)
    (hrefused.tasks.trans hafter.tasks)
  have hrollback := @Activation.rollback_eq cf ⟨first, json, true⟩ _ _ hcaptures (fun _ => false)
    ((System.activate ⟨host, []⟩ first).activate second).host
  have hthird := @next_rollback_of_completed cf _ _ (fun _ => false) hlive₂ (by rw [hrollback]; exact hcompleted)
  rw [hrollback] at hthird
  have hmeets₄ : Meets (((System.activate ⟨host, []⟩ first).activate second).next (.rollback 0 fun _ => false))
      (.activate second hminutes') := by
    refine ⟨fun a ha => ?_, fun hfails => absurd hfails (hgood _)⟩
    rw [hthird] at ha
    cases ha
  obtain ⟨json', _, -, hlast⟩ := exists_smoothly hsmooth hminutes'
  refine ⟨(((System.activate ⟨host, []⟩ first).activate second).next (.rollback 0 fun _ => false)).activate second,
    .cons ⟨hmeets, rfl⟩ (.cons ⟨hmeets₂, rfl⟩ (.cons ⟨trivial, rfl⟩ (.cons ⟨hmeets₄, rfl⟩ (.nil _)))),
    hafter.committed, hrefused.uncommitted, ?_⟩
  rw [hthird, @live_of_smooth cf second ⟨_, []⟩ hsmooth json' hlast]
  rfl

theorem minutes_defaultRun : 0 < defaultRun.effective.autoRollbackMinutes := by decide

/-- A run with the task name of the default configuration under another prefix. -/
def secondRun : Environment asciiFold :=
  sampleEnvironment .notConfigured "SECOND" "KILLSWITCH-ROLLBACK" (sampleRunId '2' (by decide +kernel))
    (fun _ => none) (by decide +kernel) defaultRun.effective.taskName_accepted

theorem fits_secondRun : secondRun.Fits (sampleText "NotConfigured" "SECOND" secondRun.rollbackRunId.text) := by
  apply fits_of_length_le
  unfold sampleText
  apply length_utf8_pieces
  · unfold secondRun sampleEnvironment sampleRunId sampleJson
    repeat constructor
  · decide +kernel

theorem minutes_secondRun : 0 < secondRun.effective.autoRollbackMinutes := by decide

/-- The snapshot of the default configuration. -/
def defaultSnapshot : Snapshot := sampleSnapshot .notConfigured "KILLSWITCH" defaultRun.rollbackRunId.text

/-- Without failing calls the rollback of the default configuration is completed, and its rules are gone. -/
theorem rollback_default {host : Host} (hrules : host.rules = [defaultRun.inboundRule, defaultRun.outboundRule])
    {json : String} (htasks : host.tasks = [defaultRun.rollbackTask json]) :
    (rollback asciiFold (fun _ => false) defaultSnapshot defaultRun.rollbackTaskName host).2 = true ∧
      (rollback asciiFold (fun _ => false) defaultSnapshot defaultRun.rollbackTaskName host).1.rules = [] := by
  obtain ⟨profiles, rules, adapters, tasks, quarantine⟩ := host
  obtain rfl : rules = _ := hrules
  obtain rfl : tasks = _ := htasks
  have hprofiles : ∃ p, rounds (restoreProfile fun _ => false) defaultSnapshot.profiles
      (⟨profiles, [defaultRun.inboundRule, defaultRun.outboundRule], adapters, [defaultRun.rollbackTask json],
        quarantine⟩, true) =
      (⟨p, [defaultRun.inboundRule, defaultRun.outboundRule], adapters, [defaultRun.rollbackTask json],
        quarantine⟩, true) := ⟨_, rfl⟩
  obtain ⟨p, hprofiles⟩ := hprofiles
  have hout : restoreRule asciiFold (fun _ => false)
      ⟨p, [defaultRun.inboundRule, defaultRun.outboundRule], adapters, [defaultRun.rollbackTask json], quarantine⟩
        defaultRun.outRule =
      (⟨p, [defaultRun.inboundRule], adapters, [defaultRun.rollbackTask json], quarantine⟩, true) := rfl
  have hin : restoreRule asciiFold (fun _ => false)
      ⟨p, [defaultRun.inboundRule], adapters, [defaultRun.rollbackTask json], quarantine⟩ defaultRun.inRule =
      (⟨p, [], adapters, [defaultRun.rollbackTask json], quarantine⟩, true) := rfl
  have hrestore : restore asciiFold (fun _ => false) defaultSnapshot
      ⟨profiles, [defaultRun.inboundRule, defaultRun.outboundRule], adapters, [defaultRun.rollbackTask json],
        quarantine⟩ = (⟨p, [], adapters, [defaultRun.rollbackTask json], quarantine⟩, true) := by
    unfold restore
    rw [hprofiles, show defaultSnapshot.adapters = [] from rfl,
      show defaultSnapshot.managedRules = [defaultRun.outRule, defaultRun.inRule] from rfl]
    simp only [rounds, hout, hin, Bool.and_true]
  have hregistered : ([defaultRun.rollbackTask json].any fun task =>
      asciiFold.equal task.taskName defaultRun.rollbackTaskName) = true := by
    rw [List.any_cons]
    exact Bool.or_eq_true_iff.mpr (.inl (equal_self _))
  unfold rollback
  simp only [Bool.false_eq_true, if_false, hrestore, reduceCtorEq, hregistered, and_self, if_true]
  exact ⟨trivial, rfl⟩

theorem smooth_secondRun {host : Host} (hrules : host.rules = []) (htasks : host.tasks = [])
    (hprofiles : host.profiles = fun _ => ⟨some true, .notConfigured, .notConfigured⟩) : secondRun.Smooth host where
  admin := rfl
  clear := by
    refine ⟨rfl, ?_, ?_⟩
    · rw [Host.ruleConflicts, hrules]
      rfl
    · rw [Host.taskConflicts, htasks]
      rfl
  accepts _ := rfl
  good _ hfails := hfails rfl
  prepares _ := ⟨_, _, rfl, rfl, captures_sample _ hprofiles, fits_secondRun⟩

/-- Behind the rollback of the default configuration the other run goes through. -/
theorem restored_default {snapshot : Snapshot} {json : String} {after : Host}
    (hcaptures : defaultRun.Captures (sampleHost .notConfigured) snapshot json)
    (hrules : after.rules = [defaultRun.inboundRule, defaultRun.outboundRule])
    (htasks : after.tasks = [defaultRun.rollbackTask json]) :
    (rollback asciiFold (fun _ => false) snapshot defaultRun.rollbackTaskName after).2 = true ∧
      secondRun.Smooth (rollback asciiFold (fun _ => false) snapshot defaultRun.rollbackTaskName after).1 := by
  obtain rfl : defaultSnapshot = snapshot :=
    Except.ok.inj ((snapshotOf_sample _ rfl).symm.trans hcaptures.captured)
  obtain ⟨hcompleted, hnone⟩ := rollback_default hrules htasks
  have hprofiles := rollback_profiles hcaptures.captured hcompleted
  have hleft := @rollback_tasks asciiFold (fun _ => false) after defaultSnapshot defaultRun.rollbackTaskName
  rw [if_pos hcompleted, htasks] at hleft
  refine ⟨hcompleted, smooth_secondRun hnone (hleft.trans ?_) hprofiles⟩
  have hname : asciiFold.equal (defaultRun.rollbackTask json).taskName defaultRun.rollbackTaskName = true :=
    equal_self _
  rw [List.filter_cons_of_neg (by rw [hname]; decide), List.filter_nil]

/-! ## All runs -/

/-- In every run of activations, rollbacks and failures whose activations find the live ones: at most one
    activation is live, its rollback restores the profiles from before all of them, and an activation
    commits only where none is live. -/
theorem exclusive_of_steps (host : Host) {events : List (Event cf)} {sys : System cf}
    (h : MeetingRun host events sys) :
    Exclusive host sys ∧ ∀ env hminutes, Meets sys (.activate env hminutes) →
      (remediate env sys.host).firewallActivationCommitted = true → sys.live = [] :=
  ⟨(held_of_steps h).exclusive, fun _ _ hmeets hcommitted => (held_of_steps h).live_of_committed hmeets hcommitted⟩

/-- The default configuration, a run that finds it, its rollback, and the other run again. -/
theorem exclusive_of_steps_default :
    ∃ sys : System asciiFold,
      MeetingRun (sampleHost .notConfigured)
        [.activate defaultRun minutes_defaultRun, .activate secondRun minutes_secondRun,
          .rollback 0 fun _ => false, .activate secondRun minutes_secondRun] sys ∧
      (remediate defaultRun (sampleHost .notConfigured)).firewallActivationCommitted = true ∧
      (remediate secondRun (remediate defaultRun (sampleHost .notConfigured)).host).firewallActivationCommitted =
        false ∧
      sys.live.map (fun a => (a.env.rollbackRunId.text, a.committed)) =
        [(secondRun.rollbackRunId.text, true)] ∧
      Exclusive (sampleHost .notConfigured) sys ∧
      ∀ env hminutes, Meets sys (.activate env hminutes) →
        (remediate env sys.host).firewallActivationCommitted = true → sys.live = [] := by
  obtain ⟨sys, hrun, hcommitted, hrefused, hlive⟩ := exists_meetingRun smooth_defaultRun minutes_defaultRun
    minutes_secondRun (fun _ hfails => hfails rfl) (by decide +kernel) restored_default
  exact ⟨sys, hrun, hcommitted, hrefused, hlive, exclusive_of_steps _ hrun⟩

/-! ## Other names -/

/-- The host of the default configuration behind its activation. -/
def isolatedSystem : System asciiFold := System.activate ⟨sampleHost .notConfigured, []⟩ defaultRun

/-- A run under other names, on a host that an activation has isolated. -/
def otherRun : Environment asciiFold :=
  sampleEnvironment .block "SECOND" "SECOND-ROLLBACK" (sampleRunId '1' (by decide +kernel))
    (fun _ => none) (by decide +kernel) (by decide +kernel)

theorem fits_otherRun : otherRun.Fits (sampleText "Block" "SECOND" otherRun.rollbackRunId.text) := by
  apply fits_of_length_le
  unfold sampleText
  apply length_utf8_pieces
  · unfold otherRun sampleEnvironment sampleRunId sampleJson
    repeat constructor
  · decide +kernel

/-- The inventory of the other run finds nothing of the first one. -/
theorem smooth_otherRun {json : String}
    (h : Smoothly defaultRun (sampleHost .notConfigured) (remediate defaultRun (sampleHost .notConfigured)) json) :
    otherRun.Smooth (remediate defaultRun (sampleHost .notConfigured)).host where
  admin := rfl
  clear := by
    refine ⟨rfl, ?_, ?_⟩
    · rw [Host.ruleConflicts, h.rules]
      decide +kernel
    · refine List.filter_eq_nil_iff.mpr fun task htask hfound => ?_
      rw [h.tasks] at htask
      obtain rfl := List.mem_singleton.mp htask
      have hname : matchesPattern (rollbackTaskPattern asciiFold otherRun.effective.taskName)
          defaultRun.rollbackTaskName = false := by decide +kernel
      rw [show (defaultRun.rollbackTask json).taskName = defaultRun.rollbackTaskName from rfl, hname] at hfound
      cases hfound
  accepts _ := rfl
  good _ hfails := hfails rfl
  prepares _ := ⟨_, _, rfl, rfl, captures_sample _ h.profiles, fits_otherRun⟩

theorem minutes_otherRun : 0 < otherRun.effective.autoRollbackMinutes := by decide

theorem live_isolatedSystem {json : String}
    (h : Smoothly defaultRun (sampleHost .notConfigured) (remediate defaultRun (sampleHost .notConfigured)) json) :
    isolatedSystem.live = [⟨defaultRun, json, true⟩] :=
  @live_of_smooth asciiFold defaultRun ⟨sampleHost .notConfigured, []⟩ smooth_defaultRun json h

/-- Two activations under different names both commit, and both are live. -/
theorem overlapping_activations :
    ∃ sys : System asciiFold,
      Steps (fun sys event sys' => sys' = sys.next event) ⟨sampleHost .notConfigured, []⟩
        [.activate defaultRun minutes_defaultRun, .activate otherRun minutes_otherRun] sys ∧
      sys.live.map (·.committed) = [true, true] ∧ ¬ Exclusive (sampleHost .notConfigured) sys := by
  obtain ⟨json, _, -, hfirst⟩ := exists_smoothly smooth_defaultRun minutes_defaultRun
  have hother : otherRun.Smooth isolatedSystem.host := by
    rw [isolatedSystem, System.activate_host]
    exact smooth_otherRun hfirst
  obtain ⟨json', _, -, hsecond⟩ := exists_smoothly hother minutes_otherRun
  have hlive : (isolatedSystem.activate otherRun).live = [⟨defaultRun, json, true⟩, ⟨otherRun, json', true⟩] := by
    rw [live_of_smooth hother hsecond, live_isolatedSystem hfirst]
    rfl
  refine ⟨isolatedSystem.activate otherRun, .cons rfl (.cons rfl (.nil _)), ?_, fun hexclusive => ?_⟩
  · rw [hlive]
    rfl
  · have halone := hexclusive.alone
    rw [hlive] at halone
    exact Nat.not_succ_le_self 1 halone

end BaselineOps.KillSwitch
