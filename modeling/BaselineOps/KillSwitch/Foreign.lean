import Mathlib
import BaselineOps.KillSwitch.Overlap

/-!
# Rules and tasks of others

What activations and rollbacks leave alone. Here the activations may overlap, and any calls may fail: no
condition is put on the events.

* `kept_of_events`: behind any events the rules and tasks from before are still there, and every other one is
  of an activation.
-/

namespace BaselineOps.KillSwitch

open BaselineOps.Domain BaselineOps.Lib

variable {cf : CaseFold} {env : Environment cf} {fault : RollbackCall → Bool} {host initial : Host}
  {l l₀ : Ledger} {sys : System cf} {events : List (Event cf)}

/-! ## A rollback -/

theorem restoreProfile_rules (host : Host) (saved : SnapshotProfile) :
    (restoreProfile fault host saved).1.rules = host.rules := by
  unfold restoreProfile
  split <;> rfl

theorem restoreAdapter_rules (host : Host) (name : String) :
    (restoreAdapter cf fault host name).1.rules = host.rules := by
  unfold restoreAdapter
  split_ifs <;> rfl

/-- A round removes at most the rules of one name. -/
theorem restoreRule_rules (host : Host) (managed : ManagedRule) :
    (restoreRule cf fault host managed).1.rules = host.rules ∨
      (restoreRule cf fault host managed).1.rules =
        host.rules.filter fun rule => !cf.equal rule.name managed.name := by
  unfold restoreRule
  generalize (if fault (.findRules managed.name) then [] else host.rulesNamed cf managed.name) = existing
  dsimp only
  split_ifs
  · exact .inl rfl
  · exact .inl rfl
  · exact .inl rfl
  · exact .inr rfl

/-- No rule of the list has a name that the activation has given. -/
def Unnamed (cf : CaseFold) (managed : List ManagedRule) (rules : List FirewallRule) : Prop :=
  ∀ removed ∈ managed, ∀ rule ∈ rules, cf.equal rule.name removed.name = false

theorem rounds_restoreRule_rules {managed : List ManagedRule} {s : Host × Bool} :
    (rounds (restoreRule cf fault) managed s).1.rules.Sublist s.1.rules := by
  induction managed generalizing s with
  | nil => exact List.Sublist.refl _
  | cons removed managed ih =>
    refine ih.trans ?_
    rcases @restoreRule_rules cf fault s.1 removed with hsame | hremoved
    · exact hsame ▸ List.Sublist.refl _
    · exact hremoved ▸ List.filter_sublist

theorem Unnamed.sublist_rounds {managed : List ManagedRule} {rules : List FirewallRule} {s : Host × Bool}
    (h : Unnamed cf managed rules) (hrules : rules.Sublist s.1.rules) :
    rules.Sublist (rounds (restoreRule cf fault) managed s).1.rules := by
  induction managed generalizing s with
  | nil => exact hrules
  | cons removed managed ih =>
    have hround : rules.Sublist (restoreRule cf fault s.1 removed).1.rules := by
      rcases @restoreRule_rules cf fault s.1 removed with hsame | hremoved
      · rwa [hsame]
      · rw [hremoved]
        refine List.Sublist.trans ?_ (hrules.filter _)
        rw [List.filter_eq_self.mpr fun rule hrule => by rw [h removed List.mem_cons_self rule hrule]; rfl]
    exact ih (fun other hother => h other (List.mem_cons_of_mem _ hother)) hround

theorem restore_rules (snapshot : Snapshot) (host : Host) :
    (restore cf fault snapshot host).1.rules.Sublist host.rules := by
  unfold restore
  refine rounds_restoreRule_rules.trans ?_
  rw [rounds_keeps (f := (·.rules)) restoreAdapter_rules, rounds_keeps (f := (·.rules)) restoreProfile_rules]

theorem Unnamed.sublist_restore {snapshot : Snapshot} {rules : List FirewallRule}
    (h : Unnamed cf snapshot.managedRules rules) (hrules : rules.Sublist host.rules) :
    rules.Sublist (restore cf fault snapshot host).1.rules := by
  unfold restore
  refine h.sublist_rounds ?_
  rw [rounds_keeps (f := (·.rules)) restoreAdapter_rules, rounds_keeps (f := (·.rules)) restoreProfile_rules]
  exact hrules

/-- Only the loops of the script touch the rules. -/
theorem rollback_rules (snapshot : Snapshot) (taskName : String) (host : Host) :
    (rollback cf fault snapshot taskName host).1.rules = host.rules ∨
      (rollback cf fault snapshot taskName host).1.rules = (restore cf fault snapshot host).1.rules := by
  unfold rollback
  dsimp only
  split_ifs
  · exact .inl rfl
  · exact .inr rfl
  · exact .inr rfl
  · exact .inr rfl

/-! ## An activation -/

theorem managedRules_of_snapshotOf {snapshot : Snapshot} (h : env.snapshotOf host = .ok snapshot) :
    snapshot.managedRules = env.managedRules := by
  rw [Environment.snapshotOf, except_bind_ok_iff] at h
  obtain ⟨profiles, -, h⟩ := h
  rw [← Except.ok.inj h]

theorem Environment.Fresh.unnamed (h : env.Fresh host) : Unnamed cf env.managedRules host.rules := by
  intro removed hremoved rule hrule
  rw [Environment.managedRules, List.mem_cons, List.mem_singleton] at hremoved
  exact Bool.eq_false_iff.mpr (List.filter_eq_nil_iff.mp (h.rulesNamed hremoved.symm) rule hrule)

theorem Environment.Fresh.mono (h : env.Fresh host) (hrules : initial.rules.Sublist host.rules)
    (htasks : initial.tasks.Sublist host.tasks) : env.Fresh initial where
  inRule := List.filter_eq_nil_iff.mpr fun rule hrule =>
    List.filter_eq_nil_iff.mp h.inRule rule (hrules.subset hrule)
  outRule := List.filter_eq_nil_iff.mpr fun rule hrule =>
    List.filter_eq_nil_iff.mp h.outRule rule (hrules.subset hrule)
  task task htask := h.task task (htasks.subset htask)

theorem Isolated.own (h : Isolated env host l₀ l) (huntouched : Prepared.Untouched l₀) : OwnRules env l.rules := by
  cases h with
  | adapters hl => exact (hl.matching huntouched).own
  | firewallOnly hl => exact (hl.matching huntouched).own

/-- The rules that a run leaves are its own. -/
theorem Ended.own (h : Ended env host l) : OwnRules env l.rules := by
  have hnone : ∀ {l : Ledger}, l.rules = [] → OwnRules env l.rules := by
    intro l hl rule hrule
    rw [hl] at hrule
    cases hrule
  cases h with
  | refused => exact hnone rfl
  | activated hactivated =>
    cases hactivated with
    | isolated _ hprepared hisolated => exact hisolated.own hprepared.untouched
    | skipped _ _ hblank => exact hnone hblank.rules
  | unprepared hunprepared =>
    cases hunprepared with
    | blank hblank => exact hnone hblank.rules
    | unannounced => exact hnone rfl
  | skipped _ _ hblank => exact hnone hblank.rules
  | undone _ hprepared hinterrupted hundone =>
    have hown := (hinterrupted.matching hprepared.untouched).own
    rcases hundone with ⟨-, rfl⟩ | ⟨-, -, -, rfl⟩ | ⟨-, -, rules, hremoved, rfl⟩
    · exact hown
    · exact hown
    · exact fun rule hrule => hown rule (hremoved.1.subset hrule)

/-! ## Any events -/

/-- An activation is among the events. -/
def Activates (events : List (Event cf)) (env : Environment cf) : Prop :=
  ∃ hminutes, Event.activate env hminutes ∈ events

/-- The rules and tasks of `initial` are on the host, and any other one is of an activation among the events. -/
structure Kept (initial : Host) (events : List (Event cf)) (host : Host) : Prop where
  rules : initial.rules.Sublist host.rules
  tasks : initial.tasks.Sublist host.tasks
  ownRules : ∀ rule ∈ host.rules, rule ∈ initial.rules ∨
    ∃ env, Activates events env ∧ (rule = env.inboundRule ∨ rule = env.outboundRule)
  ownTasks : ∀ task ∈ host.tasks, task ∈ initial.tasks ∨
    ∃ env json, Activates events env ∧ task = env.rollbackTask json

/-- The names of a live activation are not those of `initial`, and its task has a snapshot of it. -/
structure Apart (initial : Host) (a : Activation cf) : Prop where
  fresh : a.env.Fresh initial
  captures : ∃ before snapshot, a.env.Captures before snapshot a.snapshotJson

/-- What any event preserves. -/
structure Foreign (initial : Host) (events : List (Event cf)) (sys : System cf) : Prop where
  kept : Kept initial events sys.host
  apart : ∀ a ∈ sys.live, Apart initial a

theorem Activates.append (h : Activates events env) (event : Event cf) : Activates (events ++ [event]) env := by
  obtain ⟨hminutes, hmem⟩ := h
  exact ⟨hminutes, List.mem_append_left _ hmem⟩

theorem activates_last (hminutes : 0 < env.effective.autoRollbackMinutes) :
    Activates (events ++ [.activate env hminutes]) env :=
  ⟨hminutes, List.mem_append_right _ (List.mem_singleton_self _)⟩

/-- A host with fewer rules and tasks, among them those from before. -/
theorem Kept.of_sublist {after : Host} (h : Kept initial events host) (event : Event cf)
    (hrules : initial.rules.Sublist after.rules) (htasks : initial.tasks.Sublist after.tasks)
    (hfewerRules : after.rules.Sublist host.rules) (hfewerTasks : after.tasks.Sublist host.tasks) :
    Kept initial (events ++ [event]) after where
  rules := hrules
  tasks := htasks
  ownRules rule hrule := by
    refine (h.ownRules rule (hfewerRules.subset hrule)).imp_right ?_
    rintro ⟨env, hactivates, hown⟩
    exact ⟨env, hactivates.append event, hown⟩
  ownTasks task htask := by
    refine (h.ownTasks task (hfewerTasks.subset htask)).imp_right ?_
    rintro ⟨env, json, hactivates, hown⟩
    exact ⟨env, json, hactivates.append event, hown⟩

theorem Kept.activate {s : RunState} (h : Kept initial events host) (hown : OwnRules env l.rules)
    (hdescribes : l.Describes env host s) (hminutes : 0 < env.effective.autoRollbackMinutes) :
    Kept initial (events ++ [.activate env hminutes]) s.host where
  rules := by
    rw [hdescribes.rules]
    exact h.rules.trans (List.sublist_append_left _ _)
  tasks := by
    rw [hdescribes.task]
    exact h.tasks.trans (List.sublist_append_left _ _)
  ownRules rule hrule := by
    rw [hdescribes.rules, List.mem_append] at hrule
    rcases hrule with hrule | hrule
    · refine (h.ownRules rule hrule).imp_right ?_
      rintro ⟨env', hactivates, hnamed⟩
      exact ⟨env', hactivates.append _, hnamed⟩
    · exact .inr ⟨env, activates_last hminutes, hown rule hrule⟩
  ownTasks task htask := by
    rw [hdescribes.task, List.mem_append] at htask
    rcases htask with htask | htask
    · refine (h.ownTasks task htask).imp_right ?_
      rintro ⟨env', json, hactivates, hnamed⟩
      exact ⟨env', json, hactivates.append _, hnamed⟩
    · obtain ⟨json, -, hjson⟩ := Option.map_eq_some_iff.mp (Option.mem_toList.mp htask)
      exact .inr ⟨env, json, activates_last hminutes, hjson.symm⟩

theorem Foreign.activate (h : Foreign initial events sys) (hminutes : 0 < env.effective.autoRollbackMinutes) :
    Foreign initial (events ++ [.activate env hminutes]) (sys.activate env) := by
  obtain ⟨l, hended, active, -, hdescribes⟩ := remediate_ends env sys.host
  have hown : OwnRules env (l.reporting active).rules := hended.own
  refine ⟨h.kept.activate hown hdescribes hminutes, fun a ha => ?_⟩
  cases htask : l.task with
  | none =>
    rw [live_activate_of_no_task hdescribes htask] at ha
    exact h.apart a ha
  | some json =>
    obtain ⟨hclear, hjson, snapshot, hcaptures⟩ := hended.of_task htask
    change a ∈ (if _ then _ else _) at ha
    rw [if_pos ⟨hasTask_of_task hdescribes htask, hasTask_of_fresh hclear.fresh⟩, List.mem_append,
      List.mem_singleton] at ha
    rcases ha with ha | rfl
    · exact h.apart a ha
    · refine ⟨hclear.fresh.mono h.kept.rules h.kept.tasks, sys.host, snapshot, ?_⟩
      rw [show (remediate env sys.host).rollbackSnapshotJson = some json from hdescribes.snapshotJson.trans hjson]
      exact hcaptures

theorem Apart.rollback {a : Activation cf} (h : Apart initial a) (hkept : Kept initial events host)
    (event : Event cf) : Kept initial (events ++ [event]) (a.rollback fault host).1 := by
  obtain ⟨before, snapshot, hcaptures⟩ := h.captures
  rw [Activation.rollback_eq hcaptures]
  have hunnamed : Unnamed cf snapshot.managedRules initial.rules := by
    rw [managedRules_of_snapshotOf hcaptures.captured]
    exact h.fresh.unnamed
  have htasks : initial.tasks.Sublist (host.tasks.filter fun task => !cf.equal task.taskName a.env.rollbackTaskName) := by
    refine List.Sublist.trans ?_ (hkept.tasks.filter _)
    rw [List.filter_eq_self.mpr fun task htask => by rw [h.fresh.task task htask]; rfl]
  refine hkept.of_sublist event ?_ ?_ ?_ ?_
  · rcases @rollback_rules cf fault snapshot a.env.rollbackTaskName host with hsame | hrestored
    · exact hsame ▸ hkept.rules
    · exact hrestored ▸ hunnamed.sublist_restore hkept.rules
  · rw [rollback_tasks]
    split_ifs
    · exact htasks
    · exact hkept.tasks
  · rcases @rollback_rules cf fault snapshot a.env.rollbackTaskName host with hsame | hrestored
    · exact hsame ▸ List.Sublist.refl _
    · exact hrestored ▸ restore_rules snapshot host
  · rw [rollback_tasks]
    split_ifs
    · exact List.filter_sublist
    · exact List.Sublist.refl _

theorem Foreign.rollback (h : Foreign initial events sys) (index : ℕ) (fault : RollbackCall → Bool) :
    Foreign initial (events ++ [.rollback index fault]) (sys.next (.rollback index fault)) := by
  unfold System.next
  dsimp only
  cases hlive : sys.live[index]? with
  | none =>
    exact ⟨h.kept.of_sublist _ h.kept.rules h.kept.tasks (List.Sublist.refl _) (List.Sublist.refl _), h.apart⟩
  | some a =>
    refine ⟨(h.apart a (List.mem_of_getElem? hlive)).rollback h.kept _, fun b hb => h.apart b ?_⟩
    dsimp only at hb
    split_ifs at hb
    · exact List.mem_of_mem_filter hb
    · exact hb

theorem Foreign.next (h : Foreign initial events sys) (event : Event cf) :
    Foreign initial (events ++ [event]) (sys.next event) := by
  cases event with
  | activate env hminutes => exact h.activate hminutes
  | rollback index fault => exact h.rollback index fault

theorem foreign_of_events (host : Host) (events : List (Event cf)) :
    Foreign host events (events.foldl System.next ⟨host, []⟩) := by
  induction events using List.reverseRecOn with
  | nil =>
    exact ⟨⟨List.Sublist.refl _, List.Sublist.refl _, fun _ hrule => .inl hrule, fun _ htask => .inl htask⟩,
      fun a ha => absurd ha List.not_mem_nil⟩
  | append_singleton events event ih =>
    rw [List.foldl_append]
    exact ih.next event

/-- Behind any activations, rollbacks and failures, the rules and tasks from before all of them are still on the
    host, and any other rule or task is one of these activations. -/
theorem kept_of_events (host : Host) (events : List (Event cf)) :
    Kept host events (events.foldl System.next ⟨host, []⟩).host :=
  (foreign_of_events host events).kept

end BaselineOps.KillSwitch
