import Mathlib
import BaselineOps.Scheduler.Order

/-!
# Sequential execution

Model of `baselineops-engine/src/scheduler.rs` (lines 14–274). What the scheduler meets outside is a
`World`: at which turns cancellation is requested, what the runner returns and what the clock shows.
The runner may have a state of its own, so its answer depends on the turn. Every turn is logged with
what the scheduler asked of the token and of the runner; the summary does not depend on the log.

* `executeActions_semantics`: which actions are run, which are skipped, and what is reported.
-/

namespace BaselineOps.Engine

open BaselineOps.Domain BaselineOps.Lib Relation

/-! ## Model -/

/-- `ExecutionPolicy` (lines 33–38). -/
structure ExecutionPolicy where
  operation : Domain.Operation
  continueOnError : Bool
  deriving DecidableEq

/-- `should_stop_after_failure` (lines 41–43). -/
def ExecutionPolicy.shouldStopAfterFailure (policy : ExecutionPolicy) (action : PlannedActionV3) :
    Bool :=
  decide (policy.operation = .apply) || !(policy.continueOnError || action.continueOnError)

/-- `ActionExecution` (lines 48–57). -/
structure ActionExecution where
  status : ActionStatus
  findings : List FindingV3
  artifacts : List ArtifactV3
  metadata : JsonMap
  deriving DecidableEq

/-- `requests k`: `cancel` is called between the checks of the turns `k - 1` and `k`. `run k`: what
    the runner returns in the turn `k`. `clock`: the readings of the clock, two for each turn. -/
structure World where
  requests : ℕ → Bool
  run : ℕ → PlannedActionV3 → Except SchedulerError ActionExecution
  clock : ℕ → DateTime

/-- `CancellationToken::is_cancelled` (lines 26–28) in the turn `k`; a request is never taken back. -/
def World.isCancelled (world : World) (k : ℕ) : Bool := (List.range (k + 1)).any world.requests

/-- `ExecutionState` (lines 162–169). -/
structure ExecutionState where
  statuses : AList fun _ : ActionId => ActionStatus
  results : List ActionResultV3
  findings : List FindingV3
  artifacts : List ArtifactV3
  stopped : Bool
  cancelled : Bool

/-- `ExecutionState::new` (lines 172–181). -/
def ExecutionState.new : ExecutionState where
  statuses := ∅
  results := []
  findings := []
  artifacts := []
  stopped := false
  cancelled := false

/-- The statuses that `dependency_failed` looks for. -/
def blocksDependents : ActionStatus → Bool
  | .failed | .blocked | .skipped => true
  | .succeeded | .findings => false

/-- `dependency_failed` (lines 204–211). -/
def ExecutionState.dependencyFailed (s : ExecutionState) (action : PlannedActionV3) : Bool :=
  action.dependsOn.any fun dependency =>
    match s.statuses.lookup dependency with
    | some status => blocksDependents status
    | none => false

/-- The statuses after which `accept_execution` may stop. -/
def isFailure : ActionStatus → Bool
  | .failed | .blocked => true
  | .succeeded | .findings | .skipped => false

/-- `accept_execution` (lines 213–229). -/
def ExecutionState.acceptExecution (s : ExecutionState) (action : PlannedActionV3)
    (policy : ExecutionPolicy) (execution : ActionExecution) :
    (ActionStatus × JsonMap) × ExecutionState :=
  ((execution.status, execution.metadata),
    { s with
      findings := s.findings ++ execution.findings
      artifacts := s.artifacts ++ execution.artifacts
      stopped := s.stopped ||
        (isFailure execution.status && policy.shouldStopAfterFailure action) })

/-- The metadata of an action whose runner failed. -/
def errorMetadata (error : SchedulerError) : JsonMap where
  entries := [("engineError", .string error.toText)]
  sorted := List.pairwise_singleton _ _

/-- `accept_error` (lines 231–245). -/
def ExecutionState.acceptError (s : ExecutionState) (action : PlannedActionV3)
    (policy : ExecutionPolicy) (error : SchedulerError) :
    (ActionStatus × JsonMap) × ExecutionState :=
  ((.failed, errorMetadata error),
    { s with stopped := s.stopped || policy.shouldStopAfterFailure action })

/-- `next_outcome` (lines 183–202), with the answer of the runner when it is called. -/
def ExecutionState.nextOutcome (s : ExecutionState) (action : PlannedActionV3)
    (policy : ExecutionPolicy) (run : PlannedActionV3 → Except SchedulerError ActionExecution)
    (isCancelled : Bool) :
    Option (Except SchedulerError ActionExecution) × (ActionStatus × JsonMap) × ExecutionState :=
  if isCancelled then
    (none, (.skipped, JsonMap.empty), { s with cancelled := true, stopped := true })
  else if s.stopped || s.dependencyFailed action then
    (none, (.skipped, JsonMap.empty), s)
  else
    (some (run action),
      match run action with
      | .ok execution => s.acceptExecution action policy execution
      | .error error => s.acceptError action policy error)

/-- `record` (lines 247–264). -/
def ExecutionState.record (s : ExecutionState) (action : PlannedActionV3) (status : ActionStatus)
    (metadata : JsonMap) (startedAt completedAt : DateTime) : ExecutionState :=
  { s with
    statuses := s.statuses.insert action.id status
    results := s.results ++ [{
      actionId := action.id
      capability := action.capability
      status := status
      startedAt := startedAt
      completedAt := completedAt
      metadata := metadata }] }

/-- `ExecutionSummary` (lines 75–84). -/
structure ExecutionSummary where
  actions : List ActionResultV3
  findings : List FindingV3
  artifacts : List ArtifactV3
  cancelled : Bool
  deriving DecidableEq

/-- `finish` (lines 266–273). -/
def ExecutionState.finish (s : ExecutionState) : ExecutionSummary where
  actions := s.results
  findings := s.findings
  artifacts := s.artifacts
  cancelled := s.cancelled

/-- One turn: the action, whether the token was cancelled, and the answer of the runner when it was
    called. -/
structure Turn where
  action : PlannedActionV3
  cancelled : Bool
  answer : Option (Except SchedulerError ActionExecution)
  deriving DecidableEq

/-- The body of the loop of `execute_actions` (lines 151–156). -/
def executeTurn (policy : ExecutionPolicy) (world : World) (st : ExecutionState × List Turn)
    (action : PlannedActionV3) : ExecutionState × List Turn :=
  let k := st.2.length
  let isCancelled := world.isCancelled k
  let (answer, (status, metadata), s) := st.1.nextOutcome action policy (world.run k) isCancelled
  (s.record action status metadata (world.clock (2 * k)) (world.clock (2 * k + 1)),
    st.2 ++ [⟨action, isCancelled, answer⟩])

/-- `execute_actions` (lines 137–159); `by_id[&action_id]` panics on an id that is missing. -/
def executeActions (actions : List PlannedActionV3) (policy : ExecutionPolicy) (world : World) :
    Option (Except SchedulerError (ExecutionSummary × List Turn)) :=
  match topologicalOrder actions with
  | none => none
  | some (.error e) => some (.error e)
  | some (.ok order) => do
    let byId := collectById (actions.map fun action => (action.id, action))
    let (s, log) ← order.foldlM (fun st actionId => do
      let action ← byId.lookup actionId
      return executeTurn policy world st action) (ExecutionState.new, [])
    return .ok (s.finish, log)

/-! ## What a turn reports -/

/-- The status that is recorded for a turn. -/
def Turn.status (t : Turn) : ActionStatus :=
  match t.answer with
  | none => .skipped
  | some (.ok execution) => execution.status
  | some (.error _) => .failed

/-- The metadata that is recorded for a turn. -/
def Turn.metadata (t : Turn) : JsonMap :=
  match t.answer with
  | none => JsonMap.empty
  | some (.ok execution) => execution.metadata
  | some (.error error) => errorMetadata error

/-- The findings of the runner. -/
def Turn.findings (t : Turn) : List FindingV3 :=
  match t.answer with
  | some (.ok execution) => execution.findings
  | _ => []

/-- The artifacts of the runner. -/
def Turn.artifacts (t : Turn) : List ArtifactV3 :=
  match t.answer with
  | some (.ok execution) => execution.artifacts
  | _ => []

/-- The runner was called and returned `Failed`, `Blocked` or an error. -/
def Turn.fails (t : Turn) : Bool :=
  match t.answer with
  | none => false
  | some (.ok execution) => isFailure execution.status
  | some (.error _) => true

/-- The turn stops the run: it was cancelled, or its runner failed and the policy stops then. -/
def Turn.stops (policy : ExecutionPolicy) (t : Turn) : Bool :=
  t.cancelled || (t.fails && policy.shouldStopAfterFailure t.action)

/-! ## One turn -/

/-- What the log says about the turn `t` after the turns `before`. -/
structure TurnSpec (policy : ExecutionPolicy) (world : World) (before : List Turn) (t : Turn) :
    Prop where
  cancelled : t.cancelled = world.isCancelled before.length
  called : t.answer.isSome ↔ t.cancelled = false ∧ (∀ u ∈ before, u.stops policy = false) ∧
    ∀ u ∈ before, u.action.id ∈ t.action.dependsOn → blocksDependents u.status = false
  answer : ∀ answer, t.answer = some answer → answer = world.run before.length t.action

/-- The state after the turns of the log. -/
structure Reflects (policy : ExecutionPolicy) (world : World) (s : ExecutionState)
    (log : List Turn) : Prop where
  turns : EachNext (TurnSpec policy world) log
  nodup : (log.map fun t => t.action.id).Nodup
  statuses : ∀ t ∈ log, s.statuses.lookup t.action.id = some t.status
  unknown : ∀ x ∉ log.map fun t => t.action.id, s.statuses.lookup x = none
  results : s.results.map (fun r => (r.actionId, r.status, r.metadata)) =
    log.map fun t => (t.action.id, t.status, t.metadata)
  findings : s.findings = log.flatMap Turn.findings
  artifacts : s.artifacts = log.flatMap Turn.artifacts
  stopped : s.stopped = log.any (Turn.stops policy)
  cancelled : s.cancelled = log.any Turn.cancelled

section Turn

variable {policy : ExecutionPolicy} {world : World} {s : ExecutionState} {log : List Turn}

theorem reflects_new : Reflects policy world ExecutionState.new [] where
  turns := eachNext_nil
  nodup := List.nodup_nil
  statuses := by simp
  unknown := by simp [ExecutionState.new]
  results := rfl
  findings := rfl
  artifacts := rfl
  stopped := rfl
  cancelled := rfl

/-- `dependency_failed` by the log. -/
theorem Reflects.dependencyFailed_eq_false_iff (h : Reflects policy world s log)
    {action : PlannedActionV3} : s.dependencyFailed action = false ↔
      ∀ u ∈ log, u.action.id ∈ action.dependsOn → blocksDependents u.status = false := by
  rw [ExecutionState.dependencyFailed, List.any_eq_false]
  constructor
  · intro hall u hu hdep
    have hu' := hall u.action.id hdep
    rw [h.statuses u hu] at hu'
    simpa using hu'
  · intro hall x hx
    by_cases hmem : x ∈ log.map fun t => t.action.id
    · obtain ⟨u, hu, rfl⟩ := List.mem_map.mp hmem
      rw [h.statuses u hu]
      simpa using hall u hu hx
    · rw [h.unknown x hmem]
      simp

/-- What `next_outcome` returns and does to the state, by the answer of the runner. -/
theorem nextOutcome_spec (s : ExecutionState) (action : PlannedActionV3) (policy : ExecutionPolicy)
    (run : PlannedActionV3 → Except SchedulerError ActionExecution) (isCancelled : Bool) :
    ∃ answer, s.nextOutcome action policy run isCancelled =
        (answer, ((Turn.mk action isCancelled answer).status, (Turn.mk action isCancelled answer).metadata),
          { s with
            findings := s.findings ++ (Turn.mk action isCancelled answer).findings
            artifacts := s.artifacts ++ (Turn.mk action isCancelled answer).artifacts
            stopped := s.stopped || (Turn.mk action isCancelled answer).stops policy
            cancelled := s.cancelled || isCancelled }) ∧
      (answer.isSome ↔ isCancelled = false ∧ s.stopped = false ∧ s.dependencyFailed action = false) ∧
      ∀ a, answer = some a → a = run action := by
  unfold ExecutionState.nextOutcome
  split_ifs with hcancel hskip
  · refine ⟨none, ?_, ?_, ?_⟩
    · simp [Turn.status, Turn.metadata, Turn.findings, Turn.artifacts, Turn.stops, hcancel]
    · simp [hcancel]
    · simp
  · rw [Bool.or_eq_true] at hskip
    refine ⟨none, ?_, ?_, ?_⟩
    · simp [Turn.status, Turn.metadata, Turn.findings, Turn.artifacts, Turn.stops, Turn.fails, hcancel]
    · simp only [Option.isSome_none, Bool.false_eq_true, false_iff, not_and]
      intro _ hstopped
      rw [hstopped] at hskip
      simpa using hskip
    · simp
  · rw [Bool.or_eq_true, not_or, Bool.not_eq_true, Bool.not_eq_true] at hskip
    refine ⟨some (run action), ?_, ?_, ?_⟩
    · cases hrun : run action with
      | ok execution =>
        simp [ExecutionState.acceptExecution, Turn.status, Turn.metadata, Turn.findings,
          Turn.artifacts, Turn.stops, Turn.fails, hcancel]
      | error error =>
        simp [ExecutionState.acceptError, Turn.status, Turn.metadata, Turn.findings,
          Turn.artifacts, Turn.stops, Turn.fails, hcancel]
    · simp [hcancel, hskip]
    · rintro a ⟨⟩
      rfl

/-- One turn keeps the state in step with the log. -/
theorem Reflects.executeTurn (h : Reflects policy world s log) {action : PlannedActionV3}
    (hnew : action.id ∉ log.map fun t => t.action.id) :
    ∃ s' t, executeTurn policy world (s, log) action = (s', log ++ [t]) ∧ t.action = action ∧
      Reflects policy world s' (log ++ [t]) := by
  obtain ⟨answer, hnext, hcalled, hanswer⟩ :=
    nextOutcome_spec s action policy (world.run log.length) (world.isCancelled log.length)
  have hturn : TurnSpec policy world log ⟨action, world.isCancelled log.length, answer⟩ := by
    refine ⟨rfl, ?_, hanswer⟩
    rw [hcalled, h.dependencyFailed_eq_false_iff, h.stopped, List.any_eq_false]
    simp only [Bool.not_eq_true]
  unfold Engine.executeTurn
  simp only [hnext]
  refine ⟨_, ⟨action, world.isCancelled log.length, answer⟩, rfl, rfl, ?_⟩
  refine ⟨eachNext_concat h.turns hturn, ?_, ?_, ?_, ?_, ?_, ?_, ?_, ?_⟩
  · rw [List.map_append, List.nodup_append]
    refine ⟨h.nodup, List.nodup_singleton _, ?_⟩
    intro x hx y hy
    rw [List.map_singleton, List.mem_singleton] at hy
    rintro rfl
    exact hnew (hy ▸ hx)
  · intro u hu
    show (s.statuses.insert action.id _).lookup u.action.id = _
    rcases List.mem_append.mp hu with hu | hu
    · have hne : u.action.id ≠ action.id := by
        intro heq
        exact hnew (heq ▸ List.mem_map_of_mem hu)
      rw [AList.lookup_insert_ne hne, h.statuses u hu]
    · rw [List.mem_singleton.mp hu, AList.lookup_insert]
  · intro x hx
    rw [List.map_append, List.mem_append, List.map_singleton, List.mem_singleton, not_or] at hx
    show (s.statuses.insert action.id _).lookup x = _
    rw [AList.lookup_insert_ne hx.2, h.unknown x hx.1]
  · show (s.results ++ [_]).map _ = _
    rw [List.map_append, List.map_append, h.results]
    rfl
  · show s.findings ++ _ = _
    rw [List.flatMap_append, h.findings, List.flatMap_singleton]
  · show s.artifacts ++ _ = _
    rw [List.flatMap_append, h.artifacts, List.flatMap_singleton]
  · show (s.stopped || _) = _
    rw [List.any_append, h.stopped]
    simp
  · show (s.cancelled || _) = _
    rw [List.any_append, h.cancelled]
    simp

/-- The turns of a list of actions with different ids. -/
theorem Reflects.foldl {actions : List PlannedActionV3} (h : Reflects policy world s log)
    (hnodup : ((log.map fun t => t.action.id) ++ actions.map PlannedActionV3.id).Nodup) :
    ∃ s' log', actions.foldl (Engine.executeTurn policy world) (s, log) = (s', log') ∧
      log'.map Turn.action = log.map Turn.action ++ actions ∧ Reflects policy world s' log' := by
  induction actions generalizing s log with
  | nil => exact ⟨s, log, rfl, by simp, h⟩
  | cons action actions ih =>
    have hnew : action.id ∉ log.map fun t => t.action.id := by
      rw [List.nodup_append] at hnodup
      intro hmem
      exact hnodup.2.2 action.id hmem action.id (by simp) rfl
    obtain ⟨s₁, t, hturn, haction, hreflects⟩ := h.executeTurn hnew
    have hnodup₁ : (((log ++ [t]).map fun t => t.action.id) ++
        actions.map PlannedActionV3.id).Nodup := by
      rw [List.map_append, List.map_singleton, haction, List.append_assoc, List.singleton_append]
      exact hnodup
    obtain ⟨s', log', hfold, hlog, hreflects'⟩ := ih hreflects hnodup₁
    refine ⟨s', log', ?_, ?_, hreflects'⟩
    · rw [List.foldl_cons, hturn, hfold]
    · rw [hlog, List.map_append, List.map_singleton, haction, List.append_assoc,
        List.singleton_append]

end Turn

/-! ## A whole run -/

section Run

variable {actions : List PlannedActionV3} {policy : ExecutionPolicy} {world : World}

/-- The loop of `execute_actions` never panics and runs the actions in the given order. -/
theorem foldlM_executeTurn (policy : ExecutionPolicy) (world : World)
    (hnodup : (actions.map PlannedActionV3.id).Nodup)
    {ordered : List PlannedActionV3} (hmem : ∀ action ∈ ordered, action ∈ actions)
    (st : ExecutionState × List Turn) :
    (ordered.map PlannedActionV3.id).foldlM (fun st actionId => do
      let action ← (collectById (actions.map fun action => (action.id, action))).lookup actionId
      return executeTurn policy world st action) st =
      some (ordered.foldl (executeTurn policy world) st) := by
  induction ordered generalizing st with
  | nil => rfl
  | cons action ordered ih =>
    have hlookup : (collectById (actions.map fun action => (action.id, action))).lookup action.id =
        some action := by
      rw [lookup_collectById (by rw [List.map_map]; exact hnodup), List.mem_map]
      exact ⟨action, hmem action List.mem_cons_self, rfl⟩
    rw [List.map_cons, List.foldlM_cons, hlookup, List.foldl_cons]
    exact ih (fun a ha => hmem a (List.mem_cons_of_mem action ha)) _

/-- A run in the order of the actions: the state it ends with and its log. -/
theorem executeActions_run (policy : ExecutionPolicy) (world : World) {order : List ActionId}
    (horder : topologicalOrder actions = some (.ok order)) :
    ∃ s log, executeActions actions policy world = some (.ok (s.finish, log)) ∧
      Reflects policy world s log ∧ (log.map fun t => t.action.id) = order ∧
      ∀ t ∈ log, t.action ∈ actions := by
  obtain ⟨hnodup, -, hperm, -⟩ := topologicalOrder_ok horder
  obtain ⟨ordered, rfl, hordered⟩ := exists_ordered hperm
  have hmem : ∀ action ∈ ordered, action ∈ actions := fun _ h => hordered.subset h
  have hnodup' : (ordered.map PlannedActionV3.id).Nodup := hperm.nodup_iff.mpr hnodup
  obtain ⟨s, log, hfold, hlog, hreflects⟩ :=
    Reflects.foldl (reflects_new : Reflects policy world ExecutionState.new []) hnodup'
  rw [List.map_nil, List.nil_append] at hlog
  refine ⟨s, log, ?_, hreflects, ?_, ?_⟩
  · have hloop := foldlM_executeTurn policy world hnodup hmem (ExecutionState.new, [])
    unfold executeActions
    rw [horder]
    dsimp only
    rw [hloop, hfold]
    rfl
  · rw [← hlog, List.map_map]
    rfl
  · intro t ht
    apply hmem
    rw [← hlog]
    exact List.mem_map_of_mem ht

theorem executeActions_error {e : SchedulerError}
    (horder : topologicalOrder actions = some (.error e)) :
    executeActions actions policy world = some (.error e) := by
  unfold executeActions
  rw [horder]

/-- A run that returns a summary. -/
theorem executeActions_ok {summary : ExecutionSummary} {log : List Turn}
    (h : executeActions actions policy world = some (.ok (summary, log))) :
    ∃ order s, topologicalOrder actions = some (.ok order) ∧ summary = s.finish ∧
      Reflects policy world s log ∧ (log.map fun t => t.action.id) = order ∧
      ∀ t ∈ log, t.action ∈ actions := by
  cases horder : topologicalOrder actions with
  | none =>
    rw [topologicalOrder_eq_some] at horder
    cases horder
  | some result =>
    cases result with
    | error e =>
      rw [executeActions_error horder] at h
      cases h
    | ok order =>
      obtain ⟨s, log', hrun, hreflects, hlog, hmem⟩ :=
        executeActions_run policy world horder
      rw [hrun] at h
      cases h
      exact ⟨order, s, rfl, rfl, hreflects, hlog, hmem⟩

end Run

/-! ## The log of a run -/

section Log

variable {policy : ExecutionPolicy} {world : World} {log : List Turn}

theorem status_of_answer_none {t : Turn} (h : t.answer = none) : t.status = .skipped := by
  rw [Turn.status, h]

/-- After a turn that stops the run no runner is called. -/
theorem answer_eq_none_of_stops (h : EachNext (TurnSpec policy world) log) {before after : List Turn}
    {t : Turn} (hlog : log = before ++ t :: after) (hstops : t.stops policy = true) :
    ∀ u ∈ after, u.answer = none := by
  intro u hu
  obtain ⟨mid, rest, rfl⟩ := List.append_of_mem hu
  have hturn := h (before ++ t :: mid) u rest (by rw [hlog, List.append_assoc, List.cons_append])
  by_contra hcalled
  obtain ⟨-, hnostop, -⟩ := hturn.called.mp (Option.isSome_iff_ne_none.mpr hcalled)
  have hnot := hnostop t (by simp)
  rw [hstops] at hnot
  cases hnot

/-- An action that depends on one with a blocking status is skipped. -/
theorem skipped_of_dependency (h : EachNext (TurnSpec policy world) log) {before after : List Turn}
    {t u : Turn} (hlog : log = before ++ t :: after) (hu : u ∈ before)
    (hdep : u.action.id ∈ t.action.dependsOn) (hblocks : blocksDependents u.status = true) :
    t.status = .skipped := by
  apply status_of_answer_none
  by_contra hcalled
  obtain ⟨-, -, hdeps⟩ := (h before t after hlog).called.mp (Option.isSome_iff_ne_none.mpr hcalled)
  rw [hdeps u hu hdep] at hblocks
  cases hblocks

/-- Every dependency of an action has had its turn. -/
theorem exists_turn_of_dependency {actions : List PlannedActionV3}
    (hlinear : Linear (Kahn.nodes (actionGraph actions))
      (DependsOn PlannedActionV3.id PlannedActionV3.dependsOn actions)
      (log.map fun t => t.action.id))
    (hmem : ∀ t ∈ log, t.action ∈ actions) {before after : List Turn} {t : Turn}
    (hlog : log = before ++ t :: after) {x : ActionId} (hx : x ∈ t.action.dependsOn) :
    ∃ u ∈ before, u.action.id = x := by
  have ht : t ∈ log := by
    rw [hlog]
    exact List.mem_append_right _ List.mem_cons_self
  have hready := hlinear (before.map fun t => t.action.id) t.action.id
    (after.map fun t => t.action.id) (by rw [hlog, List.map_append, List.map_cons])
  have hdone := hready.deps x ⟨t.action, hmem t ht, rfl, hx⟩
  obtain ⟨u, hu, hux⟩ := List.mem_map.mp hdone
  exact ⟨u, hu, hux⟩

/-- An action that depends, directly or not, on one with a blocking status is skipped. -/
theorem skipped_of_trans {actions : List PlannedActionV3}
    (hnodup : (actions.map PlannedActionV3.id).Nodup) (h : EachNext (TurnSpec policy world) log)
    (hlinear : Linear (Kahn.nodes (actionGraph actions))
      (DependsOn PlannedActionV3.id PlannedActionV3.dependsOn actions)
      (log.map fun t => t.action.id))
    (hmem : ∀ t ∈ log, t.action ∈ actions) {x y : ActionId}
    (htrans : TransGen (DependsOn PlannedActionV3.id PlannedActionV3.dependsOn actions) x y)
    (hblocks : ∀ u ∈ log, u.action.id = y → blocksDependents u.status = true) :
    ∀ t ∈ log, t.action.id = x → t.status = .skipped := by
  -- one edge: a blocking status of every turn of `z` skips the turns of `x`
  have hedge : ∀ {x z}, DependsOn PlannedActionV3.id PlannedActionV3.dependsOn actions x z →
      (∀ u ∈ log, u.action.id = z → blocksDependents u.status = true) →
      ∀ t ∈ log, t.action.id = x → t.status = .skipped := by
    rintro x z ⟨action, haction, rfl, hz⟩ hz_blocks t ht htx
    have hsame : t.action = action := List.inj_on_of_nodup_map hnodup (hmem t ht) haction htx
    obtain ⟨before, after, hlog⟩ := List.append_of_mem ht
    obtain ⟨u, hu, hux⟩ := exists_turn_of_dependency hlinear hmem hlog (hsame ▸ hz)
    have hu' : u ∈ log := by
      rw [hlog]
      exact List.mem_append_left _ hu
    refine skipped_of_dependency h hlog hu ?_ (hz_blocks u hu' hux)
    rw [hux, hsame]
    exact hz
  induction htrans using TransGen.head_induction_on with
  | single hdep => exact hedge hdep hblocks
  | head hdep _ ih =>
    apply hedge hdep
    intro u hu huz
    rw [ih u hu huz]
    rfl

end Log

/-- Execution of any list of actions under any policy, with any answers of the runner and any
    requests of cancellation. The turns of the log are the actions in topological order. -/
theorem executeActions_semantics {actions : List PlannedActionV3} {policy : ExecutionPolicy}
    {world : World} {summary : ExecutionSummary} {log : List Turn}
    (h : executeActions actions policy world = some (.ok (summary, log))) :
    -- one result for each action, in topological order, with the status of its turn
    (∃ order, topologicalOrder actions = some (.ok order) ∧ order.Perm (actions.map PlannedActionV3.id) ∧
      summary.actions.map ActionResultV3.actionId = order ∧
      (log.map fun t => t.action.id) = order ∧ (∀ t ∈ log, t.action ∈ actions) ∧
      summary.actions.map ActionResultV3.status = log.map Turn.status) ∧
    -- the runner is called once, and exactly when nothing stands against it
    ((log.filter fun t => t.answer.isSome).map fun t => t.action.id).Nodup ∧
    (∀ before t after, log = before ++ t :: after →
      t.cancelled = world.isCancelled before.length ∧
      (t.answer.isSome ↔ world.isCancelled before.length = false ∧
        (∀ u ∈ before, u.stops policy = false) ∧
        ∀ x ∈ t.action.dependsOn, ∃ u ∈ before, u.action.id = x ∧
          blocksDependents u.status = false) ∧
      ∀ answer, t.answer = some answer → answer = world.run before.length t.action) ∧
    -- without a call, or behind a failed dependency, an action is skipped
    (∀ t ∈ log, t.answer = none → t.status = .skipped) ∧
    (∀ t ∈ log, ∀ u ∈ log,
      TransGen (DependsOn PlannedActionV3.id PlannedActionV3.dependsOn actions) t.action.id
        u.action.id → blocksDependents u.status = true → t.status = .skipped) ∧
    -- an apply run makes no call after a failed one
    (policy.operation = .apply → ∀ before t after, log = before ++ t :: after → t.fails = true →
      ∀ u ∈ after, u.answer = none) ∧
    -- cancellation skips everything that follows
    (∀ before t after, log = before ++ t :: after → t.cancelled = true →
      t.status = .skipped ∧ (∀ u ∈ after, u.status = .skipped) ∧ summary.cancelled = true) ∧
    -- findings and artifacts in the order of execution
    summary.findings = log.flatMap Turn.findings ∧ summary.artifacts = log.flatMap Turn.artifacts := by
  obtain ⟨order, s, horder, rfl, hreflects, hlog, hmem⟩ := executeActions_ok h
  obtain ⟨hnodup, -, hperm, hgreedy⟩ := topologicalOrder_ok horder
  have hlinear := hgreedy.linear
  rw [← hlog] at hlinear
  have hturns := hreflects.turns
  refine ⟨⟨order, horder, hperm, ?_, hlog, hmem, ?_⟩, ?_, ?_, fun t _ => status_of_answer_none, ?_,
    ?_, ?_, hreflects.findings, hreflects.artifacts⟩
  · have hids := congrArg (List.map Prod.fst) hreflects.results
    rw [List.map_map, List.map_map] at hids
    rw [← hlog]
    exact hids
  · have hstatuses := congrArg (List.map fun r => r.2.1) hreflects.results
    rw [List.map_map, List.map_map] at hstatuses
    exact hstatuses
  · exact hreflects.nodup.sublist (List.filter_sublist.map _)
  · intro before t after hsplit
    have hturn := hturns before t after hsplit
    refine ⟨hturn.cancelled, ?_, hturn.answer⟩
    rw [hturn.called, hturn.cancelled]
    refine and_congr_right fun _ => and_congr_right fun _ => ⟨?_, ?_⟩
    · intro hdeps x hx
      obtain ⟨u, hu, hux⟩ := exists_turn_of_dependency hlinear hmem hsplit hx
      exact ⟨u, hu, hux, hdeps u hu (hux ▸ hx)⟩
    · intro hdeps u hu hdep
      obtain ⟨v, hv, hvu, hblocks⟩ := hdeps u.action.id hdep
      have hsub : before ⊆ log := by
        rw [hsplit]
        exact List.subset_append_left _ _
      rw [← List.inj_on_of_nodup_map hreflects.nodup (hsub hv) (hsub hu) hvu]
      exact hblocks
  · intro t ht u hu htrans hblocks
    refine skipped_of_trans hnodup hturns hlinear hmem htrans ?_ t ht rfl
    intro v hv hvu
    rw [List.inj_on_of_nodup_map hreflects.nodup hv hu hvu]
    exact hblocks
  · intro happly before t after hsplit hfails
    apply answer_eq_none_of_stops hturns hsplit
    simp [Turn.stops, hfails, ExecutionPolicy.shouldStopAfterFailure, happly]
  · intro before t after hsplit hcancelled
    refine ⟨?_, ?_, ?_⟩
    · apply status_of_answer_none
      by_contra hcalled
      have hnot := ((hturns before t after hsplit).called.mp
        (Option.isSome_iff_ne_none.mpr hcalled)).1
      rw [hcancelled] at hnot
      cases hnot
    · intro u hu
      apply status_of_answer_none
      refine answer_eq_none_of_stops hturns hsplit ?_ u hu
      rw [Turn.stops, hcancelled, Bool.true_or]
    · show s.cancelled = true
      rw [hreflects.cancelled, List.any_eq_true]
      refine ⟨t, ?_, hcancelled⟩
      rw [hsplit]
      exact List.mem_append_right _ List.mem_cons_self

/-- An action for examples. -/
def sampleAction (id : UInt8) (dependsOn : List UInt8) : PlannedActionV3 where
  id := sampleActionId id
  sourceStep := sampleActionId id
  capability := ⟨"v3.test.capability", by decide +kernel⟩
  operation := .audit
  parameters := JsonMap.empty
  dependsOn := dependsOn.map sampleActionId
  continueOnError := false
  factsDigest := ⟨Vector.replicate 32 0⟩
  preconditions := []
  risk := .low
  reversibility := .notApplicable
  reboot := .notRequired
  privileges := []
  metadata := JsonMap.empty

theorem sampleClock_ge : (-8334601228800 : ℤ) ≤ 0 := by decide

theorem sampleClock_le : (0 : ℤ) ≤ 8210266876799 := by decide

/-- A runner that fails on the action `1` and succeeds on the others; cancellation is requested
    before the fourth turn. -/
def sampleWorld : World where
  requests k := k == 3
  run _ action :=
    if action.id = sampleActionId 1 then .error (.capability "denied")
    else .ok ⟨.succeeded, [], [], JsonMap.empty⟩
  clock _ := ⟨0, 0, sampleClock_ge, sampleClock_le⟩

/-- The log of four actions in that world, of which the second depends on the first. -/
def sampleLog : List Turn :=
  [⟨sampleAction 1 [], false, some (.error (.capability "denied"))⟩,
   ⟨sampleAction 2 [1], false, none⟩,
   ⟨sampleAction 3 [], false, some (.ok ⟨.succeeded, [], [], JsonMap.empty⟩)⟩,
   ⟨sampleAction 4 [], true, none⟩]

theorem executeActions_semantics_failed_dependency : ∃ summary,
    executeActions [sampleAction 2 [1], sampleAction 1 [], sampleAction 3 [], sampleAction 4 []]
      ⟨.audit, true⟩ sampleWorld = some (.ok (summary, sampleLog)) ∧
    summary.actions.map ActionResultV3.status = [.failed, .skipped, .succeeded, .skipped] ∧
    summary.cancelled = true := by
  have hrun : ∃ summary,
      executeActions [sampleAction 2 [1], sampleAction 1 [], sampleAction 3 [], sampleAction 4 []]
        ⟨.audit, true⟩ sampleWorld = some (.ok (summary, sampleLog)) := ⟨_, rfl⟩
  obtain ⟨summary, hrun⟩ := hrun
  obtain ⟨⟨_, _, _, _, _, _, hstatuses⟩, _, _, _, _, _, hcancel, _⟩ := executeActions_semantics hrun
  exact ⟨summary, hrun, hstatuses, (hcancel (sampleLog.take 3) _ [] rfl rfl).2.2⟩

end BaselineOps.Engine
