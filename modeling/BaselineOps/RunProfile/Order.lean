import Mathlib
import BaselineOps.Lib.Sweep
import BaselineOps.RunProfile.Completeness
import BaselineOps.Scheduler.Execute

/-!
# The order of the v2 schedule

When every child succeeds, `Invoke-RunProfileSchedule` sweeps the graph: a pass goes on to the steps
after the one it has just run, also when that one has made an earlier step ready. The order of the
calls is therefore the greedy declaration order, which the v3 engine uses, only while no step is
overtaken in this way.

* `invokedOf_invokeSchedule`: children are called wave by wave.
* `schedule_order_iff`: when this is the order of `topological_order`.
-/

namespace BaselineOps.RunProfile

open BaselineOps.Lib BaselineOps.Domain Relation

variable {fold : String → String} {world : World} {options : Options} {steps : List ProfileStep}

/-- Every child that is called succeeds. -/
def Succeeds (fold : String → String) (world : World) : Prop :=
  ∀ n parameters elapsedMs,
    (childOutcome fold parameters.scriptName (world.child n parameters) elapsedMs).2.status = .success

/-- No step waits for itself through others. -/
def Acyclic (fold : String → String) (steps : List ProfileStep) : Prop :=
  ∀ x, ¬ TransGen (WaitsFor fold steps) x x

/-- The folded names of the calls, in order. -/
def calledOf (fold : String → String) (s : State) : List String :=
  (invokedOf s.trace).map fun parameters => fold parameters.scriptName

/-! ## Runs in which every child succeeds -/

/-- All entries are successes of children that were called, in the order of the calls. -/
structure AllSucceeded (fold : String → String) (s : State) : Prop where
  status : ∀ result ∈ s.results, result.status = .success
  called : calledOf fold s = doneOf fold s.results

section Success

variable (hsucceeds : Succeeds fold world) (hwhatIf : options.whatIf = false) {s s' : State}
  {step : ProfileStep}

include hsucceeds hwhatIf in
theorem invokeStep_success (s : State) (step : ProfileStep) :
    (invokeStep fold world options s step).1.status = .success := by
  rw [invokeStep, if_neg (by simp [hwhatIf])]
  exact hsucceeds _ (newStepParameters fold options s step) _

include hsucceeds hwhatIf in
theorem stopsProfile_eq_false (s : State) (step : ProfileStep) :
    stopsProfile fold world options s step = false := by
  rw [stopsProfile, invokeStep_success hsucceeds hwhatIf]
  rfl

include hsucceeds hwhatIf in
/-- A step that is run adds its name to the calls and to the entries. -/
theorem AllSucceeded.runStep (h : AllSucceeded fold s) (step : ProfileStep)
    (pending : List ProfileStep) :
    AllSucceeded fold (RunProfile.runStep fold world options { s with pending := pending } step) ∧
      doneOf fold (RunProfile.runStep fold world options { s with pending := pending } step).results =
        doneOf fold s.results ++ [fold step.script] := by
  obtain ⟨calls, result, hrecords, hstatus, hcalls⟩ :=
    @records_runStep fold world options { s with pending := pending } step
  rw [invokeStep_success hsucceeds hwhatIf] at hstatus
  have hdone : doneOf fold
      (RunProfile.runStep fold world options { s with pending := pending } step).results =
        doneOf fold s.results ++ [fold step.script] := by
    rw [hrecords.results, doneOf, List.map_append, List.map_singleton, hrecords.name]
    rfl
  refine ⟨⟨?_, ?_⟩, hdone⟩
  · rw [hrecords.results]
    intro other hother
    rcases List.mem_append.mp hother with hother | hother
    · exact h.status other hother
    · rw [List.mem_singleton.mp hother, hstatus]
  · rcases hcalls with ⟨-, hskipped, -⟩ | ⟨parameters, rfl, hname, -⟩
    · rw [hstatus] at hskipped
      cases hskipped
    · rw [hdone, ← h.called, ← hname, calledOf, hrecords.trace, invokedOf_append, invokedOf_append,
        List.map_append, List.map_append]
      simp [calledOf, invokedOf]

/-- Without a failed entry no step is skipped. -/
theorem AllSucceeded.not_failed (h : AllSucceeded fold s) (hinv : Inv fold steps s)
    (step : ProfileStep) : getDependencyState fold step s.stepStatus ≠ ⟨true, true⟩ := by
  intro hstate
  obtain ⟨dependency, -, status, hsome, hfail⟩ := exists_of_failed hstate
  obtain ⟨result, hresult, -, rfl⟩ := (hinv.stepStatus _ _).mp hsome
  rw [h.status result hresult] at hfail
  cases hfail

/-! ## Passes are sweeps -/

/-- The entry of a step in the graph. -/
def entryOf (fold : String → String) (step : ProfileStep) : String × List String :=
  (fold step.script, step.dependencies.map fold)

theorem getDependencyState_ready_iff (hinv : Inv fold steps s) :
    (getDependencyState fold step s.stepStatus).ready = true ↔
      ∀ y ∈ (entryOf fold step).2, y ∈ doneOf fold s.results := by
  rw [getDependencyState_ready, entryOf, List.forall_mem_map]
  exact forall₂_congr fun _ _ => hinv.stepStatus_ne_none

include hsucceeds hwhatIf in
theorem takeStep_success (s : State) (step : ProfileStep) :
    takeStep fold world options s step false = (true, runStep fold world options s step) := by
  rw [takeStep, if_neg Bool.false_ne_true, if_neg]
  rw [stopsProfile_eq_false hsucceeds hwhatIf]
  exact Bool.false_ne_true

/-- A ready step of a run without failures is not skipped. -/
theorem AllSucceeded.failed_eq_false (h : AllSucceeded fold s) (hinv : Inv fold steps s)
    (hready : (getDependencyState fold step s.stepStatus).ready = true) :
    (getDependencyState fold step s.stepStatus).failed = false := by
  by_contra hfailed
  exact h.not_failed hinv step (DependencyState.ext hready (by simpa using hfailed))

theorem drop_eraseIdx {index : ℕ} (hindex : index < s.pending.length) :
    (s.pending.eraseIdx index).drop index = s.pending.drop (index + 1) := by
  rw [(pending_split hindex).2]
  exact List.drop_left' (by rw [List.length_take]; omega)

include hsucceeds hwhatIf in
/-- The loop of a pass takes the steps a sweep takes. -/
theorem schedulePassLoop_takes (hvalid : Validated fold steps) (index : ℕ) (progress : Bool)
    (s : State) (hinv : Inv fold steps s) (h : AllSucceeded fold s) :
    Inv fold steps (schedulePassLoop fold world options index progress s).2 ∧
      AllSucceeded fold (schedulePassLoop fold world options index progress s).2 ∧
      doneOf fold (schedulePassLoop fold world options index progress s).2.results =
        doneOf fold s.results ++
          Sweep.takes (doneOf fold s.results) ((s.pending.drop index).map (entryOf fold)) := by
  fun_induction schedulePassLoop fold world options index progress s with
  | case1 index progress s hindex step dependency hready ih =>
    obtain ⟨hinv', h', hdone⟩ := ih hinv h
    refine ⟨hinv', h', ?_⟩
    rw [hdone, List.drop_eq_getElem_cons hindex, List.map_cons, Sweep.takes, if_neg]
    rw [← getDependencyState_ready_iff hinv]
    simpa using hready
  | case2 index progress s hindex step dependency hready s' htake ih =>
    have hready' : dependency.ready = true := by simpa using hready
    have hturn := turn_of_takeStep hindex hready' htake
    rw [h.failed_eq_false hinv hready', takeStep_success hsucceeds hwhatIf, Prod.mk.injEq] at htake
    obtain ⟨-, rfl⟩ := htake
    obtain ⟨hsucceeded, hone⟩ := h.runStep hsucceeds hwhatIf step (s.pending.eraseIdx index)
    obtain ⟨hinv', h', hdone⟩ := ih (hturn.inv hvalid hinv) hsucceeded
    refine ⟨hinv', h', ?_⟩
    rw [hdone, hone, pending_runStep, drop_eraseIdx hindex, List.drop_eq_getElem_cons hindex,
      List.map_cons, Sweep.takes, if_pos ((getDependencyState_ready_iff hinv).mp hready'),
      List.append_assoc]
    rfl
  | case3 index progress s hindex step dependency hready s' htake =>
    -- the loop breaks only for a failure
    rw [h.failed_eq_false hinv (by simpa using hready), takeStep_success hsucceeds hwhatIf] at htake
    cases htake
  | case4 index progress s hindex =>
    rw [List.drop_eq_nil_of_le (not_lt.mp hindex)]
    exact ⟨hinv, h, (List.append_nil _).symm⟩

/-! ## Schedules -/

theorem stepGraph_eq : stepGraph fold steps = steps.map (entryOf fold) := rfl

/-- The waves of an acyclic profile can be computed along some order of all its steps. -/
theorem Acyclic.exists_order (hvalid : Validated fold steps) (hacyclic : Acyclic fold steps) :
    ∃ order, Linear (Kahn.nodes (stepGraph fold steps)) (Kahn.WaitsFor (stepGraph fold steps)) order ∧
      ∀ x ∈ Kahn.keys (stepGraph fold steps), x ∈ order := by
  obtain ⟨order, hlinear, hstuck⟩ := Sweep.exists_linear_stuck
    (Kahn.nodes (stepGraph fold steps)) (Kahn.WaitsFor (stepGraph fold steps))
  refine ⟨order, hlinear, ?_⟩
  intro x hx
  by_contra hnot
  obtain ⟨step, hstep, rfl⟩ := mem_nodes_stepGraph.mp (Kahn.mem_nodes.mpr hx)
  obtain ⟨y, -, hcycle⟩ :=
    (hvalid.blocked_iff hstep).mp ((hlinear.notMem_iff_of_stuck hstuck).mp hnot)
  exact hacyclic y hcycle

/-- After the waves below `k`, the pending steps are those of the other waves. -/
theorem pending_of_done (hinv : Inv fold steps s) {k : ℕ}
    (hdone : doneOf fold s.results = Sweep.waveOrder (stepGraph fold steps) k) :
    s.pending.map (entryOf fold) = (stepGraph fold steps).filter fun entry =>
      k ≤ Sweep.wave (stepGraph fold steps) entry.1 := by
  rw [hinv.pending, hdone]
  conv_rhs => rw [stepGraph_eq, List.filter_map]
  congr 1
  apply List.filter_congr
  intro step hstep
  have hkey : fold step.script ∈ Kahn.keys (stepGraph fold steps) := by
    rw [keys_stepGraph]
    exact List.mem_map_of_mem (f := fun step => fold step.script) hstep
  refine decide_eq_decide.mpr ?_
  rw [Sweep.mem_waveOrder, and_iff_right hkey, not_lt]
  rfl

include hsucceeds hwhatIf in
/-- The schedule, from the waves below `k` on, calls the children wave by wave. -/
theorem calledOf_invokeSchedule (hvalid : Validated fold steps) (hacyclic : Acyclic fold steps)
    (s : State) (hinv : Inv fold steps s) (h : AllSucceeded fold s) (k : ℕ)
    (hdone : doneOf fold s.results = Sweep.waveOrder (stepGraph fold steps) k) :
    ∃ n, calledOf fold (invokeSchedule fold world options s) =
        Sweep.waveOrder (stepGraph fold steps) n ∧
      ∀ x ∈ Kahn.keys (stepGraph fold steps), Sweep.wave (stepGraph fold steps) x < n := by
  obtain ⟨order, hlinear, hall⟩ := hacyclic.exists_order hvalid
  have hnodup : (Kahn.keys (stepGraph fold steps)).Nodup := keys_stepGraph ▸ hvalid.distinct
  fun_induction invokeSchedule fold world options s generalizing k with
  | case1 s hpending pass hgo =>
    -- without progress a pending step would need a cycle
    rcases schedulePassLoop_spec 0 false s with
      ⟨-, hnone⟩ | ⟨_, _, _, _, hloop⟩ | ⟨_, _, _, _, _, _, hloop⟩
    · obtain ⟨step, hstep⟩ := List.exists_mem_of_ne_nil _ hpending
      obtain ⟨y, -, hcycle⟩ :=
        (hinv.mem_pending_iff hvalid hnone (hinv.mem_pending.mp hstep).1).mp hstep
      exact (hacyclic y hcycle).elim
    · rw [show pass = _ from hloop] at hgo
      cases hgo.1
    · rw [show pass = _ from hloop] at hgo
      cases hgo.1
  | case2 s hpending pass hgo ih =>
    obtain ⟨hinv', h', htakes⟩ := schedulePassLoop_takes hsucceeds hwhatIf hvalid 0 false s hinv h
    refine ih hinv' h' (k + 1) ?_
    show doneOf fold (schedulePassLoop fold world options 0 false s).2.results = _
    rw [htakes, List.drop_zero, pending_of_done hinv hdone, hdone,
      Sweep.takes_wave hnodup hlinear hall, Sweep.waveOrder_succ]
  | case3 s hpending =>
    refine ⟨k, h.called.trans hdone, ?_⟩
    intro x hx
    obtain ⟨step, hstep, rfl⟩ := mem_nodes_stepGraph.mp (Kahn.mem_nodes.mpr hx)
    by_contra hwave
    have hmem : step ∈ s.pending := by
      rw [hinv.mem_pending, hdone, Sweep.mem_waveOrder]
      exact ⟨hstep, fun hlt => hwave hlt.2⟩
    rw [not_not.mp hpending] at hmem
    cases hmem

end Success

/-! ## Against the v3 engine -/

/-- The actions of a plan with the dependency graph of the profile, under an id for every name. -/
structure SameGraph (fold : String → String) (steps : List ProfileStep) (ident : String → ActionId)
    (actions : List PlannedActionV3) : Prop where
  injective : Set.InjOn ident {x | x ∈ steps.map fun step => fold step.script}
  graph : (actions.map fun action => (action.id, action.dependsOn)) =
    steps.map fun step => (ident (fold step.script), step.dependencies.map fun d => ident (fold d))

/-- A step declared before another one that is called first, although all it waits for comes before
    that other one. -/
def OvertakenStep (fold : String → String) (steps : List ProfileStep) (step other : ProfileStep) :
    Prop :=
  Sweep.Overtaken (stepGraph fold steps) (fold step.script) (fold other.script)

/-- The order in which a profile calls its children. -/
def scheduleOrder (fold : String → String) (world : World) (options : Options)
    (profileStrict profileRequireSigned : Bool) (expectedHashes : List (String × String))
    (validation : List Value) (steps : List ProfileStep) : List String :=
  calledOf fold (invokeSchedule fold world options
    (State.start profileStrict profileRequireSigned expectedHashes validation steps))

section Engine

open BaselineOps.Engine

variable {ident : String → ActionId} {actions : List PlannedActionV3}
  {profileStrict profileRequireSigned : Bool} {expectedHashes : List (String × String)}
  {validation : List Value}

theorem SameGraph.actionGraph (h : SameGraph fold steps ident actions) :
    Engine.actionGraph actions = Sweep.renamed ident (stepGraph fold steps) := by
  rw [Sweep.renamed, stepGraph, List.map_map]
  refine h.graph.trans ?_
  simp [Function.comp_def]

theorem SameGraph.injOn_keys (h : SameGraph fold steps ident actions) :
    Set.InjOn ident {x | x ∈ Kahn.keys (stepGraph fold steps)} := by
  rw [keys_stepGraph]
  exact h.injective

theorem SameGraph.map_id (h : SameGraph fold steps ident actions) :
    actions.map PlannedActionV3.id = (Kahn.keys (stepGraph fold steps)).map ident := by
  rw [← Sweep.keys_renamed, ← h.actionGraph, keys_itemGraph]

theorem Validated.waitsFor_mem (hvalid : Validated fold steps) (x y : String)
    (h : Kahn.WaitsFor (stepGraph fold steps) x y) : y ∈ Kahn.keys (stepGraph fold steps) := by
  obtain ⟨step, hstep, -, dependency, hdependency, rfl⟩ := waitsFor_iff.mp h
  rw [keys_stepGraph]
  exact hvalid.known step hstep dependency hdependency

theorem SameGraph.knownDependencies (h : SameGraph fold steps ident actions)
    (hvalid : Validated fold steps) : KnownDependencies actions := by
  intro action haction y hy
  have hentry : (action.id, action.dependsOn) ∈ Sweep.renamed ident (stepGraph fold steps) := by
    rw [← h.actionGraph]
    exact List.mem_map_of_mem (f := fun action : PlannedActionV3 => (action.id, action.dependsOn))
      haction
  obtain ⟨entry, hmem, heq⟩ := List.mem_map.mp hentry
  rw [← (Prod.mk.inj heq).2] at hy
  obtain ⟨x, hx, rfl⟩ := List.mem_map.mp hy
  rw [h.map_id]
  exact List.mem_map_of_mem (hvalid.waitsFor_mem entry.1 x ⟨entry, hmem, rfl, hx⟩)

/-- A greedy list of all names is the order of the engine. -/
theorem SameGraph.topologicalOrder_eq (h : SameGraph fold steps ident actions)
    (hvalid : Validated fold steps) (hsteps : steps ≠ []) {order : List String}
    (hgreedy : Greedy (Kahn.nodes (stepGraph fold steps)) (WaitsFor fold steps)
      (Kahn.rank (stepGraph fold steps)) order)
    (hall : ∀ x ∈ Kahn.keys (stepGraph fold steps), x ∈ order) :
    topologicalOrder actions = some (.ok (order.map ident)) := by
  have hnodup : (Kahn.keys (stepGraph fold steps)).Nodup := keys_stepGraph ▸ hvalid.distinct
  have hids : (actions.map PlannedActionV3.id).Nodup := by
    rw [h.map_id, ← Sweep.keys_renamed]
    exact Sweep.nodup_keys_renamed hnodup h.injOn_keys
  have hactions : actions ≠ [] := by
    rintro rfl
    exact hsteps (List.map_eq_nil_iff.mp h.graph.symm)
  obtain ⟨order', c, hinv, hstuck', htop⟩ :=
    Engine.topologicalOrder_eq hactions hids (h.knownDependencies hvalid)
  have hrenamed := Sweep.greedy_renamed hnodup h.injOn_keys hvalid.waitsFor_mem hgreedy
  rw [← h.actionGraph] at hrenamed
  have hstuck : Stuck (Kahn.nodes (Engine.actionGraph actions))
      (Kahn.WaitsFor (Engine.actionGraph actions)) (order.map ident) := by
    intro x' hready
    have hmem := Kahn.mem_nodes.mp hready.mem
    rw [h.actionGraph, Sweep.keys_renamed] at hmem
    obtain ⟨x, hx, rfl⟩ := List.mem_map.mp hmem
    exact hready.fresh (List.mem_map_of_mem (hall x hx))
  rw [htop, hinv.greedy.eq_of_stuck Kahn.rank_injOn hrenamed hstuck' hstuck, if_neg]
  have hperm : order.Perm (Kahn.keys (stepGraph fold steps)) := by
    rw [List.perm_ext_iff_of_nodup hgreedy.linear.nodup hnodup]
    intro x
    exact ⟨fun hx => Kahn.mem_nodes.mp (hgreedy.linear.subset hx), hall x⟩
  rw [not_not, ← List.length_map PlannedActionV3.id, h.map_id, List.length_map, List.length_map,
    hperm.length_eq]

/-- The calls of a schedule follow the greedy declaration order, and with it `topological_order`,
    exactly when there is a step and none is overtaken. -/
theorem schedule_order_iff (hvalid : Validated fold steps) (hacyclic : Acyclic fold steps)
    (hsucceeds : Succeeds fold world) (hwhatIf : options.whatIf = false)
    (hsame : SameGraph fold steps ident actions) :
    (Greedy (Kahn.nodes (stepGraph fold steps)) (WaitsFor fold steps)
        (Kahn.rank (stepGraph fold steps))
        (scheduleOrder fold world options profileStrict profileRequireSigned expectedHashes validation
          steps) ∧
      topologicalOrder actions = some (.ok
        ((scheduleOrder fold world options profileStrict profileRequireSigned expectedHashes
          validation steps).map ident))) ↔
    steps ≠ [] ∧ ∀ step ∈ steps, ∀ other ∈ steps, ¬ OvertakenStep fold steps step other := by
  have hnodup : (Kahn.keys (stepGraph fold steps)).Nodup := keys_stepGraph ▸ hvalid.distinct
  obtain ⟨order, hlinear, hall⟩ := hacyclic.exists_order hvalid
  obtain ⟨n, hcalled, hwave⟩ := calledOf_invokeSchedule hsucceeds hwhatIf hvalid hacyclic
    (State.start profileStrict profileRequireSigned expectedHashes validation steps)
    (inv_start _ _ _ _) ⟨fun result hresult => absurd hresult List.not_mem_nil, rfl⟩ 0 rfl
  have hgreedy_iff := Sweep.greedy_waveOrder_iff hnodup hlinear hall hwave
  rw [keys_stepGraph] at hgreedy_iff
  simp only [List.forall_mem_map] at hgreedy_iff
  rw [scheduleOrder, hcalled]
  constructor
  · rintro ⟨hgreedy, htop⟩
    refine ⟨?_, hgreedy_iff.mp hgreedy⟩
    rintro rfl
    rw [List.map_eq_nil_iff.mp hsame.graph] at htop
    cases htop
  · rintro ⟨hsteps, hnone⟩
    have hgreedy := hgreedy_iff.mpr hnone
    refine ⟨hgreedy, hsame.topologicalOrder_eq hvalid hsteps hgreedy ?_⟩
    intro x hx
    exact Sweep.mem_waveOrder.mpr ⟨hx, hwave x hx⟩

/-- Children that all succeed. -/
def succeedingWorld : World where
  child _ _ := .ok { objects := [⟨some "OK", none, none, []⟩], lastExitCode := some 0 }
  elapsedMs n := n

theorem succeeds_succeedingWorld : Succeeds String.toLower succeedingWorld := by
  intro n parameters elapsedMs
  have htoken : ResultToken.ofText String.toLower "OK" = some .ok := if_pos rfl
  simp [childOutcome, succeedingWorld, getChildOutcome, getChildResultObjects, htoken,
    addExitMismatch, getExpectedExitCode, getActualExitCode, ResultToken.outcome, bind, Except.bind,
    pure, Except.pure]

/-- Ids for the names of the two profiles below. -/
def sampleIdent (name : String) : ActionId :=
  sampleActionId (if name = "10-a.ps1" then 1 else if name = "11-b.ps1" then 2 else 3)

/-- The first step waits for the second one, and the third is ready as well. -/
def overtakenSteps : List ProfileStep :=
  [⟨"10-A.ps1", some ["11-B.ps1"], none⟩, ⟨"11-B.ps1", none, none⟩, ⟨"12-C.ps1", none, none⟩]

/-- The same without the third step. -/
def waitingSteps : List ProfileStep :=
  [⟨"10-A.ps1", some ["11-B.ps1"], none⟩, ⟨"11-B.ps1", none, none⟩]

theorem stepGraph_overtakenSteps : stepGraph String.toLower overtakenSteps =
    [("10-a.ps1", ["11-b.ps1"]), ("11-b.ps1", []), ("12-c.ps1", [])] := by
  decide +kernel

theorem stepGraph_waitingSteps : stepGraph String.toLower waitingSteps =
    [("10-a.ps1", ["11-b.ps1"]), ("11-b.ps1", [])] := by
  decide +kernel

/-- The dependencies of a profile in which only the first step waits, for the second. -/
theorem waitsFor_of_edge (entries : List String)
    (hgraph : stepGraph fold steps = ("10-a.ps1", ["11-b.ps1"]) :: entries.map fun x => (x, []))
    {x y : String} (h : WaitsFor fold steps x y) : x = "10-a.ps1" ∧ y = "11-b.ps1" := by
  obtain ⟨entry, hentry, rfl, hy⟩ := h
  rw [hgraph] at hentry
  rcases List.mem_cons.mp hentry with rfl | hentry
  · exact ⟨rfl, List.mem_singleton.mp hy⟩
  · obtain ⟨z, -, rfl⟩ := List.mem_map.mp hentry
    cases hy

theorem acyclic_of_edge (entries : List String)
    (hgraph : stepGraph fold steps = ("10-a.ps1", ["11-b.ps1"]) :: entries.map fun x => (x, [])) :
    Acyclic fold steps := by
  intro x hcycle
  obtain ⟨y, hy, -⟩ := TransGen.head'_iff.mp hcycle
  obtain ⟨z, -, hz⟩ := TransGen.tail'_iff.mp hcycle
  exact absurd ((waitsFor_of_edge entries hgraph hy).1.symm.trans (waitsFor_of_edge entries hgraph hz).2) (by decide)

/-- Ids are distinct when their list has no duplicates. -/
theorem sameGraph_of_nodup (hids : ((Kahn.keys (stepGraph fold steps)).map ident).Nodup)
    (hgraph : Engine.actionGraph actions = Sweep.renamed ident (stepGraph fold steps)) :
    SameGraph fold steps ident actions where
  injective := by
    rw [← keys_stepGraph]
    exact fun x hx y hy => List.inj_on_of_nodup_map hids hx hy
  graph := by
    refine (show _ = Engine.actionGraph actions from rfl).trans (hgraph.trans ?_)
    simp [Sweep.renamed, stepGraph, Function.comp_def]

theorem schedule_order_iff_sample :
    Greedy (Kahn.nodes (stepGraph String.toLower waitingSteps)) (WaitsFor String.toLower waitingSteps)
        (Kahn.rank (stepGraph String.toLower waitingSteps))
        (scheduleOrder String.toLower succeedingWorld sampleOptions false false [] [] waitingSteps) ∧
      topologicalOrder [sampleAction 1 [2], sampleAction 2 []] = some (.ok
        ((scheduleOrder String.toLower succeedingWorld sampleOptions false false [] []
          waitingSteps).map sampleIdent)) := by
  have hvalid : Validated String.toLower waitingSteps := by
    rw [validated_iff, stepGraph_waitingSteps]
    decide +kernel
  have hsame : SameGraph String.toLower waitingSteps sampleIdent
      [sampleAction 1 [2], sampleAction 2 []] := by
    apply sameGraph_of_nodup
    · rw [stepGraph_waitingSteps]
      decide +kernel
    · rw [stepGraph_waitingSteps]
      decide +kernel
  have hacyclic := acyclic_of_edge ["11-b.ps1"] stepGraph_waitingSteps
  refine (schedule_order_iff hvalid hacyclic succeeds_succeedingWorld rfl hsame).mpr ⟨by decide, ?_⟩
  have hnone : ∀ x ∈ Kahn.keys (stepGraph String.toLower waitingSteps),
      ∀ y ∈ Kahn.keys (stepGraph String.toLower waitingSteps),
        ¬ Sweep.Overtaken (stepGraph String.toLower waitingSteps) x y := by
    rw [stepGraph_waitingSteps]
    decide +kernel
  rw [keys_stepGraph] at hnone
  simp only [List.forall_mem_map] at hnone
  exact hnone

/-- The third step is called before the first one, which is ready and declared before it. -/
theorem schedule_overtakes :
    Validated String.toLower overtakenSteps ∧ Acyclic String.toLower overtakenSteps ∧
    Succeeds String.toLower succeedingWorld ∧
    SameGraph String.toLower overtakenSteps sampleIdent
      [sampleAction 1 [2], sampleAction 2 [], sampleAction 3 []] ∧
    scheduleOrder String.toLower succeedingWorld sampleOptions false false [] [] overtakenSteps =
      ["11-b.ps1", "12-c.ps1", "10-a.ps1"] ∧
    topologicalOrder [sampleAction 1 [2], sampleAction 2 [], sampleAction 3 []] =
      some (.ok (["11-b.ps1", "10-a.ps1", "12-c.ps1"].map sampleIdent)) ∧
    ¬ Greedy (Kahn.nodes (stepGraph String.toLower overtakenSteps))
        (WaitsFor String.toLower overtakenSteps)
        (Kahn.rank (stepGraph String.toLower overtakenSteps))
        (scheduleOrder String.toLower succeedingWorld sampleOptions false false [] []
          overtakenSteps) := by
  have horder : scheduleOrder String.toLower succeedingWorld sampleOptions false false [] []
      overtakenSteps = ["11-b.ps1", "12-c.ps1", "10-a.ps1"] := by
    decide +kernel
  refine ⟨?_, acyclic_of_edge ["11-b.ps1", "12-c.ps1"] stepGraph_overtakenSteps,
    succeeds_succeedingWorld, ?_, horder, ?_, ?_⟩
  · rw [validated_iff, stepGraph_overtakenSteps]
    decide +kernel
  · apply sameGraph_of_nodup
    · rw [stepGraph_overtakenSteps]
      decide +kernel
    · rw [stepGraph_overtakenSteps]
      decide +kernel
  · rfl
  · rw [horder]
    intro hgreedy
    have hready : Ready (Kahn.nodes (stepGraph String.toLower overtakenSteps))
        (WaitsFor String.toLower overtakenSteps) ["11-b.ps1"] "10-a.ps1" := by
      refine ⟨?_, by decide, ?_⟩
      · rw [stepGraph_overtakenSteps]
        decide +kernel
      · intro y hy
        rw [(waitsFor_of_edge ["11-b.ps1", "12-c.ps1"] stepGraph_overtakenSteps hy).2]
        exact List.mem_cons_self
    have hle := (hgreedy ["11-b.ps1"] "12-c.ps1" ["10-a.ps1"] rfl).least _ hready
    rw [stepGraph_overtakenSteps] at hle
    exact absurd hle (by decide +kernel)

end Engine

end BaselineOps.RunProfile
