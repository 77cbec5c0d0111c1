import Mathlib
import BaselineOps.Journal.Record

/-!
# The journal lifecycle and its language

Model of `baselineops-engine/src/journal/lifecycle.rs`.

* `replay_iff_trace`: replaying `validate` and `accept` from the default state succeeds on the
  event lists of the grammar `Trace` and on no others, and ends in the state the grammar names.
* `replay_stopped`: `stopped` never goes back to false, although `accept` assigns it on every
  finish.
-/

namespace BaselineOps.Engine

open BaselineOps.Domain

/-! ## The state machine -/

/-- `Lifecycle` (lines 6–12). -/
@[ext]
structure Lifecycle where
  approved : Bool := false
  finished : Bool := false
  stopped : Bool := false
  active : Option String := none
  completed : Finset String := ∅
  deriving DecidableEq

namespace Lifecycle

/-- `validate_approval` (lines 50–55). -/
def validateApproval (s : Lifecycle) : Except JournalError Unit :=
  if s.approved then .error (.invalidLifecycle "approval must occur exactly once") else .ok ()

/-- `validate_start` (lines 57–67). -/
def validateStart (s : Lifecycle) (actionId : String) : Except JournalError Unit :=
  if !s.approved || s.active.isSome || s.stopped then
    .error (.invalidLifecycle "action start requires approval, no active action, and no failure")
  else if actionId.isEmpty || actionId ∈ s.completed then
    .error (.invalidLifecycle "action identity is empty or already completed")
  else .ok ()

/-- `validate_finish` (lines 69–76). -/
def validateFinish (s : Lifecycle) (actionId : String) : Except JournalError Unit :=
  if s.active ≠ some actionId then
    .error (.invalidLifecycle "action completion does not match the active action")
  else .ok ()

/-- `validate_run_finish` (lines 78–85). -/
def validateRunFinish (s : Lifecycle) : Except JournalError Unit :=
  if !s.approved || s.active.isSome then
    .error (.invalidLifecycle "run completion requires approval and no active action")
  else .ok ()

/-- `validate` (lines 38–48). -/
def validate (s : Lifecycle) (event : JournalEvent) : Except JournalError Unit :=
  if s.finished then .error (.invalidLifecycle "events cannot follow run completion")
  else match event with
    | .planApproved .. => s.validateApproval
    | .actionStarted actionId _ => s.validateStart actionId
    | .actionFinished actionId _ _ => s.validateFinish actionId
    | .runFinished .. => s.validateRunFinish

/-- `accept` (lines 87–102). -/
def accept (s : Lifecycle) : JournalEvent → Lifecycle
  | .planApproved .. => { s with approved := true }
  | .actionStarted actionId _ => { s with active := some actionId }
  | .actionFinished actionId status _ =>
    { s with
      stopped := status != .succeeded
      completed := insert actionId s.completed
      active := none }
  | .runFinished .. => { s with finished := true }

/-- One turn of the loop in `from_snapshot` (lines 17–20). -/
def step (s : Lifecycle) (event : JournalEvent) : Except JournalError Lifecycle := do
  s.validate event
  return s.accept event

/-- The loop of `from_snapshot`, over the events. -/
def replay (s : Lifecycle) (events : List JournalEvent) : Except JournalError Lifecycle :=
  events.foldlM step s

/-- `from_snapshot` (lines 15–22). -/
def fromSnapshot (snapshot : JournalSnapshot) : Except JournalError Lifecycle :=
  replay {} (snapshot.records.map JournalRecord.payload)

/-- `require_resumable` (lines 24–29). -/
def requireResumable (s : Lifecycle) : Except JournalError Unit :=
  match s.active with
  | some action => .error (.actionRecoveryRequired action)
  | none => .ok ()

/-- `validate_recovery` (lines 31–36). -/
def validateRecovery (s : Lifecycle) (trailingBytes : ℕ) : Except JournalError Unit :=
  if s.finished && trailingBytes ≠ 0 then
    .error (.invalidLifecycle "bytes cannot follow run completion")
  else s.requireResumable

/-! ## Inversion -/

/-- What `validate` asks of an event. -/
def Admits (s : Lifecycle) : JournalEvent → Prop
  | .planApproved .. => s.finished = false ∧ s.approved = false
  | .actionStarted actionId _ =>
    s.finished = false ∧ s.approved = true ∧ s.active = none ∧ s.stopped = false ∧
      actionId ≠ "" ∧ actionId ∉ s.completed
  | .actionFinished actionId _ _ => s.finished = false ∧ s.active = some actionId
  | .runFinished .. => s.finished = false ∧ s.approved = true ∧ s.active = none

theorem validate_ok_iff {s : Lifecycle} {event : JournalEvent} :
    s.validate event = .ok () ↔ s.Admits event := by
  unfold validate Admits
  cases event with
  | planApproved planId planDigest =>
    cases hf : s.finished <;> cases ha : s.approved <;> simp [validateApproval, ha]
  | actionStarted actionId preStateDigest =>
    cases hf : s.finished <;> cases ha : s.approved <;> cases hs : s.stopped <;>
      cases hc : s.active <;> simp [validateStart, ha, hs, hc]
  | actionFinished actionId status receiptDigest =>
    cases hf : s.finished <;> simp [validateFinish]
  | runFinished resultId resultDigest =>
    cases hf : s.finished <;> cases ha : s.approved <;> cases hc : s.active <;>
      simp [validateRunFinish, ha, hc]

/-- A rejected event is rejected with `InvalidLifecycle`. -/
theorem validate_error {s : Lifecycle} {event : JournalEvent} {e : JournalError}
    (h : s.validate event = .error e) : ∃ reason, e = .invalidLifecycle reason := by
  unfold validate validateApproval validateStart validateFinish validateRunFinish at h
  repeat' split at h
  all_goals first | exact ⟨_, (Except.error.inj h).symm⟩ | cases h

theorem step_ok_iff {s s' : Lifecycle} {event : JournalEvent} :
    s.step event = .ok s' ↔ s.Admits event ∧ s' = s.accept event := by
  rw [← validate_ok_iff, step]
  cases h : s.validate event with
  | error e => simp [bind, Except.bind]
  | ok u => simp [bind, Except.bind, pure, Except.pure, eq_comm]

theorem replay_cons (s : Lifecycle) (event : JournalEvent) (events : List JournalEvent) :
    s.replay (event :: events) = (s.step event).bind (·.replay events) := by
  rw [replay, List.foldlM_cons]
  rfl

theorem replay_append (s : Lifecycle) (xs ys : List JournalEvent) :
    s.replay (xs ++ ys) = (s.replay xs).bind (·.replay ys) := by
  rw [replay, List.foldlM_append]
  rfl

theorem replay_concat_ok_iff {s s' : Lifecycle} {events : List JournalEvent}
    {event : JournalEvent} :
    s.replay (events ++ [event]) = .ok s' ↔
      ∃ m, s.replay events = .ok m ∧ m.Admits event ∧ s' = m.accept event := by
  rw [replay_append]
  cases h : s.replay events with
  | error e => simp [Except.bind]
  | ok m =>
    have hone : m.replay [event] = m.step event := by
      rw [replay_cons]
      cases m.step event <;> rfl
    simp [Except.bind, hone, step_ok_iff]

end Lifecycle

/-! ## The grammar -/

/-- One completed action: its start and the finish that matches it. -/
structure ActionPair where
  actionId : String
  preStateDigest : Sha256Digest
  status : ActionStatus
  receiptDigest : Sha256Digest
  deriving DecidableEq

/-- The two events of a completed action. -/
def ActionPair.events (p : ActionPair) : List JournalEvent :=
  [.actionStarted p.actionId p.preStateDigest,
   .actionFinished p.actionId p.status p.receiptDigest]

/-- An approval followed by completed actions. -/
def approvedEvents (planId : PlanId) (planDigest : Sha256Digest) (pairs : List ActionPair) :
    List JournalEvent :=
  .planApproved planId planDigest :: pairs.flatMap ActionPair.events

/-- Every action succeeded. -/
def AllSucceeded (pairs : List ActionPair) : Prop := ∀ p ∈ pairs, p.status = .succeeded

/-- The ids are non-empty and pairwise distinct, and only the last action may have failed. -/
structure WellFormedPairs (pairs : List ActionPair) : Prop where
  ids_ne_empty : ∀ p ∈ pairs, p.actionId ≠ ""
  ids_nodup : (pairs.map ActionPair.actionId).Nodup
  succeeded : AllSucceeded pairs.dropLast

/-- The event lists of the accepted form: nothing at all, or an approval and completed actions,
    with at most one unmatched start or one final completion behind them. -/
def Language (events : List JournalEvent) : Prop :=
  events = [] ∨ ∃ planId planDigest pairs tail,
    events = approvedEvents planId planDigest pairs ++ tail ∧ WellFormedPairs pairs ∧
    (tail = [] ∨
      (∃ actionId preStateDigest, tail = [.actionStarted actionId preStateDigest] ∧
        actionId ≠ "" ∧ actionId ∉ pairs.map ActionPair.actionId ∧ AllSucceeded pairs) ∨
      ∃ resultId resultDigest, tail = [.runFinished resultId resultDigest])

/-- The state between two actions. -/
def idleState (pairs : List ActionPair) : Lifecycle where
  approved := true
  stopped := (pairs.getLast?).any fun p => p.status != .succeeded
  completed := (pairs.map ActionPair.actionId).toFinset

/-- The grammar with the state that each of its event lists leads to. -/
inductive Trace : List JournalEvent → Lifecycle → Prop where
  | empty : Trace [] {}
  | idle {planId planDigest pairs} (h : WellFormedPairs pairs) :
      Trace (approvedEvents planId planDigest pairs) (idleState pairs)
  | active {planId planDigest pairs actionId preStateDigest} (h : WellFormedPairs pairs)
      (hne : actionId ≠ "") (hfresh : actionId ∉ pairs.map ActionPair.actionId)
      (hall : AllSucceeded pairs) :
      Trace (approvedEvents planId planDigest pairs ++ [.actionStarted actionId preStateDigest])
        { idleState pairs with active := some actionId }
  | finished {planId planDigest pairs resultId resultDigest} (h : WellFormedPairs pairs) :
      Trace (approvedEvents planId planDigest pairs ++ [.runFinished resultId resultDigest])
        { idleState pairs with finished := true }

theorem language_iff_trace {events : List JournalEvent} :
    Language events ↔ ∃ s, Trace events s := by
  constructor
  · rintro (rfl | ⟨planId, planDigest, pairs, tail, rfl, hwf, htail⟩)
    · exact ⟨_, .empty⟩
    · rcases htail with rfl | ⟨actionId, pre, rfl, hne, hfresh, hall⟩ | ⟨resultId, dig, rfl⟩
      · rw [List.append_nil]
        exact ⟨_, .idle hwf⟩
      · exact ⟨_, .active hwf hne hfresh hall⟩
      · exact ⟨_, .finished hwf⟩
  · rintro ⟨s, h⟩
    cases h with
    | empty => exact .inl rfl
    | idle h => exact .inr ⟨_, _, _, [], (List.append_nil _).symm, h, .inl rfl⟩
    | active h hne hfresh hall =>
      exact .inr ⟨_, _, _, _, rfl, h, .inr (.inl ⟨_, _, rfl, hne, hfresh, hall⟩)⟩
    | finished h => exact .inr ⟨_, _, _, _, rfl, h, .inr (.inr ⟨_, _, rfl⟩)⟩

/-! ## Completed actions, one at a time -/

theorem wellFormedPairs_nil : WellFormedPairs [] :=
  ⟨by simp, by simp, by simp [AllSucceeded]⟩

theorem wellFormedPairs_concat {pairs : List ActionPair} {p : ActionPair} :
    WellFormedPairs (pairs ++ [p]) ↔
      WellFormedPairs pairs ∧ AllSucceeded pairs ∧ p.actionId ≠ "" ∧
        p.actionId ∉ pairs.map ActionPair.actionId := by
  constructor
  · rintro ⟨hne, hnodup, hsucc⟩
    rw [List.dropLast_concat] at hsucc
    rw [List.map_append, List.map_cons, List.map_nil, List.nodup_append] at hnodup
    refine ⟨⟨fun q hq => hne q (by simp [hq]), hnodup.1,
      fun q hq => hsucc q (List.mem_of_mem_dropLast hq)⟩, hsucc, hne p (by simp), ?_⟩
    intro hmem
    exact hnodup.2.2 _ hmem _ (by simp) rfl
  · rintro ⟨⟨hne, hnodup, -⟩, hall, hp, hfresh⟩
    refine ⟨?_, ?_, by rwa [List.dropLast_concat]⟩
    · intro q hq
      rcases List.mem_append.mp hq with hq | hq
      · exact hne q hq
      · rw [List.mem_singleton.mp hq]
        exact hp
    · rw [List.map_append, List.map_cons, List.map_nil, List.nodup_append]
      refine ⟨hnodup, by simp, ?_⟩
      intro a ha b hb hab
      rw [List.mem_singleton.mp hb] at hab
      exact hfresh (hab ▸ ha)

/-- Between two actions the machine is stopped when the last one failed; with only the last one
    allowed to fail, that is the case when any of them did. -/
theorem idleState_stopped_iff {pairs : List ActionPair} (h : WellFormedPairs pairs) :
    (idleState pairs).stopped = false ↔ AllSucceeded pairs := by
  induction pairs using List.reverseRecOn with
  | nil => simp [idleState, AllSucceeded]
  | append_singleton pairs p _ =>
    have hall := (wellFormedPairs_concat.mp h).2.1
    simp only [idleState, List.getLast?_append, List.getLast?_singleton, Option.some_or,
      Option.any_some, bne_eq_false_iff_eq]
    constructor
    · intro hp q hq
      rcases List.mem_append.mp hq with hq | hq
      · exact hall q hq
      · rw [List.mem_singleton.mp hq]
        exact hp
    · intro hq
      exact hq p (by simp)

theorem approvedEvents_concat (planId : PlanId) (planDigest : Sha256Digest)
    (pairs : List ActionPair) (p : ActionPair) :
    approvedEvents planId planDigest (pairs ++ [p]) =
      approvedEvents planId planDigest pairs ++
        [.actionStarted p.actionId p.preStateDigest] ++
        [.actionFinished p.actionId p.status p.receiptDigest] := by
  simp [approvedEvents, ActionPair.events, List.flatMap_append]

/-- The finish of the active action leads to the state with one more completed action. -/
theorem accept_finish (pairs : List ActionPair) (p : ActionPair) :
    ({ idleState pairs with active := some p.actionId } : Lifecycle).accept
        (.actionFinished p.actionId p.status p.receiptDigest) = idleState (pairs ++ [p]) := by
  ext <;> simp [Lifecycle.accept, idleState]

/-! ## Replay follows the grammar -/

/-- One more event takes a list of the grammar to a list of the grammar. -/
theorem Trace.step {events : List JournalEvent} {s : Lifecycle} {event : JournalEvent}
    (h : Trace events s) (hadm : s.Admits event) :
    Trace (events ++ [event]) (s.accept event) := by
  cases h with
  | empty =>
    cases event <;> simp [Lifecycle.Admits] at hadm
    exact .idle wellFormedPairs_nil
  | idle hwf =>
    cases event <;> simp only [Lifecycle.Admits, idleState] at hadm
    case planApproved => simp at hadm
    case actionStarted actionId pre =>
      obtain ⟨-, -, -, hstop, hne, hfresh⟩ := hadm
      refine .active hwf hne ?_ ((idleState_stopped_iff hwf).mp hstop)
      rwa [List.mem_toFinset] at hfresh
    case actionFinished => simp at hadm
    case runFinished => exact .finished hwf
  | @active planId planDigest pairs actionId pre hwf hne hfresh hall =>
    -- Only the finish of the active action is admitted here.
    cases event <;> simp [Lifecycle.Admits, idleState] at hadm
    case actionFinished actionId' status receiptDigest =>
      subst hadm
      have hp := accept_finish pairs ⟨actionId, pre, status, receiptDigest⟩
      simp only at hp
      rw [hp, ← approvedEvents_concat planId planDigest pairs
        ⟨actionId, pre, status, receiptDigest⟩]
      exact .idle (wellFormedPairs_concat.mpr ⟨hwf, hall, hne, hfresh⟩)
  | finished hwf => cases event <;> simp [Lifecycle.Admits, idleState] at hadm

theorem trace_of_replay {events : List JournalEvent} {s : Lifecycle}
    (h : Lifecycle.replay {} events = .ok s) : Trace events s := by
  induction events using List.reverseRecOn generalizing s with
  | nil =>
    cases h
    exact .empty
  | append_singleton events event ih =>
    obtain ⟨m, hm, hadm, rfl⟩ := Lifecycle.replay_concat_ok_iff.mp h
    exact (ih hm).step hadm

theorem replay_approvedEvents {planId : PlanId} {planDigest : Sha256Digest}
    {pairs : List ActionPair} (h : WellFormedPairs pairs) :
    Lifecycle.replay {} (approvedEvents planId planDigest pairs) = .ok (idleState pairs) := by
  induction pairs using List.reverseRecOn with
  | nil => rfl
  | append_singleton pairs p ih =>
    obtain ⟨hwf, hall, hne, hfresh⟩ := wellFormedPairs_concat.mp h
    rw [approvedEvents_concat]
    refine Lifecycle.replay_concat_ok_iff.mpr
      ⟨{ idleState pairs with active := some p.actionId }, ?_, ⟨rfl, rfl⟩, (accept_finish pairs p).symm⟩
    refine Lifecycle.replay_concat_ok_iff.mpr ⟨idleState pairs, ih hwf, ?_, rfl⟩
    refine ⟨rfl, rfl, rfl, (idleState_stopped_iff hwf).mpr hall, hne, ?_⟩
    simpa [idleState] using hfresh

/-- Completed actions behind an approval are accepted only when they are well-formed. -/
theorem wellFormedPairs_of_replay {planId : PlanId} {planDigest : Sha256Digest}
    {pairs : List ActionPair} {s : Lifecycle}
    (h : Lifecycle.replay {} (approvedEvents planId planDigest pairs) = .ok s) :
    WellFormedPairs pairs := by
  induction pairs using List.reverseRecOn generalizing s with
  | nil => exact wellFormedPairs_nil
  | append_singleton pairs p ih =>
    rw [approvedEvents_concat] at h
    obtain ⟨m, hstart, -, -⟩ := Lifecycle.replay_concat_ok_iff.mp h
    obtain ⟨idle, hidle, hadm, -⟩ := Lifecycle.replay_concat_ok_iff.mp hstart
    have hwf := ih hidle
    obtain rfl := Except.ok.inj ((replay_approvedEvents hwf).symm.trans hidle)
    obtain ⟨-, -, -, hstop, hne, hfresh⟩ := hadm
    refine wellFormedPairs_concat.mpr ⟨hwf, (idleState_stopped_iff hwf).mp hstop, hne, ?_⟩
    simpa [idleState] using hfresh

theorem Trace.replay {events : List JournalEvent} {s : Lifecycle} (h : Trace events s) :
    Lifecycle.replay {} events = .ok s := by
  cases h with
  | empty => rfl
  | idle hwf => exact replay_approvedEvents hwf
  | active hwf hne hfresh hall =>
    refine Lifecycle.replay_concat_ok_iff.mpr ⟨_, replay_approvedEvents hwf, ?_, rfl⟩
    refine ⟨rfl, rfl, rfl, (idleState_stopped_iff hwf).mpr hall, hne, ?_⟩
    simpa [idleState] using hfresh
  | finished hwf =>
    exact Lifecycle.replay_concat_ok_iff.mpr
      ⟨_, replay_approvedEvents hwf, ⟨rfl, rfl, rfl⟩, rfl⟩

/-- Replay from the default state accepts the grammar, and ends in the state it names. -/
theorem replay_iff_trace {events : List JournalEvent} {s : Lifecycle} :
    Lifecycle.replay {} events = .ok s ↔ Trace events s :=
  ⟨trace_of_replay, Trace.replay⟩

theorem replay_ok_iff_language {events : List JournalEvent} :
    (∃ s, Lifecycle.replay {} events = .ok s) ↔ Language events := by
  rw [language_iff_trace]
  exact exists_congr fun _ => replay_iff_trace

/-! ## `stopped` stays set -/

/-- No action is active once the run is stopped. -/
theorem Trace.active_eq_none {events : List JournalEvent} {s : Lifecycle} (h : Trace events s)
    (hs : s.stopped = true) : s.active = none := by
  cases h with
  | empty => rfl
  | idle hwf => rfl
  | active hwf hne hfresh hall =>
    have hf := (idleState_stopped_iff hwf).mpr hall
    simp only at hs
    rw [hf] at hs
    cases hs
  | finished hwf => rfl

/-- From a state that is reached by a replay, no further replay clears `stopped`: the only event
    that assigns it is a finish, and a stopped run has no active action to finish. -/
theorem replay_stopped {events more : List JournalEvent} {s s' : Lifecycle}
    (h : Lifecycle.replay {} events = .ok s) (hs : s.stopped = true)
    (hmore : s.replay more = .ok s') : s'.stopped = true := by
  induction more using List.reverseRecOn generalizing s' with
  | nil =>
    cases hmore
    exact hs
  | append_singleton more event ih =>
    obtain ⟨m, hm, hadm, rfl⟩ := Lifecycle.replay_concat_ok_iff.mp hmore
    have hstop := ih hm
    have hreach : Lifecycle.replay {} (events ++ more) = .ok m := by
      rw [Lifecycle.replay_append, h]
      exact hm
    have hactive := (trace_of_replay hreach).active_eq_none hstop
    cases event with
    | planApproved | actionStarted | runFinished => exact hstop
    | actionFinished actionId status receiptDigest =>
      rw [hadm.2] at hactive
      cases hactive

end BaselineOps.Engine
