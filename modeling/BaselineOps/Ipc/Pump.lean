import Mathlib
import BaselineOps.Domain.Validate
import BaselineOps.Ipc.Session
import BaselineOps.Lib.Steps

/-!
# The worker's pump

Model of `control::run` (`baselineops-worker/src/control.rs`) beside the executor's thread that
`execute_session` starts (`broker/session.rs`). The two share a progress channel of four entries and a
result channel. Every operation on something shared, and every call of the transport, is one step;
what the clock and the transport answer in it is arbitrary (`Answer`), and steps of the executor can
come between any two steps of the pump.

* `PumpInv.step`: one step of either keeps the invariant.
* `pump_forwards_progress`: what holds when `run` has returned.
-/

namespace BaselineOps.Windows

open BaselineOps.Domain BaselineOps.Lib

/-! ## Channels -/

/-- `NativeActionPhase` (`native_execution.rs`). -/
inductive NativeActionPhase where
  | started | finished
  deriving DecidableEq

/-- `NativeActionProgress` (`native_execution.rs`, lines 22–27). -/
structure NativeActionProgress where
  actionId : ActionId
  phase : NativeActionPhase
  deriving DecidableEq

/-- The progress that `forward_progress` reports for an item (`control.rs`, lines 126–131). -/
def NativeActionProgress.toProgress (item : NativeActionProgress) : WorkerProgress where
  phase := match item.phase with
    | .started => .actionStarted
    | .finished => .actionFinished
  actionId := some item.actionId

/-- The errors of both ends of a session (`anyhow::Error`). -/
inductive ExchangeError where
  | platform (error : PlatformError)
  | json (message : String)
  | domain (error : DomainError)
  | bail (message : String)
  | elevationCancelled
  | transport

/-- What the executor's thread sends when it is done. -/
abbrev ExecutorResult := Except ExchangeError WorkerResultV3

/-- The result channel: nothing yet, a result that waits, an empty channel behind the result, or a
    sender that is gone without one. -/
inductive ResultSlot where
  | pending
  | ready (result : ExecutorResult)
  | taken
  | disconnected

/-- The executor's thread has not ended. -/
def ResultSlot.isPending : ResultSlot → Bool
  | .pending => true
  | .ready _ | .taken | .disconnected => false

theorem ResultSlot.isPending_iff {slot : ResultSlot} : slot.isPending = true ↔ slot = .pending := by
  cases slot <;> simp [isPending]

/-- `mpsc::sync_channel(4)` (`session.rs`, line 22). -/
def progressCapacity : ℕ := 4

/-! ## The pump -/

/-- Where `pump` is (lines 62–78). -/
inductive PumpPlace where
  /-- In `report`, and what comes behind it. -/
  | report (progress : WorkerProgress) (next : PumpPlace)
  /-- At the head of the loop. -/
  | turn
  /-- In `forward_progress`, with the number of items it may still take. -/
  | forward (left : ℕ)
  /-- At `results.try_recv()`. -/
  | poll
  /-- In the `forward_progress` of `take_finished`. -/
  | drain (left : ℕ) (result : ExecutorResult)
  /-- In `receive_cancellation`. -/
  | listen

/-- Where `run` stands: before its first call, in the loop, or behind its return. -/
inductive PumpPhase where
  | start
  | running (control : ApprovalControl) (place : PumpPlace)
  | returned (result : ExecutorResult)

/-- The pump with its token and the two channels. -/
structure PumpState where
  phase : PumpPhase
  token : Bool
  queue : List NativeActionProgress
  slot : ResultSlot

/-- What the outside answers in one step: the readings of the clock, the nonce of a new message, and
    what `send` and `receive` return. -/
structure Answer where
  clock : ℕ → ℕ
  nonce : String
  send : Except ExchangeError Unit
  receive : Except ExchangeError (Option BrokerMessage)

/-- What a step did on the transport. -/
inductive PumpEvent where
  | quiet
  | sent (message : BrokerMessage)
  /-- A message was received and refused. -/
  | refused
  /-- A cancellation was received and accepted. -/
  | accepted (message : BrokerMessage)

/-- `require_time` (lines 152–158). -/
def requireTime (deadline now : ℕ) : Except ExchangeError Unit :=
  failIf (deadline - now = 0) (.bail "worker control session exceeded its deadline")

/-- `cancellation.cancel()` behind an error (lines 43–45). -/
def PumpState.fail (s : PumpState) (e : ExchangeError) : PumpState :=
  { s with phase := .returned (.error e), token := true }

/-- The loop goes on at `place`. -/
def PumpState.goto (s : PumpState) (control : ApprovalControl) (place : PumpPlace) : PumpState :=
  { s with phase := .running control place }

/-- The message that `report` sends (lines 137–150). -/
def reportMessage (deadline : ℕ) (control : ApprovalControl) (progress : WorkerProgress)
    (answer : Answer) : Except ExchangeError BrokerMessage := do
  let message ← (control.progress progress answer.nonce).mapError ExchangeError.platform
  requireTime deadline (answer.clock 0)
  answer.send
  return message

/-- The message that `receive_cancellation` gets (lines 101–105). -/
def cancellationMessage (deadline : ℕ) (answer : Answer) : Except ExchangeError (Option BrokerMessage) := do
  requireTime deadline (answer.clock 0)
  answer.receive

/-- A received message (lines 106–115). -/
def PumpState.receive (deadline : ℕ) (s : PumpState) (control : ApprovalControl)
    (message : BrokerMessage) (answer : Answer) : PumpState × PumpEvent :=
  match requireTime deadline (answer.clock 1) with
  | .error e => (s.fail e, .refused)
  | .ok () =>
    match control.acceptCancellation message (answer.clock 2) with
    | (.error e, _) => (s.fail (.platform e), .refused)
    | (.ok (), control) =>
      ({ s.goto control (.report ⟨.cancellationPending, none⟩ .turn) with token := true },
        .accepted message)

/-- One step of `pump` at a place. -/
def PumpState.runStep (deadline : ℕ) (s : PumpState) (control : ApprovalControl) (place : PumpPlace)
    (answer : Answer) : PumpState × PumpEvent :=
  match place with
  | .report progress next =>
    match reportMessage deadline control progress answer with
    | .error e => (s.fail e, .quiet)
    | .ok message => (s.goto control next, .sent message)
  | .turn =>
    match requireTime deadline (answer.clock 0) with
    | .error e => (s.fail e, .quiet)
    | .ok () => (s.goto control (.forward 4), .quiet)
  | .forward left =>
    match left, s.queue with
    | left + 1, item :: queue =>
      ({ s.goto control (.report item.toProgress (.forward left)) with queue := queue }, .quiet)
    | _, _ => (s.goto control .poll, .quiet)
  | .poll =>
    match s.slot with
    | .pending => (s.goto control .listen, .quiet)
    | .ready result => ({ s.goto control (.drain 4 result) with slot := .taken }, .quiet)
    | .taken | .disconnected => (s.fail (.bail "sealed executor closed without a result"), .quiet)
  | .drain left result =>
    match left, s.queue with
    | left + 1, item :: queue =>
      ({ s.goto control (.report item.toProgress (.drain left result)) with queue := queue }, .quiet)
    | _, _ =>
      match requireTime deadline (answer.clock 0) with
      | .error e => (s.fail e, .quiet)
      | .ok () =>
        match result with
        | .error e => (s.fail e, .quiet)
        | .ok result => ({ s with phase := .returned (.ok result) }, .quiet)
  | .listen =>
    match cancellationMessage deadline answer with
    | .error e => (s.fail e, .quiet)
    | .ok none => (s.goto control .turn, .quiet)
    | .ok (some message) => s.receive deadline control message answer

/-- One step of `run` (lines 16–47); none when it has returned. -/
def PumpState.step (approval : BrokerMessage) (deadline : ℕ) (s : PumpState) (answer : Answer) :
    Option (PumpState × PumpEvent) :=
  match s.phase with
  | .start =>
    match ApprovalControl.new approval (answer.clock 0) with
    | .error e => some (s.fail (.platform e), .quiet)
    | .ok control => some (s.goto control (.report ⟨.preparing, none⟩ .turn), .quiet)
  | .running control place => some (s.runStep deadline control place answer)
  | .returned _ => none

/-! ## The pump and the executor -/

/-- The state of both, and what happened so far: the messages that were sent and accepted on the
    transport, the items that entered the progress channel, and what the executor returned. -/
structure PumpSystem where
  pump : PumpState
  sent : List BrokerMessage
  accepted : List BrokerMessage
  enqueued : List NativeActionProgress
  outcome : Option ExecutorResult

/-- `execute_session` before either of the two has run. -/
def PumpSystem.initial : PumpSystem where
  pump := ⟨.start, false, [], .pending⟩
  sent := []
  accepted := []
  enqueued := []
  outcome := none

/-- A step of the pump or of the executor's thread. -/
inductive PumpLabel where
  | pump (answer : Answer)
  /-- The executor's `try_send`; a full channel drops the item. -/
  | trySend (item : NativeActionProgress)
  /-- The executor's thread sends its result and ends. -/
  | finish (result : ExecutorResult)
  /-- The executor's thread ends without a result. -/
  | vanish

/-- The history behind an event of the pump. -/
def PumpSystem.record (s : PumpSystem) (pump : PumpState) : PumpEvent → PumpSystem
  | .quiet | .refused => { s with pump := pump }
  | .sent message => { s with pump := pump, sent := s.sent ++ [message] }
  | .accepted message => { s with pump := pump, accepted := s.accepted ++ [message] }

/-- The executor's `try_send`. -/
def PumpSystem.trySend (s : PumpSystem) (item : NativeActionProgress) : PumpSystem :=
  if s.pump.queue.length < progressCapacity then
    { s with
      pump := { s.pump with queue := s.pump.queue ++ [item] }
      enqueued := s.enqueued ++ [item] }
  else s

/-- The state behind a step; the executor takes steps until its thread has ended. -/
def PumpSystem.next (approval : BrokerMessage) (deadline : ℕ) (s : PumpSystem) :
    PumpLabel → Option PumpSystem
  | .pump answer => (s.pump.step approval deadline answer).map fun next => s.record next.1 next.2
  | .trySend item => if s.pump.slot.isPending then some (s.trySend item) else none
  | .finish result =>
    if s.pump.slot.isPending then
      some { s with pump := { s.pump with slot := .ready result }, outcome := some result }
    else none
  | .vanish =>
    if s.pump.slot.isPending then some { s with pump := { s.pump with slot := .disconnected } }
    else none

/-- The steps of the pump and the executor. -/
def PumpSystem.Step (approval : BrokerMessage) (deadline : ℕ) (s : PumpSystem) (label : PumpLabel)
    (s' : PumpSystem) : Prop :=
  s.next approval deadline label = some s'

/-! ## The invariant -/

/-- The binding of every message that follows an approval. -/
def BrokerMessage.boundReply (approval : BrokerMessage) : BrokerBinding :=
  { approval.binding with replyTo := some approval.nonce }

/-- The message of a progress, with its nonce. -/
def progressMessage (approval : BrokerMessage) (report : WorkerProgress × String) : BrokerMessage :=
  ⟨protocolVersion, approval.boundReply, report.2, "plan.progress", report.1.toValue⟩

/-- A valid `plan.cancel` that is bound to the approval. -/
structure IsCancellation (approval message : BrokerMessage) : Prop where
  valid : message.validate = .ok ()
  kind : message.kind = "plan.cancel"
  payload : message.payload = .object []
  binding : message.binding = approval.boundReply

/-- The first progress message of `run`. -/
def WorkerProgress.preparing : WorkerProgress := ⟨.preparing, none⟩

/-- The progress message that answers a cancellation. -/
def WorkerProgress.cancellationPending : WorkerProgress := ⟨.cancellationPending, none⟩

/-- What the pump has taken and not yet sent. -/
def PumpPlace.unsent : PumpPlace → List WorkerProgress
  | .report progress next => progress :: next.unsent
  | .turn | .forward _ | .poll | .drain _ _ | .listen => []

/-- The result that the pump has taken, and how many items it may still forward. -/
def PumpPlace.finished : PumpPlace → Option (ℕ × ExecutorResult)
  | .report _ next => next.finished
  | .drain left result => some (left, result)
  | .turn | .forward _ | .poll | .listen => none

/-- The reports of a list of messages are `preparing` and then the reports of the items, with a
    `cancellationPending` for each accepted cancellation. -/
structure Forwards (reports : List WorkerProgress) (items : List NativeActionProgress)
    (cancellations : ℕ) : Prop where
  first : reports.head? = some .preparing
  items : reports.tail.filter (· ≠ .cancellationPending) = items.map NativeActionProgress.toProgress
  cancellations : reports.tail.count .cancellationPending = cancellations

/-- The messages that were sent, followed by the reports in `unsent`, forward all items but those
    that wait in the channel. -/
def PumpSystem.Announced (approval : BrokerMessage) (s : PumpSystem) (unsent : List WorkerProgress) :
    Prop :=
  ∃ (reports : List (WorkerProgress × String)) (items : List NativeActionProgress),
    s.sent = reports.map (progressMessage approval) ∧
    Forwards (reports.map Prod.fst ++ unsent) items s.accepted.length ∧
    s.enqueued = items ++ s.pump.queue

/-- The invariant while the pump runs. -/
structure PumpSystem.Running (approval : BrokerMessage) (s : PumpSystem) (control : ApprovalControl)
    (place : PumpPlace) : Prop where
  announced : s.Announced approval place.unsent
  binding : control.binding = approval.boundReply
  seen : control.cancellationSeen = !s.accepted.isEmpty
  once : s.accepted.length ≤ 1
  token : s.pump.token = !s.accepted.isEmpty
  result : ∀ left result, place.finished = some (left, result) →
    s.pump.slot = .taken ∧ s.outcome = some result ∧ s.pump.queue.length ≤ left

/-- The invariant by what `run` has returned. -/
def PumpSystem.PhaseInv (approval : BrokerMessage) (s : PumpSystem) : PumpPhase → Prop
  | .start => s.sent = [] ∧ s.enqueued = s.pump.queue ∧ s.accepted = [] ∧ s.pump.token = false
  | .running control place => s.Running approval control place
  | .returned (.ok result) => s.Announced approval [] ∧ s.pump.queue = [] ∧
    s.outcome = some (.ok result) ∧ s.pump.slot = .taken ∧ s.accepted.length ≤ 1 ∧
    s.pump.token = !s.accepted.isEmpty
  | .returned (.error _) => s.pump.token = true

/-- The invariant of the pump, the executor and the transport. -/
structure PumpInv (approval : BrokerMessage) (s : PumpSystem) : Prop where
  capacity : s.pump.queue.length ≤ progressCapacity
  outcome : ∀ result, s.pump.slot = .ready result → s.outcome = some result
  cancellations : ∀ message ∈ s.accepted, IsCancellation approval message
  phase : s.PhaseInv approval s.pump.phase

/-! ## Messages -/

section Messages

variable {control next : ApprovalControl} {message : BrokerMessage} {now : ℕ}

theorem ApprovalControl.message_ok {kind nonce : String} {payload : Value}
    (h : control.message kind payload nonce = .ok message) :
    message = ⟨protocolVersion, control.binding, nonce, kind, payload⟩ ∧
      message.validate = .ok () := by
  unfold ApprovalControl.message at h
  simp only [except_bind_ok_iff] at h
  obtain ⟨_, hvalid, hmessage⟩ := h
  obtain rfl := Except.ok.inj hmessage
  exact ⟨rfl, hvalid⟩

theorem ApprovalControl.progress_ok {progress : WorkerProgress} {nonce : String}
    (h : control.progress progress nonce = .ok message) :
    message = ⟨protocolVersion, control.binding, nonce, "plan.progress", progress.toValue⟩ ∧
      message.validate = .ok () := by
  unfold ApprovalControl.progress at h
  simp only [except_bind_ok_iff] at h
  obtain ⟨_, -, hmessage⟩ := h
  exact ApprovalControl.message_ok hmessage

theorem cancellationMessage_ok {deadline : ℕ} {answer : Answer} {received : Option BrokerMessage}
    (h : cancellationMessage deadline answer = .ok received) : answer.receive = .ok received := by
  unfold cancellationMessage at h
  simp only [except_bind_ok_iff] at h
  obtain ⟨_, -, hreceive⟩ := h
  exact hreceive

theorem reportMessage_ok {deadline : ℕ} {progress : WorkerProgress} {answer : Answer}
    (h : reportMessage deadline control progress answer = .ok message) :
    message = ⟨protocolVersion, control.binding, answer.nonce, "plan.progress", progress.toValue⟩ ∧
      message.validate = .ok () := by
  unfold reportMessage at h
  simp only [except_bind_ok_iff, except_mapError_ok_iff] at h
  obtain ⟨m, hm, _, -, _, -, heq⟩ := h
  obtain rfl := Except.ok.inj heq
  exact ApprovalControl.progress_ok hm

theorem ApprovalControl.acceptEnvelope_ok
    (h : control.acceptEnvelope message now = (.ok (), next)) :
    message.validate = .ok () ∧ message.binding = control.binding ∧
      next.binding = control.binding ∧ next.cancellationSeen = control.cancellationSeen := by
  unfold ApprovalControl.acceptEnvelope at h
  cases hcheck : control.checkEnvelope message now with
  | error e =>
    rw [hcheck] at h
    cases h
  | ok u =>
    rw [hcheck] at h
    dsimp only at h
    split at h
    · cases h
    · cases h
      refine ⟨?_, (checkEnvelope_ok hcheck).1, rfl, rfl⟩
      unfold ApprovalControl.checkEnvelope at hcheck
      simp only [except_bind_ok_iff] at hcheck
      obtain ⟨_, hvalid, -⟩ := hcheck
      exact hvalid

theorem ApprovalControl.acceptCancellation_ok
    (h : control.acceptCancellation message now = (.ok (), next)) :
    message.validate = .ok () ∧ message.kind = "plan.cancel" ∧ message.payload = .object [] ∧
      message.binding = control.binding ∧ control.cancellationSeen = false ∧
      next.binding = control.binding ∧ next.cancellationSeen = true := by
  unfold ApprovalControl.acceptCancellation at h
  split at h
  · cases h
  · rename_i accepted henvelope
    obtain ⟨hvalid, hbinding, hnext, hseen⟩ := acceptEnvelope_ok henvelope
    split_ifs at h with hrefused
    · cases h
    simp only [not_or, not_not, Bool.not_eq_true] at hrefused
    obtain ⟨hkind, hpayload, hfirst⟩ := hrefused
    cases h
    exact ⟨hvalid, hkind, hpayload, hbinding, hseen ▸ hfirst, hnext, rfl⟩

/-- Only `report` sends. -/
theorem PumpState.step_sent {approval : BrokerMessage} {deadline : ℕ} {s pump : PumpState}
    {answer : Answer} (h : s.step approval deadline answer = some (pump, .sent message)) :
    ∃ control progress next, s.phase = .running control (.report progress next) := by
  unfold PumpState.step at h
  split at h
  · split at h
    · cases h
    · cases h
  · rename_i control place hphase
    rw [Option.some.injEq] at h
    cases place with
    | report progress next => exact ⟨control, progress, next, hphase⟩
    | turn | forward _ | poll =>
      dsimp only [PumpState.runStep] at h
      split at h <;> cases h
    | drain left result =>
      dsimp only [PumpState.runStep] at h
      split at h
      · cases h
      split at h
      · cases h
      split at h <;> cases h
    | listen =>
      dsimp only [PumpState.runStep] at h
      split at h
      · cases h
      · cases h
      unfold PumpState.receive at h
      split at h
      · cases h
      split at h <;> cases h
  · cases h

end Messages

/-! ## Steps -/

section Forwards

variable {reports : List WorkerProgress} {items : List NativeActionProgress} {n : ℕ}

theorem forwards_preparing : Forwards [.preparing] [] 0 := ⟨rfl, rfl, rfl⟩

theorem Forwards.tail_append (h : Forwards reports items n) (progress : WorkerProgress) :
    (reports ++ [progress]).tail = reports.tail ++ [progress] := by
  apply List.tail_append_of_ne_nil
  rintro rfl
  cases h.first

theorem Forwards.head_append (h : Forwards reports items n) (progress : WorkerProgress) :
    (reports ++ [progress]).head? = some .preparing := by
  rw [List.head?_append, h.first, Option.some_or]

theorem toProgress_ne_cancellationPending (item : NativeActionProgress) :
    item.toProgress ≠ .cancellationPending := by
  intro h
  have haction : some item.actionId = none := congrArg WorkerProgress.actionId h
  cases haction

/-- One more item. -/
theorem Forwards.item (h : Forwards reports items n) (item : NativeActionProgress) :
    Forwards (reports ++ [item.toProgress]) (items ++ [item]) n := by
  have hne := toProgress_ne_cancellationPending item
  refine ⟨h.head_append _, ?_, ?_⟩
  · rw [h.tail_append, List.filter_append, h.items, List.filter_cons_of_pos (by simpa using hne),
      List.filter_nil, List.map_append, List.map_singleton]
  · rw [h.tail_append, List.count_append, h.cancellations, List.count_singleton,
      if_neg (by simpa using hne), Nat.add_zero]

/-- One more cancellation. -/
theorem Forwards.cancellation (h : Forwards reports items n) :
    Forwards (reports ++ [.cancellationPending]) items (n + 1) := by
  refine ⟨h.head_append _, ?_, ?_⟩
  · rw [h.tail_append, List.filter_append, h.items, List.filter_cons_of_neg (by simp),
      List.filter_nil, List.append_nil]
  · rw [h.tail_append, List.count_append, h.cancellations, List.count_singleton_self]

end Forwards

section Step

variable {approval : BrokerMessage} {deadline : ℕ} {s : PumpSystem} {control : ApprovalControl}

theorem PumpInv.fail (h : PumpInv approval s) (e : ExchangeError) :
    PumpInv approval { s with pump := s.pump.fail e } :=
  ⟨h.capacity, h.outcome, h.cancellations, rfl⟩

/-- A step that only moves the pump. -/
theorem PumpInv.goto (h : PumpInv approval s) {place : PumpPlace}
    (hrunning : s.Running approval control place) :
    PumpInv approval { s with pump := s.pump.goto control place } :=
  ⟨h.capacity, h.outcome, h.cancellations, hrunning.announced, hrunning.binding, hrunning.seen,
    hrunning.once, hrunning.token, hrunning.result⟩

/-- A place that has nothing unsent and no result. -/
theorem PumpSystem.Running.move {place next : PumpPlace} (h : s.Running approval control place)
    (hunsent : next.unsent = place.unsent) (hfinished : next.finished = none) :
    s.Running approval control next := by
  refine ⟨?_, h.binding, h.seen, h.once, h.token, ?_⟩
  · rw [hunsent]
    exact h.announced
  · intro left result hsome
    rw [hfinished] at hsome
    cases hsome

/-- `report` sends the message of its progress or fails. -/
theorem PumpInv.report (h : PumpInv approval s) {progress : WorkerProgress} {next : PumpPlace}
    (hrunning : s.Running approval control (.report progress next)) (answer : Answer) :
    PumpInv approval (s.record (s.pump.runStep deadline control (.report progress next) answer).1
      (s.pump.runStep deadline control (.report progress next) answer).2) := by
  dsimp only [PumpState.runStep]
  split
  · exact h.fail _
  · rename_i message hmessage
    obtain rfl := (reportMessage_ok hmessage).1
    obtain ⟨reports, items, hsent, hforwards, henqueued⟩ := hrunning.announced
    refine ⟨h.capacity, h.outcome, h.cancellations, ?_, hrunning.binding, hrunning.seen,
      hrunning.once, hrunning.token, hrunning.result⟩
    refine ⟨reports ++ [(progress, answer.nonce)], items, ?_, ?_, henqueued⟩
    · show s.sent ++ [_] = _
      rw [hsent, hrunning.binding, List.map_append]
      rfl
    · rw [List.map_append, List.append_assoc]
      exact hforwards

/-- The first item of the channel is taken. -/
theorem PumpSystem.Announced.take {item : NativeActionProgress} {queue : List NativeActionProgress}
    (hqueue : s.pump.queue = item :: queue) (h : s.Announced approval []) {pump : PumpState}
    (hpump : pump.queue = queue) :
    PumpSystem.Announced approval { s with pump := pump } [item.toProgress] := by
  obtain ⟨reports, items, hsent, hforwards, henqueued⟩ := h
  rw [List.append_nil] at hforwards
  refine ⟨reports, items ++ [item], hsent, hforwards.item item, ?_⟩
  show s.enqueued = items ++ [item] ++ pump.queue
  rw [henqueued, hqueue, hpump, List.append_assoc, List.singleton_append]

theorem PumpInv.forward (h : PumpInv approval s) {left : ℕ}
    (hrunning : s.Running approval control (.forward left)) (answer : Answer) :
    PumpInv approval (s.record (s.pump.runStep deadline control (.forward left) answer).1
      (s.pump.runStep deadline control (.forward left) answer).2) := by
  dsimp only [PumpState.runStep]
  split
  · rename_i left item queue hqueue
    have hcapacity := h.capacity
    rw [hqueue, List.length_cons] at hcapacity
    refine ⟨Nat.le_of_succ_le hcapacity, h.outcome, h.cancellations,
      hrunning.announced.take hqueue rfl, hrunning.binding, hrunning.seen, hrunning.once,
      hrunning.token, ?_⟩
    intro left result hsome
    cases hsome
  · exact h.goto (hrunning.move rfl rfl)

/-- `results.try_recv()`. -/
theorem PumpInv.poll (h : PumpInv approval s) (hrunning : s.Running approval control .poll)
    (answer : Answer) :
    PumpInv approval (s.record (s.pump.runStep deadline control .poll answer).1
      (s.pump.runStep deadline control .poll answer).2) := by
  dsimp only [PumpState.runStep]
  split
  · exact h.goto (hrunning.move rfl rfl)
  · rename_i result hslot
    refine ⟨h.capacity, ?_, h.cancellations, hrunning.announced, hrunning.binding, hrunning.seen,
      hrunning.once, hrunning.token, ?_⟩
    · intro result hready
      cases hready
    · -- the channel holds at most what the second drain may take
      intro left result' hsome
      cases hsome
      exact ⟨rfl, h.outcome result hslot, h.capacity⟩
  · exact h.fail _
  · exact h.fail _

/-- The drain behind the result. -/
theorem PumpInv.drain (h : PumpInv approval s) {left : ℕ} {result : ExecutorResult}
    (hrunning : s.Running approval control (.drain left result)) (answer : Answer) :
    PumpInv approval (s.record (s.pump.runStep deadline control (.drain left result) answer).1
      (s.pump.runStep deadline control (.drain left result) answer).2) := by
  obtain ⟨hslot, houtcome, hleft⟩ := hrunning.result left result rfl
  dsimp only [PumpState.runStep]
  split
  · rename_i left item queue hqueue
    have hcapacity := h.capacity
    rw [hqueue, List.length_cons] at hcapacity hleft
    refine ⟨Nat.le_of_succ_le hcapacity, h.outcome, h.cancellations,
      hrunning.announced.take hqueue rfl, hrunning.binding, hrunning.seen, hrunning.once,
      hrunning.token, ?_⟩
    intro left' result' hsome
    cases hsome
    exact ⟨hslot, houtcome, Nat.le_of_succ_le_succ hleft⟩
  · rename_i hstop
    -- the executor is done, so what is left in the channel is all there will be
    have hempty : s.pump.queue = [] := by
      cases hqueue : s.pump.queue with
      | nil => rfl
      | cons item queue =>
        rw [hqueue, List.length_cons] at hleft
        obtain ⟨left, rfl⟩ := Nat.exists_eq_add_of_lt (Nat.lt_of_lt_of_le (Nat.succ_pos _) hleft)
        exact (hstop left item queue (by omega) hqueue).elim
    split
    · exact h.fail _
    · split
      · exact h.fail _
      · exact ⟨h.capacity, h.outcome, h.cancellations, hrunning.announced, hempty, houtcome, hslot,
          hrunning.once, hrunning.token⟩

/-- A received message is an accepted cancellation, or the pump fails. -/
theorem PumpInv.receive (h : PumpInv approval s) (hrunning : s.Running approval control .listen)
    (message : BrokerMessage) (answer : Answer) :
    PumpInv approval (s.record (s.pump.receive deadline control message answer).1
      (s.pump.receive deadline control message answer).2) := by
  unfold PumpState.receive
  split
  · exact h.fail _
  · split
    · exact h.fail _
    · rename_i next haccept
      obtain ⟨hvalid, hkind, hpayload, hbinding, hfirst, hnext, hseen⟩ :=
        ApprovalControl.acceptCancellation_ok haccept
      rw [hrunning.binding] at hbinding hnext
      have hnone : s.accepted = [] := by
        have hempty := hrunning.seen
        rw [hfirst] at hempty
        simpa using hempty
      obtain ⟨reports, items, hsent, hforwards, henqueued⟩ := hrunning.announced
      refine ⟨h.capacity, h.outcome, ?_, ⟨reports, items, hsent, ?_, henqueued⟩, hnext, ?_, ?_, ?_, ?_⟩
      · intro m hm
        rcases List.mem_append.mp hm with hm | hm
        · exact h.cancellations m hm
        · rw [List.mem_singleton.mp hm]
          exact ⟨hvalid, hkind, hpayload, hbinding⟩
      · show Forwards _ items (s.accepted ++ [message]).length
        rw [List.length_append, List.length_singleton]
        rw [PumpPlace.unsent, List.append_nil] at hforwards
        exact hforwards.cancellation
      · rw [hseen]
        simp [PumpSystem.record]
      · show (s.accepted ++ [message]).length ≤ 1
        rw [hnone]
        rfl
      · simp [PumpSystem.record]
      · intro left result hsome
        cases hsome

theorem PumpInv.listen (h : PumpInv approval s) (hrunning : s.Running approval control .listen)
    (answer : Answer) :
    PumpInv approval (s.record (s.pump.runStep deadline control .listen answer).1
      (s.pump.runStep deadline control .listen answer).2) := by
  dsimp only [PumpState.runStep]
  split
  · exact h.fail _
  · exact h.goto (hrunning.move rfl rfl)
  · exact h.receive hrunning _ answer

theorem PumpInv.runStep (h : PumpInv approval s) (deadline : ℕ) {place : PumpPlace}
    (hrunning : s.Running approval control place) (answer : Answer) :
    PumpInv approval (s.record (s.pump.runStep deadline control place answer).1
      (s.pump.runStep deadline control place answer).2) := by
  cases place with
  | report progress next => exact h.report hrunning answer
  | turn =>
    dsimp only [PumpState.runStep]
    split
    · exact h.fail _
    · exact h.goto (hrunning.move rfl rfl)
  | forward left => exact h.forward hrunning answer
  | poll => exact h.poll hrunning answer
  | drain left result => exact h.drain hrunning answer
  | listen => exact h.listen hrunning answer

/-- One step of `run`. -/
theorem PumpInv.pump (h : PumpInv approval s) {answer : Answer} {pump : PumpState} {event : PumpEvent}
    (hstep : s.pump.step approval deadline answer = some (pump, event)) :
    PumpInv approval (s.record pump event) := by
  have hphase := h.phase
  unfold PumpState.step at hstep
  cases hstate : s.pump.phase with
  | start =>
    rw [hstate] at hstep hphase
    obtain ⟨hsent, henqueued, haccepted, htoken⟩ := hphase
    dsimp only at hstep
    split at hstep
    · cases hstep
      exact h.fail _
    · rename_i next hnew
      cases hstep
      have hsession := session_new hnew
      refine ⟨h.capacity, h.outcome, h.cancellations, ⟨[], [], hsent, ?_, henqueued⟩,
        hsession.binding, ?_, ?_, ?_, ?_⟩
      · show Forwards _ [] s.accepted.length
        rw [haccepted]
        exact forwards_preparing
      · show next.cancellationSeen = !s.accepted.isEmpty
        rw [hsession.cancelled, haccepted]
        rfl
      · show s.accepted.length ≤ 1
        rw [haccepted]
        exact Nat.zero_le 1
      · show s.pump.token = !s.accepted.isEmpty
        rw [htoken, haccepted]
        rfl
      · intro left result hsome
        cases hsome
  | running control place =>
    rw [hstate] at hstep hphase
    have hrunning : s.Running approval control place := hphase
    have hrun : s.pump.runStep deadline control place answer = (pump, event) :=
      Option.some.inj hstep
    have hinv := h.runStep deadline hrunning answer
    rw [hrun] at hinv
    exact hinv
  | returned result =>
    rw [hstate] at hstep
    cases hstep

/-- The phase of the pump when the executor's thread still runs: nothing was taken from it. -/
theorem PumpSystem.PhaseInv.executor {phase : PumpPhase} (h : s.PhaseInv approval phase)
    (hrunning : s.pump.slot = .pending) {s' : PumpSystem} (hsent : s'.sent = s.sent)
    (haccepted : s'.accepted = s.accepted) (htoken : s'.pump.token = s.pump.token)
    {items : List NativeActionProgress} (hqueue : s'.pump.queue = s.pump.queue ++ items)
    (henqueued : s'.enqueued = s.enqueued ++ items) : s'.PhaseInv approval phase := by
  have hannounced : ∀ unsent, s.Announced approval unsent → s'.Announced approval unsent := by
    rintro unsent ⟨reports, forwarded, hmessages, hforwards, hitems⟩
    refine ⟨reports, forwarded, hsent.trans hmessages, ?_, ?_⟩
    · rw [haccepted]
      exact hforwards
    · rw [henqueued, hitems, hqueue, List.append_assoc]
  cases phase with
  | start =>
    obtain ⟨hnone, hall, hfresh, hunset⟩ := h
    refine ⟨hsent.trans hnone, ?_, haccepted.trans hfresh, htoken.trans hunset⟩
    rw [henqueued, hall, hqueue]
  | running control place =>
    refine ⟨hannounced _ h.announced, h.binding, ?_, ?_, ?_, ?_⟩
    · rw [haccepted]
      exact h.seen
    · rw [haccepted]
      exact h.once
    · rw [htoken, haccepted]
      exact h.token
    · intro left result hsome
      have htaken := (h.result left result hsome).1
      rw [hrunning] at htaken
      cases htaken
  | returned result =>
    cases result with
    | error e => exact htoken.trans h
    | ok result =>
      obtain ⟨-, -, -, htaken, -⟩ := h
      rw [hrunning] at htaken
      cases htaken

/-- The executor's `try_send`: the item is at the end of the channel, or nothing changed. -/
theorem PumpInv.trySend (h : PumpInv approval s) (hrunning : s.pump.slot = .pending)
    (item : NativeActionProgress) : PumpInv approval (s.trySend item) := by
  unfold PumpSystem.trySend
  split_ifs with hroom
  · refine ⟨?_, h.outcome, h.cancellations, h.phase.executor hrunning rfl rfl rfl rfl rfl⟩
    show (s.pump.queue ++ [item]).length ≤ progressCapacity
    rw [List.length_append]
    exact hroom
  · exact h

/-- One step of the pump or of the executor. -/
theorem PumpInv.step (h : PumpInv approval s) {label : PumpLabel} {s' : PumpSystem}
    (hstep : PumpSystem.Step approval deadline s label s') : PumpInv approval s' := by
  unfold PumpSystem.Step at hstep
  cases label with
  | pump answer =>
    obtain ⟨next, hnext, rfl⟩ := Option.map_eq_some_iff.mp hstep
    exact h.pump hnext
  | trySend item =>
    simp only [PumpSystem.next, Option.ite_none_right_eq_some, ResultSlot.isPending_iff,
      Option.some.injEq] at hstep
    obtain ⟨hrunning, rfl⟩ := hstep
    exact h.trySend hrunning item
  | finish result =>
    simp only [PumpSystem.next, Option.ite_none_right_eq_some, ResultSlot.isPending_iff,
      Option.some.injEq] at hstep
    obtain ⟨hrunning, rfl⟩ := hstep
    refine ⟨h.capacity, ?_, h.cancellations,
      h.phase.executor hrunning rfl rfl rfl (List.append_nil _).symm (List.append_nil _).symm⟩
    intro result hready
    cases hready
    rfl
  | vanish =>
    simp only [PumpSystem.next, Option.ite_none_right_eq_some, ResultSlot.isPending_iff,
      Option.some.injEq] at hstep
    obtain ⟨hrunning, rfl⟩ := hstep
    refine ⟨h.capacity, ?_, h.cancellations,
      h.phase.executor hrunning rfl rfl rfl (List.append_nil _).symm (List.append_nil _).symm⟩
    intro result hready
    cases hready

end Step

/-! ## Runs -/

theorem pumpInv_initial (approval : BrokerMessage) : PumpInv approval PumpSystem.initial := by
  refine ⟨Nat.zero_le _, ?_, ?_, rfl, rfl, rfl, rfl⟩
  · intro result hready
    cases hready
  · intro message hmem
    cases hmem

/-- The pump neither loses nor reorders progress, for every schedule of the pump and the executor and
    every behaviour of the clock and the transport. When `run` has returned a result, it is the one the
    executor sent, and the messages sent are `preparing`, then one report for each item that entered the
    channel, in order, and at most one `cancellation_pending` among them. When `run` has returned, the
    token is set if and only if a cancellation was accepted or `run` returned an error. -/
theorem pump_forwards_progress {approval : BrokerMessage} {deadline : ℕ} {labels : List PumpLabel}
    {s : PumpSystem}
    (h : Steps (PumpSystem.Step approval deadline) PumpSystem.initial labels s) :
    (∀ result, s.pump.phase = .returned (.ok result) → s.outcome = some (.ok result) ∧
      ∃ (reports : List (WorkerProgress × String)) (rest : List WorkerProgress),
        s.sent = reports.map (progressMessage approval) ∧
        reports.map Prod.fst = .preparing :: rest ∧
        rest.filter (· ≠ .cancellationPending) =
          s.enqueued.map NativeActionProgress.toProgress ∧
        rest.count .cancellationPending ≤ 1) ∧
    ∀ result, s.pump.phase = .returned result →
      (s.pump.token = true ↔
        (∃ message ∈ s.accepted, IsCancellation approval message) ∨ ∃ e, result = .error e) := by
  have hinv : PumpInv approval s :=
    Steps.run_induction (P := fun _ => PumpInv approval) (pumpInv_initial approval)
      (fun _ _ _ _ _ hinv hstep => hinv.step hstep) h
  constructor
  · intro result hreturned
    have hphase := hinv.phase
    rw [hreturned] at hphase
    obtain ⟨⟨reports, items, hsent, hforwards, henqueued⟩, hempty, houtcome, -, honce, -⟩ := hphase
    rw [List.append_nil] at hforwards
    rw [hempty, List.append_nil] at henqueued
    refine ⟨houtcome, reports, (reports.map Prod.fst).tail, hsent, ?_, ?_, ?_⟩
    · exact (List.cons_head?_tail hforwards.first).symm
    · rw [henqueued]
      exact hforwards.items
    · rw [hforwards.cancellations]
      exact honce
  · intro result hreturned
    have hphase := hinv.phase
    rw [hreturned] at hphase
    cases result with
    | error e => exact ⟨fun _ => .inr ⟨e, rfl⟩, fun _ => hphase⟩
    | ok result =>
      obtain ⟨-, -, -, -, -, htoken⟩ := hphase
      rw [htoken]
      constructor
      · intro hset
        obtain ⟨message, hmem⟩ := List.exists_mem_of_ne_nil s.accepted (by simpa using hset)
        exact .inl ⟨message, hmem, hinv.cancellations message hmem⟩
      · rintro (⟨message, hmem, -⟩ | ⟨e, herror⟩)
        · simpa using List.ne_nil_of_mem hmem
        · cases herror

/-- An item of an executor, for examples. -/
def sampleItem : NativeActionProgress := ⟨⟨⟨Vector.replicate 16 7⟩⟩, .started⟩

/-- The result of a cancelled run, for examples. -/
def sampleWorkerResult : WorkerResultV3 where
  schemaVersion := .v3
  planId := ⟨⟨Vector.replicate 16 1⟩⟩
  runId := ⟨⟨Vector.replicate 16 2⟩⟩
  planDigest := ⟨Vector.replicate 32 3⟩
  journalTerminalHash := none
  receipts := []
  artifactManifest := []
  finalStatus := .cancelled
  reason := some "cancelled"
  exitCode := 5

/-- The executor sends an item and its result before the pump starts; nothing is received. -/
def sampleSchedule : List PumpLabel :=
  [.trySend sampleItem, .finish (.ok sampleWorkerResult)] ++
    List.replicate 8 (.pump ⟨fun _ => 0, "55", .ok (), .ok none⟩)

/-- The result that a pump has returned. -/
def PumpPhase.result? : PumpPhase → Option WorkerResultV3
  | .returned (.ok result) => some result
  | _ => none

theorem PumpPhase.result?_eq_some {phase : PumpPhase} {result : WorkerResultV3}
    (h : phase.result? = some result) : phase = .returned (.ok result) := by
  unfold PumpPhase.result? at h
  split at h
  · rw [Option.some.inj h]
  · cases h

theorem pump_forwards_progress_sample : ∃ s,
    Steps (PumpSystem.Step sampleApproval 10) PumpSystem.initial sampleSchedule s ∧
    s.pump.phase = .returned (.ok sampleWorkerResult) ∧ s.sent.length = 2 ∧
    ∃ (reports : List (WorkerProgress × String)) (rest : List WorkerProgress),
      s.sent = reports.map (progressMessage sampleApproval) ∧
      reports.map Prod.fst = .preparing :: rest ∧
      rest.filter (· ≠ .cancellationPending) = [sampleItem.toProgress] := by
  have hrun : (sampleSchedule.foldlM (PumpSystem.next sampleApproval 10) PumpSystem.initial).any
      (fun s => decide (s.pump.phase.result? = some sampleWorkerResult) && decide (s.enqueued = [sampleItem]) &&
        decide (s.sent.length = 2)) = true := by
    decide +kernel
  cases hs : sampleSchedule.foldlM (PumpSystem.next sampleApproval 10) PumpSystem.initial with
  | none =>
    rw [hs] at hrun
    cases hrun
  | some s =>
    rw [hs, Option.any_some, Bool.and_eq_true, Bool.and_eq_true, decide_eq_true_iff, decide_eq_true_iff,
      decide_eq_true_iff] at hrun
    obtain ⟨⟨hreturned, henqueued⟩, hlength⟩ := hrun
    have hphase := PumpPhase.result?_eq_some hreturned
    have hsteps := steps_iff_foldlM.mpr hs
    obtain ⟨hok, -⟩ := pump_forwards_progress hsteps
    obtain ⟨-, reports, rest, hsent, hreports, hitems, -⟩ := hok _ hphase
    rw [henqueued] at hitems
    exact ⟨s, hsteps, hphase, hlength, reports, rest, hsent, hreports, hitems⟩

end BaselineOps.Windows
