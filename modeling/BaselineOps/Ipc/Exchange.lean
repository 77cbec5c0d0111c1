import Mathlib
import BaselineOps.Ipc.Pump

/-!
# The exchange after an approval

Model of the two ends of the control session: `authorize_control` and `receive_result` of the command
line (`baselineops-cli/src/apply/protocol.rs` and `protocol.rs`), and in the worker `control::run`
(`Ipc/Pump.lean`), `send_terminal` and the closing of the pipe (`baselineops-worker/src/control.rs`,
`broker.rs`), with the executor that runs beside the pump.

The pipe is two FIFO channels. A send to a closed peer fails, messages that were sent stay readable
after the peer closed, and a poll returns nothing when its channel is empty. There is no other fault,
and no deadline passes. Every operation on something that two parties share is one step, and a step of
one party can come between any two steps of another.
-/

namespace BaselineOps.Windows

open BaselineOps.Domain BaselineOps.Lib

/-! ## The command line -/

/-- The approved proposal, the approval, the time at which the command line starts its session, the
    deadline of the worker, and the serializers of progress and results. -/
structure Exchange where
  approval : BrokerMessage
  planId : PlanId
  runId : RunId
  digest : Sha256Digest
  actions : List ActionId
  start : ℕ
  deadline : ℕ
  progressFromValue : Value → Except String WorkerProgress
  resultToValue : WorkerResultV3 → Value
  resultFromValue : Value → Except String WorkerResultV3

/-- `progress_action_belongs_to_plan` (`protocol.rs`, lines 103–108). -/
def progressActionBelongsToPlan (actionId : Option ActionId) (proposed : List ActionId) : Bool :=
  actionId.all fun id => decide (id ∈ proposed)

/-- `validate_progress_action` (`apply/protocol.rs`, lines 208–219). -/
def validateProgressAction (x : Exchange) (progress : WorkerProgress) : Except ExchangeError Unit :=
  failIf (progressActionBelongsToPlan progress.actionId x.actions = false)
    (.bail "worker progress names an action outside the approved proposal")

/-- `parse_worker_result` (`protocol.rs`, lines 111–130). -/
def parseWorkerResult (x : Exchange) (reply : BrokerMessage) :
    Except ExchangeError WorkerResultV3 := do
  failIf (reply.kind ≠ "plan.result")
    (.bail "worker did not return the required plan.result reply kind")
  let result ← (x.resultFromValue reply.payload).mapError ExchangeError.json
  (validateWorkerResult result).mapError ExchangeError.domain
  failIf (result.planId ≠ x.planId ∨ result.runId ≠ x.runId ∨ result.planDigest ≠ x.digest)
    (.bail "worker result payload is not bound to the approved plan and run")
  return result

/-- `accept_control_message` (`apply/protocol.rs`, lines 157–168): nothing for a progress, which is
    shown, or the result. -/
def acceptControlMessage (x : Exchange) (control : ApprovalControl) (reply : BrokerMessage) (now : ℕ) :
    Except ExchangeError (Option WorkerResultV3) × ApprovalControl :=
  match control.acceptWorkerMessage x.progressFromValue reply now with
  | (.error e, control) => (.error (.platform e), control)
  | (.ok (some progress), control) =>
    ((validateProgressAction x progress).map fun _ => none, control)
  | (.ok none, control) => ((parseWorkerResult x reply).map some, control)

/-- Where the command line is: in `send_approval_with_cancellation` (`protocol.rs`, lines 16–29), in
    the loop of `receive_result` (`apply/protocol.rs`, lines 122–144), or behind it. -/
inductive CliPhase where
  /-- In front of the first look at the cancellation. -/
  | begin
  /-- About to send the approval. -/
  | approve
  /-- In front of the second look at the cancellation. -/
  | confirm
  /-- About to send the cancellation. -/
  | cancelling
  /-- About to poll for a message. -/
  | receive (sent : Bool)
  /-- About to look at the cancellation in the loop. -/
  | request (sent : Bool)
  | returned (result : WorkerResultV3)
  | failed (error : ExchangeError)

/-- The command line, with the messages that `accept_control_message` accepted. -/
structure Cli where
  phase : CliPhase
  control : ApprovalControl
  accepted : List BrokerMessage

/-! ## The worker -/

/-- `result_message` (`responses.rs`, lines 57–85); the binding of the proposal is that of the
    approval but for `reply_to`. -/
def resultMessage (x : Exchange) (result : WorkerResultV3) (nonce : String) :
    Except ExchangeError BrokerMessage := do
  (validateWorkerResult result).mapError ExchangeError.domain
  failIf (x.approval.binding.planId ≠ result.planId.uuid.toText ∨
    x.approval.binding.planDigest ≠ result.planDigest.toHex)
    (.bail "result does not match the retained worker proposal")
  let reply : BrokerMessage := ⟨protocolVersion, x.approval.boundReply, nonce, "plan.result",
    x.resultToValue result⟩
  reply.validate.mapError ExchangeError.platform
  return reply

/-- Where the worker is (`broker.rs`, lines 23–53): in front of the approval, in `execute_session`, in
    `send_terminal`, or on its way out. -/
inductive WorkerPhase where
  | waiting
  | session
  | terminal (result : WorkerResultV3)
  /-- About to close the pipe. -/
  | leaving
  | closed
  deriving DecidableEq

/-! ## States -/

/-- The state of the exchange. `used`, `sent`, `final` and `cancellations` record what happened: the
    nonces, the messages that the worker sent, its result, and the number of cancellations. -/
structure ExchangeState where
  cli : Cli
  cliClosed : Bool
  cancelRequested : Bool
  worker : WorkerPhase
  pump : PumpState
  toWorker : List BrokerMessage
  toCli : List BrokerMessage
  used : List String
  sent : List BrokerMessage
  final : Option WorkerResultV3
  cancellations : ℕ

/-- The start: the command line has its session (`start_control`), the worker waits for the
    approval. -/
def initialState (x : Exchange) (control : ApprovalControl) : ExchangeState where
  cli := ⟨.begin, control, []⟩
  cliClosed := false
  cancelRequested := false
  worker := .waiting
  pump := PumpSystem.initial.pump
  toWorker := []
  toCli := []
  used := [x.approval.nonce]
  sent := []
  final := none
  cancellations := 0

/-! ## Steps of the command line -/

/-- The command line goes on to `phase`. -/
def ExchangeState.setCli (s : ExchangeState) (phase : CliPhase) : ExchangeState :=
  { s with cli := { s.cli with phase := phase } }

/-- `receive_control_message` and `accept_control_message`. -/
def ExchangeState.cliReceive (x : Exchange) (s : ExchangeState) (sent : Bool) (now : ℕ) :
    ExchangeState :=
  match s.toCli with
  | [] => s.setCli (if s.worker = .closed then .failed .transport else .request sent)
  | reply :: rest =>
    match acceptControlMessage x s.cli.control reply now with
    | (.error e, control) =>
      { s with toCli := rest, cli := { s.cli with phase := .failed e, control := control } }
    | (.ok none, control) =>
      { s with toCli := rest, cli := ⟨.request sent, control, s.cli.accepted ++ [reply]⟩ }
    | (.ok (some result), control) =>
      { s with toCli := rest, cli := ⟨.returned result, control, s.cli.accepted ++ [reply]⟩ }

/-- The cancellation (`send_requested_cancellation`, `apply/protocol.rs`, lines 170–184). -/
def ExchangeState.cliCancel (s : ExchangeState) (nonce : String) : ExchangeState :=
  match s.cli.control.cancellation nonce with
  | .error e => s.setCli (.failed (.platform e))
  | .ok message =>
    if s.worker = .closed then s.setCli (.failed .transport)
    else { s.setCli (.receive true) with
      toWorker := s.toWorker ++ [message]
      used := nonce :: s.used
      cancellations := s.cancellations + 1 }

/-- One step of the command line; a finished one has none. -/
def ExchangeState.cliStep (x : Exchange) (s : ExchangeState) (nonce : String) (now : ℕ) :
    Option ExchangeState :=
  match s.cli.phase with
  | .begin => s.setCli (if s.cancelRequested then .failed .elevationCancelled else .approve)
  | .approve =>
    if s.worker = .closed then s.setCli (.failed .transport)
    else some { s.setCli .confirm with toWorker := s.toWorker ++ [x.approval] }
  | .confirm => s.setCli (if s.cancelRequested then .cancelling else .receive false)
  | .cancelling => s.cliCancel nonce
  | .receive sent => s.cliReceive x sent now
  | .request sent =>
    s.setCli (if sent = false ∧ s.cancelRequested = true then .cancelling else .receive sent)
  | .returned _ => none
  | .failed _ => none

/-! ## Steps of the worker -/

/-- What the pipe answers to the pump. -/
def ExchangeState.answer (s : ExchangeState) (nonce : String) (clock : ℕ → ℕ) : Answer where
  clock := clock
  nonce := nonce
  send := if s.cliClosed then .error .transport else .ok ()
  receive :=
    match s.toWorker with
    | [] => if s.cliClosed then .error .transport else .ok none
    | message :: _ => .ok (some message)

/-- The pipe behind a step of the pump. -/
def ExchangeState.pumped (s : ExchangeState) (pump : PumpState) : PumpEvent → ExchangeState
  | .quiet => { s with pump := pump }
  | .sent message => { s with
      pump := pump
      toCli := s.toCli ++ [message]
      sent := s.sent ++ [message]
      used := message.nonce :: s.used }
  | .refused | .accepted _ => { s with pump := pump, toWorker := s.toWorker.tail }

/-- One step of `execute_session`: of the pump until it has returned, then the end of the scope, which
    waits for the executor. -/
def ExchangeState.sessionStep (x : Exchange) (s : ExchangeState) (nonce : String) (clock : ℕ → ℕ) :
    Option ExchangeState :=
  match s.pump.phase with
  | .returned (.ok result) => some { s with worker := .terminal result }
  | .returned (.error _) => if s.pump.slot.isPending then none else some { s with worker := .leaving }
  | .start | .running _ _ =>
    (s.pump.step x.approval x.deadline (s.answer nonce clock)).map fun next => s.pumped next.1 next.2

/-- `send_terminal`. -/
def ExchangeState.terminalStep (x : Exchange) (s : ExchangeState) (result : WorkerResultV3)
    (nonce : String) : ExchangeState :=
  match resultMessage x result nonce with
  | .error _ => { s with worker := .leaving }
  | .ok message =>
    if s.cliClosed then { s with worker := .leaving }
    else { s with
      worker := .leaving
      toCli := s.toCli ++ [message]
      sent := s.sent ++ [message]
      used := message.nonce :: s.used
      final := some result }

/-- One step of the worker; a closed one has none. -/
def ExchangeState.workerStep (x : Exchange) (s : ExchangeState) (nonce : String) (clock : ℕ → ℕ) :
    Option ExchangeState :=
  match s.worker with
  | .waiting =>
    match s.toWorker with
    | [] => if s.cliClosed then some { s with worker := .leaving } else none
    | _ :: rest => some { s with worker := .session, toWorker := rest }
  | .session => s.sessionStep x nonce clock
  | .terminal result => some (s.terminalStep x result nonce)
  | .leaving => some { s with worker := .closed }
  | .closed => none

/-! ## The exchange -/

/-- Who takes a step, with the nonce that a message would get and the readings of the clock. -/
inductive ExchangeLabel where
  | cli (nonce : String) (now : ℕ)
  | worker (nonce : String) (clock : ℕ → ℕ)
  /-- The console asks for cancellation. -/
  | console
  /-- The command line closes its end of the pipe. -/
  | hangUp
  /-- The executor reports an action; a full channel drops the report. -/
  | progress (item : NativeActionProgress)
  /-- The executor's thread sends its result and ends. -/
  | finish (result : ExecutorResult)
  /-- The executor's thread ends without a result. -/
  | vanish

/-- The executor's thread runs. -/
def ExchangeState.executing (s : ExchangeState) : Bool :=
  s.worker = .session && s.pump.slot.isPending

/-- What the parties are promised of a step: nonces are valid and fresh, no deadline passes, and the
    executor names actions and the run of the approved plan in a result that can be read back. -/
def Exchange.Admits (x : Exchange) (s : ExchangeState) : ExchangeLabel → Prop
  | .cli nonce now => validNonce nonce = true ∧ nonce ∉ s.used ∧ x.start ≤ now ∧
    now < x.start + controlLifetime
  | .worker nonce clock => validNonce nonce = true ∧ nonce ∉ s.used ∧ ∀ i, clock i < x.deadline
  | .console | .vanish => True
  | .hangUp => (∃ result, s.cli.phase = .returned result) ∨ ∃ e, s.cli.phase = .failed e
  | .progress item => item.actionId ∈ x.actions
  | .finish result => ∀ r, result = .ok r →
    r.runId = x.runId ∧ x.resultFromValue (x.resultToValue r) = .ok r

/-- The state behind a step. -/
def Exchange.next (x : Exchange) (s : ExchangeState) : ExchangeLabel → Option ExchangeState
  | .cli nonce now => s.cliStep x nonce now
  | .worker nonce clock => s.workerStep x nonce clock
  | .console => some { s with cancelRequested := true }
  | .hangUp => some { s with cliClosed := true }
  | .progress item =>
    if s.executing then
      some { s with pump := { s.pump with queue :=
        if s.pump.queue.length < progressCapacity then s.pump.queue ++ [item] else s.pump.queue } }
    else none
  | .finish result =>
    if s.executing then some { s with pump := { s.pump with slot := .ready result } } else none
  | .vanish =>
    if s.executing then some { s with pump := { s.pump with slot := .disconnected } } else none

/-- The steps of the exchange. -/
def Exchange.Step (x : Exchange) (s : ExchangeState) (label : ExchangeLabel) (s' : ExchangeState) :
    Prop :=
  x.Admits s label ∧ x.next s label = some s'

end BaselineOps.Windows
