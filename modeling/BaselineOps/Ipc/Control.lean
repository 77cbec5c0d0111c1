import Mathlib
import BaselineOps.Ipc.Message
import BaselineOps.Lib.ReplayCache

/-!
# The approval control session

Model of `baselineops-windows/src/ipc/replay.rs` and `ipc/control.rs`: the messages that follow an
approval are bound to it, limited in number and time, and accepted once. An instant is a number of
nanoseconds.
-/

namespace BaselineOps.Windows

open BaselineOps.Domain BaselineOps.Lib

/-! ## The replay cache -/

/-- `ReplayNonceCache` (`replay.rs`, lines 8–13), with the positive bounds that `new` checks. -/
structure ReplayNonceCache where
  ttl : ℕ
  capacity : ℕ
  seen : AList fun _ : String => ℕ
  order : List String
  ttl_pos : 0 < ttl
  capacity_pos : 0 < capacity

/-- `ReplayNonceCache::new` (lines 21–33). -/
def ReplayNonceCache.new (ttl capacity : ℕ) : Except PlatformError ReplayNonceCache :=
  if h : 0 < ttl ∧ 0 < capacity then .ok ⟨ttl, capacity, ∅, [], h.1, h.2⟩
  else .error (.protocolRejected "replay cache requires positive bounds")

/-- `evict_expired` (lines 62–74). -/
def ReplayNonceCache.evictExpired (cache : ReplayNonceCache) (now : ℕ) : ReplayNonceCache :=
  let (order, seen) := ReplayCache.evictExpired cache.ttl now cache.order cache.seen
  { cache with order := order, seen := seen }

/-- `evict_capacity` (lines 55–61). -/
def ReplayNonceCache.evictCapacity (cache : ReplayNonceCache) : ReplayNonceCache :=
  let (order, seen) := ReplayCache.evictCapacity cache.capacity cache.order cache.seen
  { cache with order := order, seen := seen }

/-- `ReplayNonceCache::accept` (lines 39–54). -/
def ReplayNonceCache.accept (cache : ReplayNonceCache) (nonce : String) (now : ℕ) :
    Except PlatformError Unit × ReplayNonceCache :=
  if ¬ validNonce nonce then
    (.error (.protocolRejected "nonce is not bounded hexadecimal"), cache)
  else
    let cache := cache.evictExpired now
    if nonce ∈ cache.seen then (.error .replayDetected, cache)
    else
      let cache := cache.evictCapacity
      (.ok (), { cache with seen := cache.seen.insert nonce now, order := cache.order ++ [nonce] })

/-! ## Progress -/

/-- `ProgressPhase` (`control.rs`, lines 12–21). -/
inductive ProgressPhase where
  | preparing | actionStarted | actionFinished | cancellationPending
  deriving DecidableEq

/-- The `snake_case` names of `ProgressPhase`. -/
def ProgressPhase.name : ProgressPhase → String
  | .preparing => "preparing"
  | .actionStarted => "action_started"
  | .actionFinished => "action_finished"
  | .cancellationPending => "cancellation_pending"

/-- `WorkerProgress` (lines 26–31). -/
structure WorkerProgress where
  phase : ProgressPhase
  actionId : Option ActionId
  deriving DecidableEq

/-- `WorkerProgress::validate` (lines 38–47). -/
def WorkerProgress.validate (progress : WorkerProgress) : Except PlatformError Unit :=
  rejectIf (decide (progress.phase = .actionStarted ∨ progress.phase = .actionFinished) ≠
    progress.actionId.isSome) "progress stage and action identifier disagree"

/-- `serde_json::to_value` of a progress. -/
def WorkerProgress.toValue (progress : WorkerProgress) : Value := .object
  [("action_id", progress.actionId.elim .null fun id => .string id.uuid.toText),
   ("phase", .string progress.phase.name)]

/-! ## The session -/

/-- `ApprovalControl` (lines 52–59). The binding always names the approval. -/
structure ApprovalControl where
  binding : BrokerBinding
  seen : ReplayNonceCache
  deadline : ℕ
  received : ℕ
  cancellationSeen : Bool
  terminalSeen : Bool
  bound : binding.replyTo.isSome

/-- `Duration::from_mins(2)` in nanoseconds. -/
def controlLifetime : ℕ := 120000000000

/-- `ApprovalControl::new` (lines 66–85). -/
def ApprovalControl.new (approval : BrokerMessage) (now : ℕ) :
    Except PlatformError ApprovalControl := do
  approval.validate
  rejectIf (approval.kind ≠ "plan.approve") "control session requires an authenticated approval"
  let seen ← ReplayNonceCache.new controlLifetime 128
  let accepted := seen.accept approval.nonce now
  accepted.1
  return ⟨{ approval.binding with replyTo := some approval.nonce }, accepted.2,
    now + controlLifetime, 0, false, false, rfl⟩

/-- The checks of `accept_envelope` before the nonce (lines 162–173). -/
def ApprovalControl.checkEnvelope (control : ApprovalControl) (message : BrokerMessage) (now : ℕ) :
    Except PlatformError Unit := do
  message.validate
  message.binding.requireReplyTo control.binding.sessionId control.binding.planId
    control.binding.planDigest (control.binding.replyTo.get control.bound)
  rejectIf (control.terminalSeen = true ∨ control.deadline ≤ now ∨ 127 ≤ control.received)
    "control session expired or exceeded its message quota"

/-- `accept_envelope` (lines 157–177). -/
def ApprovalControl.acceptEnvelope (control : ApprovalControl) (message : BrokerMessage) (now : ℕ) :
    Except PlatformError Unit × ApprovalControl :=
  match control.checkEnvelope message now with
  | .error e => (.error e, control)
  | .ok () =>
    match control.seen.accept message.nonce now with
    | (.error e, seen) => (.error e, { control with seen := seen })
    | (.ok (), seen) => (.ok (), { control with seen := seen, received := control.received + 1 })

/-- `accept_cancellation` (lines 114–130). -/
def ApprovalControl.acceptCancellation (control : ApprovalControl) (message : BrokerMessage)
    (now : ℕ) : Except PlatformError Unit × ApprovalControl :=
  match control.acceptEnvelope message now with
  | (.error e, control) => (.error e, control)
  | (.ok (), control) =>
    if message.kind ≠ "plan.cancel" ∨ message.payload ≠ .object [] ∨
        control.cancellationSeen = true then
      (.error (.protocolRejected "worker accepts exactly one empty cancellation request"), control)
    else (.ok (), { control with cancellationSeen := true })

/-- The progress of a message (lines 144–147); `fromValue` is `serde_json::from_value` with the text
    of its error. -/
def readProgress (fromValue : Value → Except String WorkerProgress) (payload : Value) :
    Except PlatformError WorkerProgress := do
  let progress ← (fromValue payload).mapError PlatformError.protocolRejected
  progress.validate
  return progress

/-- `accept_worker_message` (lines 136–155). -/
def ApprovalControl.acceptWorkerMessage (fromValue : Value → Except String WorkerProgress)
    (control : ApprovalControl) (message : BrokerMessage) (now : ℕ) :
    Except PlatformError (Option WorkerProgress) × ApprovalControl :=
  match control.acceptEnvelope message now with
  | (.error e, control) => (.error e, control)
  | (.ok (), control) =>
    if message.kind = "plan.progress" then
      ((readProgress fromValue message.payload).map some, control)
    else if message.kind = "plan.result" then (.ok none, { control with terminalSeen := true })
    else (.error (.protocolRejected "expected worker progress or terminal result"), control)

/-- `ApprovalControl::message` (lines 179–194). -/
def ApprovalControl.message (control : ApprovalControl) (kind : String) (payload : Value)
    (nonce : String) : Except PlatformError BrokerMessage := do
  let message : BrokerMessage := ⟨protocolVersion, control.binding, nonce, kind, payload⟩
  message.validate
  return message

/-- `cancellation` (lines 91–93). -/
def ApprovalControl.cancellation (control : ApprovalControl) (nonce : String) :
    Except PlatformError BrokerMessage :=
  control.message "plan.cancel" (.object []) nonce

/-- `progress` (lines 99–108). -/
def ApprovalControl.progress (control : ApprovalControl) (progress : WorkerProgress)
    (nonce : String) : Except PlatformError BrokerMessage := do
  progress.validate
  control.message "plan.progress" progress.toValue nonce

end BaselineOps.Windows
