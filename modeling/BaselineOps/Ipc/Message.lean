import Mathlib
import BaselineOps.Domain.Result
import BaselineOps.Lib.EState

/-!
# Broker messages

Model of `baselineops-windows/src/ipc/{mod,binding,message}.rs`: the envelope that every message of
the worker protocol carries, and the checks on it.
-/

namespace BaselineOps.Windows

open BaselineOps.Domain BaselineOps.Lib

/-- `PlatformError` (`lib.rs`), as far as the protocol and its transport return it; an I/O error with
    its text. -/
inductive PlatformError where
  | protocolRejected (reason : String)
  | replayDetected
  | io (description : String)
  deriving DecidableEq

/-- `if condition { return Err(rejected(reason)); }`. -/
def rejectIf (condition : Prop) [Decidable condition] (reason : String) :
    Except PlatformError Unit :=
  failIf condition (.protocolRejected reason)

/-! ## Constants and texts -/

/-- `PROTOCOL_VERSION` (`mod.rs`, line 35). -/
def protocolVersion : UInt16 := 2

/-- `MAX_NONCE_BYTES` (line 36). -/
def maxNonceBytes : ℕ := 96

/-- `MAX_KIND_BYTES` (line 37). -/
def maxKindBytes : ℕ := 64

/-- `MAX_SESSION_BYTES` (line 38). -/
def maxSessionBytes : ℕ := 64

/-- `MAX_PLAN_ID_BYTES` (line 39). -/
def maxPlanIdBytes : ℕ := 128

/-- `SHA256_HEX_BYTES` (line 40). -/
def sha256HexBytes : ℕ := 64

/-- `byte.is_ascii_hexdigit() && !byte.is_ascii_uppercase()`. -/
def isLowerHex (b : UInt8) : Bool := (0x30 ≤ b && b ≤ 0x39) || (0x61 ≤ b && b ≤ 0x66)

/-- `byte.is_ascii_alphanumeric()`. -/
def isAlphanumeric (b : UInt8) : Bool :=
  (0x30 ≤ b && b ≤ 0x39) || (0x41 ≤ b && b ≤ 0x5a) || (0x61 ≤ b && b ≤ 0x7a)

/-- `valid_nonce` (lines 57–64). -/
def validNonce (value : String) : Bool :=
  let bytes := utf8 value
  !bytes.isEmpty && bytes.length ≤ maxNonceBytes && bytes.length % 2 == 0 && bytes.all isLowerHex

/-- `valid_hex` (lines 66–71). -/
def validHex (value : String) (length : ℕ) : Bool :=
  (utf8 value).length == length && (utf8 value).all isLowerHex

/-! ## Bindings -/

/-- `BrokerBinding` (`binding.rs`, lines 8–17). -/
structure BrokerBinding where
  sessionId : String
  planId : String
  planDigest : String
  replyTo : Option String
  deriving DecidableEq

/-- `validate_session_id` (lines 89–99). -/
def validateSessionId (value : String) : Except PlatformError Unit :=
  rejectIf ((utf8 value).isEmpty ∨ (utf8 value).length > maxSessionBytes ∨
    ¬ (utf8 value).all isLowerHex) "session identifier is invalid"

/-- `validate_plan_id` (lines 101–111). -/
def validatePlanId (value : String) : Except PlatformError Unit :=
  rejectIf ((utf8 value).isEmpty ∨ (utf8 value).length > maxPlanIdBytes ∨
    ¬ (utf8 value).all fun b => isAlphanumeric b || b == 0x2d || b == 0x5f)
    "plan identifier is invalid"

/-- `BrokerBinding::validate` (lines 25–39). -/
def BrokerBinding.validate (binding : BrokerBinding) : Except PlatformError Unit := do
  validateSessionId binding.sessionId
  validatePlanId binding.planId
  rejectIf (¬ validHex binding.planDigest sha256HexBytes) "plan digest is not SHA-256 hex"
  rejectIf (∃ nonce ∈ binding.replyTo, ¬ validNonce nonce) "reply nonce is invalid"

/-- `matches_active_exchange` (lines 84–86). -/
def BrokerBinding.MatchesActiveExchange (binding : BrokerBinding)
    (sessionId planId planDigest : String) : Prop :=
  binding.sessionId = sessionId ∧ binding.planId = planId ∧ binding.planDigest = planDigest

instance (binding : BrokerBinding) (sessionId planId planDigest : String) :
    Decidable (binding.MatchesActiveExchange sessionId planId planDigest) :=
  inferInstanceAs (Decidable (_ ∧ _))

/-- `require_reply_to` (lines 46–60). -/
def BrokerBinding.requireReplyTo (binding : BrokerBinding)
    (sessionId planId planDigest requestNonce : String) : Except PlatformError Unit := do
  binding.validate
  rejectIf (¬ binding.MatchesActiveExchange sessionId planId planDigest ∨
    binding.replyTo ≠ some requestNonce) "reply binding does not match the active exchange"

/-! ## Messages -/

/-- `BrokerMessage` (`message.rs`, lines 8–19). -/
structure BrokerMessage where
  version : UInt16
  binding : BrokerBinding
  nonce : String
  kind : String
  payload : Value
  deriving DecidableEq

/-- `validate_kind` (lines 52–63). -/
def validateKind (kind : String) : Except PlatformError Unit :=
  rejectIf (¬ (!(utf8 kind).isEmpty && (utf8 kind).length ≤ maxKindBytes && (utf8 kind).all fun b =>
    isAlphanumeric b || b == 0x2e || b == 0x5f || b == 0x2d)) "operation kind is invalid"

/-- `Value::is_object`. -/
def isObject : Value → Bool
  | .object _ => true
  | _ => false

/-- `BrokerMessage::validate` (lines 27–35), with `validate_version` and `validate_nonce`. -/
def BrokerMessage.validate (message : BrokerMessage) : Except PlatformError Unit := do
  rejectIf (message.version ≠ protocolVersion) "unsupported protocol version"
  rejectIf (¬ validNonce message.nonce) "nonce is not bounded hexadecimal"
  validateKind message.kind
  rejectIf (¬ isObject message.payload) "payload must be a JSON object"
  message.binding.validate

/-! ## What the checks say -/

theorem rejectIf_ok_iff {condition : Prop} [Decidable condition] {reason : String} {u : Unit} :
    rejectIf condition reason = .ok u ↔ ¬ condition := failIf_ok_iff

theorem BrokerBinding.requireReplyTo_ok {binding : BrokerBinding}
    {sessionId planId planDigest requestNonce : String}
    (h : binding.requireReplyTo sessionId planId planDigest requestNonce = .ok ()) :
    binding = ⟨sessionId, planId, planDigest, some requestNonce⟩ := by
  unfold BrokerBinding.requireReplyTo BrokerBinding.MatchesActiveExchange at h
  simp only [except_bind_ok_iff, rejectIf_ok_iff, not_or, not_not] at h
  obtain ⟨_, -, ⟨hsession, hplan, hdigest⟩, hreply⟩ := h
  cases binding
  dsimp only at hsession hplan hdigest hreply
  rw [hsession, hplan, hdigest, hreply]

theorem BrokerMessage.validate_ok {message : BrokerMessage} (h : message.validate = .ok ()) :
    validNonce message.nonce = true ∧ message.binding.validate = .ok () := by
  unfold BrokerMessage.validate at h
  simp only [except_bind_ok_iff, rejectIf_ok_iff, not_not] at h
  obtain ⟨_, -, _, hnonce, _, -, _, -, hbinding⟩ := h
  exact ⟨hnonce, hbinding⟩

end BaselineOps.Windows
