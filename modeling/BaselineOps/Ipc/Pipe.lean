import Mathlib
import BaselineOps.Ipc.Frame

/-!
# The pipe reader

Model of `baselineops-windows/src/ipc/windows.rs`, lines 206–400, and `windows/transfer.rs`: frames are
received from a pipe in message mode, the length with one read and the body with another. The
overlapped reads and writes (`windows/overlapped.rs`) are those of an arbitrary device.

* `PipeDevice.Lawful`: what a status says about the messages of the pipe.
* `receiveMessage_spec`: what one call consumes.
* `brokerFraming_faithful`: the codec and the reader together.
-/

namespace BaselineOps.Windows

open BaselineOps.Domain BaselineOps.Lib

/-! ## Transfers -/

/-- `ERROR_MORE_DATA` (`transfer.rs`, line 3). -/
def errorMoreData : UInt32 := 234

/-- `ERROR_OPERATION_ABORTED` (line 4). -/
def errorOperationAborted : UInt32 := 995

/-- `ReadStage` (lines 7–10): `Prefix` and `Body`. -/
inductive ReadStage where
  | lengthField | body
  deriving DecidableEq

/-- `ReadOutcome` (lines 13–16). -/
inductive ReadOutcome where
  | complete (moreData : Bool)
  | cleanTimeout
  deriving DecidableEq

/-- `TransferStatus` (lines 19–24). -/
structure TransferStatus where
  succeeded : Bool
  error : UInt32
  actual : ℕ
  timedOut : Bool

/-- `native_error` (lines 66–70). -/
def nativeError (operation : String) (code : UInt32) : PlatformError :=
  .io (operation ++ ": Win32 error " ++ toString code.toNat)

/-- `classify_timeout` (lines 50–64). -/
def classifyTimeout (status : TransferStatus) (stage : ReadStage) : Except PlatformError ReadOutcome :=
  if stage = .lengthField ∧ status.actual = 0 ∧ status.succeeded = false ∧
      status.error = errorOperationAborted then .ok .cleanTimeout
  else .error (.protocolRejected "pipe receive timed out after a frame transfer may have begun")

/-- `classify_read` (lines 26–48). -/
def classifyRead (status : TransferStatus) (expected : ℕ) (stage : ReadStage) :
    Except PlatformError ReadOutcome :=
  if status.timedOut then classifyTimeout status stage
  else if status.actual ≠ expected then
    .error (if status.succeeded then .protocolRejected "pipe message is shorter than its frame"
      else nativeError "ReadFile" status.error)
  else if status.succeeded then .ok (.complete false)
  else if status.error = errorMoreData then .ok (.complete true)
  else .error (nativeError "ReadFile" status.error)

/-! ## The device -/

/-- A pipe in message mode: the messages that wait, the one in front without its bytes that were read,
    and the overlapped operations. `read` has a buffer of a given size; it returns its status and the
    bytes that were copied. -/
structure PipeDevice (D : Type) where
  unread : D → List (List UInt8)
  read : D → ℕ → Except PlatformError TransferStatus × List UInt8 × D
  write : D → List UInt8 → Except PlatformError TransferStatus × D

/-- Bytes are taken from the message in front, and whether some are left there. -/
inductive Draws : List (List UInt8) → List UInt8 → Bool → List (List UInt8) → Prop where
  | whole (message : List UInt8) (rest : List (List UInt8)) : Draws (message :: rest) message false rest
  | part (bytes left : List UInt8) (rest : List (List UInt8)) (h : left ≠ []) :
      Draws ((bytes ++ left) :: rest) bytes true (left :: rest)

/-- What a status says of a read: `actual` is the number of bytes copied; a success leaves nothing of the
    message, and `ERROR_MORE_DATA` leaves something. A read that failed and copied nothing left the
    messages alone. Messages can arrive at any time. -/
structure PipeDevice.Lawful {D : Type} (dev : PipeDevice D) : Prop where
  read : ∀ d n status bytes d', dev.read d n = (.ok status, bytes, d') →
    status.actual = bytes.length ∧ ∃ arrived,
      (status.succeeded = false ∧ bytes = [] ∧ dev.unread d' = dev.unread d ++ arrived) ∨
      ∃ more, Draws (dev.unread d ++ arrived) bytes more (dev.unread d') ∧
        (bytes ≠ [] ∨ status.succeeded = true) ∧ (status.succeeded = true → more = false) ∧
        (status.succeeded = false → status.error = errorMoreData → more = true)

/-! ## Receiving -/

section Receive

variable {D : Type} (dev : PipeDevice D) (json : JsonCodec Value)

/-- `read_message_part` (`windows.rs`, lines 360–371). -/
def readMessagePart (d : D) (size : ℕ) (stage : ReadStage) :
    Except PlatformError ReadOutcome × List UInt8 × D :=
  if size = 0 then (.ok (.complete false), [], d)
  else
    let (status, bytes, d) := dev.read d size
    (status.bind fun status => classifyRead status size stage, bytes, d)

/-- A zeroed buffer with the bytes that were copied. -/
def filledBuffer (size : ℕ) (bytes : List UInt8) : List UInt8 :=
  bytes.take size ++ List.replicate (size - bytes.length) 0

/-- `prefix_has_expected_boundary` (lines 373–375). -/
def hasExpectedBoundary (body : ℕ) (moreData : Bool) : Bool := (body == 0) != moreData

/-- `declared_body_length` (lines 284–299). -/
def declaredBodyLength (length : List UInt8) (moreData : Bool) : Except PlatformError ℕ := do
  let body := fromBeBytes length
  rejectIf (body > maxFrameBytes) "pipe frame exceeds maximum size"
  rejectIf (hasExpectedBoundary body moreData = false)
    "pipe message disagrees with its declared frame body"
  return body

/-- `read_declared_body` (lines 301–326). -/
def readDeclaredBody (d : D) (length : List UInt8) (body : ℕ) :
    Except PlatformError (List UInt8) × D :=
  if body = 0 then (.ok length, d)
  else
    match readMessagePart dev d body .body with
    | (.error e, _, d) => (.error e, d)
    | (.ok (.complete false), bytes, d) => (.ok (length ++ filledBuffer body bytes), d)
    | (.ok (.complete true), _, d) =>
      (.error (.protocolRejected "pipe message contains bytes after its bounded frame"), d)
    | (.ok .cleanTimeout, _, d) =>
      (.error (.protocolRejected "pipe body unexpectedly reported a clean timeout"), d)

/-- `receive_message` (lines 268–282). -/
def receiveMessage (d : D) : Except PlatformError (Option (List UInt8)) × D :=
  match readMessagePart dev d 4 .lengthField with
  | (.error e, _, d) => (.error e, d)
  | (.ok .cleanTimeout, _, d) => (.ok none, d)
  | (.ok (.complete moreData), bytes, d) =>
    match declaredBodyLength (filledBuffer 4 bytes) moreData with
    | .error e => (.error e, d)
    | .ok body =>
      match readDeclaredBody dev d (filledBuffer 4 bytes) body with
      | (.error e, d) => (.error e, d)
      | (.ok frame, d) =>
        match FrameCodec.decode json frame with
        | .error e => (.error e, d)
        | .ok _ => (.ok (some frame), d)

/-- `write_message` (lines 379–400). -/
def writeMessage (d : D) (bytes : List UInt8) : Except PlatformError Unit × D :=
  let (status, d) := dev.write d bytes
  (status.bind fun status => do
    failIf (status.timedOut = true) (.io "pipe send exceeded its finite timeout")
    failIf (status.succeeded = false) (nativeError "WriteFile" status.error)
    rejectIf (status.actual ≠ bytes.length) "pipe write completed without the exact frame", d)

/-! ## The connection -/

/-- `NamedPipeClient`. -/
structure NamedPipeClient (D : Type) where
  device : D
  poisoned : Bool

/-- `require_usable` (lines 258–265). -/
def NamedPipeClient.requireUsable (client : NamedPipeClient D) : Except PlatformError Unit :=
  rejectIf (client.poisoned = true) "pipe connection is unusable after an incomplete transfer"

/-- The connection behind a transfer, poisoned by an error. -/
def NamedPipeClient.settle {α : Type} (client : NamedPipeClient D)
    (transfer : Except PlatformError α × D) : Except PlatformError α × NamedPipeClient D :=
  match transfer with
  | (.ok value, d) => (.ok value, { client with device := d })
  | (.error e, d) => (.error e, ⟨d, true⟩)

/-- `receive_timeout` (lines 246–256). -/
def NamedPipeClient.receiveTimeout (client : NamedPipeClient D) :
    Except PlatformError (Option (List UInt8)) × NamedPipeClient D :=
  match client.requireUsable with
  | .error e => (.error e, client)
  | .ok () => client.settle (receiveMessage dev json client.device)

/-- `send_timeout` (lines 206–225). -/
def NamedPipeClient.sendTimeout (client : NamedPipeClient D) (frame : List UInt8) :
    Except PlatformError Unit × NamedPipeClient D :=
  let checked : Except PlatformError Unit := do
    rejectIf (frame.length < 4 ∨ frame.length > maxFrameBytes + 4)
      "pipe frame is outside explicit bounds"
    let _ ← FrameCodec.decode json frame
    client.requireUsable
  match checked with
  | .error e => (.error e, client)
  | .ok () => client.settle (writeMessage dev client.device frame)

/-- A call on the connection. -/
inductive PipeCall where
  | send (frame : List UInt8)
  | receive

/-- Whether a call fails, and the connection behind it. -/
def NamedPipeClient.call (client : NamedPipeClient D) : PipeCall → Bool × NamedPipeClient D
  | .send frame =>
    let sent := client.sendTimeout dev json frame
    (!sent.1.isOk, sent.2)
  | .receive =>
    let received := client.receiveTimeout dev json
    (!received.1.isOk, received.2)

/-- A sequence of calls: which of them fail, and the connection behind the last. -/
def NamedPipeClient.calls (client : NamedPipeClient D) : List PipeCall → List Bool × NamedPipeClient D
  | [] => ([], client)
  | call :: rest =>
    let called := client.call dev json call
    let others := called.2.calls rest
    (called.1 :: others.1, others.2)

end Receive

/-! ## What a read consumes -/

theorem Draws.eq_cons {pipe pipe' : List (List UInt8)} {bytes : List UInt8}
    (h : Draws pipe bytes false pipe') : pipe = bytes :: pipe' := by
  cases h
  rfl

/-- The rest of a message. -/
theorem Draws.finish {pipe pipe' pipe'' : List (List UInt8)} {bytes bytes' : List UInt8}
    {arrived : List (List UInt8)} (h : Draws pipe bytes true pipe')
    (h' : Draws (pipe' ++ arrived) bytes' false pipe'') :
    pipe ++ arrived = (bytes ++ bytes') :: pipe'' := by
  cases h with
  | part bytes left rest hleft =>
    have hpipe := h'.eq_cons
    rw [List.cons_append] at hpipe
    obtain ⟨rfl, rfl⟩ := List.cons.inj hpipe
    rfl

theorem classifyTimeout_ok {status : TransferStatus} {stage : ReadStage} {outcome : ReadOutcome}
    (h : classifyTimeout status stage = .ok outcome) :
    outcome = .cleanTimeout ∧ status.actual = 0 ∧ status.succeeded = false := by
  unfold classifyTimeout at h
  split_ifs at h with hclean
  exact ⟨(Except.ok.inj h).symm, hclean.2.1, hclean.2.2.1⟩

/-- A clean timeout copied nothing. -/
theorem classifyRead_cleanTimeout {status : TransferStatus} {size : ℕ} {stage : ReadStage}
    (h : classifyRead status size stage = .ok .cleanTimeout) :
    status.actual = 0 ∧ status.succeeded = false := by
  unfold classifyRead at h
  split_ifs at h
  · exact (classifyTimeout_ok h).2
  all_goals cases h

/-- A complete read filled its buffer. -/
theorem classifyRead_complete {status : TransferStatus} {size : ℕ} {stage : ReadStage} {more : Bool}
    (h : classifyRead status size stage = .ok (.complete more)) :
    status.actual = size ∧ (status.succeeded = true ∧ more = false ∨
      status.succeeded = false ∧ status.error = errorMoreData ∧ more = true) := by
  unfold classifyRead at h
  split_ifs at h with htimeout hactual hsucceeded hmore
  · cases (classifyTimeout_ok h).1
  · cases h
    exact ⟨not_not.mp hactual, .inl ⟨hsucceeded, rfl⟩⟩
  · cases h
    exact ⟨not_not.mp hactual, .inr ⟨by simpa using hsucceeded, hmore, rfl⟩⟩

section Device

variable {D : Type} {dev : PipeDevice D} {json : JsonCodec Value} {d d' : D} {bytes : List UInt8}

theorem filledBuffer_eq {size : ℕ} (h : bytes.length = size) : filledBuffer size bytes = bytes := by
  rw [filledBuffer, ← h, List.take_length, Nat.sub_self, List.replicate_zero, List.append_nil]

theorem readMessagePart_ok {size : ℕ} {stage : ReadStage} (hsize : size ≠ 0) {outcome : ReadOutcome}
    (h : readMessagePart dev d size stage = (.ok outcome, bytes, d')) :
    ∃ status, dev.read d size = (.ok status, bytes, d') ∧
      classifyRead status size stage = .ok outcome := by
  unfold readMessagePart at h
  rw [if_neg hsize] at h
  generalize dev.read d size = answer at h ⊢
  obtain ⟨status, copied, next⟩ := answer
  cases status with
  | error e => cases h
  | ok status =>
    obtain ⟨hclassify, hrest⟩ := Prod.mk.inj h
    exact ⟨status, by rw [hrest], hclassify⟩

/-- A complete part is taken from the message in front, with bytes left if it says so. -/
theorem readMessagePart_complete (hdev : dev.Lawful) {size : ℕ} (hsize : size ≠ 0) {stage : ReadStage}
    {more : Bool} (h : readMessagePart dev d size stage = (.ok (.complete more), bytes, d')) :
    bytes.length = size ∧ ∃ arrived, Draws (dev.unread d ++ arrived) bytes more (dev.unread d') := by
  obtain ⟨status, hread, hclassify⟩ := readMessagePart_ok hsize h
  obtain ⟨hactual, hmore⟩ := classifyRead_complete hclassify
  obtain ⟨hcopied, arrived, ⟨-, hnone, -⟩ | ⟨left, hdraws, -, hwhole, hpart⟩⟩ :=
    hdev.read _ _ _ _ _ hread
  · rw [hactual, hnone] at hcopied
    exact absurd hcopied hsize
  · refine ⟨hcopied.symm.trans hactual, arrived, ?_⟩
    rcases hmore with ⟨hsucceeded, rfl⟩ | ⟨hfailed, herror, rfl⟩
    · rw [hwhole hsucceeded] at hdraws
      exact hdraws
    · rw [hpart hfailed herror] at hdraws
      exact hdraws

/-- A clean timeout leaves the messages alone. -/
theorem readMessagePart_cleanTimeout (hdev : dev.Lawful) {size : ℕ} (hsize : size ≠ 0)
    {stage : ReadStage} (h : readMessagePart dev d size stage = (.ok .cleanTimeout, bytes, d')) :
    ∃ arrived, dev.unread d' = dev.unread d ++ arrived := by
  obtain ⟨status, hread, hclassify⟩ := readMessagePart_ok hsize h
  obtain ⟨hactual, hfailed⟩ := classifyRead_cleanTimeout hclassify
  obtain ⟨hcopied, arrived, ⟨-, -, hsame⟩ | ⟨left, -, hsome, -, -⟩⟩ := hdev.read _ _ _ _ _ hread
  · exact ⟨arrived, hsame⟩
  · rw [hactual] at hcopied
    rcases hsome with hbytes | hsucceeded
    · exact absurd (List.eq_nil_of_length_eq_zero hcopied.symm) hbytes
    · rw [hfailed] at hsucceeded
      cases hsucceeded

theorem declaredBodyLength_ok {length : List UInt8} {more : Bool} {body : ℕ}
    (h : declaredBodyLength length more = .ok body) : body = 0 ∧ more = false ∨ body ≠ 0 ∧ more = true := by
  unfold declaredBodyLength hasExpectedBoundary at h
  simp only [except_bind_ok_iff, rejectIf_ok_iff, exists_const, Bool.not_eq_false] at h
  obtain ⟨-, hboundary, hbody⟩ := h
  rw [Except.ok.inj hbody] at hboundary
  cases more with
  | false => exact .inl ⟨by simpa using hboundary, rfl⟩
  | true => exact .inr ⟨by simpa using hboundary, rfl⟩

/-- The frame is the message in front, behind the length that was read from it. -/
theorem readDeclaredBody_ok (hdev : dev.Lawful) {length frame : List UInt8} {body : ℕ}
    {pipe : List (List UInt8)} {more : Bool} (hdraws : Draws pipe length more (dev.unread d))
    (hboundary : body = 0 ∧ more = false ∨ body ≠ 0 ∧ more = true)
    (h : readDeclaredBody dev d length body = (.ok frame, d')) :
    ∃ arrived, pipe ++ arrived = frame :: dev.unread d' := by
  unfold readDeclaredBody at h
  rcases hboundary with ⟨hempty, rfl⟩ | ⟨hbody, rfl⟩
  · rw [if_pos hempty] at h
    cases h
    exact ⟨[], (List.append_nil pipe).trans hdraws.eq_cons⟩
  · rw [if_neg hbody] at h
    split at h
    · cases h
    · rename_i bytes next hpart
      cases h
      obtain ⟨hlength, arrived, hrest⟩ := readMessagePart_complete hdev hbody hpart
      rw [filledBuffer_eq hlength]
      exact ⟨arrived, hdraws.finish hrest⟩
    · cases h
    · cases h

/-- What `receive_message` consumes: one whole message, which is the frame, or nothing. -/
theorem receiveMessage_spec (hdev : dev.Lawful) {result : Option (List UInt8)}
    (h : receiveMessage dev json d = (.ok result, d')) :
    match result with
    | some frame => ∃ arrived, dev.unread d ++ arrived = frame :: dev.unread d'
    | none => ∃ arrived, dev.unread d' = dev.unread d ++ arrived := by
  unfold receiveMessage at h
  split at h
  · cases h
  · rename_i bytes next hpart
    cases h
    exact readMessagePart_cleanTimeout hdev (by decide) hpart
  rename_i more bytes next hpart
  obtain ⟨hlength, arrived, hdraws⟩ := readMessagePart_complete hdev (by decide) hpart
  rw [filledBuffer_eq hlength] at h
  split at h
  · cases h
  rename_i body hbody
  split at h
  · cases h
  rename_i frame last hframe
  split at h
  · cases h
  cases h
  obtain ⟨arrived', hmessage⟩ := readDeclaredBody_ok hdev hdraws (declaredBodyLength_ok hbody) hframe
  exact ⟨arrived ++ arrived', by rw [← List.append_assoc]; exact hmessage⟩

/-! ## Poisoned connections -/

/-- A poisoned connection fails and does not touch the pipe. -/
theorem NamedPipeClient.call_poisoned {client : NamedPipeClient D} (h : client.poisoned = true)
    (call : PipeCall) : client.call dev json call = (true, client) := by
  have hunusable : ∃ e, client.requireUsable = .error e := by
    unfold NamedPipeClient.requireUsable rejectIf failIf
    rw [if_pos h]
    exact ⟨_, rfl⟩
  obtain ⟨e, hunusable⟩ := hunusable
  cases call with
  | receive =>
    unfold NamedPipeClient.call NamedPipeClient.receiveTimeout
    rw [hunusable]
    rfl
  | send frame =>
    unfold NamedPipeClient.call NamedPipeClient.sendTimeout
    dsimp only
    split
    · rfl
    · rename_i hchecked
      simp only [except_bind_ok_iff, hunusable, reduceCtorEq, and_false, exists_false] at hchecked

theorem NamedPipeClient.calls_poisoned {client : NamedPipeClient D} (h : client.poisoned = true)
    (calls : List PipeCall) :
    client.calls dev json calls = (List.replicate calls.length true, client) := by
  induction calls with
  | nil => rfl
  | cons call calls ih =>
    rw [NamedPipeClient.calls, NamedPipeClient.call_poisoned h call]
    dsimp only
    rw [ih]
    rfl

/-- An error of `receive_timeout` poisons the connection. -/
theorem NamedPipeClient.receiveTimeout_error {client client' : NamedPipeClient D} {e : PlatformError}
    (h : client.receiveTimeout dev json = (.error e, client')) : client'.poisoned = true := by
  unfold NamedPipeClient.receiveTimeout at h
  split at h
  · rename_i hunusable
    cases h
    by_contra husable
    have hok : client.requireUsable = .ok () := rejectIf_ok_iff.mpr husable
    rw [hok] at hunusable
    cases hunusable
  · unfold NamedPipeClient.settle at h
    split at h
    · cases h
    · cases h
      rfl

/-- The results of `receive_timeout` are those of `receive_message`. -/
theorem NamedPipeClient.receiveTimeout_ok {client client' : NamedPipeClient D}
    {result : Option (List UInt8)} (h : client.receiveTimeout dev json = (.ok result, client')) :
    receiveMessage dev json client.device = (.ok result, client'.device) := by
  unfold NamedPipeClient.receiveTimeout at h
  split at h
  · cases h
  · unfold NamedPipeClient.settle at h
    split at h
    · rename_i value next hreceive
      cases h
      exact hreceive
    · cases h

end Device

/-- The framing of the broker. A byte string is a frame if and only if it is a length of at most
    `MAX_FRAME_BYTES` in four big-endian bytes and as many bytes; a value whose JSON is not longer comes
    back from its frame, and no frame of a value is a proper prefix of another. `receive_timeout` returns
    a frame only when it consumed one whole message, which is the frame, and nothing only when it
    consumed nothing; every other outcome is an error behind which all calls fail and leave the pipe
    alone. -/
theorem brokerFraming_faithful {T D : Type} {json : JsonCodec T}
    (hjson : ∀ value body, json.toVec value = .ok body → json.fromSlice body = .ok value)
    {dev : PipeDevice D} (hdev : dev.Lawful) (values : JsonCodec Value) :
    (∀ frame, (∃ body, boundedBody frame = .ok body) ↔
      ∃ n body, n ≤ maxFrameBytes ∧ body.length = n ∧ frame = toBeBytes 4 n ++ body) ∧
    (∀ value body, json.toVec value = .ok body → body.length ≤ maxFrameBytes →
      ∃ frame, FrameCodec.encode json value = .ok frame ∧ FrameCodec.decode json frame = .ok value) ∧
    (∀ value value' frame frame', FrameCodec.encode json value = .ok frame →
      FrameCodec.encode json value' = .ok frame' → frame <+: frame' → frame = frame') ∧
    ∀ client : NamedPipeClient D,
      (∀ frame client', client.receiveTimeout dev values = (.ok (some frame), client') →
        ∃ arrived, dev.unread client.device ++ arrived = frame :: dev.unread client'.device) ∧
      (∀ client', client.receiveTimeout dev values = (.ok none, client') →
        ∃ arrived, dev.unread client'.device = dev.unread client.device ++ arrived) ∧
      ∀ e client', client.receiveTimeout dev values = (.error e, client') →
        client'.poisoned = true ∧ ∀ calls,
          client'.calls dev values calls = (List.replicate calls.length true, client') := by
  refine ⟨?_, ?_, fun _ _ _ _ h h' => encode_prefix_free h h', ?_⟩
  · intro frame
    constructor
    · rintro ⟨body, hbody⟩
      obtain ⟨hbound, hframe⟩ := boundedBody_ok_iff.mp hbody
      exact ⟨body.length, body, hbound, rfl, hframe⟩
    · rintro ⟨n, body, hbound, rfl, hframe⟩
      exact ⟨body, boundedBody_ok_iff.mpr ⟨hbound, hframe⟩⟩
  · intro value body hvec hbound
    have hencode := FrameCodec.encode_ok_iff.mpr ⟨body, hvec, hbound, rfl⟩
    exact ⟨_, hencode, FrameCodec.decode_encode (hjson value) hencode⟩
  · intro client
    refine ⟨?_, ?_, ?_⟩
    · intro frame client' h
      exact receiveMessage_spec hdev (NamedPipeClient.receiveTimeout_ok h)
    · intro client' h
      exact receiveMessage_spec hdev (NamedPipeClient.receiveTimeout_ok h)
    · intro e client' h
      have hpoisoned := NamedPipeClient.receiveTimeout_error h
      exact ⟨hpoisoned, NamedPipeClient.calls_poisoned hpoisoned⟩

/-- A pipe that answers at once, for examples. -/
def sampleDevice : PipeDevice (List (List UInt8)) where
  unread := id
  read := fun pipe size =>
    match pipe with
    | [] => (.ok ⟨false, errorOperationAborted, 0, true⟩, [], [])
    | message :: rest =>
      if message.length ≤ size then (.ok ⟨true, 0, message.length, false⟩, message, rest)
      else (.ok ⟨false, errorMoreData, size, false⟩, message.take size, message.drop size :: rest)
  write := fun pipe bytes => (.ok ⟨true, 0, bytes.length, false⟩, pipe)

theorem sampleDevice_lawful : sampleDevice.Lawful where
  read := by
    intro pipe size status bytes pipe' h
    cases pipe with
    | nil =>
      cases h
      exact ⟨rfl, [], .inl ⟨rfl, rfl, rfl⟩⟩
    | cons message rest =>
      simp only [sampleDevice] at h
      split_ifs at h with hfits
      · cases h
        refine ⟨rfl, [], .inr ⟨false, ?_, .inr rfl, fun _ => rfl, fun hfailed => by cases hfailed⟩⟩
        rw [List.append_nil]
        exact .whole bytes pipe'
      · cases h
        rw [not_le] at hfits
        refine ⟨(List.length_take_of_le hfits.le).symm, [], ?_⟩
        rw [List.append_nil]
        cases size with
        | zero => exact .inl ⟨rfl, rfl, rfl⟩
        | succ size =>
          refine .inr ⟨true, ?_, .inl ?_, (fun hsucceeded => by cases hsucceeded), fun _ _ => rfl⟩
          · have hdraws := Draws.part (message.take (size + 1)) (message.drop (size + 1)) rest
              (by rw [Ne, List.drop_eq_nil_iff, not_le]; exact hfits)
            rw [List.take_append_drop] at hdraws
            exact hdraws
          · rw [Ne, List.take_eq_nil_iff]
            rintro (hzero | hempty)
            · cases hzero
            · rw [hempty] at hfits
              cases hfits

/-- The JSON of the empty object, for examples. -/
def sampleJson : JsonCodec Value where
  toVec := fun value =>
    match value with
    | .object [] => .ok [0x7b, 0x7d]
    | _ => .error "not the empty object"
  fromSlice := fun bytes =>
    if bytes = [0x7b, 0x7d] then .ok (.object []) else .error "expected value"

/-- A frame and a message that is too long for its length field. -/
theorem brokerFraming_faithful_sample :
    FrameCodec.encode sampleJson (.object []) = .ok [0, 0, 0, 2, 0x7b, 0x7d] ∧
    FrameCodec.decode sampleJson [0, 0, 0, 2, 0x7b, 0x7d] = .ok (.object []) ∧
    ∃ client, NamedPipeClient.receiveTimeout sampleDevice sampleJson
        ⟨[[0, 0, 0, 2, 0x7b, 0x7d], [0, 0, 0, 1, 0x7b, 0x7d]], false⟩ =
        (.ok (some [0, 0, 0, 2, 0x7b, 0x7d]), client) ∧
      client.device = [[0, 0, 0, 1, 0x7b, 0x7d]] ∧
      ∃ e client', client.receiveTimeout sampleDevice sampleJson = (.error e, client') ∧
        client'.calls sampleDevice sampleJson [.receive, .send [0, 0, 0, 2, 0x7b, 0x7d]] =
          ([true, true], client') := by
  have hjson : ∀ value body, sampleJson.toVec value = .ok body →
      sampleJson.fromSlice body = .ok value := by
    intro value body h
    simp only [sampleJson] at h ⊢
    split at h
    · cases h
      rfl
    · cases h
  obtain ⟨-, hround, -, hreader⟩ := brokerFraming_faithful hjson sampleDevice_lawful sampleJson
  have hencode : FrameCodec.encode sampleJson (.object []) = .ok [0, 0, 0, 2, 0x7b, 0x7d] := by
    decide +kernel
  obtain ⟨frame, hframe, hdecode⟩ := hround (.object []) [0x7b, 0x7d] rfl (by decide)
  obtain rfl := Except.ok.inj (hencode.symm.trans hframe)
  refine ⟨hencode, hdecode, _, rfl, rfl, _, _, rfl, ?_⟩
  exact ((hreader ⟨[[0, 0, 0, 1, 0x7b, 0x7d]], false⟩).2.2 _ _ rfl).2 _

end BaselineOps.Windows
