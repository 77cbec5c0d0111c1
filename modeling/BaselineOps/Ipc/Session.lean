import Mathlib
import BaselineOps.Ipc.Control
import BaselineOps.Lib.TopologicalOrder

/-!
# Safety of the control session

Any sequence of calls on an `ApprovalControl`, at any times from its creation on. The capacity of the
cache (128), the quota (127) and the equal lifetimes of nonces and session fit together: the cache
holds the nonces of the approval and of all messages that passed, from the first to the last.

* `Session.step`: one call keeps the invariant.
* `approvalControl_session_safe`: what holds of a whole session.
-/

namespace BaselineOps.Windows

open BaselineOps.Domain BaselineOps.Lib

/-! ## Sessions -/

/-- A call with its message and time. -/
inductive ControlCall where
  | acceptCancellation (message : BrokerMessage) (now : ℕ)
  | acceptWorkerMessage (message : BrokerMessage) (now : ℕ)

/-- The message that a call was given. -/
def ControlCall.message : ControlCall → BrokerMessage
  | .acceptCancellation message _ => message
  | .acceptWorkerMessage message _ => message

/-- The time that a call was given. -/
def ControlCall.now : ControlCall → ℕ
  | .acceptCancellation _ now => now
  | .acceptWorkerMessage _ now => now

/-- The calls that take a cancellation. -/
def ControlCall.isCancellation : ControlCall → Bool
  | .acceptCancellation _ _ => true
  | .acceptWorkerMessage _ _ => false

/-- What a call returned: whether its envelope was accepted, and whether the call succeeded. -/
structure ControlEvent where
  call : ControlCall
  passed : Bool
  succeeded : Bool

/-- An accepted cancellation. -/
def ControlEvent.cancels (e : ControlEvent) : Bool := e.succeeded && e.call.isCancellation

/-- An accepted final result. -/
def ControlEvent.terminates (e : ControlEvent) : Bool :=
  e.succeeded && !e.call.isCancellation && e.call.message.kind == "plan.result"

/-- Whether a result is a success. -/
def succeeds {ε α : Type} : Except ε α → Bool
  | .ok _ => true
  | .error _ => false

/-- One call: what it returned, and the session afterwards. -/
def ApprovalControl.call (fromValue : Value → Except String WorkerProgress)
    (control : ApprovalControl) (call : ControlCall) : ControlEvent × ApprovalControl :=
  let passed := succeeds (control.acceptEnvelope call.message call.now).1
  match call with
  | .acceptCancellation message now =>
    let result := control.acceptCancellation message now
    (⟨call, passed, succeeds result.1⟩, result.2)
  | .acceptWorkerMessage message now =>
    let result := control.acceptWorkerMessage fromValue message now
    (⟨call, passed, succeeds result.1⟩, result.2)

/-- A sequence of calls. -/
def ApprovalControl.run (fromValue : Value → Except String WorkerProgress) (control : ApprovalControl)
    (calls : List ControlCall) : List ControlEvent × ApprovalControl :=
  calls.foldl (fun state call =>
    let next := state.2.call fromValue call
    (state.1 ++ [next.1], next.2)) ([], control)

/-! ## The invariant -/

/-- The nonces of the events that passed, with their times. -/
def passedNonces (history : List ControlEvent) : List (String × ℕ) :=
  (history.filter ControlEvent.passed).map fun e => (e.call.message.nonce, e.call.now)

/-- What an event may be after the events before it. -/
structure EventSpec (approval : BrokerMessage) (start : ℕ) (before : List ControlEvent)
    (e : ControlEvent) : Prop where
  passed : e.succeeded = true → e.passed = true
  binding : e.passed = true →
    e.call.message.binding = { approval.binding with replyTo := some approval.nonce }
  time : e.passed = true → start ≤ e.call.now ∧ e.call.now < start + controlLifetime
  beforeResult : e.passed = true → ∀ b ∈ before, b.terminates = false
  once : e.cancels = true → ∀ b ∈ before, b.cancels = false

/-- The session after a history of calls. -/
structure Session (approval : BrokerMessage) (start : ℕ) (history : List ControlEvent)
    (control : ApprovalControl) : Prop where
  binding : control.binding = { approval.binding with replyTo := some approval.nonce }
  deadline : control.deadline = start + controlLifetime
  ttl : control.seen.ttl = controlLifetime
  capacity : control.seen.capacity = 128
  holds : ReplayCache.Holds control.seen.order control.seen.seen
    ((approval.nonce, start) :: passedNonces history)
  received : control.received = (passedNonces history).length
  quota : (passedNonces history).length ≤ 127
  cancelled : control.cancellationSeen = history.any ControlEvent.cancels
  terminated : control.terminalSeen = history.any ControlEvent.terminates
  events : EachNext (EventSpec approval start) history

section Step

variable {approval : BrokerMessage} {start : ℕ} {history : List ControlEvent}
  {control : ApprovalControl}

/-- A new session. -/
theorem session_new (h : ApprovalControl.new approval start = .ok control) :
    Session approval start [] control := by
  unfold ApprovalControl.new at h
  simp only [except_bind_ok_iff, rejectIf_ok_iff, not_not] at h
  obtain ⟨_, hvalid, _, -, seen, hseen, _, haccept, hcontrol⟩ := h
  obtain rfl := Except.ok.inj hcontrol
  have hnonce := (BrokerMessage.validate_ok hvalid).1
  have hnew : ReplayNonceCache.new controlLifetime 128 =
      .ok ⟨controlLifetime, 128, ∅, [], by decide, by decide⟩ := rfl
  obtain rfl := Except.ok.inj (hnew.symm.trans hseen)
  have hcache : ((⟨controlLifetime, 128, ∅, [], by decide, by decide⟩ : ReplayNonceCache).accept
      approval.nonce start).2 = ⟨controlLifetime, 128, AList.insert approval.nonce start ∅,
        [approval.nonce], by decide, by decide⟩ := by
    unfold ReplayNonceCache.accept
    rw [if_neg (by rw [hnonce]; decide)]
    rfl
  have hholds : ReplayCache.Holds [approval.nonce] (AList.insert approval.nonce start ∅)
      [(approval.nonce, start)] :=
    ReplayCache.holds_empty.push (by simp) start
  refine ⟨rfl, rfl, ?_, ?_, ?_, rfl, by decide, rfl, rfl, eachNext_nil⟩
  all_goals
    dsimp only
    rw [hcache]
  exact hholds

/-- Accepting a nonce while all nonces are young and there is room: nothing is evicted. -/
theorem ReplayNonceCache.accept_eq {cache : ReplayNonceCache} {entries : List (String × ℕ)}
    (h : ReplayCache.Holds cache.order cache.seen entries) {now : ℕ}
    (hyoung : ∀ entry ∈ entries, now - entry.2 < cache.ttl)
    (hroom : cache.order.length < cache.capacity) (nonce : String) :
    cache.accept nonce now =
      if ¬ validNonce nonce then
        (.error (.protocolRejected "nonce is not bounded hexadecimal"), cache)
      else if nonce ∈ cache.seen then (.error .replayDetected, cache)
      else (.ok (), { cache with
        seen := cache.seen.insert nonce now, order := cache.order ++ [nonce] }) := by
  have hexpired : cache.evictExpired now = cache := by
    unfold ReplayNonceCache.evictExpired
    rw [ReplayCache.evictExpired_of_young h hyoung]
  have hcapacity : cache.evictCapacity = cache := by
    unfold ReplayNonceCache.evictCapacity
    rw [ReplayCache.evictCapacity_of_room hroom]
  unfold ReplayNonceCache.accept
  dsimp only
  rw [hexpired, hcapacity]

/-- The session with one more message accepted. -/
def ApprovalControl.receive (control : ApprovalControl) (nonce : String) (now : ℕ) :
    ApprovalControl :=
  { control with
    seen := { control.seen with
      seen := control.seen.seen.insert nonce now
      order := control.seen.order ++ [nonce] }
    received := control.received + 1 }

/-- The inversion of the checks before the nonce. -/
theorem checkEnvelope_ok {message : BrokerMessage} {now : ℕ}
    (h : control.checkEnvelope message now = .ok ()) :
    message.binding = control.binding ∧ control.terminalSeen = false ∧ now < control.deadline ∧
      control.received < 127 := by
  unfold ApprovalControl.checkEnvelope at h
  simp only [except_bind_ok_iff, rejectIf_ok_iff, not_or, not_le, Bool.not_eq_true] at h
  obtain ⟨_, -, _, hbinding, hterminal, hnow, hquota⟩ := h
  refine ⟨?_, hterminal, hnow, hquota⟩
  rw [BrokerBinding.requireReplyTo_ok hbinding, Option.some_get]

/-- Before the deadline every nonce of the session is younger than the cache's bound: all were accepted
    at `start` or later. -/
theorem Session.young (h : Session approval start history control) {now : ℕ}
    (hdeadline : now < start + controlLifetime) :
    ∀ entry ∈ (approval.nonce, start) :: passedNonces history, now - entry.2 < control.seen.ttl := by
  intro entry hentry
  have htime : start ≤ entry.2 := by
    rcases List.mem_cons.mp hentry with rfl | hentry
    · exact le_refl start
    · obtain ⟨e, he, rfl⟩ := List.mem_map.mp hentry
      obtain ⟨hmem, hpassed⟩ := List.mem_filter.mp he
      obtain ⟨before, after, hsplit⟩ := List.append_of_mem hmem
      exact ((h.events before e after hsplit).time hpassed).1
  have hpos : 0 < controlLifetime := by decide
  rw [h.ttl]
  omega

theorem Session.room (h : Session approval start history control) (hquota : control.received < 127) :
    control.seen.order.length < control.seen.capacity := by
  rw [h.holds.order, h.capacity, List.length_map, List.length_cons, ← h.received]
  omega

/-- One envelope: it is rejected and nothing changes, or its nonce is new and is remembered. -/
theorem Session.acceptEnvelope (h : Session approval start history control) (now : ℕ)
    (message : BrokerMessage) :
    (∃ e, control.acceptEnvelope message now = (.error e, control)) ∨
      control.acceptEnvelope message now = (.ok (), control.receive message.nonce now) ∧
        message.binding = control.binding ∧ control.terminalSeen = false ∧
        now < start + controlLifetime ∧ control.received < 127 ∧
        message.nonce ∉ control.seen.seen := by
  unfold ApprovalControl.acceptEnvelope
  cases hcheck : control.checkEnvelope message now with
  | error e => exact .inl ⟨e, rfl⟩
  | ok u =>
    obtain ⟨hbinding, hterminal, hdeadline, hquota⟩ := checkEnvelope_ok hcheck
    rw [h.deadline] at hdeadline
    dsimp only
    rw [ReplayNonceCache.accept_eq h.holds (h.young hdeadline) (h.room hquota)]
    split_ifs with hvalid hseen
    · exact .inl ⟨_, rfl⟩
    · exact .inr ⟨rfl, hbinding, hterminal, hdeadline, hquota, hseen⟩
    · exact .inl ⟨_, rfl⟩

/-- A valid, bound and fresh envelope passes while the session is open. -/
theorem Session.acceptEnvelope_fresh (h : Session approval start history control)
    {message : BrokerMessage} {now : ℕ} (hvalid : message.validate = .ok ())
    (hbinding : message.binding = control.binding) (hopen : control.terminalSeen = false)
    (hdeadline : now < start + controlLifetime) (hquota : control.received < 127)
    (hnew : message.nonce ∉ control.seen.seen) :
    control.acceptEnvelope message now = (.ok (), control.receive message.nonce now) := by
  obtain ⟨hnonce, hbound⟩ := BrokerMessage.validate_ok hvalid
  have hcheck : control.checkEnvelope message now = .ok () := by
    unfold ApprovalControl.checkEnvelope BrokerBinding.requireReplyTo
      BrokerBinding.MatchesActiveExchange
    simp only [except_bind_ok_iff, rejectIf_ok_iff, not_or, not_not, not_le]
    refine ⟨(), hvalid, (), ⟨(), hbound, ?_, ?_⟩, by simpa using hopen, ?_, hquota⟩
    · rw [hbinding]
      exact ⟨rfl, rfl, rfl⟩
    · rw [hbinding, Option.some_get]
    · rw [h.deadline]
      exact hdeadline
  unfold ApprovalControl.acceptEnvelope
  rw [hcheck]
  dsimp only
  rw [ReplayNonceCache.accept_eq h.holds (h.young hdeadline) (h.room hquota),
    if_neg (by rw [hnonce]; decide), if_neg hnew]
  rfl

/-- A rejected envelope keeps the session. -/
theorem Session.reject (h : Session approval start history control) {e : ControlEvent}
    (hpassed : e.passed = false) (hsucceeded : e.succeeded = false) :
    Session approval start (history ++ [e]) control := by
  have hnonces : passedNonces (history ++ [e]) = passedNonces history := by
    rw [passedNonces, List.filter_append, List.filter_cons_of_neg (by simp [hpassed]),
      List.filter_nil, List.append_nil, ← passedNonces]
  have hcancels : e.cancels = false := by simp [ControlEvent.cancels, hsucceeded]
  have hterminates : e.terminates = false := by simp [ControlEvent.terminates, hsucceeded]
  refine ⟨h.binding, h.deadline, h.ttl, h.capacity, ?_, ?_, ?_, ?_, ?_, ?_⟩
  · rw [hnonces]
    exact h.holds
  · rw [hnonces]
    exact h.received
  · rw [hnonces]
    exact h.quota
  · rw [List.any_append, ← h.cancelled]
    simp [hcancels]
  · rw [List.any_append, ← h.terminated]
    simp [hterminates]
  · apply eachNext_concat h.events
    constructor
    · simp [hsucceeded]
    · simp [hpassed]
    · simp [hpassed]
    · simp [hpassed]
    · simp [hcancels]

/-- An accepted envelope is recorded. -/
theorem Session.pass (h : Session approval start history control) {e : ControlEvent}
    (hpassed : e.passed = true) (hspec : EventSpec approval start history e)
    (hnew : e.call.message.nonce ∉ control.seen.seen) (hquota : control.received < 127)
    {cancelled terminated : Bool} (hcancelled : cancelled = (control.cancellationSeen || e.cancels))
    (hterminated : terminated = (control.terminalSeen || e.terminates)) :
    Session approval start (history ++ [e])
      { control.receive e.call.message.nonce e.call.now with
        cancellationSeen := cancelled, terminalSeen := terminated } := by
  have hnonces : passedNonces (history ++ [e]) =
      passedNonces history ++ [(e.call.message.nonce, e.call.now)] := by
    rw [passedNonces, List.filter_append, List.filter_cons_of_pos hpassed, List.filter_nil,
      List.map_append, ← passedNonces, List.map_cons, List.map_nil]
  refine ⟨h.binding, h.deadline, h.ttl, h.capacity, ?_, ?_, ?_, ?_, ?_, ?_⟩
  · rw [hnonces, ← List.cons_append]
    exact h.holds.push hnew e.call.now
  · rw [hnonces, List.length_append, ← h.received]
    rfl
  · rw [hnonces, List.length_append, ← h.received, List.length_singleton]
    omega
  · rw [List.any_append, ← h.cancelled, hcancelled]
    simp
  · rw [List.any_append, ← h.terminated, hterminated]
    simp
  · exact eachNext_concat h.events hspec

/-- Calls on a rejected envelope. -/
theorem call_of_rejected (fromValue : Value → Except String WorkerProgress) {call : ControlCall}
    {error : PlatformError}
    (h : control.acceptEnvelope call.message call.now = (.error error, control)) :
    control.call fromValue call = (⟨call, false, false⟩, control) := by
  cases call with
  | acceptCancellation message now =>
    have hcall : control.acceptEnvelope message now = (.error error, control) := h
    simp only [ApprovalControl.call, ApprovalControl.acceptCancellation, ControlCall.message,
      ControlCall.now, hcall, succeeds]
  | acceptWorkerMessage message now =>
    have hcall : control.acceptEnvelope message now = (.error error, control) := h
    simp only [ApprovalControl.call, ApprovalControl.acceptWorkerMessage, ControlCall.message,
      ControlCall.now, hcall, succeeds]

/-- Calls on an accepted envelope: the flags of the session record what was accepted. -/
theorem call_of_accepted (fromValue : Value → Except String WorkerProgress) {call : ControlCall}
    {next : ApprovalControl}
    (h : control.acceptEnvelope call.message call.now = (.ok (), next)) :
    ∃ succeeded, control.call fromValue call = (⟨call, true, succeeded⟩, { next with
        cancellationSeen := next.cancellationSeen || (⟨call, true, succeeded⟩ : ControlEvent).cancels
        terminalSeen := next.terminalSeen || (⟨call, true, succeeded⟩ : ControlEvent).terminates }) ∧
      ((⟨call, true, succeeded⟩ : ControlEvent).cancels = true → next.cancellationSeen = false) := by
  cases call with
  | acceptCancellation message now =>
    have hcall : control.acceptEnvelope message now = (.ok (), next) := h
    simp only [ApprovalControl.call, ApprovalControl.acceptCancellation, ControlCall.message,
      ControlCall.now, hcall]
    split_ifs with hkind
    · refine ⟨false, ?_, ?_⟩
      · simp [succeeds, ControlEvent.cancels, ControlEvent.terminates]
      · simp [ControlEvent.cancels]
    · refine ⟨true, ?_, ?_⟩
      · simp [succeeds, ControlEvent.cancels, ControlEvent.terminates, ControlCall.isCancellation]
      · intro _
        simp only [not_or, Bool.not_eq_true] at hkind
        exact hkind.2.2
  | acceptWorkerMessage message now =>
    have hcall : control.acceptEnvelope message now = (.ok (), next) := h
    simp only [ApprovalControl.call, ApprovalControl.acceptWorkerMessage, ControlCall.message,
      ControlCall.now, hcall]
    split_ifs with hprogress hresult
    · refine ⟨succeeds (readProgress fromValue message.payload), ?_, ?_⟩
      · cases readProgress fromValue message.payload <;>
          simp [succeeds, ControlEvent.cancels, ControlEvent.terminates, ControlCall.isCancellation,
            ControlCall.message, hprogress, Except.map]
      · simp [ControlEvent.cancels, ControlCall.isCancellation]
    · refine ⟨true, ?_, ?_⟩
      · simp [succeeds, ControlEvent.cancels, ControlEvent.terminates, ControlCall.isCancellation,
          ControlCall.message, hresult]
      · simp [ControlEvent.cancels, ControlCall.isCancellation]
    · refine ⟨false, ?_, ?_⟩
      · simp [succeeds, ControlEvent.cancels, ControlEvent.terminates]
      · simp [ControlEvent.cancels]

/-- One call keeps the invariant. -/
theorem Session.step (h : Session approval start history control)
    (fromValue : Value → Except String WorkerProgress) {call : ControlCall}
    (hnow : start ≤ call.now) :
    Session approval start (history ++ [(control.call fromValue call).1])
      (control.call fromValue call).2 := by
  rcases h.acceptEnvelope call.now call.message with
    ⟨error, henvelope⟩ | ⟨henvelope, hbinding, hterminal, hdeadline, hquota, hnew⟩
  · rw [call_of_rejected fromValue henvelope]
    exact h.reject rfl rfl
  · obtain ⟨succeeded, hcall, hfirst⟩ := call_of_accepted fromValue henvelope
    rw [hcall]
    refine h.pass rfl ?_ hnew hquota rfl rfl
    constructor
    · exact fun _ => rfl
    · exact fun _ => hbinding.trans h.binding
    · exact fun _ => ⟨hnow, hdeadline⟩
    · intro _ b hb
      rw [h.terminated, List.any_eq_false] at hterminal
      simpa using hterminal b hb
    · intro hcancels b hb
      have hseen : control.cancellationSeen = false := hfirst hcancels
      rw [h.cancelled, List.any_eq_false] at hseen
      simpa using hseen b hb

/-- A sequence of calls keeps the invariant. -/
theorem Session.run (h : ApprovalControl.new approval start = .ok control)
    (fromValue : Value → Except String WorkerProgress) {calls : List ControlCall}
    (hcalls : ∀ call ∈ calls, start ≤ call.now) :
    Session approval start (control.run fromValue calls).1 (control.run fromValue calls).2 := by
  unfold ApprovalControl.run
  induction calls using List.reverseRecOn with
  | nil => exact session_new h
  | append_singleton calls call ih =>
    rw [List.foldl_append]
    exact (ih fun c hc => hcalls c (by simp [hc])).step fromValue (hcalls call (by simp))

/-- The events of a run are those of its calls. -/
theorem map_call_run (fromValue : Value → Except String WorkerProgress) (calls : List ControlCall) :
    (control.run fromValue calls).1.map ControlEvent.call = calls := by
  unfold ApprovalControl.run
  induction calls using List.reverseRecOn with
  | nil => rfl
  | append_singleton calls call ih =>
    rw [List.foldl_append, List.foldl_cons, List.foldl_nil, List.map_append, ih]
    cases call <;> rfl

end Step

/-! ## Whole sessions -/

/-- The nonces of the events that `p` selects. -/
def noncesOf (p : ControlEvent → Bool) (events : List ControlEvent) : List String :=
  (events.filter p).map fun e => e.call.message.nonce

theorem Session.nodup {approval : BrokerMessage} {start : ℕ} {history : List ControlEvent}
    {control : ApprovalControl} (h : Session approval start history control) :
    (approval.nonce :: noncesOf ControlEvent.passed history).Nodup := by
  have hnodup := h.holds.nodup
  rw [List.map_cons, passedNonces, List.map_map] at hnodup
  exact hnodup

/-- At most one element of a list satisfies a predicate that excludes all earlier ones. -/
theorem length_filter_le_one {α : Type} {p : α → Bool} {l : List α}
    (h : EachNext (fun before x => p x = true → ∀ b ∈ before, p b = false) l) :
    (l.filter p).length ≤ 1 := by
  induction l using List.reverseRecOn with
  | nil => simp
  | append_singleton l x ih =>
    rw [List.filter_append, List.length_append]
    cases hx : p x with
    | false =>
      rw [List.filter_cons_of_neg (by simp [hx]), List.filter_nil]
      exact ih h.of_append
    | true =>
      have hnone : l.filter p = [] := by
        rw [List.filter_eq_nil_iff]
        intro b hb
        simp [h l x [] rfl hx b hb]
      rw [hnone, List.filter_cons_of_pos hx, List.filter_nil]
      rfl

/-- Safety of the control session, for every sequence of calls from the approval on: no nonce twice
    and never the approval's own, at most 127 messages, none at or behind the deadline or behind the
    result, at most one cancellation, all bound to the approval; the cache forgets no nonce. -/
theorem approvalControl_session_safe {approval : BrokerMessage} {start : ℕ}
    {control : ApprovalControl} (h : ApprovalControl.new approval start = .ok control)
    (fromValue : Value → Except String WorkerProgress) {calls : List ControlCall}
    (hcalls : ∀ call ∈ calls, start ≤ call.now) :
    ∃ events final, control.run fromValue calls = (events, final) ∧
      events.map ControlEvent.call = calls ∧
      (noncesOf ControlEvent.succeeded events).Nodup ∧
      approval.nonce ∉ noncesOf ControlEvent.succeeded events ∧
      (events.filter ControlEvent.passed).length ≤ 127 ∧
      (∀ e ∈ events, e.succeeded = true → e.passed = true ∧ e.call.now < start + controlLifetime) ∧
      (∀ before e after, events = before ++ e :: after → e.terminates = true →
        ∀ later ∈ after, later.succeeded = false) ∧
      (events.filter ControlEvent.cancels).length ≤ 1 ∧
      (∀ e ∈ events, e.succeeded = true →
        e.call.message.binding.sessionId = approval.binding.sessionId ∧
        e.call.message.binding.planId = approval.binding.planId ∧
        e.call.message.binding.planDigest = approval.binding.planDigest ∧
        e.call.message.binding.replyTo = some approval.nonce) ∧
      final.seen.order = approval.nonce :: noncesOf ControlEvent.passed events ∧
      ∀ nonce, nonce ∈ final.seen.seen ↔ nonce ∈ final.seen.order := by
  have hsession := Session.run h fromValue hcalls
  have hevents : (control.run fromValue calls).1.map ControlEvent.call = calls :=
    map_call_run fromValue calls
  generalize control.run fromValue calls = result at hsession hevents
  obtain ⟨events, final⟩ := result
  dsimp only at hsession hevents
  have hspec : ∀ e ∈ events, ∃ before, EventSpec approval start before e := by
    intro e he
    obtain ⟨before, after, hsplit⟩ := List.append_of_mem he
    exact ⟨before, hsession.events before e after hsplit⟩
  have hpassed : ∀ e ∈ events, e.succeeded = true → e.passed = true := by
    intro e he hsucceeded
    obtain ⟨before, hspec⟩ := hspec e he
    exact hspec.passed hsucceeded
  have hnonces := List.nodup_cons.mp hsession.nodup
  have hsublist : (noncesOf ControlEvent.succeeded events).Sublist
      (noncesOf ControlEvent.passed events) := by
    have hfilter : events.filter ControlEvent.succeeded =
        (events.filter ControlEvent.passed).filter ControlEvent.succeeded := by
      rw [List.filter_filter]
      apply List.filter_congr
      intro e he
      cases hsucceeded : e.succeeded with
      | false => rfl
      | true => rw [hpassed e he hsucceeded]; rfl
    rw [noncesOf, hfilter]
    exact List.filter_sublist.map _
  refine ⟨events, final, rfl, hevents, hnonces.2.sublist hsublist,
    fun hmem => hnonces.1 (hsublist.subset hmem), ?_, ?_, ?_, ?_, ?_, ?_, ?_⟩
  · have hquota := hsession.quota
    rwa [passedNonces, List.length_map] at hquota
  · intro e he hsucceeded
    obtain ⟨before, hspec⟩ := hspec e he
    exact ⟨hpassed e he hsucceeded, (hspec.time (hpassed e he hsucceeded)).2⟩
  · intro before e after hsplit hterminates later hlater
    obtain ⟨left, right, hafter⟩ := List.append_of_mem hlater
    rw [← Bool.not_eq_true]
    intro hsucceeded
    have hlaterSpec := hsession.events (before ++ e :: left) later right
      (by rw [hsplit, hafter, List.append_assoc, List.cons_append])
    have hopen := hlaterSpec.beforeResult (hlaterSpec.passed hsucceeded) e (by simp)
    rw [hterminates] at hopen
    cases hopen
  · exact length_filter_le_one (hsession.events.mono fun _ _ hspec => hspec.once)
  · intro e he hsucceeded
    obtain ⟨before, hspec⟩ := hspec e he
    rw [hspec.binding (hpassed e he hsucceeded)]
    exact ⟨rfl, rfl, rfl, rfl⟩
  · rw [hsession.holds.order, List.map_cons, passedNonces, List.map_map]
    rfl
  · intro nonce
    rw [hsession.holds.mem_iff, hsession.holds.order]

/-- An approval for examples. -/
def sampleApproval : BrokerMessage where
  version := 2
  binding := ⟨"1111", "plan",
    "2222222222222222222222222222222222222222222222222222222222222222", some "3333"⟩
  nonce := "4444"
  kind := "plan.approve"
  payload := .object []

/-- A message of the session that follows it. -/
def sampleReply (kind nonce : String) : BrokerMessage :=
  { sampleApproval with
    binding := { sampleApproval.binding with replyTo := some "4444" }, kind := kind, nonce := nonce }

/-- A cancellation, its replay, the nonce of the approval, and a cancellation after the deadline. -/
def sampleCalls : List ControlCall :=
  [.acceptCancellation (sampleReply "plan.cancel" "55") 1,
   .acceptCancellation (sampleReply "plan.cancel" "55") 2,
   .acceptWorkerMessage (sampleReply "plan.result" "4444") 3,
   .acceptCancellation (sampleReply "plan.cancel" "66") controlLifetime]

theorem approvalControl_session_safe_sample : ∃ control events final,
    ApprovalControl.new sampleApproval 0 = .ok control ∧
    control.run (fun _ => .error "") sampleCalls = (events, final) ∧
    events.map ControlEvent.succeeded = [true, false, false, false] ∧
    final.seen.order = ["4444", "55"] := by
  have hnew : ∃ control, ApprovalControl.new sampleApproval 0 = .ok control ∧
      (control.run (fun _ => .error "") sampleCalls).1.map ControlEvent.succeeded =
        [true, false, false, false] ∧
      (control.run (fun _ => .error "") sampleCalls).2.seen.order = ["4444", "55"] :=
    ⟨_, rfl, by decide +kernel, by decide +kernel⟩
  obtain ⟨control, hnew, hsucceeded, horder⟩ := hnew
  have hcalls : ∀ call ∈ sampleCalls, 0 ≤ call.now := by decide
  obtain ⟨events, final, hrun, -⟩ :=
    approvalControl_session_safe hnew (fun _ => .error "") hcalls
  rw [hrun] at hsucceeded horder
  exact ⟨control, events, final, hnew, hrun, hsucceeded, horder⟩

end BaselineOps.Windows
