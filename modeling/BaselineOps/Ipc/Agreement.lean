import Mathlib
import BaselineOps.Ipc.Exchange

/-!
# Agreement of the two ends

What holds of every run of the exchange, and what holds of the runs in which no cancellation of the
command line meets a closed pipe and the worker keeps to the command line's quota of 127 messages.

* `ExchangeInv.step`: what the worker sends, and what its token says.
* `CliInv.step`: the command line has accepted what was sent, in order, and waits for the rest.
* `exchange_agreement`: the two together over whole runs.
* `exchange_loses_result`: a cancellation that meets a closed pipe loses the result.
-/

namespace BaselineOps.Windows

open BaselineOps.Domain BaselineOps.Lib

/-! ## What the pump sends -/

/-- A progress that the command line accepts. -/
structure Exchange.Allows (x : Exchange) (progress : WorkerProgress) : Prop where
  valid : progress.validate = .ok ()
  action : progressActionBelongsToPlan progress.actionId x.actions = true

/-- A result of the approved run that can be read back. -/
def Exchange.ReadsBack (x : Exchange) (result : WorkerResultV3) : Prop :=
  result.runId = x.runId ∧ x.resultFromValue (x.resultToValue result) = .ok result

/-- A pump whose items and results are those of the approved plan. -/
structure PumpState.Within (x : Exchange) (pump : PumpState) : Prop where
  queue : ∀ item ∈ pump.queue, item.actionId ∈ x.actions
  slot : ∀ result, pump.slot = .ready (.ok result) → x.ReadsBack result
  binding : ∀ control place, pump.phase = .running control place →
    control.binding = x.approval.boundReply
  unsent : ∀ control place, pump.phase = .running control place →
    ∀ progress ∈ place.unsent, x.Allows progress
  finished : ∀ control place left result, pump.phase = .running control place →
    place.finished = some (left, .ok result) → x.ReadsBack result
  returned : ∀ result, pump.phase = .returned (.ok result) → x.ReadsBack result

theorem Exchange.allows_preparing (x : Exchange) : x.Allows .preparing := ⟨rfl, rfl⟩

theorem Exchange.allows_cancellationPending (x : Exchange) : x.Allows .cancellationPending :=
  ⟨rfl, rfl⟩

theorem Exchange.allows_toProgress {x : Exchange} {item : NativeActionProgress}
    (h : item.actionId ∈ x.actions) : x.Allows item.toProgress := by
  refine ⟨?_, ?_⟩
  · obtain ⟨action, phase⟩ := item
    cases phase <;> rfl
  · exact decide_eq_true h

section Pump

variable {x : Exchange} {pump : PumpState} {control : ApprovalControl} {answer : Answer}

theorem PumpState.Within.fail (h : pump.Within x) (e : ExchangeError) : (pump.fail e).Within x where
  queue := h.queue
  slot := h.slot
  binding := by
    intro control place hphase
    cases hphase
  unsent := by
    intro control place hphase
    cases hphase
  finished := by
    intro control place left result hphase
    cases hphase
  returned := by
    intro result hphase
    cases hphase

/-- The pump at a place. -/
theorem PumpState.Within.running (h : pump.Within x) {next : PumpState} {place : PumpPlace}
    (hphase : next.phase = .running control place) (hqueue : ∀ item ∈ next.queue, item ∈ pump.queue)
    (hslot : ∀ result, next.slot = .ready result → pump.slot = .ready result)
    (hbinding : control.binding = x.approval.boundReply)
    (hunsent : ∀ progress ∈ place.unsent, x.Allows progress)
    (hfinished : ∀ left result, place.finished = some (left, .ok result) → x.ReadsBack result) :
    next.Within x where
  queue := fun item hitem => h.queue item (hqueue item hitem)
  slot := fun result hready => h.slot result (hslot _ hready)
  binding := by
    intro control' place' hphase'
    rw [hphase] at hphase'
    cases hphase'
    exact hbinding
  unsent := by
    intro control' place' hphase'
    rw [hphase] at hphase'
    cases hphase'
    exact hunsent
  finished := by
    intro control' place' left result hphase'
    rw [hphase] at hphase'
    cases hphase'
    exact hfinished left result
  returned := by
    intro result hphase'
    rw [hphase] at hphase'
    cases hphase'

/-- What a step of the pump may be. -/
structure PumpStepSpec (x : Exchange) (pump : PumpState) (answer : Answer)
    (next : PumpState × PumpEvent) : Prop where
  within : next.1.Within x
  sent : ∀ message, next.2 = .sent message → ∃ progress, x.Allows progress ∧
    message = progressMessage x.approval (progress, answer.nonce) ∧ message.validate = .ok ()
  token : next.1.token = true → pump.token = true ∨ (∃ e, next.1.phase = .returned (.error e)) ∨
    ∃ message, answer.receive = .ok (some message) ∧ message.kind = "plan.cancel"

/-- A failure. -/
theorem PumpState.Within.spec_fail (h : pump.Within x) (e : ExchangeError) {event : PumpEvent}
    (hevent : ∀ message, event ≠ .sent message) :
    PumpStepSpec x pump answer (pump.fail e, event) :=
  ⟨h.fail e, fun message hsent => absurd hsent (hevent message), fun _ => .inr (.inl ⟨e, rfl⟩)⟩

/-- A step that is not seen outside and leaves the token. -/
theorem PumpState.Within.spec_quiet {next : PumpState} (h : next.Within x)
    (htoken : next.token = pump.token) : PumpStepSpec x pump answer (next, .quiet) := by
  refine ⟨h, ?_, ?_⟩
  · intro message hsent
    cases hsent
  · intro hset
    exact .inl (htoken ▸ hset)

/-- A step to a place with nothing unsent and no result. -/
theorem PumpState.Within.spec_goto (h : pump.Within x) (hbinding : control.binding = x.approval.boundReply)
    {next : PumpPlace} (hunsent : next.unsent = []) (hfinished : next.finished = none) :
    PumpStepSpec x pump answer (pump.goto control next, .quiet) := by
  refine PumpState.Within.spec_quiet (h.running rfl (fun _ hitem => hitem) (fun _ hready => hready)
    hbinding ?_ ?_) rfl
  · rw [hunsent]
    intro progress hmem
    cases hmem
  · rw [hfinished]
    intro left result hsome
    cases hsome

/-- The first item of the channel is taken. -/
theorem PumpState.Within.spec_take (h : pump.Within x) (hbinding : control.binding = x.approval.boundReply)
    {item : NativeActionProgress} {queue : List NativeActionProgress}
    (hqueue : pump.queue = item :: queue) {next : PumpPlace} (hunsent : next.unsent = [])
    (hfinished : ∀ left result, next.finished = some (left, .ok result) → x.ReadsBack result) :
    PumpStepSpec x pump answer
      ({ pump.goto control (.report item.toProgress next) with queue := queue }, .quiet) := by
  refine PumpState.Within.spec_quiet (h.running rfl ?_ (fun _ hready => hready) hbinding ?_
    hfinished) rfl
  · intro item' hmem
    rw [hqueue]
    exact List.mem_cons_of_mem item hmem
  · intro progress hmem
    rw [PumpPlace.unsent, hunsent, List.mem_singleton] at hmem
    rw [hmem]
    apply x.allows_toProgress
    apply h.queue
    rw [hqueue]
    exact List.mem_cons_self

/-- A received message. -/
theorem PumpState.Within.spec_receive (h : pump.Within x)
    (hbinding : control.binding = x.approval.boundReply) {message : BrokerMessage}
    (hreceive : answer.receive = .ok (some message)) :
    PumpStepSpec x pump answer (pump.receive x.deadline control message answer) := by
  unfold PumpState.receive
  split
  · exact h.spec_fail _ (fun _ hsent => by cases hsent)
  split
  · exact h.spec_fail _ (fun _ hsent => by cases hsent)
  rename_i next haccept
  obtain ⟨-, hkind, -, -, -, hnext, -⟩ := ApprovalControl.acceptCancellation_ok haccept
  refine ⟨h.running rfl (fun _ hitem => hitem) (fun _ hready => hready) (hnext.trans hbinding) ?_ ?_,
    ?_, ?_⟩
  · intro progress hmem
    rw [List.mem_singleton.mp hmem]
    exact x.allows_cancellationPending
  · intro left result hsome
    cases hsome
  · intro message' hsent
    cases hsent
  · intro _
    exact .inr (.inr ⟨message, hreceive, hkind⟩)

theorem PumpState.Within.spec_report (h : pump.Within x) {progress : WorkerProgress} {next : PumpPlace}
    (hphase : pump.phase = .running control (.report progress next)) :
    PumpStepSpec x pump answer
      (pump.runStep x.deadline control (.report progress next) answer) := by
  have hbinding := h.binding _ _ hphase
  have hunsent := h.unsent _ _ hphase
  dsimp only [PumpState.runStep]
  split
  · exact h.spec_fail _ (fun _ hsent => by cases hsent)
  · rename_i message hmessage
    refine ⟨h.running rfl (fun _ hitem => hitem) (fun _ hready => hready) hbinding
      (fun q hq => hunsent q (List.mem_cons_of_mem progress hq))
      (fun left result => h.finished control (.report progress next) left result hphase), ?_, .inl⟩
    intro message' hsent
    cases hsent
    obtain ⟨heq, hvalid⟩ := reportMessage_ok hmessage
    rw [hbinding] at heq
    exact ⟨progress, hunsent progress List.mem_cons_self, heq, hvalid⟩

/-- One step of the pump at a place. -/
theorem PumpState.Within.spec_runStep (h : pump.Within x) {place : PumpPlace}
    (hphase : pump.phase = .running control place) :
    PumpStepSpec x pump answer (pump.runStep x.deadline control place answer) := by
  have hbinding := h.binding control place hphase
  have hquiet : ∀ message, PumpEvent.quiet ≠ .sent message := by
    intro message hsent
    cases hsent
  cases place with
  | report progress next => exact h.spec_report hphase
  | turn =>
    dsimp only [PumpState.runStep]
    split
    · exact h.spec_fail _ hquiet
    · exact h.spec_goto hbinding rfl rfl
  | forward left =>
    dsimp only [PumpState.runStep]
    split
    · rename_i hqueue
      exact h.spec_take hbinding hqueue rfl (by intro left result hsome; cases hsome)
    · exact h.spec_goto hbinding rfl rfl
  | poll =>
    dsimp only [PumpState.runStep]
    split
    · exact h.spec_goto hbinding rfl rfl
    · rename_i result hslot
      refine PumpState.Within.spec_quiet (h.running rfl (fun _ hitem => hitem) ?_ hbinding ?_ ?_) rfl
      · intro result' hready
        cases hready
      · intro progress hmem
        cases hmem
      · intro left result' hsome
        cases hsome
        exact h.slot result' hslot
    · exact h.spec_fail _ hquiet
    · exact h.spec_fail _ hquiet
  | drain left result =>
    dsimp only [PumpState.runStep]
    split
    · rename_i hqueue
      refine h.spec_take hbinding hqueue rfl ?_
      intro left' result' hsome
      cases hsome
      exact h.finished _ _ _ _ hphase rfl
    split
    · exact h.spec_fail _ hquiet
    split
    · exact h.spec_fail _ hquiet
    · rename_i result
      refine PumpState.Within.spec_quiet ⟨h.queue, h.slot, ?_, ?_, ?_, ?_⟩ rfl
      · intro control place hreturned
        cases hreturned
      · intro control place hreturned
        cases hreturned
      · intro control place left result hreturned
        cases hreturned
      · intro result' hreturned
        cases hreturned
        exact h.finished _ _ _ _ hphase rfl
  | listen =>
    dsimp only [PumpState.runStep]
    split
    · exact h.spec_fail _ hquiet
    · exact h.spec_goto hbinding rfl rfl
    · rename_i message hmessage
      exact h.spec_receive hbinding (cancellationMessage_ok hmessage)

/-- One step of `run`. -/
theorem PumpState.Within.spec (h : pump.Within x) {next : PumpState × PumpEvent}
    (hstep : pump.step x.approval x.deadline answer = some next) : PumpStepSpec x pump answer next := by
  unfold PumpState.step at hstep
  cases hphase : pump.phase with
  | start =>
    rw [hphase] at hstep
    dsimp only at hstep
    split at hstep
    · cases hstep
      exact h.spec_fail _ (fun _ hsent => by cases hsent)
    · rename_i control hnew
      cases hstep
      refine PumpState.Within.spec_quiet (h.running rfl (fun _ hitem => hitem)
        (fun _ hready => hready) (session_new hnew).binding ?_ ?_) rfl
      · intro progress hmem
        rw [List.mem_singleton.mp hmem]
        exact x.allows_preparing
      · intro left result hsome
        cases hsome
  | running control place =>
    rw [hphase] at hstep
    rw [← Option.some.inj hstep]
    exact h.spec_runStep hphase
  | returned result =>
    rw [hphase] at hstep
    cases hstep

end Pump

/-! ## What holds of every run -/

/-- The cancellations that the command line has sent. -/
def CliPhase.Cancelled : CliPhase → ℕ → Prop
  | .begin, n | .approve, n | .confirm, n | .cancelling, n => n = 0
  | .receive sent, n | .request sent, n => n = if sent then 1 else 0
  | .returned _, n | .failed _, n => n ≤ 1

theorem CliPhase.Cancelled.le_one {phase : CliPhase} {n : ℕ} (h : phase.Cancelled n) : n ≤ 1 := by
  cases phase with
  | begin | approve | confirm | cancelling => exact h ▸ Nat.zero_le 1
  | receive sent | request sent =>
    cases sent with
    | false => exact h ▸ Nat.zero_le 1
    | true => exact h ▸ Nat.le_refl 1
  | returned _ | failed _ => exact h

/-- A message of the worker's that carries a report. -/
def Exchange.Reports (x : Exchange) (message : BrokerMessage) : Prop :=
  message.validate = .ok () ∧ ∃ progress nonce, x.Allows progress ∧
    message = progressMessage x.approval (progress, nonce)

/-- The message of a result. -/
def Exchange.Carries (x : Exchange) (message : BrokerMessage) (result : WorkerResultV3) : Prop :=
  x.ReadsBack result ∧ ∃ nonce, resultMessage x result nonce = .ok message

/-- What the worker has sent: reports, and behind them the result. -/
def ExchangeState.Transcript (x : Exchange) (s : ExchangeState) : Prop :=
  match s.final with
  | none => ∀ message ∈ s.sent, x.Reports message
  | some result => (s.worker = .leaving ∨ s.worker = .closed) ∧
    ∃ reports message, (∀ m ∈ reports, x.Reports m) ∧ x.Carries message result ∧
      s.sent = reports ++ [message]

/-- The invariant of every run. -/
structure ExchangeInv (x : Exchange) (s : ExchangeState) : Prop where
  cancelled : s.cli.phase.Cancelled s.cancellations
  mail : ∀ message ∈ s.toWorker, message.kind = "plan.approve" ∨ 0 < s.cancellations
  token : s.pump.token = true → 0 < s.cancellations ∨ ∃ e, s.pump.phase = .returned (.error e)
  within : s.pump.Within x
  terminal : ∀ result, s.worker = .terminal result → x.ReadsBack result
  used : x.approval.nonce ∈ s.used ∧ ∀ message ∈ s.sent, message.nonce ∈ s.used
  nodup : (x.approval.nonce :: s.sent.map BrokerMessage.nonce).Nodup
  transcript : s.Transcript x

section Inv

variable {x : Exchange} {s : ExchangeState}

theorem resultMessage_ok {result : WorkerResultV3} {nonce : String} {message : BrokerMessage}
    (h : resultMessage x result nonce = .ok message) :
    message = ⟨protocolVersion, x.approval.boundReply, nonce, "plan.result", x.resultToValue result⟩ ∧
      message.validate = .ok () ∧ validateWorkerResult result = .ok () ∧
      x.approval.binding.planId = result.planId.uuid.toText ∧
      x.approval.binding.planDigest = result.planDigest.toHex := by
  unfold resultMessage at h
  simp only [except_bind_ok_iff, except_mapError_ok_iff, failIf_ok_iff, not_or, not_not] at h
  obtain ⟨_, hresult, _, ⟨hplan, hdigest⟩, _, hvalid, heq⟩ := h
  obtain rfl := Except.ok.inj heq
  exact ⟨rfl, hvalid, hresult, hplan, hdigest⟩

/-- A step of the command line that sends nothing. -/
theorem ExchangeInv.setCli (h : ExchangeInv x s) {phase : CliPhase}
    (hcancelled : phase.Cancelled s.cancellations) : ExchangeInv x (s.setCli phase) :=
  ⟨hcancelled, h.mail, h.token, h.within, h.terminal, h.used, h.nodup, h.transcript⟩

/-- Steps of the command line that only receive. -/
theorem ExchangeInv.received (h : ExchangeInv x s) {cli : Cli}
    (hcancelled : cli.phase.Cancelled s.cancellations) (toCli : List BrokerMessage) :
    ExchangeInv x { s with cli := cli, toCli := toCli } :=
  ⟨hcancelled, h.mail, h.token, h.within, h.terminal, h.used, h.nodup, h.transcript⟩

theorem ExchangeInv.cliReceive (h : ExchangeInv x s) {sent : Bool}
    (hphase : s.cli.phase = .receive sent) (now : ℕ) : ExchangeInv x (s.cliReceive x sent now) := by
  have hcancelled := h.cancelled
  rw [hphase] at hcancelled
  unfold ExchangeState.cliReceive
  split
  · apply h.setCli
    split_ifs
    · exact hcancelled.le_one
    · exact hcancelled
  split
  · refine h.received ?_ _
    exact hcancelled.le_one
  · exact h.received hcancelled _
  · refine h.received ?_ _
    exact hcancelled.le_one

theorem ExchangeInv.cliCancel (h : ExchangeInv x s) (hphase : s.cli.phase = .cancelling)
    (nonce : String) : ExchangeInv x (s.cliCancel nonce) := by
  have hnone : s.cancellations = 0 := by
    have hcancelled := h.cancelled
    rw [hphase] at hcancelled
    exact hcancelled
  unfold ExchangeState.cliCancel
  split
  · apply h.setCli
    exact hnone ▸ Nat.zero_le 1
  split_ifs
  · apply h.setCli
    exact hnone ▸ Nat.zero_le 1
  · refine ⟨?_, ?_, ?_, h.within, h.terminal, ⟨List.mem_cons_of_mem _ h.used.1, ?_⟩, h.nodup,
      h.transcript⟩
    · show s.cancellations + 1 = 1
      rw [hnone]
    · exact fun _ _ => .inr (Nat.succ_pos _)
    · exact fun _ => .inl (Nat.succ_pos _)
    · exact fun message hmessage => List.mem_cons_of_mem _ (h.used.2 message hmessage)

/-- One step of the command line. -/
theorem ExchangeInv.cliStep (h : ExchangeInv x s) (happroval : x.approval.kind = "plan.approve")
    {nonce : String} {now : ℕ} {s' : ExchangeState} (hstep : s.cliStep x nonce now = some s') :
    ExchangeInv x s' := by
  have hcancelled := h.cancelled
  unfold ExchangeState.cliStep at hstep
  cases hphase : s.cli.phase with
  | begin =>
    rw [hphase] at hstep hcancelled
    cases hstep
    apply h.setCli
    have hnone : s.cancellations = 0 := hcancelled
    split_ifs
    · exact hnone ▸ Nat.zero_le 1
    · exact hcancelled
  | approve =>
    rw [hphase] at hstep hcancelled
    have hnone : s.cancellations = 0 := hcancelled
    dsimp only at hstep
    split_ifs at hstep
    · cases hstep
      apply h.setCli
      exact hnone ▸ Nat.zero_le 1
    · cases hstep
      refine ⟨hcancelled, ?_, h.token, h.within, h.terminal, h.used, h.nodup, h.transcript⟩
      intro message hmessage
      rcases List.mem_append.mp hmessage with hmessage | hmessage
      · exact h.mail message hmessage
      · rw [List.mem_singleton.mp hmessage]
        exact .inl happroval
  | confirm =>
    rw [hphase] at hstep hcancelled
    cases hstep
    apply h.setCli
    split_ifs
    · exact hcancelled
    · exact hcancelled
  | cancelling =>
    rw [hphase] at hstep
    cases hstep
    exact h.cliCancel hphase nonce
  | receive sent =>
    rw [hphase] at hstep
    cases hstep
    exact h.cliReceive hphase now
  | request sent =>
    rw [hphase] at hstep hcancelled
    cases hstep
    apply h.setCli
    split_ifs with hrequest
    · rw [hrequest.1] at hcancelled
      exact hcancelled
    · exact hcancelled
  | returned result =>
    rw [hphase] at hstep
    cases hstep
  | failed e =>
    rw [hphase] at hstep
    cases hstep

/-- The message that the pipe gives to the pump. -/
theorem mem_of_answer {nonce : String} {clock : ℕ → ℕ} {message : BrokerMessage}
    (h : (s.answer nonce clock).receive = .ok (some message)) : message ∈ s.toWorker := by
  unfold ExchangeState.answer at h
  dsimp only at h
  split at h
  · split_ifs at h
    cases h
  · rename_i hmail
    cases h
    rw [hmail]
    exact List.mem_cons_self

/-- The token behind a step of the pump. -/
theorem ExchangeInv.token_step (h : ExchangeInv x s) {nonce : String} {clock : ℕ → ℕ}
    {next : PumpState × PumpEvent} (hstep : PumpStepSpec x s.pump (s.answer nonce clock) next)
    (hrunning : ∀ result, s.pump.phase ≠ .returned result) (hset : next.1.token = true) :
    0 < s.cancellations ∨ ∃ e, next.1.phase = .returned (.error e) := by
  rcases hstep.token hset with hold | hfailed | ⟨message, hreceive, hkind⟩
  · rcases h.token hold with hcancelled | ⟨e, hreturned⟩
    · exact .inl hcancelled
    · exact absurd hreturned (hrunning _)
  · exact .inr hfailed
  · rcases h.mail message (mem_of_answer hreceive) with happroval | hcancelled
    · rw [happroval] at hkind
      exact absurd hkind (by decide)
    · exact .inl hcancelled

/-- One more message of the worker's. -/
theorem ExchangeInv.send (h : ExchangeInv x s) (message : BrokerMessage)
    (hfresh : message.nonce ∉ s.used) :
    (x.approval.nonce ∈ message.nonce :: s.used ∧
      ∀ m ∈ s.sent ++ [message], m.nonce ∈ message.nonce :: s.used) ∧
    (x.approval.nonce :: (s.sent ++ [message]).map BrokerMessage.nonce).Nodup := by
  refine ⟨⟨List.mem_cons_of_mem _ h.used.1, ?_⟩, ?_⟩
  · intro m hm
    rcases List.mem_append.mp hm with hm | hm
    · exact List.mem_cons_of_mem _ (h.used.2 m hm)
    · rw [List.mem_singleton.mp hm]
      exact List.mem_cons_self
  · rw [List.map_append, ← List.cons_append]
    refine List.Nodup.append h.nodup (List.nodup_singleton _) ?_
    intro n hn hlast
    rw [List.map_singleton, List.mem_singleton] at hlast
    subst hlast
    rcases List.mem_cons.mp hn with heq | hn
    · exact hfresh (heq ▸ h.used.1)
    · obtain ⟨m, hm, heq⟩ := List.mem_map.mp hn
      exact hfresh (heq ▸ h.used.2 m hm)

/-- While the worker is in its session, it has sent reports only. -/
theorem ExchangeInv.final_none (h : ExchangeInv x s)
    (hworker : s.worker ≠ .leaving ∧ s.worker ≠ .closed) : s.final = none := by
  have htranscript := h.transcript
  unfold ExchangeState.Transcript at htranscript
  split at htranscript
  · rename_i hfinal
    exact hfinal
  · rcases htranscript.1 with hleaving | hclosed
    · exact absurd hleaving hworker.1
    · exact absurd hclosed hworker.2

theorem ExchangeInv.reports (h : ExchangeInv x s) (hfinal : s.final = none) :
    ∀ message ∈ s.sent, x.Reports message := by
  have htranscript := h.transcript
  unfold ExchangeState.Transcript at htranscript
  rw [hfinal] at htranscript
  exact htranscript

/-- A step of the pump. -/
theorem ExchangeInv.pumped (h : ExchangeInv x s) {nonce : String} {clock : ℕ → ℕ}
    {next : PumpState × PumpEvent} (hstep : PumpStepSpec x s.pump (s.answer nonce clock) next)
    (hrunning : ∀ result, s.pump.phase ≠ .returned result) (hworker : s.worker = .session)
    (hfresh : nonce ∉ s.used) : ExchangeInv x (s.pumped next.1 next.2) := by
  have htoken := h.token_step hstep hrunning
  have hfinal := h.final_none (by rw [hworker]; decide)
  obtain ⟨pump, event⟩ := next
  cases event with
  | quiet =>
    exact ⟨h.cancelled, h.mail, htoken, hstep.within, h.terminal, h.used, h.nodup, h.transcript⟩
  | sent message =>
    obtain ⟨progress, hallows, heq, hvalid⟩ := hstep.sent message rfl
    have hnonce : message.nonce = nonce := congrArg BrokerMessage.nonce heq
    obtain ⟨hused, hnodup⟩ := h.send message (hnonce ▸ hfresh)
    refine ⟨h.cancelled, h.mail, htoken, hstep.within, h.terminal, hused, hnodup, ?_⟩
    unfold ExchangeState.Transcript
    simp only [ExchangeState.pumped, hfinal]
    intro m hm
    rcases List.mem_append.mp hm with hm | hm
    · exact h.reports hfinal m hm
    · rw [List.mem_singleton.mp hm]
      exact ⟨hvalid, progress, _, hallows, heq⟩
  | refused =>
    exact ⟨h.cancelled, fun m hm => h.mail m (List.mem_of_mem_tail hm), htoken, hstep.within,
      h.terminal, h.used, h.nodup, h.transcript⟩
  | accepted message =>
    exact ⟨h.cancelled, fun m hm => h.mail m (List.mem_of_mem_tail hm), htoken, hstep.within,
      h.terminal, h.used, h.nodup, h.transcript⟩

/-- The worker goes on to another phase. -/
theorem ExchangeInv.setWorker (h : ExchangeInv x s) {phase : WorkerPhase}
    (hterminal : ∀ result, phase = .terminal result → x.ReadsBack result)
    (hfinal : (phase = .leaving ∨ phase = .closed) ∨ s.final = none) (toWorker : List BrokerMessage)
    (hmail : ∀ message ∈ toWorker, message ∈ s.toWorker) :
    ExchangeInv x { s with worker := phase, toWorker := toWorker } := by
  refine ⟨h.cancelled, fun m hm => h.mail m (hmail m hm), h.token, h.within, hterminal, h.used, h.nodup,
    ?_⟩
  have htranscript := h.transcript
  unfold ExchangeState.Transcript at htranscript ⊢
  dsimp only
  split at htranscript
  · exact htranscript
  · rename_i result hsome
    rw [hsome] at hfinal
    rcases hfinal with hphase | hnone
    · exact ⟨hphase, htranscript.2⟩
    · cases hnone

theorem ExchangeInv.sessionStep (h : ExchangeInv x s) (hworker : s.worker = .session) {nonce : String}
    {clock : ℕ → ℕ} (hfresh : nonce ∉ s.used) {s' : ExchangeState}
    (hstep : s.sessionStep x nonce clock = some s') : ExchangeInv x s' := by
  have hfinal := h.final_none (by rw [hworker]; decide)
  unfold ExchangeState.sessionStep at hstep
  split at hstep
  · rename_i result hreturned
    cases hstep
    refine h.setWorker ?_ (.inr hfinal) s.toWorker (fun _ hm => hm)
    intro result' hterminal
    cases hterminal
    exact h.within.returned result hreturned
  · split_ifs at hstep
    cases hstep
    exact h.setWorker (fun _ hterminal => by cases hterminal) (.inl (.inl rfl)) s.toWorker
      (fun _ hm => hm)
  all_goals
    rename_i hphase
    obtain ⟨next, hnext, rfl⟩ := Option.map_eq_some_iff.mp hstep
    refine h.pumped (h.within.spec hnext) ?_ hworker hfresh
    intro result hreturned
    rw [hphase] at hreturned
    cases hreturned

/-- `send_terminal`. -/
theorem ExchangeInv.terminalStep (h : ExchangeInv x s) {result : WorkerResultV3}
    (hworker : s.worker = .terminal result) {nonce : String} (hfresh : nonce ∉ s.used) :
    ExchangeInv x (s.terminalStep x result nonce) := by
  have hfinal := h.final_none (by rw [hworker]; simp)
  have hleave : ExchangeInv x { s with worker := .leaving } :=
    h.setWorker (fun _ hterminal => by cases hterminal) (.inl (.inl rfl)) s.toWorker (fun _ hm => hm)
  unfold ExchangeState.terminalStep
  split
  · exact hleave
  rename_i message hmessage
  split_ifs
  · exact hleave
  · have hnonce : message.nonce = nonce :=
      congrArg BrokerMessage.nonce (resultMessage_ok hmessage).1
    obtain ⟨hused, hnodup⟩ := h.send message (hnonce ▸ hfresh)
    refine ⟨h.cancelled, h.mail, h.token, h.within, ?_, hused, hnodup, ?_⟩
    · intro result' hterminal
      cases hterminal
    · exact ⟨.inl rfl, s.sent, message, h.reports hfinal,
        ⟨h.terminal result hworker, nonce, hmessage⟩, rfl⟩

/-- One step of the worker. -/
theorem ExchangeInv.workerStep (h : ExchangeInv x s) {nonce : String} {clock : ℕ → ℕ}
    (hfresh : nonce ∉ s.used) {s' : ExchangeState} (hstep : s.workerStep x nonce clock = some s') :
    ExchangeInv x s' := by
  unfold ExchangeState.workerStep at hstep
  cases hworker : s.worker with
  | waiting =>
    rw [hworker] at hstep
    dsimp only at hstep
    split at hstep
    · split_ifs at hstep
      cases hstep
      exact h.setWorker (fun _ hterminal => by cases hterminal) (.inl (.inl rfl)) s.toWorker
        (fun _ hm => hm)
    · rename_i hmail
      cases hstep
      refine h.setWorker (fun _ hterminal => by cases hterminal)
        (.inr (h.final_none (by rw [hworker]; decide))) _ ?_
      intro m hm
      rw [hmail]
      exact List.mem_cons_of_mem _ hm
  | session =>
    rw [hworker] at hstep
    exact h.sessionStep hworker hfresh hstep
  | terminal result =>
    rw [hworker] at hstep
    cases hstep
    exact h.terminalStep hworker hfresh
  | leaving =>
    rw [hworker] at hstep
    cases hstep
    exact h.setWorker (fun _ hterminal => by cases hterminal) (.inl (.inr rfl)) s.toWorker
      (fun _ hm => hm)
  | closed =>
    rw [hworker] at hstep
    cases hstep

/-- A step of the executor changes its channels. -/
theorem ExchangeInv.executor (h : ExchangeInv x s) (queue : List NativeActionProgress)
    (slot : ResultSlot) (hqueue : ∀ item ∈ queue, item.actionId ∈ x.actions)
    (hslot : ∀ result, slot = .ready (.ok result) → x.ReadsBack result) :
    ExchangeInv x { s with pump := { s.pump with queue := queue, slot := slot } } :=
  ⟨h.cancelled, h.mail, h.token,
    ⟨hqueue, hslot, h.within.binding, h.within.unsent, h.within.finished, h.within.returned⟩,
    h.terminal, h.used, h.nodup, h.transcript⟩

/-- One step of the exchange. -/
theorem ExchangeInv.step (h : ExchangeInv x s) (happroval : x.approval.kind = "plan.approve")
    {label : ExchangeLabel} {s' : ExchangeState} (hstep : x.Step s label s') : ExchangeInv x s' := by
  obtain ⟨hadmits, hnext⟩ := hstep
  cases label with
  | cli nonce now => exact h.cliStep happroval hnext
  | worker nonce clock => exact h.workerStep hadmits.2.1 hnext
  | console =>
    cases hnext
    exact ⟨h.cancelled, h.mail, h.token, h.within, h.terminal, h.used, h.nodup, h.transcript⟩
  | hangUp =>
    cases hnext
    exact ⟨h.cancelled, h.mail, h.token, h.within, h.terminal, h.used, h.nodup, h.transcript⟩
  | progress item =>
    simp only [Exchange.next, Option.ite_none_right_eq_some, Option.some.injEq] at hnext
    obtain ⟨-, rfl⟩ := hnext
    refine h.executor _ s.pump.slot ?_ h.within.slot
    intro item' hmem
    split_ifs at hmem
    · rcases List.mem_append.mp hmem with hmem | hmem
      · exact h.within.queue item' hmem
      · rw [List.mem_singleton.mp hmem]
        exact hadmits
    · exact h.within.queue item' hmem
  | finish result =>
    simp only [Exchange.next, Option.ite_none_right_eq_some, Option.some.injEq] at hnext
    obtain ⟨-, rfl⟩ := hnext
    refine h.executor s.pump.queue (.ready result) h.within.queue ?_
    intro r hready
    cases hready
    exact hadmits r rfl
  | vanish =>
    simp only [Exchange.next, Option.ite_none_right_eq_some, Option.some.injEq] at hnext
    obtain ⟨-, rfl⟩ := hnext
    exact h.executor s.pump.queue .disconnected h.within.queue (fun _ hready => by cases hready)

theorem exchangeInv_initial (x : Exchange) (control : ApprovalControl) :
    ExchangeInv x (initialState x control) := by
  refine ⟨rfl, ?_, ?_, ⟨?_, ?_, ?_, ?_, ?_, ?_⟩, ?_, ⟨List.mem_cons_self, ?_⟩,
    List.nodup_singleton _, ?_⟩
  all_goals
    intros
    simp_all [initialState, PumpSystem.initial, ExchangeState.Transcript]

end Inv

/-! ## What the command line accepts -/

/-- The laws of the serializers and of the approval that the command line has checked. -/
structure Exchange.Lawful (x : Exchange) : Prop where
  progress : ∀ progress, x.progressFromValue progress.toValue = .ok progress
  planId : x.approval.binding.planId = x.planId.uuid.toText
  planDigest : x.approval.binding.planDigest = x.digest.toHex

section Accept

variable {x : Exchange} {history : List ControlEvent} {control : ApprovalControl}
  {message : BrokerMessage} {now : ℕ}

/-- The session behind a message that passed. -/
theorem Session.acceptWorkerMessage
    (h : Session x.approval x.start history control) (hnow : x.start ≤ now)
    (henvelope : control.acceptEnvelope message now = (.ok (), control.receive message.nonce now)) :
    ∃ history', Session x.approval x.start history'
        (control.acceptWorkerMessage x.progressFromValue message now).2 ∧
      (passedNonces history').map Prod.fst =
        (passedNonces history).map Prod.fst ++ [message.nonce] := by
  have hcall : x.start ≤ (ControlCall.acceptWorkerMessage message now).now := hnow
  refine ⟨_, h.step x.progressFromValue hcall, ?_⟩
  rw [passedNonces, List.filter_append, List.map_append, List.map_append, ← passedNonces]
  congr 1
  have hpassed : (control.call x.progressFromValue (.acceptWorkerMessage message now)).1.passed =
      true := by
    show succeeds (control.acceptEnvelope message now).1 = true
    rw [henvelope]
    rfl
  rw [List.filter_cons_of_pos hpassed]
  rfl

/-- A report is accepted. -/
theorem acceptControlMessage_report (hx : x.Lawful)
    (henvelope : control.acceptEnvelope message now = (.ok (), control.receive message.nonce now))
    (hreport : x.Reports message) :
    control.acceptWorkerMessage x.progressFromValue message now =
        ((control.acceptWorkerMessage x.progressFromValue message now).1,
          control.receive message.nonce now) ∧
      acceptControlMessage x control message now = (.ok none, control.receive message.nonce now) := by
  obtain ⟨-, progress, nonce, hallows, heq⟩ := hreport
  have hkind : message.kind = "plan.progress" := congrArg BrokerMessage.kind heq
  have hpayload : message.payload = progress.toValue := congrArg BrokerMessage.payload heq
  have hread : readProgress x.progressFromValue message.payload = .ok progress := by
    unfold readProgress
    rw [hpayload, hx.progress]
    show (do progress.validate; return progress) = _
    rw [hallows.valid]
    rfl
  have haccept : control.acceptWorkerMessage x.progressFromValue message now =
      (.ok (some progress), control.receive message.nonce now) := by
    unfold ApprovalControl.acceptWorkerMessage
    rw [henvelope]
    dsimp only
    rw [if_pos hkind, hread]
    rfl
  refine ⟨by rw [haccept], ?_⟩
  unfold acceptControlMessage
  rw [haccept]
  dsimp only
  unfold validateProgressAction failIf
  rw [if_neg (by rw [hallows.action]; decide)]
  rfl

/-- The result is accepted. -/
theorem acceptControlMessage_result (hx : x.Lawful)
    (henvelope : control.acceptEnvelope message now = (.ok (), control.receive message.nonce now))
    {result : WorkerResultV3} (hcarries : x.Carries message result) :
    (acceptControlMessage x control message now).1 = .ok (some result) := by
  obtain ⟨⟨hrun, hread⟩, nonce, hmessage⟩ := hcarries
  obtain ⟨heq, -, hvalid, hplan, hdigest⟩ := resultMessage_ok hmessage
  have hkind : message.kind = "plan.result" := congrArg BrokerMessage.kind heq
  have hpayload : message.payload = x.resultToValue result := congrArg BrokerMessage.payload heq
  have hplanId : result.planId = x.planId :=
    PlanId.ext (Uuid.toText_injective (hplan.symm.trans hx.planId))
  have hplanDigest : result.planDigest = x.digest :=
    Sha256Digest.toHex_injective (hdigest.symm.trans hx.planDigest)
  have hparse : parseWorkerResult x message = .ok result := by
    unfold parseWorkerResult
    simp only [except_bind_ok_iff, except_mapError_ok_iff, failIf_ok_iff, not_or, not_not]
    refine ⟨(), hkind, result, ?_, (), hvalid, (), ⟨hplanId, hrun, hplanDigest⟩, rfl⟩
    rw [hpayload]
    exact hread
  unfold acceptControlMessage ApprovalControl.acceptWorkerMessage
  rw [henvelope]
  dsimp only
  rw [if_neg (by rw [hkind]; decide), if_pos hkind]
  dsimp only
  rw [hparse]
  rfl

/-- The binding that every message carries is valid. -/
theorem boundReply_validate (happroval : x.approval.validate = .ok ()) :
    x.approval.boundReply.validate = .ok () := by
  obtain ⟨hnonce, hbinding⟩ := BrokerMessage.validate_ok happroval
  unfold BrokerBinding.validate at hbinding ⊢
  simp only [except_bind_ok_iff, rejectIf_ok_iff, not_exists, not_and, not_not] at hbinding ⊢
  obtain ⟨_, hsession, _, hplan, _, hdigest, -⟩ := hbinding
  refine ⟨(), hsession, (), hplan, (), hdigest, ?_⟩
  intro nonce hmem
  rw [BrokerMessage.boundReply, Option.mem_some_iff] at hmem
  rw [← hmem]
  exact hnonce

/-- A cancellation with a valid nonce can be built. -/
theorem exists_cancellation (happroval : x.approval.validate = .ok ())
    (hbinding : control.binding = x.approval.boundReply) {nonce : String}
    (hnonce : validNonce nonce = true) : ∃ message, control.cancellation nonce = .ok message := by
  refine ⟨⟨protocolVersion, control.binding, nonce, "plan.cancel", .object []⟩, ?_⟩
  unfold ApprovalControl.cancellation ApprovalControl.message BrokerMessage.validate
  simp only [except_bind_ok_iff, rejectIf_ok_iff, not_not]
  refine ⟨(), ⟨(), trivial, (), hnonce, (), by decide, (), rfl, ?_⟩, rfl⟩
  rw [hbinding]
  exact boundReply_validate happroval

end Accept

/-! ## The command line behind the worker -/

/-- The worker's next step sends a message. -/
def ExchangeState.workerSends (s : ExchangeState) : Bool :=
  match s.worker with
  | .session =>
    match s.pump.phase with
    | .running _ (.report _ _) => true
    | _ => false
  | .terminal _ => true
  | .waiting | .leaving | .closed => false

/-- The steps in which the command line does not miss a message: a cancellation is sent while the worker
    has its end open, and a message of the worker's is one of its first 127. -/
def Exchange.Heard (s : ExchangeState) : ExchangeLabel → Prop
  | .cli _ _ => s.cli.phase = .cancelling → s.worker ≠ .closed
  | .worker _ _ => s.workerSends = true → s.sent.length < 127
  | .console | .hangUp | .progress _ | .finish _ | .vanish => True

/-- The steps of runs that meet the condition. -/
def Exchange.HeardStep (x : Exchange) (s : ExchangeState) (label : ExchangeLabel)
    (s' : ExchangeState) : Prop :=
  Exchange.Heard s label ∧ x.Step s label s'

/-- The command line has accepted the first messages, all of them reports, and the others wait. -/
structure ExchangeState.Listening (x : Exchange) (s : ExchangeState) (history : List ControlEvent) :
    Prop where
  session : Session x.approval x.start history s.cli.control
  nonces : (passedNonces history).map Prod.fst = s.cli.accepted.map BrokerMessage.nonce
  isOpen : s.cli.control.terminalSeen = false
  sent : s.cli.accepted ++ s.toCli = s.sent
  reports : ∀ message ∈ s.cli.accepted, message.kind = "plan.progress"

/-- The invariant of the command line. -/
def CliPhase.Inv (x : Exchange) (s : ExchangeState) : CliPhase → Prop
  | .begin | .approve => (∃ history, s.Listening x history) ∧ s.worker = .waiting ∧ s.toWorker = [] ∧
    s.cliClosed = false
  | .confirm | .cancelling | .receive _ | .request _ => ∃ history, s.Listening x history
  | .returned result => s.final = some result ∧ s.cli.accepted = s.sent
  | .failed _ => s.final = none ∧
    (s.worker = .closed ∨ s.worker = .leaving ∨ s.worker = .waiting ∧ s.toWorker = [])

/-- The invariant of the runs that meet the condition. -/
structure CliInv (x : Exchange) (s : ExchangeState) : Prop where
  inv : ExchangeInv x s
  quota : s.sent.length ≤ 127
  phase : s.cli.phase.Inv x s

section CliInv

variable {x : Exchange} {s : ExchangeState} {history : List ControlEvent}

theorem reports_kind {message : BrokerMessage} (h : x.Reports message) :
    message.kind = "plan.progress" ∧ message.binding = x.approval.boundReply ∧
      message.validate = .ok () := by
  obtain ⟨hvalid, progress, nonce, -, heq⟩ := h
  exact ⟨congrArg BrokerMessage.kind heq, congrArg BrokerMessage.binding heq, hvalid⟩

theorem carries_kind {message : BrokerMessage} {result : WorkerResultV3}
    (h : x.Carries message result) :
    message.kind = "plan.result" ∧ message.binding = x.approval.boundReply ∧
      message.validate = .ok () := by
  obtain ⟨-, nonce, hmessage⟩ := h
  obtain ⟨heq, hvalid, -⟩ := resultMessage_ok hmessage
  exact ⟨congrArg BrokerMessage.kind heq, congrArg BrokerMessage.binding heq, hvalid⟩

/-- The next message is a report, or the result and the last one. -/
theorem ExchangeState.Listening.next (h : s.Listening x history) (hinv : ExchangeInv x s)
    {message : BrokerMessage} {rest : List BrokerMessage} (hmail : s.toCli = message :: rest) :
    x.Reports message ∨ ∃ result, s.final = some result ∧ x.Carries message result ∧ rest = [] := by
  have hsent := h.sent
  rw [hmail] at hsent
  have hmem : message ∈ s.sent := by
    rw [← hsent]
    simp
  have htranscript := hinv.transcript
  unfold ExchangeState.Transcript at htranscript
  split at htranscript
  · exact .inl (htranscript message hmem)
  · rename_i result hfinal
    obtain ⟨-, reports, last, hreports, hcarries, hall⟩ := htranscript
    rcases List.eq_nil_or_concat rest with rfl | ⟨init, final, rfl⟩
    · rw [hall] at hsent
      obtain ⟨-, hlast⟩ := List.append_inj' hsent rfl
      cases hlast
      exact .inr ⟨result, hfinal, hcarries, rfl⟩
    · rw [hall, List.concat_eq_append, ← List.cons_append, ← List.append_assoc] at hsent
      obtain ⟨hinit, -⟩ := List.append_inj' hsent rfl
      refine .inl (hreports message ?_)
      rw [← hinit]
      simp

/-- The command line never waits behind the result. -/
theorem ExchangeState.Listening.final_none (h : s.Listening x history) (hinv : ExchangeInv x s)
    (hmail : s.toCli = []) : s.final = none := by
  have hsent := h.sent
  rw [hmail, List.append_nil] at hsent
  have htranscript := hinv.transcript
  unfold ExchangeState.Transcript at htranscript
  split at htranscript
  · rename_i hfinal
    exact hfinal
  · obtain ⟨-, reports, last, -, hcarries, hall⟩ := htranscript
    have hkind := h.reports last (by rw [hsent, hall]; simp)
    rw [(carries_kind hcarries).1] at hkind
    exact absurd hkind (by decide)

/-- The next message passes. -/
theorem ExchangeState.Listening.envelope (h : s.Listening x history) (hinv : ExchangeInv x s)
    (hquota : s.sent.length ≤ 127) {message : BrokerMessage} {rest : List BrokerMessage}
    (hmail : s.toCli = message :: rest) {now : ℕ} (hdeadline : now < x.start + controlLifetime) :
    s.cli.control.acceptEnvelope message now =
      (.ok (), s.cli.control.receive message.nonce now) := by
  have hsent := h.sent
  rw [hmail] at hsent
  have hmessage : message.binding = x.approval.boundReply ∧ message.validate = .ok () := by
    rcases h.next hinv hmail with hreport | ⟨result, -, hcarries, -⟩
    · exact (reports_kind hreport).2
    · exact (carries_kind hcarries).2
  have hreceived : s.cli.control.received = s.cli.accepted.length := by
    rw [h.session.received, ← List.length_map Prod.fst, h.nonces, List.length_map]
  apply h.session.acceptEnvelope_fresh hmessage.2 (hmessage.1.trans h.session.binding.symm) h.isOpen
    hdeadline
  · rw [← hsent, List.length_append, List.length_cons] at hquota
    omega
  · -- a nonce of the cache is the approval's or that of an accepted message
    rw [h.session.holds.mem_iff, List.map_cons, h.nonces]
    have hnodup := hinv.nodup
    rw [← hsent, List.map_append, List.map_cons, ← List.cons_append] at hnodup
    intro hmem
    exact (List.nodup_append.mp hnodup).2.2 _ hmem _ List.mem_cons_self rfl

/-- A report is accepted, and the command line listens on. -/
theorem ExchangeState.Listening.accept (h : s.Listening x history) (hx : x.Lawful)
    (hinv : ExchangeInv x s) (hquota : s.sent.length ≤ 127) {message : BrokerMessage}
    {rest : List BrokerMessage} (hmail : s.toCli = message :: rest) {now : ℕ} (hnow : x.start ≤ now)
    (hdeadline : now < x.start + controlLifetime) (hreport : x.Reports message) (sent : Bool) :
    ∃ control history', acceptControlMessage x s.cli.control message now = (.ok none, control) ∧
      ExchangeState.Listening x { s with
        toCli := rest, cli := ⟨.request sent, control, s.cli.accepted ++ [message]⟩ } history' := by
  have henvelope := h.envelope hinv hquota hmail hdeadline
  obtain ⟨hworker, haccept⟩ := acceptControlMessage_report hx henvelope hreport
  obtain ⟨history', hsession, hnonces⟩ := h.session.acceptWorkerMessage hnow henvelope
  rw [hworker] at hsession
  refine ⟨_, history', haccept, hsession, ?_, h.isOpen, ?_, ?_⟩
  · rw [hnonces, h.nonces, List.map_append]
    rfl
  · have hsent := h.sent
    rw [hmail] at hsent
    show s.cli.accepted ++ [message] ++ rest = s.sent
    rw [List.append_assoc, List.singleton_append]
    exact hsent
  · intro m hm
    rcases List.mem_append.mp hm with hm | hm
    · exact h.reports m hm
    · rw [List.mem_singleton.mp hm]
      exact (reports_kind hreport).1

/-- One poll of the command line. -/
theorem CliInv.cliReceive (h : CliInv x s) (hx : x.Lawful) {sent : Bool}
    (hphase : s.cli.phase = .receive sent) {now : ℕ} (hnow : x.start ≤ now)
    (hdeadline : now < x.start + controlLifetime) : CliInv x (s.cliReceive x sent now) := by
  have hinv := h.inv.cliReceive hphase now
  have hcli := h.phase
  rw [hphase] at hcli
  obtain ⟨history, hlistening⟩ := hcli
  unfold ExchangeState.cliReceive at hinv ⊢
  cases hmail : s.toCli with
  | nil =>
    rw [hmail] at hinv
    dsimp only at hinv ⊢
    refine ⟨hinv, h.quota, ?_⟩
    split_ifs with hclosed
    · exact ⟨hlistening.final_none h.inv hmail, .inl hclosed⟩
    · exact ⟨history, hlistening.session, hlistening.nonces, hlistening.isOpen, hlistening.sent,
        hlistening.reports⟩
  | cons message rest =>
    rw [hmail] at hinv
    dsimp only at hinv ⊢
    rcases hlistening.next h.inv hmail with hreport | ⟨result, hfinal, hcarries, rfl⟩
    · obtain ⟨control, history', haccept, hlistening'⟩ :=
        hlistening.accept hx h.inv h.quota hmail hnow hdeadline hreport sent
      rw [haccept] at hinv ⊢
      exact ⟨hinv, h.quota, history', hlistening'⟩
    · have haccept := acceptControlMessage_result hx
        (hlistening.envelope h.inv h.quota hmail hdeadline) hcarries
      generalize acceptControlMessage x s.cli.control message now = accepted at haccept hinv ⊢
      obtain ⟨outcome, control⟩ := accepted
      obtain rfl : outcome = .ok (some result) := haccept
      refine ⟨hinv, h.quota, hfinal, ?_⟩
      have hsent := hlistening.sent
      rw [hmail] at hsent
      exact hsent

/-- A step of the command line that only moves it. -/
theorem CliInv.setCli (h : CliInv x s) {phase : CliPhase} (hinv : ExchangeInv x (s.setCli phase))
    (hphase : phase.Inv x (s.setCli phase)) : CliInv x (s.setCli phase) :=
  ⟨hinv, h.quota, hphase⟩

theorem ExchangeState.Listening.setCli (h : s.Listening x history) (phase : CliPhase) :
    (s.setCli phase).Listening x history :=
  ⟨h.session, h.nonces, h.isOpen, h.sent, h.reports⟩

/-- The cancellation is sent while the worker has its end open. -/
theorem CliInv.cliCancel (h : CliInv x s) (happroval : x.approval.validate = .ok ())
    (hphase : s.cli.phase = .cancelling) {nonce : String} (hnonce : validNonce nonce = true)
    (hopen : s.worker ≠ .closed) : CliInv x (s.cliCancel nonce) := by
  have hinv := h.inv.cliCancel hphase nonce
  have hcli := h.phase
  rw [hphase] at hcli
  obtain ⟨history, hlistening⟩ := hcli
  obtain ⟨message, hmessage⟩ := exists_cancellation happroval hlistening.session.binding hnonce
  unfold ExchangeState.cliCancel at hinv ⊢
  rw [hmessage] at hinv ⊢
  dsimp only at hinv ⊢
  rw [if_neg hopen] at hinv ⊢
  exact ⟨hinv, h.quota, history, hlistening.session, hlistening.nonces, hlistening.isOpen,
    hlistening.sent, hlistening.reports⟩

/-- One step of the command line. -/
theorem CliInv.cliStep (h : CliInv x s) (hx : x.Lawful) (happroval : x.approval.validate = .ok ())
    (hkind : x.approval.kind = "plan.approve") {nonce : String} {now : ℕ}
    (hadmits : x.Admits s (.cli nonce now)) (hheard : Exchange.Heard s (.cli nonce now))
    {s' : ExchangeState} (hstep : s.cliStep x nonce now = some s') : CliInv x s' := by
  have hinv := h.inv.cliStep hkind hstep
  obtain ⟨hnonce, -, hnow, hdeadline⟩ := hadmits
  have hcli := h.phase
  unfold ExchangeState.cliStep at hstep
  cases hphase : s.cli.phase with
  | begin =>
    rw [hphase] at hstep hcli
    obtain ⟨⟨history, hlistening⟩, hwaiting, hempty, hclosed⟩ := hcli
    cases hstep
    refine h.setCli hinv ?_
    split_ifs
    · exact ⟨h.inv.final_none (by rw [hwaiting]; decide), .inr (.inr ⟨hwaiting, hempty⟩)⟩
    · exact ⟨⟨history, hlistening.setCli _⟩, hwaiting, hempty, hclosed⟩
  | approve =>
    rw [hphase] at hstep hcli
    obtain ⟨⟨history, hlistening⟩, hwaiting, hempty, hclosed⟩ := hcli
    dsimp only at hstep
    rw [if_neg (by rw [hwaiting]; decide)] at hstep
    cases hstep
    exact ⟨hinv, h.quota, history, hlistening.session, hlistening.nonces, hlistening.isOpen,
      hlistening.sent, hlistening.reports⟩
  | confirm =>
    rw [hphase] at hstep hcli
    obtain ⟨history, hlistening⟩ := hcli
    cases hstep
    refine h.setCli hinv ?_
    split_ifs
    · exact ⟨history, hlistening.setCli _⟩
    · exact ⟨history, hlistening.setCli _⟩
  | cancelling =>
    rw [hphase] at hstep
    cases hstep
    exact h.cliCancel happroval hphase hnonce (hheard hphase)
  | receive sent =>
    rw [hphase] at hstep
    cases hstep
    exact h.cliReceive hx hphase hnow hdeadline
  | request sent =>
    rw [hphase] at hstep hcli
    obtain ⟨history, hlistening⟩ := hcli
    cases hstep
    refine h.setCli hinv ?_
    split_ifs
    · exact ⟨history, hlistening.setCli _⟩
    · exact ⟨history, hlistening.setCli _⟩
  | returned result =>
    rw [hphase] at hstep
    cases hstep
  | failed e =>
    rw [hphase] at hstep
    cases hstep

/-- What a step of the worker does to the command line's end: it sends nothing or one message. -/
theorem workerStep_effect {nonce : String} {clock : ℕ → ℕ} {s' : ExchangeState}
    (hstep : s.workerStep x nonce clock = some s') : s'.cli = s.cli ∧ s'.cliClosed = s.cliClosed ∧
      (s'.toCli = s.toCli ∧ s'.sent = s.sent ∨ s.workerSends = true ∧
        ∃ message, s'.toCli = s.toCli ++ [message] ∧ s'.sent = s.sent ++ [message]) := by
  unfold ExchangeState.workerStep at hstep
  split at hstep
  · split at hstep
    · split_ifs at hstep
      cases hstep
      exact ⟨rfl, rfl, .inl ⟨rfl, rfl⟩⟩
    · cases hstep
      exact ⟨rfl, rfl, .inl ⟨rfl, rfl⟩⟩
  · rename_i hworker
    unfold ExchangeState.sessionStep at hstep
    split at hstep
    · cases hstep
      exact ⟨rfl, rfl, .inl ⟨rfl, rfl⟩⟩
    · split_ifs at hstep
      cases hstep
      exact ⟨rfl, rfl, .inl ⟨rfl, rfl⟩⟩
    all_goals
      obtain ⟨⟨pump, event⟩, hnext, rfl⟩ := Option.map_eq_some_iff.mp hstep
      cases event with
      | quiet => exact ⟨rfl, rfl, .inl ⟨rfl, rfl⟩⟩
      | refused => exact ⟨rfl, rfl, .inl ⟨rfl, rfl⟩⟩
      | accepted message => exact ⟨rfl, rfl, .inl ⟨rfl, rfl⟩⟩
      | sent message =>
        obtain ⟨control, progress, next, hreport⟩ := PumpState.step_sent hnext
        refine ⟨rfl, rfl, .inr ⟨?_, message, rfl, rfl⟩⟩
        simp only [ExchangeState.workerSends, hworker, hreport]
  · rename_i result hworker
    cases hstep
    unfold ExchangeState.terminalStep
    split
    · exact ⟨rfl, rfl, .inl ⟨rfl, rfl⟩⟩
    split_ifs
    · exact ⟨rfl, rfl, .inl ⟨rfl, rfl⟩⟩
    · refine ⟨rfl, rfl, .inr ⟨?_, _, rfl, rfl⟩⟩
      simp only [ExchangeState.workerSends, hworker]
  · cases hstep
    exact ⟨rfl, rfl, .inl ⟨rfl, rfl⟩⟩
  · cases hstep

/-- A worker on its way out closes its end. -/
theorem workerStep_leaving {nonce : String} {clock : ℕ → ℕ} {s' : ExchangeState}
    (hworker : s.worker = .leaving ∨ s.worker = .closed)
    (hstep : s.workerStep x nonce clock = some s') : s' = { s with worker := .closed } := by
  unfold ExchangeState.workerStep at hstep
  rcases hworker with hleaving | hclosed
  · rw [hleaving] at hstep
    cases hstep
    rfl
  · rw [hclosed] at hstep
    cases hstep

/-- A worker that has no message takes no approval. -/
theorem workerStep_waiting {nonce : String} {clock : ℕ → ℕ} {s' : ExchangeState}
    (hworker : s.worker = .waiting) (hempty : s.toWorker = [])
    (hstep : s.workerStep x nonce clock = some s') :
    s.cliClosed = true ∧ s' = { s with worker := .leaving } := by
  unfold ExchangeState.workerStep at hstep
  rw [hworker, hempty] at hstep
  dsimp only at hstep
  split_ifs at hstep with hclosed
  cases hstep
  exact ⟨hclosed, by rw [hempty]⟩

/-- The worker is gone once its result is sent. -/
theorem ExchangeInv.worker_of_final (h : ExchangeInv x s) {result : WorkerResultV3}
    (hfinal : s.final = some result) : s.worker = .leaving ∨ s.worker = .closed := by
  have htranscript := h.transcript
  unfold ExchangeState.Transcript at htranscript
  rw [hfinal] at htranscript
  exact htranscript.1

/-- One step of the worker. -/
theorem CliInv.workerStep (h : CliInv x s) {nonce : String} {clock : ℕ → ℕ}
    (hadmits : x.Admits s (.worker nonce clock)) (hheard : Exchange.Heard s (.worker nonce clock))
    {s' : ExchangeState} (hstep : s.workerStep x nonce clock = some s') : CliInv x s' := by
  have hinv := h.inv.workerStep hadmits.2.1 hstep
  obtain ⟨hcli, hclosed, hsent⟩ := workerStep_effect hstep
  have hquota : s'.sent.length ≤ 127 := by
    rcases hsent with ⟨-, hsent⟩ | ⟨hsends, message, -, hsent⟩
    · rw [hsent]
      exact h.quota
    · rw [hsent, List.length_append]
      exact hheard hsends
  have hlistening : (∃ history, s.Listening x history) → ∃ history, s'.Listening x history := by
    rintro ⟨history, hold⟩
    refine ⟨history, hcli ▸ hold.session, hcli ▸ hold.nonces, hcli ▸ hold.isOpen, ?_, hcli ▸ hold.reports⟩
    rcases hsent with ⟨htoCli, hsent⟩ | ⟨-, message, htoCli, hsent⟩
    · rw [hcli, htoCli, hsent]
      exact hold.sent
    · rw [hcli, htoCli, hsent, ← List.append_assoc, hold.sent]
  refine ⟨hinv, hquota, ?_⟩
  have hphase := h.phase
  rw [hcli]
  cases hstate : s.cli.phase with
  | begin | approve =>
    rw [hstate] at hphase
    obtain ⟨-, hwaiting, hempty, hopen⟩ := hphase
    rw [(workerStep_waiting hwaiting hempty hstep).1] at hopen
    cases hopen
  | confirm | cancelling | receive _ | request _ =>
    rw [hstate] at hphase
    exact hlistening hphase
  | returned result =>
    rw [hstate] at hphase
    obtain rfl := workerStep_leaving (h.inv.worker_of_final hphase.1) hstep
    exact hphase
  | failed e =>
    rw [hstate] at hphase
    obtain ⟨hfinal, hclosed | hleaving | ⟨hwaiting, hempty⟩⟩ := hphase
    · obtain rfl := workerStep_leaving (.inr hclosed) hstep
      exact ⟨hfinal, .inl rfl⟩
    · obtain rfl := workerStep_leaving (.inl hleaving) hstep
      exact ⟨hfinal, .inl rfl⟩
    · obtain ⟨-, rfl⟩ := workerStep_waiting hwaiting hempty hstep
      exact ⟨hfinal, .inr (.inl rfl)⟩

/-- Steps that leave both ends and the pipe alone. -/
theorem CliInv.elsewhere (h : CliInv x s) {s' : ExchangeState} (hinv : ExchangeInv x s')
    (hcli : s'.cli = s.cli) (hworker : s'.worker = s.worker) (htoWorker : s'.toWorker = s.toWorker)
    (htoCli : s'.toCli = s.toCli) (hsent : s'.sent = s.sent) (hfinal : s'.final = s.final)
    (hclosed : s'.cliClosed = true → s.cliClosed = false →
      (∃ result, s.cli.phase = .returned result) ∨ ∃ e, s.cli.phase = .failed e) : CliInv x s' := by
  have hlistening : (∃ history, s.Listening x history) → ∃ history, s'.Listening x history := by
    rintro ⟨history, hold⟩
    refine ⟨history, hcli ▸ hold.session, hcli ▸ hold.nonces, hcli ▸ hold.isOpen, ?_, hcli ▸ hold.reports⟩
    rw [hcli, htoCli, hsent]
    exact hold.sent
  refine ⟨hinv, hsent ▸ h.quota, ?_⟩
  have hphase := h.phase
  rw [hcli]
  cases hstate : s.cli.phase with
  | begin | approve =>
    rw [hstate] at hphase
    obtain ⟨hold, hwaiting, hempty, hopen⟩ := hphase
    refine ⟨hlistening hold, hworker.trans hwaiting, htoWorker.trans hempty, ?_⟩
    by_contra hset
    rw [Bool.not_eq_false] at hset
    rcases hclosed hset hopen with ⟨result, hreturned⟩ | ⟨e, hfailed⟩
    · rw [hstate] at hreturned
      cases hreturned
    · rw [hstate] at hfailed
      cases hfailed
  | confirm | cancelling | receive _ | request _ =>
    rw [hstate] at hphase
    exact hlistening hphase
  | returned result =>
    rw [hstate] at hphase
    exact ⟨hfinal.trans hphase.1, by rw [hcli, hsent]; exact hphase.2⟩
  | failed e =>
    rw [hstate] at hphase
    refine ⟨hfinal.trans hphase.1, ?_⟩
    rw [hworker, htoWorker]
    exact hphase.2

/-- One step of a run that meets the condition. -/
theorem CliInv.step (h : CliInv x s) (hx : x.Lawful) (happroval : x.approval.validate = .ok ())
    (hkind : x.approval.kind = "plan.approve") {label : ExchangeLabel} {s' : ExchangeState}
    (hstep : x.HeardStep s label s') : CliInv x s' := by
  obtain ⟨hheard, hstep⟩ := hstep
  have hinv := h.inv.step hkind hstep
  obtain ⟨hadmits, hnext⟩ := hstep
  have hsame : s.cliClosed = true → s.cliClosed = false →
      (∃ result, s.cli.phase = .returned result) ∨ ∃ e, s.cli.phase = .failed e := by
    intro htrue hfalse
    rw [htrue] at hfalse
    cases hfalse
  cases label with
  | cli nonce now => exact h.cliStep hx happroval hkind hadmits hheard hnext
  | worker nonce clock => exact h.workerStep hadmits hheard hnext
  | console =>
    cases hnext
    exact h.elsewhere hinv rfl rfl rfl rfl rfl rfl hsame
  | hangUp =>
    cases hnext
    exact h.elsewhere hinv rfl rfl rfl rfl rfl rfl (fun _ _ => hadmits)
  | progress item =>
    simp only [Exchange.next, Option.ite_none_right_eq_some, Option.some.injEq] at hnext
    obtain ⟨-, rfl⟩ := hnext
    exact h.elsewhere hinv rfl rfl rfl rfl rfl rfl hsame
  | finish result =>
    simp only [Exchange.next, Option.ite_none_right_eq_some, Option.some.injEq] at hnext
    obtain ⟨-, rfl⟩ := hnext
    exact h.elsewhere hinv rfl rfl rfl rfl rfl rfl hsame
  | vanish =>
    simp only [Exchange.next, Option.ite_none_right_eq_some, Option.some.injEq] at hnext
    obtain ⟨-, rfl⟩ := hnext
    exact h.elsewhere hinv rfl rfl rfl rfl rfl rfl hsame

theorem cliInv_initial {control : ApprovalControl}
    (hnew : ApprovalControl.new x.approval x.start = .ok control) :
    CliInv x (initialState x control) := by
  have hsession := session_new hnew
  refine ⟨exchangeInv_initial x control, Nat.zero_le _, ⟨[], hsession, rfl, hsession.terminated, rfl, ?_⟩,
    rfl, rfl, rfl⟩
  intro message hmem
  cases hmem

end CliInv

/-! ## The way to the result -/

/-- The steps of the command line before it polls again. -/
def CliPhase.rank : CliPhase → ℕ
  | .confirm | .request _ => 2
  | .cancelling => 1
  | .begin | .approve | .receive _ | .returned _ | .failed _ => 0

/-- A bound for the steps of the command line until it has read what was sent. -/
def ExchangeState.work (s : ExchangeState) : ℕ := 3 * s.toCli.length + s.cli.phase.rank

/-- The steps of the command line. -/
def ExchangeLabel.isCli : ExchangeLabel → Bool
  | .cli _ _ => true
  | .worker _ _ | .console | .hangUp | .progress _ | .finish _ | .vanish => false

section Work

variable {x : Exchange} {s : ExchangeState}

/-- One poll reads a message. -/
theorem work_cliReceive {sent : Bool} (hphase : s.cli.phase = .receive sent) (hmail : s.toCli ≠ [])
    (now : ℕ) : (s.cliReceive x sent now).work < s.work ∧
      (s.cliReceive x sent now).final = s.final ∧ (s.cliReceive x sent now).sent = s.sent := by
  have hrank : s.cli.phase.rank = 0 := by rw [hphase]; rfl
  unfold ExchangeState.cliReceive
  cases hqueue : s.toCli with
  | nil => exact absurd hqueue hmail
  | cons message rest =>
    have hwork : s.work = 3 * (rest.length + 1) := by
      rw [ExchangeState.work, hqueue, hrank, List.length_cons, Nat.add_zero]
    rw [hwork]
    dsimp only
    split
    · exact ⟨by show 3 * rest.length + 0 < _; omega, rfl, rfl⟩
    · exact ⟨by show 3 * rest.length + 2 < _; omega, rfl, rfl⟩
    · exact ⟨by show 3 * rest.length + 0 < _; omega, rfl, rfl⟩

theorem work_setCli {phase : CliPhase} (h : phase.rank < s.cli.phase.rank) :
    (s.setCli phase).work < s.work :=
  Nat.add_lt_add_left h _

/-- A step of the command line behind the result. -/
theorem CliInv.work_cliStep (h : CliInv x s) {result : WorkerResultV3}
    (hfinal : s.final = some result) {nonce : String} {now : ℕ} {s' : ExchangeState}
    (hstep : s.cliStep x nonce now = some s') :
    s'.work < s.work ∧ s'.final = s.final ∧ s'.sent = s.sent := by
  have hcli := h.phase
  have hworker := h.inv.worker_of_final hfinal
  unfold ExchangeState.cliStep at hstep
  cases hphase : s.cli.phase with
  | begin | approve =>
    rw [hphase] at hcli
    rw [hcli.2.1] at hworker
    rcases hworker with hleaving | hclosed
    · cases hleaving
    · cases hclosed
  | confirm =>
    rw [hphase] at hstep
    cases hstep
    refine ⟨work_setCli ?_, rfl, rfl⟩
    rw [hphase]
    split_ifs <;> decide
  | cancelling =>
    rw [hphase] at hstep
    cases hstep
    have hstop : ∀ phase : CliPhase, phase.rank = 0 → (s.setCli phase).work < s.work := by
      intro phase hrank
      apply work_setCli
      rw [hphase, hrank]
      decide
    unfold ExchangeState.cliCancel
    split
    · exact ⟨hstop _ rfl, rfl, rfl⟩
    split_ifs
    · exact ⟨hstop _ rfl, rfl, rfl⟩
    · exact ⟨hstop (.receive true) rfl, rfl, rfl⟩
  | receive sent =>
    rw [hphase] at hstep hcli
    obtain ⟨history, hlistening⟩ := hcli
    cases hstep
    apply work_cliReceive hphase
    intro hmail
    rw [hlistening.final_none h.inv hmail] at hfinal
    cases hfinal
  | request sent =>
    rw [hphase] at hstep
    cases hstep
    refine ⟨work_setCli ?_, rfl, rfl⟩
    rw [hphase]
    split_ifs <;> simp [CliPhase.rank]
  | returned result =>
    rw [hphase] at hstep
    cases hstep
  | failed e =>
    rw [hphase] at hstep
    cases hstep

/-- A step behind the result: the worker sends nothing more, and a step of the command line brings it
    nearer to the result. -/
theorem CliInv.work_step (h : CliInv x s) {result : WorkerResultV3} (hfinal : s.final = some result)
    {label : ExchangeLabel} {s' : ExchangeState} (hstep : x.HeardStep s label s') :
    s'.work + (if label.isCli then 1 else 0) ≤ s.work ∧ s'.final = some result ∧
      s'.sent = s.sent := by
  obtain ⟨-, -, hnext⟩ := hstep
  cases label with
  | cli nonce now =>
    obtain ⟨hwork, hkeeps, hsent⟩ := h.work_cliStep hfinal hnext
    exact ⟨hwork, hkeeps.trans hfinal, hsent⟩
  | worker nonce clock =>
    obtain rfl := workerStep_leaving (h.inv.worker_of_final hfinal) hnext
    exact ⟨Nat.le_refl s.work, hfinal, rfl⟩
  | console | hangUp =>
    cases hnext
    exact ⟨Nat.le_refl s.work, hfinal, rfl⟩
  | progress _ | finish _ | vanish =>
    simp only [Exchange.next, Option.ite_none_right_eq_some, Option.some.injEq] at hnext
    obtain ⟨-, rfl⟩ := hnext
    exact ⟨Nat.le_refl s.work, hfinal, rfl⟩

/-- A run behind the result. -/
theorem CliInv.work_run (h : CliInv x s) (hx : x.Lawful) (happroval : x.approval.validate = .ok ())
    (hkind : x.approval.kind = "plan.approve") {result : WorkerResultV3}
    (hfinal : s.final = some result) {labels : List ExchangeLabel} {s' : ExchangeState}
    (hrun : Steps x.HeardStep s labels s') :
    CliInv x s' ∧ s'.work + labels.countP ExchangeLabel.isCli ≤ s.work ∧ s'.final = some result ∧
      s'.sent = s.sent := by
  refine Steps.run_induction (P := fun labels s' => CliInv x s' ∧
    s'.work + labels.countP ExchangeLabel.isCli ≤ s.work ∧ s'.final = some result ∧ s'.sent = s.sent)
    ⟨h, Nat.le_refl s.work, hfinal, rfl⟩ ?_ hrun
  rintro labels m label m' - ⟨hinv, hwork, hresult, hsent⟩ hstep
  obtain ⟨hless, hkeeps, hsame⟩ := hinv.work_step hresult hstep
  refine ⟨hinv.step hx happroval hkind hstep, ?_, hkeeps, hsame.trans hsent⟩
  rw [List.countP_append, List.countP_singleton]
  omega

end Work

/-! ## Agreement -/

theorem approval_of_new {approval : BrokerMessage} {start : ℕ} {control : ApprovalControl}
    (h : ApprovalControl.new approval start = .ok control) :
    approval.validate = .ok () ∧ approval.kind = "plan.approve" := by
  unfold ApprovalControl.new at h
  simp only [except_bind_ok_iff, rejectIf_ok_iff, not_not] at h
  obtain ⟨_, hvalid, _, hkind, -⟩ := h
  exact ⟨hvalid, hkind⟩

/-- Agreement of the command line and the worker. In every run at most one cancellation is sent, and the
    worker's token is set only if one was sent or the pump failed. In a run in which no cancellation
    meets a closed pipe and the worker sends at most 127 messages, once the result is sent the command
    line does not fail; when it has returned, then that result and having accepted all messages in order;
    and it has at most `3 * toCli.length + 2` steps to go until then, each of which it can take. -/
theorem exchange_agreement {x : Exchange} (hx : x.Lawful) {control : ApprovalControl}
    (hnew : ApprovalControl.new x.approval x.start = .ok control) {labels : List ExchangeLabel}
    {s : ExchangeState} :
    (Steps x.Step (initialState x control) labels s → s.cancellations ≤ 1 ∧
      (s.pump.token = true → 0 < s.cancellations ∨ ∃ e, s.pump.phase = .returned (.error e))) ∧
    (Steps x.HeardStep (initialState x control) labels s → ∀ result, s.final = some result →
      (∀ e, s.cli.phase ≠ .failed e) ∧
      (∀ returned, s.cli.phase = .returned returned →
        returned = result ∧ s.cli.accepted = s.sent) ∧
      ∀ more s', Steps x.HeardStep s more s' →
        more.countP ExchangeLabel.isCli ≤ 3 * s.toCli.length + 2 ∧
        (s'.cli.phase = .returned result ∧ s'.cli.accepted = s.sent ∨
          ∀ nonce now, (x.next s' (.cli nonce now)).isSome)) := by
  obtain ⟨hvalid, hkind⟩ := approval_of_new hnew
  constructor
  · intro hrun
    have hinv : ExchangeInv x s :=
      Steps.run_induction (P := fun _ => ExchangeInv x) (exchangeInv_initial x control)
        (fun _ _ _ _ _ hinv hstep => hinv.step hkind hstep) hrun
    exact ⟨hinv.cancelled.le_one, hinv.token⟩
  intro hrun result hfinal
  have hinv : CliInv x s :=
    Steps.run_induction (P := fun _ => CliInv x) (cliInv_initial hnew)
      (fun _ _ _ _ _ hinv hstep => hinv.step hx hvalid hkind hstep) hrun
  have hreturns : ∀ {t : ExchangeState}, CliInv x t → t.final = some result →
      (∀ e, t.cli.phase ≠ .failed e) ∧ ∀ returned, t.cli.phase = .returned returned →
        returned = result ∧ t.cli.accepted = t.sent := by
    intro t ht htfinal
    have hphase := ht.phase
    refine ⟨?_, ?_⟩
    · intro e hfailed
      rw [hfailed] at hphase
      rw [hphase.1] at htfinal
      cases htfinal
    · intro returned hreturned
      rw [hreturned] at hphase
      rw [hphase.1] at htfinal
      exact ⟨Option.some.inj htfinal, hphase.2⟩
  refine ⟨(hreturns hinv hfinal).1, (hreturns hinv hfinal).2, ?_⟩
  intro more s' hmore
  obtain ⟨hinv', hwork, hfinal', hsent⟩ := hinv.work_run hx hvalid hkind hfinal hmore
  obtain ⟨hnotFailed, hresult⟩ := hreturns hinv' hfinal'
  constructor
  · have hrank : s.cli.phase.rank ≤ 2 := by cases s.cli.phase <;> simp [CliPhase.rank]
    unfold ExchangeState.work at hwork
    omega
  · cases hphase : s'.cli.phase with
    | returned returned =>
      obtain ⟨rfl, haccepted⟩ := hresult returned hphase
      exact .inl ⟨rfl, haccepted.trans hsent⟩
    | failed e => exact absurd hphase (hnotFailed e)
    | begin | confirm | cancelling | receive _ | request _ =>
      refine .inr fun nonce now => ?_
      simp [Exchange.next, ExchangeState.cliStep, hphase]
    | approve =>
      refine .inr fun nonce now => ?_
      simp only [Exchange.next, ExchangeState.cliStep, hphase]
      split_ifs <;> rfl

/-! ## Two schedules -/

/-- The JSON of a progress determines it. -/
theorem WorkerProgress.toValue_injective : Function.Injective WorkerProgress.toValue := by
  rintro ⟨phase, action⟩ ⟨phase', action'⟩ h
  simp only [WorkerProgress.toValue, Value.object.injEq, List.cons.injEq, Prod.mk.injEq, true_and,
    Value.string.injEq, and_true] at h
  obtain ⟨haction, hphase⟩ := h
  have hphase' : phase = phase' := by
    cases phase <;> cases phase' <;> first | rfl | exact absurd hphase (by decide)
  have haction' : action = action' := by
    cases action <;> cases action' <;>
      simp only [Option.elim, reduceCtorEq, Value.string.injEq] at haction ⊢
    rw [ActionId.ext (Uuid.toText_injective haction)]
  rw [hphase', haction']

open Classical in
/-- The inverse of the serializer of progress. -/
noncomputable def sampleProgressFromValue (value : Value) : Except String WorkerProgress :=
  if h : ∃ progress : WorkerProgress, progress.toValue = value then .ok h.choose
  else .error "data did not match"

/-- The JSON of `sampleWorkerResult`. -/
def sampleResultValue : Value := .object
  [("exitCode", .number (.posInt 5)), ("finalStatus", .string "cancelled"),
   ("planDigest", .string "0303030303030303030303030303030303030303030303030303030303030303"),
   ("planId", .string "01010101-0101-0101-0101-010101010101"), ("reason", .string "cancelled"),
   ("runId", .string "02020202-0202-0202-0202-020202020202"), ("schemaVersion", .string "3.0")]

/-- An approved plan without actions whose run is cancelled. -/
noncomputable def sampleExchange : Exchange where
  approval := { sampleApproval with binding := ⟨"1111", "01010101-0101-0101-0101-010101010101",
    "0303030303030303030303030303030303030303030303030303030303030303", some "3333"⟩ }
  planId := sampleWorkerResult.planId
  runId := sampleWorkerResult.runId
  digest := sampleWorkerResult.planDigest
  actions := []
  start := 0
  deadline := 10
  progressFromValue := sampleProgressFromValue
  resultToValue := fun result => if result = sampleWorkerResult then sampleResultValue else .null
  resultFromValue := fun value =>
    if value = sampleResultValue then .ok sampleWorkerResult else .error "data did not match"

theorem sampleExchange_lawful : sampleExchange.Lawful where
  progress := by
    intro progress
    have h : ∃ p : WorkerProgress, p.toValue = progress.toValue := ⟨progress, rfl⟩
    show sampleProgressFromValue progress.toValue = .ok progress
    rw [sampleProgressFromValue, dif_pos h, WorkerProgress.toValue_injective h.choose_spec]
  planId := by
    show "01010101-0101-0101-0101-010101010101" = sampleWorkerResult.planId.uuid.toText
    decide +kernel
  planDigest := by
    show "0303030303030303030303030303030303030303030303030303030303030303" =
      sampleWorkerResult.planDigest.toHex
    decide +kernel

/-- The command line sends the approval and polls once; the worker executes, sends `preparing` and the
    result, and closes its end. -/
def sampleExchangeLabels : List ExchangeLabel :=
  List.replicate 4 (.cli "55" 0) ++ [.worker "66" fun _ => 0, .finish (.ok sampleWorkerResult)] ++
    List.replicate 2 (.worker "66" fun _ => 0) ++ List.replicate 6 (.worker "77" fun _ => 0) ++
    [.worker "88" fun _ => 0]

/-- The console asks for cancellation, and the command line sends it. -/
def sampleLateCancellation : List ExchangeLabel :=
  [.console, .cli "55" 0, .cli "55" 0]

/-- The step with the check of its nonce, and of the condition if it is asked for. -/
noncomputable def sampleNext (heard : Bool) (s : ExchangeState) (label : ExchangeLabel) :
    Option ExchangeState :=
  let admitted := match label with
    | .cli nonce _ => decide (nonce ∉ s.used) && (!heard || match s.cli.phase with
      | .cancelling => false
      | _ => true)
    | .worker nonce _ => decide (nonce ∉ s.used) && decide (s.sent.length < 127)
    | _ => true
  if admitted then sampleExchange.next s label else none

/-- Labels of the two schedules are admitted. -/
theorem sampleNext_step {heard : Bool} {s s' : ExchangeState} {label : ExchangeLabel}
    (hlabel : label ∈ sampleExchangeLabels ++ sampleLateCancellation)
    (h : sampleNext heard s label = some s') :
    sampleExchange.Step s label s' ∧ (heard = true → Exchange.Heard s label) := by
  have hlabels : label = .cli "55" 0 ∨ label = .console ∨ label = .finish (.ok sampleWorkerResult) ∨
      ∃ nonce ∈ ["66", "77", "88"], label = .worker nonce fun _ => 0 := by
    simp only [sampleExchangeLabels, sampleLateCancellation, List.mem_append, List.mem_replicate,
      List.mem_cons, List.not_mem_nil, or_false] at hlabel
    aesop
  unfold sampleNext at h
  simp only [Option.ite_none_right_eq_some] at h
  obtain ⟨hadmitted, hnext⟩ := h
  rcases hlabels with rfl | rfl | rfl | ⟨nonce, hnonce, rfl⟩
  · rw [Bool.and_eq_true, decide_eq_true_iff] at hadmitted
    refine ⟨⟨⟨by decide +kernel, hadmitted.1, Nat.le_refl 0, by decide⟩, hnext⟩, ?_⟩
    intro hheard hphase
    rw [hheard, hphase] at hadmitted
    cases hadmitted.2
  · exact ⟨⟨trivial, hnext⟩, fun _ => trivial⟩
  · refine ⟨⟨?_, hnext⟩, fun _ => trivial⟩
    intro r hr
    cases hr
    exact ⟨rfl, by simp [sampleExchange]⟩
  · rw [Bool.and_eq_true, decide_eq_true_iff, decide_eq_true_iff] at hadmitted
    have htime : 0 < sampleExchange.deadline := Nat.succ_pos 9
    refine ⟨⟨⟨?_, hadmitted.1, fun _ => htime⟩, hnext⟩, fun _ _ => hadmitted.2⟩
    simp only [List.mem_cons, List.not_mem_nil, or_false] at hnonce
    rcases hnonce with rfl | rfl | rfl <;> decide +kernel

theorem toOption_eq_some {ε α : Type} {x : Except ε α} {a : α} (h : x.toOption = some a) : x = .ok a := by
  cases x with
  | error e => cases h
  | ok b => rw [Option.some.inj h]

/-- The transport has failed. -/
def CliPhase.brokeDown : CliPhase → Bool
  | .failed .transport => true
  | _ => false

theorem CliPhase.eq_of_brokeDown {phase : CliPhase} (h : phase.brokeDown = true) : phase = .failed .transport := by
  unfold CliPhase.brokeDown at h
  split at h
  · rfl
  · cases h

/-- The result has been sent and waits, in a run that meets the condition. -/
theorem exchange_agreement_sample : ∃ control s,
    ApprovalControl.new sampleExchange.approval sampleExchange.start = .ok control ∧
    Steps sampleExchange.HeardStep (initialState sampleExchange control) sampleExchangeLabels s ∧
    s.final = some sampleWorkerResult ∧ s.toCli.length = 2 ∧ (∀ e, s.cli.phase ≠ .failed e) ∧
    ∀ more s', Steps sampleExchange.HeardStep s more s' →
      more.countP ExchangeLabel.isCli ≤ 8 := by
  have hrun : ((ApprovalControl.new sampleExchange.approval sampleExchange.start).toOption.any fun control =>
      (sampleExchangeLabels.foldlM (sampleNext true) (initialState sampleExchange control)).any fun s =>
        decide (s.final = some sampleWorkerResult) && decide (s.toCli.length = 2)) = true := by
    decide +kernel
  obtain ⟨control, hcontrol, hrun⟩ := (Option.any_eq_true _ _).mp hrun
  have hnew := toOption_eq_some hcontrol
  obtain ⟨s, hfold, hstate⟩ := (Option.any_eq_true _ _).mp hrun
  rw [Bool.and_eq_true, decide_eq_true_iff, decide_eq_true_iff] at hstate
  obtain ⟨hfinal, hlength⟩ := hstate
  have hsteps : Steps sampleExchange.HeardStep (initialState sampleExchange control)
      sampleExchangeLabels s := by
    refine (steps_iff_foldlM.mpr hfold).mono fun label hlabel m m' hm => ?_
    obtain ⟨hstep, hheard⟩ := sampleNext_step (List.mem_append_left _ hlabel) hm
    exact ⟨hheard rfl, hstep⟩
  obtain ⟨hnotFailed, -, hmore⟩ :=
    (exchange_agreement sampleExchange_lawful hnew).2 hsteps sampleWorkerResult hfinal
  refine ⟨control, s, hnew, hsteps, hfinal, hlength, hnotFailed, ?_⟩
  intro more s' hsteps'
  have hbound := (hmore more s' hsteps').1
  rw [hlength] at hbound
  exact hbound

/-- The result was sent and is readable, and the command line has failed: its late cancellation met the
    pipe that the worker had closed. -/
theorem exchange_loses_result : ∃ control s,
    ApprovalControl.new sampleExchange.approval sampleExchange.start = .ok control ∧
    sampleExchange.Lawful ∧
    Steps sampleExchange.Step (initialState sampleExchange control)
      (sampleExchangeLabels ++ sampleLateCancellation) s ∧
    s.final = some sampleWorkerResult ∧ s.toCli = s.sent ∧ s.sent.length = 2 ∧
    s.cli.phase = .failed .transport := by
  have hrun : ((ApprovalControl.new sampleExchange.approval sampleExchange.start).toOption.any fun control =>
      ((sampleExchangeLabels ++ sampleLateCancellation).foldlM (sampleNext false)
        (initialState sampleExchange control)).any fun s =>
          decide (s.final = some sampleWorkerResult) && decide (s.toCli = s.sent) &&
            decide (s.sent.length = 2) && s.cli.phase.brokeDown) = true := by
    decide +kernel
  obtain ⟨control, hcontrol, hrun⟩ := (Option.any_eq_true _ _).mp hrun
  have hnew := toOption_eq_some hcontrol
  obtain ⟨s, hfold, hstate⟩ := (Option.any_eq_true _ _).mp hrun
  rw [Bool.and_eq_true, Bool.and_eq_true, Bool.and_eq_true, decide_eq_true_iff, decide_eq_true_iff,
    decide_eq_true_iff] at hstate
  obtain ⟨⟨⟨hfinal, htoCli⟩, hlength⟩, hphase⟩ := hstate
  have hsteps : Steps sampleExchange.Step (initialState sampleExchange control)
      (sampleExchangeLabels ++ sampleLateCancellation) s :=
    (steps_iff_foldlM.mpr hfold).mono fun label hlabel m m' hm => (sampleNext_step hlabel hm).1
  refine ⟨control, s, hnew, sampleExchange_lawful, hsteps, hfinal, htoCli, hlength, ?_⟩
  exact CliPhase.eq_of_brokeDown hphase

end BaselineOps.Windows
