import Telegenic.Control.Deeds

/-! Every handler of the worker keeps the docket: what it does changes the
docket by the steps the docket allows. -/

set_option autoImplicit false

namespace Telegenic.Control

open Library Proto Proto.Gvcp

namespace ControlWorld

/-- An acknowledge that ends the transaction of a heartbeat without an error is
of the kind that was asked for. -/
def HeartbeatAnswered (datagram : List UInt8) (w : ControlWorld) : Prop :=
  ∀ inflight ack, w.runner.inflight = some inflight → inflight.op = .heartbeat → isCmd datagram = false →
    Ack.parse datagram = some ack → ack.ackId = inflight.id → ack.pendingAckTimeoutMs = none →
    ack.status.isError = false → ack.answer = readRegisterAck

def HeartbeatSent (answers : Answers) (w : ControlWorld) : Prop :=
  w.runner.inflight = none → w.runner.queue.head? = some .heartbeat → answers.sends = true

/-- The handler call does not make a heartbeat just fail: the socket takes its
command, and its acknowledge is of the kind asked for. -/
def HeartbeatServed (w : ControlWorld) : Handler → Prop
  | .datagram inbound => inbound.fromDevice = true → HeartbeatAnswered inbound.datagram w
  | .pump answers => HeartbeatSent answers w
  | _ => True

variable {reliable : Prop} {cfg : GigeConfig} {answers : Answers} {w later : ControlWorld} {inflight : Inflight}

theorem docket_record (event : ControlEvent) (w : ControlWorld) :
    (w.record event).docket = { w.docket with journal := w.docket.journal ++ [event] } := rfl

theorem docket_inflight (busy : w.runner.inflight = some inflight) : w.docket.inflight = some inflight.op := by
  rw [docket, busy]
  rfl

theorem Sends.step {op : Op} {send : PendingSend} (sends : Sends cfg answers op send w later)
    (idle : w.docket.inflight = none) (taken : reliable → op.isHeartbeat = true → answers.sends = true) :
    Docket.Step reliable { w.docket with queue := op :: w.docket.queue, payloads := send :: w.docket.payloads }
      later.docket := by
  cases sends with
  | launched => exact .launch idle rfl rfl
  | refused refused =>
    rw [docket_record, docket_record, List.append_assoc]
    refine .refuse idle rfl rfl fun isHeartbeat isReliable => ?_
    rw [taken isReliable isHeartbeat] at refused
    cases refused

theorem settle_steps {op : Op} {event : ControlEvent} {lost : Bool} {id : Nat} (settles : Settles reliable op event lost)
    (inflight : w.docket.inflight = some op)
    (docket : later.docket = { w.docket with
      inflight := none
      controlLost := w.docket.controlLost || lost
      journal := w.docket.journal ++ [.ended id] ++ [event] }) :
    Docket.Steps reliable w.docket later.docket := by
  rw [docket, List.append_assoc]
  exact .single (.settle inflight settles)

theorem note_steps (events : List ControlEvent) (isNote : ∀ event ∈ events, event.IsNote)
    (docket : later.docket = { w.docket with journal := w.docket.journal ++ events }) :
    Docket.Steps reliable w.docket later.docket := by
  rw [docket]
  exact .single (.note isNote)

theorem resume_step {next : Op} {send : PendingSend} {concatenation : Bool} {ack : Ack} (ordered : w.docket.Ordered)
    (busy : w.runner.inflight = some inflight) (more : inflight.op.answered concatenation ack = .more next send) :
    Docket.Step reliable w.docket { w.docket with
      queue := resumeQueue next w.runner.queue
      payloads := resumePayloads send w.runner.queue w.runner.queuedPayloads
      inflight := none
      journal := w.docket.journal ++ [.ended inflight.id] } := by
  have resumes := (Op.answered_more more).2
  obtain ⟨handle, isUser, same⟩ := resumes.isUser
  exact .resume (docket_inflight busy) isUser same (resumes.ready (ordered.sound _ (docket_inflight busy)))

theorem heartbeatPending_eq_false (absent : w.heartbeatPending = false) :
    w.docket.inflight ≠ some .heartbeat ∧ ∀ op ∈ w.docket.queue, op.isHeartbeat = false := by
  rw [heartbeatPending, Bool.or_eq_false_iff] at absent
  refine ⟨fun inflight => ?_, fun op present => Bool.eq_false_iff.mpr (List.any_eq_false.mp absent.2 op present)⟩
  obtain ⟨current, isCurrent, isHeartbeat⟩ := Option.map_eq_some_iff.mp inflight
  rw [isCurrent, Option.any_some, isHeartbeat] at absent
  cases absent.1

-- For any time: the kernel would compute with the period.
theorem setDue_docket (due : Nat) (w : ControlWorld) : (w.setDue due).docket = w.docket :=
  rfl

theorem queued_docket (due : Nat) (w : ControlWorld) : (((w.setDue due).setQueues (.heartbeat :: w.runner.queue)
    (.readRegs [Bootstrap.controlChannelPrivilege] :: w.runner.queuedPayloads)).record (.heartbeat .queued)).docket =
      { w.docket with
        queue := .heartbeat :: w.docket.queue
        payloads := .readRegs [Bootstrap.controlChannelPrivilege] :: w.docket.payloads
        journal := w.docket.journal ++ [.heartbeat .queued] } :=
  rfl

theorem resumeQueue_alone (op : Op) {queue : List Op} (send : PendingSend) (payloads : List PendingSend)
    (alone : queue.head? ≠ some .heartbeat) :
    resumeQueue op queue = op :: queue ∧ resumePayloads send queue payloads = send :: payloads := by
  cases queue with
  | nil => exact ⟨rfl, rfl⟩
  | cons first rest =>
    cases first with
    | heartbeat => exact absurd rfl alone
    | _ => exact ⟨rfl, rfl⟩

theorem push_steps (message : ToWorker) : Docket.Steps reliable w.docket (w.push message).docket := by
  unfold push
  cases user : message.handle with
  | none => exact .single (.post user)
  | some handle => exact .single (.enter user)

theorem Deed.steps {handler : Handler} (deed : Deed cfg w handler later) (ordered : w.docket.Ordered)
    (served : reliable → w.HeartbeatServed handler) : Docket.Steps reliable w.docket later.docket := by
  cases deed with
  | idles => exact .refl
  | @noted _ _ _ events acks =>
    refine note_steps events (fun event present => ?_) rfl
    obtain ⟨command, reqId, taken, rfl⟩ := acks event present
    trivial
  | extended busy =>
    rw [show (w.extend _ _ _).docket = w.docket from by simp only [extend, docket, setInflight, setStats, busy,
      Option.map_some]]
  | settled busy isUser answered outcome =>
    exact settle_steps (.user isUser (Op.answered_ne_mismatch outcome)) (docket_inflight busy)
      (by rw [Bool.or_false]; rfl)
  | timedOut busy isUser =>
    have other : Response.error .timeout ≠ .error mismatch := by simp [mismatch]
    exact settle_steps (.user isUser other) (docket_inflight busy) (by rw [Bool.or_false]; rfl)
  | parked busy answered more isQueue isPayloads =>
    have resumed : Docket.Step reliable w.docket _ := resume_step ordered busy more
    rw [isQueue, isPayloads] at resumed
    exact .single resumed
  | @resumed _ _ _ next _ stats _ busy answered more alone sends =>
    obtain ⟨handle, -, same⟩ := (Op.answered_more more).2.isUser
    have resumed : Docket.Step reliable w.docket _ := resume_step ordered busy more
    have sent : Docket.Step reliable _ later.docket := sends.step rfl fun _ isHeartbeat => by
      rw [Op.isHeartbeat_eq_false same] at isHeartbeat
      cases isHeartbeat
    obtain ⟨queue, payloads⟩ := resumeQueue_alone next _ _ alone
    rw [queue, payloads] at resumed
    exact .tail (.single resumed) sent
  | confirmed busy heartbeat =>
    exact settle_steps .confirmed (heartbeat ▸ docket_inflight busy) (by rw [Bool.or_false]; rfl)
  | lost busy heartbeat | expired busy heartbeat =>
    exact settle_steps .lost (heartbeat ▸ docket_inflight busy) (by rw [Bool.or_true]; rfl)
  | failed busy heartbeat answered noError unexpected other =>
    refine settle_steps (.failed (fun isReliable => ?_) other) (heartbeat ▸ docket_inflight busy)
      (by rw [Bool.or_false]; rfl)
    exact unexpected (served isReliable answered.fromDevice _ _ busy heartbeat answered.notCommand answered.parsed
      answered.matching answered.final noError)
  | pushed message => exact push_steps message
  | skipped plain channel => exact .single (.skip plain channel)
  | took isUser channel task =>
    obtain ⟨ready, handle, isHandle, owner⟩ := ToWorker.task_ready task
    cases isHandle.symm.trans isUser
    exact .single (.take isUser channel owner ready)
  | @retried answers inflight busy =>
    refine note_steps [.sent inflight.sent .retry answers.sends] (fun event present => ?_) ?_
    · rw [List.mem_singleton.mp present]
      trivial
    · simp only [retransmit, docket, record, setInflight, setStats, busy, Option.map_some]
  | postponed => rw [setDue_docket]
  | queued _ absent =>
    rw [queued_docket]
    exact .single (.due (heartbeatPending_eq_false absent).1 (heartbeatPending_eq_false absent).2)
  | @pumped answers op send queue payloads _ idle isQueue isPayloads sends =>
    have step := sends.step (by rw [docket, setQueues, idle]; rfl) fun isReliable isHeartbeat =>
      served isReliable idle (by rw [isQueue, Op.eq_heartbeat isHeartbeat]; rfl)
    have same : w.docket = { w.docket with queue := op :: queue, payloads := send :: payloads } := by
      rw [← isQueue, ← isPayloads]
      rfl
    rw [same]
    exact .single step

theorem Deed.moves {handler : Handler} (deed : Deed cfg w handler later) (ordered : w.docket.Ordered) :
    Docket.Steps False w.docket later.docket :=
  deed.steps ordered fun impossible => impossible.elim

theorem Deed.ordered {handler : Handler} (deed : Deed cfg w handler later) (ordered : w.docket.Ordered) :
    later.docket.Ordered :=
  (deed.moves ordered).ordered ordered

theorem handle_steps (cfg : GigeConfig) (handler : Handler) (ordered : w.docket.Ordered)
    (served : reliable → w.HeartbeatServed handler) :
    ∃ later, w.handle cfg handler = .ok later ∧ Docket.Steps reliable w.docket later.docket := by
  obtain ⟨later, result, deed⟩ := handle_deed cfg handler ordered
  exact ⟨later, result, deed.steps ordered served⟩

end ControlWorld

end Telegenic.Control
