import Telegenic.Control.Port
import Telegenic.Control.Vigil

/-! Every command that the worker sends is well formed. -/

set_option autoImplicit false

namespace Telegenic.Control

open Library Proto Proto.Gvcp

/-- The datagram is the next command of an operation with this handle. -/
def WellFormed (inWords : Prop) (handle : Option Nat) (datagram : List UInt8) : Prop :=
  ∃ concatenation op send id command, op.handle = handle ∧
    encodeOp concatenation id op send = .ok (some datagram) ∧ Next concatenation op send command ∧
    Spelled id command datagram ∧ (inWords → command.Aligned)

/-- The commands that were handed to the socket, with their handles. -/
def sentCommands (journal : List ControlEvent) : List (Option Nat × List UInt8) :=
  journal.filterMap fun
    | .sent datagram (.command handle) _ => some (handle, datagram)
    | _ => none

def AnsweredInWords (datagram : List UInt8) : Prop :=
  ∀ ack, Ack.parse datagram = some ack → ack.answer = readMemoryAck → ack.payload.length % 4 = 0

theorem sentCommands_append (journal rest : List ControlEvent) :
    sentCommands (journal ++ rest) = sentCommands journal ++ sentCommands rest :=
  List.filterMap_append

theorem Resumes.fits {inWords : Prop} {concatenation : Bool} {ack : Ack} {op next : Op} {send : PendingSend}
    (resumes : Resumes concatenation ack op next send) (fits : op.Fits inWords)
    (answered : inWords → ack.answer = readMemoryAck → ack.payload.length % 4 = 0)
    (expected : ack.answer = op.expectedAck) :
    next.Fits inWords ∧ send.Fits ∧ next.registersLeft ≤ op.registersLeft := by
  cases resumes with
  | readRegs =>
    refine ⟨fits, trivial, ?_⟩
    rw [Op.registersLeft, Op.registersLeft, List.length_append]
    omega
  | writeRegs =>
    refine ⟨fits, trivial, ?_⟩
    rw [Op.registersLeft, Op.registersLeft]
    omega
  | @readMem handle want nextAddr acc data payload more =>
    refine ⟨⟨Nat.mod_lt _ (by decide), fun isInWords => ?_⟩, trivial, le_rfl⟩
    have inFours : data.length % 4 = 0 := by
      have whole := answered isInWords expected
      rw [dropFrom?] at payload
      split at payload
      · cases payload
        rw [List.length_drop]
        omega
      · cases payload
    have aligned := fits.2 isInWords
    have sum : (nextAddr + data.length) % 4 = 0 := by omega
    exact (Nat.mod_mod_of_dvd _ (by decide)).trans sum
  | @writeMem handle offset baseAddr data more =>
    refine ⟨⟨fits.1, fits.2.1, ?_⟩, trivial, le_rfl⟩
    have inFours : (data.length - offset) % 4 = 0 := by
      have := fits.2
      omega
    have := chunkLen_mod_four inFours
    have := fits.2.2
    omega

namespace ControlWorld

variable {cfg : GigeConfig} {answers : Answers} {w later : ControlWorld} {inWords : Prop}

structure Fit (inWords : Prop) (w : ControlWorld) : Prop where
  channel : ∀ message ∈ w.channel, message.Fits
  queue : ∀ op ∈ w.runner.queue, op.Fits inWords
  payloads : ∀ send ∈ w.runner.queuedPayloads, send.Fits
  inflight : ∀ inflight ∈ w.runner.inflight, inflight.op.Fits inWords
  sent : ∀ command ∈ sentCommands w.journal, WellFormed inWords command.1 command.2

/-- The messages come through `ControlPort`, and a register command for a
device that takes several registers at once is no longer than its header can
say. -/
def Admitted (w : ControlWorld) : Handler → Prop
  | .push message => message.FromPort
  | .datagram inbound =>
      inbound.answers.concatenationNext = true → ∀ inflight ∈ w.runner.inflight, inflight.op.registersLeft ≤ 0xffff
  | .pump answers => answers.concatenationNext = true → ∀ op ∈ w.runner.queue.head?, op.registersLeft ≤ 0xffff
  | _ => True

def InWords (_ : ControlWorld) : Handler → Prop
  | .datagram inbound => AnsweredInWords inbound.datagram
  | _ => True

theorem Fit.congr (fit : Fit inWords w) (channel : later.channel = w.channel)
    (queue : later.runner.queue = w.runner.queue) (payloads : later.runner.queuedPayloads = w.runner.queuedPayloads)
    (inflight : later.runner.inflight = w.runner.inflight)
    (sent : sentCommands later.journal = sentCommands w.journal) : Fit inWords later :=
  ⟨channel ▸ fit.channel, queue ▸ fit.queue, payloads ▸ fit.payloads, inflight ▸ fit.inflight, sent ▸ fit.sent⟩

theorem Fit.record (fit : Fit inWords w) {event : ControlEvent} (aside : sentCommands [event] = []) :
    Fit inWords (w.record event) :=
  fit.congr rfl rfl rfl rfl (by rw [ControlWorld.record, sentCommands_append, aside, List.append_nil])

theorem Fit.ended (fit : Fit inWords w) (inflight : Inflight) (stats : LinkStats) :
    Fit inWords ((w.takeInflight inflight).setStats stats) := by
  have idle : Fit inWords (w.setInflight none) := ⟨fit.channel, fit.queue, fit.payloads, nofun, fit.sent⟩
  exact (idle.record rfl).congr rfl rfl rfl rfl rfl

theorem Fit.flies (fit : Fit inWords w) {op : Op} (opFits : op.Fits inWords)
    (channel : later.channel = w.channel) (queue : later.runner.queue = w.runner.queue)
    (payloads : later.runner.queuedPayloads = w.runner.queuedPayloads)
    (flies : later.runner.inflight.map (·.op) = some op) (sent : sentCommands later.journal = sentCommands w.journal) : Fit inWords later := by
  refine ⟨channel ▸ fit.channel, queue ▸ fit.queue, payloads ▸ fit.payloads, ?_, sent ▸ fit.sent⟩
  intro other present
  rw [show later.runner.inflight = some other from present, Option.map_some] at flies
  cases flies
  exact opFits

theorem failure_aside (op : Op) (error : CameraError) : sentCommands [failure op error] = [] := by
  rw [failure]
  cases op.handle <;> rfl

theorem Sends.fit {op : Op} {send : PendingSend} (sends : Sends cfg answers op send w later) (fit : Fit inWords w)
    (opFits : op.Fits inWords) (sendFits : send.Fits)
    (short : answers.concatenationNext = true → op.registersLeft ≤ 0xffff) : Fit inWords later := by
  have recorded {datagram : List UInt8} (taken : Bool)
      (encodes : encodeOp answers.concatenationNext w.takeId.runner.nextId op send = .ok (some datagram)) :
      Fit inWords (w.takeId.record (.sent datagram (.command op.handle) taken)) := by
    obtain ⟨command, next, rfl⟩ := encodeOp_next encodes
    refine ⟨fit.channel, fit.queue, fit.payloads, fit.inflight, ?_⟩
    rw [ControlWorld.record, sentCommands_append]
    refine List.forall_mem_append.mpr ⟨fit.sent, List.forall_mem_singleton.mpr ?_⟩
    exact ⟨_, op, send, _, command, rfl, encodes, next, next.spelled opFits sendFits short (nextId_lt _),
      next.aligned opFits⟩
  cases sends with
  | launched _ encodes => exact (recorded true encodes).flies opFits rfl rfl rfl rfl rfl
  | refused _ encodes => exact (recorded false encodes).record (failure_aside op .io)

theorem Fit.queues (fit : Fit inWords w) {queue : List Op} {payloads : List PendingSend}
    (opsFit : ∀ op ∈ queue, op.Fits inWords) (sendsFit : ∀ send ∈ payloads, send.Fits) :
    Fit inWords (w.setQueues queue payloads) :=
  ⟨fit.channel, opsFit, sendsFit, fit.inflight, fit.sent⟩

theorem Fit.took {message : ToWorker} {op : Op} {send : PendingSend} (fits : message.Fits)
    (task : message.task = some (op, send)) : op.Fits inWords ∧ send.Fits := by
  cases message with
  | readReg addr handle =>
    cases task
    exact ⟨trivial, le_rfl, List.forall_mem_singleton.mpr fits⟩
  | readRegs | writeRegs =>
    cases task
    exact ⟨fits, trivial⟩
  | readMem addr len handle =>
    cases task
    exact ⟨⟨fits.1, fun _ => fits.2⟩, trivial⟩
  | writeMem addr data handle =>
    cases task
    exact ⟨⟨fits.1, fits.2, rfl⟩, trivial⟩
  | subscribeEvents | shutdown => cases task

theorem Deed.fit {handler : Handler} (deed : Deed cfg w handler later) (fit : Fit inWords w)
    (admitted : w.Admitted handler) (answered : inWords → w.InWords handler) : Fit inWords later := by
  cases deed with
  | idles => exact fit
  | @noted _ _ _ events acks =>
    refine fit.congr rfl rfl rfl rfl ?_
    have aside : sentCommands events = [] := List.filterMap_eq_nil_iff.mpr fun event present => by
      obtain ⟨command, reqId, taken, rfl⟩ := acks event present
      rfl
    rw [sentCommands_append, aside, List.append_nil]
  | extended busy => exact fit.flies (fit.inflight _ busy) rfl rfl rfl rfl rfl
  | settled | confirmed | failed | timedOut => exact (fit.ended _ _).record rfl
  | parked busy isAnswered more isQueue isPayloads =>
    obtain ⟨expected, resumes⟩ := Op.answered_more more
    obtain ⟨nextFits, sendFits, -⟩ := resumes.fits (fit.inflight _ busy)
      (fun isInWords => answered isInWords _ isAnswered.parsed) expected
    have ops := List.forall_mem_cons.mp (isQueue ▸ fit.queue)
    have sends := List.forall_mem_cons.mp (isPayloads ▸ fit.payloads)
    exact (fit.ended _ _).queues (List.forall_mem_cons.mpr ⟨ops.1, List.forall_mem_cons.mpr ⟨nextFits, ops.2⟩⟩)
      (List.forall_mem_cons.mpr ⟨sends.1, List.forall_mem_cons.mpr ⟨sendFits, sends.2⟩⟩)
  | resumed busy isAnswered more _ sends =>
    obtain ⟨expected, resumes⟩ := Op.answered_more more
    obtain ⟨nextFits, sendFits, less⟩ := resumes.fits (fit.inflight _ busy)
      (fun isInWords => answered isInWords _ isAnswered.parsed) expected
    exact sends.fit (fit.ended _ _) nextFits sendFits fun flag => less.trans (admitted flag _ busy)
  | lost | expired => exact ((fit.ended _ {}).record rfl).congr rfl rfl rfl rfl rfl
  | pushed message =>
    have longer : Fit inWords { w with channel := w.channel ++ [message] } :=
      ⟨List.forall_mem_append.mpr ⟨fit.channel, List.forall_mem_singleton.mpr (ToWorker.FromPort.fits admitted)⟩,
        fit.queue, fit.payloads, fit.inflight, fit.sent⟩
    rw [push]
    cases message.handle with
    | none => exact longer
    | some handle => exact longer.record rfl
  | skipped _ channel =>
    exact ⟨(List.forall_mem_cons.mp (channel ▸ fit.channel)).2, fit.queue, fit.payloads, fit.inflight, fit.sent⟩
  | took _ channel task =>
    obtain ⟨first, rest⟩ := List.forall_mem_cons.mp (channel ▸ fit.channel)
    obtain ⟨opFits, sendFits⟩ := Fit.took first task
    have shorter : Fit inWords { w with channel := _ } := ⟨rest, fit.queue, fit.payloads, fit.inflight, fit.sent⟩
    exact (shorter.record rfl).queues (List.forall_mem_append.mpr ⟨fit.queue, List.forall_mem_singleton.mpr opFits⟩)
      (List.forall_mem_append.mpr ⟨fit.payloads, List.forall_mem_singleton.mpr sendFits⟩)
  | retried busy => exact (fit.record rfl).flies (fit.inflight _ busy) rfl rfl rfl rfl rfl
  | postponed => exact fit.congr rfl rfl rfl rfl rfl
  | queued =>
    have heartbeat : PendingSend.Fits (.readRegs [Bootstrap.controlChannelPrivilege]) :=
      ⟨le_rfl, List.forall_mem_singleton.mpr (by decide)⟩
    have queued : Fit inWords (w.setQueues (.heartbeat :: w.runner.queue) (_ :: w.runner.queuedPayloads)) :=
      fit.queues (List.forall_mem_cons.mpr ⟨trivial, fit.queue⟩) (List.forall_mem_cons.mpr ⟨heartbeat, fit.payloads⟩)
    exact (queued.record rfl).congr rfl rfl rfl rfl rfl
  | pumped _ isQueue isPayloads sends =>
    have ops := List.forall_mem_cons.mp (isQueue ▸ fit.queue)
    have payloads := List.forall_mem_cons.mp (isPayloads ▸ fit.payloads)
    exact sends.fit (fit.queues ops.2 payloads.2) ops.1 payloads.1 fun flag =>
      admitted flag _ (by rw [isQueue]; rfl)

theorem handleAll_fit (handlers : List Handler) : ∀ {w later : ControlWorld}, w.docket.Ordered → Fit inWords w →
    Along cfg Admitted handlers w → (inWords → Along cfg InWords handlers w) → w.handleAll cfg handlers = .ok later →
    Fit inWords later := by
  induction handlers with
  | nil =>
    intro w later _ fit _ _ result
    cases result
    exact fit
  | cons handler rest ih =>
    intro w later ordered fit admitted answered result
    obtain ⟨next, handled, result⟩ := Checked.bind_eq_ok result
    have deed := Deed.of_handle ordered handled
    have restAdmitted := admitted.2
    rw [handled] at restAdmitted
    refine ih (deed.ordered ordered) (deed.fit fit admitted.1 fun isInWords => (answered isInWords).1) restAdmitted ?_
      result
    intro isInWords
    have restAnswered := (answered isInWords).2
    rwa [handled] at restAnswered

theorem spawn_fit (cfg : GigeConfig) (now : Nat) : Fit inWords (spawn cfg now) :=
  ⟨nofun, nofun, nofun, nofun, nofun⟩

end ControlWorld

open ControlWorld

/-- The surroundings of a worker whose device takes several registers at once. -/
def concatenating : Answers := ⟨0, 0, true, true, true, []⟩

theorem registers_sent_at_once (addrs : List Nat) :
    ∃ w, (spawn ⟨1, 0, 30⟩ 0).handleAll ⟨1, 0, 30⟩ [.push (.readRegs addrs 7), .message, .pump concatenating] = .ok w ∧
      sentCommands w.journal = [(some 7, encodeReadReg addrs 1)] := by
  have whole : encodeOp true 1 (.readRegs 7 addrs []) .readRegsChunk = .ok (some (encodeReadReg addrs 1)) := by
    have within : ([] : List Nat).length ≤ addrs.length := Nat.zero_le _
    simp only [encodeOp, Checked.sub_ok within, Checked.ok_bind, Checked.chunk_ok within (regsPerCommand_le _ _)]
    simp [regsPerCommand]
  let taken := ((spawn ⟨1, 0, 30⟩ 0).push (.readRegs addrs 7)).takeMessage.setQueues [] []
  refine ⟨(taken.takeId.record (.sent (encodeReadReg addrs 1) (.command (some 7)) true)).launch ⟨1, 0, 30⟩ 0
    (.readRegs 7 addrs []) (encodeReadReg addrs 1), ?_, rfl⟩
  have sends : taken.sendOp ⟨1, 0, 30⟩ concatenating (.readRegs 7 addrs []) .readRegsChunk = .ok _ :=
    congrArg (· >>= _) whole
  exact congrArg (· >>= _) sends

end Telegenic.Control
