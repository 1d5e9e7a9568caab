import Telegenic.Control.Docket

/-! What a handler call of the worker can do. With its queues in order the
worker does not fault, and whatever a handler does is one of the deeds below;
every invariant of the worker is derived from them. -/

set_option autoImplicit false

namespace Telegenic.Control

open Library Proto Proto.Gvcp

/-- One handler call of the worker, or a message another thread puts into its
channel. -/
inductive Handler where
  | datagram (inbound : Inbound)
  | push (message : ToWorker)
  | message
  | deadline (answers : Answers)
  | heartbeat (answers : Answers)
  | pump (answers : Answers)
  deriving DecidableEq, Repr

/-- The clock a handler reads; putting a message into the channel and taking
one out reads none. -/
def Handler.answers : Handler → Answers
  | .datagram inbound => inbound.answers
  | .deadline answers | .heartbeat answers | .pump answers => answers
  | .push _ | .message => ⟨0, 0, false, false, false, []⟩

namespace ControlWorld

def takeMessage (w : ControlWorld) : ControlWorld :=
  match w.channel with
  | [] => w
  | message :: rest => { w with channel := rest }.receive message

def handle (cfg : GigeConfig) (w : ControlWorld) : Handler → Checked ControlWorld
  | .datagram inbound => w.recvFrom cfg inbound
  | .push message => .ok (w.push message)
  | .message => .ok w.takeMessage
  | .deadline answers => .ok (w.checkInflightDeadline cfg answers)
  | .heartbeat answers => .ok (w.checkHeartbeat cfg answers)
  | .pump answers => w.pump cfg answers

def setDue (due : Nat) (w : ControlWorld) : ControlWorld :=
  { w with runner := { w.runner with heartbeatDue := due } }

end ControlWorld

/-! ## Operations and their acknowledges -/

/-- The operation a message asks for, and what its first command is encoded
from. -/
def ToWorker.task : ToWorker → Option (Op × PendingSend)
  | readReg addr handle => some (.readReg handle, .readRegs [addr])
  | readRegs addrs handle => some (.readRegs handle addrs [], .readRegsChunk)
  | writeRegs pairs handle => some (.writeRegs handle pairs 0, .writeRegsChunk)
  | readMem addr len handle => some (.readMem handle [] len addr, .readMemChunk)
  | writeMem addr data handle => some (.writeMem handle data 0 addr, .writeMemChunk)
  | subscribeEvents _ | shutdown => none

/-- What an acknowledge makes of an operation. -/
inductive Outcome where
  | settled (response : Response)
  | more (next : Op) (send : PendingSend)
  deriving DecidableEq, Repr

/-- What an acknowledge makes of a user's operation, whatever else the worker
holds. -/
def Op.answered (concatenation : Bool) (ack : Ack) (op : Op) : Outcome :=
  if ack.status.isError then
    .settled (.error (.nak ((op.expectedAck + (2 ^ 16 - 1)) % 2 ^ 16) ack.status))
  else if ack.answer ≠ op.expectedAck then
    .settled (.error (.protocol ("expected ack " ++ hexWord op.expectedAck ++ ", got " ++ hexWord ack.answer)))
  else
    match op with
    | .readReg _ =>
        match ack.registerValues with
        | value :: _ => .settled (.ok (.word value))
        | [] => .settled (.error (.protocol "empty read register ack"))
    | .readRegs handle addrs acc =>
        let want := regsPerCommand concatenation (addrs.length - acc.length)
        let values := ack.registerValues
        if values.length ≠ want then
          .settled (.error (.protocol
            ("read register ack carried " ++ toString values.length ++ " values, expected " ++ toString want)))
        else if (acc ++ values).length = addrs.length then
          .settled (.ok (.words (acc ++ values)))
        else
          .more (.readRegs handle addrs (acc ++ values)) .readRegsChunk
    | .writeRegs handle pairs completed =>
        let completed := completed + regsPerCommand concatenation (pairs.length - completed)
        if pairs.length ≤ completed then
          .settled (.ok .done)
        else
          .more (.writeRegs handle pairs completed) .writeRegsChunk
    | .readMem handle acc want nextAddr =>
        match dropFrom? ack.payload 4 with
        | none => .settled (.error (.protocol "short read memory ack"))
        | some data =>
            let take := min data.length (want - acc.length)
            let acc := acc ++ data.take take
            if want ≤ acc.length then
              .settled (.ok (.bytes acc))
            else if data.isEmpty then
              .settled (.error (.protocol "empty read memory ack"))
            else
              .more (.readMem handle acc want ((nextAddr + take) % 2 ^ 32)) .readMemChunk
    | .writeMem handle data offset baseAddr =>
        let offset := offset + chunkLen (data.length - offset)
        if data.length ≤ offset then
          .settled (.ok .done)
        else
          .more (.writeMem handle data offset baseAddr) .writeMemChunk
    -- A heartbeat has no handle to settle.
    | .heartbeat => .settled (.ok .done)

theorem regsPerCommand_le (concatenation : Bool) (remaining : Nat) :
    regsPerCommand concatenation remaining ≤ remaining := by
  cases concatenation with
  | true => exact le_rfl
  | false => exact min_le_left _ _

theorem chunkLen_le (remaining : Nat) : chunkLen remaining ≤ remaining := min_le_left _ _

theorem protocol_ne_mismatch {message : String} (starts : message.toList.head? ≠ some 'i') :
    CameraError.protocol message ≠ mismatch := by
  intro same
  rw [CameraError.protocol.inj same] at starts
  exact starts (by decide)

theorem ToWorker.task_ready {message : ToWorker} {op : Op} {send : PendingSend}
    (task : message.task = some (op, send)) : Ready op send ∧ ∃ handle, message.handle = some handle ∧
      op.handle = some handle := by
  cases message with
  | readReg addr handle =>
    cases task
    exact ⟨⟨.readReg, trivial⟩, handle, rfl, rfl⟩
  | readRegs addrs handle =>
    cases task
    exact ⟨⟨.readRegs, Nat.zero_le _⟩, handle, rfl, rfl⟩
  | writeRegs pairs handle =>
    cases task
    exact ⟨⟨.writeRegs, Nat.zero_le _⟩, handle, rfl, rfl⟩
  | readMem addr len handle =>
    cases task
    exact ⟨⟨.readMem, Nat.zero_le _⟩, handle, rfl, rfl⟩
  | writeMem addr data handle =>
    cases task
    exact ⟨⟨.writeMem, Nat.zero_le _⟩, handle, rfl, rfl⟩
  | subscribeEvents | shutdown => cases task

/-- How an acknowledge moves an operation on to its next command. -/
inductive Resumes (concatenation : Bool) (ack : Ack) : Op → Op → PendingSend → Prop where
  | readRegs {handle : Nat} {addrs acc : List Nat}
      (counted : ack.registerValues.length = regsPerCommand concatenation (addrs.length - acc.length))
      (more : acc.length + ack.registerValues.length ≠ addrs.length) :
      Resumes concatenation ack (.readRegs handle addrs acc) (.readRegs handle addrs (acc ++ ack.registerValues))
        .readRegsChunk
  | writeRegs {handle completed : Nat} {pairs : List (Nat × Nat)}
      (more : completed + regsPerCommand concatenation (pairs.length - completed) < pairs.length) :
      Resumes concatenation ack (.writeRegs handle pairs completed)
        (.writeRegs handle pairs (completed + regsPerCommand concatenation (pairs.length - completed)))
        .writeRegsChunk
  | readMem {handle want nextAddr : Nat} {acc data : List UInt8} (payload : dropFrom? ack.payload 4 = some data)
      (more : acc.length + data.length < want) :
      Resumes concatenation ack (.readMem handle acc want nextAddr)
        (.readMem handle (acc ++ data) want ((nextAddr + data.length) % 2 ^ 32)) .readMemChunk
  | writeMem {handle offset baseAddr : Nat} {data : List UInt8}
      (more : offset + chunkLen (data.length - offset) < data.length) :
      Resumes concatenation ack (.writeMem handle data offset baseAddr)
        (.writeMem handle data (offset + chunkLen (data.length - offset)) baseAddr) .writeMemChunk

section Answered

variable {concatenation : Bool} {ack : Ack} {op next : Op} {send : PendingSend} {response : Response}

theorem Op.answered_more (answered : op.answered concatenation ack = .more next send) :
    ack.answer = op.expectedAck ∧ Resumes concatenation ack op next send := by
  unfold Op.answered at answered
  split at answered
  · cases answered
  split at answered
  · cases answered
  rename_i expected
  refine ⟨not_not.mp expected, ?_⟩
  cases op with
  | readReg handle =>
    simp only at answered
    split at answered <;> cases answered
  | readRegs handle addrs acc =>
    simp only at answered
    split at answered
    · cases answered
    · rename_i counted
      split at answered
      · cases answered
      · rename_i more
        cases answered
        rw [List.length_append] at more
        exact .readRegs (not_not.mp counted) more
  | writeRegs handle pairs completed =>
    simp only at answered
    split at answered
    · cases answered
    · rename_i more
      cases answered
      exact .writeRegs (not_le.mp more)
  | readMem handle acc want nextAddr =>
    simp only at answered
    split at answered
    · cases answered
    · rename_i data payload
      split at answered
      · cases answered
      · rename_i short
        split at answered
        · cases answered
        · have whole : min data.length (want - acc.length) = data.length := by
            rw [List.length_append, List.length_take] at short
            omega
          rw [whole, List.take_length] at answered short
          cases answered
          rw [List.length_append] at short
          exact .readMem payload (not_le.mp short)
  | writeMem handle data offset baseAddr =>
    simp only at answered
    split at answered
    · cases answered
    · rename_i more
      cases answered
      exact .writeMem (not_le.mp more)
  | heartbeat => cases answered

theorem Resumes.isUser (resumes : Resumes concatenation ack op next send) :
    ∃ handle, op.handle = some handle ∧ next.handle = some handle := by
  cases resumes <;> exact ⟨_, rfl, rfl⟩

theorem Resumes.ready (resumes : Resumes concatenation ack op next send) (sound : op.Sound) : Ready next send := by
  cases resumes with
  | @readRegs handle addrs acc counted =>
    have within : acc.length ≤ addrs.length := sound
    have few := regsPerCommand_le concatenation (addrs.length - acc.length)
    refine ⟨.readRegs, ?_⟩
    rw [Op.Sound, List.length_append]
    omega
  | writeRegs more => exact ⟨.writeRegs, more.le⟩
  | readMem _ more =>
    refine ⟨.readMem, ?_⟩
    rw [Op.Sound, List.length_append]
    exact more.le
  | writeMem more => exact ⟨.writeMem, more.le⟩

theorem Op.answered_ne_mismatch (answered : op.answered concatenation ack = .settled response) :
    response ≠ .error mismatch := by
  have expected : ∀ message : String, message.toList.head? ≠ some 'i' →
      Response.error (.protocol message) ≠ .error mismatch := fun message starts same =>
    protocol_ne_mismatch starts (Response.error.inj same)
  unfold Op.answered at answered
  split at answered
  · cases answered
    exact fun same => by cases same
  split at answered
  · cases answered
    exact expected _ (by simp [String.toList_append])
  cases op with
  | readReg handle =>
    simp only at answered
    split at answered
    · cases answered
      exact fun same => by cases same
    · cases answered
      exact expected _ (by decide)
  | readRegs handle addrs acc =>
    simp only at answered
    split at answered
    · cases answered
      exact expected _ (by simp [String.toList_append])
    · split at answered
      · cases answered
        exact fun same => by cases same
      · cases answered
  | writeRegs | writeMem =>
    simp only at answered
    split at answered
    · cases answered
      exact fun same => by cases same
    · cases answered
  | readMem handle acc want nextAddr =>
    simp only at answered
    split at answered
    · cases answered
      exact expected _ (by decide)
    · split at answered
      · cases answered
        exact fun same => by cases same
      · split at answered
        · cases answered
          exact expected _ (by decide)
        · cases answered
  | heartbeat =>
    cases answered
    exact fun same => by cases same

end Answered

namespace ControlWorld

variable {cfg : GigeConfig} {answers : Answers} {w : ControlWorld} {ack : Ack}

theorem fail_eq (op : Op) (error : CameraError) (w : ControlWorld) : w.fail op error = w.record (failure op error) := by
  rw [fail, failure]
  cases op.handle <;> rfl

/-- What becomes of the operation whose transaction just ended. -/
def conclude (cfg : GigeConfig) (answers : Answers) (handle : Nat) (w : ControlWorld) : Outcome → Checked ControlWorld
  | .settled response => .ok (w.record (.resolved handle response))
  | .more next send => w.continueOp cfg answers next send

theorem onAck_user (cfg : GigeConfig) (answers : Answers) (ack : Ack) (w : ControlWorld) {op : Op} {handle : Nat}
    (isUser : op.handle = some handle) (sound : op.Sound) : ∃ stats,
    w.onAck cfg answers op ack =
      (w.setStats stats).conclude cfg answers handle (op.answered answers.concatenation ack) := by
  have user : op.isHeartbeat = false := Op.isHeartbeat_eq_false isUser
  have failed : ∀ (error : CameraError) (v : ControlWorld), v.fail op error = v.record (.resolved handle (.error error)) := by
    intro error v
    rw [fail, isUser]
  unfold onAck Op.answered
  simp only [user, Bool.false_eq_true, if_false, failed]
  split
  · exact ⟨_, rfl⟩
  refine ⟨{ w.runner.stats with acks := w.runner.stats.acks + 1 }, ?_⟩
  split
  · rfl
  cases op with
  | heartbeat => cases user
  | readReg _ =>
    cases isUser
    simp only
    cases ack.registerValues <;> rfl
  | readRegs _ addrs acc =>
    cases isUser
    simp only [onReadRegs, Checked.sub_ok (show acc.length ≤ addrs.length from sound), Checked.ok_bind]
    split
    · rfl
    · split <;> rfl
  | writeRegs _ pairs completed =>
    cases isUser
    simp only [onWriteRegs, Checked.sub_ok (show completed ≤ pairs.length from sound), Checked.ok_bind]
    split <;> rfl
  | readMem _ acc want nextAddr =>
    cases isUser
    simp only [onReadMem, Checked.sub_ok (show acc.length ≤ want from sound), Checked.ok_bind,
      Checked.takeTo_ok (min_le_left _ _)]
    cases dropFrom? ack.payload 4 with
    | none => rfl
    | some data =>
      simp only
      split
      · rfl
      · split <;> rfl
  | writeMem _ data offset baseAddr =>
    cases isUser
    simp only [onWriteMem, Checked.sub_ok (show offset ≤ data.length from sound), Checked.ok_bind]
    split <;> rfl

/-- The command of an operation is handed to the socket, which takes it or
not. -/
inductive Sends (cfg : GigeConfig) (answers : Answers) (op : Op) (send : PendingSend) (w : ControlWorld) :
    ControlWorld → Prop where
  | launched {datagram : List UInt8} (taken : answers.sends = true)
      (encodes : encodeOp answers.concatenationNext w.takeId.runner.nextId op send = .ok (some datagram)) :
      Sends cfg answers op send w
        ((w.takeId.record (.sent datagram (.command op.handle) true)).launch cfg answers.now op datagram)
  | refused {datagram : List UInt8} (refused : answers.sends = false)
      (encodes : encodeOp answers.concatenationNext w.takeId.runner.nextId op send = .ok (some datagram)) :
      Sends cfg answers op send w
        ((w.takeId.record (.sent datagram (.command op.handle) false)).record (failure op .io))

/-- The datagram is the acknowledge that ends the transaction. -/
structure Answered (inflight : Inflight) (ack : Ack) (inbound : Inbound) : Prop where
  fromDevice : inbound.fromDevice = true
  notCommand : isCmd inbound.datagram = false
  parsed : Ack.parse inbound.datagram = some ack
  matching : ack.ackId = inflight.id
  final : ack.pendingAckTimeoutMs = none

/-- The handler leaves everything as it is. -/
def Idles (w : ControlWorld) : Handler → Prop
  | .datagram _ => True
  | .push _ => False
  | .message => w.channel = []
  | .deadline answers => ∀ inflight ∈ w.runner.inflight, answers.now < inflight.deadline
  | .heartbeat answers => answers.now < w.runner.heartbeatDue
  | .pump _ => w.runner.inflight ≠ none ∨ w.runner.queue = []

inductive Deed (cfg : GigeConfig) (w : ControlWorld) : Handler → ControlWorld → Prop where
  | idles {handler : Handler} (idles : w.Idles handler) : Deed cfg w handler w
  | noted {inbound : Inbound} {stats : LinkStats} {eventTxs : List Nat} {events : List ControlEvent}
      (acks : ∀ event ∈ events, ∃ command reqId taken, event = .sent (encodeEventAck command reqId) .eventAck taken) :
      Deed cfg w (.datagram inbound)
        { w with runner := { w.runner with stats := stats, eventTxs := eventTxs }, journal := w.journal ++ events }
  | extended {inbound : Inbound} {inflight : Inflight} {ms : Nat} (busy : w.runner.inflight = some inflight) :
      Deed cfg w (.datagram inbound) (w.extend ms inbound.answers.now inflight)
  | settled {inbound : Inbound} {inflight : Inflight} {ack : Ack} {handle : Nat} {response : Response}
      {stats : LinkStats} (busy : w.runner.inflight = some inflight) (isUser : inflight.op.handle = some handle)
      (answered : Answered inflight ack inbound)
      (outcome : inflight.op.answered inbound.answers.concatenation ack = .settled response) :
      Deed cfg w (.datagram inbound) (((w.takeInflight inflight).setStats stats).record (.resolved handle response))
  | parked {inbound : Inbound} {inflight : Inflight} {ack : Ack} {next : Op} {send first : PendingSend}
      {queue : List Op} {payloads : List PendingSend} {stats : LinkStats} (busy : w.runner.inflight = some inflight)
      (answered : Answered inflight ack inbound)
      (more : inflight.op.answered inbound.answers.concatenation ack = .more next send)
      (isQueue : w.runner.queue = .heartbeat :: queue) (isPayloads : w.runner.queuedPayloads = first :: payloads) :
      Deed cfg w (.datagram inbound)
        (((w.takeInflight inflight).setStats stats).setQueues (.heartbeat :: next :: queue) (first :: send :: payloads))
  | resumed {inbound : Inbound} {inflight : Inflight} {ack : Ack} {next : Op} {send : PendingSend}
      {stats : LinkStats} {later : ControlWorld} (busy : w.runner.inflight = some inflight)
      (answered : Answered inflight ack inbound)
      (more : inflight.op.answered inbound.answers.concatenation ack = .more next send)
      (alone : w.runner.queue.head? ≠ some .heartbeat)
      (sends : Sends cfg inbound.answers next send ((w.takeInflight inflight).setStats stats) later) :
      Deed cfg w (.datagram inbound) later
  | confirmed {inbound : Inbound} {inflight : Inflight} {stats : LinkStats}
      (busy : w.runner.inflight = some inflight) (heartbeat : inflight.op = .heartbeat) :
      Deed cfg w (.datagram inbound) (((w.takeInflight inflight).setStats stats).record (.heartbeat .confirmed))
  | lost {inbound : Inbound} {inflight : Inflight} {stats : LinkStats} (busy : w.runner.inflight = some inflight)
      (heartbeat : inflight.op = .heartbeat) :
      Deed cfg w (.datagram inbound) ((w.takeInflight inflight).setStats stats).loseControl
  | failed {inbound : Inbound} {inflight : Inflight} {ack : Ack} {error : CameraError} {stats : LinkStats}
      (busy : w.runner.inflight = some inflight) (heartbeat : inflight.op = .heartbeat)
      (answered : Answered inflight ack inbound) (noError : ack.status.isError = false)
      (unexpected : ack.answer ≠ readRegisterAck) (other : error ≠ mismatch) :
      Deed cfg w (.datagram inbound) (((w.takeInflight inflight).setStats stats).record (.heartbeat (.failed error)))
  | pushed (message : ToWorker) : Deed cfg w (.push message) (w.push message)
  | skipped {message : ToWorker} {rest : List ToWorker} {eventTxs : List Nat} (plain : message.handle = none)
      (channel : w.channel = message :: rest) :
      Deed cfg w .message { w with channel := rest, runner := { w.runner with eventTxs := eventTxs } }
  | took {message : ToWorker} {rest : List ToWorker} {handle : Nat} {op : Op} {send : PendingSend}
      (isUser : message.handle = some handle) (channel : w.channel = message :: rest)
      (task : message.task = some (op, send)) :
      Deed cfg w .message (({ w with channel := rest }.record (.took handle)).enqueue op send)
  | retried {answers : Answers} {inflight : Inflight} (busy : w.runner.inflight = some inflight)
      (due : inflight.deadline ≤ answers.now) (left : 0 < inflight.triesLeft) :
      Deed cfg w (.deadline answers) (w.retransmit cfg answers inflight)
  | timedOut {answers : Answers} {inflight : Inflight} {handle : Nat} {stats : LinkStats}
      (busy : w.runner.inflight = some inflight) (isUser : inflight.op.handle = some handle) :
      Deed cfg w (.deadline answers)
        (((w.takeInflight inflight).setStats stats).record (.resolved handle (.error .timeout)))
  | expired {answers : Answers} {inflight : Inflight} {stats : LinkStats} (busy : w.runner.inflight = some inflight)
      (heartbeat : inflight.op = .heartbeat) :
      Deed cfg w (.deadline answers) ((w.takeInflight inflight).setStats stats).loseControl
  | postponed {answers : Answers} {next : Nat} (due : w.runner.heartbeatDue ≤ answers.now)
      (pending : w.heartbeatPending = true) (isNext : next = answers.later + heartbeatPeriod cfg) :
      Deed cfg w (.heartbeat answers) (w.setDue next)
  | queued {answers : Answers} {next : Nat} (due : w.runner.heartbeatDue ≤ answers.now)
      (absent : w.heartbeatPending = false) (isNext : next = answers.later + heartbeatPeriod cfg) :
      Deed cfg w (.heartbeat answers)
        (((w.setDue next).setQueues (.heartbeat :: w.runner.queue)
          (.readRegs [Bootstrap.controlChannelPrivilege] :: w.runner.queuedPayloads)).record (.heartbeat .queued))
  | pumped {answers : Answers} {op : Op} {send : PendingSend} {queue : List Op} {payloads : List PendingSend}
      {later : ControlWorld} (idle : w.runner.inflight = none) (isQueue : w.runner.queue = op :: queue)
      (isPayloads : w.runner.queuedPayloads = send :: payloads)
      (sends : Sends cfg answers op send (w.setQueues queue payloads) later) : Deed cfg w (.pump answers) later

/-! ## Every handler does one of them -/

theorem encodeOp_ready {op : Op} {send : PendingSend} (ready : Ready op send) (concatenation : Bool) (id : Nat) :
    ∃ datagram, encodeOp concatenation id op send = .ok (some datagram) := by
  obtain ⟨kind, sound⟩ := ready
  cases kind with
  | readReg => exact ⟨_, rfl⟩
  | @readRegs handle addrs acc =>
    have within : acc.length ≤ addrs.length := sound
    simp only [encodeOp, Checked.sub_ok within, Checked.ok_bind, Checked.chunk_ok within (regsPerCommand_le _ _)]
    exact ⟨_, rfl⟩
  | @writeRegs handle completed pairs =>
    have within : completed ≤ pairs.length := sound
    simp only [encodeOp, Checked.sub_ok within, Checked.ok_bind, Checked.chunk_ok within (regsPerCommand_le _ _)]
    exact ⟨_, rfl⟩
  | @readMem handle want nextAddr acc =>
    rw [encodeOp, Checked.sub_ok (show acc.length ≤ want from sound)]
    exact ⟨_, rfl⟩
  | @writeMem handle offset baseAddr data =>
    have within : offset ≤ data.length := sound
    simp only [encodeOp, Checked.sub_ok within, Checked.ok_bind, Checked.chunk_ok within (chunkLen_le _)]
    exact ⟨_, rfl⟩
  | heartbeat => exact ⟨_, rfl⟩

theorem sendOp_deed (cfg : GigeConfig) (answers : Answers) (w : ControlWorld) {op : Op} {send : PendingSend}
    (ready : Ready op send) :
    ∃ later, w.sendOp cfg answers op send = .ok later ∧ Sends cfg answers op send w later := by
  obtain ⟨datagram, encodes⟩ := encodeOp_ready ready answers.concatenationNext w.takeId.runner.nextId
  simp only [sendOp, encodes, Checked.ok_bind, fail_eq]
  cases sends : answers.sends with
  | true => exact ⟨_, rfl, .launched sends encodes⟩
  | false => exact ⟨_, rfl, .refused sends encodes⟩

theorem continueOp_deed (cfg : GigeConfig) (answers : Answers) {op : Op} {send : PendingSend}
    (lockstep : List.Forall₂ Ready w.runner.queue w.runner.queuedPayloads) (ready : Ready op send) :
    ∃ later, w.continueOp cfg answers op send = .ok later ∧
      ((∃ queue first payloads, w.runner.queue = .heartbeat :: queue ∧ w.runner.queuedPayloads = first :: payloads ∧
        later = w.setQueues (.heartbeat :: op :: queue) (first :: send :: payloads)) ∨
      w.runner.queue.head? ≠ some .heartbeat ∧ Sends cfg answers op send w later) := by
  obtain ⟨sent, result, sends⟩ := sendOp_deed cfg answers w ready
  unfold continueOp
  cases isQueue : w.runner.queue with
  | nil => exact ⟨sent, result, .inr ⟨nofun, sends⟩⟩
  | cons first queue =>
    cases first with
    | heartbeat =>
      cases isPayloads : w.runner.queuedPayloads with
      | nil =>
        rw [isQueue, isPayloads] at lockstep
        cases lockstep
      | cons firstSend payloads => exact ⟨_, rfl, .inl ⟨queue, firstSend, payloads, rfl, rfl, rfl⟩⟩
    | _ => exact ⟨sent, result, .inr ⟨nofun, sends⟩⟩

theorem Deed.counted (inbound : Inbound) (stats : LinkStats) (eventTxs : List Nat) :
    Deed cfg w (.datagram inbound) { w with runner := { w.runner with stats := stats, eventTxs := eventTxs } } := by
  have noted := @Deed.noted cfg w inbound stats eventTxs [] nofun
  rwa [List.append_nil] at noted

theorem onEvent_deed (inbound : Inbound) :
    Deed cfg w (.datagram inbound) (w.onEvent inbound.answers inbound.datagram) := by
  unfold onEvent
  split
  · exact .idles trivial
  split
  · exact .idles trivial
  simp only
  split
  · exact .noted fun event present => ⟨_, _, _, List.mem_singleton.mp present⟩
  · exact .counted inbound _ _

theorem onAck_deed {inbound : Inbound} {inflight : Inflight} (ordered : w.docket.Ordered)
    (busy : w.runner.inflight = some inflight) (answered : Answered inflight ack inbound) :
    ∃ later, (w.takeInflight inflight).onAck cfg inbound.answers inflight.op ack = .ok later ∧
      Deed cfg w (.datagram inbound) later := by
  have sound : inflight.op.Sound := ordered.sound _ (by simp [docket, busy])
  cases isUser : inflight.op.handle with
  | some handle =>
    obtain ⟨stats, result⟩ := onAck_user cfg inbound.answers ack (w.takeInflight inflight) isUser sound
    rw [result]
    cases outcome : inflight.op.answered inbound.answers.concatenation ack with
    | settled response => exact ⟨_, rfl, .settled busy isUser answered outcome⟩
    | more next send =>
      have ready := (Op.answered_more outcome).2.ready sound
      obtain ⟨later, result, parks | sends⟩ := continueOp_deed cfg inbound.answers
        (show List.Forall₂ Ready ((w.takeInflight inflight).setStats stats).runner.queue _ from ordered.ready) ready
      · obtain ⟨queue, first, payloads, isQueue, isPayloads, rfl⟩ := parks
        exact ⟨_, result, .parked busy answered outcome isQueue isPayloads⟩
      · exact ⟨later, result, .resumed busy answered outcome sends.1 sends.2⟩
  | none =>
    have heartbeat : inflight.op = .heartbeat := by
      cases isOp : inflight.op with
      | heartbeat => rfl
      | _ => rw [isOp] at isUser; cases isUser
    rw [heartbeat, onAck]
    simp only [Op.isHeartbeat, if_true]
    split
    · exact ⟨_, rfl, .lost busy heartbeat⟩
    rename_i noError
    split
    · rename_i unexpected
      exact ⟨_, rfl, .failed busy heartbeat answered (Bool.eq_false_iff.mpr noError) unexpected
        (protocol_ne_mismatch (by simp [String.toList_append]))⟩
    refine ⟨_, rfl, ?_⟩
    unfold onHeartbeat
    simp only
    split
    · exact .lost busy heartbeat
    split
    · exact .lost busy heartbeat
    · exact .confirmed busy heartbeat

theorem onDatagram_deed {inbound : Inbound} (ordered : w.docket.Ordered) (fromDevice : inbound.fromDevice = true) :
    ∃ later, w.onDatagram cfg inbound.answers inbound.datagram = .ok later ∧ Deed cfg w (.datagram inbound) later := by
  have unsolicited : Deed cfg w (.datagram inbound) w.countUnsolicited := .counted inbound _ _
  unfold onDatagram
  cases notCommand : isCmd inbound.datagram with
  | true => exact ⟨_, rfl, onEvent_deed inbound⟩
  | false =>
    rw [if_neg Bool.false_ne_true]
    cases parsed : Ack.parse inbound.datagram with
    | none => exact ⟨_, rfl, .idles trivial⟩
    | some ack =>
      simp only
      cases busy : w.runner.inflight with
      | none => exact ⟨_, rfl, unsolicited⟩
      | some inflight =>
        simp only
        by_cases other : ack.ackId ≠ inflight.id
        · rw [if_pos other]
          exact ⟨_, rfl, unsolicited⟩
        rw [if_neg other]
        cases final : ack.pendingAckTimeoutMs with
        | some ms => exact ⟨_, rfl, .extended busy⟩
        | none =>
          exact onAck_deed ordered busy ⟨fromDevice, notCommand, parsed, not_not.mp other, final⟩

theorem takeMessage_deed (cfg : GigeConfig) (w : ControlWorld) : Deed cfg w .message w.takeMessage := by
  unfold takeMessage
  cases channel : w.channel with
  | nil => exact .idles channel
  | cons message rest =>
    cases message with
    | subscribeEvents subscription => exact .skipped rfl channel
    | shutdown => exact .skipped rfl channel
    | _ => exact .took rfl channel rfl

theorem checkInflightDeadline_deed (cfg : GigeConfig) (answers : Answers) (w : ControlWorld) :
    Deed cfg w (.deadline answers) (w.checkInflightDeadline cfg answers) := by
  unfold checkInflightDeadline
  cases busy : w.runner.inflight with
  | none =>
    refine .idles fun inflight present => ?_
    rw [busy] at present
    cases present
  | some inflight =>
    simp only
    split
    · rename_i early
      refine .idles fun other present => ?_
      rw [busy] at present
      cases present
      exact early
    rename_i due
    split
    · rename_i left
      exact .retried busy (not_lt.mp due) left
    cases heartbeat : inflight.op.isHeartbeat with
    | true => exact .expired busy (Op.eq_heartbeat heartbeat)
    | false =>
      cases isUser : inflight.op.handle with
      | none =>
        cases isOp : inflight.op with
        | heartbeat =>
          rw [isOp] at heartbeat
          cases heartbeat
        | _ =>
          rw [isOp] at isUser
          cases isUser
      | some handle =>
        rw [if_neg Bool.false_ne_true, fail_eq, failure, isUser]
        exact .timedOut busy isUser

-- Stated for any next time: the kernel would unfold the period.
theorem dueHeartbeat_deed {answers : Answers} {next : Nat} (due : w.runner.heartbeatDue ≤ answers.now)
    (isNext : next = answers.later + heartbeatPeriod cfg) :
    Deed cfg w (.heartbeat answers)
      (if (w.setDue next).heartbeatPending then w.setDue next
      else ((w.setDue next).setQueues (.heartbeat :: (w.setDue next).runner.queue)
        (.readRegs [Bootstrap.controlChannelPrivilege] :: (w.setDue next).runner.queuedPayloads)).record
          (.heartbeat .queued)) := by
  split
  · rename_i pending
    exact .postponed due pending isNext
  · rename_i absent
    exact .queued due (Bool.eq_false_iff.mpr absent) isNext

theorem checkHeartbeat_deed (cfg : GigeConfig) (answers : Answers) (w : ControlWorld) :
    Deed cfg w (.heartbeat answers) (w.checkHeartbeat cfg answers) := by
  unfold checkHeartbeat
  split
  · rename_i early
    exact .idles early
  · rename_i due
    exact dueHeartbeat_deed (not_lt.mp due) rfl

theorem pump_deed (cfg : GigeConfig) (answers : Answers) (ordered : w.docket.Ordered) :
    ∃ later, w.pump cfg answers = .ok later ∧ Deed cfg w (.pump answers) later := by
  have lockstep : List.Forall₂ Ready w.runner.queue w.runner.queuedPayloads := ordered.ready
  unfold pump
  cases idle : w.runner.inflight with
  | some inflight => exact ⟨_, rfl, .idles (.inl (by rw [idle]; exact Option.some_ne_none _))⟩
  | none =>
    rw [if_neg (by simp)]
    cases isQueue : w.runner.queue with
    | nil =>
      cases isPayloads : w.runner.queuedPayloads with
      | nil =>
        have same : w.setQueues [] [] = w := by rw [setQueues, ← isQueue, ← isPayloads]
        exact ⟨w, congrArg _ same, .idles (.inr isQueue)⟩
      | cons send payloads =>
        rw [isQueue, isPayloads] at lockstep
        cases lockstep
    | cons op queue =>
      cases isPayloads : w.runner.queuedPayloads with
      | nil =>
        rw [isQueue, isPayloads] at lockstep
        cases lockstep
      | cons send payloads =>
        rw [isQueue, isPayloads] at lockstep
        cases lockstep with
        | cons ready _ =>
          obtain ⟨later, result, sends⟩ := sendOp_deed cfg answers (w.setQueues queue payloads) ready
          exact ⟨later, result, .pumped idle isQueue isPayloads sends⟩

theorem handle_deed (cfg : GigeConfig) (handler : Handler) (ordered : w.docket.Ordered) :
    ∃ later, w.handle cfg handler = .ok later ∧ Deed cfg w handler later := by
  cases handler with
  | datagram inbound =>
    rw [handle, recvFrom]
    by_cases fromDevice : inbound.fromDevice = true
    · rw [if_pos fromDevice]
      exact onDatagram_deed ordered fromDevice
    · rw [if_neg fromDevice]
      exact ⟨w, rfl, .idles trivial⟩
  | push message => exact ⟨_, rfl, .pushed message⟩
  | message => exact ⟨_, rfl, takeMessage_deed cfg w⟩
  | deadline answers => exact ⟨_, rfl, checkInflightDeadline_deed cfg answers w⟩
  | heartbeat answers => exact ⟨_, rfl, checkHeartbeat_deed cfg answers w⟩
  | pump answers => exact pump_deed cfg answers ordered

theorem Deed.of_handle {handler : Handler} {later : ControlWorld} (ordered : w.docket.Ordered)
    (result : w.handle cfg handler = .ok later) : Deed cfg w handler later := by
  obtain ⟨found, handled, deed⟩ := handle_deed cfg handler ordered
  cases result.symm.trans handled
  exact deed

end ControlWorld

end Telegenic.Control
