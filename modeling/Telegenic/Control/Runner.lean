import Telegenic.Library.Checked
import Telegenic.Proto.Bootstrap
import Telegenic.Proto.Gvcp

/-! The GVCP control worker: it owns the control socket, runs one transaction
at a time, matches acknowledges by request id, splits long operations into
chunks and keeps control of the device alive by heartbeats. Response handles
are named by numbers. What the clock, the socket and the other threads answer
while a handler runs is part of its input. -/

set_option autoImplicit false

namespace Telegenic.Control

open Library Proto Proto.Gvcp

/-- Nanoseconds in so many milliseconds. -/
def millis (count : Nat) : Nat := count * 1000000

/-- Longest a run of PENDING_ACKs may hold one transaction past its send. -/
def pendingAckBudget : Nat := millis 120000

inductive CameraError where
  | io
  | disconnected
  | timeout
  | controlLost
  | nak (command : Nat) (status : GvcpStatus)
  | protocol (message : String)
  deriving DecidableEq, Repr

/-- What an operation returns. -/
inductive Value where
  | word (value : Nat)
  | words (values : List Nat)
  | bytes (data : List UInt8)
  | done
  deriving DecidableEq, Repr

/-- The outcome deposited in a handle. -/
inductive Response where
  | ok (value : Value)
  | error (error : CameraError)
  deriving DecidableEq, Repr

/-- Messages to the worker. -/
inductive ToWorker where
  | readReg (addr handle : Nat)
  | readRegs (addrs : List Nat) (handle : Nat)
  | writeRegs (pairs : List (Nat × Nat)) (handle : Nat)
  | readMem (addr len handle : Nat)
  | writeMem (addr : Nat) (data : List UInt8) (handle : Nat)
  | subscribeEvents (subscription : Nat)
  | shutdown
  deriving DecidableEq, Repr

/-- The handle the message waits to have resolved. -/
def ToWorker.handle : ToWorker → Option Nat
  | readReg _ handle | readRegs _ handle | writeRegs _ handle => some handle
  | readMem _ _ handle | writeMem _ _ handle => some handle
  | subscribeEvents _ | shutdown => none

inductive Op where
  | readReg (handle : Nat)
  | readRegs (handle : Nat) (addrs acc : List Nat)
  | writeRegs (handle : Nat) (pairs : List (Nat × Nat)) (completed : Nat)
  | readMem (handle : Nat) (acc : List UInt8) (want nextAddr : Nat)
  | writeMem (handle : Nat) (data : List UInt8) (offset baseAddr : Nat)
  | heartbeat
  deriving DecidableEq, Repr

namespace Op

/-- The handle of a user operation. -/
def handle : Op → Option Nat
  | readReg handle | readRegs handle _ _ | writeRegs handle _ _ => some handle
  | readMem handle _ _ _ | writeMem handle _ _ _ => some handle
  | heartbeat => none

def isHeartbeat : Op → Bool
  | heartbeat => true
  | _ => false

def expectedAck : Op → Nat
  | readReg _ | readRegs _ _ _ | heartbeat => readRegisterAck
  | writeRegs _ _ _ => writeRegisterAck
  | readMem _ _ _ _ => readMemoryAck
  | writeMem _ _ _ _ => writeMemoryAck

end Op

/-- What to encode when an operation reaches the head of the queue. -/
inductive PendingSend where
  | readRegs (addrs : List Nat)
  | readRegsChunk
  | writeRegsChunk
  | readMemChunk
  | writeMemChunk
  deriving DecidableEq, Repr

structure Inflight where
  sent : List UInt8
  id : Nat
  deadline : Nat
  pendingLimit : Nat
  triesLeft : Nat
  op : Op
  deriving DecidableEq, Repr

structure GigeConfig where
  gvcpTimeout : Nat
  retries : Nat
  heartbeatTimeoutMs : Nat
  deriving DecidableEq, Repr

/-- A third of the device's timeout, at least 10 ms and at most a second. -/
def heartbeatPeriod (cfg : GigeConfig) : Nat :=
  min (millis (max (cfg.heartbeatTimeoutMs / 3) 10)) (millis 1000)

/-- Control-channel counters. -/
structure LinkStats where
  commands : Nat := 0
  acks : Nat := 0
  retries : Nat := 0
  timeouts : Nat := 0
  naks : Nat := 0
  pendingAcks : Nat := 0
  heartbeats : Nat := 0
  events : Nat := 0
  unsolicited : Nat := 0
  deriving DecidableEq, Repr

structure Runner where
  queue : List Op := []
  /-- What to encode for each queued operation, in lockstep with the queue. -/
  queuedPayloads : List PendingSend := []
  inflight : Option Inflight := none
  nextId : Nat := 0
  eventTxs : List Nat := []
  heartbeatDue : Nat
  controlLost : Bool := false
  stats : LinkStats := {}
  deriving DecidableEq, Repr

/-- What became of a heartbeat. -/
inductive HeartbeatMark where
  | queued
  /-- The device still has the control bit set. -/
  | confirmed
  /-- Control was declared lost over it. -/
  | lost
  /-- It left the worker through `Op::fail`. -/
  | failed (error : CameraError)
  deriving DecidableEq, Repr

/-- Why a datagram was sent; a command names the operation's handle. -/
inductive Purpose where
  | command (handle : Option Nat)
  | retry
  | eventAck
  | release
  deriving DecidableEq, Repr

/-- What the worker did, in order. -/
inductive ControlEvent where
  /-- An operation entered the worker's channel. -/
  | entered (handle : Nat)
  /-- The worker took an operation from its channel. -/
  | took (handle : Nat)
  | resolved (handle : Nat) (response : Response)
  | heartbeat (mark : HeartbeatMark)
  /-- A datagram was offered to the socket, which took it or not. -/
  | sent (datagram : List UInt8) (purpose : Purpose) (taken : Bool)
  /-- The transaction in flight is over. -/
  | ended (id : Nat)
  deriving DecidableEq

/-- What the surroundings answer while one handler runs. -/
structure Answers where
  now : Nat
  /-- A second look at the clock. -/
  later : Nat
  /-- The socket takes the datagram. -/
  sends : Bool
  /-- The device accepts several registers in one command: the flag as it is
  read when an acknowledge is judged. -/
  concatenation : Bool
  /-- The flag as it is read when a command is encoded. -/
  concatenationNext : Bool
  /-- The event channels whose receivers are gone. -/
  disconnected : List Nat
  deriving DecidableEq, Repr

structure ControlWorld where
  runner : Runner
  /-- Messages on their way to the worker. -/
  channel : List ToWorker := []
  /-- The flags other threads read. -/
  alive : Bool := true
  sharedControlLost : Bool := false
  journal : List ControlEvent := []
  deriving DecidableEq

/-- A 16-bit number in hexadecimal, with its prefix and leading zeros. -/
def hexWord (value : Nat) : String :=
  let digits := Nat.toDigits 16 value
  "0x" ++ String.ofList (List.replicate (4 - digits.length) '0' ++ digits)

def chunkLen (remaining : Nat) : Nat := min remaining dataSizeMax

/-- `remaining.next_multiple_of(4)`. -/
def nextMultipleOfFour (count : Nat) : Nat := (count + 3) / 4 * 4

/-- Registers the next command of a register operation carries. -/
def regsPerCommand (concatenation : Bool) (remaining : Nat) : Nat :=
  if concatenation then remaining else min remaining 1

/-- The datagram of the next command of an operation; nothing when the payload
does not belong to the operation. -/
def encodeOp (concatenation : Bool) (id : Nat) : Op → PendingSend → Checked (Option (List UInt8))
  | _, .readRegs addrs => .ok (some (encodeReadReg addrs id))
  | .readRegs _ addrs acc, .readRegsChunk => do
      let remaining ← Checked.sub addrs.length acc.length
      let take := regsPerCommand concatenation remaining
      let chunk ← Checked.slice addrs acc.length (acc.length + take)
      return some (encodeReadReg chunk id)
  | .writeRegs _ pairs completed, .writeRegsChunk => do
      let remaining ← Checked.sub pairs.length completed
      let take := regsPerCommand concatenation remaining
      let chunk ← Checked.slice pairs completed (completed + take)
      return some (encodeWriteReg chunk id)
  | .readMem _ acc want nextAddr, .readMemChunk => do
      let remaining ← Checked.sub want acc.length
      let count := chunkLen (nextMultipleOfFour remaining)
      return some (encodeReadMem nextAddr count id)
  | .writeMem _ data offset baseAddr, .writeMemChunk => do
      let remaining ← Checked.sub data.length offset
      let take := chunkLen remaining
      let chunk ← Checked.slice data offset (offset + take)
      return some (encodeWriteMem ((baseAddr + offset) % 2 ^ 32) chunk id)
  | _, _ => .ok none

namespace ControlWorld

def record (event : ControlEvent) (w : ControlWorld) : ControlWorld :=
  { w with journal := w.journal ++ [event] }

def setStats (stats : LinkStats) (w : ControlWorld) : ControlWorld :=
  { w with runner := { w.runner with stats := stats } }

def setInflight (inflight : Option Inflight) (w : ControlWorld) : ControlWorld :=
  { w with runner := { w.runner with inflight := inflight } }

def setQueues (queue : List Op) (payloads : List PendingSend) (w : ControlWorld) : ControlWorld :=
  { w with runner := { w.runner with queue := queue, queuedPayloads := payloads } }

/-- `self.inflight.take()`. -/
def takeInflight (inflight : Inflight) (w : ControlWorld) : ControlWorld :=
  (w.setInflight none).record (.ended inflight.id)

/-- Control of the device is gone; the heartbeat that found out is settled. -/
def loseControl (w : ControlWorld) : ControlWorld :=
  { w with runner := { w.runner with controlLost := true } }.record (.heartbeat .lost)

/-- `Op::fail`. A heartbeat has no handle to fail. -/
def fail (op : Op) (error : CameraError) (w : ControlWorld) : ControlWorld :=
  match op.handle with
  | some handle => w.record (.resolved handle (.error error))
  | none => w.record (.heartbeat (.failed error))

def fulfill (handle : Nat) (value : Value) (w : ControlWorld) : ControlWorld :=
  w.record (.resolved handle (.ok value))

def enqueue (op : Op) (send : PendingSend) (w : ControlWorld) : ControlWorld :=
  w.setQueues (w.runner.queue ++ [op]) (w.runner.queuedPayloads ++ [send])

def takeId (w : ControlWorld) : ControlWorld :=
  { w with runner := { w.runner with nextId := nextId w.runner.nextId } }

/-- The transaction a sent command starts. -/
def launch (cfg : GigeConfig) (now : Nat) (op : Op) (datagram : List UInt8) (w : ControlWorld) : ControlWorld :=
  let stats := w.runner.stats
  (w.setStats { stats with commands := stats.commands + 1 }).setInflight (some
    { sent := datagram
      id := w.runner.nextId
      deadline := now + cfg.gvcpTimeout
      pendingLimit := now + pendingAckBudget
      triesLeft := cfg.retries
      op := op })

def sendOp (cfg : GigeConfig) (answers : Answers) (op : Op) (send : PendingSend) (w : ControlWorld) :
    Checked ControlWorld := do
  let w := w.takeId
  match ← encodeOp answers.concatenationNext w.runner.nextId op send with
  | none => return w.fail op (.protocol "internal op/payload mismatch")
  | some datagram =>
      let w := w.record (.sent datagram (.command op.handle) answers.sends)
      if answers.sends then
        return w.launch cfg answers.now op datagram
      else
        return w.fail op .io

/-- Sends the next chunk of an operation, letting a due heartbeat cut in at
the chunk boundary. -/
def continueOp (cfg : GigeConfig) (answers : Answers) (op : Op) (send : PendingSend) (w : ControlWorld) :
    Checked ControlWorld :=
  match w.runner.queue with
  | .heartbeat :: queue =>
      match w.runner.queuedPayloads with
      | first :: payloads => .ok (w.setQueues (.heartbeat :: op :: queue) (first :: send :: payloads))
      | [] => .error .index
  | _ => w.sendOp cfg answers op send

/-- Starts the next queued operation if nothing is in flight. -/
def pump (cfg : GigeConfig) (answers : Answers) (w : ControlWorld) : Checked ControlWorld :=
  if w.runner.inflight.isSome then
    .ok w
  else
    match w.runner.queue, w.runner.queuedPayloads with
    | op :: queue, send :: payloads => (w.setQueues queue payloads).sendOp cfg answers op send
    -- Whichever deque still had an entry loses it.
    | queue, payloads => .ok (w.setQueues (queue.drop 1) (payloads.drop 1))

/-- The acknowledge of a READREG of several registers. -/
def onReadRegs (cfg : GigeConfig) (answers : Answers) (handle : Nat) (addrs acc : List Nat) (ack : Ack)
    (w : ControlWorld) : Checked ControlWorld := do
  let remaining ← Checked.sub addrs.length acc.length
  let want := regsPerCommand answers.concatenation remaining
  let values := ack.registerValues
  let acc := acc ++ values
  let got := values.length
  if got ≠ want then
    return w.fail (.readRegs handle addrs acc) (.protocol
      ("read register ack carried " ++ toString got ++ " values, expected " ++ toString want))
  else if acc.length = addrs.length then
    return w.fulfill handle (.words acc)
  else
    w.continueOp cfg answers (.readRegs handle addrs acc) .readRegsChunk

def onWriteRegs (cfg : GigeConfig) (answers : Answers) (handle : Nat) (pairs : List (Nat × Nat)) (completed : Nat)
    (w : ControlWorld) : Checked ControlWorld := do
  let remaining ← Checked.sub pairs.length completed
  let completed := completed + regsPerCommand answers.concatenation remaining
  if pairs.length ≤ completed then
    return w.fulfill handle .done
  else
    w.continueOp cfg answers (.writeRegs handle pairs completed) .writeRegsChunk

/-- The acknowledge of a READMEM: the address, then the data. -/
def onReadMem (cfg : GigeConfig) (answers : Answers) (handle : Nat) (acc : List UInt8) (want nextAddr : Nat)
    (ack : Ack) (w : ControlWorld) : Checked ControlWorld := do
  match dropFrom? ack.payload 4 with
  | none => return w.fail (.readMem handle acc want nextAddr) (.protocol "short read memory ack")
  | some data =>
      let room ← Checked.sub want acc.length
      let take := min data.length room
      let chunk ← Checked.takeTo data take
      let acc := acc ++ chunk
      if want ≤ acc.length then
        return w.fulfill handle (.bytes acc)
      else if data.isEmpty then
        return w.fail (.readMem handle acc want nextAddr) (.protocol "empty read memory ack")
      else
        w.continueOp cfg answers (.readMem handle acc want ((nextAddr + take) % 2 ^ 32)) .readMemChunk

def onWriteMem (cfg : GigeConfig) (answers : Answers) (handle : Nat) (data : List UInt8) (offset baseAddr : Nat)
    (w : ControlWorld) : Checked ControlWorld := do
  let remaining ← Checked.sub data.length offset
  let offset := offset + chunkLen remaining
  if data.length ≤ offset then
    return w.fulfill handle .done
  else
    w.continueOp cfg answers (.writeMem handle data offset baseAddr) .writeMemChunk

/-- The acknowledge of a heartbeat: the register must still have the control
bit. -/
def onHeartbeat (ack : Ack) (w : ControlWorld) : ControlWorld :=
  let stats := w.runner.stats
  let w := w.setStats { stats with heartbeats := stats.heartbeats + 1 }
  match ack.registerValues with
  | [] => w.loseControl
  | ccp :: _ =>
      if ccp &&& Bootstrap.ccpControl = 0 then
        w.loseControl
      else
        w.record (.heartbeat .confirmed)

def onAck (cfg : GigeConfig) (answers : Answers) (op : Op) (ack : Ack) (w : ControlWorld) : Checked ControlWorld :=
  let stats := w.runner.stats
  let w := w.setStats { stats with acks := stats.acks + 1 }
  if ack.status.isError then
    let stats := w.runner.stats
    let w := w.setStats { stats with naks := stats.naks + 1 }
    if op.isHeartbeat then
      .ok w.loseControl
    else
      .ok (w.fail op (.nak ((op.expectedAck + (2 ^ 16 - 1)) % 2 ^ 16) ack.status))
  else if ack.answer ≠ op.expectedAck then
    .ok (w.fail op (.protocol
      ("expected ack " ++ hexWord op.expectedAck ++ ", got " ++ hexWord ack.answer)))
  else
    match op with
    | .readReg handle =>
        match ack.registerValues with
        | value :: _ => .ok (w.fulfill handle (.word value))
        | [] => .ok (w.fail op (.protocol "empty read register ack"))
    | .readRegs handle addrs acc => w.onReadRegs cfg answers handle addrs acc ack
    | .writeRegs handle pairs completed => w.onWriteRegs cfg answers handle pairs completed
    | .readMem handle acc want nextAddr => w.onReadMem cfg answers handle acc want nextAddr ack
    | .writeMem handle data offset baseAddr => w.onWriteMem cfg answers handle data offset baseAddr
    | .heartbeat => .ok (w.onHeartbeat ack)

/-- A message-channel event of the device. -/
def onEvent (answers : Answers) (datagram : List UInt8) (w : ControlWorld) : ControlWorld :=
  match Cmd.parse datagram with
  | none => w
  | some cmd =>
      if cmd.command ≠ eventCmd ∧ cmd.command ≠ eventDataCmd then
        w
      else
        let w := if cmd.flags &&& flagAckRequired ≠ 0 then
            w.record (.sent (encodeEventAck cmd.command cmd.reqId) .eventAck answers.sends)
          else
            w
        let stats := w.runner.stats
        let w := w.setStats { stats with events := stats.events + 1 }
        { w with runner := { w.runner with eventTxs := w.runner.eventTxs.filter (· ∉ answers.disconnected) } }

def countUnsolicited (w : ControlWorld) : ControlWorld :=
  let stats := w.runner.stats
  w.setStats { stats with unsolicited := stats.unsolicited + 1 }

/-- A PENDING_ACK moves the deadline, up to the transaction's limit. -/
def extend (ms now : Nat) (inflight : Inflight) (w : ControlWorld) : ControlWorld :=
  let stats := w.runner.stats
  let deadline := min (now + millis ms) (max inflight.pendingLimit inflight.deadline)
  (w.setInflight (some { inflight with deadline := deadline })).setStats
    { stats with pendingAcks := stats.pendingAcks + 1 }

def onDatagram (cfg : GigeConfig) (answers : Answers) (datagram : List UInt8) (w : ControlWorld) :
    Checked ControlWorld :=
  if isCmd datagram then
    .ok (w.onEvent answers datagram)
  else
    match Ack.parse datagram with
    | none => .ok w
    | some ack =>
        match w.runner.inflight with
        | none => .ok w.countUnsolicited
        | some inflight =>
            if ack.ackId ≠ inflight.id then
              .ok w.countUnsolicited
            else
              match ack.pendingAckTimeoutMs with
              | some ms => .ok (w.extend ms answers.now inflight)
              | none => (w.takeInflight inflight).onAck cfg answers inflight.op ack

/-- Another thread puts a message into the channel. -/
def push (w : ControlWorld) (message : ToWorker) : ControlWorld :=
  let w := { w with channel := w.channel ++ [message] }
  match message.handle with
  | some handle => w.record (.entered handle)
  | none => w

/-- One message from the channel. -/
def receive (message : ToWorker) (w : ControlWorld) : ControlWorld :=
  match message with
  | .readReg addr handle => (w.record (.took handle)).enqueue (.readReg handle) (.readRegs [addr])
  | .readRegs addrs handle => (w.record (.took handle)).enqueue (.readRegs handle addrs []) .readRegsChunk
  | .writeRegs pairs handle => (w.record (.took handle)).enqueue (.writeRegs handle pairs 0) .writeRegsChunk
  | .readMem addr len handle => (w.record (.took handle)).enqueue (.readMem handle [] len addr) .readMemChunk
  | .writeMem addr data handle => (w.record (.took handle)).enqueue (.writeMem handle data 0 addr) .writeMemChunk
  | .subscribeEvents subscription =>
      { w with runner := { w.runner with eventTxs := w.runner.eventTxs ++ [subscription] } }
  | .shutdown => w

/-- Takes messages until the channel is empty or asks the worker to stop. -/
def takeMessages : List ToWorker → ControlWorld → ControlWorld × Bool
  | [], w => (w, false)
  | .shutdown :: rest, w => ({ w with channel := rest }, true)
  | message :: rest, w => takeMessages rest ({ w with channel := rest }.receive message)

def drainCommands (w : ControlWorld) : ControlWorld × Bool :=
  takeMessages w.channel w

/-- Sends the command in flight again. -/
def retransmit (cfg : GigeConfig) (answers : Answers) (inflight : Inflight) (w : ControlWorld) : ControlWorld :=
  let stats := w.runner.stats
  let again := { inflight with
    triesLeft := inflight.triesLeft - 1
    deadline := answers.later + cfg.gvcpTimeout }
  ((w.setInflight (some again)).setStats { stats with retries := stats.retries + 1 }).record
    (.sent inflight.sent .retry answers.sends)

def checkInflightDeadline (cfg : GigeConfig) (answers : Answers) (w : ControlWorld) : ControlWorld :=
  match w.runner.inflight with
  | none => w
  | some inflight =>
      if answers.now < inflight.deadline then
        w
      else if 0 < inflight.triesLeft then
        w.retransmit cfg answers inflight
      else
        let stats := w.runner.stats
        let w := (w.setStats { stats with timeouts := stats.timeouts + 1 }).takeInflight inflight
        if inflight.op.isHeartbeat then
          w.loseControl
        else
          w.fail inflight.op .timeout

/-- Some heartbeat is queued or in flight. -/
def heartbeatPending (w : ControlWorld) : Bool :=
  w.runner.inflight.any (·.op.isHeartbeat) || w.runner.queue.any (·.isHeartbeat)

/-- Queues a heartbeat when one is due. It jumps the queue: it must not wait
behind a backlog of user transactions. -/
def checkHeartbeat (cfg : GigeConfig) (answers : Answers) (w : ControlWorld) : ControlWorld :=
  if answers.now < w.runner.heartbeatDue then
    w
  else
    let w := { w with runner := { w.runner with heartbeatDue := answers.later + heartbeatPeriod cfg } }
    if w.heartbeatPending then
      w
    else
      (w.setQueues (.heartbeat :: w.runner.queue)
        (.readRegs [Bootstrap.controlChannelPrivilege] :: w.runner.queuedPayloads)).record (.heartbeat .queued)

end ControlWorld

/-- One datagram as the socket hands it over, with what the surroundings answer
while it is handled. -/
structure Inbound where
  datagram : List UInt8
  fromDevice : Bool
  answers : Answers
  deriving DecidableEq, Repr

/-- One turn of the worker's loop: the datagrams found on the socket, the
messages that reach the channel in time, and the surroundings of the checks
that follow. -/
structure Turn where
  datagrams : List Inbound
  arriving : List ToWorker
  deadline : Answers
  heartbeat : Answers
  pump : Answers
  deriving DecidableEq, Repr

namespace ControlWorld

/-- The worker as it starts. -/
def spawn (cfg : GigeConfig) (now : Nat) : ControlWorld :=
  { runner := { heartbeatDue := now + heartbeatPeriod cfg } }

/-- One datagram found on the socket; those of other hosts are skipped. -/
def recvFrom (cfg : GigeConfig) (inbound : Inbound) (w : ControlWorld) : Checked ControlWorld :=
  if inbound.fromDevice then w.onDatagram cfg inbound.answers inbound.datagram else .ok w

def drainSocket (cfg : GigeConfig) : List Inbound → ControlWorld → Checked ControlWorld
  | [], w => .ok w
  | inbound :: rest, w => do
      let w ← w.recvFrom cfg inbound
      drainSocket cfg rest w

/-- The checks at the end of a turn. -/
def check (cfg : GigeConfig) (turn : Turn) (w : ControlWorld) : Checked ControlWorld :=
  ((w.checkInflightDeadline cfg turn.deadline).checkHeartbeat cfg turn.heartbeat).pump cfg turn.pump

/-- Returns whether the channel asked the worker to stop. -/
def turn (cfg : GigeConfig) (turn : Turn) (w : ControlWorld) : Checked (ControlWorld × Bool) := do
  let w ← drainSocket cfg turn.datagrams w
  match (turn.arriving.foldl push w).drainCommands with
  | (w, true) => return (w, true)
  | (w, false) => return (← w.check cfg turn, false)

/-- The worker's loop. It ends when the channel asks for it, when control is
lost, or when the worker is told to die. -/
def loop (cfg : GigeConfig) : List Turn → ControlWorld → Checked ControlWorld
  | [], w => .ok w
  | first :: rest, w =>
      if w.runner.controlLost then
        .ok w
      else do
        let (w, stop) ← w.turn cfg first
        if stop then return w else loop cfg rest w

/-- Fails a message that was never queued. -/
def refuse (error : CameraError) (w : ControlWorld) (message : ToWorker) : ControlWorld :=
  match message.handle with
  | some handle => (w.record (.took handle)).record (.resolved handle (.error error))
  | none => w

def shutdownError (w : ControlWorld) : CameraError :=
  if w.runner.controlLost then .controlLost else .disconnected

/-- Best-effort release of the device, so that the next application can claim
it at once. -/
def releaseControl (answers : Answers) (w : ControlWorld) : ControlWorld :=
  if w.runner.controlLost then
    w
  else
    let w := w.takeId
    w.record (.sent (encodeWriteReg [(Bootstrap.controlChannelPrivilege, 0)] w.runner.nextId) .release answers.sends)

/-- Fails what is in flight and queued, releases the device, marks the worker
dead and fails the messages that reached the channel before the drain ended. -/
def shutdown (answers : Answers) (arriving : List ToWorker) (w : ControlWorld) : ControlWorld :=
  let error := w.shutdownError
  let w := { w with sharedControlLost := w.sharedControlLost || w.runner.controlLost }
  let w := w.runner.inflight.elim w fun inflight => (w.takeInflight inflight).fail inflight.op error
  let w := (w.runner.queue.foldl (fun w op => w.fail op error) w).setQueues [] []
  let w := w.releaseControl answers
  let w := { w with runner := { w.runner with eventTxs := [] }, alive := false }
  let w := arriving.foldl push w
  { w.channel.foldl (refuse error) w with channel := [] }

/-- The life of a worker. -/
def run (cfg : GigeConfig) (turns : List Turn) (answers : Answers) (arriving : List ToWorker) (w : ControlWorld) :
    Checked ControlWorld := do
  let w ← w.loop cfg turns
  return w.shutdown answers arriving

end ControlWorld

end Telegenic.Control
