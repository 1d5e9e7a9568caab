import Telegenic.Proto.Bootstrap
import Telegenic.Proto.Commands

/-! The emulated device: its memory, how it executes a command, and the
acknowledges it builds. -/

set_option autoImplicit false

namespace Telegenic.Emulator

open Library Proto Proto.Gvcp

def memSize : Nat := 0x10000

def acqReg : Nat := 0x2008

def ack (status : GvcpStatus) (answer ackId : Nat) (payload : List UInt8) : List UInt8 :=
  beBytes 2 status.code ++ beBytes 2 answer ++ beBytes 2 payload.length ++ beBytes 2 ackId ++ payload

def nak (status : GvcpStatus) (answer ackId : Nat) : List UInt8 :=
  ack status answer ackId []

/-- The device needs up to `timeoutMs` more before its real acknowledge. -/
def pendingAck (reqId timeoutMs : Nat) : List UInt8 :=
  ack .success Gvcp.pendingAck reqId (beBytes 2 0 ++ beBytes 2 timeoutMs)

/-- The packets a PACKETRESEND command asks for, both ends inclusive. -/
structure ResendRequest where
  frameId : Nat
  firstPacket : Nat
  lastPacket : Nat
  deriving DecidableEq, Repr

structure Reaction where
  reply : Option (List UInt8) := none
  fireTest : Option Nat := none
  acquisitionStarted : Bool := false
  resend : Option ResendRequest := none
  deriving DecidableEq, Repr

structure GigeDevice where
  mem : List UInt8
  maxPacketSize : Option Nat
  sized : mem.length = memSize

namespace GigeDevice

def readReg (device : GigeDevice) (addr : Nat) : Nat :=
  beNat ((device.mem.drop addr).take 4)

def write (device : GigeDevice) (addr : Nat) (data : List UInt8) (inside : addr + data.length ≤ memSize) : GigeDevice where
  mem := device.mem.take addr ++ data ++ device.mem.drop (addr + data.length)
  maxPacketSize := device.maxPacketSize
  sized := by
    rw [List.length_append, List.length_append, List.length_take, List.length_drop, device.sized]
    omega

def readRegisters (device : GigeDevice) (cmd : Cmd) : List UInt8 :=
  if ∀ addr ∈ words cmd.payload, addr + 4 ≤ memSize then
    ack .success readRegisterAck cmd.reqId ((words cmd.payload).flatMap fun addr => (device.mem.drop addr).take 4)
  else
    nak .invalidAddress readRegisterAck cmd.reqId

/-- The value that a write leaves in a register: packet sizes are capped. -/
def accepted (device : GigeDevice) (addr value : Nat) : Nat :=
  match device.maxPacketSize with
  | some largest =>
      if addr = Bootstrap.streamChannelPacketSize then value - value % 2 ^ 16 + min (value % 2 ^ 16) largest else value
  | none => value

/-- Executes the writes in order; one outside the memory ends them. -/
def writePairs (device : GigeDevice) (reaction : Reaction) : List (Nat × Nat) → GigeDevice × Option Reaction
  | [] => (device, some reaction)
  | (addr, requested) :: rest =>
      if inside : addr + 4 ≤ memSize then
        let value := device.accepted addr requested
        let fires := addr = Bootstrap.streamChannelPacketSize ∧ value &&& Bootstrap.scpsFireTestPacket ≠ 0
        writePairs (device.write addr (beBytes 4 value) (by rw [beBytes_length]; exact inside))
          { reaction with
            fireTest := if fires then some (value % 2 ^ 16) else reaction.fireTest
            acquisitionStarted := reaction.acquisitionStarted || (addr == acqReg && value == 1) } rest
      else
        (device, none)

def writeRegisters (device : GigeDevice) (cmd : Cmd) : GigeDevice × Reaction :=
  match device.writePairs {} (wordPairs (words cmd.payload)) with
  | (device, some reaction) =>
      (device, { reaction with
        reply := some (ack .success writeRegisterAck cmd.reqId (beBytes 4 (cmd.payload.length / 8))) })
  | (device, none) => (device, { reply := some (nak .invalidAddress writeRegisterAck cmd.reqId) })

def packetResend (device : GigeDevice) (cmd : Cmd) : Option ResendRequest := do
  if device.readReg Bootstrap.gvcpCapability &&& Bootstrap.capPacketResend = 0 then none
  if cmd.flags &&& flagExtendedIds ≠ 0 then
    let frameId ← beAt? cmd.payload 12 8
    return { frameId, firstPacket := ← beAt? cmd.payload 4 4, lastPacket := ← beAt? cmd.payload 8 4 }
  else
    let frameId ← beAt? cmd.payload 0 4
    let first ← beAt? cmd.payload 4 4
    let last ← beAt? cmd.payload 8 4
    return { frameId := frameId &&& 0xffff, firstPacket := first &&& 0xffffff, lastPacket := last &&& 0xffffff }

def readMemory (device : GigeDevice) (cmd : Cmd) : List UInt8 :=
  match beAt? cmd.payload 0 4, beAt? cmd.payload 4 4 with
  | some addr, some counted =>
      let count := counted % 2 ^ 16
      if memSize < addr + count ∨ dataSizeMax < count then
        nak .invalidAddress readMemoryAck cmd.reqId
      else
        ack .success readMemoryAck cmd.reqId (beBytes 4 addr ++ (device.mem.drop addr).take count)
  | _, _ => nak .invalidHeader readMemoryAck cmd.reqId

def writeMemory (device : GigeDevice) (cmd : Cmd) : GigeDevice × List UInt8 :=
  match beAt? cmd.payload 0 4 with
  | some addr =>
      if inside : addr + (cmd.payload.drop 4).length ≤ memSize then
        (device.write addr (cmd.payload.drop 4) inside,
          ack .success writeMemoryAck cmd.reqId (beBytes 4 (cmd.payload.drop 4).length))
      else
        (device, nak .invalidAddress writeMemoryAck cmd.reqId)
  | none => (device, nak .invalidHeader writeMemoryAck cmd.reqId)

def execute (device : GigeDevice) (cmd : Cmd) : GigeDevice × Reaction :=
  if cmd.command = discoveryCmd then
    (device, { reply := some (ack .success discoveryAck discoveryId (device.mem.take Bootstrap.discoveryDataSize)) })
  else if cmd.command = readRegisterCmd then
    (device, { reply := some (device.readRegisters cmd) })
  else if cmd.command = writeRegisterCmd then
    device.writeRegisters cmd
  else if cmd.command = readMemoryCmd then
    (device, { reply := some (device.readMemory cmd) })
  else if cmd.command = writeMemoryCmd then
    let (device, reply) := device.writeMemory cmd
    (device, { reply := some reply })
  else if cmd.command = packetResendCmd then
    (device, { resend := device.packetResend cmd })
  else
    (device, {})

end GigeDevice

end Telegenic.Emulator
