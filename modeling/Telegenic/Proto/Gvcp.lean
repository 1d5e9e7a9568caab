import Telegenic.Library.Bytes

/-! The GVCP wire format: status words, request ids, and the command and
acknowledge headers of the control protocol. All fields are big-endian. -/

set_option autoImplicit false

namespace Telegenic.Proto.Gvcp

open Library

/-- Maximum READMEM/WRITEMEM data bytes per transaction. -/
def dataSizeMax : Nat := 512

def packetTypeCmd : UInt8 := 0x42

def flagAckRequired : Nat := 0x01

/-- Resend commands with 64-bit frame ids set this instead of the
acknowledge-required flag. -/
def flagExtendedIds : Nat := 0x10

def discoveryCmd : Nat := 0x0002
def discoveryAck : Nat := 0x0003
def forceIpCmd : Nat := 0x0004
def packetResendCmd : Nat := 0x0040
def readRegisterCmd : Nat := 0x0080
def readRegisterAck : Nat := 0x0081
def writeRegisterCmd : Nat := 0x0082
def writeRegisterAck : Nat := 0x0083
def readMemoryCmd : Nat := 0x0084
def readMemoryAck : Nat := 0x0085
def writeMemoryCmd : Nat := 0x0086
def writeMemoryAck : Nat := 0x0087
def pendingAck : Nat := 0x0089
def eventCmd : Nat := 0x00c0
def eventDataCmd : Nat := 0x00c2

/-- Discovery commands carry this id; regular transactions use 1..=0xfffe. -/
def discoveryId : Nat := 0xffff

/-- Next request id: 0 is reserved as an error value and 0xffff for discovery,
so 0xfffe is followed by 1. -/
def nextId (id : Nat) : Nat :=
  if 0xfffe ≤ id then 1 else id + 1

/-- Status word of an acknowledge, also carried by GVSP packets. -/
structure GvcpStatus where
  code : Nat
  deriving DecidableEq, Repr

namespace GvcpStatus

def success : GvcpStatus := ⟨0x0000⟩
def invalidAddress : GvcpStatus := ⟨0x8003⟩
def packetUnavailable : GvcpStatus := ⟨0x800c⟩
def invalidHeader : GvcpStatus := ⟨0x800e⟩
def packetAndPrevRemovedFromMemory : GvcpStatus := ⟨0x8011⟩
def packetRemovedFromMemory : GvcpStatus := ⟨0x8012⟩

def isError (status : GvcpStatus) : Bool :=
  status.code &&& 0x8000 != 0

end GvcpStatus

def headerLen : Nat := 8

/-- A command packet starts with the key byte; anything else coming back on
the control socket is an acknowledge. -/
def isCmd (datagram : List UInt8) : Bool :=
  datagram.head? == some packetTypeCmd

/-- A decoded acknowledge: header fields plus the payload sized by its length
field. -/
structure Ack where
  status : GvcpStatus
  answer : Nat
  ackId : Nat
  payload : List UInt8
  deriving DecidableEq, Repr

def Ack.parse (datagram : List UInt8) : Option Ack := do
  let status ← beAt? datagram 0 2
  let answer ← beAt? datagram 2 2
  let length ← beAt? datagram 4 2
  let ackId ← beAt? datagram 6 2
  let payload ← slice? (datagram.drop headerLen) 0 length
  return { status := ⟨status⟩, answer, ackId, payload }

/-- The time to completion a PENDING_ACK announces, in milliseconds, after a
reserved half-word. -/
def Ack.pendingAckTimeoutMs (ack : Ack) : Option Nat :=
  if ack.answer ≠ pendingAck then none else beAt? ack.payload 2 2

/-- The big-endian words of a byte string, without an incomplete last one. -/
def words : List UInt8 → List Nat
  | first :: second :: third :: fourth :: rest => beNat [first, second, third, fourth] :: words rest
  | _ => []

/-- READ_REGISTER_ACK payload: one value per requested address. -/
def Ack.registerValues (ack : Ack) : List Nat :=
  words ack.payload

/-- A decoded command packet. -/
structure Cmd where
  flags : Nat
  command : Nat
  reqId : Nat
  payload : List UInt8
  deriving DecidableEq, Repr

def Cmd.parse (datagram : List UInt8) : Option Cmd := do
  let packetType ← beAt? datagram 0 1
  let flags ← beAt? datagram 1 1
  let command ← beAt? datagram 2 2
  let length ← beAt? datagram 4 2
  let reqId ← beAt? datagram 6 2
  if packetType ≠ packetTypeCmd.toNat then none
  let payload ← slice? (datagram.drop headerLen) 0 length
  return { flags, command, reqId, payload }

/-- A command header; the length field keeps the low 16 bits of the payload
length, as the encoder's cast does. -/
def header (command flags payloadLen id : Nat) : List UInt8 :=
  packetTypeCmd :: UInt8.ofNat flags :: (beBytes 2 command ++ beBytes 2 payloadLen ++ beBytes 2 id)

def encodeReadReg (addrs : List Nat) (id : Nat) : List UInt8 :=
  header readRegisterCmd flagAckRequired (4 * addrs.length) id ++ addrs.flatMap (beBytes 4)

def encodeWriteReg (pairs : List (Nat × Nat)) (id : Nat) : List UInt8 :=
  header writeRegisterCmd flagAckRequired (8 * pairs.length) id ++
    pairs.flatMap (fun pair => beBytes 4 pair.1 ++ beBytes 4 pair.2)

def encodeReadMem (addr count id : Nat) : List UInt8 :=
  header readMemoryCmd flagAckRequired 8 id ++ beBytes 4 addr ++ beBytes 4 count

def encodeWriteMem (addr : Nat) (data : List UInt8) (id : Nat) : List UInt8 :=
  header writeMemoryCmd flagAckRequired (4 + data.length) id ++ beBytes 4 addr ++ data

/-- A PACKETRESEND command. Standard ids carry the frame id in one word and
24-bit packet ids; extended ids carry full words and a 64-bit frame id. -/
def encodePacketResend (frameId first last : Nat) (extendedIds : Bool) (id : Nat) : List UInt8 :=
  if extendedIds then
    header packetResendCmd flagExtendedIds 20 id ++
      beBytes 4 0 ++ beBytes 4 first ++ beBytes 4 last ++ beBytes 8 frameId
  else
    header packetResendCmd 0 12 id ++
      beBytes 4 frameId ++ beBytes 4 (first &&& 0xffffff) ++ beBytes 4 (last &&& 0xffffff)

/-- A FORCEIP command; its fields stand apart, with zeros between them. -/
def encodeForceIp (mac : Fin 6 → UInt8) (ip mask gateway : Fin 4 → UInt8) (id : Nat) : List UInt8 :=
  header forceIpCmd flagAckRequired 56 id ++ (List.replicate 2 0 ++ List.ofFn mac ++ List.replicate 12 0 ++ List.ofFn ip ++
    List.replicate 12 0 ++ List.ofFn mask ++ List.replicate 12 0 ++ List.ofFn gateway)

/-- The acknowledge a host sends back for an event command. -/
def encodeEventAck (command reqId : Nat) : List UInt8 :=
  beBytes 2 GvcpStatus.success.code ++ beBytes 2 (command + 1) ++ beBytes 2 0 ++ beBytes 2 reqId

end Telegenic.Proto.Gvcp
