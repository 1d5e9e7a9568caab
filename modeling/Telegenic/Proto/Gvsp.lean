import Telegenic.Proto.Gvcp

/-! The GVSP wire format. Every packet starts with a 16-bit status, then the
standard header (16-bit frame id, 24-bit packet id) or the extended one
(64-bit frame id, 32-bit packet id), selected by bit 31 of the word at byte
offset 4. -/

set_option autoImplicit false

namespace Telegenic.Proto.Gvsp

open Library Gvcp

def packetIdMask : Nat := 0x00ffffff
def extendedIdMode : Nat := 0x80000000
def contentTypeMask : Nat := 0x7f000000
def contentTypePos : Nat := 24

/-- Largest GVSP packet on the wire. -/
def maximumPacketSize : Nat := 65536 - 14 - 4

/-- IP and UDP headers, included in the SCPS packet size. -/
def packetUdpOverhead : Nat := 20 + 8

/-- Bytes of a payload packet that are not image data. -/
def packetProtocolOverhead (extendedIds : Bool) : Nat :=
  packetUdpOverhead + 2 + (if extendedIds then 18 else 6)

inductive ContentType where
  | leader
  | trailer
  | payload
  | allIn
  | h264
  | multizone
  | multipart
  | genDc
  | unknown (bits : Nat)
  deriving DecidableEq, Repr

def ContentType.fromBits : Nat → ContentType
  | 1 => .leader
  | 2 => .trailer
  | 3 => .payload
  | 4 => .allIn
  | 5 => .h264
  | 6 => .multizone
  | 7 => .multipart
  | 8 => .genDc
  | other => .unknown other

/-- The fields of one GVSP datagram. -/
structure GvspView where
  status : GvcpStatus
  extendedIds : Bool
  frameId : Nat
  packetId : Nat
  contentType : ContentType
  data : List UInt8
  deriving DecidableEq, Repr

def GvspView.parse (datagram : List UInt8) : Option GvspView := do
  let status ← beAt? datagram 0 2
  let infos ← beAt? datagram 4 4
  let extendedIds := infos &&& extendedIdMode != 0
  let contentType := ContentType.fromBits ((infos &&& contentTypeMask) >>> contentTypePos)
  if extendedIds then
    let frameId ← beAt? datagram 8 8
    let packetId ← beAt? datagram 16 4
    let data ← dropFrom? datagram 20
    return { status := ⟨status⟩, extendedIds, frameId, packetId, contentType, data }
  else
    let frameId ← beAt? datagram 2 2
    let data ← dropFrom? datagram 8
    return { status := ⟨status⟩, extendedIds, frameId, packetId := infos &&& packetIdMask, contentType, data }

def payloadTypeImage : Nat := 0x0001
def payloadTypeChunkData : Nat := 0x0004
def payloadTypeExtendedChunkData : Nat := 0x0005

/-- The bit that marks a payload as followed by chunks. -/
def payloadTypeChunkExtension : Nat := 0x4000

/-- The data area of a leader. -/
structure ImageLeader where
  payloadType : Nat
  hasChunks : Bool
  timestampTicks : Nat
  pixelFormat : Nat
  width : Nat
  height : Nat
  xOffset : Nat
  yOffset : Nat
  xPadding : Nat
  yPadding : Nat
  deriving DecidableEq, Repr

/-- The image fields past the generic 12-byte leader read as zero when the
data area ends before them. -/
def ImageLeader.parse (data : List UInt8) : Option ImageLeader := do
  let rawPayloadType ← beAt? data 2 2
  let payloadType := rawPayloadType &&& (0xffff ^^^ payloadTypeChunkExtension)
  let hasChunks := rawPayloadType &&& payloadTypeChunkExtension != 0 ||
    payloadType == payloadTypeChunkData || payloadType == payloadTypeExtendedChunkData
  let timestampTicks ← beAt? data 4 8
  let u32At := fun start => (beAt? data start 4).getD 0
  let u16At := fun start => (beAt? data start 2).getD 0
  return {
    payloadType, hasChunks, timestampTicks
    pixelFormat := u32At 12
    width := u32At 16
    height := u32At 20
    xOffset := u32At 24
    yOffset := u32At 28
    xPadding := u16At 32
    yPadding := u16At 34 }

/-- A device timestamp in nanoseconds, saturating at the largest 64-bit time. -/
def timestampToNs (ticks tickFrequency : Nat) : Nat :=
  if tickFrequency < 1 then 0 else min (ticks * 1000000000 / tickFrequency) (2 ^ 64 - 1)

end Telegenic.Proto.Gvsp
