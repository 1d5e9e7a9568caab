import Telegenic.Proto.Gvsp

/-! Completed frames, the buffer slots they draw from, and the counters a
stream keeps. -/

set_option autoImplicit false

namespace Telegenic.Stream

open Library Proto

/-- Per-packet reassembly bookkeeping, pooled with the buffer. Times are
nanoseconds on the worker's clock. -/
structure PacketState where
  received : Bool := false
  resendRequested : Bool := false
  resendDeadline : Option Nat := none
  deriving DecidableEq, Repr

/-- A preallocated buffer. The key is a history variable: it names which of
the pool's allocations this is and no operation reads it. -/
structure BufSlot where
  key : Nat
  data : List UInt8
  packets : List PacketState
  deriving DecidableEq, Repr

def resizePackets (packets : List PacketState) (n : Nat) : List PacketState :=
  packets.take n ++ List.replicate (n - packets.length) ({} : PacketState)

def isReceived (packets : List PacketState) (position : Nat) : Bool :=
  (packets[position]?).any (·.received)

def BufSlot.reset (nPackets : Nat) (slot : BufSlot) : BufSlot :=
  { slot with packets := resizePackets [] nPackets }

inductive FrameStatus where
  | complete
  | missingPackets
  | timeout
  | aborted
  | wrongPacketId
  | payloadUnsupported
  deriving DecidableEq, Repr

inductive PayloadKind where
  | image (hasChunks : Bool)
  | chunkData
  | unknown (payloadType : Nat)
  deriving DecidableEq, Repr

/-- One closed frame; `slot` is the pooled buffer it owns. -/
structure Frame where
  status : FrameStatus
  frameId : Nat
  payload : PayloadKind
  pixelFormat : Nat
  width : Nat
  height : Nat
  xOffset : Nat
  yOffset : Nat
  xPadding : Nat
  yPadding : Nat
  timestampTicks : Nat
  timestampNs : Nat
  systemTimestampNs : Nat
  receivedSize : Nat
  dataEnd : Nat
  slot : BufSlot
  deriving DecidableEq, Repr

def Frame.data (frame : Frame) : List UInt8 :=
  frame.slot.data.take (min frame.dataEnd frame.slot.data.length)

structure StreamStats where
  packets : Nat := 0
  bytes : Nat := 0
  completedFrames : Nat := 0
  failedFrames : Nat := 0
  timedOutFrames : Nat := 0
  abortedFrames : Nat := 0
  missingFrames : Nat := 0
  underruns : Nat := 0
  missingPackets : Nat := 0
  resendRequests : Nat := 0
  resentPackets : Nat := 0
  resendRatioReached : Nat := 0
  resendDisabled : Nat := 0
  duplicatedPackets : Nat := 0
  errorPackets : Nat := 0
  ignoredPackets : Nat := 0
  unsupportedFrames : Nat := 0
  sizeMismatchErrors : Nat := 0
  framesDropped : Nat := 0
  socketDrops : Nat := 0
  deriving DecidableEq, Repr

def StreamStats.ignore (stats : StreamStats) : StreamStats :=
  { stats with ignoredPackets := stats.ignoredPackets + 1 }

/-- What the worker is started with: the negotiated link parameters and the
part of the stream configuration it reads. `maxRequests` is the product of a
packet count with the configured request ratio, and `fingerprint` the hash of
a packet's kind and data. -/
structure StreamParams where
  scpsPacketSize : Nat
  payloadSize : Nat
  nBuffers : Nat
  resendEnabled : Bool
  tickFrequency : Nat
  initialPacketTimeout : Nat
  packetTimeout : Nat
  frameRetention : Nat
  maxRequests : Nat → Nat
  fingerprint : Nat → List UInt8 → Nat
  payloadSize_lt : payloadSize < 2 ^ 63

end Telegenic.Stream
