import Telegenic.Library.Checked
import Telegenic.Stream.Frame

/-! Reassembly of one frame: how a leader, payload or trailer packet changes
the bookkeeping of the frame it belongs to, and how the holes behind a packet
are turned into resend requests. -/

set_option autoImplicit false

namespace Telegenic.Stream

open Library Proto Proto.Gvsp

/-- Leading packets fingerprinted per frame. -/
abbrev fingerprintedPackets : Nat := 4

/-- Upper bound on packets per frame, whatever a trailer or payload size
claims. -/
def maxFramePackets : Nat := 2 ^ 20

/-- Hashes of a frame's leading packets and its trailer. -/
structure Fingerprints where
  head : Fin fingerprintedPackets → Option Nat := fun _ => none
  trailer : Option (Nat × Nat) := none

/-- The byte that separates the kinds of fingerprinted packets. -/
def contentTag : ContentType → Option Nat
  | .leader => some 1
  | .trailer => some 2
  | .payload => some 3
  | _ => none

/-- Records the fingerprint of `view`, and whether `reference` holds a
different one for the same packet. -/
def Fingerprints.record (params : StreamParams) (view : GvspView) (reference : Option Fingerprints)
    (fingerprints : Fingerprints) : Fingerprints × Bool :=
  match contentTag view.contentType with
  | none => (fingerprints, false)
  | some content =>
      let fp := params.fingerprint content view.data
      if view.contentType = .trailer then
        let entry := some (view.packetId, fp)
        ({ fingerprints with trailer := entry },
          reference.any fun known => known.trailer.isSome && known.trailer != entry)
      else if inHead : view.packetId < fingerprintedPackets then
        let position : Fin fingerprintedPackets := ⟨view.packetId, inHead⟩
        ({ fingerprints with head := Function.update fingerprints.head position (some fp) },
          (reference.bind fun known => known.head position).any (· != fp))
      else
        (fingerprints, false)

/-- A frame being reassembled. -/
structure FrameInFlight where
  frameId : Nat
  extendedIds : Bool
  slot : BufSlot
  nPackets : Nat
  /-- Data bytes per payload packet: an estimate until payload packet 1 fixes
  it. Until then payload packets are held, not placed. -/
  blockSize : Nat
  blockKnown : Bool
  held : List (Nat × List UInt8)
  heldBytes : Nat
  trailerSeen : Bool
  /-- Highest packet id such that all packets up to it are received. -/
  lastValidPacket : Int
  receivedSize : Nat
  /-- Highest `offset + len` written so far. -/
  dataEnd : Nat
  lastPacketTime : Nat
  leader : Option ImageLeader
  systemTimestampNs : Nat
  /-- Set on protocol violations; blocks further data writes and decides the
  closing status. -/
  error : Option FrameStatus
  resendDisabled : Bool
  resendRatioReached : Bool
  nResendRequests : Nat
  fingerprints : Fingerprints
  /-- Set while this frame reuses the block id of a recently closed one and
  has so far matched it byte for byte. -/
  replayOf : Option Fingerprints
  /-- Packets routed here while `replayOf` is set. -/
  absorbed : Nat
  /-- History variable: how many frames the worker had opened before this
  one. -/
  opening : Nat
  /-- History variable: the packets accepted into this frame so far, oldest
  first. -/
  accepted : List GvspView

/-- `replayOf` is set: the frame is taken for late copies of a closed one. -/
def FrameInFlight.provisional (frame : FrameInFlight) : Bool :=
  frame.replayOf.isSome

/-- Most packets a frame can have before its block size is known. -/
def packetLimit (params : StreamParams) : Nat :=
  min (params.payloadSize + 2) maxFramePackets

/-- The SCPS-derived estimate of the data bytes per payload packet. -/
def estimatedBlockSize (params : StreamParams) (extendedIds : Bool) : Nat :=
  params.scpsPacketSize - packetProtocolOverhead extendedIds

/-- Expected packets for a frame, judged from whichever packet arrives first;
0 when the frame cannot be reassembled. -/
def computeNExpectedPackets (params : StreamParams) (view : GvspView) : Checked Nat :=
  let blockSize := estimatedBlockSize params view.extendedIds
  if blockSize = 0 then
    .ok 0
  else do
    let blocks ← Checked.divCeil params.payloadSize blockSize
    let estimate := min (blocks + 2) maxFramePackets
    match view.contentType with
    | .leader =>
        match (ImageLeader.parse view.data).map (·.payloadType) with
        | some payloadType =>
            if payloadType = payloadTypeImage ∨ payloadType = payloadTypeChunkData ∨
                payloadType = payloadTypeExtendedChunkData then
              return estimate
            else
              return 0
        | none => return 0
    | .payload => return estimate
    | .trailer =>
        let n := view.packetId + 1
        if 2 ≤ n ∧ n ≤ packetLimit params then return n else return estimate
    | .allIn => return 1
    | _ => return 0

namespace FrameInFlight

def withPackets (packets : List PacketState) (frame : FrameInFlight) : FrameInFlight :=
  { frame with slot := { frame.slot with packets := packets } }

def setNPackets (n : Nat) (frame : FrameInFlight) : FrameInFlight :=
  { frame with
    nPackets := n
    slot := { frame.slot with packets := resizePackets frame.slot.packets n }
    lastValidPacket := min frame.lastValidPacket ((n : Int) - 1) }

/-- The frame with a protocol violation recorded. -/
def reject (frame : FrameInFlight) : FrameInFlight :=
  { frame with error := some .wrongPacketId }

/-- Copies `data` to `offset` of the buffer. -/
def write (offset : Nat) (data : List UInt8) (frame : FrameInFlight) : Checked FrameInFlight := do
  let bytes ← Checked.copyAt frame.slot.data offset data
  return { frame with
    slot := { frame.slot with data := bytes }
    receivedSize := frame.receivedSize + data.length
    dataEnd := max frame.dataEnd (offset + data.length) }

/-- Writes one payload packet's data at its block's offset. The block size
must be known. -/
def place (packetId : Nat) (data : List UInt8) (frame : FrameInFlight) (stats : StreamStats) :
    Checked (FrameInFlight × StreamStats) :=
  if frame.blockSize < data.length then
    .ok (frame.reject, { stats with sizeMismatchErrors := stats.sizeMismatchErrors + 1 })
  else do
    let block ← Checked.sub packetId 1
    let offset := block * frame.blockSize
    if 2 ^ 64 ≤ offset then
      return (frame.reject, stats)
    else
      let capacity := frame.slot.data.length
      if capacity < offset + data.length then
        -- Only the final payload packet may be padded past the payload size.
        let lastPayload ← Checked.sub frame.nPackets 2
        let stats := if packetId ≠ lastPayload then
            { stats with sizeMismatchErrors := stats.sizeMismatchErrors + 1 }
          else
            stats
        if capacity ≤ offset then
          return (frame, stats)
        else
          let room ← Checked.sub capacity offset
          let data ← Checked.takeTo data room
          let frame ← frame.write offset data
          return (frame, stats)
      else
        let frame ← frame.write offset data
        return (frame, stats)

def processLeader (view : GvspView) (systemNow : Nat) (frame : FrameInFlight) : FrameInFlight :=
  if frame.error.isSome then
    frame
  else if view.packetId ≠ 0 then
    frame.reject
  else
    { frame with systemTimestampNs := systemNow, leader := ImageLeader.parse view.data }

/-- The block size observed in payload packet 1; an empty one says nothing. -/
def learnBlockSize (view : GvspView) (frame : FrameInFlight) : FrameInFlight :=
  { frame with
    blockKnown := true
    blockSize := if view.data.isEmpty then frame.blockSize else view.data.length }

/-- Payload packet 1 fixes the block size, and with it how many packets fit
the buffer. -/
def fixBlockSize (params : StreamParams) (view : GvspView) (frame : FrameInFlight) :
    Checked FrameInFlight := do
  let frame := frame.learnBlockSize view
  let blocks ← Checked.divCeil params.payloadSize frame.blockSize
  let fits := blocks + 2
  if !frame.trailerSeen then
    return frame.setNPackets (min fits maxFramePackets)
  else if fits < frame.nPackets then
    return frame.reject
  else
    return frame

/-- Makes room for at least `n` packets. -/
def growTo (n : Nat) (frame : FrameInFlight) : FrameInFlight :=
  if frame.nPackets < n then frame.setNPackets n else frame

def countHeld (data : List UInt8) (frame : FrameInFlight) : FrameInFlight :=
  { frame with heldBytes := frame.heldBytes + data.length }

/-- Holds a payload packet until packet 1 fixes the block size. -/
def hold (packetId : Nat) (data : List UInt8) (frame : FrameInFlight) (stats : StreamStats) :
    FrameInFlight × StreamStats :=
  let frame := frame.countHeld data
  if frame.slot.data.length + maximumPacketSize < frame.heldBytes then
    (frame.reject, { stats with sizeMismatchErrors := stats.sizeMismatchErrors + 1 })
  else
    let frame := frame.growTo (packetId + 2)
    ({ frame with held := frame.held ++ [(packetId, data)] }, stats)

/-- Places the packets that were held, in arrival order, stopping at the first
violation. -/
def placeHeld : List (Nat × List UInt8) → FrameInFlight → StreamStats →
    Checked (FrameInFlight × StreamStats)
  | [], frame, stats => .ok (frame, stats)
  | (id, data) :: rest, frame, stats =>
      if frame.error.isSome then
        .ok (frame, stats)
      else if frame.nPackets - 2 < id then
        .ok (frame.reject, stats)
      else do
        let (frame, stats) ← frame.place id data stats
        placeHeld rest frame stats

/-- Places a payload packet, then the packets held until now. -/
def placeAll (packetId : Nat) (data : List UInt8) (frame : FrameInFlight) (stats : StreamStats) :
    Checked (FrameInFlight × StreamStats) := do
  let (frame, stats) ← frame.place packetId data stats
  let (frame, stats) ← placeHeld frame.held { frame with held := [] } stats
  return ({ frame with heldBytes := 0 }, stats)

/-- The highest packet id a payload packet may have. -/
def lastPayload (params : StreamParams) (frame : FrameInFlight) : Checked Nat :=
  if frame.blockKnown ∨ frame.trailerSeen then
    .ok (frame.nPackets - 2)
  else
    Checked.sub (packetLimit params) 2

/-- Payload packets carry no offset: packet `k` holds block `k - 1`, and every
block but the last is exactly as long as payload packet 1. -/
def processPayload (params : StreamParams) (view : GvspView) (frame : FrameInFlight)
    (stats : StreamStats) : Checked (FrameInFlight × StreamStats) :=
  if frame.error.isSome then
    .ok (frame, stats)
  else do
    let packetId := view.packetId
    let frame ← if packetId = 1 ∧ !frame.blockKnown then frame.fixBlockSize params view else pure frame
    if frame.error.isSome then
      return (frame, stats)
    else
      let lastPayload ← frame.lastPayload params
      if packetId < 1 ∨ lastPayload < packetId then
        return (frame.reject, stats)
      else if !frame.blockKnown then
        return frame.hold packetId view.data stats
      else
        frame.placeAll packetId view.data stats

/-- The bound the trailer's id has to stay below. -/
def trailerBound (params : StreamParams) (frame : FrameInFlight) : Checked Nat :=
  if frame.blockKnown then do
    let blocks ← Checked.divCeil params.payloadSize frame.blockSize
    return min (blocks + 2) maxFramePackets
  else
    .ok (packetLimit params)

/-- The trailer's id is authoritative for how many packets the frame has,
unless it leaves the buffer or contradicts a packet already received. -/
def processTrailer (params : StreamParams) (view : GvspView) (frame : FrameInFlight) :
    Checked FrameInFlight :=
  let frame := { frame with trailerSeen := true }
  if frame.error.isSome then
    .ok frame
  else do
    let packetId := view.packetId
    let bound ← frame.trailerBound params
    let contradicted := (frame.slot.packets.drop packetId).any (·.received)
    if packetId < 1 ∨ bound ≤ packetId ∨ contradicted then
      return frame.reject
    else if frame.nPackets ≠ packetId + 1 then
      return frame.setNPackets (packetId + 1)
    else
      return frame

/-- Sets the received flag of packet `packetId` when the frame has such a
packet. -/
def markReceived (packetId : Nat) (frame : FrameInFlight) (stats : StreamStats) :
    Checked (FrameInFlight × StreamStats) :=
  if packetId < frame.nPackets then do
    let packet ← Checked.get frame.slot.packets packetId
    let stats := if packet.resendRequested then
        { stats with resentPackets := stats.resentPackets + 1 }
      else
        stats
    return (frame.withPackets (frame.slot.packets.set packetId { packet with received := true }), stats)
  else
    .ok (frame, stats)

/-- The first packet at or after `position` that is not received, looking at
most `fuel` packets ahead. -/
def firstHole (frame : FrameInFlight) : (fuel position : Nat) → Checked Nat
  | 0, position => .ok position
  | fuel + 1, position =>
      if position < frame.nPackets then do
        let packet ← Checked.get frame.slot.packets position
        if packet.received then frame.firstHole fuel (position + 1) else return position
      else
        .ok position

/-- Moves the end of the received prefix over the packets now received. -/
def advance (frame : FrameInFlight) : Checked FrameInFlight := do
  let start := (frame.lastValidPacket + 1).toNat
  let hole ← frame.firstHole (frame.nPackets - start) start
  return { frame with lastValidPacket := (hole : Int) - 1 }

/-- The change a leader, payload or trailer makes to the frame's contents;
`none` for any other packet. -/
def processContent (params : StreamParams) (systemNow : Nat) (view : GvspView) (frame : FrameInFlight)
    (stats : StreamStats) : Checked (Option (FrameInFlight × StreamStats)) :=
  match view.contentType with
  | .leader => .ok (some (frame.processLeader view systemNow, stats))
  | .payload => do
      let result ← frame.processPayload params view stats
      return some result
  | .trailer => do
      let frame ← frame.processTrailer params view
      return some (frame, stats)
  | _ => .ok none

/-- Appends to the history of accepted packets. A packet is accepted when the
frame stands without a violation after it. -/
def logAccepted (view : GvspView) (frame : FrameInFlight) : FrameInFlight :=
  { frame with accepted := if frame.error = none then frame.accepted ++ [view] else frame.accepted }

/-- The bookkeeping that follows a packet's content: its received flag, the
received prefix and its fingerprint. The flag returned says whether the packet
differs from the closed frame this one may be a replay of. -/
def settle (params : StreamParams) (view : GvspView) (frame : FrameInFlight) (stats : StreamStats) :
    Checked (FrameInFlight × StreamStats × Bool) := do
  let (frame, stats) ← (frame.logAccepted view).markReceived view.packetId stats
  let frame ← frame.advance
  let (fingerprints, diverged) := frame.fingerprints.record params view frame.replayOf
  return ({ frame with fingerprints := fingerprints }, stats, diverged)

end FrameInFlight

/-- One pass over the holes behind a packet: the frame with the deadlines set
so far, the hole range being extended, and the ranges to request. -/
structure HoleScan where
  frame : FrameInFlight
  firstMissing : Option Nat
  ranges : List (Nat × Nat)

namespace HoleScan

def start (frame : FrameInFlight) : HoleScan :=
  { frame := frame, firstMissing := none, ranges := [] }

def setPacket (position : Nat) (packet : PacketState) (scan : HoleScan) : HoleScan :=
  { scan with frame := scan.frame.withPackets (scan.frame.slot.packets.set position packet) }

/-- Arms the deadline of a hole on first sight, and whether it has passed. -/
def needResend (params : StreamParams) (now packetId position : Nat) (scan : HoleScan) :
    Checked (HoleScan × Bool) :=
  if position ≤ packetId then do
    let packet ← Checked.get scan.frame.slot.packets position
    if packet.received then
      return (scan, false)
    else
      let deadline := packet.resendDeadline.getD (now + params.initialPacketTimeout)
      return (scan.setPacket position { packet with resendDeadline := some deadline }, deadline < now)
  else
    .ok (scan, false)

/-- Marks the packets `first..=last` as requested. -/
def request (params : StreamParams) (now first last : Nat) (scan : HoleScan) : Checked HoleScan :=
  let packets := scan.frame.slot.packets
  if first ≤ last + 1 ∧ last < packets.length then
    let requested := packets.mapIdx fun position packet =>
      if first ≤ position ∧ position ≤ last then
        { packet with resendRequested := true, resendDeadline := some (now + params.packetTimeout) }
      else
        packet
    .ok { scan with frame := scan.frame.withPackets requested, ranges := scan.ranges ++ [(first, last)] }
  else
    .error .slice

/-- Ends the open range and counts its packets against the budget. -/
def count (nMissing : Nat) (scan : HoleScan) : HoleScan :=
  { scan with
    firstMissing := none
    frame := { scan.frame with nResendRequests := scan.frame.nResendRequests + nMissing } }

def exhaust (scan : HoleScan) : HoleScan :=
  { scan with frame := { scan.frame with resendRatioReached := true } }

/-- Ends the range `first..=last`: it is requested, unless the request budget
is used up, which the flag returned says. -/
def closeRange (params : StreamParams) (now maxRequests first last : Nat) (scan : HoleScan) :
    Checked (HoleScan × Bool) := do
  let span ← Checked.sub last first
  let scan := scan.count (span + 1)
  if maxRequests < scan.frame.nResendRequests then
    return (scan.exhaust, true)
  else
    let scan ← scan.request params now first last
    return (scan, false)

/-- Opens a range at `position` when its packet is due and none is open. -/
def openRange (position : Nat) (needResend : Bool) (scan : HoleScan) : HoleScan :=
  if needResend ∧ scan.firstMissing.isNone then { scan with firstMissing := some position } else scan

/-- Looks at packet `position`; the flag returned says that the request budget
is used up, which ends the pass with nothing requested. -/
def visit (params : StreamParams) (now packetId maxRequests position : Nat) (scan : HoleScan) :
    Checked (HoleScan × Bool) := do
  let (scan, needResend) ← scan.needResend params now packetId position
  let scan := scan.openRange position needResend
  if packetId < position ∨ !needResend then
    match scan.firstMissing with
    | some first =>
        let last ← Checked.sub position 1
        scan.closeRange params now maxRequests first last
    | none => return (scan, false)
  else
    return (scan, false)

/-- Looks at `fuel` packets from `position` on. -/
def walk (params : StreamParams) (now packetId maxRequests : Nat) :
    (fuel position : Nat) → HoleScan → Checked (HoleScan × Bool)
  | 0, _, scan => .ok (scan, false)
  | fuel + 1, position, scan => do
      let (scan, exhausted) ← scan.visit params now packetId maxRequests position
      if exhausted then
        return (scan, true)
      else
        walk params now packetId maxRequests fuel (position + 1) scan

end HoleScan

/-- What a check for missing packets asks of the worker. -/
inductive HoleVerdict where
  /-- Nothing was looked at: resends are off or the packet is out of range. -/
  | skipped
  /-- The request budget was used up. -/
  | ratioReached
  /-- These ranges are to be requested. -/
  | requests (ranges : List (Nat × Nat))
  deriving DecidableEq, Repr

/-- Walks the span of holes behind `packetId` and coalesces expired ones into
ranges to request. -/
def FrameInFlight.findHoles (params : StreamParams) (packetId now : Nat) (frame : FrameInFlight) :
    Checked (FrameInFlight × HoleVerdict) :=
  if !params.resendEnabled ∨ frame.resendDisabled ∨ frame.resendRatioReached then
    .ok (frame, .skipped)
  else
    let maxRequests := params.maxRequests frame.nPackets
    if maxRequests = 0 ∨ frame.nPackets ≤ packetId then
      .ok (frame, .skipped)
    else do
      let start := (frame.lastValidPacket + 1).toNat
      let (scan, exhausted) ←
        HoleScan.walk params now packetId maxRequests (packetId + 2 - start) start (.start frame)
      if exhausted then
        return (scan.frame, .ratioReached)
      else
        return (scan.frame, .requests scan.ranges)

end Telegenic.Stream
