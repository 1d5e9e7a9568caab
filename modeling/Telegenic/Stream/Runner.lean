import Telegenic.Stream.Fabric
import Telegenic.Stream.Reassembly

/-! The per-channel receiver worker: it routes packets to the frames in
flight, opens, adopts, discards and closes frames, and fans closed frames out
to the subscribers. Before each access to shared state the worker yields to
the other threads. -/

set_option autoImplicit false

namespace Telegenic.Stream

open Library Proto Proto.Gvsp

/-- Frames arriving this many ids late are dropped instead of reopened. -/
def discardLateFrameThreshold : Int := 100

/-- The block id a device counter starts from. -/
def restartBlockId : Nat := 1

/-- Closed frames remembered for telling late copies from a restarted
counter. -/
def historyLen : Nat := 128

/-- Stream-side GVCP id counter seed, clear of the control channel's range. -/
def resendIdSeed : Nat := 65300

/-- A frame the receiver closed, or dropped unopened. The fingerprints are
missing for frames dropped without reassembly. -/
structure ClosedBlock where
  frameId : Nat
  extendedIds : Bool
  fingerprints : Option Fingerprints

/-- How a frame's block id relates to the receiver's position in the device's
id sequence. -/
inductive Arrival where
  | new
  | late
  | maybeReplay (fingerprints : Fingerprints)

/-- Signed distance from block id `last` to `id`, positive ahead. Device
counters skip 0 when they wrap, so ids are compared on the ring of nonzero
ids; an id of 0 falls back to plain wrapping. -/
def blockIdDistance (id last : Nat) (extendedIds : Bool) : Int :=
  let max := if extendedIds then 2 ^ 64 - 1 else 2 ^ 16 - 1
  let id := id &&& max
  let last := last &&& max
  let modulus := max + (if id = 0 ∨ last = 0 then 1 else 0)
  let ahead := (id + modulus - last) % modulus
  if ahead ≤ modulus / 2 then
    if ahead < 2 ^ 63 then ahead else 2 ^ 63 - 1
  else
    let behind := modulus - ahead
    if behind < 2 ^ 63 then -(behind : Int) else -(2 ^ 63)

structure StreamRunner where
  frames : List FrameInFlight := []
  /-- Subscriptions, by position. -/
  subscribers : List Nat := []
  shutdownRequested : Bool := false
  stats : StreamStats := {}
  /-- The snapshot other threads read. -/
  published : StreamStats := {}
  resendId : Nat := resendIdSeed
  lastFrameId : Nat := 0
  firstPacket : Bool := true
  history : List ClosedBlock := []
  /-- History variable: frames opened so far. -/
  openings : Nat := 0

/-- A PACKETRESEND command the worker put on the wire. -/
structure ResendRequest where
  frameId : Nat
  first : Nat
  last : Nat
  extendedIds : Bool
  id : Nat
  deriving DecidableEq, Repr

/-- What happened to frames, in order. -/
inductive StreamEvent where
  | opened (opening frameId : Nat) (provisional : Bool)
  | adopted (opening : Nat)
  | discarded (opening : Nat)
  | requested (request : ResendRequest)
  /-- The frame was closed and offered to every subscriber. -/
  | delivered (opening : Nat) (frame : Frame) (accepted : List GvspView)

structure StreamWorld where
  runner : StreamRunner
  fabric : Fabric
  journal : List StreamEvent := []
  /-- What the other threads do at the worker's next accesses to shared
  state. -/
  schedule : List (List ConsumerAct) := []

namespace StreamWorld

/-- The other threads act. -/
def yield (w : StreamWorld) : StreamWorld :=
  match w.schedule with
  | [] => w
  | acts :: rest => { w with fabric := acts.foldl Fabric.consume w.fabric, schedule := rest }

def setStats (stats : StreamStats) (w : StreamWorld) : StreamWorld :=
  { w with runner := { w.runner with stats := stats } }

def ignore (w : StreamWorld) : StreamWorld :=
  w.setStats w.runner.stats.ignore

def record (event : StreamEvent) (w : StreamWorld) : StreamWorld :=
  { w with journal := w.journal ++ [event] }

def setFrame (index : Nat) (frame : FrameInFlight) (w : StreamWorld) : StreamWorld :=
  { w with runner := { w.runner with frames := w.runner.frames.set index frame } }

def removeFrame (index : Nat) (w : StreamWorld) : StreamWorld :=
  { w with runner := { w.runner with frames := w.runner.frames.eraseIdx index } }

def publishStats (w : StreamWorld) : StreamWorld :=
  { w with runner := { w.runner with published := w.runner.stats } }

/-- One message from the command queue. -/
def command (runner : StreamRunner) : ToStreamWorker → StreamRunner
  | .subscribe id => { runner with subscribers := runner.subscribers ++ [id] }
  | .shutdown => { runner with shutdownRequested := true }

def drainCommands (w : StreamWorld) : StreamWorld :=
  let w := w.yield
  { w with
    runner := w.fabric.commands.foldl command w.runner
    fabric := { w.fabric with commands := [] } }

/-- Remembers a closed or dropped block, forgetting the oldest one when the
history is full. -/
def remember (frameId : Nat) (extendedIds : Bool) (fingerprints : Option Fingerprints)
    (w : StreamWorld) : StreamWorld :=
  let history := if historyLen ≤ w.runner.history.length then w.runner.history.drop 1 else w.runner.history
  { w with runner := { w.runner with history := history ++ [⟨frameId, extendedIds, fingerprints⟩] } }

/-- Classifies a packet whose block id is at or behind the last one opened. -/
def classifyBehind (view : GvspView) (w : StreamWorld) : Arrival :=
  if view.frameId ≠ restartBlockId then
    .late
  else
    match w.runner.history.reverse.find?
        (fun closed => closed.frameId == view.frameId && closed.extendedIds == view.extendedIds) with
    | none => .new
    | some closed =>
        match closed.fingerprints with
        | none => .late
        | some fingerprints => .maybeReplay fingerprints

/-- A slot goes back to the pool. -/
def returnSlot (slot : BufSlot) (w : StreamWorld) : StreamWorld :=
  { w with fabric := w.fabric.returnSlot slot }

/-- Drops a frame taken for late copies of a closed one. -/
def discardFrame (index : Nat) (w : StreamWorld) : Checked StreamWorld := do
  let frame ← Checked.get w.runner.frames index
  return ((w.removeFrame index).yield.returnSlot frame.slot).record (.discarded frame.opening)

/-- Drops provisional frames until none is left. -/
def discardProvisionalLoop : Nat → StreamWorld → Checked StreamWorld
  | 0, w => .ok w
  | fuel + 1, w =>
      match w.runner.frames.findIdx? (·.provisional) with
      | none => .ok w
      | some index => do
          let w ← w.discardFrame index
          discardProvisionalLoop fuel w

def discardProvisional (w : StreamWorld) : Checked StreamWorld :=
  discardProvisionalLoop w.runner.frames.length w

/-- A new frame in flight, opened by the packet `view`. -/
def newFrame (params : StreamParams) (view : GvspView) (now nPackets opening : Nat) (slot : BufSlot)
    (replayOf : Option Fingerprints) : FrameInFlight :=
  { frameId := view.frameId
    extendedIds := view.extendedIds
    slot := slot.reset nPackets
    nPackets := nPackets
    blockSize := estimatedBlockSize params view.extendedIds
    blockKnown := false
    held := []
    heldBytes := 0
    trailerSeen := false
    lastValidPacket := -1
    receivedSize := 0
    dataEnd := 0
    lastPacketTime := now
    leader := none
    systemTimestampNs := 0
    error := none
    resendDisabled := replayOf.isSome
    resendRatioReached := false
    nResendRequests := 0
    fingerprints := {}
    replayOf := replayOf
    absorbed := 0
    opening := opening
    accepted := [] }

/-- Counts the ids skipped before a new frame and moves the receiver's
position to it. -/
def moveTo (view : GvspView) (distance : Int) (w : StreamWorld) : StreamWorld :=
  let stats := w.runner.stats
  let stats := if 1 < distance then
      { stats with missingFrames := stats.missingFrames + (distance.toNat - 1) }
    else
      stats
  { w with runner := { w.runner with stats := stats, lastFrameId := view.frameId } }

/-- A frame that is counted but not reassembled: the position moves past it so
that its remaining packets are late. -/
def skipFrame (view : GvspView) (w : StreamWorld) : StreamWorld :=
  { w with runner := { w.runner with lastFrameId := view.frameId } }.remember
    view.frameId view.extendedIds none

/-- Puts a frame with a claimed buffer in flight. -/
def startFrame (params : StreamParams) (view : GvspView) (now nPackets : Nat) (distance : Int)
    (replayOf : Option Fingerprints) (slot : BufSlot) (w : StreamWorld) : StreamWorld :=
  let w := if replayOf.isSome then w else w.moveTo view distance
  let opening := w.runner.openings
  { w with runner := { w.runner with
      frames := w.runner.frames ++ [newFrame params view now nPackets opening slot replayOf]
      openings := opening + 1 } }.record (.opened opening view.frameId replayOf.isSome)

/-- Claims a buffer for a new frame. Without one the frame is an underrun. -/
def openFrame (params : StreamParams) (view : GvspView) (now nPackets : Nat) (distance : Int)
    (replayOf : Option Fingerprints) (w : StreamWorld) : StreamWorld × Option Nat :=
  let w := w.yield
  match w.fabric.tryClaim with
  | (_, none) =>
      if replayOf.isSome then
        (w.ignore, none)
      else
        let stats := w.runner.stats
        ((w.setStats { stats with underruns := stats.underruns + 1 }).skipFrame view, none)
  | (fabric, some slot) =>
      ({ w with fabric := fabric }.startFrame params view now nPackets distance replayOf slot,
        some w.runner.frames.length)

/-- Opens the frame of a packet that belongs to none in flight. -/
def createFrame (params : StreamParams) (view : GvspView) (now : Nat) (distance : Int)
    (replayOf : Option Fingerprints) (w : StreamWorld) : Checked (StreamWorld × Option Nat) := do
  let w ← (if replayOf.isSome then .ok w else w.discardProvisional)
  let nPackets ← computeNExpectedPackets params view
  if nPackets = 0 then
    let w := w.ignore
    if replayOf.isSome then
      return (w, none)
    else
      -- An unsupported payload or an unparsable first packet drops the frame.
      let stats := w.runner.stats
      return ((w.setStats { stats with unsupportedFrames := stats.unsupportedFrames + 1 }).skipFrame view, none)
  else
    return w.openFrame params view now nPackets distance replayOf

/-- The position of the packet's frame among the frames in flight. -/
def findOrCreateFrame (params : StreamParams) (view : GvspView) (now : Nat) (w : StreamWorld) :
    Checked (StreamWorld × Option Nat) :=
  match w.runner.frames.findIdx? (·.frameId == view.frameId) with
  | some index => do
      let frame ← Checked.get w.runner.frames index
      return (w.setFrame index { frame with lastPacketTime := now }, some index)
  | none =>
      let distance := blockIdDistance view.frameId w.runner.lastFrameId view.extendedIds
      if distance < 1 ∧ -discardLateFrameThreshold < distance then
        match w.classifyBehind view with
        | .new => w.createFrame params view now distance none
        | .maybeReplay fingerprints => w.createFrame params view now distance (some fingerprints)
        | .late => .ok (w.ignore, none)
      else
        w.createFrame params view now distance none

/-- A frame reusing a closed frame's block id carries different bytes: the
device restarted its counter and the id sequence continues from it. -/
def adoptRestart (index : Nat) (w : StreamWorld) : Checked StreamWorld := do
  let frame ← Checked.get w.runner.frames index
  let stats := w.runner.stats
  let w := w.setFrame index { frame with replayOf := none, resendDisabled := false }
  return { w with runner := { w.runner with
      stats := { stats with ignoredPackets := stats.ignoredPackets - frame.absorbed }
      lastFrameId := frame.frameId } }.record (.adopted frame.opening)

/-- The next resend id, wrapping back to the seed. -/
def nextResendId (id : Nat) : Nat :=
  if id = 0xffff then resendIdSeed else id + 1

def sendResendRequest (frameId first last : Nat) (extendedIds : Bool) (w : StreamWorld) : StreamWorld :=
  let id := nextResendId w.runner.resendId
  { w with runner := { w.runner with resendId := id } }.record
    (.requested { frameId, first, last, extendedIds, id })

/-- Sends the request for one range of holes. -/
def requestRange (frame : FrameInFlight) (w : StreamWorld) (range : Nat × Nat) : StreamWorld :=
  let w := w.sendResendRequest frame.frameId range.1 range.2 frame.extendedIds
  let stats := w.runner.stats
  w.setStats { stats with resendRequests := stats.resendRequests + (range.2 - range.1 + 1) }

def missingPacketCheck (params : StreamParams) (index packetId now : Nat) (w : StreamWorld) :
    Checked StreamWorld := do
  let frame ← Checked.get w.runner.frames index
  let (frame, verdict) ← frame.findHoles params packetId now
  let w := w.setFrame index frame
  match verdict with
  | .skipped => return w
  | .ratioReached =>
      let stats := w.runner.stats
      return w.setStats { stats with resendRatioReached := stats.resendRatioReached + 1 }
  | .requests ranges => return ranges.foldl (requestRange frame) w

end StreamWorld

namespace FrameInFlight

/-- What the leader says the frame carries. -/
def payloadKind (frame : FrameInFlight) : PayloadKind :=
  match frame.leader with
  | none => .unknown 0
  | some leader =>
      if leader.payloadType = payloadTypeImage ∨ leader.payloadType = payloadTypeExtendedChunkData then
        .image leader.hasChunks
      else if leader.payloadType = payloadTypeChunkData then
        .chunkData
      else
        .unknown leader.payloadType

/-- The frame as it is delivered. -/
def toFrame (params : StreamParams) (status : FrameStatus) (frame : FrameInFlight) : Frame :=
  let ofLeader := fun (field : ImageLeader → Nat) => frame.leader.elim 0 field
  let timestampTicks := ofLeader (·.timestampTicks)
  { status := status
    frameId := frame.frameId
    payload := frame.payloadKind
    pixelFormat := ofLeader (·.pixelFormat)
    width := ofLeader (·.width)
    height := ofLeader (·.height)
    xOffset := ofLeader (·.xOffset)
    yOffset := ofLeader (·.yOffset)
    xPadding := ofLeader (·.xPadding)
    yPadding := ofLeader (·.yPadding)
    timestampTicks := timestampTicks
    timestampNs := if params.tickFrequency ≠ 0 then timestampToNs timestampTicks params.tickFrequency
      else frame.systemTimestampNs
    systemTimestampNs := frame.systemTimestampNs
    receivedSize := frame.receivedSize
    dataEnd := frame.dataEnd
    slot := frame.slot }

/-- Every packet of the frame has arrived. -/
def allReceived (frame : FrameInFlight) : Bool :=
  frame.lastValidPacket == (frame.nPackets : Int) - 1

/-- No packet has arrived for `span`. -/
def quietFor (now span : Nat) (frame : FrameInFlight) : Bool :=
  span ≤ now - frame.lastPacketTime

/-- The closing status of a frame whose packets have all arrived. Blocks are
disjoint and none longer than the block size, so data bytes short of the
extent mean a payload packet came up short of its block. -/
def finishedStatus (frame : FrameInFlight) : FrameStatus :=
  frame.error.getD (if frame.receivedSize = frame.dataEnd then .complete else .missingPackets)

end FrameInFlight

/-- The counters a closing frame changes. -/
def StreamStats.close (status : FrameStatus) (frame : FrameInFlight) (stats : StreamStats) : StreamStats :=
  let stats := match status with
    | .complete => { stats with completedFrames := stats.completedFrames + 1 }
    | .timeout => { stats with
        timedOutFrames := stats.timedOutFrames + 1
        failedFrames := stats.failedFrames + 1 }
    | .aborted => { stats with abortedFrames := stats.abortedFrames + 1 }
    | _ => { stats with failedFrames := stats.failedFrames + 1 }
  if status ≠ .complete ∧ status ≠ .aborted then
    { stats with missingPackets :=
        stats.missingPackets + ((frame.nPackets : Int) - (frame.lastValidPacket + 1)).toNat }
  else
    stats

namespace StreamWorld

/-- Offers a shared frame to the subscribers in turn. Returns the subscribers
that stay and how many had no room. -/
def fanOut (key : Nat) : List Nat → StreamWorld → StreamWorld × List Nat × Nat
  | [], w => (w, [], 0)
  | id :: rest, w =>
      let w := w.yield
      match (w.fabric.retain key).trySend id key with
      | (fabric, .sent) =>
          let (w, kept, dropped) := fanOut key rest { w with fabric := fabric }
          (w, id :: kept, dropped)
      | (fabric, .full) =>
          let (w, kept, dropped) := fanOut key rest { w with fabric := fabric.release key }
          (w, id :: kept, dropped + 1)
      | (fabric, .disconnected) =>
          fanOut key rest { w with fabric := (fabric.release key).dropSender id }

/-- Keeps the subscribers that stay and counts those that had no room. -/
def noteFanOut (subscribers : List Nat) (dropped : Nat) (w : StreamWorld) : StreamWorld :=
  let w := { w with runner := { w.runner with subscribers := subscribers } }
  if 0 < dropped then
    let stats := w.runner.stats
    (w.setStats { stats with framesDropped := stats.framesDropped + dropped }).publishStats
  else
    w

/-- Puts a closed frame into the shared state. The stats are published first so
that a subscriber that wakes on the frame sees it counted. -/
def announce (opening : Nat) (frame : Frame) (accepted : List GvspView) (w : StreamWorld) : StreamWorld :=
  ({ w with fabric := w.fabric.share frame }.record (.delivered opening frame accepted)).publishStats

/-- Hands a closed frame to the subscribers. -/
def deliver (opening : Nat) (frame : Frame) (accepted : List GvspView) (w : StreamWorld) : StreamWorld :=
  let key := w.fabric.nextKey
  let w := w.announce opening frame accepted
  let (w, subscribers, dropped) := fanOut key w.runner.subscribers w
  -- The worker's own handle goes last.
  let w := (w.noteFanOut subscribers dropped).yield
  { w with fabric := w.fabric.release key }

/-- Closes a frame. Commands are drained first: a subscription sent before the
frame's packets arrived never misses the frame. -/
def closeFrame (params : StreamParams) (index : Nat) (status : FrameStatus) (w : StreamWorld) :
    Checked StreamWorld := do
  let w := w.drainCommands
  let frame ← Checked.get w.runner.frames index
  let w := (w.removeFrame index).remember frame.frameId frame.extendedIds (some frame.fingerprints)
  let w := w.setStats (w.runner.stats.close status frame)
  return w.deliver frame.opening (frame.toFrame params status) frame.accepted

/-- Judges the frame at `index`. Returns the next position and whether frames
there may still close: frames close strictly head-of-line. -/
def completionStep (params : StreamParams) (now : Nat) (currentFrameId : Option Nat) (index : Nat)
    (canClose : Bool) (w : StreamWorld) : Checked (StreamWorld × Nat × Bool) := do
  let frame ← Checked.get w.runner.frames index
  if frame.provisional then
    if frame.allReceived ∨ frame.quietFor now params.frameRetention then
      let w ← w.discardFrame index
      return (w, index, canClose)
    else
      return (w, index + 1, canClose)
  else if canClose ∧ frame.allReceived then
    let w ← w.closeFrame params index frame.finishedStatus
    return (w, index, canClose)
  else if canClose ∧ !params.resendEnabled ∧ (w.runner.frames.drop (index + 1)).any (!·.provisional) then
    let w ← w.closeFrame params index .missingPackets
    return (w, index, canClose)
  -- The newest frame is not timed out while its leader is its only packet:
  -- some devices send the leader at trigger time, long before the data.
  else if canClose ∧ (frame.frameId ≠ w.runner.lastFrameId ∨ frame.lastValidPacket ≠ 0) ∧
      frame.quietFor now params.frameRetention then
    let w ← w.closeFrame params index (frame.error.getD .timeout)
    return (w, index, canClose)
  else if currentFrameId ≠ some frame.frameId ∧ frame.quietFor now params.packetTimeout then
    let last ← Checked.sub frame.nPackets 1
    let w ← w.missingPacketCheck params index last now
    return (w, index + 1, false)
  else
    return (w, index + 1, false)

/-- Each step removes a frame or moves past one, so as many steps as there are
frames reach the end of the list. -/
def completionLoop (params : StreamParams) (now : Nat) (currentFrameId : Option Nat) :
    Nat → Nat → Bool → StreamWorld → Checked StreamWorld
  | 0, _, _, w => .ok w
  | fuel + 1, index, canClose, w =>
      if index < w.runner.frames.length then do
        let (w, index, canClose) ← w.completionStep params now currentFrameId index canClose
        completionLoop params now currentFrameId fuel index canClose w
      else
        .ok w

def checkFrameCompletion (params : StreamParams) (now : Nat) (currentFrameId : Option Nat)
    (w : StreamWorld) : Checked StreamWorld :=
  completionLoop params now currentFrameId w.runner.frames.length 0 true w

/-- The device no longer has the packets: no more is requested for the frame. -/
def disableResend (index : Nat) (frame : FrameInFlight) (w : StreamWorld) : StreamWorld :=
  let stats := w.runner.stats
  (w.setFrame index { frame with resendDisabled := true }).setStats
    { stats with resendDisabled := stats.resendDisabled + 1 }

/-- A packet whose status reports an error. -/
def refusePacket (index : Nat) (frame : FrameInFlight) (view : GvspView) (w : StreamWorld) : StreamWorld :=
  let unavailable := view.status = Gvcp.GvcpStatus.packetUnavailable ∨
    view.status = Gvcp.GvcpStatus.packetRemovedFromMemory ∨
    view.status = Gvcp.GvcpStatus.packetAndPrevRemovedFromMemory
  let w := if unavailable then w.disableResend index frame else w
  let stats := w.runner.stats
  w.setStats { stats with errorPackets := stats.errorPackets + 1 }

/-- Counts a packet that repeats a received one. -/
def countDuplicate (w : StreamWorld) : StreamWorld :=
  let stats := w.runner.stats
  w.setStats { stats with duplicatedPackets := stats.duplicatedPackets + 1 }

/-- Counts a packet routed to a provisional frame as ignored. -/
def countAbsorbed (index : Nat) (frame : FrameInFlight) (w : StreamWorld) : StreamWorld :=
  if frame.provisional then
    (w.setFrame index { frame with absorbed := frame.absorbed + 1 }).ignore
  else
    w

/-- What follows a packet whose content was taken: an adopted restart, a look
at the holes behind it, and a look at which frames are finished. -/
def afterContent (params : StreamParams) (view : GvspView) (now index : Nat) (adopt : Bool)
    (w : StreamWorld) : Checked StreamWorld := do
  let w ← (if adopt then w.adoptRestart index else .ok w)
  let w ← w.missingPacketCheck params index view.packetId now
  let frame ← Checked.get w.runner.frames index
  w.checkFrameCompletion params now (some frame.frameId)

/-- Handles a packet for the frame in flight at `index`. -/
def processFramePacket (params : StreamParams) (view : GvspView) (now systemNow index : Nat)
    (w : StreamWorld) : Checked StreamWorld := do
  let frame ← Checked.get w.runner.frames index
  let provisional := frame.provisional
  let w := w.countAbsorbed index frame
  let frame ← Checked.get w.runner.frames index
  if view.status.isError then
    return w.refusePacket index frame view
  else if isReceived frame.slot.packets view.packetId then
    return if provisional then w else w.countDuplicate
  else
    let content ← frame.processContent params systemNow view w.runner.stats
    match content with
    | none => return if provisional then w else w.ignore
    | some (frame, stats) =>
        let (frame, stats, diverged) ← frame.settle params view stats
        ((w.setFrame index frame).setStats stats).afterContent params view now index
          (provisional && diverged)

/-- The first packet of the stream sets the receiver's position just before
its frame. -/
def noteFirstPacket (view : GvspView) (w : StreamWorld) : StreamWorld :=
  if w.runner.firstPacket then
    { w with runner := { w.runner with
        lastFrameId := (view.frameId + (2 ^ 64 - 1)) % 2 ^ 64
        firstPacket := false } }
  else
    w

def processPacket (params : StreamParams) (datagram : List UInt8) (now systemNow : Nat)
    (w : StreamWorld) : Checked StreamWorld :=
  match GvspView.parse datagram with
  | none => .ok w.ignore
  | some view => do
      let (w, found) ← (w.noteFirstPacket view).findOrCreateFrame params view now
      match found with
      | none => return w
      | some index => w.processFramePacket params view now systemNow index

/-- Closes the frames left when the worker stops. -/
def abortLoop (params : StreamParams) : Nat → StreamWorld → Checked StreamWorld
  | 0, w => .ok w
  | fuel + 1, w =>
      if w.runner.frames.isEmpty then
        .ok w
      else do
        let w ← w.closeFrame params 0 .aborted
        abortLoop params fuel w

def flushFrames (params : StreamParams) (w : StreamWorld) : Checked StreamWorld := do
  let w ← w.discardProvisional
  abortLoop params w.runner.frames.length w

end StreamWorld

/-- One datagram as the socket hands it over. -/
structure Received where
  datagram : List UInt8
  fromDevice : Bool := true
  drops : Option Nat := none
  deriving DecidableEq, Repr

/-- What drives the worker: datagrams, ticks of its loop, wakeups that only
drain its commands, acts of the other threads between its steps, and the final
flush. -/
inductive StreamInput where
  | packet (received : Received) (now systemNow : Nat) (schedule : List (List ConsumerAct))
  | tick (now : Nat) (schedule : List (List ConsumerAct))
  | commands (schedule : List (List ConsumerAct))
  | acts (acts : List ConsumerAct)
  | flush (schedule : List (List ConsumerAct))
  deriving DecidableEq, Repr

namespace StreamWorld

/-- The worker as it starts. -/
def spawn (params : StreamParams) : StreamWorld :=
  { runner := {}
    fabric := {
      pool := Fabric.newPool params.nBuffers params.payloadSize
      poolCapacity := params.nBuffers } }

/-- Drops the worker's end of every subscription. -/
def clearSubscribers (w : StreamWorld) : StreamWorld :=
  { w with
    runner := { w.runner with subscribers := [] }
    fabric := w.runner.subscribers.foldl (fun fabric id => fabric.dropSender id) w.fabric }

/-- The socket's drop counter, when it reports one. -/
def noteDrops (drops : Option Nat) (w : StreamWorld) : StreamWorld :=
  let stats := w.runner.stats
  match drops with
  | some drops => w.setStats { stats with socketDrops := drops }
  | none => w

def countPacket (datagram : List UInt8) (w : StreamWorld) : StreamWorld :=
  let stats := w.runner.stats
  w.setStats { stats with packets := stats.packets + 1, bytes := stats.bytes + datagram.length }

/-- One turn of the receive loop of `drain_socket`. -/
def drainSocket (params : StreamParams) (received : Received) (now systemNow : Nat) (w : StreamWorld) :
    Checked StreamWorld :=
  let w := w.noteDrops received.drops
  if received.fromDevice then
    (w.countPacket received.datagram).processPacket params received.datagram now systemNow
  else
    .ok w

def step (params : StreamParams) (w : StreamWorld) : StreamInput → Checked StreamWorld
  | .packet received now systemNow schedule =>
      { w with schedule := schedule }.drainSocket params received now systemNow
  | .tick now schedule => do
      let w ← { w with schedule := schedule }.checkFrameCompletion params now none
      return w.publishStats
  | .commands schedule => .ok { w with schedule := schedule }.drainCommands
  | .acts acts => .ok { w with fabric := acts.foldl Fabric.consume w.fabric }
  | .flush schedule => do
      let w ← { w with schedule := schedule }.flushFrames params
      return w.publishStats.clearSubscribers

/-- The worker driven by a list of inputs, one after the other. -/
def run (params : StreamParams) : List StreamInput → StreamWorld → Checked StreamWorld
  | [], w => .ok w
  | input :: rest, w => do
      let w ← w.step params input
      run params rest w

end StreamWorld

end Telegenic.Stream
