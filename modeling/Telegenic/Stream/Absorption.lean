import Telegenic.Stream.Contents

/-! A packet absorbed by its frame: after the content is taken the packet is
flagged, the received prefix moves on and the frame is valid again. Looking
for holes touches nothing a frame consists of. -/

set_option autoImplicit false

namespace Telegenic.Stream

open Library Proto Proto.Gvsp

/-- `later` is the same frame in the same state of reassembly; only its timing,
its resend bookkeeping and whether it counts as a replay may differ. -/
structure Untouched (frame later : FrameInFlight) : Prop where
  frameId : later.frameId = frame.frameId
  extendedIds : later.extendedIds = frame.extendedIds
  key : later.slot.key = frame.slot.key
  flags : later.slot.packets.map (·.received) = frame.slot.packets.map (·.received)
  nPackets : later.nPackets = frame.nPackets
  data : SameData frame later
  trailerSeen : later.trailerSeen = frame.trailerSeen
  lastValidPacket : later.lastValidPacket = frame.lastValidPacket
  leader : later.leader = frame.leader
  systemTimestampNs : later.systemTimestampNs = frame.systemTimestampNs
  error : later.error = frame.error
  fingerprints : later.fingerprints = frame.fingerprints
  replayOf : later.replayOf = frame.replayOf
  opening : later.opening = frame.opening
  accepted : later.accepted = frame.accepted

structure Absorbs (params : StreamParams) (view : GvspView) (frame later : FrameInFlight) : Prop where
  valid : Valid params later
  frameId : later.frameId = frame.frameId
  extendedIds : later.extendedIds = frame.extendedIds
  key : later.slot.key = frame.slot.key
  lastPacketTime : later.lastPacketTime = frame.lastPacketTime
  resendDisabled : later.resendDisabled = frame.resendDisabled
  replayOf : later.replayOf = frame.replayOf
  absorbed : later.absorbed = frame.absorbed
  opening : later.opening = frame.opening
  logged : later.accepted = if later.error = none then frame.accepted ++ [view] else frame.accepted
  clean : later.error = none → frame.error = none
  ended : later.error = none → view.contentType = .trailer → later.nPackets = view.packetId + 1
  two_le : 2 ≤ frame.nPackets → 2 ≤ later.nPackets

section Congruence

variable {params : StreamParams} {frame later last : FrameInFlight} {log : List GvspView}

theorem SameData.refl : SameData frame frame := ⟨rfl, rfl, rfl, rfl, rfl, rfl, rfl⟩

theorem SameData.trans (first : SameData frame later) (second : SameData later last) : SameData frame last :=
  ⟨second.blockSize.trans first.blockSize, second.blockKnown.trans first.blockKnown,
    second.held.trans first.held, second.heldBytes.trans first.heldBytes,
    second.receivedSize.trans first.receivedSize, second.dataEnd.trans first.dataEnd,
    second.data.trans first.data⟩

theorem Contents.congr (contents : Contents params frame log) (same : SameData frame later)
    (nPackets : later.nPackets = frame.nPackets) (trailerSeen : later.trailerSeen = frame.trailerSeen) :
    Contents params later log := by
  refine ⟨?_, ?_, ?_, ?_, ?_, ?_, ?_⟩
  · rw [nPackets]
    exact contents.fitting
  · rw [trailerSeen]
    exact contents.trailerSeen_iff
  · rw [trailerSeen, nPackets]
    exact contents.lastTrailer
  · rw [same.blockKnown]
    exact contents.blockKnown_iff
  · rw [same.heldBytes, same.held]
    exact contents.heldBytes
  · rw [same.blockKnown, same.held, same.receivedSize, same.dataEnd]
    exact contents.waiting
  · rw [same.blockKnown, same.held, nPackets, same.blockSize]
    intro known
    obtain ⟨empty, fits, holds⟩ := contents.placed known
    exact ⟨empty, fits, holds.congr same.blockSize same.receivedSize same.dataEnd same.data⟩

namespace Untouched

theorem refl : Untouched frame frame :=
  ⟨rfl, rfl, rfl, rfl, rfl, .refl, rfl, rfl, rfl, rfl, rfl, rfl, rfl, rfl, rfl⟩

theorem trans (first : Untouched frame later) (second : Untouched later last) : Untouched frame last :=
  ⟨second.frameId.trans first.frameId, second.extendedIds.trans first.extendedIds, second.key.trans first.key,
    second.flags.trans first.flags, second.nPackets.trans first.nPackets, first.data.trans second.data,
    second.trailerSeen.trans first.trailerSeen, second.lastValidPacket.trans first.lastValidPacket,
    second.leader.trans first.leader, second.systemTimestampNs.trans first.systemTimestampNs,
    second.error.trans first.error, second.fingerprints.trans first.fingerprints,
    second.replayOf.trans first.replayOf, second.opening.trans first.opening,
    second.accepted.trans first.accepted⟩

theorem bookkeeping (frame : FrameInFlight) (lastPacketTime absorbed nResendRequests : Nat)
    (resendDisabled resendRatioReached : Bool) : Untouched frame { frame with
      lastPacketTime := lastPacketTime
      absorbed := absorbed
      nResendRequests := nResendRequests
      resendDisabled := resendDisabled
      resendRatioReached := resendRatioReached } :=
  ⟨rfl, rfl, rfl, rfl, rfl, ⟨rfl, rfl, rfl, rfl, rfl, rfl, rfl⟩, rfl, rfl, rfl, rfl, rfl, rfl, rfl, rfl, rfl⟩

theorem packets_length (same : Untouched frame later) :
    later.slot.packets.length = frame.slot.packets.length := by
  simpa using congrArg List.length same.flags

theorem inBounds (same : Untouched frame later) (bounds : InBounds params frame) : InBounds params later := by
  refine ⟨?_, ?_, ?_, ?_, ?_, ?_, ?_, ?_, ?_⟩
  · rw [same.packets_length, same.nPackets]
    exact bounds.packets_length
  · rw [same.nPackets]
    exact bounds.nPackets_pos
  · rw [same.nPackets]
    exact bounds.nPackets_le
  · rw [same.lastValidPacket]
    exact bounds.prefixEnd.congr same.flags
  · rw [same.data.blockSize]
    exact bounds.blockSize_pos
  · rw [same.data.held]
    exact bounds.held_le
  · rw [same.data.receivedSize, same.data.dataEnd]
    exact bounds.receivedSize_le
  · rw [same.data.dataEnd]
    exact bounds.dataEnd_le
  · rw [same.data.data]
    exact bounds.data_length

theorem valid (same : Untouched frame later) (valid : Valid params frame) : Valid params later := by
  refine ⟨same.inBounds valid.inBounds, by rw [same.error]; exact valid.verdict, ?_, ?_⟩
  · rw [same.error, same.accepted]
    intro clean
    exact (valid.contents clean).congr same.data same.nPackets same.trailerSeen
  · rw [same.error, same.accepted]
    intro clean
    refine ⟨(valid.flagged clean).distinct, ?_⟩
    rw [isReceived_congr same.flags]
    exact (valid.flagged clean).received_iff

end Untouched

theorem Valid.withReplayOf (valid : Valid params frame) (replayOf : Option Fingerprints) :
    Valid params { frame with replayOf := replayOf } := by
  have bounds := valid.inBounds
  refine ⟨⟨bounds.packets_length, bounds.nPackets_pos, bounds.nPackets_le, bounds.prefixEnd,
    bounds.blockSize_pos, bounds.held_le, bounds.receivedSize_le, bounds.dataEnd_le, bounds.data_length⟩,
    valid.verdict, fun clean => ?_, valid.flagged⟩
  exact (valid.contents clean).congr ⟨rfl, rfl, rfl, rfl, rfl, rfl, rfl⟩ rfl rfl

end Congruence

section Settling

variable {params : StreamParams} {frame content : FrameInFlight} {view : GvspView}

theorem markReceived_eq (frame : FrameInFlight) (sized : frame.slot.packets.length = frame.nPackets)
    (packetId : Nat) (stats : StreamStats) :
    ∃ packets resent, frame.markReceived packetId stats =
        .ok (frame.withPackets packets, { stats with resentPackets := resent }) ∧
      packets.length = frame.slot.packets.length ∧
      ∀ position, isReceived packets position =
        ((decide (position = packetId) && decide (packetId < frame.nPackets)) ||
          isReceived frame.slot.packets position) := by
  unfold FrameInFlight.markReceived
  by_cases inside : packetId < frame.nPackets
  · have inPackets : packetId < frame.slot.packets.length := by omega
    rw [if_pos inside, Checked.get_lt inPackets, Checked.ok_bind]
    refine ⟨frame.slot.packets.set packetId { frame.slot.packets[packetId] with received := true },
      if (frame.slot.packets[packetId]).resendRequested then stats.resentPackets + 1
      else stats.resentPackets, ?_, List.length_set, ?_⟩
    · split <;> rfl
    · intro position
      rw [isReceived_set inPackets]
      by_cases same : position = packetId
      · simp [same, inside]
      · simp [same]
  · rw [if_neg inside]
    exact ⟨frame.slot.packets, stats.resentPackets, rfl, rfl, fun position => by simp [inside]⟩

theorem advance_eq (frame : FrameInFlight) (sized : frame.slot.packets.length = frame.nPackets)
    (lower : -1 ≤ frame.lastValidPacket) (upper : frame.lastValidPacket < frame.slot.packets.length)
    (received : ∀ position : Nat, (position : Int) ≤ frame.lastValidPacket →
      isReceived frame.slot.packets position = true) :
    ∃ last, frame.advance = .ok { frame with lastValidPacket := last } ∧ PrefixEnd frame.slot.packets last := by
  obtain ⟨hole, result, above, below, filled, ends⟩ :=
    FrameInFlight.firstHole_spec sized (frame.nPackets - (frame.lastValidPacket + 1).toNat)
      (frame.lastValidPacket + 1).toNat (by omega) (by omega)
  refine ⟨(hole : Int) - 1, ?_, ⟨by omega, by omega, ?_, ?_⟩⟩
  · rw [FrameInFlight.advance]
    simp only [result, Checked.ok_bind, Checked.pure_eq]
  · intro position upTo
    by_cases old : (position : Int) ≤ frame.lastValidPacket
    · exact received position old
    · exact filled position (by omega) (by omega)
  · rw [show ((hole : Int) - 1 + 1).toNat = hole by omega]
    exact ends

theorem settle_absorbs (valid : Valid params frame)
    (fresh : isReceived frame.slot.packets view.packetId = false) (takes : Takes params view frame content)
    (stats : StreamStats) :
    ∃ later resent diverged, content.settle params view stats =
        .ok (later, { stats with resentPackets := resent }, diverged) ∧
      Absorbs params view frame later ∧ later.error = content.error ∧ later.nPackets = content.nPackets ∧
      SameData content later ∧
      (later.fingerprints, diverged) = frame.fingerprints.record params view frame.replayOf := by
  have bounds := takes.inBounds
  have same := takes.same
  obtain ⟨packets, resent, marked, packets_length, flags⟩ :=
    markReceived_eq (content.logAccepted view) bounds.packets_length view.packetId stats
  have flags_eq : ∀ position, isReceived packets position =
      ((decide (position = view.packetId) && decide (view.packetId < content.nPackets)) ||
        isReceived content.slot.packets position) := flags
  obtain ⟨last, advanced, ends⟩ :=
    advance_eq ((content.logAccepted view).withPackets packets) (packets_length.trans bounds.packets_length)
      bounds.prefixEnd.lower (by
        rw [show ((content.logAccepted view).withPackets packets).slot.packets.length = _ from packets_length]
        exact bounds.prefixEnd.upper)
      (fun position upTo => (flags_eq position).trans (by
        rw [bounds.prefixEnd.received position upTo, Bool.or_true]))
  let settled : FrameInFlight := { (content.logAccepted view).withPackets packets with
    lastValidPacket := last
    fingerprints := (content.fingerprints.record params view content.replayOf).1 }
  refine ⟨settled, resent, (content.fingerprints.record params view content.replayOf).2, ?_, ?_, rfl,
    rfl, ⟨rfl, rfl, rfl, rfl, rfl, rfl, rfl⟩, ?_⟩
  · rw [FrameInFlight.settle, marked, Checked.ok_bind]
    simp only
    rw [advanced, Checked.ok_bind]
    rfl
  · have sameData : SameData content settled := ⟨rfl, rfl, rfl, rfl, rfl, rfl, rfl⟩
    have logged : settled.accepted = if content.error = none then content.accepted ++ [view] else content.accepted :=
      rfl
    rw [same.accepted] at logged
    refine ⟨⟨⟨packets_length.trans bounds.packets_length, bounds.nPackets_pos, bounds.nPackets_le, ends,
        bounds.blockSize_pos, bounds.held_le, bounds.receivedSize_le, bounds.dataEnd_le, bounds.data_length⟩,
        same.error.verdict valid.verdict, ?_, ?_⟩, same.frameId, same.extendedIds, same.key, same.lastPacketTime,
      same.resendDisabled, same.replayOf, same.absorbed, same.opening, logged, takes.clean, takes.ended, takes.two_le⟩
    · intro clean
      rw [logged, if_pos (show content.error = none from clean)]
      exact (takes.contents clean).congr sameData rfl rfl
    · intro clean
      have flagged := valid.flagged (takes.clean clean)
      rw [logged, if_pos (show content.error = none from clean)]
      refine ⟨?_, ?_⟩
      · rw [List.map_append, List.nodup_append]
        refine ⟨flagged.distinct, by simp, ?_⟩
        intro id present other isNew equal
        simp only [List.map_cons, List.map_nil, List.mem_singleton] at isNew
        rw [equal, isNew, ← flagged.received_iff, fresh] at present
        cases present
      · intro position
        change isReceived packets position = true ↔ _
        rw [flags_eq, takes.flags clean, List.map_append, List.mem_append, ← flagged.received_iff]
        simp [takes.inFrame clean, or_comm]
  · rw [← same.fingerprints, ← same.replayOf]

end Settling

theorem Untouched.withPackets {frame : FrameInFlight} {packets : List PacketState}
    (same : packets.map (·.received) = frame.slot.packets.map (·.received)) :
    Untouched frame (frame.withPackets packets) :=
  ⟨rfl, rfl, rfl, same, rfl, ⟨rfl, rfl, rfl, rfl, rfl, rfl, rfl⟩, rfl, rfl, rfl, rfl, rfl, rfl, rfl, rfl, rfl⟩

structure Scanned (frame later : FrameInFlight) : Prop extends Untouched frame later where
  lastPacketTime : later.lastPacketTime = frame.lastPacketTime
  absorbed : later.absorbed = frame.absorbed

theorem Scanned.refl {frame : FrameInFlight} : Scanned frame frame := ⟨.refl, rfl, rfl⟩

end Telegenic.Stream
