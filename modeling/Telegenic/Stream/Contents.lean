import Telegenic.Stream.Placement

/-! What a frame in flight consists of. Its bookkeeping stays within bounds
whatever packets arrive, and as long as no violation was recorded the frame is
exactly the packets it accepted: their ids are the received flags, and their
payload is held or placed. -/

set_option autoImplicit false

namespace Telegenic.Stream

open Library Proto Proto.Gvsp

def heldSize (held : List (Nat × List UInt8)) : Nat :=
  (held.map fun payload => payload.2.length).sum

@[simp] theorem heldSize_snoc {held : List (Nat × List UInt8)} {payload : Nat × List UInt8} :
    heldSize (held ++ [payload]) = heldSize held + payload.2.length := by
  simp [heldSize]

structure InBounds (params : StreamParams) (frame : FrameInFlight) : Prop where
  packets_length : frame.slot.packets.length = frame.nPackets
  nPackets_pos : 1 ≤ frame.nPackets
  nPackets_le : frame.nPackets ≤ packetLimit params
  prefixEnd : PrefixEnd frame.slot.packets frame.lastValidPacket
  blockSize_pos : 1 ≤ frame.blockSize
  held_le : heldSize frame.held ≤ params.payloadSize + maximumPacketSize
  receivedSize_le : frame.receivedSize ≤ frame.dataEnd
  dataEnd_le : frame.dataEnd ≤ params.payloadSize
  data_length : frame.slot.data.length = params.payloadSize

def payloads (log : List GvspView) : List (Nat × List UInt8) :=
  (log.filter (·.contentType == .payload)).map fun view => (view.packetId, view.data)

/-- The place a packet of each kind has in a frame of `nPackets`: the leader
first, the trailer after every payload packet. -/
def FitsFrame (nPackets : Nat) (view : GvspView) : Prop :=
  match view.contentType with
  | .leader => view.packetId = 0
  | .payload => 1 ≤ view.packetId ∧ view.packetId + 2 ≤ nPackets
  | .trailer => 1 ≤ view.packetId ∧ view.packetId + 1 ≤ nPackets
  | _ => False

structure Contents (params : StreamParams) (frame : FrameInFlight) (log : List GvspView) : Prop where
  fitting : ∀ view ∈ log, FitsFrame frame.nPackets view
  trailerSeen_iff : frame.trailerSeen = true ↔ ∃ view ∈ log, view.contentType = .trailer
  lastTrailer : frame.trailerSeen = true →
    ∃ view ∈ log, view.contentType = .trailer ∧ view.packetId + 1 = frame.nPackets
  blockKnown_iff : frame.blockKnown = true ↔ 1 ∈ (payloads log).map Prod.fst
  heldBytes : frame.heldBytes = heldSize frame.held
  waiting : frame.blockKnown = false →
    frame.held = payloads log ∧ frame.receivedSize = 0 ∧ frame.dataEnd = 0
  placed : frame.blockKnown = true → frame.held = [] ∧
    frame.nPackets ≤ fittingPackets params.payloadSize frame.blockSize ∧
    Placed params.payloadSize frame (payloads log)

structure Flagged (packets : List PacketState) (log : List GvspView) : Prop where
  distinct : (log.map (·.packetId)).Nodup
  received_iff : ∀ position, isReceived packets position = true ↔ position ∈ log.map (·.packetId)

structure Valid (params : StreamParams) (frame : FrameInFlight) : Prop where
  inBounds : InBounds params frame
  verdict : frame.error ≠ some .complete
  contents : frame.error = none → Contents params frame frame.accepted
  flagged : frame.error = none → Flagged frame.slot.packets frame.accepted

structure SameFrame (frame later : FrameInFlight) : Prop where
  frameId : later.frameId = frame.frameId
  extendedIds : later.extendedIds = frame.extendedIds
  key : later.slot.key = frame.slot.key
  lastPacketTime : later.lastPacketTime = frame.lastPacketTime
  resendDisabled : later.resendDisabled = frame.resendDisabled
  resendRatioReached : later.resendRatioReached = frame.resendRatioReached
  nResendRequests : later.nResendRequests = frame.nResendRequests
  fingerprints : later.fingerprints = frame.fingerprints
  replayOf : later.replayOf = frame.replayOf
  absorbed : later.absorbed = frame.absorbed
  opening : later.opening = frame.opening
  accepted : later.accepted = frame.accepted
  error : FrameInFlight.SameError frame later

structure SameData (frame later : FrameInFlight) : Prop where
  blockSize : later.blockSize = frame.blockSize
  blockKnown : later.blockKnown = frame.blockKnown
  held : later.held = frame.held
  heldBytes : later.heldBytes = frame.heldBytes
  receivedSize : later.receivedSize = frame.receivedSize
  dataEnd : later.dataEnd = frame.dataEnd
  data : later.slot.data = frame.slot.data

structure Takes (params : StreamParams) (view : GvspView) (frame later : FrameInFlight) : Prop where
  inBounds : InBounds params later
  same : SameFrame frame later
  clean : later.error = none → frame.error = none
  contents : later.error = none → Contents params later (frame.accepted ++ [view])
  flags : later.error = none →
    ∀ position, isReceived later.slot.packets position = isReceived frame.slot.packets position
  inFrame : later.error = none → view.packetId < later.nPackets
  ended : later.error = none → view.contentType = .trailer → later.nPackets = view.packetId + 1
  two_le : 2 ≤ frame.nPackets → 2 ≤ later.nPackets

theorem payloads_snoc_payload {log : List GvspView} {view : GvspView} (kind : view.contentType = .payload) :
    payloads (log ++ [view]) = payloads log ++ [(view.packetId, view.data)] := by
  simp [payloads, List.filter_append, kind]

theorem payloads_snoc_other {log : List GvspView} {view : GvspView} (kind : view.contentType ≠ .payload) :
    payloads (log ++ [view]) = payloads log := by
  simp [payloads, List.filter_append, kind]

theorem trailers_snoc_other {log : List GvspView} {view : GvspView} (kind : view.contentType ≠ .trailer) :
    (∃ other ∈ log ++ [view], other.contentType = .trailer) ↔ ∃ other ∈ log, other.contentType = .trailer := by
  simp [kind]

theorem mem_payloads {log : List GvspView} {payload : Nat × List UInt8} : payload ∈ payloads log ↔
    ∃ view ∈ log, view.contentType = .payload ∧ payload = (view.packetId, view.data) := by
  simp only [payloads, List.mem_map, List.mem_filter, beq_iff_eq, and_assoc]
  exact exists_congr fun view => and_congr_right fun _ => and_congr_right fun _ => eq_comm

theorem payloads_ids_nodup {log : List GvspView} (distinct : (log.map (·.packetId)).Nodup) :
    ((payloads log).map Prod.fst).Nodup := by
  have ids : (payloads log).map Prod.fst = (log.filter (·.contentType == .payload)).map (·.packetId) := by
    simp [payloads, Function.comp_def]
  rw [ids]
  exact distinct.sublist (List.filter_sublist.map _)

theorem FitsFrame.mono {n m : Nat} {view : GvspView} (fits : FitsFrame n view) (grows : n ≤ m) :
    FitsFrame m view := by
  unfold FitsFrame at fits ⊢
  cases kind : view.contentType <;> simp only [kind] at fits ⊢ <;> omega

theorem FitsFrame.before {n last : Nat} {view : GvspView} (fits : FitsFrame n view)
    (before : view.packetId < last) : FitsFrame (last + 1) view := by
  unfold FitsFrame at fits ⊢
  cases kind : view.contentType <;> simp only [kind] at fits ⊢ <;> omega

theorem FitsFrame.packetId_lt {n : Nat} {view : GvspView} (fits : FitsFrame n view) (positive : 1 ≤ n) :
    view.packetId < n := by
  unfold FitsFrame at fits
  cases kind : view.contentType <;> simp only [kind] at fits <;> omega

section Bounds

variable {params : StreamParams} {frame : FrameInFlight}

theorem two_le_packetLimit : 2 ≤ packetLimit params := by
  simp only [packetLimit, maxFramePackets]
  omega

theorem fittingPackets_le {blockSize : Nat} (positive : 1 ≤ blockSize) :
    min (fittingPackets params.payloadSize blockSize) maxFramePackets ≤ packetLimit params := by
  have blocks : (params.payloadSize + blockSize - 1) / blockSize ≤ params.payloadSize := by
    have scaled : params.payloadSize ≤ blockSize * params.payloadSize := Nat.le_mul_of_pos_left _ positive
    rw [Nat.div_le_iff_le_mul_add_pred (by omega)]
    omega
  simp only [fittingPackets, packetLimit]
  omega

theorem InBounds.reject (bounds : InBounds params frame) : InBounds params frame.reject :=
  ⟨bounds.packets_length, bounds.nPackets_pos, bounds.nPackets_le, bounds.prefixEnd, bounds.blockSize_pos,
    bounds.held_le, bounds.receivedSize_le, bounds.dataEnd_le, bounds.data_length⟩

theorem InBounds.setNPackets {n : Nat} (bounds : InBounds params frame) (positive : 1 ≤ n)
    (limited : n ≤ packetLimit params) : InBounds params (frame.setNPackets n) :=
  ⟨resizePackets_length, positive, limited, bounds.prefixEnd.resize, bounds.blockSize_pos,
    bounds.held_le, bounds.receivedSize_le, bounds.dataEnd_le, bounds.data_length⟩

theorem InBounds.dataChanged {later : FrameInFlight} {placed : List (Nat × List UInt8)}
    (bounds : InBounds params frame) (changed : FrameInFlight.DataChanged frame later)
    (holds : Placed params.payloadSize later placed) : InBounds params later := by
  obtain ⟨equation, length_eq, _⟩ := changed
  refine ⟨?_, ?_, ?_, ?_, ?_, ?_, holds.receivedSize_le, holds.dataEnd_le, length_eq.trans bounds.data_length⟩
  · rw [equation]
    exact bounds.packets_length
  · rw [equation]
    exact bounds.nPackets_pos
  · rw [equation]
    exact bounds.nPackets_le
  · rw [equation]
    exact bounds.prefixEnd
  · rw [equation]
    exact bounds.blockSize_pos
  · rw [equation]
    exact bounds.held_le

theorem SameFrame.refl : SameFrame frame frame :=
  ⟨rfl, rfl, rfl, rfl, rfl, rfl, rfl, rfl, rfl, rfl, rfl, rfl, .inl rfl⟩

theorem SameFrame.reject : SameFrame frame frame.reject :=
  ⟨rfl, rfl, rfl, rfl, rfl, rfl, rfl, rfl, rfl, rfl, rfl, rfl, .inr rfl⟩

theorem Takes.rejected {view : GvspView} {later : FrameInFlight} (bounds : InBounds params later)
    (same : SameFrame frame later) (failed : later.error ≠ none)
    (two_le : 2 ≤ frame.nPackets → 2 ≤ later.nPackets) : Takes params view frame later :=
  ⟨bounds, same, fun clean => absurd clean failed, fun clean => absurd clean failed,
    fun clean => absurd clean failed, fun clean => absurd clean failed, fun clean => absurd clean failed, two_le⟩

end Bounds

section Content

variable {params : StreamParams} {frame : FrameInFlight} {view : GvspView}

theorem Valid.packetId_lt (valid : Valid params frame) (clean : frame.error = none) {bound : Nat}
    (unreceived : ∀ position, bound ≤ position → isReceived frame.slot.packets position = false)
    {taken : GvspView} (present : taken ∈ frame.accepted) : taken.packetId < bound := by
  by_contra beyond
  have flag := ((valid.flagged clean).received_iff taken.packetId).mpr (List.mem_map_of_mem present)
  rw [unreceived taken.packetId (by omega)] at flag
  cases flag

theorem processLeader_takes (valid : Valid params frame) (kind : view.contentType = .leader)
    (systemNow : Nat) : Takes params view frame (frame.processLeader view systemNow) := by
  unfold FrameInFlight.processLeader
  by_cases failed : frame.error.isSome = true
  · rw [if_pos failed]
    exact .rejected valid.inBounds .refl (Option.isSome_iff_ne_none.mp failed) id
  rw [if_neg failed]
  by_cases misnumbered : view.packetId ≠ 0
  · rw [if_pos misnumbered]
    exact .rejected valid.inBounds.reject .reject (by simp [FrameInFlight.reject]) id
  rw [if_neg misnumbered]
  have bounds := valid.inBounds
  have first : view.packetId = 0 := not_not.mp misnumbered
  refine ⟨⟨bounds.packets_length, bounds.nPackets_pos, bounds.nPackets_le, bounds.prefixEnd,
      bounds.blockSize_pos, bounds.held_le, bounds.receivedSize_le, bounds.dataEnd_le, bounds.data_length⟩,
    ⟨rfl, rfl, rfl, rfl, rfl, rfl, rfl, rfl, rfl, rfl, rfl, rfl, .inl rfl⟩, id, ?_, fun _ _ => rfl, ?_,
    fun _ isTrailer => by simp [kind] at isTrailer, id⟩
  · intro clean
    have contents := valid.contents clean
    have samePayloads : payloads (frame.accepted ++ [view]) = payloads frame.accepted :=
      payloads_snoc_other (by simp [kind])
    refine ⟨?_, ?_, ?_, ?_, contents.heldBytes, ?_, ?_⟩
    · intro other present
      rcases List.mem_append.mp present with old | new
      · exact contents.fitting other old
      · rw [List.mem_singleton.mp new, FitsFrame, kind]
        exact first
    · exact contents.trailerSeen_iff.trans (trailers_snoc_other (by simp [kind])).symm
    · intro seen
      obtain ⟨trailer, present, facts⟩ := contents.lastTrailer seen
      exact ⟨trailer, List.mem_append_left _ present, facts⟩
    · rw [samePayloads]
      exact contents.blockKnown_iff
    · rw [samePayloads]
      exact contents.waiting
    · rw [samePayloads]
      intro known
      obtain ⟨empty, fits, holds⟩ := contents.placed known
      exact ⟨empty, fits, holds.congr rfl rfl rfl rfl⟩
  · intro _
    have positive := bounds.nPackets_pos
    simp only [first]
    omega

def trailerLimit (params : StreamParams) (frame : FrameInFlight) : Nat :=
  if frame.blockKnown then
    min (fittingPackets params.payloadSize frame.blockSize) maxFramePackets
  else
    packetLimit params

theorem trailerBound_eq (positive : 1 ≤ frame.blockSize) :
    frame.trailerBound params = .ok (trailerLimit params frame) := by
  unfold FrameInFlight.trailerBound trailerLimit
  by_cases known : frame.blockKnown = true
  · rw [if_pos known, if_pos known, Checked.divCeil_ok positive]
    rfl
  · rw [if_neg known, if_neg known]

theorem trailerLimit_le (bounds : InBounds params frame) : trailerLimit params frame ≤ packetLimit params := by
  unfold trailerLimit
  split
  · exact fittingPackets_le bounds.blockSize_pos
  · exact le_rfl

/-- A trailer that leaves the buffer, or lies at or before a packet already
received, is a violation; any other resizes the frame. -/
def FrameInFlight.trailerRejected (params : StreamParams) (view : GvspView) (frame : FrameInFlight) : Prop :=
  view.packetId < 1 ∨ trailerLimit params frame ≤ view.packetId ∨
    (frame.slot.packets.drop view.packetId).any (·.received) = true

instance : Decidable (frame.trailerRejected params view) :=
  inferInstanceAs (Decidable (_ ∨ _))

theorem processTrailer_eq (positive : 1 ≤ frame.blockSize) (clean : frame.error = none) :
    frame.processTrailer params view = .ok (
      if frame.trailerRejected params view then
        { frame with trailerSeen := true }.reject
      else if frame.nPackets ≠ view.packetId + 1 then
        { frame with trailerSeen := true }.setNPackets (view.packetId + 1)
      else
        { frame with trailerSeen := true }) := by
  have notFailed : ¬ frame.error.isSome = true := by simp [clean]
  have bound : { frame with trailerSeen := true }.trailerBound params = .ok (trailerLimit params frame) :=
    trailerBound_eq positive
  rw [FrameInFlight.processTrailer, if_neg notFailed, bound, Checked.ok_bind]
  by_cases rejected : frame.trailerRejected params view
  · rw [if_pos rejected]
    exact if_pos rejected
  · rw [if_neg rejected]
    refine (if_neg rejected).trans ?_
    split <;> rfl

theorem unreceived_of_not_any {packets : List PacketState} {bound : Nat}
    (none_after : ¬ (packets.drop bound).any (·.received) = true) {position : Nat} (after : bound ≤ position) :
    isReceived packets position = false := by
  by_contra received
  have flag : isReceived packets position = true := by simpa using received
  rw [isReceived, Option.any_eq_true] at flag
  obtain ⟨packet, found, isSet⟩ := flag
  apply none_after
  rw [List.any_eq_true]
  refine ⟨packet, ?_, isSet⟩
  refine List.mem_of_getElem? (i := position - bound) ?_
  rw [List.getElem?_drop, Nat.add_sub_of_le after, found]

theorem Contents.trailer (valid : Valid params frame) (clean : frame.error = none)
    (kind : view.contentType = .trailer) (taken : ¬ frame.trailerRejected params view)
    {later : FrameInFlight} (resized : later.nPackets = view.packetId + 1)
    (trailerSeen : later.trailerSeen = true) (same : SameData frame later) :
    Contents params later (frame.accepted ++ [view]) := by
  have contents := valid.contents clean
  rw [FrameInFlight.trailerRejected, not_or, not_or] at taken
  obtain ⟨positive, bounded, uncontradicted⟩ := taken
  have samePayloads : payloads (frame.accepted ++ [view]) = payloads frame.accepted :=
    payloads_snoc_other (by simp [kind])
  refine ⟨?_, ?_, ?_, ?_, ?_, ?_, ?_⟩
  · intro other present
    rw [resized]
    rcases List.mem_append.mp present with old | new
    · have before : other.packetId < view.packetId :=
        valid.packetId_lt clean (fun _ after => unreceived_of_not_any uncontradicted after) old
      exact (contents.fitting other old).before before
    · rw [List.mem_singleton.mp new, FitsFrame, kind]
      simp only
      omega
  · simp only [trailerSeen, true_iff]
    exact ⟨view, by simp, kind⟩
  · exact fun _ => ⟨view, by simp, kind, resized.symm⟩
  · rw [same.blockKnown, samePayloads]
    exact contents.blockKnown_iff
  · rw [same.heldBytes, same.held]
    exact contents.heldBytes
  · rw [same.blockKnown, same.held, same.receivedSize, same.dataEnd, samePayloads]
    exact contents.waiting
  · rw [same.blockKnown, same.held, samePayloads, resized, same.blockSize]
    intro known
    obtain ⟨empty, _, holds⟩ := contents.placed known
    rw [trailerLimit, if_pos known] at bounded
    exact ⟨empty, by omega, holds.congr same.blockSize same.receivedSize same.dataEnd same.data⟩

theorem processTrailer_takes (valid : Valid params frame) (kind : view.contentType = .trailer) :
    ∃ later, frame.processTrailer params view = .ok later ∧ Takes params view frame later := by
  have bounds := valid.inBounds
  have seen_bounds : InBounds params { frame with trailerSeen := true } :=
    ⟨bounds.packets_length, bounds.nPackets_pos, bounds.nPackets_le, bounds.prefixEnd, bounds.blockSize_pos,
      bounds.held_le, bounds.receivedSize_le, bounds.dataEnd_le, bounds.data_length⟩
  by_cases failed : frame.error.isSome = true
  · refine ⟨{ frame with trailerSeen := true }, ?_, .rejected seen_bounds
      ⟨rfl, rfl, rfl, rfl, rfl, rfl, rfl, rfl, rfl, rfl, rfl, rfl, .inl rfl⟩ (Option.isSome_iff_ne_none.mp failed) id⟩
    rw [FrameInFlight.processTrailer]
    exact if_pos failed
  have clean : frame.error = none := by simpa using failed
  refine ⟨_, processTrailer_eq bounds.blockSize_pos clean, ?_⟩
  by_cases rejected : frame.trailerRejected params view
  · rw [if_pos rejected]
    exact .rejected seen_bounds.reject ⟨rfl, rfl, rfl, rfl, rfl, rfl, rfl, rfl, rfl, rfl, rfl, rfl, .inr rfl⟩
      (by simp [FrameInFlight.reject]) id
  rw [if_neg rejected]
  have taken := rejected
  rw [FrameInFlight.trailerRejected, not_or, not_or] at taken
  obtain ⟨positive, bounded, uncontradicted⟩ := taken
  have limited := trailerLimit_le bounds
  by_cases resized : frame.nPackets ≠ view.packetId + 1
  · rw [if_pos resized]
    refine ⟨seen_bounds.setNPackets (by omega) (by omega),
      ⟨rfl, rfl, rfl, rfl, rfl, rfl, rfl, rfl, rfl, rfl, rfl, rfl, .inl rfl⟩, fun _ => clean,
      fun _ => .trailer valid clean kind rejected rfl rfl ⟨rfl, rfl, rfl, rfl, rfl, rfl, rfl⟩, ?_, fun _ => Nat.lt_succ_self _,
      fun _ _ => rfl, fun _ => Nat.succ_le_succ (by omega)⟩
    intro _ position
    -- Nothing received lies at or after the trailer, so the cut loses no flag.
    refine isReceived_resize.trans ?_
    by_cases inside : position < view.packetId + 1
    · simp [inside]
    · rw [unreceived_of_not_any uncontradicted (by omega), Bool.and_false]
  · rw [if_neg resized]
    have unchanged : frame.nPackets = view.packetId + 1 := not_not.mp resized
    exact ⟨seen_bounds, ⟨rfl, rfl, rfl, rfl, rfl, rfl, rfl, rfl, rfl, rfl, rfl, rfl, .inl rfl⟩, fun _ => clean,
      fun _ => .trailer valid clean kind rejected unchanged rfl ⟨rfl, rfl, rfl, rfl, rfl, rfl, rfl⟩, fun _ _ => rfl,
      fun _ => by simp only [unchanged]; omega, fun _ _ => unchanged, id⟩

def payloadLimit (params : StreamParams) (frame : FrameInFlight) : Nat :=
  if frame.blockKnown ∨ frame.trailerSeen then frame.nPackets - 2 else packetLimit params - 2

theorem lastPayload_eq : frame.lastPayload params = .ok (payloadLimit params frame) := by
  unfold FrameInFlight.lastPayload payloadLimit
  split
  · rfl
  · exact Checked.sub_ok two_le_packetLimit

def FrameInFlight.withBlockSize (params : StreamParams) (view : GvspView) (frame : FrameInFlight) :
    FrameInFlight :=
  let known := frame.learnBlockSize view
  let fits := fittingPackets params.payloadSize known.blockSize
  if frame.trailerSeen = false then
    known.setNPackets (min fits maxFramePackets)
  else if fits < frame.nPackets then
    known.reject
  else
    known

theorem learnBlockSize_pos (positive : 1 ≤ frame.blockSize) : 1 ≤ (frame.learnBlockSize view).blockSize := by
  unfold FrameInFlight.learnBlockSize
  by_cases empty : view.data.isEmpty = true
  · simpa [empty] using positive
  · rw [List.isEmpty_iff] at empty
    have nonempty := List.length_pos_iff.mpr empty
    simp only [List.isEmpty_iff, empty, if_false]
    omega

theorem fixBlockSize_eq (positive : 1 ≤ frame.blockSize) :
    frame.fixBlockSize params view = .ok (frame.withBlockSize params view) := by
  have seen_eq : (frame.learnBlockSize view).trailerSeen = frame.trailerSeen := rfl
  have nPackets_eq : (frame.learnBlockSize view).nPackets = frame.nPackets := rfl
  simp only [FrameInFlight.fixBlockSize, FrameInFlight.withBlockSize, fittingPackets, Checked.pure_eq,
    Checked.divCeil_ok (learnBlockSize_pos positive), Checked.ok_bind, seen_eq, nPackets_eq]
  cases frame.trailerSeen
  · rfl
  · exact (apply_ite Except.ok _ _ _).symm

theorem growTo_nPackets {n : Nat} : (frame.growTo n).nPackets = max frame.nPackets n := by
  unfold FrameInFlight.growTo
  split
  · exact (max_eq_right (Nat.le_of_lt (by assumption))).symm
  · exact (max_eq_left (by omega)).symm

theorem growTo_isReceived {n : Nat} (sized : frame.slot.packets.length = frame.nPackets) (position : Nat) :
    isReceived (frame.growTo n).slot.packets position = isReceived frame.slot.packets position := by
  unfold FrameInFlight.growTo
  split
  · refine isReceived_resize.trans ?_
    by_cases inside : position < n
    · simp [inside]
    · rw [isReceived_of_length_le (by omega), Bool.and_false]
  · rfl

theorem growTo_inBounds {n : Nat} (bounds : InBounds params frame) (limited : n ≤ packetLimit params) :
    InBounds params (frame.growTo n) := by
  unfold FrameInFlight.growTo
  split
  · exact bounds.setNPackets (by omega) limited
  · exact bounds

theorem growTo_sameFrame {n : Nat} : SameFrame frame (frame.growTo n) := by
  unfold FrameInFlight.growTo
  split
  · exact ⟨rfl, rfl, rfl, rfl, rfl, rfl, rfl, rfl, rfl, rfl, rfl, rfl, .inl rfl⟩
  · exact .refl

theorem growTo_sameData {n : Nat} : SameData frame (frame.growTo n) := by
  unfold FrameInFlight.growTo
  split <;> exact ⟨rfl, rfl, rfl, rfl, rfl, rfl, rfl⟩

@[simp] theorem growTo_trailerSeen {n : Nat} : (frame.growTo n).trailerSeen = frame.trailerSeen := by
  unfold FrameInFlight.growTo
  split <;> rfl

@[simp] theorem growTo_error {n : Nat} : (frame.growTo n).error = frame.error := by
  unfold FrameInFlight.growTo
  split <;> rfl

theorem hold_takes (valid : Valid params frame) (clean : frame.error = none)
    (unknown : frame.blockKnown = false) (kind : view.contentType = .payload)
    (positive : 1 ≤ view.packetId) (inRange : view.packetId ≤ payloadLimit params frame)
    (other : view.packetId ≠ 1) (stats : StreamStats) :
    ∃ later mismatches, frame.hold view.packetId view.data stats =
        (later, { stats with sizeMismatchErrors := mismatches }) ∧ Takes params view frame later := by
  have bounds := valid.inBounds
  have contents := valid.contents clean
  have counted_bounds : InBounds params (frame.countHeld view.data) :=
    ⟨bounds.packets_length, bounds.nPackets_pos, bounds.nPackets_le, bounds.prefixEnd, bounds.blockSize_pos,
      bounds.held_le, bounds.receivedSize_le, bounds.dataEnd_le, bounds.data_length⟩
  unfold FrameInFlight.hold
  by_cases overflow : frame.slot.data.length + maximumPacketSize < frame.heldBytes + view.data.length
  · exact ⟨_, stats.sizeMismatchErrors + 1, if_pos overflow, .rejected counted_bounds.reject
      ⟨rfl, rfl, rfl, rfl, rfl, rfl, rfl, rfl, rfl, rfl, rfl, rfl, .inr rfl⟩ (by simp [FrameInFlight.reject]) id⟩
  refine ⟨_, stats.sizeMismatchErrors, if_neg overflow, ?_⟩
  have limit : 2 ≤ packetLimit params := two_le_packetLimit
  have nPackets_le := bounds.nPackets_le
  have limited : view.packetId + 2 ≤ packetLimit params := by
    unfold payloadLimit at inRange
    split at inRange <;> omega
  have grown : InBounds params ((frame.countHeld view.data).growTo (view.packetId + 2)) := growTo_inBounds counted_bounds limited
  have same : SameFrame (frame.countHeld view.data) ((frame.countHeld view.data).growTo (view.packetId + 2)) := growTo_sameFrame
  have sameData : SameData (frame.countHeld view.data) ((frame.countHeld view.data).growTo (view.packetId + 2)) := growTo_sameData
  have grown_n : ((frame.countHeld view.data).growTo (view.packetId + 2)).nPackets = max frame.nPackets (view.packetId + 2) :=
    growTo_nPackets
  have held : ((frame.countHeld view.data).growTo (view.packetId + 2)).held = frame.held := sameData.held
  have fits : heldSize (frame.held ++ [(view.packetId, view.data)]) ≤ params.payloadSize + maximumPacketSize := by
    rw [heldSize_snoc, ← contents.heldBytes, ← bounds.data_length]
    exact Nat.le_of_not_lt overflow
  refine ⟨⟨grown.packets_length, grown.nPackets_pos, grown.nPackets_le, grown.prefixEnd, grown.blockSize_pos,
      by simp only [held]; exact fits, grown.receivedSize_le, grown.dataEnd_le, grown.data_length⟩,
    ⟨same.frameId, same.extendedIds, same.key, same.lastPacketTime, same.resendDisabled, same.resendRatioReached,
      same.nResendRequests, same.fingerprints, same.replayOf, same.absorbed, same.opening, same.accepted,
      same.error⟩,
    fun _ => clean, fun _ => ?_, fun _ => growTo_isReceived bounds.packets_length, fun _ => by
      simp only [grown_n]
      omega, fun _ isTrailer => by simp [kind] at isTrailer, fun _ => by
      simp only [grown_n]
      omega⟩
  have ids : (1 ∈ (payloads (frame.accepted ++ [view])).map Prod.fst) ↔ 1 ∈ (payloads frame.accepted).map Prod.fst := by
    rw [payloads_snoc_payload kind]
    simp [Ne.symm other]
  obtain ⟨held_eq, receivedSize, dataEnd⟩ := contents.waiting unknown
  have stillUnknown : ((frame.countHeld view.data).growTo (view.packetId + 2)).blockKnown = false := sameData.blockKnown.trans unknown
  refine ⟨?_, ?_, ?_, ?_, ?_, ?_, ?_⟩
  · simp only [grown_n]
    intro taken present
    rcases List.mem_append.mp present with old | new
    · exact (contents.fitting taken old).mono (le_max_left _ _)
    · rw [List.mem_singleton.mp new, FitsFrame, kind]
      simp only
      omega
  · simp only [growTo_trailerSeen]
    exact contents.trailerSeen_iff.trans (trailers_snoc_other (by simp [kind])).symm
  · simp only [growTo_trailerSeen, grown_n]
    intro seen
    obtain ⟨trailer, present, isTrailer, last⟩ := contents.lastTrailer seen
    -- With the trailer seen the packet lies before it, so the frame did not grow.
    have inside : view.packetId ≤ frame.nPackets - 2 := by
      simpa [payloadLimit, show frame.trailerSeen = true from seen] using inRange
    exact ⟨trailer, List.mem_append_left _ present, isTrailer, by omega⟩
  · rw [ids, ← contents.blockKnown_iff]
    simp only [stillUnknown, unknown]
  · have heldBytes : ((frame.countHeld view.data).growTo (view.packetId + 2)).heldBytes =
        frame.heldBytes + view.data.length := sameData.heldBytes
    simp only [heldBytes, held, heldSize_snoc, contents.heldBytes]
  · intro _
    rw [payloads_snoc_payload kind, ← held_eq]
    exact ⟨by simp only [held], sameData.receivedSize.trans receivedSize, sameData.dataEnd.trans dataEnd⟩
  · intro known
    simp only [stillUnknown] at known
    cases known

def FrameInFlight.emptied (frame : FrameInFlight) : FrameInFlight :=
  { frame with held := [], heldBytes := 0 }

theorem InBounds.emptied (bounds : InBounds params frame) : InBounds params frame.emptied :=
  ⟨bounds.packets_length, bounds.nPackets_pos, bounds.nPackets_le, bounds.prefixEnd, bounds.blockSize_pos,
    Nat.zero_le _, bounds.receivedSize_le, bounds.dataEnd_le, bounds.data_length⟩

theorem placeAll_spec {packetId : Nat} {data : List UInt8} {placed : List (Nat × List UInt8)}
    (bounds : InBounds params frame) (holds : Placed params.payloadSize frame placed)
    (fits : frame.nPackets ≤ fittingPackets params.payloadSize frame.blockSize)
    (positive : ∀ payload ∈ placed ++ (packetId, data) :: frame.held, 1 ≤ payload.1)
    (distinct : ((placed ++ (packetId, data) :: frame.held).map Prod.fst).Nodup)
    (inRange : packetId + 2 ≤ frame.nPackets) (stats : StreamStats) :
    ∃ later mismatches, frame.placeAll packetId data stats =
        .ok (later, { stats with sizeMismatchErrors := mismatches }) ∧
      InBounds params later ∧ FrameInFlight.DataChanged frame.emptied later ∧
      (later.error = none → Placed params.payloadSize later (placed ++ (packetId, data) :: frame.held) ∧
        ∀ payload ∈ frame.held, payload.1 + 2 ≤ frame.nPackets) := by
  have id_pos : 1 ≤ packetId := positive (packetId, data) (by simp)
  have starts := offset_lt_of_fits id_pos inRange bounds.blockSize_pos fits
  have fresh : packetId ∉ placed.map Prod.fst := by
    intro present
    rw [List.map_append, List.nodup_append] at distinct
    exact distinct.2.2 packetId present packetId (by simp) rfl
  obtain ⟨mismatches, result⟩ :=
    FrameInFlight.place_eq data stats id_pos inRange (by rw [bounds.data_length]; exact starts)
  rw [FrameInFlight.placeAll, result, Checked.ok_bind]
  by_cases misplaced : frame.Misplaced packetId data
  · rw [if_pos misplaced]
    refine ⟨frame.emptied.reject, mismatches, ?_, bounds.emptied.reject, .reject, fun clean => by cases clean⟩
    simp only
    rw [FrameInFlight.placeHeld_of_error (by rfl)]
    rfl
  rw [if_neg misplaced]
  have short : data.length ≤ frame.blockSize := by
    rw [FrameInFlight.Misplaced, not_or] at misplaced
    omega
  have stored := holds.storeBlock bounds.data_length id_pos (fun other present => positive other (by simp [present]))
    fresh starts short
  have changed : FrameInFlight.DataChanged frame (frame.storeBlock packetId data) :=
    .storeBlock (by rw [bounds.data_length]; exact starts)
  obtain ⟨later, mismatches', held_result, later_changed, placed', later_holds, finished⟩ :=
    FrameInFlight.placeHeld_spec frame.held { frame.storeBlock packetId data with held := [] }
      { stats with sizeMismatchErrors := mismatches } (placed ++ [(packetId, data)])
      (stored.congr rfl rfl rfl rfl) (changed.2.1.trans bounds.data_length) bounds.blockSize_pos fits
      (by simpa using positive) (by simpa using distinct)
  have emptied_changed : FrameInFlight.DataChanged frame.emptied { later with heldBytes := 0 } := by
    refine ⟨?_, later_changed.2.1.trans changed.2.1, .trans changed.2.2 later_changed.2.2⟩
    rw [later_changed.1]
    rfl
  refine ⟨{ later with heldBytes := 0 }, mismatches', ?_, ?_, emptied_changed, ?_⟩
  · simp only
    rw [show (frame.storeBlock packetId data).held = frame.held from rfl, held_result]
    rfl
  · exact bounds.emptied.dataChanged emptied_changed (later_holds.congr rfl rfl rfl rfl)
  · intro clean
    obtain ⟨_, all, inside⟩ := finished clean
    refine ⟨?_, inside⟩
    rw [all, List.append_assoc, List.singleton_append] at later_holds
    exact later_holds.congr rfl rfl rfl rfl

theorem SameFrame.emptied_dataChanged {later : FrameInFlight}
    (changed : FrameInFlight.DataChanged frame.emptied later) : SameFrame frame later := by
  refine ⟨?_, ?_, ?_, ?_, ?_, ?_, ?_, ?_, ?_, ?_, ?_, ?_, changed.2.2⟩ <;> rw [changed.1] <;> rfl

theorem SameFrame.trans {later last : FrameInFlight} (first : SameFrame frame later)
    (second : SameFrame later last) : SameFrame frame last :=
  ⟨second.frameId.trans first.frameId, second.extendedIds.trans first.extendedIds, second.key.trans first.key,
    second.lastPacketTime.trans first.lastPacketTime, second.resendDisabled.trans first.resendDisabled,
    second.resendRatioReached.trans first.resendRatioReached, second.nResendRequests.trans first.nResendRequests,
    second.fingerprints.trans first.fingerprints, second.replayOf.trans first.replayOf,
    second.absorbed.trans first.absorbed, second.opening.trans first.opening, second.accepted.trans first.accepted,
    first.error.trans second.error⟩

/-- In an unspoiled frame the payload packets taken so far are numbered from 1,
each once, and a packet that is not flagged is none of them. -/
theorem Valid.payloads_distinct (valid : Valid params frame) (clean : frame.error = none)
    (positive : 1 ≤ view.packetId) (fresh : isReceived frame.slot.packets view.packetId = false) :
    (∀ payload ∈ payloads (frame.accepted ++ [view]), 1 ≤ payload.1) ∧
      ((payloads (frame.accepted ++ [view])).map Prod.fst).Nodup := by
  constructor
  · intro payload present
    obtain ⟨taken, member, taken_kind, rfl⟩ := mem_payloads.mp present
    rcases List.mem_append.mp member with old | new
    · have fits := (valid.contents clean).fitting taken old
      rw [FitsFrame, taken_kind] at fits
      exact fits.1
    · rw [List.mem_singleton.mp new]
      exact positive
  · refine payloads_ids_nodup ?_
    rw [List.map_append, List.nodup_append]
    refine ⟨(valid.flagged clean).distinct, by simp, ?_⟩
    intro id present other isNew same
    simp only [List.map_cons, List.map_nil, List.mem_singleton] at isNew
    rw [same, isNew, ← (valid.flagged clean).received_iff, fresh] at present
    cases present

theorem placeKnown_takes (valid : Valid params frame) (clean : frame.error = none)
    (known : frame.blockKnown = true) (kind : view.contentType = .payload) (positive : 1 ≤ view.packetId)
    (inRange : view.packetId + 2 ≤ frame.nPackets)
    (fresh : isReceived frame.slot.packets view.packetId = false) (stats : StreamStats) :
    ∃ later mismatches, frame.placeAll view.packetId view.data stats =
        .ok (later, { stats with sizeMismatchErrors := mismatches }) ∧ Takes params view frame later := by
  have contents := valid.contents clean
  obtain ⟨empty, fits, holds⟩ := contents.placed known
  obtain ⟨all_pos, distinct⟩ := valid.payloads_distinct clean positive fresh
  rw [payloads_snoc_payload kind] at all_pos distinct
  obtain ⟨later, mismatches, result, bounds, changed, finished⟩ :=
    placeAll_spec valid.inBounds holds fits (by rw [empty]; exact all_pos) (by rw [empty]; exact distinct)
      inRange stats
  have nPackets : later.nPackets = frame.nPackets := changed.nPackets
  have trailerSeen : later.trailerSeen = frame.trailerSeen := changed.trailerSeen
  have blockKnown : later.blockKnown = true := changed.blockKnown.trans known
  refine ⟨later, mismatches, result, bounds, .emptied_dataChanged changed, fun _ => clean, ?_, ?_, ?_,
    fun _ isTrailer => by simp [kind] at isTrailer, fun two_le => by rw [nPackets]; exact two_le⟩
  · intro later_clean
    obtain ⟨later_holds, _⟩ := finished later_clean
    rw [empty] at later_holds
    refine ⟨?_, ?_, ?_, ?_, ?_, ?_, ?_⟩
    · rw [nPackets]
      intro taken present
      rcases List.mem_append.mp present with old | new
      · exact contents.fitting taken old
      · rw [List.mem_singleton.mp new, FitsFrame, kind]
        exact ⟨positive, inRange⟩
    · rw [trailerSeen]
      exact contents.trailerSeen_iff.trans (trailers_snoc_other (by simp [kind])).symm
    · rw [trailerSeen, nPackets]
      intro seen
      obtain ⟨trailer, present, facts⟩ := contents.lastTrailer seen
      exact ⟨trailer, List.mem_append_left _ present, facts⟩
    · have first := contents.blockKnown_iff.mp known
      simp only [blockKnown, true_iff, payloads_snoc_payload kind, List.map_append]
      exact List.mem_append_left _ first
    · rw [changed.heldBytes, changed.held]
      rfl
    · intro unknown
      rw [blockKnown] at unknown
      cases unknown
    · intro _
      rw [payloads_snoc_payload kind]
      refine ⟨changed.held, ?_, later_holds⟩
      rw [nPackets, show later.blockSize = frame.blockSize from changed.blockSize]
      exact fits
  · intro _ position
    rw [show later.slot.packets = frame.slot.packets from changed.packets]
  · intro _
    rw [nPackets]
    omega

/-- Fixing the block size keeps everything but the size and, before the
trailer, the packet count. -/
structure BlockFixed (params : StreamParams) (frame later : FrameInFlight) : Prop where
  inBounds : InBounds params later
  same : SameFrame frame later
  blockKnown : later.blockKnown = true
  trailerSeen : later.trailerSeen = frame.trailerSeen
  held : later.held = frame.held
  receivedSize : later.receivedSize = frame.receivedSize
  dataEnd : later.dataEnd = frame.dataEnd
  fits : later.error = none → later.nPackets ≤ fittingPackets params.payloadSize later.blockSize
  flags : ∀ position, isReceived later.slot.packets position =
    (decide (position < later.nPackets) && isReceived frame.slot.packets position)
  kept : frame.trailerSeen = true → later.nPackets = frame.nPackets
  two_le : 2 ≤ frame.nPackets → 2 ≤ later.nPackets

theorem withBlockSize_fixed (bounds : InBounds params frame) :
    BlockFixed params frame (frame.withBlockSize params view) := by
  have positive : 1 ≤ (frame.learnBlockSize view).blockSize := learnBlockSize_pos bounds.blockSize_pos
  have learned : InBounds params (frame.learnBlockSize view) :=
    ⟨bounds.packets_length, bounds.nPackets_pos, bounds.nPackets_le, bounds.prefixEnd, positive, bounds.held_le,
      bounds.receivedSize_le, bounds.dataEnd_le, bounds.data_length⟩
  have unresized : ∀ position, isReceived frame.slot.packets position =
      (decide (position < frame.nPackets) && isReceived frame.slot.packets position) := by
    intro position
    by_cases inside : position < frame.nPackets
    · simp [inside]
    · rw [isReceived_of_length_le (by rw [bounds.packets_length]; omega), Bool.and_false]
  have two_fit : 2 ≤ min (fittingPackets params.payloadSize (frame.learnBlockSize view).blockSize) maxFramePackets :=
    le_min (Nat.le_add_left 2 _) (by decide)
  unfold FrameInFlight.withBlockSize
  by_cases unseen : frame.trailerSeen = false
  · rw [if_pos unseen]
    refine ⟨learned.setNPackets ?_ (fittingPackets_le positive),
      ⟨rfl, rfl, rfl, rfl, rfl, rfl, rfl, rfl, rfl, rfl, rfl, rfl, .inl rfl⟩, rfl, rfl, rfl, rfl, rfl,
      fun _ => min_le_left _ _, fun _ => isReceived_resize, ?_, fun _ => two_fit⟩
    · exact Nat.le_trans (by decide) two_fit
    · intro seen
      rw [unseen] at seen
      cases seen
  rw [if_neg unseen]
  by_cases tooMany : fittingPackets params.payloadSize (frame.learnBlockSize view).blockSize < frame.nPackets
  · rw [if_pos tooMany]
    exact ⟨learned.reject, ⟨rfl, rfl, rfl, rfl, rfl, rfl, rfl, rfl, rfl, rfl, rfl, rfl, .inr rfl⟩, rfl, rfl, rfl, rfl, rfl,
      (fun clean => by cases clean), unresized, fun _ => rfl, id⟩
  · rw [if_neg tooMany]
    exact ⟨learned, ⟨rfl, rfl, rfl, rfl, rfl, rfl, rfl, rfl, rfl, rfl, rfl, rfl, .inl rfl⟩, rfl, rfl, rfl, rfl, rfl,
      fun _ => Nat.le_of_not_lt tooMany, unresized, fun _ => rfl, id⟩

theorem placeFirst_takes {fixed : FrameInFlight} (valid : Valid params frame) (clean : frame.error = none)
    (unknown : frame.blockKnown = false) (kind : view.contentType = .payload) (first : view.packetId = 1)
    (blockFixed : BlockFixed params frame fixed) (fixed_clean : fixed.error = none)
    (inRange : view.packetId + 2 ≤ fixed.nPackets)
    (fresh : isReceived frame.slot.packets view.packetId = false) (stats : StreamStats) :
    ∃ later mismatches, fixed.placeAll view.packetId view.data stats =
        .ok (later, { stats with sizeMismatchErrors := mismatches }) ∧ Takes params view frame later := by
  have contents := valid.contents clean
  obtain ⟨held_eq, receivedSize, dataEnd⟩ := contents.waiting unknown
  have waiting : fixed.held = payloads frame.accepted := blockFixed.held.trans held_eq
  obtain ⟨all_pos, distinct⟩ := valid.payloads_distinct clean (by omega) fresh
  rw [payloads_snoc_payload kind] at all_pos distinct
  have reordered : (payloads frame.accepted ++ [(view.packetId, view.data)]).Perm
      ([] ++ (view.packetId, view.data) :: fixed.held) := by
    rw [List.nil_append, waiting]
    exact List.perm_append_singleton _ _
  obtain ⟨later, mismatches, result, bounds, changed, finished⟩ :=
    placeAll_spec blockFixed.inBounds
      (.empty (blockFixed.receivedSize.trans receivedSize) (blockFixed.dataEnd.trans dataEnd))
      (blockFixed.fits fixed_clean) (fun payload present => all_pos payload (reordered.mem_iff.mpr present))
      ((reordered.map Prod.fst).nodup_iff.mp distinct) inRange stats
  have nPackets : later.nPackets = fixed.nPackets := changed.nPackets
  have trailerSeen : later.trailerSeen = frame.trailerSeen := changed.trailerSeen.trans blockFixed.trailerSeen
  have blockKnown : later.blockKnown = true := changed.blockKnown.trans blockFixed.blockKnown
  have fitting : later.error = none → ∀ taken ∈ frame.accepted, FitsFrame fixed.nPackets taken := by
    intro later_clean taken present
    obtain ⟨_, inside⟩ := finished later_clean
    have fits := contents.fitting taken present
    by_cases taken_kind : taken.contentType = .payload
    · have held_range := inside (taken.packetId, taken.data) (by
        rw [waiting, payloads, List.mem_map]
        exact ⟨taken, List.mem_filter.mpr ⟨present, by simp [taken_kind]⟩, rfl⟩)
      rw [FitsFrame, taken_kind] at fits ⊢
      exact ⟨fits.1, held_range⟩
    · by_cases seen : frame.trailerSeen = true
      · rw [blockFixed.kept seen]
        exact fits
      · -- Before the trailer the only packet that is not payload is the leader.
        have untrailed : taken.contentType ≠ .trailer := fun isTrailer =>
          seen (contents.trailerSeen_iff.mpr ⟨taken, present, isTrailer⟩)
        unfold FitsFrame at fits ⊢
        cases taken_is : taken.contentType <;> simp_all only [reduceCtorEq, not_true, ne_eq]
  refine ⟨later, mismatches, result, bounds, blockFixed.same.trans (.emptied_dataChanged changed),
    fun _ => clean, ?_, ?_, ?_, fun _ isTrailer => by simp [kind] at isTrailer,
    fun two_le => by rw [nPackets]; exact blockFixed.two_le two_le⟩
  · intro later_clean
    obtain ⟨later_holds, _⟩ := finished later_clean
    refine ⟨?_, ?_, ?_, ?_, ?_, ?_, ?_⟩
    · rw [nPackets]
      intro taken present
      rcases List.mem_append.mp present with old | new
      · exact fitting later_clean taken old
      · rw [List.mem_singleton.mp new, FitsFrame, kind]
        exact ⟨by omega, inRange⟩
    · rw [trailerSeen]
      exact contents.trailerSeen_iff.trans (trailers_snoc_other (by simp [kind])).symm
    · rw [trailerSeen, nPackets]
      intro seen
      rw [blockFixed.kept seen]
      obtain ⟨trailer, present, facts⟩ := contents.lastTrailer seen
      exact ⟨trailer, List.mem_append_left _ present, facts⟩
    · simp only [blockKnown, true_iff, payloads_snoc_payload kind, List.map_append, first]
      simp
    · rw [changed.heldBytes, changed.held]
      rfl
    · intro stillUnknown
      rw [blockKnown] at stillUnknown
      cases stillUnknown
    · intro _
      rw [payloads_snoc_payload kind]
      refine ⟨changed.held, ?_, later_holds.perm reordered.symm⟩
      rw [nPackets, show later.blockSize = fixed.blockSize from changed.blockSize]
      exact blockFixed.fits fixed_clean
  · intro later_clean position
    rw [show later.slot.packets = fixed.slot.packets from changed.packets, blockFixed.flags]
    by_cases inside : position < fixed.nPackets
    · simp [inside]
    · -- Every flagged packet was taken, and what was taken fits the frame.
      have unflagged : isReceived frame.slot.packets position = false := by
        by_contra flagged
        have present := ((valid.flagged clean).received_iff position).mp (by simpa using flagged)
        obtain ⟨taken, member, rfl⟩ := List.mem_map.mp present
        exact inside ((fitting later_clean taken member).packetId_lt blockFixed.inBounds.nPackets_pos)
      rw [unflagged, Bool.and_false]
  · intro _
    rw [nPackets]
    omega

theorem processPayload_takes (valid : Valid params frame) (kind : view.contentType = .payload)
    (fresh : isReceived frame.slot.packets view.packetId = false) (stats : StreamStats) :
    ∃ later mismatches, frame.processPayload params view stats =
        .ok (later, { stats with sizeMismatchErrors := mismatches }) ∧ Takes params view frame later := by
  unfold FrameInFlight.processPayload
  by_cases failed : frame.error.isSome = true
  · rw [if_pos failed]
    exact ⟨frame, stats.sizeMismatchErrors, rfl,
      .rejected valid.inBounds .refl (Option.isSome_iff_ne_none.mp failed) id⟩
  have clean : frame.error = none := by simpa using failed
  rw [if_neg failed]
  by_cases isFirst : view.packetId = 1 ∧ (!frame.blockKnown) = true
  · -- Payload packet 1 fixes the block size before it is placed.
    obtain ⟨first, unknown⟩ := isFirst
    have blockFixed : BlockFixed params frame (frame.withBlockSize params view) :=
      withBlockSize_fixed valid.inBounds
    simp only [first, unknown, and_self, if_true, fixBlockSize_eq valid.inBounds.blockSize_pos, Checked.ok_bind]
    by_cases fixed_failed : (frame.withBlockSize params view).error.isSome = true
    · rw [if_pos fixed_failed]
      exact ⟨_, stats.sizeMismatchErrors, rfl,
        .rejected blockFixed.inBounds blockFixed.same (Option.isSome_iff_ne_none.mp fixed_failed)
          blockFixed.two_le⟩
    rw [if_neg fixed_failed, lastPayload_eq, Checked.ok_bind]
    by_cases outside : 1 < 1 ∨ payloadLimit params (frame.withBlockSize params view) < 1
    · rw [if_pos outside]
      exact ⟨_, stats.sizeMismatchErrors, rfl, .rejected blockFixed.inBounds.reject
        (blockFixed.same.trans .reject) (by simp [FrameInFlight.reject]) blockFixed.two_le⟩
    rw [if_neg outside]
    simp only [blockFixed.blockKnown, Bool.not_true, Bool.false_eq_true, if_false]
    have inRange : view.packetId + 2 ≤ (frame.withBlockSize params view).nPackets := by
      rw [payloadLimit, if_pos (Or.inl blockFixed.blockKnown)] at outside
      omega
    rw [← first]
    exact placeFirst_takes valid clean (by simpa using unknown) kind first blockFixed
      (by simpa using fixed_failed) inRange fresh stats
  rw [if_neg isFirst, Checked.pure_eq, Checked.ok_bind]
  beta_reduce
  rw [if_neg failed, lastPayload_eq, Checked.ok_bind]
  by_cases outside : view.packetId < 1 ∨ payloadLimit params frame < view.packetId
  · rw [if_pos outside]
    exact ⟨_, stats.sizeMismatchErrors, rfl, .rejected valid.inBounds.reject .reject
      (by simp [FrameInFlight.reject]) id⟩
  rw [if_neg outside]
  by_cases unknown : (!frame.blockKnown) = true
  · rw [if_pos unknown]
    have other : view.packetId ≠ 1 := fun first => isFirst ⟨first, unknown⟩
    obtain ⟨later, mismatches, result, takes⟩ :=
      hold_takes valid clean (by simpa using unknown) kind (by omega) (by omega) other stats
    exact ⟨later, mismatches, by rw [result]; rfl, takes⟩
  · rw [if_neg unknown]
    have known : frame.blockKnown = true := by simpa using unknown
    have inRange : view.packetId + 2 ≤ frame.nPackets := by
      rw [payloadLimit, if_pos (Or.inl known)] at outside
      omega
    exact placeKnown_takes valid clean known kind (by omega) inRange fresh stats

end Content

end Telegenic.Stream
