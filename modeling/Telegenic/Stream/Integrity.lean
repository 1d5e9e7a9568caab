import Telegenic.Stream.Runs

/-! What a frame delivered as complete consists of: its bytes are the bytes of
its own packets, each from exactly one of them, and none of its packets is
missing as long as nothing contradicts its first trailer. -/

set_option autoImplicit false

namespace Telegenic.Stream

open Library Proto Proto.Gvsp

/-- Position `position` of a frame laid out in blocks of `size` belongs to the
payload packet `view`. -/
def Carries (size position : Nat) (view : GvspView) : Prop :=
  view.contentType = .payload ∧ 1 ≤ view.packetId ∧ (view.packetId - 1) * size ≤ position ∧
    position < (view.packetId - 1) * size + view.data.length

def Sourced (inputs : List StreamInput) (frameId : Nat) (log : List GvspView) : Prop :=
  ∀ view ∈ log, view.frameId = frameId ∧ ∃ input ∈ inputs, input.arrival = some view

section Bytes

variable {params : StreamParams} {frame : FrameInFlight}

theorem Valid.placed_of_data (valid : Valid params frame) (clean : frame.error = none) {position : Nat}
    (below : position < frame.dataEnd) : Placed params.payloadSize frame (payloads frame.accepted) := by
  have contents := valid.contents clean
  cases known : frame.blockKnown with
  | true => exact (contents.placed known).2.2
  | false =>
    rw [(contents.waiting known).2.2] at below
    cases below

theorem Carries.blockEnd {size position : Nat} {view : GvspView} (carries : Carries size position view)
    {capacity : Nat} (inside : position < capacity) :
    position < Blocks.blockEnd capacity size (toBlock (view.packetId, view.data)) := by
  obtain ⟨_, _, above, below⟩ := carries
  simp only [Blocks.blockEnd, Blocks.placedLength, Blocks.offset, toBlock]
  omega

theorem Valid.carried (valid : Valid params frame) (clean : frame.error = none)
    (full : frame.receivedSize = frame.dataEnd) {position : Nat} (below : position < frame.dataEnd) :
    ∃ view ∈ frame.accepted, Carries frame.blockSize position view ∧
      frame.slot.data[position]? = view.data[position - (view.packetId - 1) * frame.blockSize]? ∧
      ∀ other ∈ frame.accepted, Carries frame.blockSize position other → other = view := by
  have placed := valid.placed_of_data clean below
  have inside : position < params.payloadSize := below.trans_le valid.inBounds.dataEnd_le
  have fitting := (valid.contents clean).fitting
  have allFilled := placed.laidOut.filled_of_total_eq_extent (by rw [← placed.size, ← placed.furthest, full])
    (by rw [← placed.furthest]; exact below)
  obtain ⟨block, present, above, beyond⟩ := allFilled
  obtain ⟨payload, isPayload, rfl⟩ := List.mem_map.mp present
  obtain ⟨view, accepted, kind, rfl⟩ := mem_payloads.mp isPayload
  have id_pos : 1 ≤ view.packetId := by
    have fits := fitting view accepted
    rw [FitsFrame, kind] at fits
    exact fits.1
  have carries : Carries frame.blockSize position view := by
    refine ⟨kind, id_pos, above, beyond.trans_le ?_⟩
    exact Nat.add_le_add_left Blocks.placedLength_le _
  refine ⟨view, accepted, carries, ?_, ?_⟩
  · have stored := placed.stored _ present (position - (view.packetId - 1) * frame.blockSize) (by
      simp only [Blocks.blockEnd] at beyond
      simp only [Blocks.offset, toBlock] at above beyond ⊢
      omega)
    simp only [Blocks.offset, toBlock] at above stored
    rwa [Nat.add_sub_cancel' above] at stored
  · intro other otherAccepted otherCarries
    have otherPresent : toBlock (other.packetId, other.data) ∈ (payloads frame.accepted).map toBlock :=
      List.mem_map_of_mem (mem_payloads.mpr ⟨other, otherAccepted, otherCarries.1, rfl⟩)
    have same := placed.laidOut.position_unique present otherPresent position above beyond
      otherCarries.2.2.1 (otherCarries.blockEnd inside)
    simp only [toBlock] at same
    have otherPos := otherCarries.2.1
    refine List.inj_on_of_nodup_map (valid.flagged clean).distinct otherAccepted accepted ?_
    omega

theorem data_length (bounds : InBounds params frame) (status : FrameStatus) :
    (frame.toFrame params status).data.length = frame.dataEnd := by
  have inside : frame.dataEnd ≤ frame.slot.data.length := by
    rw [bounds.data_length]
    exact bounds.dataEnd_le
  simp only [Frame.data, FrameInFlight.toFrame, List.length_take]
  omega

theorem getElem?_data (bounds : InBounds params frame) (status : FrameStatus) {position : Nat}
    (below : position < frame.dataEnd) : (frame.toFrame params status).data[position]? = frame.slot.data[position]? := by
  have inside : frame.dataEnd ≤ frame.slot.data.length := by
    rw [bounds.data_length]
    exact bounds.dataEnd_le
  simp only [Frame.data, FrameInFlight.toFrame]
  exact List.getElem?_take_of_lt (by omega)

end Bytes

section Sources

variable {params : StreamParams} {inputs : List StreamInput} {input : StreamInput} {origin : List FrameInFlight}

theorem Absorbs.sourced {view : GvspView} {before after : FrameInFlight} (present : input ∈ inputs)
    (isArrival : input.arrival = some view) (routed : Routed origin view before)
    (absorbs : Absorbs params view before after) (sourced : Sourced inputs before.frameId before.accepted) :
    Sourced inputs after.frameId after.accepted := by
  rw [absorbs.frameId, absorbs.logged]
  split
  · intro other accepted
    rcases List.mem_append.mp accepted with old | new
    · exact sourced other old
    · rw [List.mem_singleton.mp new]
      exact ⟨routed.1.symm, input, present, isArrival⟩
  · exact sourced

theorem sourced_tracked (present : input ∈ inputs) :
    Tracked params origin input.arrival (fun frame => Sourced inputs frame.frameId frame.accepted) := by
  refine ⟨?_, ?_, fun sourced => sourced, ?_⟩
  · exact fun _ _ _ _ view accepted => by cases accepted
  · intro before after same sourced
    rw [same.frameId, same.accepted]
    exact sourced
  · intro view before after isArrival routed _ absorbs sourced
    exact absorbs.sourced present isArrival routed sourced

end Sources

/-- What a frame delivered as complete shows: each of its bytes lies in exactly
one of the packets accepted for it, at that packet's place for one block
size. -/
def ShowsOwnBytes (inputs : List StreamInput) (frame : Frame) (accepted : List GvspView) : Prop :=
  Sourced inputs frame.frameId accepted ∧ frame.receivedSize = frame.dataEnd ∧ frame.data.length = frame.dataEnd ∧
    ∃ size, 1 ≤ size ∧ ∀ position < frame.dataEnd,
      ∃ view ∈ accepted, Carries size position view ∧
        frame.data[position]? = view.data[position - (view.packetId - 1) * size]? ∧
        ∀ other ∈ accepted, Carries size position other → other = view

theorem Valid.showsOwnBytes {params : StreamParams} {inputs : List StreamInput} {frame : FrameInFlight}
    {status : FrameStatus} (valid : Valid params frame) (sourced : Sourced inputs frame.frameId frame.accepted)
    (clean : frame.error = none) (full : frame.receivedSize = frame.dataEnd) :
    ShowsOwnBytes inputs (frame.toFrame params status) frame.accepted := by
  refine ⟨sourced, full, data_length valid.inBounds status, frame.blockSize, valid.inBounds.blockSize_pos, ?_⟩
  intro position below
  rw [getElem?_data valid.inBounds status below]
  exact valid.carried clean full below

/-- No byte that an earlier frame left in the buffer is exposed by a frame
delivered as complete. -/
theorem complete_frame_shows_own_bytes (params : StreamParams) (inputs : List StreamInput) :
    ∃ later, (StreamWorld.spawn params).run params inputs = .ok later ∧
      ∀ opening frame accepted, .delivered opening frame accepted ∈ later.journal → frame.status = .complete →
        ShowsOwnBytes inputs frame accepted := by
  obtain ⟨later, result, _, _, delivered⟩ := run_tracks params
    (fun frame => Sourced inputs frame.frameId frame.accepted)
    (fun frame accepted => frame.status = .complete → ShowsOwnBytes inputs frame accepted)
    (fun present => sourced_tracked present)
    (fun valid sourced complete isComplete => by
      obtain ⟨_, clean, full⟩ := complete isComplete
      exact valid.showsOwnBytes sourced clean full)
    (.of_forall inputs (.spawn params) fun _ _ present => present)
  exact ⟨later, result, delivered⟩

/-- The input does not contradict the frames in flight: an all-in packet opens
no frame, and a trailer does not come after a trailer with a smaller id. -/
def Uncontradicted (w : StreamWorld) (input : StreamInput) : Prop :=
  ∀ view ∈ input.arrival,
    (view.contentType = .allIn → ∃ frame ∈ w.runner.frames, frame.frameId = view.frameId) ∧
    (view.contentType = .trailer → ∀ frame ∈ w.runner.frames, frame.frameId = view.frameId →
      frame.trailerSeen = true → view.packetId < frame.nPackets)

instance (w : StreamWorld) (input : StreamInput) : Decidable (Uncontradicted w input) :=
  inferInstanceAs (Decidable (∀ view ∈ input.arrival, _ ∧ _))

structure Numbered (inputs : List StreamInput) (frame : FrameInFlight) : Prop where
  sourced : Sourced inputs frame.frameId frame.accepted
  two_le : 2 ≤ frame.nPackets
  oneTrailer : frame.error = none →
    ∀ view ∈ frame.accepted, view.contentType = .trailer → view.packetId + 1 = frame.nPackets

section Numbering

variable {params : StreamParams} {inputs : List StreamInput} {input : StreamInput} {w : StreamWorld}

theorem oneTrailer_of_trailer {view : GvspView} {before after : FrameInFlight}
    (uncontradicted : Uncontradicted w input) (isArrival : input.arrival = some view)
    (kind : view.contentType = .trailer) (routed : Routed w.runner.frames view before)
    (valid : Valid params before) (absorbs : Absorbs params view before after) (numbered : Numbered inputs before)
    (clean : after.error = none) :
    ∀ other ∈ before.accepted, other.contentType = .trailer → other.packetId + 1 = after.nPackets := by
  intro other accepted isTrailer
  have contents := valid.contents (absorbs.clean clean)
  have seen := contents.trailerSeen_iff.mpr ⟨other, accepted, isTrailer⟩
  obtain ⟨first, present, sameId, firstSeen, nPackets⟩ := routed.2 seen
  have bounded := (uncontradicted view isArrival).2 kind first present sameId firstSeen
  have numbering := numbered.oneTrailer (absorbs.clean clean) other accepted isTrailer
  have ended := absorbs.ended clean kind
  have stillFits := (absorbs.valid.contents clean).fitting other (by
    rw [absorbs.logged, if_pos clean]
    exact List.mem_append_left _ accepted)
  rw [FitsFrame, isTrailer] at stillFits
  have upper := stillFits.2
  omega

theorem oneTrailer_of_other {view : GvspView} {before after : FrameInFlight}
    (kind : view.contentType ≠ .trailer) (absorbs : Absorbs params view before after)
    (numbered : Numbered inputs before) (clean : after.error = none) :
    ∀ other ∈ before.accepted, other.contentType = .trailer → other.packetId + 1 = after.nPackets := by
  intro other accepted isTrailer
  have contents := absorbs.valid.contents clean
  rw [absorbs.logged, if_pos clean] at contents
  have seen := contents.trailerSeen_iff.mpr ⟨other, List.mem_append_left _ accepted, isTrailer⟩
  obtain ⟨last, logged, lastTrailer, ends⟩ := contents.lastTrailer seen
  rcases List.mem_append.mp logged with old | new
  · have numbering := numbered.oneTrailer (absorbs.clean clean)
    rw [numbering other accepted isTrailer, ← numbering last old lastTrailer, ends]
  · rw [List.mem_singleton.mp new] at lastTrailer
    exact absurd lastTrailer kind

theorem Numbered.absorbed {view : GvspView} {before after : FrameInFlight} (present : input ∈ inputs)
    (uncontradicted : Uncontradicted w input) (isArrival : input.arrival = some view)
    (routed : Routed w.runner.frames view before) (valid : Valid params before)
    (absorbs : Absorbs params view before after) (numbered : Numbered inputs before) : Numbered inputs after := by
  refine ⟨absorbs.sourced present isArrival routed numbered.sourced, absorbs.two_le numbered.two_le, ?_⟩
  intro clean other accepted isTrailer
  rw [absorbs.logged, if_pos clean] at accepted
  rcases List.mem_append.mp accepted with old | new
  · by_cases kind : view.contentType = .trailer
    · exact oneTrailer_of_trailer uncontradicted isArrival kind routed valid absorbs numbered clean other old isTrailer
    · exact oneTrailer_of_other kind absorbs numbered clean other old isTrailer
  · rw [List.mem_singleton.mp new] at isTrailer ⊢
    exact (absorbs.ended clean isTrailer).symm

theorem numbered_tracked (present : input ∈ inputs) (uncontradicted : Uncontradicted w input) :
    Tracked params w.runner.frames input.arrival (Numbered inputs) := by
  refine ⟨?_, ?_, fun numbered => ⟨numbered.sourced, numbered.two_le, numbered.oneTrailer⟩, ?_⟩
  · intro view now nPackets opening slot replayOf isArrival unknown expected supported
    obtain ⟨n, result, facts⟩ := computeNExpectedPackets_spec params view
    rw [expected] at result
    cases result
    refine ⟨fun view accepted => (by cases accepted), (facts supported).2.2 ?_, fun _ view accepted => by cases accepted⟩
    intro kind
    obtain ⟨frame, inFlight, sameId⟩ := (uncontradicted view isArrival).1 kind
    exact unknown frame inFlight sameId
  · intro before after same numbered
    refine ⟨?_, ?_, ?_⟩
    · rw [same.frameId, same.accepted]
      exact numbered.sourced
    · rw [same.nPackets]
      exact numbered.two_le
    · rw [same.error, same.accepted, same.nPackets]
      exact numbered.oneTrailer
  · intro view before after isArrival routed valid absorbs numbered
    exact numbered.absorbed present uncontradicted isArrival routed valid absorbs

theorem Valid.taken {frame : FrameInFlight} (valid : Valid params frame) (clean : frame.error = none)
    (all : frame.allReceived = true) {position : Nat} (inside : position < frame.nPackets) :
    ∃ view ∈ frame.accepted, view.packetId = position ∧ FitsFrame frame.nPackets view := by
  have last : frame.lastValidPacket = (frame.nPackets : Int) - 1 := by
    simpa [FrameInFlight.allReceived] using all
  have received := valid.inBounds.prefixEnd.received position (by omega)
  obtain ⟨view, accepted, isPosition⟩ := List.mem_map.mp (((valid.flagged clean).received_iff position).mp received)
  exact ⟨view, accepted, isPosition, (valid.contents clean).fitting view accepted⟩

end Numbering

/-- The packets of a complete frame: a leader, the payload packets up to the
trailer, all of whose data is in the frame's buffer, and no other trailer. -/
def HasAllPackets (inputs : List StreamInput) (frame : Frame) (accepted : List GvspView) : Prop :=
  Sourced inputs frame.frameId accepted ∧ ∃ n, 2 ≤ n ∧
    (∃ leader ∈ accepted, leader.contentType = .leader ∧ leader.packetId = 0) ∧
    (∃ trailer ∈ accepted, trailer.contentType = .trailer ∧ trailer.packetId = n - 1) ∧
    (∀ trailer ∈ accepted, trailer.contentType = .trailer → trailer.packetId = n - 1) ∧
    ∃ size, ∀ k, 1 ≤ k → k ≤ n - 2 →
      ∃ view ∈ accepted, view.contentType = .payload ∧ view.packetId = k ∧
        ∀ index < view.data.length, (k - 1) * size + index < frame.slot.data.length →
          frame.data[(k - 1) * size + index]? = view.data[index]?

section Completeness

variable {params : StreamParams} {inputs : List StreamInput} {frame : FrameInFlight}

theorem Numbered.leader_taken (numbered : Numbered inputs frame) (valid : Valid params frame)
    (clean : frame.error = none) (all : frame.allReceived = true) :
    ∃ leader ∈ frame.accepted, leader.contentType = .leader ∧ leader.packetId = 0 := by
  obtain ⟨view, accepted, isFirst, fits⟩ := valid.taken clean all (Nat.lt_of_lt_of_le Nat.zero_lt_two numbered.two_le)
  refine ⟨view, accepted, ?_, isFirst⟩
  rw [FitsFrame, isFirst] at fits
  cases kind : view.contentType <;> simp_all

theorem Numbered.trailer_taken (numbered : Numbered inputs frame) (valid : Valid params frame)
    (clean : frame.error = none) (all : frame.allReceived = true) :
    ∃ trailer ∈ frame.accepted, trailer.contentType = .trailer ∧ trailer.packetId = frame.nPackets - 1 := by
  have two_le := numbered.two_le
  obtain ⟨view, accepted, isLast, fits⟩ := valid.taken clean all (Nat.sub_lt (by omega) Nat.one_pos)
  refine ⟨view, accepted, ?_, isLast⟩
  rw [FitsFrame, isLast] at fits
  cases kind : view.contentType <;> simp only [kind] at fits
  case leader => omega
  case payload => omega
  case trailer => rfl

theorem Numbered.payload_taken (numbered : Numbered inputs frame) (valid : Valid params frame)
    (clean : frame.error = none) (all : frame.allReceived = true) {k : Nat} (positive : 1 ≤ k)
    (inside : k ≤ frame.nPackets - 2) :
    ∃ view ∈ frame.accepted, view.contentType = .payload ∧ view.packetId = k := by
  have two_le := numbered.two_le
  obtain ⟨view, accepted, isHere, fits⟩ := valid.taken clean all (show k < frame.nPackets by omega)
  refine ⟨view, accepted, ?_, isHere⟩
  rw [FitsFrame] at fits
  cases kind : view.contentType <;> simp only [kind] at fits
  case leader => omega
  case payload => rfl
  case trailer =>
    have numbering := numbered.oneTrailer clean view accepted kind
    omega

theorem Valid.payload_stored (valid : Valid params frame) (clean : frame.error = none)
    (known : frame.blockKnown = true) {view : GvspView} (accepted : view ∈ frame.accepted)
    (kind : view.contentType = .payload) (status : FrameStatus) {index : Nat} (below : index < view.data.length)
    (inside : (view.packetId - 1) * frame.blockSize + index < frame.slot.data.length) :
    (frame.toFrame params status).data[(view.packetId - 1) * frame.blockSize + index]? = view.data[index]? := by
  have placed := ((valid.contents clean).placed known).2.2
  have present : toBlock (view.packetId, view.data) ∈ (payloads frame.accepted).map toBlock :=
    List.mem_map_of_mem (mem_payloads.mpr ⟨view, accepted, kind, rfl⟩)
  rw [valid.inBounds.data_length] at inside
  have short : index < Blocks.placedLength params.payloadSize frame.blockSize (toBlock (view.packetId, view.data)) := by
    simp only [Blocks.placedLength, Blocks.offset, toBlock]
    omega
  have reaches : Blocks.blockEnd params.payloadSize frame.blockSize (toBlock (view.packetId, view.data)) ≤
      frame.dataEnd := by
    rw [placed.furthest]
    exact Blocks.blockEnd_le_extent present
  rw [getElem?_data valid.inBounds status (by
    simp only [Blocks.blockEnd, Blocks.offset, toBlock] at reaches short
    omega)]
  exact placed.stored _ present index short

theorem Numbered.hasAllPackets (numbered : Numbered inputs frame) (valid : Valid params frame)
    (clean : frame.error = none) (all : frame.allReceived = true) (status : FrameStatus) :
    HasAllPackets inputs (frame.toFrame params status) frame.accepted := by
  refine ⟨numbered.sourced, frame.nPackets, numbered.two_le, numbered.leader_taken valid clean all,
    numbered.trailer_taken valid clean all, ?_, frame.blockSize, ?_⟩
  · intro trailer accepted kind
    have numbering := numbered.oneTrailer clean trailer accepted kind
    omega
  · intro k positive inside
    obtain ⟨first, firstAccepted, firstKind, isFirst⟩ :=
      numbered.payload_taken valid clean all le_rfl (positive.trans inside)
    -- Payload packet 1 fixed the block size.
    have known : frame.blockKnown = true := (valid.contents clean).blockKnown_iff.mpr
      (List.mem_map.mpr ⟨_, mem_payloads.mpr ⟨first, firstAccepted, firstKind, rfl⟩, isFirst⟩)
    obtain ⟨view, accepted, kind, rfl⟩ := numbered.payload_taken valid clean all positive inside
    exact ⟨view, accepted, kind, rfl, fun index below within =>
      valid.payload_stored clean known accepted kind status below within⟩

end Completeness

/-- A complete frame has all its packets on every run whose inputs do not
contradict the frames in flight. -/
theorem complete_frame_has_all_packets (params : StreamParams) (inputs : List StreamInput)
    (uncontradicted : Along params Uncontradicted inputs (.spawn params)) :
    ∃ later, (StreamWorld.spawn params).run params inputs = .ok later ∧
      ∀ opening frame accepted, .delivered opening frame accepted ∈ later.journal → frame.status = .complete →
        HasAllPackets inputs frame accepted := by
  obtain ⟨later, result, _, _, delivered⟩ := run_tracks params (Numbered inputs)
    (fun frame accepted => frame.status = .complete → HasAllPackets inputs frame accepted)
    (fun both => numbered_tracked both.1 both.2)
    (fun valid numbered complete isComplete => by
      obtain ⟨all, clean, _⟩ := complete isComplete
      exact numbered.hasAllPackets valid clean all _)
    (uncontradicted.within inputs fun _ present => present)
  exact ⟨later, result, delivered⟩

section Samples

def smallStream : StreamParams :=
  { scpsPacketSize := 100
    payloadSize := 8
    nBuffers := 1
    resendEnabled := false
    tickFrequency := 0
    initialPacketTimeout := 1
    packetTimeout := 1
    frameRetention := 1
    maxRequests := fun _ => 0
    fingerprint := fun _ _ => 0
    payloadSize_lt := by decide }

def arriving (datagram : List UInt8) : StreamInput := .packet { datagram := datagram } 0 0 []

def completions (w : StreamWorld) : List (List (ContentType × Nat)) :=
  w.journal.filterMap fun
    | .delivered _ frame accepted =>
        if frame.status = .complete then some (accepted.map fun view => (view.contentType, view.packetId)) else none
    | _ => none

theorem mem_of_kinds {accepted : List GvspView} {kinds : List (ContentType × Nat)} {view : GvspView}
    (same : accepted.map (fun view => (view.contentType, view.packetId)) = kinds) (present : view ∈ accepted) :
    (view.contentType, view.packetId) ∈ kinds :=
  same ▸ List.mem_map_of_mem present

theorem exists_delivered (inputs : List StreamInput) (kinds : List (ContentType × Nat))
    (completed : ((StreamWorld.spawn smallStream).run smallStream inputs).map completions = .ok [kinds]) :
    ∃ later opening frame accepted, (StreamWorld.spawn smallStream).run smallStream inputs = .ok later ∧
      .delivered opening frame accepted ∈ later.journal ∧ frame.status = .complete ∧
      accepted.map (fun view => (view.contentType, view.packetId)) = kinds := by
  cases result : (StreamWorld.spawn smallStream).run smallStream inputs with
  | error fault =>
    rw [result] at completed
    cases completed
  | ok later =>
    rw [result] at completed
    have present : kinds ∈ completions later := by
      rw [Except.ok.inj completed]
      exact List.mem_singleton_self kinds
    obtain ⟨event, recorded, shown⟩ := List.mem_filterMap.mp present
    cases event with
    | delivered opening frame accepted =>
      simp only at shown
      split at shown
      · exact ⟨later, opening, frame, accepted, rfl, recorded, by assumption, Option.some.inj shown⟩
      · cases shown
    | _ => cases shown

/-- An all-in packet opens a frame of one packet; its content is not taken, and
the leader that follows completes the frame. -/
def leaderAfterAllIn : List StreamInput :=
  [arriving [0, 0, 0, 1, 4, 0, 0, 0], arriving [0, 0, 0, 1, 1, 0, 0, 0]]

/-- Trailers with ids 2 and 3, then the leader and payload packet 1. -/
def twoTrailers : List StreamInput :=
  [arriving [0, 0, 0, 1, 2, 0, 0, 2], arriving [0, 0, 0, 1, 2, 0, 0, 3],
    arriving [0, 0, 0, 1, 1, 0, 0, 0], arriving [0, 0, 0, 1, 3, 0, 0, 1, 10, 11, 12, 13]]

/-- Frames are delivered as complete that lack packets: one without a trailer,
and one whose first trailer stands in for payload packet 2. -/
theorem complete_frames_lacking_packets :
    (∃ later opening frame accepted,
      (StreamWorld.spawn smallStream).run smallStream leaderAfterAllIn = .ok later ∧
      .delivered opening frame accepted ∈ later.journal ∧ frame.status = .complete ∧
      (∀ view ∈ accepted, view.contentType ≠ .trailer) ∧ ¬ HasAllPackets leaderAfterAllIn frame accepted) ∧
    ∃ later opening frame accepted,
      (StreamWorld.spawn smallStream).run smallStream twoTrailers = .ok later ∧
      .delivered opening frame accepted ∈ later.journal ∧ frame.status = .complete ∧
      (∃ view ∈ accepted, view.contentType = .trailer ∧ view.packetId = 3) ∧
      (∀ view ∈ accepted, view.packetId = 2 → view.contentType = .trailer) ∧
      ¬ HasAllPackets twoTrailers frame accepted := by
  constructor
  · obtain ⟨later, opening, frame, accepted, result, recorded, complete, kinds⟩ :=
      exists_delivered leaderAfterAllIn [(.leader, 0)] (by decide +kernel)
    have noTrailer : ∀ view ∈ accepted, view.contentType ≠ .trailer := by
      intro view present isTrailer
      have kind := mem_of_kinds kinds present
      simp [isTrailer] at kind
    refine ⟨later, opening, frame, accepted, result, recorded, complete, noTrailer, ?_⟩
    rintro ⟨_, n, _, _, ⟨trailer, present, kind, _⟩, _⟩
    exact noTrailer trailer present kind
  · obtain ⟨later, opening, frame, accepted, result, recorded, complete, kinds⟩ :=
      exists_delivered twoTrailers [(.trailer, 2), (.trailer, 3), (.leader, 0), (.payload, 1)] (by decide +kernel)
    have taken : ∀ kind ∈ [(ContentType.trailer, 2), (.trailer, 3), (.leader, 0), (.payload, 1)],
        ∃ view ∈ accepted, (view.contentType, view.packetId) = kind := by
      rw [← kinds]
      exact fun kind present => List.mem_map.mp present
    obtain ⟨first, firstPresent, isFirst⟩ := taken (.trailer, 2) (by decide)
    obtain ⟨second, secondPresent, isSecond⟩ := taken (.trailer, 3) (by decide)
    obtain ⟨firstKind, firstId⟩ := Prod.mk.inj isFirst
    obtain ⟨secondKind, secondId⟩ := Prod.mk.inj isSecond
    refine ⟨later, opening, frame, accepted, result, recorded, complete,
      ⟨second, secondPresent, secondKind, secondId⟩, ?_, ?_⟩
    · intro view present isTwo
      simpa [isTwo] using mem_of_kinds kinds present
    · -- Both trailers would have to be the last packet.
      rintro ⟨_, n, _, _, _, oneTrailer, _⟩
      have firstLast := oneTrailer first firstPresent firstKind
      have secondLast := oneTrailer second secondPresent secondKind
      omega

def oneFrame : List StreamInput :=
  [arriving [0, 0, 0, 1, 1, 0, 0, 0, 0, 0, 0, 1, 0, 0, 0, 0, 0, 0, 0, 0],
    arriving [0, 0, 0, 1, 3, 0, 0, 1, 10, 11, 12, 13], arriving [0, 0, 0, 1, 2, 0, 0, 2]]

theorem complete_frame_has_all_packets_oneFrame :
    ((StreamWorld.spawn smallStream).run smallStream oneFrame).map completions =
        .ok [[(.leader, 0), (.payload, 1), (.trailer, 2)]] ∧
      ∃ later, (StreamWorld.spawn smallStream).run smallStream oneFrame = .ok later ∧
        ∀ opening frame accepted, .delivered opening frame accepted ∈ later.journal → frame.status = .complete →
          HasAllPackets oneFrame frame accepted :=
  ⟨by decide +kernel, complete_frame_has_all_packets smallStream oneFrame (by decide +kernel)⟩

end Samples

end Telegenic.Stream
