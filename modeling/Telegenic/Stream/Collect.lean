import Telegenic.Stream.Device
import Telegenic.Stream.Integrity
import Telegenic.Stream.Leader

/-! Collecting one sent frame: packets of the frame, each taken once and in any
order, leave no violation behind, and once all of them are taken the frame
holds the device's data. -/

set_option autoImplicit false

namespace Telegenic.Stream

open Library Proto Proto.Gvsp

namespace SentFrame

variable {params : StreamParams} {sent : SentFrame} {k : Nat}

def firstLength (sent : SentFrame) : Nat := min sent.blockSize sent.data.length

theorem offset_lt (positive : 1 ≤ k) (inside : k ≤ sent.blocks) : (k - 1) * sent.blockSize < sent.data.length := by
  have blockSize_pos := sent.blockSize_pos
  have whole : k * sent.blockSize ≤ sent.data.length + sent.blockSize - 1 :=
    (Nat.le_div_iff_mul_le (by omega)).mp inside
  obtain ⟨before, rfl⟩ : ∃ before, k = before + 1 := ⟨k - 1, by omega⟩
  rw [Nat.add_mul, Nat.one_mul] at whole
  rw [Nat.add_sub_cancel]
  omega

theorem le_blocks {position : Nat} (inside : position < sent.data.length) :
    position / sent.blockSize + 1 ≤ sent.blocks := by
  have blockSize_pos := sent.blockSize_pos
  rw [blocks, Nat.le_div_iff_mul_le (by omega), Nat.add_mul, Nat.one_mul]
  have := Nat.div_mul_le_self position sent.blockSize
  omega

@[simp] theorem block_length (k : Nat) :
    (sent.block k).length = min sent.blockSize (sent.data.length - (k - 1) * sent.blockSize) := by
  rw [block, List.length_take, List.length_drop]

theorem block_length_le : (sent.block k).length ≤ sent.firstLength := by
  rw [block_length, firstLength]
  omega

theorem firstLength_pos (some_data : 1 ≤ sent.blocks) : 1 ≤ sent.firstLength := by
  have starts := sent.offset_lt le_rfl some_data
  have blockSize_pos := sent.blockSize_pos
  rw [firstLength]
  omega

theorem offset_eq (positive : 1 ≤ k) (inside : k ≤ sent.blocks) :
    (k - 1) * sent.firstLength = (k - 1) * sent.blockSize := by
  rcases Nat.eq_or_lt_of_le positive with rfl | several
  · simp
  · have second := sent.offset_lt (show 1 ≤ 2 by omega) (show 2 ≤ sent.blocks by omega)
    rw [firstLength, Nat.min_eq_left (by omega)]

theorem nPackets_le_fitting (fits : sent.Fits params) (some_data : 1 ≤ sent.blocks) :
    sent.nPackets ≤ fittingPackets params.payloadSize sent.firstLength := by
  have first_pos := firstLength_pos some_data
  have data_le := fits.data_le
  have starts := sent.offset_lt some_data le_rfl
  rw [← offset_eq some_data le_rfl] at starts
  have enough : sent.blocks ≤ (params.payloadSize + sent.firstLength - 1) / sent.firstLength := by
    rw [Nat.le_div_iff_mul_le (by omega)]
    obtain ⟨before, isBefore⟩ : ∃ before, sent.blocks = before + 1 := ⟨sent.blocks - 1, by omega⟩
    rw [isBefore, Nat.add_sub_cancel] at starts
    rw [isBefore, Nat.add_mul, Nat.one_mul]
    omega
  rw [nPackets, fittingPackets]
  omega

theorem nPackets_le_packetLimit (fits : sent.Fits params) : sent.nPackets ≤ packetLimit params := by
  have data_le := fits.data_le
  refine le_min (Nat.add_le_add_right ?_ 2) fits.nPackets_le
  rcases Nat.eq_zero_or_pos sent.blocks with none | some_data
  · omega
  · have starts := sent.offset_lt some_data le_rfl
    have := Nat.le_mul_of_pos_right (sent.blocks - 1) sent.blockSize_pos
    omega

@[simp] theorem kind_zero : sent.kind 0 = .leader := rfl

theorem kind_payload (positive : 1 ≤ k) (inside : k ≤ sent.blocks) : sent.kind k = .payload := by
  rw [kind, if_neg (by omega), if_pos inside]

theorem kind_trailer (last : sent.blocks < k) : sent.kind k = .trailer := by
  rw [kind, if_neg (by omega), if_neg (by omega)]

theorem body_payload (positive : 1 ≤ k) (inside : k ≤ sent.blocks) : sent.body k = sent.block k := by
  rw [body, if_neg (by omega), if_pos inside]

theorem payload_iff : sent.kind k = .payload ↔ 1 ≤ k ∧ k ≤ sent.blocks := by
  unfold kind
  split
  · simp
    omega
  · split
    · simp
      omega
    · simp
      omega

theorem trailer_iff : sent.kind k = .trailer ↔ sent.blocks < k := by
  unfold kind
  split
  · simp
    omega
  · split
    · simp
      omega
    · simp
      omega

theorem leader_iff : sent.kind k = .leader ↔ k = 0 := by
  unfold kind
  split
  · simp [*]
  · split
    · simp [*]
    · simp [*]

theorem getElem?_block {position : Nat} (above : (k - 1) * sent.blockSize ≤ position)
    (below : position < (k - 1) * sent.blockSize + (sent.block k).length) :
    (sent.block k)[position - (k - 1) * sent.blockSize]? = sent.data[position]? := by
  rw [block_length] at below
  rw [block, List.getElem?_take_of_lt (by omega), List.getElem?_drop, Nat.add_sub_cancel' above]

def payload (sent : SentFrame) (k : Nat) : Nat × List UInt8 := (k, sent.block k)

theorem laidOut {ids : List Nat} (distinct : ids.Nodup) (inside : ∀ k ∈ ids, 1 ≤ k ∧ k ≤ sent.blocks) :
    Blocks.LaidOut sent.data.length sent.blockSize ((ids.map sent.payload).map toBlock) := by
  refine ⟨?_, ?_, ?_⟩
  · rw [List.map_map, List.map_map]
    refine distinct.map_on ?_
    intro first isFirst second isSecond same
    have first_pos := (inside first isFirst).1
    have second_pos := (inside second isSecond).1
    simp only [Function.comp_apply, toBlock, payload] at same
    omega
  · intro block present
    simp only [List.map_map, List.mem_map, Function.comp_apply] at present
    obtain ⟨k, _, rfl⟩ := present
    simp only [toBlock, payload, block_length]
    omega
  · intro block present
    simp only [List.map_map, List.mem_map, Function.comp_apply] at present
    obtain ⟨k, isId, rfl⟩ := present
    exact (sent.offset_lt (inside k isId).1 (inside k isId).2).le

theorem heldSize_le {ids : List Nat} (distinct : ids.Nodup) (inside : ∀ k ∈ ids, 1 ≤ k ∧ k ≤ sent.blocks) :
    heldSize (ids.map sent.payload) ≤ sent.data.length := by
  have layout := sent.laidOut distinct inside
  have total : Blocks.total sent.data.length sent.blockSize ((ids.map sent.payload).map toBlock) =
      heldSize (ids.map sent.payload) := by
    rw [Blocks.total, heldSize, List.map_map, List.map_map, List.map_map]
    refine congrArg List.sum (List.map_congr_left fun k _ => ?_)
    simp only [Function.comp_apply, Blocks.placedLength, Blocks.offset, toBlock, payload, block_length]
    omega
  rw [← total]
  exact layout.total_le_extent.trans layout.extent_le_capacity

end SentFrame

section Placing

variable {params : StreamParams} {frame : FrameInFlight}

structure Placeable (frame : FrameInFlight) (payload : Nat × List UInt8) : Prop where
  positive : 1 ≤ payload.1
  inRange : payload.1 + 2 ≤ frame.nPackets
  short : payload.2.length ≤ frame.blockSize
  starts : (payload.1 - 1) * frame.blockSize < frame.slot.data.length

theorem Placeable.changed {later : FrameInFlight} {payload : Nat × List UInt8} (placeable : Placeable frame payload)
    (changed : FrameInFlight.DataChanged frame later) : Placeable later payload := by
  refine ⟨placeable.positive, ?_, ?_, ?_⟩
  · rw [changed.nPackets]
    exact placeable.inRange
  · rw [changed.blockSize]
    exact placeable.short
  · rw [changed.blockSize, changed.2.1]
    exact placeable.starts

theorem place_clean {packetId : Nat} {data : List UInt8} (placeable : Placeable frame (packetId, data))
    (small : frame.slot.data.length < 2 ^ 63) (stats : StreamStats) :
    ∃ mismatches, frame.place packetId data stats =
        .ok (frame.storeBlock packetId data, { stats with sizeMismatchErrors := mismatches }) ∧
      FrameInFlight.DataChanged frame (frame.storeBlock packetId data) := by
  obtain ⟨mismatches, result⟩ :=
    FrameInFlight.place_eq data stats placeable.positive placeable.inRange placeable.starts
  have fine : ¬ frame.Misplaced packetId data := by
    have short := placeable.short
    have starts := placeable.starts
    simp only at short starts
    rw [FrameInFlight.Misplaced, not_or]
    constructor <;> omega
  rw [if_neg fine] at result
  exact ⟨mismatches, result, .storeBlock placeable.starts⟩

theorem placeHeld_clean (held : List (Nat × List UInt8)) : ∀ (frame : FrameInFlight) (stats : StreamStats),
    frame.error = none → frame.slot.data.length < 2 ^ 63 → (∀ payload ∈ held, Placeable frame payload) →
    ∃ later mismatches, FrameInFlight.placeHeld held frame stats =
        .ok (later, { stats with sizeMismatchErrors := mismatches }) ∧
      FrameInFlight.DataChanged frame later ∧ later.error = none := by
  induction held with
  | nil => exact fun frame stats clean _ _ => ⟨frame, stats.sizeMismatchErrors, rfl, .refl, clean⟩
  | cons payload rest ih =>
    obtain ⟨id, data⟩ := payload
    intro frame stats clean small placeable
    have here := placeable (id, data) List.mem_cons_self
    have inRange := here.inRange
    obtain ⟨mismatches, result, changed⟩ := place_clean here small stats
    obtain ⟨later, mismatches', rest_result, rest_changed, rest_clean⟩ :=
      ih (frame.storeBlock id data) { stats with sizeMismatchErrors := mismatches } clean
        (by rw [changed.2.1]; exact small)
        (fun payload present => (placeable payload (List.mem_cons_of_mem _ present)).changed changed)
    refine ⟨later, mismatches', ?_, changed.trans rest_changed, rest_clean⟩
    rw [FrameInFlight.placeHeld, if_neg (by simp [clean]), if_neg (by simp only at inRange; omega), result]
    exact rest_result

theorem placeAll_clean {packetId : Nat} {data : List UInt8} (clean : frame.error = none)
    (small : frame.slot.data.length < 2 ^ 63) (placeable : Placeable frame (packetId, data))
    (others : ∀ payload ∈ frame.held, Placeable frame payload) (stats : StreamStats) :
    ∃ later mismatches, frame.placeAll packetId data stats =
        .ok (later, { stats with sizeMismatchErrors := mismatches }) ∧
      later.error = none ∧ later.blockSize = frame.blockSize ∧ later.nPackets = frame.nPackets := by
  obtain ⟨mismatches, result, changed⟩ := place_clean placeable small stats
  obtain ⟨later, mismatches', held_result, held_changed, held_clean⟩ := placeHeld_clean frame.held
    { frame.storeBlock packetId data with held := [] } { stats with sizeMismatchErrors := mismatches } clean
    (show (frame.storeBlock packetId data).slot.data.length < 2 ^ 63 by rw [changed.2.1]; exact small)
    (fun payload present => by
      have still := (others payload present).changed changed
      exact ⟨still.positive, still.inRange, still.short, still.starts⟩)
  refine ⟨{ later with heldBytes := 0 }, mismatches', ?_, held_clean, held_changed.blockSize, held_changed.nPackets⟩
  rw [FrameInFlight.placeAll, result, Checked.ok_bind]
  simp only
  rw [show (frame.storeBlock packetId data).held = frame.held from rfl, held_result]
  rfl

end Placing

structure Agrees (params : StreamParams) (sent : SentFrame) (fingerprints : Fingerprints) : Prop where
  head : ∀ position hash, fingerprints.head position = some hash →
    ∃ tag, contentTag (sent.kind position) = some tag ∧ hash = params.fingerprint tag (sent.body position)
  trailer : ∀ entry, fingerprints.trailer = some entry →
    ∃ k, sent.kind k = .trailer ∧ k < sent.nPackets ∧ entry = (k, params.fingerprint 2 (sent.body k))

namespace Agrees

variable {params : StreamParams} {sent : SentFrame} {fingerprints : Fingerprints} {k : Nat} {view : GvspView}

theorem record (agrees : Agrees params sent fingerprints) (packet : sent.IsPacket k view)
    (reference : Option Fingerprints) : Agrees params sent (fingerprints.record params view reference).1 := by
  obtain rfl := packet.packetId
  have kind := packet.contentType
  unfold Fingerprints.record
  cases tagged : contentTag view.contentType with
  | none => exact agrees
  | some tag =>
    simp only
    split
    · rename_i isTrailer
      refine ⟨agrees.head, fun entry isEntry => ?_⟩
      cases isEntry
      rw [isTrailer] at tagged
      cases tagged
      exact ⟨view.packetId, kind.symm.trans isTrailer, packet.inside, by rw [packet.data]⟩
    · split
      · rename_i inHead
        refine ⟨fun position hash isHash => ?_, agrees.trailer⟩
        by_cases here : position = ⟨view.packetId, inHead⟩
        · subst here
          simp only [Function.update_self] at isHash
          cases isHash
          simp only
          rw [← kind, ← packet.data]
          exact ⟨tag, tagged, rfl⟩
        · simp only [Function.update_of_ne here] at isHash
          exact agrees.head position hash isHash
      · exact agrees

theorem undiverged {reference : Option Fingerprints} (agrees : ∀ known ∈ reference, Agrees params sent known)
    (packet : sent.IsPacket k view) : (fingerprints.record params view reference).2 = false := by
  obtain rfl := packet.packetId
  have kind := packet.contentType
  unfold Fingerprints.record
  cases tagged : contentTag view.contentType with
  | none => rfl
  | some tag =>
    cases reference with
    | none =>
      simp only
      split
      · rfl
      · split <;> rfl
    | some known =>
      have recorded := agrees known rfl
      simp only
      split
      · rename_i isTrailer
        rw [isTrailer] at tagged
        cases tagged
        cases isEntry : known.trailer with
        | none => simp [isEntry]
        | some entry =>
          obtain ⟨last, lastKind, inside, rfl⟩ := recorded.trailer entry isEntry
          have isLast := SentFrame.trailer_iff.mp lastKind
          have isHere := SentFrame.trailer_iff.mp (kind.symm.trans isTrailer)
          have here := packet.inside
          rw [SentFrame.nPackets] at inside here
          obtain rfl : last = view.packetId := by omega
          simp [isEntry, packet.data]
      · split
        · rename_i inHead
          cases isHash : known.head ⟨view.packetId, inHead⟩ with
          | none => simp [isHash]
          | some hash =>
            obtain ⟨other, isTag, rfl⟩ := recorded.head _ hash isHash
            simp only at isTag
            rw [← kind, tagged] at isTag
            cases isTag
            simp [isHash, packet.data]
        · rfl

end Agrees

/-- The frame in flight has taken the packets `arrived` of the sent frame, in
this order, and nothing else. -/
structure Collects (params : StreamParams) (sent : SentFrame) (arrived : List Nat) (frame : FrameInFlight) : Prop where
  valid : Valid params frame
  clean : frame.error = none
  two_le : 2 ≤ frame.nPackets
  inside : ∀ k ∈ arrived, k < sent.nPackets
  taken : frame.accepted.map (fun view => (view.packetId, view.contentType, view.data)) =
    arrived.map fun k => (k, sent.kind k, sent.body k)
  sized : frame.blockKnown = true → frame.blockSize = sent.firstLength ∧ sent.nPackets ≤ frame.nPackets
  fingerprints : Agrees params sent frame.fingerprints
  leader : 0 ∈ arrived → frame.leader = ImageLeader.parse sent.leader

namespace Collects

variable {params : StreamParams} {sent : SentFrame} {arrived : List Nat} {frame : FrameInFlight} {k : Nat}

theorem untouched {later : FrameInFlight} (collects : Collects params sent arrived frame)
    (same : Untouched frame later) : Collects params sent arrived later := by
  refine ⟨same.valid collects.valid, same.error.trans collects.clean, ?_, collects.inside, ?_, ?_, ?_, ?_⟩
  · rw [same.nPackets]
    exact collects.two_le
  · rw [same.accepted]
    exact collects.taken
  · rw [same.data.blockKnown, same.data.blockSize, same.nPackets]
    exact collects.sized
  · rw [same.fingerprints]
    exact collects.fingerprints
  · rw [same.leader]
    exact collects.leader

theorem contents (collects : Collects params sent arrived frame) : Contents params frame frame.accepted :=
  collects.valid.contents collects.clean

theorem accepted_packetIds (collects : Collects params sent arrived frame) :
    frame.accepted.map (·.packetId) = arrived := by
  have ids := congrArg (List.map Prod.fst) collects.taken
  simpa [List.map_map, Function.comp_def] using ids

theorem distinct (collects : Collects params sent arrived frame) : arrived.Nodup := by
  rw [← collects.accepted_packetIds]
  exact (collects.valid.flagged collects.clean).distinct

theorem isReceived_iff (collects : Collects params sent arrived frame) :
    isReceived frame.slot.packets k = true ↔ k ∈ arrived := by
  rw [(collects.valid.flagged collects.clean).received_iff, collects.accepted_packetIds]

theorem accepted_isPacket (collects : Collects params sent arrived frame) {view : GvspView}
    (accepted : view ∈ frame.accepted) : sent.IsPacket view.packetId view := by
  have logged : (view.packetId, view.contentType, view.data) ∈
      arrived.map fun k => (k, sent.kind k, sent.body k) := by
    rw [← collects.taken]
    exact List.mem_map_of_mem accepted
  obtain ⟨k, isArrived, same⟩ := List.mem_map.mp logged
  obtain ⟨isId, isKind, isBody⟩ : k = view.packetId ∧ sent.kind k = view.contentType ∧ sent.body k = view.data := by
    simpa using same
  exact ⟨isId ▸ collects.inside k isArrived, rfl, isId ▸ isKind.symm, isId ▸ isBody.symm⟩

theorem exists_accepted (collects : Collects params sent arrived frame) (isArrived : k ∈ arrived) :
    ∃ view ∈ frame.accepted, view.packetId = k := by
  rw [← collects.accepted_packetIds] at isArrived
  exact List.mem_map.mp isArrived

theorem payloads_eq (collects : Collects params sent arrived frame) :
    payloads frame.accepted = (arrived.filter fun k => sent.kind k == .payload).map sent.payload := by
  have taken := congrArg
    (fun log => (log.filter fun (packet : Nat × ContentType × List UInt8) => packet.2.1 == .payload).map
      fun packet => (packet.1, packet.2.2)) collects.taken
  simp only [List.filter_map, List.map_map] at taken
  refine taken.trans (List.map_congr_left fun k isPayload => ?_)
  have kind : sent.kind k = .payload := by simpa using (List.mem_filter.mp isPayload).2
  obtain ⟨positive, inside⟩ := SentFrame.payload_iff.mp kind
  simp only [Function.comp_apply, SentFrame.payload, SentFrame.body_payload positive inside]

theorem blockKnown_iff (collects : Collects params sent arrived frame) :
    frame.blockKnown = true ↔ 1 ∈ arrived ∧ 1 ≤ sent.blocks := by
  rw [collects.contents.blockKnown_iff, collects.payloads_eq, List.map_map]
  have ids : (Prod.fst ∘ sent.payload) = id := rfl
  rw [ids, List.map_id, List.mem_filter, beq_iff_eq, SentFrame.payload_iff]
  simp

theorem trailerSeen_iff (collects : Collects params sent arrived frame) :
    frame.trailerSeen = true ↔ sent.blocks + 1 ∈ arrived := by
  rw [collects.contents.trailerSeen_iff]
  constructor
  · rintro ⟨view, accepted, isTrailer⟩
    have packet := collects.accepted_isPacket accepted
    have last := SentFrame.trailer_iff.mp (packet.contentType.symm.trans isTrailer)
    have inside := packet.inside
    rw [SentFrame.nPackets] at inside
    rw [← collects.accepted_packetIds]
    exact List.mem_map.mpr ⟨view, accepted, by omega⟩
  · intro isArrived
    obtain ⟨view, accepted, isLast⟩ := collects.exists_accepted isArrived
    refine ⟨view, accepted, ?_⟩
    rw [(collects.accepted_isPacket accepted).contentType, isLast]
    exact SentFrame.kind_trailer (Nat.lt_succ_self _)

theorem nPackets_eq (collects : Collects params sent arrived frame) (seen : frame.trailerSeen = true) :
    frame.nPackets = sent.nPackets := by
  obtain ⟨view, accepted, isTrailer, last⟩ := collects.contents.lastTrailer seen
  have packet := collects.accepted_isPacket accepted
  have beyond := SentFrame.trailer_iff.mp (packet.contentType.symm.trans isTrailer)
  have inside := packet.inside
  rw [SentFrame.nPackets] at inside ⊢
  omega

theorem trailerSeen_of_last (collects : Collects params sent arrived frame)
    (last : frame.nPackets - 1 ∈ arrived) : frame.trailerSeen = true := by
  have two_le := collects.two_le
  obtain ⟨view, accepted, isLast⟩ := collects.exists_accepted last
  have fits := collects.contents.fitting view accepted
  refine collects.contents.trailerSeen_iff.mpr ⟨view, accepted, ?_⟩
  rw [FitsFrame] at fits
  cases kind : view.contentType <;> simp only [kind] at fits
  case leader => omega
  case payload => omega
  case trailer => rfl

theorem allReceived_iff (collects : Collects params sent arrived frame) :
    frame.allReceived = true ↔ ∀ k < sent.nPackets, k ∈ arrived := by
  have ends := collects.valid.inBounds.prefixEnd
  have sized := collects.valid.inBounds.packets_length
  have lower := ends.lower
  have upper := ends.upper
  have two_le := collects.two_le
  rw [sized] at upper
  simp only [FrameInFlight.allReceived, beq_iff_eq]
  constructor
  · intro isLast k inside
    have seen := collects.trailerSeen_of_last
      (collects.isReceived_iff.mp (ends.received (frame.nPackets - 1) (by omega)))
    rw [← collects.nPackets_eq seen] at inside
    exact collects.isReceived_iff.mp (ends.received k (by omega))
  · intro all
    have seen := collects.trailerSeen_iff.mpr (all _ (Nat.lt_succ_self _))
    have nPackets := collects.nPackets_eq seen
    by_contra short
    have missing := ends.maximal
    rw [collects.isReceived_iff.mpr (all _ (by omega))] at missing
    cases missing

section Finished

variable (all : ∀ k < sent.nPackets, k ∈ arrived)
include all

theorem payload_arrived {position : Nat} (inside : position < sent.data.length) :
    position / sent.blockSize + 1 ∈ arrived := by
  refine all _ ?_
  have := sent.le_blocks inside
  rw [SentFrame.nPackets]
  omega

theorem finished_known (collects : Collects params sent arrived frame) (some_data : 1 ≤ sent.blocks) :
    frame.blockKnown = true :=
  collects.blockKnown_iff.mpr ⟨all 1 (by rw [SentFrame.nPackets]; omega), some_data⟩

theorem range_subset_covered (collects : Collects params sent arrived frame) (fits : sent.Fits params)
    (some_data : 1 ≤ sent.blocks) :
    List.range sent.data.length ⊆
      Blocks.covered params.payloadSize frame.blockSize ((payloads frame.accepted).map toBlock) := by
  have blockSize_pos := sent.blockSize_pos
  have data_le := fits.data_le
  obtain ⟨blockSize, _⟩ := collects.sized (collects.finished_known all some_data)
  intro position inRange
  have inside := List.mem_range.mp inRange
  have last := sent.le_blocks inside
  have whole := Nat.div_mul_le_self position sent.blockSize
  have rest := Nat.lt_div_mul_add (a := position) (show 0 < sent.blockSize by omega)
  have placed := SentFrame.offset_eq (Nat.le_add_left 1 (position / sent.blockSize)) last
  rw [Nat.add_sub_cancel] at placed
  refine Blocks.mem_covered.mpr ⟨toBlock (sent.payload (position / sent.blockSize + 1)), ?_, ?_, ?_⟩
  · rw [collects.payloads_eq]
    refine List.mem_map_of_mem (List.mem_map_of_mem (List.mem_filter.mpr ⟨payload_arrived all inside, ?_⟩))
    rw [SentFrame.kind_payload (Nat.le_add_left 1 _) last]
    rfl
  · simp only [Blocks.offset, toBlock, SentFrame.payload, blockSize, Nat.add_sub_cancel, placed]
    exact whole
  · simp only [Blocks.blockEnd, Blocks.placedLength, Blocks.offset, toBlock, SentFrame.payload, blockSize,
      SentFrame.block_length, Nat.add_sub_cancel, placed]
    omega

theorem extent_le (collects : Collects params sent arrived frame) (some_data : 1 ≤ sent.blocks) :
    Blocks.extent params.payloadSize frame.blockSize ((payloads frame.accepted).map toBlock) ≤ sent.data.length := by
  obtain ⟨blockSize, _⟩ := collects.sized (collects.finished_known all some_data)
  refine Blocks.extent_le fun block present => ?_
  rw [collects.payloads_eq, List.map_map] at present
  obtain ⟨k, isPayload, rfl⟩ := List.mem_map.mp present
  have kind : sent.kind k = .payload := by simpa using (List.mem_filter.mp isPayload).2
  obtain ⟨positive, inside⟩ := SentFrame.payload_iff.mp kind
  have starts := sent.offset_lt positive inside
  simp only [Function.comp_apply, Blocks.blockEnd, Blocks.placedLength, Blocks.offset, toBlock, SentFrame.payload,
    blockSize, SentFrame.block_length, SentFrame.offset_eq positive inside]
  omega

theorem finished_sizes (collects : Collects params sent arrived frame) (fits : sent.Fits params) :
    frame.receivedSize = sent.data.length ∧ frame.dataEnd = sent.data.length := by
  rcases Nat.eq_zero_or_pos sent.blocks with none | some_data
  · have unknown : frame.blockKnown = false := by
      refine Bool.eq_false_iff.mpr fun known => ?_
      have := (collects.blockKnown_iff.mp known).2
      omega
    have empty : sent.data.length = 0 := by
      by_contra nonempty
      have some_data := sent.le_blocks (Nat.pos_of_ne_zero nonempty)
      rw [none] at some_data
      cases some_data
    obtain ⟨_, receivedSize, dataEnd⟩ := collects.contents.waiting unknown
    exact ⟨receivedSize.trans empty.symm, dataEnd.trans empty.symm⟩
  · have placed := (collects.contents.placed (collects.finished_known all some_data)).2.2
    have covers := (List.subperm_of_subset List.nodup_range
      (collects.range_subset_covered all fits some_data)).length_le
    rw [Blocks.covered_length, List.length_range] at covers
    have ends := collects.extent_le all some_data
    have total_le := placed.laidOut.total_le_extent
    rw [placed.size, placed.furthest]
    omega

theorem finished_data (collects : Collects params sent arrived frame) (fits : sent.Fits params)
    (status : FrameStatus) : (frame.toFrame params status).data = sent.data := by
  obtain ⟨receivedSize, dataEnd⟩ := collects.finished_sizes all fits
  have bounds := collects.valid.inBounds
  refine List.ext_getElem? fun position => ?_
  rcases Nat.lt_or_ge position sent.data.length with inside | beyond
  · rw [getElem?_data bounds status (by omega)]
    obtain ⟨view, accepted, carries, shown, _⟩ := collects.valid.carried collects.clean
      (receivedSize.trans dataEnd.symm) (show position < frame.dataEnd by omega)
    have packet := collects.accepted_isPacket accepted
    obtain ⟨positive, payload⟩ := SentFrame.payload_iff.mp (packet.contentType.symm.trans carries.1)
    have some_data : 1 ≤ sent.blocks := positive.trans payload
    obtain ⟨blockSize, _⟩ := collects.sized (collects.finished_known all some_data)
    obtain ⟨_, _, above, below⟩ := carries
    rw [blockSize, SentFrame.offset_eq positive payload] at above below shown
    rw [packet.data, SentFrame.body_payload positive payload] at below shown
    rw [shown]
    exact SentFrame.getElem?_block above below
  · rw [List.getElem?_eq_none beyond, List.getElem?_eq_none]
    rw [data_length bounds]
    omega

end Finished

theorem payloadKind_eq (collects : Collects params sent arrived frame) (isArrived : 0 ∈ arrived) :
    frame.payloadKind = sent.payloadKind := by
  rw [FrameInFlight.payloadKind, collects.leader isArrived]
  rfl

section Taking

variable {view : GvspView}

structure Clean (sent : SentFrame) (content : FrameInFlight) : Prop where
  error : content.error = none
  sized : content.blockKnown = true → content.blockSize = sent.firstLength ∧ sent.nPackets ≤ content.nPackets

theorem processLeader_clean (collects : Collects params sent arrived frame) (packet : sent.IsPacket 0 view)
    (systemNow : Nat) : Clean sent (frame.processLeader view systemNow) := by
  rw [FrameInFlight.processLeader, if_neg (by simp [collects.clean]), if_neg (by simp [packet.packetId])]
  exact ⟨collects.clean, collects.sized⟩

theorem trailer_accepted (collects : Collects params sent arrived frame) (fits : sent.Fits params)
    (packet : sent.IsPacket (sent.blocks + 1) view) (fresh : sent.blocks + 1 ∉ arrived) :
    ¬ frame.trailerRejected params view := by
  have limit : sent.nPackets ≤ trailerLimit params frame := by
    unfold trailerLimit
    split
    · rename_i known
      obtain ⟨blockSize, _⟩ := collects.sized known
      rw [blockSize]
      exact le_min (sent.nPackets_le_fitting fits (collects.blockKnown_iff.mp known).2) fits.nPackets_le
    · exact sent.nPackets_le_packetLimit fits
  have uncontradicted : (frame.slot.packets.drop (sent.blocks + 1)).any (·.received) = false := by
    refine Bool.eq_false_iff.mpr fun contradicted => ?_
    obtain ⟨state, present, received⟩ := List.any_eq_true.mp contradicted
    obtain ⟨index, isState⟩ := List.mem_iff_getElem?.mp present
    rw [List.getElem?_drop] at isState
    have isReceived : isReceived frame.slot.packets (sent.blocks + 1 + index) = true := by
      simp [isReceived, isState, received]
    have isArrived := collects.isReceived_iff.mp isReceived
    have inside := collects.inside _ isArrived
    rw [SentFrame.nPackets] at inside
    obtain rfl : index = 0 := by omega
    exact fresh isArrived
  rw [SentFrame.nPackets] at limit
  rw [FrameInFlight.trailerRejected, packet.packetId, uncontradicted]
  rintro (zero | beyond | contradicted)
  · omega
  · omega
  · cases contradicted

theorem processTrailer_clean (collects : Collects params sent arrived frame) (fits : sent.Fits params)
    (packet : sent.IsPacket (sent.blocks + 1) view) (fresh : sent.blocks + 1 ∉ arrived) :
    ∃ content, frame.processTrailer params view = .ok content ∧ Clean sent content := by
  have accepted := collects.trailer_accepted fits packet fresh
  refine ⟨_, processTrailer_eq collects.valid.inBounds.blockSize_pos collects.clean, ?_⟩
  rw [if_neg accepted, packet.packetId]
  by_cases resized : frame.nPackets ≠ sent.blocks + 1 + 1
  · rw [if_pos resized]
    exact ⟨collects.clean, fun known => ⟨(collects.sized known).1, le_rfl⟩⟩
  · rw [if_neg resized]
    exact ⟨collects.clean, collects.sized⟩

theorem payloadLimit_ge (collects : Collects params sent arrived frame) (fits : sent.Fits params) :
    sent.blocks ≤ payloadLimit params frame := by
  have two_le := collects.two_le
  unfold payloadLimit
  split
  · rename_i sized
    have enough : sent.nPackets ≤ frame.nPackets := by
      rcases sized with known | seen
      · exact (collects.sized known).2
      · exact (collects.nPackets_eq seen).ge
    rw [SentFrame.nPackets] at enough
    omega
  · have limited := sent.nPackets_le_packetLimit fits
    rw [SentFrame.nPackets] at limited
    omega

theorem placeable {fixed : FrameInFlight} {id : Nat} (fits : sent.Fits params)
    (capacity : fixed.slot.data.length = params.payloadSize) (blockSize : fixed.blockSize = sent.firstLength)
    (enough : sent.nPackets ≤ fixed.nPackets) (positive : 1 ≤ id) (inside : id ≤ sent.blocks) :
    Placeable fixed (sent.payload id) := by
  have starts := sent.offset_lt positive inside
  have data_le := fits.data_le
  rw [SentFrame.nPackets] at enough
  refine ⟨positive, ?_, ?_, ?_⟩
  · simp only [SentFrame.payload]
    omega
  · rw [blockSize]
    exact SentFrame.block_length_le
  · simp only [SentFrame.payload]
    rw [blockSize, SentFrame.offset_eq positive inside, capacity]
    omega

theorem held_eq (collects : Collects params sent arrived frame) (unknown : frame.blockKnown = false) :
    frame.held = (arrived.filter fun k => sent.kind k == .payload).map sent.payload :=
  (collects.contents.waiting unknown).1.trans collects.payloads_eq

theorem mem_filter_payload {ids : List Nat} (present : k ∈ ids.filter fun k => sent.kind k == .payload) :
    1 ≤ k ∧ k ≤ sent.blocks :=
  SentFrame.payload_iff.mp (by simpa using (List.mem_filter.mp present).2)

theorem hold_clean (collects : Collects params sent arrived frame) (fits : sent.Fits params)
    (unknown : frame.blockKnown = false) (positive : 1 ≤ k) (inside : k ≤ sent.blocks) (fresh : k ∉ arrived)
    (stats : StreamStats) :
    ∃ content, frame.hold k (sent.block k) stats = (content, stats) ∧ content.error = none ∧
      content.blockKnown = false := by
  have distinct := (collects.distinct.filter fun k => sent.kind k == .payload).concat
    (fun present => fresh (List.mem_of_mem_filter present))
  rw [List.concat_eq_append] at distinct
  have bytes := sent.heldSize_le distinct (fun id present => by
    rcases List.mem_append.mp present with old | new
    · exact mem_filter_payload old
    · rw [List.mem_singleton.mp new]
      exact ⟨positive, inside⟩)
  rw [List.map_append, List.map_singleton, heldSize_snoc, ← collects.held_eq unknown,
    ← collects.contents.heldBytes] at bytes
  have data_le := fits.data_le
  have room : ¬ (frame.countHeld (sent.block k)).slot.data.length + maximumPacketSize <
      (frame.countHeld (sent.block k)).heldBytes := by
    rw [show (frame.countHeld (sent.block k)).slot.data.length = _ from collects.valid.inBounds.data_length,
      show (frame.countHeld (sent.block k)).heldBytes = frame.heldBytes + (sent.block k).length from rfl]
    simp only [SentFrame.payload] at bytes
    omega
  have grown_error : ((frame.countHeld (sent.block k)).growTo (k + 2)).error = none :=
    growTo_error.trans collects.clean
  have grown_known : ((frame.countHeld (sent.block k)).growTo (k + 2)).blockKnown = false :=
    growTo_sameData.blockKnown.trans unknown
  exact ⟨_, if_neg room, grown_error, grown_known⟩

theorem withBlockSize_clean (collects : Collects params sent arrived frame) (fits : sent.Fits params)
    (packet : sent.IsPacket 1 view) (some_data : 1 ≤ sent.blocks) :
    (frame.withBlockSize params view).error = none ∧
      (frame.withBlockSize params view).blockSize = sent.firstLength ∧
      sent.nPackets ≤ (frame.withBlockSize params view).nPackets := by
  have first_pos := SentFrame.firstLength_pos some_data
  have first : view.data.length = sent.firstLength := by
    rw [packet.data, SentFrame.body_payload le_rfl some_data, SentFrame.block_length, SentFrame.firstLength]
    simp
  have learned : (frame.learnBlockSize view).blockSize = sent.firstLength := by
    have nonempty : view.data.isEmpty = false := by
      rw [List.isEmpty_eq_false_iff, ← List.length_pos_iff]
      omega
    simp only [FrameInFlight.learnBlockSize, nonempty, first]
    rfl
  have enough := sent.nPackets_le_fitting fits some_data
  rw [← learned] at enough
  unfold FrameInFlight.withBlockSize
  by_cases seen : frame.trailerSeen = false
  · simp only [if_pos seen]
    exact ⟨collects.clean, learned, le_min enough fits.nPackets_le⟩
  · have nPackets := collects.nPackets_eq (by simpa using seen)
    simp only [if_neg seen, if_neg (show ¬ fittingPackets params.payloadSize (frame.learnBlockSize view).blockSize <
      frame.nPackets by omega)]
    exact ⟨collects.clean, learned, nPackets.ge⟩

theorem processPayload_clean (collects : Collects params sent arrived frame) (fits : sent.Fits params)
    (packet : sent.IsPacket k view) (positive : 1 ≤ k) (inside : k ≤ sent.blocks) (fresh : k ∉ arrived)
    (stats : StreamStats) :
    ∃ content later, frame.processPayload params view stats = .ok (content, later) ∧ Clean sent content := by
  have failed : ¬ frame.error.isSome = true := by simp [collects.clean]
  have capacity := collects.valid.inBounds.data_length
  have small : frame.slot.data.length < 2 ^ 63 := by
    rw [capacity]
    exact params.payloadSize_lt
  have limit := collects.payloadLimit_ge fits
  have data_eq : view.data = sent.block k := packet.data.trans (SentFrame.body_payload positive inside)
  unfold FrameInFlight.processPayload
  rw [if_neg failed]
  by_cases isFirst : view.packetId = 1 ∧ (!frame.blockKnown) = true
  · obtain ⟨first, unknown⟩ := isFirst
    obtain rfl : k = 1 := packet.packetId.symm.trans first
    obtain ⟨fixed_clean, blockSize, enough⟩ := collects.withBlockSize_clean fits packet inside
    have blockFixed : BlockFixed params frame (frame.withBlockSize params view) :=
      withBlockSize_fixed collects.valid.inBounds
    have fixed_capacity := blockFixed.inBounds.data_length
    have places : ∀ id, 1 ≤ id → id ≤ sent.blocks → Placeable (frame.withBlockSize params view) (sent.payload id) :=
      fun id id_pos id_le => placeable fits fixed_capacity blockSize enough id_pos id_le
    have fixed_limit : ¬ (1 < 1 ∨ payloadLimit params (frame.withBlockSize params view) < 1) := by
      have three_le : 3 ≤ sent.nPackets := Nat.add_le_add_right inside 2
      rw [payloadLimit, if_pos (Or.inl blockFixed.blockKnown)]
      omega
    obtain ⟨later, mismatches, result, clean, later_blockSize, later_nPackets⟩ := placeAll_clean fixed_clean
      (by rw [fixed_capacity]; exact params.payloadSize_lt) (places 1 le_rfl inside)
      (fun payload isHeld => by
        rw [blockFixed.held, collects.held_eq (by simpa using unknown)] at isHeld
        obtain ⟨id, isPayload, rfl⟩ := List.mem_map.mp isHeld
        exact places id (mem_filter_payload isPayload).1 (mem_filter_payload isPayload).2) stats
    refine ⟨later, { stats with sizeMismatchErrors := mismatches }, ?_, clean, fun _ => ?_⟩
    · simp only [first, unknown, and_self, if_true, fixBlockSize_eq collects.valid.inBounds.blockSize_pos,
        Checked.ok_bind]
      rw [if_neg (by simp [fixed_clean]), lastPayload_eq, Checked.ok_bind, if_neg fixed_limit]
      simp only [blockFixed.blockKnown, Bool.not_true, Bool.false_eq_true, if_false]
      rw [data_eq]
      exact result
    · rw [later_blockSize, later_nPackets]
      exact ⟨blockSize, enough⟩
  rw [if_neg isFirst, Checked.pure_eq, Checked.ok_bind]
  beta_reduce
  rw [if_neg failed, lastPayload_eq, Checked.ok_bind,
    if_neg (by rw [packet.packetId]; omega), packet.packetId, data_eq]
  cases known : frame.blockKnown with
  | false =>
    obtain ⟨content, result, clean, still⟩ := collects.hold_clean fits known positive inside fresh stats
    refine ⟨content, stats, congrArg Except.ok result, clean, fun now_known => ?_⟩
    rw [still] at now_known
    cases now_known
  | true =>
    obtain ⟨blockSize, enough⟩ := collects.sized known
    obtain ⟨later, mismatches, result, clean, later_blockSize, later_nPackets⟩ := placeAll_clean collects.clean small
      (placeable fits capacity blockSize enough positive inside)
      (fun payload isHeld => by
        rw [(collects.contents.placed known).1] at isHeld
        cases isHeld) stats
    refine ⟨later, _, result, clean, fun _ => ?_⟩
    rw [later_blockSize, later_nPackets]
    exact ⟨blockSize, enough⟩

theorem processContent_clean (collects : Collects params sent arrived frame) (fits : sent.Fits params)
    (packet : sent.IsPacket k view) (fresh : k ∉ arrived) (systemNow : Nat) (stats : StreamStats) :
    ∃ content later, frame.processContent params systemNow view stats = .ok (some (content, later)) ∧
      Clean sent content := by
  have kind := packet.contentType
  have inside := packet.inside
  rw [SentFrame.nPackets] at inside
  unfold FrameInFlight.processContent
  rcases Nat.eq_zero_or_pos k with rfl | positive
  · rw [kind]
    exact ⟨_, stats, rfl, collects.processLeader_clean packet systemNow⟩
  rcases Nat.lt_or_ge sent.blocks k with last | payload
  · obtain rfl : k = sent.blocks + 1 := by omega
    obtain ⟨content, result, clean⟩ := collects.processTrailer_clean fits packet fresh
    rw [kind, SentFrame.kind_trailer last]
    exact ⟨content, stats, by rw [result]; rfl, clean⟩
  · obtain ⟨content, later, result, clean⟩ :=
      collects.processPayload_clean fits packet positive payload fresh stats
    rw [kind, SentFrame.kind_payload positive payload]
    exact ⟨content, later, by rw [result]; rfl, clean⟩

theorem processContent_knows {systemNow : Nat} {content : FrameInFlight} {stats later : StreamStats}
    (collects : Collects params sent arrived frame) (packet : sent.IsPacket k view)
    (result : frame.processContent params systemNow view stats = .ok (some (content, later)))
    (isArrived : 0 ∈ arrived ∨ 0 = k) : content.leader = ImageLeader.parse sent.leader := by
  rcases Nat.eq_zero_or_pos k with rfl | positive
  · rw [FrameInFlight.processContent, packet.contentType, SentFrame.kind_zero] at result
    cases result
    rw [FrameInFlight.processLeader, if_neg (by simp [collects.clean]), if_neg (by simp [packet.packetId]),
      packet.data]
    rfl
  · have other : view.contentType ≠ .leader := fun isLeader => by
      have first := SentFrame.leader_iff.mp (packet.contentType.symm.trans isLeader)
      omega
    rw [FrameInFlight.processContent_leader other result]
    exact collects.leader (isArrived.resolve_right positive.ne)

theorem take (collects : Collects params sent arrived frame) (fits : sent.Fits params)
    (packet : sent.IsPacket k view) (fresh : k ∉ arrived) (systemNow : Nat) (stats : StreamStats) :
    ∃ content mismatches settled resent diverged,
      frame.processContent params systemNow view stats =
        .ok (some (content, { stats with sizeMismatchErrors := mismatches })) ∧
      content.settle params view { stats with sizeMismatchErrors := mismatches } =
        .ok (settled, { stats with sizeMismatchErrors := mismatches, resentPackets := resent }, diverged) ∧
      Absorbs params view frame settled ∧ Collects params sent (arrived ++ [k]) settled ∧
      diverged = (frame.fingerprints.record params view frame.replayOf).2 := by
  have unreceived : isReceived frame.slot.packets view.packetId = false := by
    rw [packet.packetId]
    exact Bool.eq_false_iff.mpr fun received => fresh (collects.isReceived_iff.mp received)
  obtain ⟨content, later, result, clean⟩ := collects.processContent_clean fits packet fresh systemNow stats
  rcases StreamWorld.processContent_spec systemNow stats collects.valid unreceived with
    refused | ⟨content', mismatches, result', takes⟩
  · rw [result] at refused
    cases refused
  rw [result] at result'
  cases result'
  obtain ⟨settled, resent, diverged, settles, absorbs, error, nPackets, sameData, recorded⟩ :=
    settle_absorbs collects.valid unreceived takes { stats with sizeMismatchErrors := mismatches }
  obtain ⟨recorded_fingerprints, recorded_diverged⟩ := Prod.mk.inj recorded
  have settled_clean : settled.error = none := error.trans clean.error
  refine ⟨content, mismatches, settled, resent, diverged, result, settles, absorbs,
    ⟨absorbs.valid, settled_clean, absorbs.two_le collects.two_le, ?_, ?_, ?_, ?_, ?_⟩, recorded_diverged⟩
  · intro other present
    rcases List.mem_append.mp present with old | new
    · exact collects.inside other old
    · exact List.mem_singleton.mp new ▸ packet.inside
  · rw [absorbs.logged, if_pos settled_clean, List.map_append, List.map_append, collects.taken, List.map_singleton,
      List.map_singleton, packet.packetId, packet.contentType, packet.data]
  · rw [sameData.blockKnown, sameData.blockSize, nPackets]
    exact clean.sized
  · rw [recorded_fingerprints]
    exact collects.fingerprints.record packet _
  · intro present
    rw [FrameInFlight.settle_leader settles]
    exact collects.processContent_knows packet result (by simpa using present)

end Taking

end Collects

section Opening

variable {params : StreamParams} {sent : SentFrame} {k : Nat} {view : GvspView}

theorem SentFrame.IsPacket.expected (packet : sent.IsPacket k view) (opener : k = 0 → sent.Supported)
    (room : packetProtocolOverhead view.extendedIds < params.scpsPacketSize) :
    ∃ nPackets, computeNExpectedPackets params view = .ok nPackets ∧ 2 ≤ nPackets := by
  have nonzero : estimatedBlockSize params view.extendedIds ≠ 0 := Nat.sub_ne_zero_of_lt room
  have two_le : 2 ≤ min (fittingPackets params.payloadSize (estimatedBlockSize params view.extendedIds))
      maxFramePackets := le_min (Nat.le_add_left 2 _) (by decide)
  have kind := packet.contentType
  unfold computeNExpectedPackets
  simp only [if_neg nonzero, Checked.divCeil_ok (Nat.pos_of_ne_zero nonzero), Checked.ok_bind, Checked.pure_eq]
  rcases Nat.eq_zero_or_pos k with rfl | positive
  · have supported := opener rfl
    rw [kind, SentFrame.kind_zero, packet.data]
    unfold SentFrame.Supported SentFrame.payloadType at supported
    simp only [show sent.body 0 = sent.leader from rfl]
    cases payloadType : (ImageLeader.parse sent.leader).map (·.payloadType) with
    | none => simp [payloadType] at supported
    | some payloadType' =>
      simp only [payloadType, Option.some.injEq] at supported
      simp only
      rw [if_pos supported]
      exact ⟨_, rfl, two_le⟩
  rcases Nat.lt_or_ge sent.blocks k with last | inside
  · rw [kind, SentFrame.kind_trailer last]
    simp only
    split
    · rename_i inRange
      exact ⟨_, rfl, inRange.1⟩
    · exact ⟨_, rfl, two_le⟩
  · rw [kind, SentFrame.kind_payload positive inside]
    exact ⟨_, rfl, two_le⟩

theorem newFrame_collects {now nPackets opening : Nat} {slot : BufSlot} {replayOf : Option Fingerprints}
    (expected : computeNExpectedPackets params view = .ok nPackets) (two_le : 2 ≤ nPackets)
    (sized : slot.data.length = params.payloadSize) :
    Collects params sent [] (StreamWorld.newFrame params view now nPackets opening slot replayOf) := by
  refine ⟨newFrame_valid expected (by omega) sized, rfl, two_le, ?_, rfl, ?_, ⟨?_, ?_⟩, ?_⟩
  · intro k arrived
    cases arrived
  · intro known
    cases known
  · intro position hash recorded
    cases recorded
  · intro entry recorded
    cases recorded
  · intro present
    cases present

end Opening

end Telegenic.Stream
