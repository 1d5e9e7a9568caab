import Telegenic.Library.Blocks
import Telegenic.Stream.PacketFlags

/-! Placing payload packets. Packet `k` carries block `k - 1` of the frame; the
buffer then holds every placed packet's bytes at its block, the received size
adds the lengths up and the data end is the end of the furthest block. -/

set_option autoImplicit false

namespace Telegenic.Stream

open Library Proto Proto.Gvsp

/-- The most packets a frame can have in blocks of one size: a leader, the
blocks and a trailer. -/
def fittingPackets (payloadSize blockSize : Nat) : Nat :=
  (payloadSize + blockSize - 1) / blockSize + 2

def toBlock (payload : Nat × List UInt8) : Blocks.Block UInt8 := (payload.1 - 1, payload.2)

/-- The payload packets `placed` are what the frame's buffer and data counters
consist of. -/
structure Placed (capacity : Nat) (frame : FrameInFlight) (placed : List (Nat × List UInt8)) : Prop where
  laidOut : Blocks.LaidOut capacity frame.blockSize (placed.map toBlock)
  size : frame.receivedSize = Blocks.total capacity frame.blockSize (placed.map toBlock)
  furthest : frame.dataEnd = Blocks.extent capacity frame.blockSize (placed.map toBlock)
  stored : Blocks.Stored capacity frame.blockSize (placed.map toBlock) frame.slot.data

namespace Placed

variable {capacity : Nat} {frame other : FrameInFlight} {placed : List (Nat × List UInt8)}

theorem receivedSize_le (holds : Placed capacity frame placed) : frame.receivedSize ≤ frame.dataEnd := by
  rw [holds.size, holds.furthest]
  exact holds.laidOut.total_le_extent

theorem dataEnd_le (holds : Placed capacity frame placed) : frame.dataEnd ≤ capacity := by
  rw [holds.furthest]
  exact holds.laidOut.extent_le_capacity

theorem congr (holds : Placed capacity frame placed) (blockSize : other.blockSize = frame.blockSize)
    (receivedSize : other.receivedSize = frame.receivedSize) (dataEnd : other.dataEnd = frame.dataEnd)
    (data : other.slot.data = frame.slot.data) : Placed capacity other placed := by
  constructor
  · rw [blockSize]
    exact holds.laidOut
  · rw [receivedSize, blockSize]
    exact holds.size
  · rw [dataEnd, blockSize]
    exact holds.furthest
  · rw [blockSize, data]
    exact holds.stored

theorem perm {others : List (Nat × List UInt8)} (holds : Placed capacity frame placed)
    (same : placed.Perm others) : Placed capacity frame others := by
  have blocks := same.map toBlock
  exact ⟨holds.laidOut.perm blocks, by rw [holds.size, Blocks.total_perm blocks],
    by rw [holds.furthest, Blocks.extent_perm blocks], holds.stored.perm blocks⟩

theorem empty (receivedSize : frame.receivedSize = 0) (dataEnd : frame.dataEnd = 0) :
    Placed capacity frame [] :=
  ⟨⟨List.nodup_nil, by simp, by simp⟩, by simp [receivedSize], by simp [dataEnd],
    fun block present => by simp at present⟩

end Placed

theorem offset_lt_of_fits {capacity blockSize nPackets packetId : Nat} (positive : 1 ≤ packetId)
    (inRange : packetId + 2 ≤ nPackets) (blockSize_pos : 1 ≤ blockSize)
    (fits : nPackets ≤ fittingPackets capacity blockSize) :
    (packetId - 1) * blockSize < capacity := by
  have count : packetId ≤ (capacity + blockSize - 1) / blockSize := by
    rw [fittingPackets] at fits
    omega
  have bytes : packetId * blockSize ≤ capacity + blockSize - 1 :=
    (Nat.le_div_iff_mul_le (by omega)).mp count
  obtain ⟨block, rfl⟩ : ∃ block, packetId = block + 1 := ⟨packetId - 1, by omega⟩
  rw [Nat.add_mul, Nat.one_mul] at bytes
  rw [Nat.add_sub_cancel]
  omega

namespace FrameInFlight

def storeBlock (packetId : Nat) (data : List UInt8) (frame : FrameInFlight) : FrameInFlight :=
  let capacity := frame.slot.data.length
  let block := toBlock (packetId, data)
  let bytes := overwrite frame.slot.data (Blocks.offset frame.blockSize block)
    (data.take (Blocks.placedLength capacity frame.blockSize block))
  { frame with
    slot := { frame.slot with data := bytes }
    receivedSize := frame.receivedSize + Blocks.placedLength capacity frame.blockSize block
    dataEnd := max frame.dataEnd (Blocks.blockEnd capacity frame.blockSize block) }

/-- A packet whose data is longer than a block, or whose block lies beyond
every address, cannot be placed. -/
def Misplaced (frame : FrameInFlight) (packetId : Nat) (data : List UInt8) : Prop :=
  frame.blockSize < data.length ∨ 2 ^ 64 ≤ (packetId - 1) * frame.blockSize

instance (frame : FrameInFlight) (packetId : Nat) (data : List UInt8) :
    Decidable (frame.Misplaced packetId data) :=
  inferInstanceAs (Decidable (_ ∨ _))

theorem write_eq {frame : FrameInFlight} {offset : Nat} {data : List UInt8}
    (fits : offset + data.length ≤ frame.slot.data.length) :
    frame.write offset data = .ok { frame with
      slot := { frame.slot with data := overwrite frame.slot.data offset data }
      receivedSize := frame.receivedSize + data.length
      dataEnd := max frame.dataEnd (offset + data.length) } := by
  rw [write, Checked.copyAt_ok fits]
  rfl

theorem place_eq {frame : FrameInFlight} {packetId : Nat} (data : List UInt8) (stats : StreamStats)
    (positive : 1 ≤ packetId) (inRange : packetId + 2 ≤ frame.nPackets)
    (starts : (packetId - 1) * frame.blockSize < frame.slot.data.length) :
    ∃ mismatches, frame.place packetId data stats =
      .ok (if frame.Misplaced packetId data then frame.reject else frame.storeBlock packetId data,
        { stats with sizeMismatchErrors := mismatches }) := by
  rw [place]
  by_cases long : frame.blockSize < data.length
  · exact ⟨stats.sizeMismatchErrors + 1, by
      rw [if_pos long, if_pos (show frame.Misplaced packetId data from Or.inl long)]⟩
  rw [if_neg long, Checked.sub_ok positive, Checked.ok_bind]
  by_cases far : 2 ^ 64 ≤ (packetId - 1) * frame.blockSize
  · exact ⟨stats.sizeMismatchErrors, by
      rw [if_pos far, if_pos (show frame.Misplaced packetId data from Or.inr far)]
      rfl⟩
  rw [if_neg far, if_neg (show ¬ frame.Misplaced packetId data from not_or.mpr ⟨long, far⟩)]
  by_cases past : frame.slot.data.length < (packetId - 1) * frame.blockSize + data.length
  · -- The packet is cut at the end of the buffer.
    have cut : Blocks.placedLength frame.slot.data.length frame.blockSize (toBlock (packetId, data)) =
        frame.slot.data.length - (packetId - 1) * frame.blockSize := by
      simp only [Blocks.placedLength, Blocks.offset, toBlock]
      omega
    rw [if_pos past, Checked.sub_ok (show 2 ≤ frame.nPackets by omega), Checked.ok_bind,
      if_neg (by omega), Checked.sub_ok (by omega), Checked.ok_bind, Checked.takeTo_ok (by omega),
      Checked.ok_bind, write_eq (by rw [List.length_take]; omega), Checked.ok_bind]
    have length_eq : (data.take (frame.slot.data.length - (packetId - 1) * frame.blockSize)).length =
        frame.slot.data.length - (packetId - 1) * frame.blockSize := by
      rw [List.length_take]
      omega
    refine ⟨if packetId ≠ frame.nPackets - 2 then stats.sizeMismatchErrors + 1 else stats.sizeMismatchErrors, ?_⟩
    simp only [storeBlock, Blocks.blockEnd, cut, length_eq, Checked.pure_eq]
    split <;> rfl
  · have whole : Blocks.placedLength frame.slot.data.length frame.blockSize (toBlock (packetId, data)) =
        data.length := by
      simp only [Blocks.placedLength, Blocks.offset, toBlock]
      omega
    rw [if_neg past, write_eq (by omega), Checked.ok_bind]
    refine ⟨stats.sizeMismatchErrors, ?_⟩
    simp only [storeBlock, Blocks.blockEnd, whole, List.take_length, Checked.pure_eq]
    rfl

def SameError (frame later : FrameInFlight) : Prop :=
  later.error = frame.error ∨ later.error = some .wrongPacketId

theorem SameError.trans {frame later last : FrameInFlight} (first : SameError frame later)
    (second : SameError later last) : SameError frame last := by
  rcases second with same | rejected
  · rcases first with same_before | rejected_before
    · exact .inl (same.trans same_before)
    · exact .inr (same.trans rejected_before)
  · exact .inr rejected

theorem SameError.verdict {frame later : FrameInFlight} (same : SameError frame later)
    (verdict : frame.error ≠ some .complete) : later.error ≠ some .complete := by
  rcases same with same | rejected
  · rw [same]
    exact verdict
  · rw [rejected]
    exact fun complete => by cases complete

/-- `later` differs from `frame` at most in the buffer's bytes, the data
counters and the error. -/
def DataChanged (frame later : FrameInFlight) : Prop :=
  later = { frame with
    slot := { frame.slot with data := later.slot.data }
    receivedSize := later.receivedSize
    dataEnd := later.dataEnd
    error := later.error } ∧
  later.slot.data.length = frame.slot.data.length ∧ SameError frame later

namespace DataChanged

variable {frame later last : FrameInFlight}

theorem refl : DataChanged frame frame := ⟨rfl, rfl, .inl rfl⟩

theorem trans (first : DataChanged frame later) (second : DataChanged later last) :
    DataChanged frame last := by
  refine ⟨?_, second.2.1.trans first.2.1, first.2.2.trans second.2.2⟩
  rw [second.1, first.1]

theorem reject : DataChanged frame frame.reject := ⟨rfl, rfl, .inr rfl⟩

theorem nPackets (changed : DataChanged frame later) : later.nPackets = frame.nPackets := by
  rw [changed.1]

theorem packets (changed : DataChanged frame later) : later.slot.packets = frame.slot.packets := by
  rw [changed.1]

theorem blockSize (changed : DataChanged frame later) : later.blockSize = frame.blockSize := by
  rw [changed.1]

theorem blockKnown (changed : DataChanged frame later) : later.blockKnown = frame.blockKnown := by
  rw [changed.1]

theorem trailerSeen (changed : DataChanged frame later) : later.trailerSeen = frame.trailerSeen := by
  rw [changed.1]

theorem held (changed : DataChanged frame later) : later.held = frame.held := by
  rw [changed.1]

theorem heldBytes (changed : DataChanged frame later) : later.heldBytes = frame.heldBytes := by
  rw [changed.1]

end DataChanged

end FrameInFlight

section Storing

variable {capacity packetId : Nat} {frame : FrameInFlight} {data : List UInt8}
  {placed : List (Nat × List UInt8)}

theorem FrameInFlight.DataChanged.storeBlock
    (starts : (packetId - 1) * frame.blockSize < frame.slot.data.length) :
    FrameInFlight.DataChanged frame (frame.storeBlock packetId data) := by
  refine ⟨rfl, overwrite_length ?_, .inl rfl⟩
  simp only [Blocks.placedLength, Blocks.offset, toBlock, List.length_take]
  omega

theorem Placed.storeBlock (holds : Placed capacity frame placed)
    (sized : frame.slot.data.length = capacity) (positive : 1 ≤ packetId)
    (placed_pos : ∀ payload ∈ placed, 1 ≤ payload.1) (fresh : packetId ∉ placed.map Prod.fst)
    (starts : (packetId - 1) * frame.blockSize < capacity) (short : data.length ≤ frame.blockSize) :
    Placed capacity (frame.storeBlock packetId data) (placed ++ [(packetId, data)]) := by
  have snoc : (placed ++ [(packetId, data)]).map toBlock = placed.map toBlock ++ [toBlock (packetId, data)] := by
    simp
  have laidOut : Blocks.LaidOut capacity frame.blockSize (placed.map toBlock ++ [toBlock (packetId, data)]) := by
    refine ⟨?_, ?_, ?_⟩
    · rw [List.map_append, List.nodup_append]
      refine ⟨holds.laidOut.distinct, by simp, ?_⟩
      intro position present other isNew same
      simp only [List.map_map, List.mem_map, Function.comp_apply] at present
      obtain ⟨payload, member, rfl⟩ := present
      simp only [List.map_cons, List.map_nil, List.mem_singleton, toBlock] at isNew same
      have payload_pos := placed_pos payload member
      have sameId : payload.1 = packetId := by omega
      exact fresh (sameId ▸ List.mem_map_of_mem member)
    · intro block present
      rcases List.mem_append.mp present with old | new
      · exact holds.laidOut.short block old
      · rw [List.mem_singleton.mp new]
        exact short
    · intro block present
      rcases List.mem_append.mp present with old | new
      · exact holds.laidOut.inside block old
      · rw [List.mem_singleton.mp new]
        simp only [Blocks.offset, toBlock]
        omega
  subst sized
  refine ⟨by rw [snoc]; exact laidOut, ?_, ?_, ?_⟩
  · rw [snoc, Blocks.total_snoc]
    exact congrArg (· + _) holds.size
  · rw [snoc, Blocks.extent_snoc]
    exact congrArg (max · _) holds.furthest
  · rw [snoc]
    exact holds.stored.write rfl laidOut

theorem FrameInFlight.placeHeld_of_error {held : List (Nat × List UInt8)} {stats : StreamStats}
    (failed : frame.error.isSome = true) : placeHeld held frame stats = .ok (frame, stats) := by
  cases held with
  | nil => rfl
  | cons payload rest => rw [placeHeld, if_pos failed]

theorem FrameInFlight.placeHeld_spec (held : List (Nat × List UInt8)) :
    ∀ (frame : FrameInFlight) (stats : StreamStats) (placed : List (Nat × List UInt8)),
      Placed capacity frame placed → frame.slot.data.length = capacity → 1 ≤ frame.blockSize →
      frame.nPackets ≤ fittingPackets capacity frame.blockSize →
      (∀ payload ∈ placed ++ held, 1 ≤ payload.1) → ((placed ++ held).map Prod.fst).Nodup →
      ∃ later mismatches, placeHeld held frame stats =
          .ok (later, { stats with sizeMismatchErrors := mismatches }) ∧
        DataChanged frame later ∧ ∃ placed', Placed capacity later placed' ∧
          (later.error = none → frame.error = none ∧ placed' = placed ++ held ∧
            ∀ payload ∈ held, payload.1 + 2 ≤ frame.nPackets) := by
  induction held with
  | nil =>
    intro frame stats placed holds _ _ _ _ _
    exact ⟨frame, stats.sizeMismatchErrors, rfl, DataChanged.refl, placed, holds,
      fun clean => ⟨clean, by simp, by simp⟩⟩
  | cons payload rest ih =>
    obtain ⟨id, data⟩ := payload
    intro frame stats placed holds sized blockSize_pos fits positive distinct
    rw [placeHeld]
    by_cases failed : frame.error.isSome = true
    · rw [if_pos failed]
      refine ⟨frame, stats.sizeMismatchErrors, rfl, DataChanged.refl, placed, holds, ?_⟩
      intro clean
      rw [clean] at failed
      cases failed
    rw [if_neg failed]
    by_cases outside : frame.nPackets - 2 < id
    · rw [if_pos outside]
      exact ⟨frame.reject, stats.sizeMismatchErrors, rfl, DataChanged.reject, placed,
        holds.congr rfl rfl rfl rfl, fun clean => by cases clean⟩
    rw [if_neg outside]
    have id_pos : 1 ≤ id := positive (id, data) (by simp)
    have inRange : id + 2 ≤ frame.nPackets := by omega
    have starts := offset_lt_of_fits id_pos inRange blockSize_pos fits
    have fresh : id ∉ placed.map Prod.fst := by
      intro present
      rw [List.map_append, List.nodup_append] at distinct
      exact distinct.2.2 id present id (by simp) rfl
    obtain ⟨mismatches, result⟩ := place_eq data stats id_pos inRange (by rw [sized]; exact starts)
    rw [result, Checked.ok_bind]
    by_cases misplaced : frame.Misplaced id data
    · rw [if_pos misplaced]
      exact ⟨frame.reject, mismatches, placeHeld_of_error rfl, DataChanged.reject, placed,
        holds.congr rfl rfl rfl rfl, fun clean => by cases clean⟩
    · rw [if_neg misplaced]
      have short : data.length ≤ frame.blockSize := by
        rw [Misplaced, not_or] at misplaced
        omega
      have stored := holds.storeBlock sized id_pos (fun other present => positive other (by simp [present]))
        fresh starts short
      have changed : DataChanged frame (frame.storeBlock id data) :=
        DataChanged.storeBlock (by rw [sized]; exact starts)
      obtain ⟨later, mismatches', rest_result, later_changed, placed', later_holds, finished⟩ :=
        ih (frame.storeBlock id data) { stats with sizeMismatchErrors := mismatches }
          (placed ++ [(id, data)]) stored (changed.2.1.trans sized) blockSize_pos fits
          (by simpa using positive) (by simpa using distinct)
      refine ⟨later, mismatches', rest_result, changed.trans later_changed, placed', later_holds, ?_⟩
      intro clean
      obtain ⟨clean_before, all, inside⟩ := finished clean
      refine ⟨clean_before, by simpa using all, ?_⟩
      intro other present
      rcases List.mem_cons.mp present with rfl | later_payload
      · exact inRange
      · exact inside other later_payload

end Storing

end Telegenic.Stream
