import Telegenic.Stream.FabricProperties
import Telegenic.Stream.Pass
import Telegenic.Stream.Runner

/-! What the receiver worker can do to its frames, one move at a time. Every
step of the worker is a sequence of these moves, so an invariant of the
receiver is a property that each of them keeps. -/

set_option autoImplicit false

namespace Telegenic.Stream

open Library Proto Proto.Gvsp

def StreamInput.arrival : StreamInput → Option GvspView
  | .packet received _ _ _ => if received.fromDevice then GvspView.parse received.datagram else none
  | _ => none

/-- The shared state of the later world: all handles are accounted for and no
slot was lost on the way. -/
structure FabricKept (w later : StreamWorld) : Prop where
  accounted : later.fabric.Accounted []
  capacity : later.fabric.poolCapacity = w.fabric.poolCapacity
  lost : later.fabric.lost = w.fabric.lost

/-- A frame that takes a packet was opened by it, or was in flight before with
the same packets. -/
def Routed (origin : List FrameInFlight) (view : GvspView) (frame : FrameInFlight) : Prop :=
  frame.frameId = view.frameId ∧
    (frame.trailerSeen = true → ∃ before ∈ origin, before.frameId = view.frameId ∧
      before.trailerSeen = true ∧ before.nPackets = frame.nPackets)

theorem Routed.untouched {origin : List FrameInFlight} {view : GvspView} {frame after : FrameInFlight}
    (routed : Routed origin view frame) (same : Untouched frame after) : Routed origin view after := by
  refine ⟨same.frameId.trans routed.1, fun seen => ?_⟩
  rw [same.nPackets]
  exact routed.2 (same.trailerSeen ▸ seen)

structure FrameInFlight.Asks (frame : FrameInFlight) (request : ResendRequest) : Prop where
  frameId : request.frameId = frame.frameId
  extendedIds : request.extendedIds = frame.extendedIds
  ordered : request.first ≤ request.last
  inside : request.last < frame.nPackets

/-- One move of the worker while it handles `arrival`, having started with the
frames `origin` in flight. -/
inductive Move (params : StreamParams) (origin : List FrameInFlight) (arrival : Option GvspView) :
    StreamWorld → StreamWorld → Prop where
  | quiet {w later : StreamWorld} (frames : later.runner.frames = w.runner.frames)
      (openings : later.runner.openings = w.runner.openings)
      (journal : later.journal = w.journal ∨ ∃ request : { request // ∃ frame ∈ w.runner.frames, frame.Asks request },
        later.journal = w.journal ++ [.requested request.val])
      (slots : later.fabric.slots.Perm w.fabric.slots) (kept : FabricKept w later) :
      Move params origin arrival w later
  | touched {w later : StreamWorld} {index : Nat} {before after : FrameInFlight}
      (found : w.runner.frames[index]? = some before) (untouched : Untouched before after)
      (frames : later.runner.frames = w.runner.frames.set index after)
      (openings : later.runner.openings = w.runner.openings) (journal : later.journal = w.journal)
      (fabric : later.fabric = w.fabric) : Move params origin arrival w later
  | absorbed {w later : StreamWorld} {index : Nat} {before after : FrameInFlight} {view : GvspView}
      (isArrival : arrival = some view) (found : w.runner.frames[index]? = some before)
      (routed : Routed origin view before) (absorbs : Absorbs params view before after)
      (frames : later.runner.frames = w.runner.frames.set index after)
      (openings : later.runner.openings = w.runner.openings) (journal : later.journal = w.journal)
      (fabric : later.fabric = w.fabric) : Move params origin arrival w later
  | adopted {w later : StreamWorld} {index : Nat} {before after : FrameInFlight}
      (found : w.runner.frames[index]? = some before) (provisional : before.provisional = true)
      (untouched : Untouched { before with replayOf := none } after)
      (frames : later.runner.frames = w.runner.frames.set index after)
      (openings : later.runner.openings = w.runner.openings)
      (journal : later.journal = w.journal ++ [.adopted before.opening])
      (fabric : later.fabric = w.fabric) : Move params origin arrival w later
  | opened {w later : StreamWorld} {view : GvspView} {now nPackets : Nat} {slot : BufSlot}
      {replayOf : Option Fingerprints} (isArrival : arrival = some view)
      (unknown : ∀ frame ∈ origin, frame.frameId ≠ view.frameId)
      (distinct : ∀ frame ∈ w.runner.frames, frame.frameId ≠ view.frameId)
      (alone : replayOf = none → ∀ frame ∈ w.runner.frames, frame.provisional = false)
      (restart : replayOf ≠ none → view.frameId = restartBlockId)
      (expected : computeNExpectedPackets params view = .ok nPackets) (supported : nPackets ≠ 0)
      (frames : later.runner.frames = w.runner.frames ++
        [StreamWorld.newFrame params view now nPackets w.runner.openings slot replayOf])
      (openings : later.runner.openings = w.runner.openings + 1)
      (journal : later.journal = w.journal ++ [.opened w.runner.openings view.frameId replayOf.isSome])
      (slots : w.fabric.slots.Perm (slot :: later.fabric.slots)) (kept : FabricKept w later) :
      Move params origin arrival w later
  | discarded {w later : StreamWorld} {index : Nat} {frame : FrameInFlight}
      (found : w.runner.frames[index]? = some frame) (provisional : frame.provisional = true)
      (frames : later.runner.frames = w.runner.frames.eraseIdx index)
      (openings : later.runner.openings = w.runner.openings)
      (journal : later.journal = w.journal ++ [.discarded frame.opening])
      (slots : later.fabric.slots.Perm (frame.slot :: w.fabric.slots)) (kept : FabricKept w later) :
      Move params origin arrival w later
  | delivered {w later : StreamWorld} {index : Nat} {frame : FrameInFlight} {status : FrameStatus}
      (found : w.runner.frames[index]? = some frame) (real : frame.provisional = false)
      (headOfLine : ∀ before < index, ∀ other, w.runner.frames[before]? = some other → other.provisional = true)
      (complete : status = .complete →
        frame.allReceived = true ∧ frame.error = none ∧ frame.receivedSize = frame.dataEnd)
      (frames : later.runner.frames = w.runner.frames.eraseIdx index)
      (openings : later.runner.openings = w.runner.openings)
      (journal : later.journal =
        w.journal ++ [.delivered frame.opening (frame.toFrame params status) frame.accepted])
      (slots : later.fabric.slots.Perm (frame.slot :: w.fabric.slots)) (kept : FabricKept w later) :
      Move params origin arrival w later

abbrev Moves (params : StreamParams) (origin : List FrameInFlight) (arrival : Option GvspView) :
    StreamWorld → StreamWorld → Prop :=
  Relation.ReflTransGen (Move params origin arrival)

/-- The worker's frames are valid and every buffer slot is in exactly one
place. -/
structure Wellformed (params : StreamParams) (w : StreamWorld) : Prop where
  frames : ∀ frame ∈ w.runner.frames, Valid params frame
  accounted : w.fabric.Accounted []
  capacity : w.fabric.poolCapacity = params.nBuffers
  keys : ((w.fabric.slots ++ w.runner.frames.map (·.slot)).map (·.key)).Perm (List.range params.nBuffers)
  sized : ∀ slot ∈ w.fabric.slots, slot.data.length = params.payloadSize
  lost : w.fabric.lost = []

section Opening

variable {params : StreamParams} {view : GvspView} {nPackets : Nat}

theorem computeNExpectedPackets_spec (params : StreamParams) (view : GvspView) :
    ∃ nPackets, computeNExpectedPackets params view = .ok nPackets ∧
      (nPackets ≠ 0 → 1 ≤ estimatedBlockSize params view.extendedIds ∧ nPackets ≤ packetLimit params ∧
        (view.contentType ≠ .allIn → 2 ≤ nPackets)) := by
  unfold computeNExpectedPackets
  by_cases empty : estimatedBlockSize params view.extendedIds = 0
  · exact ⟨0, if_pos empty, fun nonzero => absurd rfl nonzero⟩
  have positive : 1 ≤ estimatedBlockSize params view.extendedIds := Nat.pos_of_ne_zero empty
  have estimate_le : min (fittingPackets params.payloadSize (estimatedBlockSize params view.extendedIds))
      maxFramePackets ≤ packetLimit params := fittingPackets_le positive
  have two_le : 2 ≤ min (fittingPackets params.payloadSize (estimatedBlockSize params view.extendedIds))
      maxFramePackets := le_min (Nat.le_add_left 2 _) (by decide)
  have one_le : 1 ≤ packetLimit params := Nat.le_trans (by decide) two_le_packetLimit
  simp only [if_neg empty, Checked.divCeil_ok positive, Checked.ok_bind, Checked.pure_eq]
  cases kind : view.contentType with
  | leader =>
    cases leader : (ImageLeader.parse view.data).map (·.payloadType) with
    | none => exact ⟨0, rfl, fun nonzero => absurd rfl nonzero⟩
    | some payloadType =>
      by_cases supported : payloadType = payloadTypeImage ∨ payloadType = payloadTypeChunkData ∨
          payloadType = payloadTypeExtendedChunkData
      · exact ⟨_, if_pos supported, fun _ => ⟨positive, estimate_le, fun _ => two_le⟩⟩
      · exact ⟨0, if_neg supported, fun nonzero => absurd rfl nonzero⟩
  | payload => exact ⟨_, rfl, fun _ => ⟨positive, estimate_le, fun _ => two_le⟩⟩
  | trailer =>
    by_cases inside : 2 ≤ view.packetId + 1 ∧ view.packetId + 1 ≤ packetLimit params
    · exact ⟨_, if_pos inside, fun _ => ⟨positive, inside.2, fun _ => inside.1⟩⟩
    · exact ⟨_, if_neg inside, fun _ => ⟨positive, estimate_le, fun _ => two_le⟩⟩
  | allIn => exact ⟨1, rfl, fun _ => ⟨positive, one_le, fun other => absurd rfl other⟩⟩
  | h264 => exact ⟨0, rfl, fun nonzero => absurd rfl nonzero⟩
  | multizone => exact ⟨0, rfl, fun nonzero => absurd rfl nonzero⟩
  | multipart => exact ⟨0, rfl, fun nonzero => absurd rfl nonzero⟩
  | genDc => exact ⟨0, rfl, fun nonzero => absurd rfl nonzero⟩
  | unknown bits => exact ⟨0, rfl, fun nonzero => absurd rfl nonzero⟩

theorem newFrame_valid {now opening : Nat} {slot : BufSlot} {replayOf : Option Fingerprints}
    (expected : computeNExpectedPackets params view = .ok nPackets) (supported : nPackets ≠ 0)
    (sized : slot.data.length = params.payloadSize) :
    Valid params (StreamWorld.newFrame params view now nPackets opening slot replayOf) := by
  obtain ⟨n, result, facts⟩ := computeNExpectedPackets_spec params view
  rw [expected] at result
  cases result
  obtain ⟨positive, limited, _⟩ := facts supported
  refine ⟨⟨resizePackets_length, Nat.pos_of_ne_zero supported, limited, .fresh, positive, Nat.zero_le _,
    le_rfl, Nat.zero_le _, sized⟩, fun complete => (by cases complete), fun _ => ?_, fun _ => ?_⟩
  · refine ⟨by simp [StreamWorld.newFrame], ?_, ?_, ?_, rfl, fun _ => ⟨rfl, rfl, rfl⟩, ?_⟩
    · simp [StreamWorld.newFrame]
    · intro seen
      cases seen
    · simp [StreamWorld.newFrame, payloads]
    · intro known
      cases known
  · refine ⟨List.nodup_nil, fun position => ?_⟩
    simp only [StreamWorld.newFrame, List.map_nil, List.not_mem_nil, iff_false]
    refine Bool.eq_false_iff.mp (isReceived_resize.trans ?_)
    simp [isReceived]

end Opening

section Preservation

variable {params : StreamParams} {origin : List FrameInFlight} {arrival : Option GvspView}
  {w later : StreamWorld}

theorem set_forall {Value : Type} {property : Value → Prop} {values : List Value} {index : Nat} {value : Value}
    (all : ∀ other ∈ values, property other) (holds : property value) :
    ∀ other ∈ values.set index value, property other := by
  intro other present
  rcases List.mem_or_eq_of_mem_set present with old | rfl
  · exact all other old
  · exact holds

theorem map_set_same {Value Image : Type} (image : Value → Image) {values : List Value} {index : Nat}
    {before after : Value} (found : values[index]? = some before) (same : image after = image before) :
    (values.set index after).map image = values.map image := by
  obtain ⟨inside, rfl⟩ := List.getElem?_eq_some_iff.mp found
  refine List.ext_getElem (by simp) ?_
  intro position _ _
  simp only [List.getElem_map, List.getElem_set]
  split
  · rename_i here
    subst here
    exact same
  · rfl

theorem perm_cons_eraseIdx {Value : Type} {values : List Value} {index : Nat} {value : Value}
    (found : values[index]? = some value) : values.Perm (value :: values.eraseIdx index) := by
  obtain ⟨inside, rfl⟩ := List.getElem?_eq_some_iff.mp found
  exact (List.getElem_cons_eraseIdx_perm inside).symm

theorem Wellformed.room {index : Nat} {frame : FrameInFlight} (wellformed : Wellformed params w)
    (found : w.runner.frames[index]? = some frame) : w.fabric.slots.length < w.fabric.poolCapacity := by
  have total := wellformed.keys.length_eq
  have present := List.length_pos_of_mem (List.mem_of_getElem? found)
  simp only [List.length_map, List.length_append, List.length_range] at total
  rw [wellformed.capacity]
  omega

theorem Wellformed.remove (wellformed : Wellformed params w) {index : Nat} {frame : FrameInFlight}
    (found : w.runner.frames[index]? = some frame)
    (frames : later.runner.frames = w.runner.frames.eraseIdx index)
    (slots : later.fabric.slots.Perm (frame.slot :: w.fabric.slots)) (kept : FabricKept w later) :
    Wellformed params later := by
  have split := perm_cons_eraseIdx found
  refine ⟨?_, kept.accounted, kept.capacity.trans wellformed.capacity, ?_, ?_, kept.lost.trans wellformed.lost⟩
  · rw [frames]
    exact fun other present => wellformed.frames other (List.mem_of_mem_eraseIdx present)
  · refine List.Perm.trans (List.Perm.map _ ?_) wellformed.keys
    rw [frames]
    refine (slots.append_right _).trans ?_
    rw [List.cons_append]
    refine List.perm_middle.symm.trans (List.Perm.append_left _ ?_)
    exact (split.map (·.slot)).symm
  · intro slot present
    rcases List.mem_cons.mp (slots.mem_iff.mp present) with rfl | old
    · exact (wellformed.frames frame (List.mem_of_getElem? found)).inBounds.data_length
    · exact wellformed.sized slot old

theorem Wellformed.replace (wellformed : Wellformed params w) {index : Nat} {before after : FrameInFlight}
    (found : w.runner.frames[index]? = some before) (valid : Valid params after)
    (key : after.slot.key = before.slot.key)
    (frames : later.runner.frames = w.runner.frames.set index after) (fabric : later.fabric = w.fabric) :
    Wellformed params later := by
  refine ⟨?_, ?_, ?_, ?_, ?_, ?_⟩
  · rw [frames]
    exact set_forall wellformed.frames valid
  · rw [fabric]
    exact wellformed.accounted
  · rw [fabric]
    exact wellformed.capacity
  · have keys : ((w.runner.frames.set index after).map (·.slot)).map (·.key) =
        (w.runner.frames.map (·.slot)).map (·.key) := by
      rw [List.map_map, List.map_map]
      exact map_set_same _ found key
    rw [fabric, frames, List.map_append, keys, ← List.map_append]
    exact wellformed.keys
  · rw [fabric]
    exact wellformed.sized
  · rw [fabric]
    exact wellformed.lost

theorem Move.wellformed (move : Move params origin arrival w later) (wellformed : Wellformed params w) :
    Wellformed params later := by
  cases move with
  | quiet frames openings journal slots kept =>
    refine ⟨by rw [frames]; exact wellformed.frames, kept.accounted, kept.capacity.trans wellformed.capacity,
      ?_, fun slot present => wellformed.sized slot (slots.mem_iff.mp present), kept.lost.trans wellformed.lost⟩
    rw [frames]
    exact ((slots.append_right _).map _).trans wellformed.keys
  | touched found untouched frames openings journal fabric =>
    exact wellformed.replace found (untouched.valid (wellformed.frames _ (List.mem_of_getElem? found)))
      untouched.key frames fabric
  | absorbed isArrival found routed absorbs frames openings journal fabric =>
    exact wellformed.replace found absorbs.valid absorbs.key frames fabric
  | adopted found provisional untouched frames openings journal fabric =>
    have valid := (wellformed.frames _ (List.mem_of_getElem? found)).withReplayOf none
    exact wellformed.replace found (untouched.valid valid) untouched.key frames fabric
  | opened isArrival unknown distinct alone restart expected supported frames openings journal slots kept =>
    refine ⟨?_, kept.accounted, kept.capacity.trans wellformed.capacity, ?_, ?_, kept.lost.trans wellformed.lost⟩
    · rw [frames]
      intro frame present
      rcases List.mem_append.mp present with old | new
      · exact wellformed.frames frame old
      · rw [List.mem_singleton.mp new]
        exact newFrame_valid expected supported (wellformed.sized _ (slots.mem_iff.mpr List.mem_cons_self))
    · refine List.Perm.trans ?_ wellformed.keys
      rw [frames]
      simp only [List.map_append, List.map_cons, List.map_nil]
      have keys := (slots.map (·.key)).append_right ((w.runner.frames.map (·.slot)).map (·.key))
      refine List.Perm.trans ?_ keys.symm
      rw [List.map_cons, List.cons_append, ← List.append_assoc]
      exact List.perm_append_singleton _ _
    · exact fun slot present => wellformed.sized slot (slots.mem_iff.mpr (List.mem_cons_of_mem _ present))
  | discarded found provisional frames openings journal slots kept =>
    exact wellformed.remove found frames slots kept
  | delivered found real headOfLine complete frames openings journal slots kept =>
    exact wellformed.remove found frames slots kept

theorem Moves.preserve (property : StreamWorld → Prop) (moves : Moves params origin arrival w later)
    (step : ∀ {before after : StreamWorld}, Move params origin arrival before after →
      Wellformed params before → property before → property after)
    (wellformed : Wellformed params w) (initial : property w) : Wellformed params later ∧ property later := by
  induction moves with
  | refl => exact ⟨wellformed, initial⟩
  | tail _ last ih => exact ⟨last.wellformed ih.1, step last ih.1 ih.2⟩

theorem Moves.wellformed (moves : Moves params origin arrival w later) (wellformed : Wellformed params w) :
    Wellformed params later :=
  (Moves.preserve (fun _ => True) moves (fun _ _ _ => trivial) wellformed trivial).1

end Preservation

end Telegenic.Stream
