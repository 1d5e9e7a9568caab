import Telegenic.Stream.Holes

/-! The looks at the holes that a run of the worker makes, each with the state
it is made in, and what happens to the frames in flight between them. -/

set_option autoImplicit false

namespace Telegenic.Stream

open Library Proto Proto.Gvsp

/-! ## The looks of a run -/

structure Look where
  world : StreamWorld
  index : Nat
  packetId : Nat
  now : Nat

namespace StreamWorld

def completionLook (params : StreamParams) (now : Nat) (currentFrameId : Option Nat) (index : Nat)
    (canClose : Bool) (w : StreamWorld) : Checked (List Look) := do
  let frame ← Checked.get w.runner.frames index
  if frame.provisional then
    return []
  else if canClose ∧ frame.allReceived then
    return []
  else if canClose ∧ !params.resendEnabled ∧ (w.runner.frames.drop (index + 1)).any (!·.provisional) then
    return []
  else if canClose ∧ (frame.frameId ≠ w.runner.lastFrameId ∨ frame.lastValidPacket ≠ 0) ∧
      frame.quietFor now params.frameRetention then
    return []
  else if currentFrameId ≠ some frame.frameId ∧ frame.quietFor now params.packetTimeout then
    let last ← Checked.sub frame.nPackets 1
    return [⟨w, index, last, now⟩]
  else
    return []

def completionLooks (params : StreamParams) (now : Nat) (currentFrameId : Option Nat) :
    Nat → Nat → Bool → StreamWorld → Checked (List Look)
  | 0, _, _, _ => .ok []
  | fuel + 1, index, canClose, w =>
      if index < w.runner.frames.length then do
        let first ← w.completionLook params now currentFrameId index canClose
        let (w, index, canClose) ← w.completionStep params now currentFrameId index canClose
        let rest ← completionLooks params now currentFrameId fuel index canClose w
        return first ++ rest
      else
        .ok []

def checkLooks (params : StreamParams) (now : Nat) (currentFrameId : Option Nat) (w : StreamWorld) : Checked (List Look) :=
  completionLooks params now currentFrameId w.runner.frames.length 0 true w

def contentLooks (params : StreamParams) (view : GvspView) (now index : Nat) (adopt : Bool) (w : StreamWorld) :
    Checked (List Look) := do
  let w ← (if adopt then w.adoptRestart index else .ok w)
  let look : Look := ⟨w, index, view.packetId, now⟩
  let w ← w.missingPacketCheck params index view.packetId now
  let frame ← Checked.get w.runner.frames index
  let rest ← w.checkLooks params now (some frame.frameId)
  return look :: rest

def framePacketLooks (params : StreamParams) (view : GvspView) (now systemNow index : Nat) (w : StreamWorld) :
    Checked (List Look) := do
  let frame ← Checked.get w.runner.frames index
  let provisional := frame.provisional
  let w := w.countAbsorbed index frame
  let frame ← Checked.get w.runner.frames index
  if view.status.isError then
    return []
  else if isReceived frame.slot.packets view.packetId then
    return []
  else
    let content ← frame.processContent params systemNow view w.runner.stats
    match content with
    | none => return []
    | some (frame, stats) =>
        let (frame, stats, diverged) ← frame.settle params view stats
        ((w.setFrame index frame).setStats stats).contentLooks params view now index (provisional && diverged)

def packetLooks (params : StreamParams) (datagram : List UInt8) (now systemNow : Nat) (w : StreamWorld) :
    Checked (List Look) :=
  match GvspView.parse datagram with
  | none => .ok []
  | some view => do
      let (w, found) ← (w.noteFirstPacket view).findOrCreateFrame params view now
      match found with
      | none => return []
      | some index => w.framePacketLooks params view now systemNow index

def stepLooks (params : StreamParams) (w : StreamWorld) : StreamInput → Checked (List Look)
  | .packet received now systemNow schedule =>
      let w := { w with schedule := schedule }.noteDrops received.drops
      if received.fromDevice then
        (w.countPacket received.datagram).packetLooks params received.datagram now systemNow
      else
        .ok []
  | .tick now schedule => { w with schedule := schedule }.checkLooks params now none
  | .commands _ | .acts _ | .flush _ => .ok []

/-- The looks at the holes made while the inputs are handled, in order. -/
def looks (params : StreamParams) : List StreamInput → StreamWorld → Checked (List Look)
  | [], _ => .ok []
  | input :: rest, w => do
      let first ← w.stepLooks params input
      let w ← w.step params input
      let others ← looks params rest w
      return first ++ others

end StreamWorld

def requestsIn (journal : List StreamEvent) : List ResendRequest :=
  journal.filterMap fun
    | .requested request => some request
    | _ => none

namespace Look

def frame? (look : Look) : Option FrameInFlight := look.world.runner.frames[look.index]?

def isFor (opening : Nat) (look : Look) : Bool := look.frame?.any (·.opening == opening)

def sent (params : StreamParams) (look : Look) : List ResendRequest :=
  match look.world.missingPacketCheck params look.index look.packetId look.now with
  | .ok later => (requestsIn later.journal).drop (requestsIn look.world.journal).length
  | .error _ => []

def exhausts (params : StreamParams) (look : Look) : Bool :=
  match look.world.missingPacketCheck params look.index look.packetId look.now with
  | .ok later => later.runner.frames[look.index]?.any (·.resendRatioReached)
  | .error _ => false

end Look

/-- How many packets the looks asked for, repeats counted, for the frame of the
opening. -/
def packetsFor (params : StreamParams) (opening : Nat) (looks : List Look) : Nat :=
  ((looks.filter (·.isFor opening)).map fun look => requestedPackets (look.sent params)).sum

/-! ## What happens to a frame -/

/-- No more is to be requested for the frame: its budget is spent, or the device
does not have the packets. A provisional frame may still be adopted. -/
def FrameInFlight.Refused (frame : FrameInFlight) : Prop :=
  frame.resendRatioReached = true ∨ frame.resendDisabled = true ∧ frame.provisional = false

structure Fares (before after : FrameInFlight) : Prop where
  opening : after.opening = before.opening
  spent : before.nResendRequests ≤ after.nResendRequests
  reached : before.resendRatioReached = true → after.resendRatioReached = true
  refused : before.resendDisabled = true → before.provisional = false →
    after.resendDisabled = true ∧ after.provisional = false
  guarded : (before.provisional = true → before.resendDisabled = true) →
    after.provisional = true → after.resendDisabled = true

namespace Fares

variable {before after last : FrameInFlight}

theorem refl : Fares before before := ⟨rfl, le_rfl, id, fun disabled real => ⟨disabled, real⟩, id⟩

theorem trans (first : Fares before after) (second : Fares after last) : Fares before last where
  opening := second.opening.trans first.opening
  spent := first.spent.trans second.spent
  reached held := second.reached (first.reached held)
  refused disabled real := second.refused (first.refused disabled real).1 (first.refused disabled real).2
  guarded guard := second.guarded (first.guarded guard)

theorem toRefused (fares : Fares before after) (refused : before.Refused) : after.Refused := by
  rcases refused with reached | ⟨disabled, real⟩
  · exact .inl (fares.reached reached)
  · exact .inr (fares.refused disabled real)

theorem of_same (opening : after.opening = before.opening) (spent : after.nResendRequests = before.nResendRequests)
    (reached : after.resendRatioReached = before.resendRatioReached)
    (disabled : before.resendDisabled = true → after.resendDisabled = true) (replayOf : after.replayOf = before.replayOf) :
    Fares before after := by
  have provisional : after.provisional = before.provisional := by
    rw [FrameInFlight.provisional, FrameInFlight.provisional, replayOf]
  exact ⟨opening, spent.ge, fun held => reached.trans held, fun held real => ⟨disabled held, provisional.trans real⟩,
    fun guard held => disabled (guard (provisional.symm.trans held))⟩

theorem of_sameFrame (same : SameFrame before after) : Fares before after :=
  .of_same same.opening same.nResendRequests same.resendRatioReached (fun held => same.resendDisabled.trans held) same.replayOf

end Fares

/-- Every frame in flight has its own opening, and nothing is requested for a
provisional one. -/
structure StreamWorld.Numbered (w : StreamWorld) : Prop where
  distinct : (w.runner.frames.map (·.opening)).Nodup
  below : ∀ frame ∈ w.runner.frames, frame.opening < w.runner.openings
  guarded : ∀ frame ∈ w.runner.frames, frame.provisional = true → frame.resendDisabled = true

structure Silent (w later : StreamWorld) : Prop where
  requests : requestsIn later.journal = requestsIn w.journal
  openings : w.runner.openings ≤ later.runner.openings
  frames : ∀ after ∈ later.runner.frames,
    (∃ before ∈ w.runner.frames, Fares before after) ∨ w.runner.openings ≤ after.opening
  numbered : w.Numbered → later.Numbered

namespace Silent

variable {w later last : StreamWorld}

theorem trans (first : Silent w later) (second : Silent later last) : Silent w last where
  requests := second.requests.trans first.requests
  openings := first.openings.trans second.openings
  frames after present := by
    rcases second.frames after present with ⟨between, inLater, fares⟩ | fresh
    · rcases first.frames between inLater with ⟨before, inFirst, began⟩ | fresh
      · exact .inl ⟨before, inFirst, began.trans fares⟩
      · exact .inr (fares.opening ▸ fresh)
    · exact .inr (first.openings.trans fresh)
  numbered holds := second.numbered (first.numbered holds)

theorem of_frames (frames : later.runner.frames = w.runner.frames) (openings : later.runner.openings = w.runner.openings)
    (requests : requestsIn later.journal = requestsIn w.journal) : Silent w later where
  requests := requests
  openings := openings.ge
  frames after present := .inl ⟨after, frames ▸ present, .refl⟩
  numbered holds := by
    obtain ⟨distinct, below, guarded⟩ := holds
    rw [← frames] at distinct below guarded
    rw [← openings] at below
    exact ⟨distinct, below, guarded⟩

theorem refl : Silent w w := of_frames rfl rfl rfl

theorem of_quietly {worker : List Nat} (quietly : StreamWorld.Quietly worker w later) : Silent w later :=
  of_frames quietly.frames quietly.openings (by rw [quietly.journal])

theorem of_set {index : Nat} {before after : FrameInFlight} (found : w.runner.frames[index]? = some before)
    (fares : Fares before after) (frames : later.runner.frames = w.runner.frames.set index after)
    (openings : later.runner.openings = w.runner.openings) (requests : requestsIn later.journal = requestsIn w.journal) :
    Silent w later where
  requests := requests
  openings := openings.ge
  frames frame present := by
    rw [frames] at present
    rcases List.mem_or_eq_of_mem_set present with old | rfl
    · exact .inl ⟨frame, old, .refl⟩
    · exact .inl ⟨before, List.mem_of_getElem? found, fares⟩
  numbered holds := by
    have same : later.runner.frames.map (·.opening) = w.runner.frames.map (·.opening) := by
      rw [frames]
      exact map_set_same _ found fares.opening
    refine ⟨same ▸ holds.distinct, fun frame present => ?_, fun frame present => ?_⟩
    · have listed : frame.opening ∈ w.runner.frames.map (·.opening) := same ▸ List.mem_map_of_mem present
      obtain ⟨other, inFirst, opening⟩ := List.mem_map.mp listed
      rw [openings, ← opening]
      exact holds.below other inFirst
    · rw [frames] at present
      rcases List.mem_or_eq_of_mem_set present with old | rfl
      · exact holds.guarded frame old
      · exact fares.guarded (holds.guarded before (List.mem_of_getElem? found))

theorem of_eraseIdx {index : Nat} (frames : later.runner.frames = w.runner.frames.eraseIdx index)
    (openings : later.runner.openings = w.runner.openings) (requests : requestsIn later.journal = requestsIn w.journal) :
    Silent w later where
  requests := requests
  openings := openings.ge
  frames frame present := .inl ⟨frame, List.mem_of_mem_eraseIdx (frames ▸ present), .refl⟩
  numbered holds := by
    refine ⟨?_, fun frame present => ?_, fun frame present => ?_⟩
    · rw [frames]
      exact holds.distinct.sublist ((List.eraseIdx_sublist _ _).map _)
    · rw [openings]
      exact holds.below frame (List.mem_of_mem_eraseIdx (frames ▸ present))
    · exact holds.guarded frame (List.mem_of_mem_eraseIdx (frames ▸ present))

theorem of_append {frame : FrameInFlight} (frames : later.runner.frames = w.runner.frames ++ [frame])
    (opening : frame.opening = w.runner.openings) (guarded : frame.provisional = true → frame.resendDisabled = true)
    (openings : later.runner.openings = w.runner.openings + 1) (requests : requestsIn later.journal = requestsIn w.journal) : Silent w later where
  requests := requests
  openings := by omega
  frames after present := by
    rw [frames] at present
    rcases List.mem_append.mp present with old | new
    · exact .inl ⟨after, old, .refl⟩
    · rw [List.mem_singleton.mp new, opening]
      exact .inr le_rfl
  numbered holds := by
    refine ⟨?_, fun after present => ?_, fun after present => ?_⟩
    · rw [frames, List.map_append, List.nodup_append]
      refine ⟨holds.distinct, List.nodup_singleton _, ?_⟩
      intro old isOld new isNew same
      obtain ⟨other, inFirst, rfl⟩ := List.mem_map.mp isOld
      rw [List.map_singleton, List.mem_singleton] at isNew
      have := holds.below other inFirst
      omega
    · rw [frames] at present
      rcases List.mem_append.mp present with old | new
      · have := holds.below after old
        omega
      · rw [List.mem_singleton.mp new]
        omega
    · rw [frames] at present
      rcases List.mem_append.mp present with old | new
      · exact holds.guarded after old
      · exact List.mem_singleton.mp new ▸ guarded

end Silent

end Telegenic.Stream
