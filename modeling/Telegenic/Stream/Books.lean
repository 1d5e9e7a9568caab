import Telegenic.Stream.Decisions
import Telegenic.Stream.Integrity

/-! The counters over whole runs: every block id the receiver's position passes
is in one of them, and none goes down or overflows. -/

set_option autoImplicit false

namespace Telegenic.Stream

open Library Proto Proto.Gvsp

namespace StreamWorld

def bookedIds (w : StreamWorld) : Nat :=
  w.runner.openings + w.runner.stats.underruns + w.runner.stats.unsupportedFrames + w.runner.stats.missingFrames

/-- How far a step moves the position, in the id mode of its packet. The first
packet of a stream sets the position just before its own block. -/
def advance (params : StreamParams) (w : StreamWorld) (input : StreamInput) : Int :=
  match input.arrival, w.step params input with
  | some view, .ok next =>
      blockIdDistance next.runner.lastFrameId (w.noteFirstPacket view).runner.lastFrameId view.extendedIds
  | _, _ => 0

def totalAdvance (params : StreamParams) : List StreamInput → StreamWorld → Int
  | [], _ => 0
  | input :: rest, w =>
      w.advance params input +
        match w.step params input with
        | .ok next => totalAdvance params rest next
        | .error _ => 0

end StreamWorld

def Forward (w : StreamWorld) (input : StreamInput) : Prop :=
  ∀ view ∈ input.arrival, w.Unknown view → 1 ≤ (w.noteFirstPacket view).distance view

instance (w : StreamWorld) (input : StreamInput) : Decidable (Forward w input) :=
  inferInstanceAs (Decidable (∀ view ∈ input.arrival, _))

/-- A frame that the step counts as an underrun or as unsupported is the one
right after the position. -/
def SkipsNext (params : StreamParams) (w : StreamWorld) (input : StreamInput) : Prop :=
  ∀ view ∈ input.arrival,
    match w.step params input with
    | .ok next =>
        next.runner.stats.underruns ≠ w.runner.stats.underruns ∨
          next.runner.stats.unsupportedFrames ≠ w.runner.stats.unsupportedFrames →
        (w.noteFirstPacket view).distance view = 1
    | .error _ => True

instance (params : StreamParams) (w : StreamWorld) (input : StreamInput) : Decidable (SkipsNext params w input) := by
  unfold SkipsNext
  cases w.step params input <;> infer_instance

section Advance

variable {params : StreamParams} {w later : StreamWorld} {input : StreamInput} {view : GvspView} {amount : Nat}

theorem blockIdDistance_self (id : Nat) (extendedIds : Bool) : blockIdDistance id id extendedIds = 0 := by
  simp [blockIdDistance]

theorem Adds.bookedIds (counts : Adds amount w later) : later.bookedIds = w.bookedIds := by
  have skipped := counts.skipped
  simp only [StreamStats.skipped, Prod.mk.injEq] at skipped
  simp only [StreamWorld.bookedIds, counts.openings, skipped]

theorem noteFirstPacket_booked (view : GvspView) (w : StreamWorld) :
    (w.noteFirstPacket view).bookedIds = w.bookedIds ∧
      (w.noteFirstPacket view).runner.stats.skipped = w.runner.stats.skipped ∧
      (w.AllReal → (w.noteFirstPacket view).AllReal) := by
  obtain ⟨position, noted⟩ := noteFirstPacket_eq view w
  rw [noted]
  exact ⟨rfl, rfl, id⟩

theorem Decides.real {new : Prop} (decides : Decides params view new w later) (real : w.AllReal)
    (forward : new → 1 ≤ w.distance view) : later.AllReal := by
  cases decides with
  | stays => exact real
  | opens =>
    intro frame present
    rcases List.mem_append.mp present with old | isLast
    · exact real frame old
    · rw [List.mem_singleton.mp isLast]
      rfl
  | replays _ _ _ _ isNew behind _ =>
    have ahead := forward isNew
    omega
  | underruns => exact real
  | drops => exact real

theorem Decides.booked {new : Prop} (decides : Decides params view new w later)
    (forward : new → 1 ≤ w.distance view)
    (skips : later.runner.stats.underruns ≠ w.runner.stats.underruns ∨
      later.runner.stats.unsupportedFrames ≠ w.runner.stats.unsupportedFrames → w.distance view = 1) :
    (later.bookedIds : Int) = w.bookedIds +
      blockIdDistance later.runner.lastFrameId w.runner.lastFrameId view.extendedIds := by
  cases decides with
  | stays => rw [blockIdDistance_self, Int.add_zero]
  | opens now nPackets slot isNew _ =>
    have ahead := forward isNew
    show _ = _ + w.distance view
    simp only [StreamWorld.bookedIds, StreamWorld.startFrame, StreamWorld.moveTo, StreamWorld.record,
      Option.isSome_none, Bool.false_eq_true, if_false]
    by_cases gap : 1 < w.distance view <;> simp only [gap, if_true, if_false] <;> omega
  | replays _ _ _ _ isNew behind _ =>
    have ahead := forward isNew
    omega
  | underruns _ =>
    have next : w.distance view = 1 := skips (.inl (Nat.succ_ne_self _))
    show _ = _ + w.distance view
    simp only [next, StreamWorld.bookedIds, StreamWorld.setStats, StreamWorld.skipFrame, StreamWorld.remember]
    omega
  | drops _ =>
    have next : w.distance view = 1 := skips (.inr (Nat.succ_ne_self _))
    show _ = _ + w.distance view
    simp only [next, StreamWorld.bookedIds, StreamWorld.setStats, StreamWorld.skipFrame, StreamWorld.remember]
    omega

theorem step_booked (wellformed : Wellformed params w) (real : w.AllReal) (enrolled : w.Enrolled)
    (forward : Forward w input) (skips : SkipsNext params w input) (result : w.step params input = .ok later) :
    (later.bookedIds : Int) = w.bookedIds + w.advance params input ∧ later.AllReal ∧ later.Enrolled := by
  cases arrives : input.arrival with
  | none =>
    have counts := step_counts wellformed enrolled arrives result
    rw [StreamWorld.advance, arrives, counts.bookedIds]
    exact ⟨(Int.add_zero _).symm, counts.real real, counts.enrolled enrolled⟩
  | some view =>
    obtain ⟨booked, noted_skipped, noted_real⟩ := noteFirstPacket_booked view w
    obtain ⟨_, middle, decided, looked, decides, handled⟩ := step_decides wellformed enrolled arrives result
    have same : middle.distance view = (w.noteFirstPacket view).distance view := by
      rw [StreamWorld.distance, StreamWorld.distance, looked.lastFrameId]
    have ahead : w.Unknown view → 1 ≤ middle.distance view := same ▸ forward view arrives
    have decided_real := decides.real (looked.real (noted_real real)) ahead
    -- A frame that is not provisional is never adopted.
    have counts := handled.resolve_right fun adopted => adopted.1 decided_real
    have before : middle.runner.stats.skipped = w.runner.stats.skipped := looked.skipped.trans noted_skipped
    have after := counts.skipped
    have nearby := skips view arrives
    rw [result, ← same] at nearby
    simp only [StreamStats.skipped, Prod.mk.injEq] at before after nearby
    rw [after.2.1, after.2.2, ← before.2.1, ← before.2.2] at nearby
    have books := decides.booked ahead nearby
    rw [← counts.bookedIds, looked.bookedIds, booked, ← counts.lastFrameId, looked.lastFrameId] at books
    refine ⟨?_, counts.real decided_real, ?_⟩
    · rw [StreamWorld.advance, arrives, result]
      exact books
    · exact counts.enrolled (decides.enrolled (looked.enrolled (noteFirstPacket_enrolled enrolled)))

theorem run_booked (params : StreamParams) (inputs : List StreamInput) : ∀ {w : StreamWorld}, Wellformed params w →
    w.AllReal → w.Enrolled → Along params Forward inputs w → Along params (SkipsNext params) inputs w →
    ∃ later, w.run params inputs = .ok later ∧ (later.bookedIds : Int) = w.bookedIds + w.totalAdvance params inputs := by
  induction inputs with
  | nil => exact fun _ _ _ _ _ => ⟨_, rfl, (Int.add_zero _).symm⟩
  | cons input rest ih =>
    intro w wellformed real enrolled forward skips
    obtain ⟨next, result, moves⟩ := StreamWorld.step_moves input wellformed
    obtain ⟨books, next_real, next_enrolled⟩ := step_booked wellformed real enrolled forward.1 skips.1 result
    have forward_rest := forward.2
    have skips_rest := skips.2
    rw [result] at forward_rest skips_rest
    obtain ⟨later, rest_result, rest_books⟩ :=
      ih (moves.wellformed wellformed) next_real next_enrolled forward_rest skips_rest
    refine ⟨later, by rw [StreamWorld.run, result]; exact rest_result, ?_⟩
    rw [StreamWorld.totalAdvance, result, rest_books, books, Int.add_assoc]

end Advance

def payloadOf (id : UInt8) : StreamInput := arriving [0, 0, 0, id, 3, 0, 0, 1, 10]

namespace StreamWorld

def gap (w : StreamWorld) (input : StreamInput) : Nat :=
  match input.arrival with
  | some view => ((w.noteFirstPacket view).distance view).toNat
  | none => 0

end StreamWorld

/-- The step adopts no restart, and every counter has room for what the step
can add to it: the packets of each frame that it may close, its subscribers,
and the ids that it skips. -/
def HasRoom (params : StreamParams) (w : StreamWorld) (input : StreamInput) : Prop :=
  match w.step params input with
  | .ok next =>
      adoptions next.journal = adoptions w.journal ∧
        ∀ count ∈ w.runner.stats.counters, count + w.gap input +
          (params.nBuffers + 3) * (maxFramePackets + 2 + next.fabric.subscriptions.length) < 2 ^ 64
  | .error _ => True

instance (params : StreamParams) (w : StreamWorld) (input : StreamInput) : Decidable (HasRoom params w input) := by
  unfold HasRoom
  cases w.step params input <;> infer_instance

def CountsUp (params : StreamParams) (w : StreamWorld) (input : StreamInput) : Prop :=
  match w.step params input with
  | .ok next =>
      List.Forall₂ (fun before after => before ≤ after ∧ after < 2 ^ 64) w.runner.stats.counters
        next.runner.stats.counters
  | .error _ => False

section Monotone

variable {params : StreamParams} {w later : StreamWorld} {input : StreamInput}

theorem StreamStats.Grows.bounded {amount : Nat} {stats later : StreamStats} (grows : stats.Grows amount later)
    (room : ∀ count ∈ stats.counters, count + amount < 2 ^ 64) :
    List.Forall₂ (fun before after => before ≤ after ∧ after < 2 ^ 64) stats.counters later.counters := by
  refine (List.forall₂_and_left _ _).mpr ⟨room, grows⟩ |>.imp ?_
  exact fun before after ⟨fits, up, within⟩ => ⟨up, by omega⟩

theorem step_room (buffers subscriptions : Nat) :
    (buffers + 2) * (maxFramePackets + 1 + subscriptions) + 5 ≤
      (buffers + 3) * (maxFramePackets + 2 + subscriptions) := by
  have size : 2 ≤ maxFramePackets := by decide
  nlinarith

theorem step_grows (wellformed : Wellformed params w) (enrolled : w.Enrolled)
    (result : w.step params input = .ok later) (unadopted : adoptions later.journal = adoptions w.journal) :
    w.runner.stats.Grows (w.gap input +
      (params.nBuffers + 3) * (maxFramePackets + 2 + later.fabric.subscriptions.length)) later.runner.stats ∧
      later.Enrolled := by
  have room := step_room params.nBuffers later.fabric.subscriptions.length
  cases arrives : input.arrival with
  | none =>
    have counts := step_counts wellformed enrolled arrives result
    refine ⟨counts.grows.mono ?_, counts.enrolled enrolled⟩
    rw [Nat.add_mul] at room
    omega
  | some view =>
    obtain ⟨_, middle, decided, looked, decides, handled⟩ := step_decides wellformed enrolled arrives result
    obtain ⟨position, noted⟩ := noteFirstPacket_eq view w
    have journal : (w.noteFirstPacket view).journal = w.journal := by rw [noted]
    have stats : (w.noteFirstPacket view).runner.stats = w.runner.stats := by rw [noted]
    have before := decides.adoptions.trans (looked.adoptions.trans (congrArg adoptions journal))
    have counts := handled.resolve_right fun adopted => by omega
    have grows := (looked.grows.trans decides.grows).trans counts.grows
    have distance : w.gap input = (middle.distance view).toNat := by
      simp only [StreamWorld.gap, arrives, StreamWorld.distance, looked.lastFrameId]
    rw [stats] at grows
    refine ⟨grows.mono ?_, counts.enrolled (decides.enrolled (looked.enrolled (noteFirstPacket_enrolled enrolled)))⟩
    omega

theorem run_countsUp (params : StreamParams) (inputs : List StreamInput) : ∀ {w : StreamWorld},
    Wellformed params w → w.Enrolled → Along params (HasRoom params) inputs w →
      Along params (CountsUp params) inputs w := by
  induction inputs with
  | nil => exact fun _ _ _ => trivial
  | cons input rest ih =>
    intro w wellformed enrolled hasRoom
    obtain ⟨next, result, moves⟩ := StreamWorld.step_moves input wellformed
    have here := hasRoom.1
    have rest_room := hasRoom.2
    rw [HasRoom] at here
    rw [result] at here rest_room
    obtain ⟨unadopted, room⟩ := here
    obtain ⟨grows, next_enrolled⟩ := step_grows wellformed enrolled result unadopted
    refine ⟨?_, ?_⟩
    · rw [CountsUp, result]
      exact grows.bounded fun count present => by rw [← Nat.add_assoc]; exact room count present
    · rw [result]
      exact ih (moves.wellformed wellformed) next_enrolled rest_room

end Monotone

/-- A stream whose fingerprints tell packets apart by the sum of their bytes. -/
def summingStream : StreamParams :=
  { smallStream with nBuffers := 4, fingerprint := fun _ data => (data.map (·.toNat)).sum }

/-- After `oneFrame` the device restarts: the same leader, then another first
payload packet. -/
def restarted : List StreamInput :=
  [arriving [0, 0, 0, 1, 1, 0, 0, 0, 0, 0, 0, 1, 0, 0, 0, 0, 0, 0, 0, 0],
    arriving [0, 0, 0, 1, 3, 0, 0, 1, 20, 21, 22, 23]]

def longPayload (id : List UInt8) : StreamInput :=
  arriving ([0, 0, 0, 0, 0x83, 0, 0, 0] ++ id ++ [0, 0, 0, 1, 10])

def longJumps : List StreamInput :=
  [longPayload [0, 0, 0, 0, 0, 0, 0, 1], longPayload [128, 0, 0, 0, 0, 0, 0, 0],
    longPayload [255, 255, 255, 255, 255, 255, 255, 255], longPayload [127, 255, 255, 255, 255, 255, 255, 255]]

end Telegenic.Stream
