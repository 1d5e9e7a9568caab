import Telegenic.Stream.RunnerMoves

/-! Runs of the receiver worker. A run never faults, and an invariant of the
worker is shown move by move. -/

set_option autoImplicit false

namespace Telegenic.Stream

open Library Proto Proto.Gvsp

/-- Every input of the run is allowed in the state that it meets. -/
def Along (params : StreamParams) (allowed : StreamWorld → StreamInput → Prop) : List StreamInput → StreamWorld → Prop
  | [], _ => True
  | input :: rest, w =>
      allowed w input ∧
        match w.step params input with
        | .ok next => Along params allowed rest next
        | .error _ => True

instance Along.instDecidable (params : StreamParams) (allowed : StreamWorld → StreamInput → Prop)
    [∀ w input, Decidable (allowed w input)] : (inputs : List StreamInput) → (w : StreamWorld) →
      Decidable (Along params allowed inputs w)
  | [], _ => .isTrue trivial
  | input :: rest, w =>
      @instDecidableAnd _ _ inferInstance <|
        match w.step params input with
        | .ok next => instDecidable params allowed rest next
        | .error _ => .isTrue trivial

theorem Along.of_forall {params : StreamParams} {allowed : StreamWorld → StreamInput → Prop}
    (inputs : List StreamInput) : ∀ (w : StreamWorld), (∀ w, ∀ input ∈ inputs, allowed w input) →
      Along params allowed inputs w := by
  induction inputs with
  | nil => exact fun _ _ => trivial
  | cons input rest ih =>
    intro w all
    refine ⟨all w input List.mem_cons_self, ?_⟩
    cases w.step params input with
    | ok next => exact ih next fun w other present => all w other (List.mem_cons_of_mem _ present)
    | error fault => trivial

theorem Along.imp {params : StreamParams} {allowed weaker : StreamWorld → StreamInput → Prop}
    (weakens : ∀ w input, allowed w input → weaker w input) {inputs : List StreamInput} : ∀ {w : StreamWorld},
      Along params allowed inputs w → Along params weaker inputs w := by
  induction inputs with
  | nil => exact fun _ => trivial
  | cons input rest ih =>
    intro w along
    refine ⟨weakens w input along.1, ?_⟩
    have along_rest := along.2
    cases result : w.step params input with
    | ok next =>
      rw [result] at along_rest
      exact ih along_rest
    | error fault => trivial

theorem Along.within {params : StreamParams} {allowed : StreamWorld → StreamInput → Prop}
    {inputs : List StreamInput} (all : List StreamInput) : ∀ {w : StreamWorld}, (∀ input ∈ inputs, input ∈ all) →
      Along params allowed inputs w → Along params (fun w input => input ∈ all ∧ allowed w input) inputs w := by
  induction inputs with
  | nil => exact fun _ _ => trivial
  | cons input rest ih =>
    intro w present along
    refine ⟨⟨present input List.mem_cons_self, along.1⟩, ?_⟩
    have along_rest := along.2
    cases result : w.step params input with
    | ok next =>
      rw [result] at along_rest
      exact ih (fun other inRest => present other (List.mem_cons_of_mem _ inRest)) along_rest
    | error fault => trivial

theorem spawn_wellformed (params : StreamParams) : Wellformed params (.spawn params) := by
  refine ⟨fun frame present => (by cases present), ?_, rfl, ?_, ?_, rfl⟩
  · refine ⟨List.nodup_nil, ?_, ?_, ?_, ?_, ?_⟩
    · exact fun entry present => by cases present
    · exact fun entry present => by cases present
    · exact fun entry present => by cases present
    · exact fun key held => by cases held
    · simp [Fabric.slots, StreamWorld.spawn, Fabric.newPool]
  · simp [Fabric.slots, StreamWorld.spawn, Fabric.newPool, Function.comp_def]
  · intro slot present
    simp only [Fabric.slots, StreamWorld.spawn, Fabric.newPool, List.map_nil, List.append_nil, List.mem_map] at present
    obtain ⟨key, _, rfl⟩ := present
    exact List.length_replicate

theorem run_preserves (params : StreamParams) (property : StreamWorld → Prop)
    {allowed : StreamWorld → StreamInput → Prop}
    (keeps : ∀ {world : StreamWorld} {input : StreamInput}, allowed world input →
      ∀ {before after : StreamWorld}, Move params world.runner.frames input.arrival before after →
        Wellformed params before → property before → property after)
    (inputs : List StreamInput) : ∀ (w : StreamWorld), Wellformed params w → property w →
      Along params allowed inputs w →
      ∃ later, w.run params inputs = .ok later ∧ Wellformed params later ∧ property later := by
  induction inputs with
  | nil => exact fun w wellformed initial _ => ⟨w, rfl, wellformed, initial⟩
  | cons input rest ih =>
    intro w wellformed initial along
    obtain ⟨next, result, moves⟩ := StreamWorld.step_moves input wellformed
    obtain ⟨still, holds⟩ := moves.preserve property (keeps along.1) wellformed initial
    have along_rest := along.2
    rw [result] at along_rest
    obtain ⟨later, rest_result, all⟩ := ih next still holds along_rest
    exact ⟨later, by rw [StreamWorld.run, result]; exact rest_result, all⟩

theorem run_reaches (params : StreamParams) (inputs : List StreamInput) :
    ∃ w, (StreamWorld.spawn params).run params inputs = .ok w ∧ Wellformed params w := by
  have along : Along params (fun _ _ => True) inputs (.spawn params) := .of_forall inputs _ fun _ _ _ => trivial
  obtain ⟨w, result, wellformed, _⟩ := run_preserves params (fun _ => True) (fun _ _ _ _ _ _ => trivial)
    inputs (.spawn params) (spawn_wellformed params) trivial along
  exact ⟨w, result, wellformed⟩

theorem run_wellformed {params : StreamParams} {inputs : List StreamInput} {w : StreamWorld}
    (reached : (StreamWorld.spawn params).run params inputs = .ok w) : Wellformed params w := by
  obtain ⟨later, result, wellformed⟩ := run_reaches params inputs
  rw [reached] at result
  cases result
  exact wellformed

/-- A property of frames in flight that holds when they are opened and is kept
by whatever happens to them. -/
structure Tracked (params : StreamParams) (origin : List FrameInFlight) (arrival : Option GvspView)
    (holds : FrameInFlight → Prop) : Prop where
  opened : ∀ {view : GvspView} {now nPackets opening : Nat} {slot : BufSlot} {replayOf : Option Fingerprints},
    arrival = some view → (∀ frame ∈ origin, frame.frameId ≠ view.frameId) →
    computeNExpectedPackets params view = .ok nPackets → nPackets ≠ 0 →
    holds (StreamWorld.newFrame params view now nPackets opening slot replayOf)
  touched : ∀ {before after : FrameInFlight}, Untouched before after → holds before → holds after
  adopted : ∀ {before : FrameInFlight}, holds before → holds { before with replayOf := none }
  absorbed : ∀ {view : GvspView} {before after : FrameInFlight}, arrival = some view →
    Routed origin view before → Valid params before → Absorbs params view before after → holds before → holds after

def AllDelivered (good : Frame → List GvspView → Prop) (journal : List StreamEvent) : Prop :=
  ∀ opening frame accepted, .delivered opening frame accepted ∈ journal → good frame accepted

section Tracking

variable {params : StreamParams} {origin : List FrameInFlight} {arrival : Option GvspView}
  {holds : FrameInFlight → Prop} {good : Frame → List GvspView → Prop} {w later : StreamWorld}

theorem Move.tracked (move : Move params origin arrival w later) (wellformed : Wellformed params w)
    (tracked : Tracked params origin arrival holds) (all : ∀ frame ∈ w.runner.frames, holds frame) :
    ∀ frame ∈ later.runner.frames, holds frame := by
  cases move with
  | quiet frames => exact frames ▸ all
  | touched found untouched frames =>
    rw [frames]
    exact set_forall all (tracked.touched untouched (all _ (List.mem_of_getElem? found)))
  | absorbed isArrival found routed absorbs frames =>
    have present := List.mem_of_getElem? found
    rw [frames]
    exact set_forall all (tracked.absorbed isArrival routed (wellformed.frames _ present) absorbs (all _ present))
  | adopted found provisional untouched frames =>
    rw [frames]
    exact set_forall all (tracked.touched untouched (tracked.adopted (all _ (List.mem_of_getElem? found))))
  | opened isArrival unknown distinct alone restart expected supported frames =>
    rw [frames]
    intro frame present
    rcases List.mem_append.mp present with old | new
    · exact all frame old
    · rw [List.mem_singleton.mp new]
      exact tracked.opened isArrival unknown expected supported
  | discarded found provisional frames =>
    rw [frames]
    exact fun frame present => all frame (List.mem_of_mem_eraseIdx present)
  | delivered found real headOfLine complete frames =>
    rw [frames]
    exact fun frame present => all frame (List.mem_of_mem_eraseIdx present)

theorem AllDelivered.snoc {journal : List StreamEvent} {event : StreamEvent} (all : AllDelivered good journal)
    (holds : ∀ opening frame accepted, event = .delivered opening frame accepted → good frame accepted) :
    AllDelivered good (journal ++ [event]) := by
  intro opening frame accepted present
  rcases List.mem_append.mp present with old | new
  · exact all opening frame accepted old
  · exact holds opening frame accepted (List.mem_singleton.mp new).symm

theorem Move.allDelivered (move : Move params origin arrival w later) (wellformed : Wellformed params w)
    (tracks : ∀ frame ∈ w.runner.frames, holds frame)
    (closing : ∀ {frame : FrameInFlight} {status : FrameStatus}, Valid params frame → holds frame →
      (status = .complete → frame.allReceived = true ∧ frame.error = none ∧ frame.receivedSize = frame.dataEnd) →
      good (frame.toFrame params status) frame.accepted)
    (all : AllDelivered good w.journal) : AllDelivered good later.journal := by
  cases move with
  | quiet frames openings journal =>
    rcases journal with same | ⟨request, requested⟩
    · exact same ▸ all
    · rw [requested]
      exact all.snoc fun _ _ _ other => by cases other
  | touched found untouched frames openings journal => exact journal ▸ all
  | absorbed isArrival found routed absorbs frames openings journal => exact journal ▸ all
  | adopted found provisional untouched frames openings journal =>
    rw [journal]
    exact all.snoc fun _ _ _ other => by cases other
  | opened isArrival unknown distinct alone restart expected supported frames openings journal =>
    rw [journal]
    exact all.snoc fun _ _ _ other => by cases other
  | discarded found provisional frames openings journal =>
    rw [journal]
    exact all.snoc fun _ _ _ other => by cases other
  | delivered found real headOfLine complete frames openings journal =>
    have present := List.mem_of_getElem? found
    rw [journal]
    refine all.snoc fun opening frame accepted same => ?_
    cases same
    exact closing (wellformed.frames _ present) (tracks _ present) complete

end Tracking

theorem run_tracks (params : StreamParams) {allowed : StreamWorld → StreamInput → Prop}
    (holds : FrameInFlight → Prop) (good : Frame → List GvspView → Prop)
    (tracked : ∀ {world : StreamWorld} {input : StreamInput}, allowed world input →
      Tracked params world.runner.frames input.arrival holds)
    (closing : ∀ {frame : FrameInFlight} {status : FrameStatus}, Valid params frame → holds frame →
      (status = .complete → frame.allReceived = true ∧ frame.error = none ∧ frame.receivedSize = frame.dataEnd) →
      good (frame.toFrame params status) frame.accepted)
    {inputs : List StreamInput} (along : Along params allowed inputs (.spawn params)) :
    ∃ later, (StreamWorld.spawn params).run params inputs = .ok later ∧ Wellformed params later ∧
      (∀ frame ∈ later.runner.frames, holds frame) ∧ AllDelivered good later.journal := by
  refine run_preserves params
    (fun w => (∀ frame ∈ w.runner.frames, holds frame) ∧ AllDelivered good w.journal)
    ?_ inputs (.spawn params) (spawn_wellformed params) ?_ along
  · intro world input isAllowed before after move wellformed both
    exact ⟨move.tracked wellformed (tracked isAllowed) both.1,
      move.allDelivered wellformed both.1 closing both.2⟩
  · exact ⟨fun frame present => (by cases present), fun _ _ _ present => by cases present⟩

end Telegenic.Stream
