import Telegenic.Stream.Moves

/-! Every function of the receiver worker, from a wellformed state, returns
without a fault and amounts to a sequence of moves. -/

set_option autoImplicit false

namespace Telegenic.Stream

open Library Proto Proto.Gvsp

namespace StreamWorld

section Quiet

variable {worker : List Nat} {w later last : StreamWorld}

/-- The frames and the journal are as before; the shared state may have moved
on without losing a slot. -/
structure Quietly (worker : List Nat) (w later : StreamWorld) : Prop where
  frames : later.runner.frames = w.runner.frames
  openings : later.runner.openings = w.runner.openings
  journal : later.journal = w.journal
  conserves : Fabric.Conserves w.fabric later.fabric
  accounted : later.fabric.Accounted worker

namespace Quietly

theorem trans {middle : List Nat} (first : Quietly middle w later) (second : Quietly worker later last) :
    Quietly worker w last :=
  ⟨second.frames.trans first.frames, second.openings.trans first.openings,
    second.journal.trans first.journal, first.conserves.trans second.conserves, second.accounted⟩

theorem runner {runner : StreamRunner} (accounted : w.fabric.Accounted worker)
    (frames : runner.frames = w.runner.frames) (openings : runner.openings = w.runner.openings) :
    Quietly worker w { w with runner := runner } :=
  ⟨frames, openings, rfl, .refl, accounted⟩

theorem refl (accounted : w.fabric.Accounted worker) : Quietly worker w w :=
  ⟨rfl, rfl, rfl, .refl, accounted⟩

theorem move {params : StreamParams} {origin : List FrameInFlight} {arrival : Option GvspView}
    (quietly : Quietly [] w later) : Move params origin arrival w later :=
  .quiet quietly.frames quietly.openings (.inl quietly.journal) quietly.conserves.slots
    ⟨quietly.accounted, quietly.conserves.capacity, quietly.conserves.lost⟩

theorem moves {params : StreamParams} {origin : List FrameInFlight} {arrival : Option GvspView}
    (quietly : Quietly [] w later) : Moves params origin arrival w later :=
  .single quietly.move

end Quietly

theorem yield_quietly (w : StreamWorld) (accounted : w.fabric.Accounted worker) : Quietly worker w w.yield := by
  unfold yield
  cases schedule : w.schedule with
  | nil => exact .refl accounted
  | cons acts rest =>
    obtain ⟨consumed, conserved⟩ := Fabric.Accounted.consumeAll acts w.fabric accounted
    exact ⟨rfl, rfl, rfl, conserved, consumed⟩

theorem command_frames (runner : StreamRunner) (message : ToStreamWorker) :
    (command runner message).frames = runner.frames ∧ (command runner message).openings = runner.openings := by
  cases message <;> exact ⟨rfl, rfl⟩

theorem commands_frames (messages : List ToStreamWorker) : ∀ (runner : StreamRunner),
    (messages.foldl command runner).frames = runner.frames ∧
      (messages.foldl command runner).openings = runner.openings := by
  induction messages with
  | nil => exact fun runner => ⟨rfl, rfl⟩
  | cons message rest ih =>
    intro runner
    obtain ⟨frames, openings⟩ := command_frames runner message
    obtain ⟨rest_frames, rest_openings⟩ := ih (command runner message)
    exact ⟨rest_frames.trans frames, rest_openings.trans openings⟩

theorem drainCommands_quietly (w : StreamWorld) (accounted : w.fabric.Accounted worker) : Quietly worker w w.drainCommands := by
  have yielded := yield_quietly w accounted
  obtain ⟨frames, openings⟩ := commands_frames w.yield.fabric.commands w.yield.runner
  refine yielded.trans ⟨frames, openings, rfl, ⟨.refl _, rfl, rfl⟩, ?_⟩
  exact Fabric.Sound.congr yielded.accounted rfl rfl rfl rfl

theorem setStats_quietly (w : StreamWorld) (accounted : w.fabric.Accounted worker) (stats : StreamStats) :
    Quietly worker w (w.setStats stats) :=
  .runner accounted rfl rfl

theorem publishStats_quietly (w : StreamWorld) (accounted : w.fabric.Accounted worker) : Quietly worker w w.publishStats :=
  .runner accounted rfl rfl

theorem skipFrame_quietly (w : StreamWorld) (accounted : w.fabric.Accounted worker) (view : GvspView) :
    Quietly worker w (w.skipFrame view) :=
  .runner accounted rfl rfl

theorem setStats_skipFrame_quietly (w : StreamWorld) (accounted : w.fabric.Accounted worker) (stats : StreamStats)
    (view : GvspView) : Quietly worker w ((w.setStats stats).skipFrame view) :=
  (setStats_quietly w accounted stats).trans (skipFrame_quietly (w.setStats stats) accounted view)

theorem noteFirstPacket_quietly (w : StreamWorld) (accounted : w.fabric.Accounted worker) (view : GvspView) :
    Quietly worker w (w.noteFirstPacket view) := by
  unfold noteFirstPacket
  split
  · exact .runner accounted rfl rfl
  · exact .refl accounted

theorem noteFanOut_quietly (w : StreamWorld) (accounted : w.fabric.Accounted worker) (subscribers : List Nat) (dropped : Nat) :
    Quietly worker w (w.noteFanOut subscribers dropped) := by
  unfold noteFanOut
  simp only
  split
  · exact .runner accounted rfl rfl
  · exact .runner accounted rfl rfl

theorem fanOut_quietly {key : Nat} (subscribers : List Nat) : ∀ (w : StreamWorld),
    w.fabric.Accounted [key] → Quietly [key] w (fanOut key subscribers w).1 := by
  induction subscribers with
  | nil => exact fun w accounted => .refl accounted
  | cons id rest ih =>
    intro w accounted
    have yielded := yield_quietly w accounted
    obtain ⟨retained, cloned⟩ := yielded.accounted.retain key (by simp)
    obtain ⟨offered, sent, unsent⟩ := retained.trySend id
    have continued : ∀ (fabric : Fabric), fabric.Accounted [key] →
        Fabric.Conserves (w.yield.fabric.retain key) fabric →
        Quietly [key] w { w.yield with fabric := fabric } := fun fabric holds conserves =>
      yielded.trans ⟨rfl, rfl, rfl, cloned.trans conserves, holds⟩
    rw [fanOut]
    rcases outcome : (w.yield.fabric.retain key).trySend id key with ⟨fabric, result⟩
    rw [outcome] at offered sent unsent
    cases result with
    | sent =>
      have here := continued fabric (sent rfl) offered
      exact here.trans (ih _ here.accounted)
    | full =>
      obtain ⟨released, conserved⟩ := (unsent (by simp)).release
      have here := continued (fabric.release key) released (offered.trans conserved)
      exact here.trans (ih _ here.accounted)
    | disconnected =>
      obtain ⟨released, conserved⟩ := (unsent (by simp)).release
      obtain ⟨dropped, drop_conserved⟩ := released.dropSender id
      have here := continued ((fabric.release key).dropSender id) dropped
        (offered.trans (conserved.trans drop_conserved))
      exact here.trans (ih _ here.accounted)

theorem deliver_spec (w : StreamWorld) (accounted : w.fabric.Accounted []) (room : w.fabric.slots.length < w.fabric.poolCapacity)
    (opening : Nat) (frame : Frame) (accepted : List GvspView) :
    (w.deliver opening frame accepted).runner.frames = w.runner.frames ∧
      (w.deliver opening frame accepted).runner.openings = w.runner.openings ∧
      (w.deliver opening frame accepted).journal = w.journal ++ [.delivered opening frame accepted] ∧
      (w.deliver opening frame accepted).fabric.slots.Perm (frame.slot :: w.fabric.slots) ∧
      FabricKept w (w.deliver opening frame accepted) := by
  obtain ⟨shared, slots⟩ := accounted.share frame room
  have fanned := fanOut_quietly (w.announce opening frame accepted).runner.subscribers
    (w.announce opening frame accepted) shared
  let fan := fanOut w.fabric.nextKey (w.announce opening frame accepted).runner.subscribers
    (w.announce opening frame accepted)
  have noted := fanned.trans (noteFanOut_quietly _ fanned.accounted fan.2.1 fan.2.2)
  have yielded := noted.trans (yield_quietly _ noted.accounted)
  obtain ⟨released, conserved⟩ := yielded.accounted.release
  have conserves := yielded.conserves.trans conserved
  refine ⟨yielded.frames, yielded.openings, yielded.journal, ?_,
    ⟨released, conserves.capacity, conserves.lost⟩⟩
  refine conserves.slots.trans ?_
  rw [show (w.announce opening frame accepted).fabric.slots = _ from slots]
  exact List.perm_append_singleton _ _

end Quiet

section Frames

variable {params : StreamParams} (origin : List FrameInFlight) (arrival : Option GvspView) {w : StreamWorld}
  {index : Nat} {frame : FrameInFlight}

theorem get_frame (found : w.runner.frames[index]? = some frame) :
    Checked.get w.runner.frames index = .ok frame :=
  Checked.get_ok found

theorem discardFrame_moves (wellformed : Wellformed params w) (found : w.runner.frames[index]? = some frame)
    (provisional : frame.provisional = true) :
    ∃ later, w.discardFrame index = .ok later ∧ Moves params origin arrival w later ∧
      later.runner.frames = w.runner.frames.eraseIdx index := by
  have yielded : Quietly [] (w.removeFrame index) (w.removeFrame index).yield :=
    yield_quietly _ wellformed.accounted
  have room : (w.removeFrame index).yield.fabric.slots.length < (w.removeFrame index).yield.fabric.poolCapacity := by
    rw [yielded.conserves.slots.length_eq, yielded.conserves.capacity]
    exact wellformed.room found
  obtain ⟨accounted, slots, capacity, lost⟩ := yielded.accounted.returnSlot frame.slot room
  refine ⟨((w.removeFrame index).yield.returnSlot frame.slot).record (.discarded frame.opening),
    by rw [discardFrame, get_frame found]; rfl, .single ?_, yielded.frames⟩
  exact .discarded found provisional yielded.frames yielded.openings (congrArg (· ++ [_]) yielded.journal)
    (slots.trans (yielded.conserves.slots.cons _))
    ⟨accounted, capacity.trans yielded.conserves.capacity, lost.trans yielded.conserves.lost⟩

theorem closeFrame_spec (wellformed : Wellformed params w) (found : w.runner.frames[index]? = some frame)
    (status : FrameStatus) :
    ∃ later, w.closeFrame params index status = .ok later ∧
      later.runner.frames = w.runner.frames.eraseIdx index ∧ later.runner.openings = w.runner.openings ∧
      later.journal = w.journal ++ [.delivered frame.opening (frame.toFrame params status) frame.accepted] ∧
      later.fabric.slots.Perm (frame.slot :: w.fabric.slots) ∧ FabricKept w later := by
  have drained := drainCommands_quietly w wellformed.accounted
  have found' : w.drainCommands.runner.frames[index]? = some frame := by rw [drained.frames]; exact found
  let removed := ((w.drainCommands.removeFrame index).remember frame.frameId frame.extendedIds
    (some frame.fingerprints))
  let counted := removed.setStats (removed.runner.stats.close status frame)
  have room : counted.fabric.slots.length < counted.fabric.poolCapacity := by
    rw [show counted.fabric.slots.length = _ from drained.conserves.slots.length_eq,
      show counted.fabric.poolCapacity = _ from drained.conserves.capacity]
    exact wellformed.room found
  obtain ⟨frames, openings, journal, slots, kept⟩ :=
    deliver_spec counted drained.accounted room frame.opening (frame.toFrame params status) frame.accepted
  refine ⟨_, by rw [closeFrame, get_frame found']; rfl, frames.trans ?_, openings.trans drained.openings,
    journal.trans ?_, slots.trans (drained.conserves.slots.cons _),
    ⟨kept.accounted, kept.capacity.trans drained.conserves.capacity, kept.lost.trans drained.conserves.lost⟩⟩
  · exact congrArg (List.eraseIdx · index) drained.frames
  · exact congrArg (· ++ [_]) drained.journal

theorem closeFrame_moves (wellformed : Wellformed params w) (found : w.runner.frames[index]? = some frame)
    (real : frame.provisional = false)
    (headOfLine : ∀ before < index, ∀ other, w.runner.frames[before]? = some other → other.provisional = true)
    (status : FrameStatus) (complete : status = .complete →
      frame.allReceived = true ∧ frame.error = none ∧ frame.receivedSize = frame.dataEnd) :
    ∃ later, w.closeFrame params index status = .ok later ∧ Moves params origin arrival w later ∧
      later.runner.frames = w.runner.frames.eraseIdx index := by
  obtain ⟨later, result, frames, openings, journal, slots, kept⟩ := closeFrame_spec wellformed found status
  exact ⟨later, result, .single (.delivered found real headOfLine complete frames openings journal slots kept), frames⟩

theorem filter_eraseIdx {Value : Type} {keep : Value → Bool} {values : List Value} {index : Nat} {value : Value}
    (found : values[index]? = some value) (dropped : keep value = false) :
    (values.eraseIdx index).filter keep = values.filter keep := by
  obtain ⟨inside, rfl⟩ := List.getElem?_eq_some_iff.mp found
  conv_rhs => rw [← List.take_append_drop index values, List.drop_eq_getElem_cons inside]
  rw [List.eraseIdx_eq_take_drop_succ, List.filter_append, List.filter_append,
    List.filter_cons_of_neg (Bool.eq_false_iff.mp dropped)]

theorem discardProvisionalLoop_moves : ∀ (fuel : Nat) (w : StreamWorld), Wellformed params w →
    w.runner.frames.length ≤ fuel →
    ∃ later, discardProvisionalLoop fuel w = .ok later ∧ Moves params origin arrival w later ∧
      later.runner.frames = w.runner.frames.filter (!·.provisional) := by
  intro fuel
  induction fuel with
  | zero =>
    intro w _ none_left
    have empty : w.runner.frames = [] := List.length_eq_zero_iff.mp (by omega)
    exact ⟨w, rfl, .refl, by rw [empty]; rfl⟩
  | succ fuel ih =>
    intro w wellformed enough
    rw [discardProvisionalLoop]
    cases search : w.runner.frames.findIdx? (·.provisional) with
    | none =>
      refine ⟨w, rfl, .refl, (List.filter_eq_self.mpr fun frame present => ?_).symm⟩
      rw [Bool.not_eq_true', List.findIdx?_eq_none_iff.mp search frame present]
    | some index =>
      obtain ⟨inside, provisional, _⟩ := List.findIdx?_eq_some_iff_getElem.mp search
      have found := List.getElem?_eq_getElem inside
      obtain ⟨next, result, moves, frames⟩ := discardFrame_moves origin arrival wellformed found provisional
      have shorter : next.runner.frames.length ≤ fuel := by
        rw [frames, List.length_eraseIdx_of_lt inside]
        omega
      obtain ⟨later, rest_result, rest_moves, filtered⟩ := ih next (moves.wellformed wellformed) shorter
      refine ⟨later, ?_, moves.trans rest_moves, ?_⟩
      · simp only [result, Checked.ok_bind, rest_result]
      · rw [filtered, frames]
        exact filter_eraseIdx found (by rw [provisional]; rfl)

theorem discardProvisional_moves (wellformed : Wellformed params w) :
    ∃ later, w.discardProvisional = .ok later ∧ Moves params origin arrival w later ∧
      later.runner.frames = w.runner.frames.filter (!·.provisional) :=
  discardProvisionalLoop_moves origin arrival w.runner.frames.length w wellformed le_rfl

theorem mem_filter_real {frames : List FrameInFlight} (present : frame ∈ frames.filter (!·.provisional)) :
    frame ∈ frames ∧ frame.provisional = false := by
  simpa using List.mem_filter.mp present

def RoutedTo (origin : List FrameInFlight) (view : GvspView) (later : StreamWorld) (found : Option Nat) : Prop :=
  ∀ index, found = some index →
    ∃ frame, later.runner.frames[index]? = some frame ∧ Routed origin view frame

theorem RoutedTo.nowhere {origin : List FrameInFlight} {view : GvspView} {later : StreamWorld} : RoutedTo origin view later none := by
  intro index found
  cases found

theorem startFrame_spec (params : StreamParams) (w : StreamWorld) (view : GvspView) (now nPackets : Nat)
    (distance : Int) (replayOf : Option Fingerprints) (slot : BufSlot) :
    (w.startFrame params view now nPackets distance replayOf slot).runner.frames =
        w.runner.frames ++ [newFrame params view now nPackets w.runner.openings slot replayOf] ∧
      (w.startFrame params view now nPackets distance replayOf slot).runner.openings = w.runner.openings + 1 ∧
      (w.startFrame params view now nPackets distance replayOf slot).journal =
        w.journal ++ [.opened w.runner.openings view.frameId replayOf.isSome] ∧
      (w.startFrame params view now nPackets distance replayOf slot).fabric = w.fabric := by
  unfold startFrame
  by_cases provisional : replayOf.isSome = true
  · simp only [if_pos provisional]
    exact ⟨rfl, rfl, rfl, rfl⟩
  · simp only [if_neg provisional]
    exact ⟨rfl, rfl, rfl, rfl⟩

theorem openFrame_moves {view : GvspView} (now : Nat) {nPackets : Nat} (distance : Int)
    {replayOf : Option Fingerprints} (wellformed : Wellformed params w) (isArrival : arrival = some view)
    (unknown : ∀ frame ∈ origin, frame.frameId ≠ view.frameId)
    (distinct : ∀ frame ∈ w.runner.frames, frame.frameId ≠ view.frameId)
    (alone : replayOf = none → ∀ frame ∈ w.runner.frames, frame.provisional = false)
    (restart : replayOf ≠ none → view.frameId = restartBlockId)
    (expected : computeNExpectedPackets params view = .ok nPackets) (supported : nPackets ≠ 0) :
    ∃ later found, w.openFrame params view now nPackets distance replayOf = (later, found) ∧
      Moves params origin arrival w later ∧ RoutedTo origin view later found := by
  have yielded := yield_quietly w wellformed.accounted
  rcases claim : w.yield.fabric.tryClaim with ⟨fabric, claimed⟩
  cases claimed with
  | none =>
    have counted := setStats_quietly w.yield yielded.accounted
    simp only [openFrame, claim]
    split
    · exact ⟨_, none, rfl, (yielded.trans (counted _)).moves, .nowhere⟩
    · exact ⟨_, none, rfl,
        (yielded.trans (setStats_skipFrame_quietly _ yielded.accounted _ view)).moves, .nowhere⟩
  | some slot =>
    obtain ⟨accounted, slots, capacity, lost⟩ := yielded.accounted.tryClaim claim
    obtain ⟨frames, openings, journal, fabric_eq⟩ :=
      startFrame_spec params { w.yield with fabric := fabric } view now nPackets distance replayOf slot
    simp only [openFrame, claim]
    refine ⟨_, _, rfl, yielded.moves.tail (.opened isArrival unknown ?_ ?_ restart expected supported
      frames openings journal ?_ ⟨?_, ?_, ?_⟩), ?_⟩
    · rw [yielded.frames]
      exact distinct
    · rw [yielded.frames]
      exact alone
    · rw [fabric_eq]
      exact .of_eq slots
    · rw [fabric_eq]
      exact accounted
    · rw [fabric_eq]
      exact capacity
    · rw [fabric_eq]
      exact lost
    · intro index found
      cases found
      exact ⟨_, by rw [frames]; exact List.getElem?_concat_length, rfl, fun seen => by cases seen⟩

theorem makeWay_moves (replayOf : Option Fingerprints) (wellformed : Wellformed params w) :
    ∃ next, (if replayOf.isSome then .ok w else w.discardProvisional) = Except.ok next ∧
      Moves params origin arrival w next ∧
      (replayOf = none → ∀ frame ∈ next.runner.frames, frame.provisional = false) ∧
      (∀ frame ∈ next.runner.frames, frame ∈ w.runner.frames) := by
  cases replayOf with
  | none =>
    obtain ⟨next, result, moves, frames⟩ := discardProvisional_moves origin arrival wellformed
    refine ⟨next, result, moves, fun _ frame present => ?_, fun frame present => ?_⟩
    · exact (mem_filter_real (frames ▸ present)).2
    · exact (mem_filter_real (frames ▸ present)).1
  | some fingerprints => exact ⟨w, rfl, .refl, fun absent => (by cases absent), fun _ present => present⟩

theorem createFrame_moves {view : GvspView} (now : Nat) (distance : Int) (replayOf : Option Fingerprints)
    (wellformed : Wellformed params w) (isArrival : arrival = some view)
    (unknown : ∀ frame ∈ origin, frame.frameId ≠ view.frameId)
    (distinct : ∀ frame ∈ w.runner.frames, frame.frameId ≠ view.frameId)
    (restart : replayOf ≠ none → view.frameId = restartBlockId) :
    ∃ later found, w.createFrame params view now distance replayOf = .ok (later, found) ∧
      Moves params origin arrival w later ∧ RoutedTo origin view later found := by
  obtain ⟨next, result, moves, alone, kept⟩ := makeWay_moves origin arrival replayOf wellformed
  obtain ⟨nPackets, expected, _⟩ := computeNExpectedPackets_spec params view
  have accounted := (moves.wellformed wellformed).accounted
  unfold createFrame
  rw [result, Checked.ok_bind, expected, Checked.ok_bind]
  by_cases unsupported : nPackets = 0
  · rw [if_pos unsupported]
    have counted := setStats_quietly next accounted
    simp only
    split
    · exact ⟨_, none, rfl, moves.trans (counted _).moves, .nowhere⟩
    · exact ⟨_, none, rfl,
        moves.trans ((counted _).trans (setStats_skipFrame_quietly next.ignore accounted _ view)).moves, .nowhere⟩
  · rw [if_neg unsupported]
    obtain ⟨later, found, opening, opened, routed⟩ := openFrame_moves origin arrival now distance
      (moves.wellformed wellformed) isArrival unknown
      (fun frame present => distinct frame (kept frame present)) alone restart expected unsupported
    exact ⟨later, found, congrArg Except.ok opening, moves.trans opened, routed⟩

theorem setFrame_moves {after : FrameInFlight} (found : w.runner.frames[index]? = some frame)
    (untouched : Untouched frame after) : Moves params origin arrival w (w.setFrame index after) :=
  .single (.touched found untouched rfl rfl rfl rfl)

theorem classifyBehind_replay {view : GvspView} {fingerprints : Fingerprints}
    (replay : w.classifyBehind view = .maybeReplay fingerprints) : view.frameId = restartBlockId := by
  by_contra other
  rw [classifyBehind, if_pos other] at replay
  cases replay

theorem findOrCreateFrame_moves {view : GvspView} (now : Nat) (wellformed : Wellformed params w)
    (isArrival : arrival = some view) (started : w.runner.frames = origin) :
    ∃ later found, w.findOrCreateFrame params view now = .ok (later, found) ∧
      Moves params origin arrival w later ∧ RoutedTo origin view later found := by
  unfold findOrCreateFrame
  cases search : w.runner.frames.findIdx? (·.frameId == view.frameId) with
  | some index =>
    obtain ⟨inside, sameId, _⟩ := List.findIdx?_eq_some_iff_getElem.mp search
    have found := List.getElem?_eq_getElem inside
    let frame := w.runner.frames[index]
    have untouched : Untouched frame { frame with lastPacketTime := now } := .bookkeeping _ _ _ _ _ _
    simp only [get_frame found, Checked.ok_bind]
    refine ⟨_, _, rfl, setFrame_moves origin arrival found untouched, ?_⟩
    intro position isPosition
    cases isPosition
    refine ⟨_, List.getElem?_set_self inside, beq_iff_eq.mp sameId, fun seen => ?_⟩
    exact ⟨frame, started ▸ List.getElem_mem inside, beq_iff_eq.mp sameId, seen, rfl⟩
  | none =>
    have distinct : ∀ frame ∈ w.runner.frames, frame.frameId ≠ view.frameId := by
      simpa using List.findIdx?_eq_none_iff.mp search
    have unknown : ∀ frame ∈ origin, frame.frameId ≠ view.frameId := started ▸ distinct
    have created := fun replayOf restart =>
      createFrame_moves origin arrival now (blockIdDistance view.frameId w.runner.lastFrameId view.extendedIds)
        replayOf wellformed isArrival unknown distinct restart
    have opened := created none (fun absent => absurd rfl absent)
    simp only
    split
    · cases behind : w.classifyBehind view with
      | new => exact opened
      | maybeReplay fingerprints => exact created (some fingerprints) (fun _ => classifyBehind_replay behind)
      | late => exact ⟨_, none, rfl, (setStats_quietly w wellformed.accounted _).moves, .nowhere⟩
    · exact opened

theorem adoptRestart_moves (found : w.runner.frames[index]? = some frame) (provisional : frame.provisional = true) :
    ∃ later after, w.adoptRestart index = .ok later ∧ Moves params origin arrival w later ∧
      later.runner.frames[index]? = some after := by
  have inside := (List.getElem?_eq_some_iff.mp found).1
  unfold adoptRestart
  rw [get_frame found, Checked.ok_bind]
  refine ⟨_, _, rfl, .single (.adopted found provisional ?_ rfl rfl rfl rfl), List.getElem?_set_self inside⟩
  exact .bookkeeping { frame with replayOf := none } _ _ _ _ _

theorem requestRanges_moves (ranges : List (Nat × Nat)) : ∀ {w : StreamWorld}, w.fabric.Accounted [] →
    frame ∈ w.runner.frames → (∀ range ∈ ranges, range.1 ≤ range.2 ∧ range.2 < frame.nPackets) →
    Moves params origin arrival w (ranges.foldl (requestRange frame) w) ∧
      (ranges.foldl (requestRange frame) w).runner.frames = w.runner.frames := by
  induction ranges with
  | nil => exact fun _ _ _ => ⟨.refl, rfl⟩
  | cons range rest ih =>
    intro w accounted present within
    obtain ⟨inside, within⟩ := List.forall_mem_cons.mp within
    let sent := w.sendResendRequest frame.frameId range.1 range.2 frame.extendedIds
    have requested : Move params origin arrival w sent :=
      .quiet rfl rfl (.inr ⟨⟨_, frame, present, rfl, rfl, inside.1, inside.2⟩, rfl⟩) (.refl _) ⟨accounted, rfl, rfl⟩
    obtain ⟨moves, frames⟩ := ih (w := requestRange frame w range) accounted present within
    exact ⟨((Relation.ReflTransGen.single requested).trans (setStats_quietly sent accounted _).moves).trans moves, frames⟩

theorem missingPacketCheck_moves (packetId now : Nat) (wellformed : Wellformed params w)
    (found : w.runner.frames[index]? = some frame) :
    ∃ later after, w.missingPacketCheck params index packetId now = .ok later ∧
      Moves params origin arrival w later ∧ Scanned frame after ∧
      later.runner.frames = w.runner.frames.set index after := by
  have bounds := (wellformed.frames frame (List.mem_of_getElem? found)).inBounds
  obtain ⟨after, verdict, result, scanned⟩ := findHoles_spec params bounds packetId now
  have moves : Moves params origin arrival w (w.setFrame index after) := setFrame_moves origin arrival found scanned.toUntouched
  have accounted : (w.setFrame index after).fabric.Accounted [] := wellformed.accounted
  unfold missingPacketCheck
  rw [get_frame found, Checked.ok_bind, result, Checked.ok_bind]
  cases verdict with
  | skipped => exact ⟨_, after, rfl, moves, scanned, rfl⟩
  | ratioReached => exact ⟨_, after, rfl, moves.trans (setStats_quietly _ accounted _).moves, scanned, rfl⟩
  | requests ranges =>
    obtain ⟨inside, _⟩ := List.getElem?_eq_some_iff.mp found
    have within := (findHoles_requests bounds result).1
    rw [← scanned.nPackets] at within
    obtain ⟨requested, frames⟩ :=
      requestRanges_moves origin arrival ranges accounted (List.mem_set inside after) within
    exact ⟨_, after, rfl, moves.trans requested, scanned, frames⟩

/-- Frames close head-of-line: past a frame that stays, only provisional frames
may have been left behind. -/
def HeadOfLine (w : StreamWorld) (index : Nat) (canClose : Bool) : Prop :=
  canClose = true → ∀ before < index, ∀ other, w.runner.frames[before]? = some other → other.provisional = true

theorem HeadOfLine.erased {later : StreamWorld} {canClose : Bool} (headOfLine : HeadOfLine w index canClose)
    (frames : later.runner.frames = w.runner.frames.eraseIdx index) : HeadOfLine later index canClose := by
  intro may before earlier other isOther
  rw [frames, List.getElem?_eraseIdx_of_lt earlier] at isOther
  exact headOfLine may before earlier other isOther

theorem HeadOfLine.passed {canClose : Bool} (headOfLine : HeadOfLine w index canClose)
    (found : w.runner.frames[index]? = some frame) (provisional : frame.provisional = true) :
    HeadOfLine w (index + 1) canClose := by
  intro may before earlier other isOther
  rcases Nat.lt_succ_iff_lt_or_eq.mp earlier with lt | rfl
  · exact headOfLine may before lt other isOther
  · rw [found] at isOther
    cases isOther
    exact provisional

theorem HeadOfLine.blocked : HeadOfLine w index false := by
  intro may
  cases may

theorem finishedStatus_complete (complete : frame.finishedStatus = .complete)
    (valid : frame.error ≠ some .complete) :
    frame.error = none ∧ frame.receivedSize = frame.dataEnd := by
  unfold FrameInFlight.finishedStatus at complete
  cases failure : frame.error with
  | some status =>
    rw [failure] at complete valid
    exact absurd (congrArg some complete) valid
  | none =>
    rw [failure] at complete
    simp only [Option.getD_none] at complete
    split at complete
    · exact ⟨rfl, by assumption⟩
    · cases complete

theorem completionStep_moves (now : Nat) (currentFrameId : Option Nat) {canClose : Bool}
    (wellformed : Wellformed params w) (found : w.runner.frames[index]? = some frame)
    (headOfLine : HeadOfLine w index canClose) :
    ∃ later index' canClose', w.completionStep params now currentFrameId index canClose =
        .ok (later, index', canClose') ∧
      Moves params origin arrival w later ∧ HeadOfLine later index' canClose' := by
  have valid := wellformed.frames frame (List.mem_of_getElem? found)
  -- A frame that is closed was judged while frames may still close.
  have closed : ∀ status, canClose = true → frame.provisional = false →
      (status = .complete → frame.allReceived = true ∧ frame.error = none ∧ frame.receivedSize = frame.dataEnd) →
      ∃ later index' canClose', (do
          let w ← w.closeFrame params index status
          return (w, index, canClose) : Checked (StreamWorld × Nat × Bool)) = .ok (later, index', canClose') ∧
        Moves params origin arrival w later ∧ HeadOfLine later index' canClose' := by
    intro status may real complete
    obtain ⟨later, result, moves, frames⟩ :=
      closeFrame_moves origin arrival wellformed found real (headOfLine may) status complete
    exact ⟨later, index, canClose, by rw [result]; rfl, moves, headOfLine.erased frames⟩
  unfold completionStep
  rw [get_frame found, Checked.ok_bind]
  by_cases provisional : frame.provisional = true
  · rw [if_pos provisional]
    by_cases expired : frame.allReceived = true ∨ frame.quietFor now params.frameRetention = true
    · rw [if_pos expired]
      obtain ⟨later, result, moves, frames⟩ := discardFrame_moves origin arrival wellformed found provisional
      exact ⟨later, index, canClose, by rw [result]; rfl, moves, headOfLine.erased frames⟩
    · rw [if_neg expired]
      exact ⟨w, index + 1, canClose, rfl, .refl, headOfLine.passed found provisional⟩
  rw [if_neg provisional]
  have real : frame.provisional = false := Bool.eq_false_iff.mpr provisional
  by_cases finished : canClose = true ∧ frame.allReceived = true
  · rw [if_pos finished]
    exact closed _ finished.1 real fun complete => ⟨finished.2, finishedStatus_complete complete valid.verdict⟩
  rw [if_neg finished]
  split
  · rename_i superseded
    exact closed .missingPackets superseded.1 real fun complete => by cases complete
  split
  · rename_i expired
    refine closed _ expired.1 real fun complete => ?_
    cases failure : frame.error with
    | none =>
      rw [failure] at complete
      cases complete
    | some status =>
      rw [failure] at complete
      exact absurd (failure.trans (congrArg some complete)) valid.verdict
  split
  · rw [Checked.sub_ok valid.inBounds.nPackets_pos, Checked.ok_bind]
    obtain ⟨later, _, result, moves, _, _⟩ :=
      missingPacketCheck_moves origin arrival (frame.nPackets - 1) now wellformed found
    exact ⟨later, index + 1, false, by rw [result]; rfl, moves, .blocked⟩
  · exact ⟨w, index + 1, false, rfl, .refl, .blocked⟩

theorem completionLoop_moves (now : Nat) (currentFrameId : Option Nat) (fuel : Nat) :
    ∀ (index : Nat) (canClose : Bool) (w : StreamWorld), Wellformed params w → HeadOfLine w index canClose →
      ∃ later, completionLoop params now currentFrameId fuel index canClose w = .ok later ∧
        Moves params origin arrival w later := by
  induction fuel with
  | zero => exact fun index canClose w _ _ => ⟨w, rfl, .refl⟩
  | succ fuel ih =>
    intro index canClose w wellformed headOfLine
    rw [completionLoop]
    by_cases inside : index < w.runner.frames.length
    · obtain ⟨next, index', canClose', result, moves, still⟩ := completionStep_moves origin arrival now
        currentFrameId wellformed (List.getElem?_eq_getElem inside) headOfLine
      obtain ⟨later, rest_result, rest_moves⟩ := ih index' canClose' next (moves.wellformed wellformed) still
      refine ⟨later, ?_, moves.trans rest_moves⟩
      rw [if_pos inside, result]
      exact rest_result
    · exact ⟨w, if_neg inside, .refl⟩

theorem checkFrameCompletion_moves (now : Nat) (currentFrameId : Option Nat) (wellformed : Wellformed params w) :
    ∃ later, w.checkFrameCompletion params now currentFrameId = .ok later ∧
      Moves params origin arrival w later :=
  completionLoop_moves origin arrival now currentFrameId w.runner.frames.length 0 true w wellformed
    (fun _ before earlier => absurd earlier (Nat.not_lt_zero before))

theorem afterContent_moves (view : GvspView) (now : Nat) {adopt : Bool} (wellformed : Wellformed params w)
    (found : w.runner.frames[index]? = some frame) (provisional : adopt = true → frame.provisional = true) :
    ∃ later, w.afterContent params view now index adopt = .ok later ∧ Moves params origin arrival w later := by
  have started : ∃ next after, (if adopt then w.adoptRestart index else .ok w) = Except.ok next ∧
      Moves params origin arrival w next ∧ next.runner.frames[index]? = some after := by
    cases adopt with
    | true => exact adoptRestart_moves origin arrival found (provisional rfl)
    | false => exact ⟨w, frame, rfl, .refl, found⟩
  obtain ⟨next, after, adopted, moves, present⟩ := started
  obtain ⟨checked, last, missing, check_moves, _, frames⟩ :=
    missingPacketCheck_moves origin arrival view.packetId now (moves.wellformed wellformed) present
  have still : checked.runner.frames[index]? = some last := by
    rw [frames]
    exact List.getElem?_set_self (List.getElem?_eq_some_iff.mp present).1
  have all_moves : Moves params origin arrival w checked := moves.trans check_moves
  obtain ⟨later, result, rest⟩ := checkFrameCompletion_moves origin arrival now (some last.frameId)
    (all_moves.wellformed wellformed)
  refine ⟨later, ?_, all_moves.trans rest⟩
  rw [afterContent, adopted, Checked.ok_bind, missing, Checked.ok_bind, get_frame still, Checked.ok_bind, result]

theorem processContent_spec {view : GvspView} (systemNow : Nat) (stats : StreamStats) (valid : Valid params frame)
    (fresh : isReceived frame.slot.packets view.packetId = false) :
    frame.processContent params systemNow view stats = .ok none ∨
      ∃ content mismatches, frame.processContent params systemNow view stats =
          .ok (some (content, { stats with sizeMismatchErrors := mismatches })) ∧
        Takes params view frame content := by
  unfold FrameInFlight.processContent
  cases kind : view.contentType with
  | leader => exact .inr ⟨_, stats.sizeMismatchErrors, rfl, processLeader_takes valid kind systemNow⟩
  | payload =>
    obtain ⟨content, mismatches, result, takes⟩ := processPayload_takes valid kind fresh stats
    exact .inr ⟨content, mismatches, by rw [result]; rfl, takes⟩
  | trailer =>
    obtain ⟨content, result, takes⟩ := processTrailer_takes valid kind
    exact .inr ⟨content, stats.sizeMismatchErrors, by rw [result]; rfl, takes⟩
  | _ => exact .inl rfl

theorem countAbsorbed_moves (found : w.runner.frames[index]? = some frame) (accounted : w.fabric.Accounted []) :
    ∃ after, (w.countAbsorbed index frame).runner.frames[index]? = some after ∧ Untouched frame after ∧
      Moves params origin arrival w (w.countAbsorbed index frame) := by
  have inside := (List.getElem?_eq_some_iff.mp found).1
  unfold countAbsorbed
  split
  · have untouched : Untouched frame { frame with absorbed := frame.absorbed + 1 } := .bookkeeping _ _ _ _ _ _
    exact ⟨_, List.getElem?_set_self inside, untouched, (setFrame_moves origin arrival found untouched).trans
      (setStats_quietly (w.setFrame index _) accounted _).moves⟩
  · exact ⟨frame, found, .refl, .refl⟩

theorem disableResend_moves (found : w.runner.frames[index]? = some frame)
    (accounted : w.fabric.Accounted []) : Moves params origin arrival w (w.disableResend index frame) := by
  have untouched : Untouched frame { frame with resendDisabled := true } := .bookkeeping _ _ _ _ _ _
  exact (setFrame_moves origin arrival found untouched).trans (setStats_quietly (w.setFrame index _) accounted _).moves

theorem refusePacket_moves (view : GvspView) (found : w.runner.frames[index]? = some frame)
    (accounted : w.fabric.Accounted []) : Moves params origin arrival w (w.refusePacket index frame view) := by
  unfold refusePacket
  simp only
  split
  · exact (disableResend_moves origin arrival found accounted).trans
      (setStats_quietly (w.disableResend index frame) accounted _).moves
  · exact (setStats_quietly w accounted _).moves

theorem processFramePacket_moves {view : GvspView} (now systemNow : Nat) (wellformed : Wellformed params w)
    (isArrival : arrival = some view) (found : w.runner.frames[index]? = some frame)
    (routed : Routed origin view frame) :
    ∃ later, w.processFramePacket params view now systemNow index = .ok later ∧
      Moves params origin arrival w later := by
  obtain ⟨after, present, untouched, moves⟩ := countAbsorbed_moves origin arrival found wellformed.accounted
  have counted_wellformed := moves.wellformed wellformed
  have valid := counted_wellformed.frames after (List.mem_of_getElem? present)
  have inside := (List.getElem?_eq_some_iff.mp present).1
  have counted := setStats_quietly (w.countAbsorbed index frame) counted_wellformed.accounted
  unfold processFramePacket
  simp only [get_frame found, get_frame present, Checked.ok_bind]
  split
  · exact ⟨_, rfl, moves.trans (refusePacket_moves origin arrival view present counted_wellformed.accounted)⟩
  split
  · refine ⟨_, rfl, ?_⟩
    split
    · exact moves
    · exact moves.trans (counted _).moves
  rename_i fresh
  rcases processContent_spec systemNow (w.countAbsorbed index frame).runner.stats valid
    (Bool.eq_false_iff.mpr fresh) with result | ⟨content, mismatches, result, takes⟩
  · rw [result]
    refine ⟨_, rfl, ?_⟩
    split
    · exact moves
    · exact moves.trans (counted _).moves
  · rw [result]
    obtain ⟨settled, resent, diverged, settles, absorbs, _⟩ :=
      settle_absorbs valid (Bool.eq_false_iff.mpr fresh) takes _
    have taken : Move params origin arrival (w.countAbsorbed index frame)
        ((w.countAbsorbed index frame).setFrame index settled) :=
      .absorbed isArrival present (routed.untouched untouched) absorbs rfl rfl rfl rfl
    let stats := (w.countAbsorbed index frame).runner.stats
    let taken_world := ((w.countAbsorbed index frame).setFrame index settled).setStats
      { stats with sizeMismatchErrors := mismatches, resentPackets := resent }
    have taken_moves : Moves params origin arrival w taken_world :=
      (moves.tail taken).trans (setStats_quietly (setFrame index settled _) counted_wellformed.accounted _).moves
    have taken_frame : taken_world.runner.frames[index]? = some settled := List.getElem?_set_self inside
    have still_provisional : (frame.provisional && diverged) = true → settled.provisional = true := by
      intro adopt
      rw [FrameInFlight.provisional, absorbs.replayOf, untouched.replayOf]
      exact (Bool.and_eq_true_iff.mp adopt).1
    obtain ⟨later, rest, rest_moves⟩ := afterContent_moves origin arrival view now
      (taken_moves.wellformed wellformed) taken_frame still_provisional
    refine ⟨later, ?_, taken_moves.trans rest_moves⟩
    simp only [Checked.ok_bind]
    rw [settles]
    exact rest

theorem processPacket_moves {datagram : List UInt8} (now systemNow : Nat) (wellformed : Wellformed params w)
    (isArrival : arrival = GvspView.parse datagram) (started : w.runner.frames = origin) :
    ∃ later, w.processPacket params datagram now systemNow = .ok later ∧ Moves params origin arrival w later := by
  unfold processPacket
  cases parsed : GvspView.parse datagram with
  | none => exact ⟨_, rfl, (setStats_quietly w wellformed.accounted _).moves⟩
  | some view =>
    have isView : arrival = some view := isArrival.trans parsed
    have noted := noteFirstPacket_quietly w wellformed.accounted view
    have noted_moves : Moves params origin arrival w (w.noteFirstPacket view) := noted.moves
    obtain ⟨next, found, result, moves, routed⟩ := findOrCreateFrame_moves origin arrival now
      (noted_moves.wellformed wellformed) isView (noted.frames.trans started)
    have routing : Moves params origin arrival w next := noted_moves.trans moves
    simp only [result, Checked.ok_bind]
    cases found with
    | none => exact ⟨next, rfl, routing⟩
    | some index =>
      obtain ⟨frame, present, belongs⟩ := routed index rfl
      obtain ⟨later, processed, rest⟩ := processFramePacket_moves origin arrival now systemNow
        (routing.wellformed wellformed) isView present belongs
      exact ⟨later, processed, routing.trans rest⟩

theorem abortLoop_moves (fuel : Nat) : ∀ (w : StreamWorld), Wellformed params w →
    (∀ frame ∈ w.runner.frames, frame.provisional = false) → w.runner.frames.length ≤ fuel →
    ∃ later, abortLoop params fuel w = .ok later ∧ Moves params origin arrival w later ∧
      later.runner.frames = [] := by
  induction fuel with
  | zero =>
    intro w _ _ none_left
    exact ⟨w, rfl, .refl, List.length_eq_zero_iff.mp (Nat.le_zero.mp none_left)⟩
  | succ fuel ih =>
    intro w wellformed real enough
    rw [abortLoop]
    cases inFlight : w.runner.frames with
    | nil => exact ⟨w, rfl, .refl, inFlight⟩
    | cons frame rest =>
      have found : w.runner.frames[0]? = some frame := by rw [inFlight]; rfl
      obtain ⟨next, result, moves, frames⟩ := closeFrame_moves origin arrival wellformed found
        (real frame (List.mem_of_getElem? found)) (fun before earlier => absurd earlier (Nat.not_lt_zero before))
        .aborted (fun complete => by cases complete)
      rw [inFlight, List.eraseIdx_cons_zero] at frames
      rw [inFlight, List.length_cons] at enough
      obtain ⟨later, rest_result, rest_moves, empty⟩ := ih next (moves.wellformed wellformed)
        (fun other present => real other (by rw [inFlight]; exact List.mem_cons_of_mem _ (frames ▸ present)))
        (by rw [frames]; omega)
      refine ⟨later, ?_, moves.trans rest_moves, empty⟩
      rw [result]
      exact rest_result

theorem flushFrames_moves (wellformed : Wellformed params w) :
    ∃ later, w.flushFrames params = .ok later ∧ Moves params origin arrival w later ∧ later.runner.frames = [] := by
  obtain ⟨next, result, moves, frames⟩ := discardProvisional_moves origin arrival wellformed
  have real : ∀ frame ∈ next.runner.frames, frame.provisional = false :=
    fun frame present => (mem_filter_real (frames ▸ present)).2
  obtain ⟨later, rest_result, rest_moves, empty⟩ := abortLoop_moves origin arrival next.runner.frames.length next
    (moves.wellformed wellformed) real le_rfl
  exact ⟨later, by rw [flushFrames, result]; exact rest_result, moves.trans rest_moves, empty⟩

theorem dropSenders_accounted (subscribers : List Nat) : ∀ (fabric : Fabric), fabric.Accounted [] →
    (subscribers.foldl (fun fabric id => fabric.dropSender id) fabric).Accounted [] ∧
      Fabric.Conserves fabric (subscribers.foldl (fun fabric id => fabric.dropSender id) fabric) := by
  induction subscribers with
  | nil => exact fun fabric accounted => ⟨accounted, .refl⟩
  | cons id rest ih =>
    intro fabric accounted
    obtain ⟨dropped, conserved⟩ := accounted.dropSender id
    obtain ⟨still, rest_conserved⟩ := ih (fabric.dropSender id) dropped
    exact ⟨still, conserved.trans rest_conserved⟩

theorem clearSubscribers_quietly (w : StreamWorld) (accounted : w.fabric.Accounted []) :
    Quietly [] w w.clearSubscribers := by
  obtain ⟨dropped, conserved⟩ := dropSenders_accounted w.runner.subscribers w.fabric accounted
  exact ⟨rfl, rfl, rfl, conserved, dropped⟩

theorem noteDrops_quietly (w : StreamWorld) (accounted : w.fabric.Accounted []) (drops : Option Nat) :
    Quietly [] w (w.noteDrops drops) := by
  cases drops with
  | none => exact .refl accounted
  | some drops => exact setStats_quietly w accounted _

theorem drainSocket_moves {received : Received} (now systemNow : Nat) (wellformed : Wellformed params w)
    (isArrival : arrival = if received.fromDevice then GvspView.parse received.datagram else none)
    (started : w.runner.frames = origin) :
    ∃ later, w.drainSocket params received now systemNow = .ok later ∧ Moves params origin arrival w later := by
  have noted := noteDrops_quietly w wellformed.accounted received.drops
  unfold drainSocket
  by_cases ours : received.fromDevice = true
  · rw [if_pos ours] at isArrival
    have counted : Quietly [] w ((w.noteDrops received.drops).countPacket received.datagram) :=
      noted.trans (setStats_quietly _ noted.accounted _)
    have counted_moves : Moves params origin arrival w _ := counted.moves
    obtain ⟨later, result, moves⟩ := processPacket_moves origin arrival now systemNow
      (counted_moves.wellformed wellformed) isArrival (noted.frames.trans started)
    exact ⟨later, (if_pos ours).trans result, counted_moves.trans moves⟩
  · exact ⟨_, if_neg ours, noted.moves⟩

end Frames

section Steps

variable {params : StreamParams} {w : StreamWorld}

theorem schedule_quietly (accounted : w.fabric.Accounted []) (schedule : List (List ConsumerAct)) :
    Quietly [] w { w with schedule := schedule } :=
  ⟨rfl, rfl, rfl, .refl, accounted⟩

theorem step_moves (input : StreamInput) (wellformed : Wellformed params w) :
    ∃ later, w.step params input = .ok later ∧ Moves params w.runner.frames input.arrival w later := by
  have scheduled := fun schedule => schedule_quietly wellformed.accounted schedule
  have ready : ∀ schedule, Wellformed params { w with schedule := schedule } := by
    intro schedule
    have move : Move params [] none w { w with schedule := schedule } := (scheduled schedule).move
    exact move.wellformed wellformed
  cases input with
  | packet received now systemNow schedule =>
    obtain ⟨later, result, moves⟩ := drainSocket_moves w.runner.frames
      (StreamInput.packet received now systemNow schedule).arrival now systemNow (ready schedule) rfl rfl
    exact ⟨later, result, (scheduled schedule).moves.trans moves⟩
  | tick now schedule =>
    obtain ⟨later, result, moves⟩ := checkFrameCompletion_moves w.runner.frames none now none (ready schedule)
    have published := publishStats_quietly later (moves.wellformed (ready schedule)).accounted
    refine ⟨later.publishStats, ?_, (scheduled schedule).moves.trans (moves.trans published.moves)⟩
    rw [step, result]
    rfl
  | commands schedule =>
    exact ⟨_, rfl, ((scheduled schedule).trans (drainCommands_quietly _ (ready schedule).accounted)).moves⟩
  | acts acts =>
    obtain ⟨accounted, conserved⟩ := Fabric.Accounted.consumeAll acts w.fabric wellformed.accounted
    exact ⟨_, rfl, Quietly.moves ⟨rfl, rfl, rfl, conserved, accounted⟩⟩
  | flush schedule =>
    obtain ⟨later, result, moves, _⟩ := flushFrames_moves w.runner.frames none (ready schedule)
    have accounted := (moves.wellformed (ready schedule)).accounted
    have cleared := (publishStats_quietly later accounted).trans
      (clearSubscribers_quietly later.publishStats accounted)
    refine ⟨later.publishStats.clearSubscribers, ?_, (scheduled schedule).moves.trans (moves.trans cleared.moves)⟩
    rw [step, result]
    rfl

end Steps

end StreamWorld

end Telegenic.Stream
