import Telegenic.Stream.Tally

/-! What the receiver decides about the block id of a packet: to leave its
position alone, to open a frame, or to skip one. Everything else that a step
does only adds to the counters. -/

set_option autoImplicit false

namespace Telegenic.Stream

open Library Proto Proto.Gvsp

def StreamWorld.distance (view : GvspView) (w : StreamWorld) : Int :=
  blockIdDistance view.frameId w.runner.lastFrameId view.extendedIds

def StreamWorld.Unknown (view : GvspView) (w : StreamWorld) : Prop :=
  w.runner.frames.findIdx? (·.frameId == view.frameId) = none

instance (view : GvspView) (w : StreamWorld) : Decidable (w.Unknown view) :=
  inferInstanceAs (Decidable (_ = _))

/-- The outcomes of `find_or_create_frame`. Only a packet that is `new`, that
is of no frame in flight, moves the position. -/
inductive Decides (params : StreamParams) (view : GvspView) (new : Prop) : StreamWorld → StreamWorld → Prop where
  | stays {w : StreamWorld} : Decides params view new w w
  | opens {w : StreamWorld} {fabric : Fabric} (now nPackets : Nat) (slot : BufSlot) (isNew : new)
      (enrols : w.fabric.Enrols fabric) (board : w.fabric.SameBoard fabric) :
      Decides params view new w
        ({ w with fabric := fabric }.startFrame params view now nPackets (w.distance view) none slot)
  | replays {w : StreamWorld} {fabric : Fabric} (now nPackets : Nat) (slot : BufSlot) (known : Fingerprints)
      (isNew : new) (behind : w.distance view < 1) (enrols : w.fabric.Enrols fabric)
      (board : w.fabric.SameBoard fabric) :
      Decides params view new w
        ({ w with fabric := fabric }.startFrame params view now nPackets (w.distance view) (some known) slot)
  | underruns {w : StreamWorld} (isNew : new) :
      Decides params view new w
        ((w.setStats { w.runner.stats with underruns := w.runner.stats.underruns + 1 }).skipFrame view)
  | drops {w : StreamWorld} (isNew : new) :
      Decides params view new w
        ((w.setStats { w.runner.stats with unsupportedFrames := w.runner.stats.unsupportedFrames + 1 }).skipFrame view)

section Decisions

variable {params : StreamParams} {view : GvspView} {new : Prop} {w later : StreamWorld} {now : Nat}
  {found : Option Nat}

theorem tryClaim_enrols (fabric : Fabric) : fabric.Enrols fabric.tryClaim.1 ∧ fabric.SameBoard fabric.tryClaim.1 := by
  unfold Fabric.tryClaim
  split
  · exact ⟨.refl, .refl⟩
  · exact ⟨.same rfl rfl, rfl, rfl, rfl, rfl, fun entry present => ⟨entry, present, rfl, rfl⟩⟩

theorem openFrame_decides {nPackets : Nat} {replayOf : Option Fingerprints} (isNew : new)
    (behind : replayOf.isSome = true → w.distance view < 1)
    (result : w.openFrame params view now nPackets (w.distance view) replayOf = (later, found)) :
    ∃ middle, Counts 1 w middle ∧ Decides params view new middle later := by
  have yielded := Counts.yield w
  have distance : w.yield.distance view = w.distance view := by
    rw [StreamWorld.distance, StreamWorld.distance, yielded.lastFrameId]
  rw [← distance] at result behind
  have claims := tryClaim_enrols w.yield.fabric
  unfold StreamWorld.openFrame at result
  simp only at result
  rcases claim : w.yield.fabric.tryClaim with ⟨after, slot⟩
  rw [claim] at result claims
  cases slot with
  | none =>
    cases replayOf with
    | some known =>
      cases result
      exact ⟨_, yielded.trans (Counts.ignore _), .stays⟩
    | none =>
      cases result
      exact ⟨_, yielded.mono (Nat.zero_le 1), .underruns isNew⟩
  | some slot =>
    cases replayOf with
    | some known =>
      cases result
      exact ⟨_, yielded.mono (Nat.zero_le 1), .replays now nPackets slot known isNew (behind rfl) claims.1 claims.2⟩
    | none =>
      cases result
      exact ⟨_, yielded.mono (Nat.zero_le 1), .opens now nPackets slot isNew claims.1 claims.2⟩

theorem createFrame_decides {replayOf : Option Fingerprints} (isNew : new)
    (behind : replayOf.isSome = true → w.distance view < 1)
    (result : w.createFrame params view now (w.distance view) replayOf = .ok (later, found)) :
    ∃ middle, Counts 1 w middle ∧ Decides params view new middle later := by
  obtain ⟨cleared, makeWay, result⟩ := Checked.bind_eq_ok result
  have counts : Counts 0 w cleared := by
    split at makeWay
    · cases makeWay
      exact .refl
    · exact Counts.discardProvisionalLoop _ makeWay
  have distance : cleared.distance view = w.distance view := by
    rw [StreamWorld.distance, StreamWorld.distance, counts.lastFrameId]
  rw [← distance] at result behind
  obtain ⟨nPackets, _, result⟩ := Checked.bind_eq_ok result
  simp only at result
  split at result
  · split at result
    · cases result
      exact ⟨_, counts.trans (Counts.ignore _), .stays⟩
    · cases result
      exact ⟨_, counts.trans (Counts.ignore _), .drops isNew⟩
  · obtain ⟨middle, opening, decides⟩ := openFrame_decides isNew behind (Except.ok.inj result)
    exact ⟨middle, counts.trans opening, decides⟩

theorem findOrCreateFrame_decides (result : w.findOrCreateFrame params view now = .ok (later, found)) :
    ∃ middle, Counts 1 w middle ∧ Decides params view (w.Unknown view) middle later := by
  unfold StreamWorld.findOrCreateFrame at result
  cases search : w.runner.frames.findIdx? (·.frameId == view.frameId) with
  | some index =>
    rw [search] at result
    obtain ⟨frame, got, result⟩ := Checked.bind_eq_ok result
    obtain ⟨inside, _⟩ := List.findIdx?_eq_some_iff_getElem.mp search
    rw [StreamWorld.get_frame (List.getElem?_eq_getElem inside)] at got
    cases got
    cases result
    have renewed : Counts 0 w (w.setFrame index { w.runner.frames[index] with lastPacketTime := now }) :=
      .setFrame (List.getElem?_eq_getElem inside) rfl
    exact ⟨_, renewed.mono (Nat.zero_le 1), .stays⟩
  | none =>
    rw [search] at result
    simp only at result
    split at result
    · rename_i behind
      cases arrival : w.classifyBehind view with
      | new =>
        rw [arrival] at result
        exact createFrame_decides search (fun isReplay => by cases isReplay) result
      | maybeReplay known =>
        rw [arrival] at result
        exact createFrame_decides search (fun _ => behind.1) result
      | late =>
        rw [arrival] at result
        cases result
        exact ⟨_, Counts.ignore w, .stays⟩
    · exact createFrame_decides search (fun isReplay => by cases isReplay) result

theorem startFrame_enrolled {fabric : Fabric} {nPackets : Nat} {distance : Int} {replayOf : Option Fingerprints}
    {slot : BufSlot} (enrols : w.fabric.Enrols fabric) (enrolled : w.Enrolled) :
    ({ w with fabric := fabric }.startFrame params view now nPackets distance replayOf slot).Enrolled := by
  have claimed := (Adds.fabric enrols).enrolled enrolled
  cases replayOf <;> exact claimed

namespace Decides

theorem enrolled (decides : Decides params view new w later) (enrolled : w.Enrolled) : later.Enrolled := by
  cases decides with
  | stays => exact enrolled
  | opens _ _ _ _ enrols _ => exact startFrame_enrolled enrols enrolled
  | replays _ _ _ _ _ _ enrols _ => exact startFrame_enrolled enrols enrolled
  | underruns => exact enrolled
  | drops => exact enrolled

theorem adoptions (decides : Decides params view new w later) :
    Stream.adoptions later.journal = Stream.adoptions w.journal := by
  cases decides with
  | stays => rfl
  | opens => exact adoptions_append _ _
  | replays => exact adoptions_append _ _
  | underruns => rfl
  | drops => rfl

theorem grows (decides : Decides params view new w later) :
    w.runner.stats.Grows ((w.distance view).toNat + 1) later.runner.stats := by
  cases decides with
  | stays => exact StreamStats.Grows.refl.mono (Nat.zero_le _)
  | opens =>
    simp only [StreamWorld.startFrame, StreamWorld.moveTo, StreamWorld.record, Option.isSome_none,
      Bool.false_eq_true, if_false]
    split
    · simp [StreamStats.Grows, StreamStats.counters]
      omega
    · exact StreamStats.Grows.refl.mono (Nat.zero_le _)
  | replays => exact StreamStats.Grows.refl.mono (Nat.zero_le _)
  | underruns =>
    simp [StreamStats.Grows, StreamStats.counters, StreamWorld.setStats, StreamWorld.skipFrame, StreamWorld.remember]
  | drops =>
    simp [StreamStats.Grows, StreamStats.counters, StreamWorld.setStats, StreamWorld.skipFrame, StreamWorld.remember]

theorem channels (decides : Decides params view new w later) : SameChannels w later := by
  have opened : ∀ {fabric : Fabric} {now nPackets : Nat} {distance : Int} {replayOf : Option Fingerprints}
      {slot : BufSlot}, w.fabric.SameBoard fabric →
      SameChannels w ({ w with fabric := fabric }.startFrame params view now nPackets distance replayOf slot) := by
    intro fabric now nPackets distance replayOf slot board
    have delivered : ∀ opening provisional, deliveredFrames
        (w.journal ++ [.opened opening view.frameId provisional]) = deliveredFrames w.journal :=
      fun _ _ => (deliveredFrames_append _ _).trans (List.append_nil _)
    cases replayOf with
    | some known => exact ⟨board, rfl, rfl, delivered ..⟩
    | none =>
      refine ⟨board, rfl, ?_, delivered ..⟩
      simp only [StreamWorld.startFrame, StreamWorld.moveTo, StreamWorld.record, Option.isSome_none,
        Bool.false_eq_true, if_false]
      split <;> rfl
  cases decides with
  | stays => exact ⟨.refl, rfl, rfl, rfl⟩
  | opens _ _ _ _ _ board => exact opened board
  | replays _ _ _ _ _ _ _ board => exact opened board
  | underruns => exact ⟨.refl, rfl, rfl, rfl⟩
  | drops => exact ⟨.refl, rfl, rfl, rfl⟩

end Decides

end Decisions

section Steps

variable {params : StreamParams} {w later : StreamWorld}

theorem Wellformed.frames_length_le (wellformed : Wellformed params w) :
    w.runner.frames.length ≤ params.nBuffers := by
  have total := wellformed.keys.length_eq
  simp only [List.length_map, List.length_append, List.length_range] at total
  omega

namespace Counts

theorem schedule (schedule : List (List ConsumerAct)) (w : StreamWorld) : Counts 0 w { w with schedule := schedule } :=
  inside ⟨.refl, rfl, rfl, rfl, rfl, rfl, id, id, le_rfl⟩ ⟨.refl, rfl, rfl, rfl⟩

theorem abortLoop (fuel : Nat) : ∀ {w : StreamWorld}, Wellformed params w → w.AllReal → w.Enrolled →
    StreamWorld.abortLoop params fuel w = .ok later →
      Counts (fuel * (maxFramePackets + 1 + later.fabric.subscriptions.length)) w later := by
  induction fuel with
  | zero =>
    intro w _ _ _ result
    cases result
    exact refl.mono (Nat.zero_le _)
  | succ fuel ih =>
    intro w wellformed real enrolled result
    rw [StreamWorld.abortLoop] at result
    cases inFlight : w.runner.frames with
    | nil =>
      rw [inFlight] at result
      cases result
      exact refl.mono (Nat.zero_le _)
    | cons frame rest =>
      have found : w.runner.frames[0]? = some frame := by rw [inFlight]; rfl
      have present := List.mem_of_getElem? found
      obtain ⟨next, closed, moves, _⟩ := StreamWorld.closeFrame_moves [] none wellformed found
        (real frame present) (fun before earlier => absurd earlier (Nat.not_lt_zero before))
        .aborted (fun complete => by cases complete)
      rw [inFlight, closed] at result
      have first := closeFrame wellformed enrolled found closed
      have others := ih (moves.wellformed wellformed) (first.real real) (first.enrolled enrolled) result
      have grown := others.subscriptions
      refine (first.trans others).mono ?_
      rw [Nat.succ_mul]
      omega

theorem flushFrames (wellformed : Wellformed params w) (enrolled : w.Enrolled)
    (result : w.flushFrames params = .ok later) :
    Counts (w.runner.frames.length * (maxFramePackets + 1 + later.fabric.subscriptions.length)) w later := by
  obtain ⟨next, discarded, moves, frames⟩ := StreamWorld.discardProvisional_moves [] none wellformed
  have first := discardProvisionalLoop _ discarded
  have real : next.AllReal := fun frame present => (StreamWorld.mem_filter_real (frames ▸ present)).2
  rw [StreamWorld.flushFrames, discarded, Checked.ok_bind] at result
  have rest := abortLoop _ (moves.wellformed wellformed) real (first.enrolled enrolled) result
  have fewer : next.runner.frames.length ≤ w.runner.frames.length := by
    rw [frames]
    exact List.length_filter_le ..
  exact (first.trans rest).mono ((Nat.zero_add _).le.trans (Nat.mul_le_mul_right _ fewer))

theorem noteDrops (drops : Option Nat) (w : StreamWorld) : Counts 0 w (w.noteDrops drops) := by
  cases drops <;> exact inside ⟨.refl, rfl, rfl, rfl, rfl, rfl, id, id, le_rfl⟩ ⟨.refl, rfl, rfl, rfl⟩

theorem countPacket (datagram : List UInt8) (w : StreamWorld) : Counts 0 w (w.countPacket datagram) :=
  inside ⟨.refl, rfl, rfl, rfl, rfl, rfl, id, id, le_rfl⟩ ⟨.refl, rfl, rfl, rfl⟩

end Counts

namespace Adds

theorem clearSubscribers (w : StreamWorld) : Adds 0 w w.clearSubscribers := by
  have dropped : ∀ (subscribers : List Nat) (fabric : Fabric),
      fabric.Enrols (subscribers.foldl (fun fabric id => fabric.dropSender id) fabric) := by
    intro subscribers
    induction subscribers with
    | nil => exact fun fabric => .refl
    | cons id rest ih => exact fun fabric => (Fabric.Enrols.dropSender id fabric).trans (ih _)
  have cleared := fabric (dropped w.runner.subscribers w.fabric)
  refine ⟨.refl, rfl, rfl, rfl, rfl, rfl, id, fun enrolled => ?_, cleared.subscriptions⟩
  exact (Nat.add_le_add_right (Nat.zero_le _) _).trans (cleared.enrolled enrolled)

theorem startAt (position : Nat) (adds : Adds 0 w later) :
    Adds 0 { w with runner := { w.runner with lastFrameId := position, firstPacket := false } }
      { later with runner := { later.runner with lastFrameId := position, firstPacket := false } } :=
  ⟨adds.grows, adds.skipped, rfl, rfl, adds.openings, adds.adoptions, adds.real, adds.enrolled, adds.subscriptions⟩

theorem noteFirstPacket {view : GvspView} (adds : Adds 0 w later) :
    Adds 0 (w.noteFirstPacket view) (later.noteFirstPacket view) := by
  unfold StreamWorld.noteFirstPacket
  rw [adds.firstPacket]
  split
  · exact startAt _ adds
  · exact adds

end Adds

theorem noteFirstPacket_channels (view : GvspView) (w : StreamWorld) : SameChannels w (w.noteFirstPacket view) := by
  obtain ⟨position, noted⟩ := noteFirstPacket_eq view w
  rw [noted]
  exact ⟨.refl, rfl, rfl, rfl⟩

theorem noteFirstPacket_enrolled {view : GvspView} (enrolled : w.Enrolled) : (w.noteFirstPacket view).Enrolled := by
  obtain ⟨position, noted⟩ := noteFirstPacket_eq view w
  rw [noted]
  exact enrolled

section Quiet

variable {input : StreamInput}

theorem schedule_wellformed (wellformed : Wellformed params w) (schedule : List (List ConsumerAct)) :
    Wellformed params { w with schedule := schedule } := by
  have move : Move params [] none w { w with schedule := schedule } :=
    (StreamWorld.schedule_quietly wellformed.accounted schedule).move
  exact move.wellformed wellformed

theorem step_quiet (wellformed : Wellformed params w) (enrolled : w.Enrolled) (quiet : input.arrival = none)
    (running : ∀ schedule, input ≠ .flush schedule) (result : w.step params input = .ok later) :
    Counts (params.nBuffers * (maxFramePackets + 1 + later.fabric.subscriptions.length) + 1) w later := by
  have few := wellformed.frames_length_le
  cases input with
  | packet received now systemNow schedule =>
    have noted := (Counts.schedule schedule w).trans (Counts.noteDrops received.drops _)
    simp only [StreamWorld.step, StreamWorld.drainSocket] at result
    simp only [StreamInput.arrival] at quiet
    split at result
    · rename_i fromDevice
      rw [if_pos fromDevice] at quiet
      rw [StreamWorld.processPacket, quiet] at result
      cases result
      exact ((noted.trans (Counts.countPacket received.datagram _)).trans (Counts.ignore _)).mono (Nat.le_add_left ..)
    · cases result
      exact noted.mono (Nat.zero_le _)
  | tick now schedule =>
    obtain ⟨checked, completion, result⟩ := Checked.bind_eq_ok result
    cases result
    have counted := Counts.checkFrameCompletion (schedule_wellformed wellformed schedule) enrolled completion
    refine (((Counts.schedule schedule w).trans counted).trans (Counts.publishStats _)).mono ?_
    have product := Nat.mul_le_mul_right (maxFramePackets + 1 + checked.fabric.subscriptions.length) few
    simp only [StreamWorld.publishStats]
    omega
  | commands schedule =>
    cases result
    exact ((Counts.schedule schedule w).trans (Counts.drainCommands _)).mono (Nat.zero_le _)
  | acts acts =>
    cases result
    have acted : Counts 0 w { w with fabric := acts.foldl Fabric.consume w.fabric } :=
      ⟨.fabric (Fabric.Enrols.consumeAll acts w.fabric), .single (.acts w acts)⟩
    exact acted.mono (Nat.zero_le _)
  | flush schedule => exact absurd rfl (running schedule)

theorem step_flush {schedule : List (List ConsumerAct)} (wellformed : Wellformed params w) (enrolled : w.Enrolled)
    (result : w.step params (.flush schedule) = .ok later) :
    ∃ middle, Counts (params.nBuffers * (maxFramePackets + 1 + middle.fabric.subscriptions.length)) w middle ∧
      later = middle.clearSubscribers := by
  obtain ⟨flushed, flush, result⟩ := Checked.bind_eq_ok result
  cases result
  have counted := Counts.flushFrames (schedule_wellformed wellformed schedule) enrolled flush
  refine ⟨_, (((Counts.schedule schedule w).trans counted).trans (Counts.publishStats _)).mono ?_, rfl⟩
  have product := Nat.mul_le_mul_right (maxFramePackets + 1 + flushed.fabric.subscriptions.length)
    wellformed.frames_length_le
  simp only [StreamWorld.publishStats]
  omega

theorem step_counts (wellformed : Wellformed params w) (enrolled : w.Enrolled) (quiet : input.arrival = none)
    (result : w.step params input = .ok later) :
    Adds (params.nBuffers * (maxFramePackets + 1 + later.fabric.subscriptions.length) + 1) w later := by
  by_cases flushing : ∃ schedule, input = .flush schedule
  · obtain ⟨schedule, rfl⟩ := flushing
    obtain ⟨middle, counts, rfl⟩ := step_flush wellformed enrolled result
    have cleared := Adds.clearSubscribers middle
    refine (counts.toAdds.trans cleared).mono ?_
    have grown := Nat.mul_le_mul_left params.nBuffers (Nat.add_le_add_left cleared.subscriptions (maxFramePackets + 1))
    omega
  · exact (step_quiet wellformed enrolled quiet (fun schedule isFlush => flushing ⟨schedule, isFlush⟩) result).toAdds

end Quiet

theorem processPacket_decides {view : GvspView} {datagram : List UInt8} {now systemNow : Nat}
    (wellformed : Wellformed params w) (enrolled : w.Enrolled) (parsed : GvspView.parse datagram = some view)
    (result : w.processPacket params datagram now systemNow = .ok later) :
    Channels w later ∧ ∃ middle decided, Adds 1 (w.noteFirstPacket view) middle ∧
      Decides params view (w.Unknown view) middle decided ∧
      (Adds ((params.nBuffers + 2) * (maxFramePackets + 1 + later.fabric.subscriptions.length) + 3) decided later ∨
        (¬ decided.AllReal ∧ adoptions later.journal = adoptions decided.journal + 1)) := by
  have noted := StreamWorld.noteFirstPacket_quietly w wellformed.accounted view
  have noted_moves : Moves params w.runner.frames (some view) w (w.noteFirstPacket view) := noted.moves
  obtain ⟨next, found, search, moves, routed⟩ := StreamWorld.findOrCreateFrame_moves w.runner.frames (some view) now
    (noted_moves.wellformed wellformed) rfl noted.frames
  rw [StreamWorld.processPacket, parsed] at result
  simp only [search, Checked.ok_bind] at result
  obtain ⟨middle, looked, decides⟩ := findOrCreateFrame_decides search
  rw [StreamWorld.Unknown, noted.frames] at decides
  have channels : Channels w next :=
    .head (.inside (noteFirstPacket_channels view w)) (looked.channels.tail (.inside decides.channels))
  cases found with
  | none =>
    cases result
    exact ⟨channels, middle, _, looked.toAdds, decides, .inl (Adds.refl.mono (Nat.zero_le _))⟩
  | some index =>
    obtain ⟨frame, present, _⟩ := routed index rfl
    have next_wellformed := moves.wellformed (noted_moves.wellformed wellformed)
    have few := next_wellformed.frames_length_le
    have next_enrolled := decides.enrolled (looked.enrolled (noteFirstPacket_enrolled enrolled))
    rcases Counts.processFramePacket next_wellformed next_enrolled present result with
      counts | ⟨provisional, adopted, rest⟩
    · refine ⟨channels.trans counts.channels, middle, next, looked.toAdds, decides, .inl (counts.toAdds.mono ?_)⟩
      exact Nat.add_le_add_right (Nat.mul_le_mul_right _ (Nat.add_le_add_right few 2)) 3
    · refine ⟨channels.trans rest, middle, next, looked.toAdds, decides, .inr ⟨fun real => ?_, adopted⟩⟩
      rw [real frame (List.mem_of_getElem? present)] at provisional
      cases provisional

theorem step_decides {input : StreamInput} {view : GvspView} (wellformed : Wellformed params w)
    (enrolled : w.Enrolled) (arrives : input.arrival = some view) (result : w.step params input = .ok later) :
    Channels w later ∧ ∃ middle decided, Adds 1 (w.noteFirstPacket view) middle ∧
      Decides params view (w.Unknown view) middle decided ∧
      (Adds ((params.nBuffers + 2) * (maxFramePackets + 1 + later.fabric.subscriptions.length) + 3) decided later ∨
        (¬ decided.AllReal ∧ adoptions later.journal = adoptions decided.journal + 1)) := by
  cases input with
  | packet received now systemNow schedule =>
    simp only [StreamWorld.step, StreamWorld.drainSocket] at result
    simp only [StreamInput.arrival] at arrives
    split at result
    · rename_i fromDevice
      rw [if_pos fromDevice] at arrives
      have counted := ((Counts.schedule schedule w).trans (Counts.noteDrops received.drops _)).trans
        (Counts.countPacket received.datagram _)
      have noted := StreamWorld.noteDrops_quietly { w with schedule := schedule } wellformed.accounted received.drops
      have quietly : StreamWorld.Quietly [] w
          (({ w with schedule := schedule }.noteDrops received.drops).countPacket received.datagram) :=
        (StreamWorld.schedule_quietly wellformed.accounted schedule).trans
          (noted.trans (StreamWorld.setStats_quietly _ noted.accounted _))
      have moves : Moves params [] none w _ := quietly.moves
      obtain ⟨channels, middle, decided, looked, decides, handled⟩ :=
        processPacket_decides (moves.wellformed wellformed) (counted.enrolled enrolled) arrives result
      rw [StreamWorld.Unknown, quietly.frames] at decides
      exact ⟨counted.channels.trans channels, middle, decided, counted.toAdds.noteFirstPacket.trans looked, decides,
        handled⟩
    · rename_i foreign
      rw [if_neg foreign] at arrives
      cases arrives
  | tick now schedule => cases arrives
  | commands schedule => cases arrives
  | acts acts => cases arrives
  | flush schedule => cases arrives

end Steps

end Telegenic.Stream
