import Telegenic.Stream.Channels

/-! What each part of the worker adds to the counters. Amounts add up along a
sequence of parts. -/

set_option autoImplicit false

namespace Telegenic.Stream

open Library Proto Proto.Gvsp

namespace StreamStats

def counters (stats : StreamStats) : List Nat :=
  [stats.completedFrames, stats.failedFrames, stats.timedOutFrames, stats.abortedFrames, stats.missingFrames,
    stats.underruns, stats.missingPackets, stats.resendRequests, stats.resentPackets, stats.resendRatioReached,
    stats.resendDisabled, stats.duplicatedPackets, stats.errorPackets, stats.ignoredPackets,
    stats.unsupportedFrames, stats.sizeMismatchErrors, stats.framesDropped]

def Grows (amount : Nat) (stats later : StreamStats) : Prop :=
  List.Forall₂ (fun before after => before ≤ after ∧ after ≤ before + amount) stats.counters later.counters

def skipped (stats : StreamStats) : Nat × Nat × Nat :=
  (stats.missingFrames, stats.underruns, stats.unsupportedFrames)

section Grows

variable {amount more : Nat} {stats later last : StreamStats}

theorem Grows.refl : Grows 0 stats stats :=
  List.forall₂_same.mpr fun _ _ => ⟨le_rfl, le_rfl⟩

theorem Grows.mono (grows : Grows amount stats later) (enough : amount ≤ more) : Grows more stats later :=
  grows.imp fun _ _ bounds => ⟨bounds.1, bounds.2.trans (Nat.add_le_add_left enough _)⟩

theorem Grows.trans (first : Grows amount stats later) (second : Grows more later last) :
    Grows (amount + more) stats last := by
  have compose : ∀ {before middle after : List Nat},
      List.Forall₂ (fun before after => before ≤ after ∧ after ≤ before + amount) before middle →
      List.Forall₂ (fun before after => before ≤ after ∧ after ≤ before + more) middle after →
      List.Forall₂ (fun before after => before ≤ after ∧ after ≤ before + (amount + more)) before after := by
    intro before middle after first
    induction first generalizing after with
    | nil =>
      intro second
      cases second
      exact .nil
    | cons bounds _ ih =>
      intro second
      cases second with
      | cons others rest => exact .cons (by omega) (ih rest)
  exact compose first second

end Grows

end StreamStats

def adoptions (journal : List StreamEvent) : Nat :=
  journal.countP fun
    | .adopted _ => true
    | _ => false

theorem adoptions_append (journal events : List StreamEvent) :
    adoptions (journal ++ events) = adoptions journal + adoptions events :=
  List.countP_append

def ToStreamWorker.isSubscribe : ToStreamWorker → Bool
  | subscribe _ => true
  | shutdown => false

namespace StreamWorld

/-- There are no more subscribers, with those still in the command queue, than
subscriptions. -/
def Enrolled (w : StreamWorld) : Prop :=
  w.runner.subscribers.length + w.fabric.commands.countP ToStreamWorker.isSubscribe ≤ w.fabric.subscriptions.length

def AllReal (w : StreamWorld) : Prop :=
  ∀ frame ∈ w.runner.frames, frame.provisional = false

end StreamWorld

/-- A part of the worker that adds at most `amount` to the counters, opens no
frame and leaves its position alone. -/
structure Adds (amount : Nat) (w later : StreamWorld) : Prop where
  grows : w.runner.stats.Grows amount later.runner.stats
  skipped : later.runner.stats.skipped = w.runner.stats.skipped
  lastFrameId : later.runner.lastFrameId = w.runner.lastFrameId
  firstPacket : later.runner.firstPacket = w.runner.firstPacket
  openings : later.runner.openings = w.runner.openings
  adoptions : adoptions later.journal = adoptions w.journal
  real : w.AllReal → later.AllReal
  enrolled : w.Enrolled → later.Enrolled
  subscriptions : w.fabric.subscriptions.length ≤ later.fabric.subscriptions.length

namespace Adds

variable {amount more : Nat} {w later last : StreamWorld}

theorem refl : Adds 0 w w :=
  ⟨.refl, rfl, rfl, rfl, rfl, rfl, id, id, le_rfl⟩

theorem mono (counts : Adds amount w later) (enough : amount ≤ more) : Adds more w later :=
  { counts with grows := counts.grows.mono enough }

theorem trans (first : Adds amount w later) (second : Adds more later last) : Adds (amount + more) w last :=
  ⟨first.grows.trans second.grows, second.skipped.trans first.skipped, second.lastFrameId.trans first.lastFrameId,
    second.firstPacket.trans first.firstPacket, second.openings.trans first.openings,
    second.adoptions.trans first.adoptions, fun real => second.real (first.real real),
    fun enrolled => second.enrolled (first.enrolled enrolled), first.subscriptions.trans second.subscriptions⟩

theorem setStats {stats : StreamStats} (grows : w.runner.stats.Grows amount stats)
    (skipped : stats.skipped = w.runner.stats.skipped) : Adds amount w (w.setStats stats) :=
  ⟨grows, skipped, rfl, rfl, rfl, rfl, id, id, le_rfl⟩

theorem setFrame {index : Nat} {before after : FrameInFlight} (found : w.runner.frames[index]? = some before)
    (same : after.provisional = before.provisional) : Adds 0 w (w.setFrame index after) := by
  refine ⟨.refl, rfl, rfl, rfl, rfl, rfl, fun real => ?_, id, le_rfl⟩
  exact set_forall real (same.trans (real before (List.mem_of_getElem? found)))

theorem removeFrame (index : Nat) (w : StreamWorld) : Adds 0 w (w.removeFrame index) := by
  refine ⟨.refl, rfl, rfl, rfl, rfl, rfl, fun real => ?_, id, le_rfl⟩
  exact fun frame present => real frame (List.mem_of_mem_eraseIdx present)

theorem record (event : StreamEvent) (other : Stream.adoptions [event] = 0) : Adds 0 w (w.record event) := by
  refine ⟨.refl, rfl, rfl, rfl, rfl, ?_, id, id, le_rfl⟩
  rw [StreamWorld.record, adoptions_append, other, Nat.add_zero]

theorem ignore (w : StreamWorld) : Adds 1 w w.ignore := by
  refine setStats ?_ rfl
  simp [StreamStats.Grows, StreamStats.counters, StreamStats.ignore]

end Adds

namespace Fabric

structure Enrols (fabric later : Fabric) : Prop where
  subscriptions : fabric.subscriptions.length ≤ later.subscriptions.length
  commands : fabric.commands.countP ToStreamWorker.isSubscribe + later.subscriptions.length =
    later.commands.countP ToStreamWorker.isSubscribe + fabric.subscriptions.length

variable {fabric later last : Fabric}

theorem Enrols.refl : Enrols fabric fabric := ⟨le_rfl, rfl⟩

theorem Enrols.trans (first : Enrols fabric later) (second : Enrols later last) : Enrols fabric last := by
  have := first.commands
  have := second.commands
  exact ⟨first.subscriptions.trans second.subscriptions, by omega⟩

theorem Enrols.same (subscriptions : later.subscriptions.length = fabric.subscriptions.length)
    (commands : later.commands = fabric.commands) : Enrols fabric later :=
  ⟨subscriptions.ge, by rw [subscriptions, commands]⟩

theorem Enrols.updateSubscription (id : Nat) (change : Subscription → Subscription) (fabric : Fabric) :
    Enrols fabric (fabric.updateSubscription id change) :=
  .same (List.length_modify ..) rfl

theorem Enrols.returnSlot (slot : BufSlot) (fabric : Fabric) : Enrols fabric (fabric.returnSlot slot) := by
  unfold Fabric.returnSlot
  split <;> exact .same rfl rfl

theorem Enrols.release (key : Nat) (fabric : Fabric) : Enrols fabric (fabric.release key) := by
  unfold Fabric.release
  split
  · exact .refl
  · split
    · have forgotten : Enrols fabric (fabric.forget key) := .same rfl rfl
      exact forgotten.trans (Enrols.returnSlot ..)
    · exact .same rfl rfl

theorem Enrols.releaseAll (keys : List Nat) : ∀ (fabric : Fabric), Enrols fabric (fabric.releaseAll keys) := by
  induction keys with
  | nil => exact fun fabric => .refl
  | cons key rest ih => exact fun fabric => (Enrols.release key fabric).trans (ih _)

theorem Enrols.freeChannel (id : Nat) (fabric : Fabric) : Enrols fabric (fabric.freeChannel id) := by
  unfold Fabric.freeChannel
  split
  · exact .refl
  · split
    · exact (Enrols.updateSubscription ..).trans (Enrols.releaseAll ..)
    · exact .refl

theorem Enrols.dropSender (id : Nat) (fabric : Fabric) : Enrols fabric (fabric.dropSender id) :=
  (Enrols.updateSubscription ..).trans (Enrols.freeChannel ..)

theorem Enrols.trySend (id key : Nat) (fabric : Fabric) : Enrols fabric (fabric.trySend id key).1 := by
  unfold Fabric.trySend
  split
  · exact .refl
  · split
    · exact .refl
    · split
      · exact (Enrols.updateSubscription ..).trans (.same rfl rfl)
      · exact Enrols.updateSubscription ..
      · split <;> exact Enrols.updateSubscription ..

theorem Enrols.consume (act : ConsumerAct) (fabric : Fabric) : Enrols fabric (fabric.consume act) := by
  cases act with
  | subscribe capacity =>
    refine ⟨?_, ?_⟩
    · simp [Fabric.consume]
    · simp [Fabric.consume, ToStreamWorker.isSubscribe]
      omega
  | requestShutdown =>
    refine ⟨le_rfl, ?_⟩
    simp [Fabric.consume, ToStreamWorker.isSubscribe]
  | cloneReceiver id => exact Enrols.updateSubscription ..
  | dropReceiver id => exact (Enrols.updateSubscription ..).trans (Enrols.freeChannel ..)
  | tryRecv id =>
    simp only [Fabric.consume, Fabric.tryRecv]
    split
    · exact .refl
    · split
      · exact .refl
      · split
        · exact .refl
        · exact (Enrols.updateSubscription ..).trans (.same rfl rfl)
  | startWaiting id waiter => exact Enrols.updateSubscription ..
  | stopWaiting id position => exact Enrols.updateSubscription ..
  | cloneFrame key =>
    simp only [Fabric.consume]
    split
    · exact .same rfl rfl
    · exact .refl
  | dropFrame key =>
    simp only [Fabric.consume]
    split
    · have handed : Enrols fabric { fabric with heldHandles := fabric.heldHandles.erase key } := .same rfl rfl
      exact handed.trans (Enrols.release ..)
    · exact .refl

theorem Enrols.consumeAll (acts : List ConsumerAct) : ∀ (fabric : Fabric),
    Enrols fabric (acts.foldl Fabric.consume fabric) := by
  induction acts with
  | nil => exact fun fabric => .refl
  | cons act rest ih => exact fun fabric => (Enrols.consume act fabric).trans (ih _)

end Fabric

namespace Adds

variable {amount : Nat} {w later : StreamWorld}

theorem fabric {fabric : Fabric} (enrols : w.fabric.Enrols fabric) : Adds 0 w { w with fabric := fabric } := by
  refine ⟨.refl, rfl, rfl, rfl, rfl, rfl, id, fun enrolled => ?_, enrols.subscriptions⟩
  have commands := enrols.commands
  have grown := enrols.subscriptions
  simp only [StreamWorld.Enrolled] at enrolled ⊢
  omega

theorem yield (w : StreamWorld) : Adds 0 w w.yield := by
  unfold StreamWorld.yield
  cases w.schedule with
  | nil => exact .refl
  | cons acts rest =>
    have acted := fabric (w := w) (Fabric.Enrols.consumeAll acts w.fabric)
    exact ⟨acted.grows, acted.skipped, acted.lastFrameId, acted.firstPacket, acted.openings, acted.adoptions,
      acted.real, acted.enrolled, acted.subscriptions⟩

theorem commands (messages : List ToStreamWorker) : ∀ (runner : StreamRunner),
    (messages.foldl StreamWorld.command runner).openings = runner.openings ∧
      (messages.foldl StreamWorld.command runner).frames = runner.frames ∧
      (messages.foldl StreamWorld.command runner).subscribers.length =
        runner.subscribers.length + messages.countP ToStreamWorker.isSubscribe := by
  induction messages with
  | nil => exact fun runner => ⟨rfl, rfl, rfl⟩
  | cons message rest ih =>
    intro runner
    obtain ⟨openings, frames, subscribers⟩ := ih (StreamWorld.command runner message)
    refine ⟨openings.trans ?_, frames.trans ?_, subscribers.trans ?_⟩
    · cases message <;> rfl
    · cases message <;> rfl
    · cases message with
      | subscribe id =>
        simp [StreamWorld.command, List.countP_cons, ToStreamWorker.isSubscribe]
        omega
      | shutdown => simp [StreamWorld.command, ToStreamWorker.isSubscribe]

theorem drainCommands (w : StreamWorld) : Adds 0 w w.drainCommands := by
  obtain ⟨lastFrameId, firstPacket, history, stats⟩ := Steady.commands w.yield.fabric.commands w.yield.runner
  obtain ⟨openings, frames, subscribers⟩ := commands w.yield.fabric.commands w.yield.runner
  have drained : Adds 0 w.yield w.drainCommands := by
    refine ⟨?_, congrArg StreamStats.skipped stats, lastFrameId, firstPacket, openings, rfl, ?_, ?_, le_rfl⟩
    · simp only [StreamWorld.drainCommands, stats]
      exact .refl
    · intro real
      simp only [StreamWorld.AllReal, StreamWorld.drainCommands, frames]
      exact real
    · intro enrolled
      simp only [StreamWorld.Enrolled, StreamWorld.drainCommands, subscribers, List.countP_nil] at enrolled ⊢
      exact enrolled
  exact (yield w).trans drained

theorem publishStats (w : StreamWorld) : Adds 0 w w.publishStats :=
  ⟨.refl, rfl, rfl, rfl, rfl, rfl, id, id, le_rfl⟩

theorem remember (frameId : Nat) (extendedIds : Bool) (fingerprints : Option Fingerprints) (w : StreamWorld) :
    Adds 0 w (w.remember frameId extendedIds fingerprints) :=
  ⟨.refl, rfl, rfl, rfl, rfl, rfl, id, id, le_rfl⟩

theorem fanOut (key : Nat) (subscribers : List Nat) : ∀ (w : StreamWorld),
    Adds 0 w (StreamWorld.fanOut key subscribers w).1 ∧
      (StreamWorld.fanOut key subscribers w).2.1.length ≤ subscribers.length ∧
      (StreamWorld.fanOut key subscribers w).2.2 ≤ subscribers.length := by
  induction subscribers with
  | nil => exact fun w => ⟨.refl, le_rfl, le_rfl⟩
  | cons id rest ih =>
    intro w
    have retained : w.yield.fabric.Enrols (w.yield.fabric.retain key) := .same (by simp [Fabric.retain, Fabric.adjust]) rfl
    have offers := retained.trans (Fabric.Enrols.trySend id key (w.yield.fabric.retain key))
    rw [StreamWorld.fanOut]
    rcases offered : (w.yield.fabric.retain key).trySend id key with ⟨after, result⟩
    rw [offered] at offers
    cases result with
    | sent =>
      obtain ⟨counts, kept, dropped⟩ := ih { w.yield with fabric := after }
      refine ⟨(yield w).trans ((fabric offers).trans counts), ?_, ?_⟩
      · simpa using kept
      · simpa using dropped.trans (Nat.le_succ _)
    | full =>
      have released := offers.trans (Fabric.Enrols.release key after)
      obtain ⟨counts, kept, dropped⟩ := ih { w.yield with fabric := after.release key }
      refine ⟨(yield w).trans ((fabric released).trans counts), ?_, ?_⟩
      · simpa using kept
      · simpa using dropped
    | disconnected =>
      have released := (offers.trans (Fabric.Enrols.release key after)).trans
        (Fabric.Enrols.dropSender id (after.release key))
      obtain ⟨counts, kept, dropped⟩ := ih { w.yield with fabric := (after.release key).dropSender id }
      refine ⟨(yield w).trans ((fabric released).trans counts), ?_, ?_⟩
      · exact kept.trans (Nat.le_succ _)
      · exact dropped.trans (Nat.le_succ _)

theorem announce (opening : Nat) (frame : Frame) (accepted : List GvspView) (w : StreamWorld) :
    Adds 0 w (w.announce opening frame accepted) := by
  have shared : Adds 0 w { w with fabric := w.fabric.share frame } := fabric (.same rfl rfl)
  have recorded := shared.trans (record (.delivered opening frame accepted) rfl)
  exact recorded.trans (publishStats _)

end Adds

namespace Adds

variable {amount : Nat} {w later : StreamWorld}

theorem noteFanOut {subscribers : List Nat} (dropped : Nat) (fewer : subscribers.length ≤ w.runner.subscribers.length) :
    Adds dropped w (w.noteFanOut subscribers dropped) := by
  have kept : Adds 0 w { w with runner := { w.runner with subscribers := subscribers } } := by
    refine ⟨.refl, rfl, rfl, rfl, rfl, rfl, id, fun enrolled => ?_, le_rfl⟩
    simp only [StreamWorld.Enrolled] at enrolled ⊢
    omega
  unfold StreamWorld.noteFanOut
  simp only
  split
  · have counted : Adds dropped { w with runner := { w.runner with subscribers := subscribers } }
        (StreamWorld.setStats { w.runner.stats with framesDropped := w.runner.stats.framesDropped + dropped }
          { w with runner := { w.runner with subscribers := subscribers } }) := by
      refine setStats ?_ rfl
      simp [StreamStats.Grows, StreamStats.counters]
    exact ((kept.trans counted).trans (publishStats _)).mono (by omega)
  · exact kept.mono (Nat.zero_le _)

theorem deliver (opening : Nat) (frame : Frame) (accepted : List GvspView) (w : StreamWorld) :
    Adds w.runner.subscribers.length w (w.deliver opening frame accepted) := by
  obtain ⟨fanned, fewer, few⟩ := fanOut w.fabric.nextKey w.runner.subscribers
    (w.announce opening frame accepted)
  have runner := StreamWorld.fanOut_runner w.fabric.nextKey w.runner.subscribers
    (w.announce opening frame accepted)
  unfold StreamWorld.deliver
  simp only
  rcases outcome : StreamWorld.fanOut w.fabric.nextKey (w.announce opening frame accepted).runner.subscribers
    (w.announce opening frame accepted) with ⟨after, kept, dropped⟩
  have same : (w.announce opening frame accepted).runner.subscribers = w.runner.subscribers := rfl
  rw [same] at outcome
  rw [outcome] at fanned fewer few runner
  have noted : Adds dropped after (after.noteFanOut kept dropped) := by
    refine noteFanOut dropped ?_
    rw [runner]
    exact fewer
  have released : Adds 0 (after.noteFanOut kept dropped).yield
      { (after.noteFanOut kept dropped).yield with
        fabric := (after.noteFanOut kept dropped).yield.fabric.release w.fabric.nextKey } :=
    fabric (Fabric.Enrols.release ..)
  have whole := (((announce opening frame accepted w).trans fanned).trans noted).trans ((yield _).trans released)
  refine whole.mono ?_
  simp only at few
  omega

theorem closeStats {params : StreamParams} {frame : FrameInFlight} (bounds : InBounds params frame)
    (status : FrameStatus) (stats : StreamStats) :
    stats.Grows (maxFramePackets + 1) (stats.close status frame) ∧
      (stats.close status frame).skipped = stats.skipped := by
  have limit : frame.nPackets ≤ maxFramePackets := bounds.nPackets_le.trans (Nat.min_le_right _ _)
  have lower := bounds.prefixEnd.lower
  cases status <;> refine ⟨?_, rfl⟩ <;>
    simp only [StreamStats.Grows, StreamStats.close, StreamStats.counters, ne_eq, reduceCtorEq, not_true_eq_false,
      not_false_eq_true, and_true, and_false, if_true, if_false, List.forall₂_cons,
      List.forall₂_nil_right_iff, and_self] <;>
    omega

theorem closeFrame {params : StreamParams} {index : Nat} {status : FrameStatus} {frame : FrameInFlight}
    (accounted : w.fabric.Accounted []) (enrolled : w.Enrolled) (found : w.runner.frames[index]? = some frame)
    (bounds : InBounds params frame) (result : w.closeFrame params index status = .ok later) :
    Adds (maxFramePackets + 1 + later.fabric.subscriptions.length) w later := by
  have drained := drainCommands w
  unfold StreamWorld.closeFrame at result
  obtain ⟨isFrame, got, result⟩ := Checked.bind_eq_ok result
  rw [(StreamWorld.drainCommands_quietly w accounted).frames, StreamWorld.get_frame found] at got
  cases got
  cases result
  have removed := (drained.trans (removeFrame index w.drainCommands)).trans
    (remember frame.frameId frame.extendedIds (some frame.fingerprints) (w.drainCommands.removeFrame index))
  obtain ⟨grows, skipped⟩ := closeStats bounds status ((w.drainCommands.removeFrame index).remember frame.frameId
    frame.extendedIds (some frame.fingerprints)).runner.stats
  have counted := removed.trans (setStats grows skipped)
  have few := Nat.le_of_add_right_le (counted.enrolled enrolled)
  have fewStill := few.trans (deliver frame.opening (frame.toFrame params status) frame.accepted _).subscriptions
  exact (counted.trans (deliver frame.opening (frame.toFrame params status) frame.accepted _)).mono (by omega)

end Adds

structure Counts (amount : Nat) (w later : StreamWorld) : Prop extends Adds amount w later where
  channels : Channels w later

namespace Counts

variable {amount more : Nat} {w later last : StreamWorld}

theorem refl : Counts 0 w w := ⟨.refl, .refl⟩

theorem mono (counts : Counts amount w later) (enough : amount ≤ more) : Counts more w later :=
  ⟨counts.toAdds.mono enough, counts.channels⟩

theorem trans (first : Counts amount w later) (second : Counts more later last) : Counts (amount + more) w last :=
  ⟨first.toAdds.trans second.toAdds, first.channels.trans second.channels⟩

theorem inside (adds : Adds amount w later) (same : SameChannels w later) : Counts amount w later :=
  ⟨adds, .single (.inside same)⟩

theorem setStats {stats : StreamStats} (grows : w.runner.stats.Grows amount stats)
    (skipped : stats.skipped = w.runner.stats.skipped)
    (dropped : stats.framesDropped = w.runner.stats.framesDropped) : Counts amount w (w.setStats stats) :=
  inside (.setStats grows skipped) ⟨.refl, rfl, dropped, rfl⟩

theorem setFrame {index : Nat} {before after : FrameInFlight} (found : w.runner.frames[index]? = some before)
    (same : after.provisional = before.provisional) : Counts 0 w (w.setFrame index after) :=
  inside (.setFrame found same) ⟨.refl, rfl, rfl, rfl⟩

theorem removeFrame (index : Nat) (w : StreamWorld) : Counts 0 w (w.removeFrame index) :=
  inside (.removeFrame index w) ⟨.refl, rfl, rfl, rfl⟩

theorem record (event : StreamEvent) (other : Stream.adoptions [event] = 0) (undelivered : deliveredFrames [event] = []) :
    Counts 0 w (w.record event) := by
  refine inside (.record event other) ⟨.refl, rfl, rfl, ?_⟩
  rw [StreamWorld.record, deliveredFrames_append, undelivered, List.append_nil]

theorem ignore (w : StreamWorld) : Counts 1 w w.ignore :=
  inside (.ignore w) ⟨.refl, rfl, rfl, rfl⟩

theorem yield (w : StreamWorld) : Counts 0 w w.yield := ⟨.yield w, .single (.yields w)⟩

theorem drainCommands (w : StreamWorld) : Counts 0 w w.drainCommands := ⟨.drainCommands w, .single (.drains w)⟩

theorem publishStats (w : StreamWorld) : Counts 0 w w.publishStats :=
  inside (.publishStats w) ⟨.refl, rfl, rfl, rfl⟩

theorem returnSlot (slot : BufSlot) (w : StreamWorld) : Counts 0 w (w.returnSlot slot) :=
  inside (.fabric (Fabric.Enrols.returnSlot ..)) ⟨Fabric.SameBoard.returnSlot .., rfl, rfl, rfl⟩

theorem closeStats_dropped (status : FrameStatus) (frame : FrameInFlight) (stats : StreamStats) :
    (stats.close status frame).framesDropped = stats.framesDropped := by
  cases status <;> rfl

theorem closeFrame {params : StreamParams} {index : Nat} {status : FrameStatus} {frame : FrameInFlight}
    (wellformed : Wellformed params w) (enrolled : w.Enrolled) (found : w.runner.frames[index]? = some frame)
    (result : w.closeFrame params index status = .ok later) :
    Counts (maxFramePackets + 1 + later.fabric.subscriptions.length) w later := by
  have bounds := (wellformed.frames frame (List.mem_of_getElem? found)).inBounds
  refine ⟨.closeFrame wellformed.accounted enrolled found bounds result, ?_⟩
  have drained := StreamWorld.drainCommands_quietly w wellformed.accounted
  unfold StreamWorld.closeFrame at result
  obtain ⟨isFrame, got, result⟩ := Checked.bind_eq_ok result
  rw [drained.frames, StreamWorld.get_frame found] at got
  cases got
  cases result
  have same : SameChannels w.drainCommands
      (((w.drainCommands.removeFrame index).remember frame.frameId frame.extendedIds (some frame.fingerprints)).setStats
        (((w.drainCommands.removeFrame index).remember frame.frameId frame.extendedIds
          (some frame.fingerprints)).runner.stats.close status frame)) :=
    ⟨.refl, rfl, closeStats_dropped .., rfl⟩
  refine .single (.closes same drained.accounted ?_ _ _ _)
  have room := wellformed.room found
  rw [← drained.conserves.capacity, ← drained.conserves.slots.length_eq] at room
  exact room

end Counts

end Telegenic.Stream
