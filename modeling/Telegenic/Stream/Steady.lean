import Telegenic.Stream.RunnerMoves

/-! What most of the worker leaves alone: its position in the id sequence, the
history of closed blocks, the packet counters and the frames delivered. -/

set_option autoImplicit false

namespace Telegenic.Stream

open Library Proto Proto.Gvsp

@[ext] structure Tally where
  duplicated : Nat
  ignored : Nat
  failed : Nat
  missing : Nat
  unsupported : Nat
  deriving DecidableEq, Repr

def StreamStats.tally (stats : StreamStats) : Tally :=
  ⟨stats.duplicatedPackets, stats.ignoredPackets, stats.failedFrames, stats.missingFrames, stats.unsupportedFrames⟩

def deliveredFrames (journal : List StreamEvent) : List Frame :=
  journal.filterMap fun
    | .delivered _ frame _ => some frame
    | _ => none

@[simp] theorem deliveredFrames_append (journal events : List StreamEvent) :
    deliveredFrames (journal ++ events) = deliveredFrames journal ++ deliveredFrames events :=
  List.filterMap_append

def replays (journal : List StreamEvent) : Nat :=
  journal.countP fun
    | .opened _ _ provisional => provisional
    | _ => false

@[simp] theorem replays_append (journal events : List StreamEvent) :
    replays (journal ++ events) = replays journal + replays events :=
  List.countP_append

namespace Fabric

/-! Only the worker takes slots out of the pool. -/

theorem returnSlot_pool (slot : BufSlot) (fabric : Fabric) :
    fabric.pool.length ≤ (fabric.returnSlot slot).pool.length := by
  unfold returnSlot
  split
  · rw [List.length_append]
    exact Nat.le_add_right _ _
  · exact le_rfl

theorem release_pool (key : Nat) (fabric : Fabric) : fabric.pool.length ≤ (fabric.release key).pool.length := by
  unfold release
  cases fabric.lookup key with
  | none => exact le_rfl
  | some entry =>
    simp only
    split
    · exact returnSlot_pool entry.frame.slot (fabric.forget key)
    · exact le_rfl

theorem releaseAll_pool (keys : List Nat) : ∀ (fabric : Fabric),
    fabric.pool.length ≤ (fabric.releaseAll keys).pool.length := by
  induction keys with
  | nil => exact fun fabric => le_rfl
  | cons key rest ih => exact fun fabric => (release_pool key fabric).trans (ih (fabric.release key))

theorem freeChannel_pool (id : Nat) (fabric : Fabric) :
    fabric.pool.length ≤ (fabric.freeChannel id).pool.length := by
  unfold freeChannel
  cases fabric.subscriptions[id]? with
  | none => exact le_rfl
  | some subscription =>
    simp only
    split
    · exact releaseAll_pool subscription.queue (fabric.updateSubscription id fun s => { s with queue := [] })
    · exact le_rfl

theorem dropSender_pool (id : Nat) (fabric : Fabric) :
    fabric.pool.length ≤ (fabric.dropSender id).pool.length :=
  freeChannel_pool id (fabric.updateSubscription id fun s => { s with senderAlive := false })

theorem trySend_pool (id key : Nat) (fabric : Fabric) : (fabric.trySend id key).1.pool = fabric.pool := by
  unfold trySend
  cases fabric.subscriptions[id]? with
  | none => rfl
  | some subscription =>
    simp only
    split
    · rfl
    · split
      · rfl
      · rfl
      · split <;> rfl

theorem consume_pool (act : ConsumerAct) (fabric : Fabric) :
    fabric.pool.length ≤ (fabric.consume act).pool.length := by
  cases act with
  | subscribe => exact le_rfl
  | cloneReceiver => exact le_rfl
  | dropReceiver id => exact freeChannel_pool id (fabric.updateSubscription id _)
  | tryRecv id =>
    simp only [consume, tryRecv]
    split
    · exact le_rfl
    · split
      · exact le_rfl
      · split <;> exact le_rfl
  | startWaiting => exact le_rfl
  | stopWaiting => exact le_rfl
  | cloneFrame =>
    simp only [consume]
    split <;> exact le_rfl
  | dropFrame key =>
    simp only [consume]
    split
    · exact release_pool key { fabric with heldHandles := fabric.heldHandles.erase key }
    · exact le_rfl
  | requestShutdown => exact le_rfl

theorem consumeAll_pool (acts : List ConsumerAct) : ∀ (fabric : Fabric),
    fabric.pool.length ≤ (acts.foldl consume fabric).pool.length := by
  induction acts with
  | nil => exact fun fabric => le_rfl
  | cons act rest ih => exact fun fabric => (consume_pool act fabric).trans (ih (fabric.consume act))

end Fabric

structure Steady (w later : StreamWorld) : Prop where
  lastFrameId : later.runner.lastFrameId = w.runner.lastFrameId
  firstPacket : later.runner.firstPacket = w.runner.firstPacket
  history : later.runner.history = w.runner.history
  tally : later.runner.stats.tally = w.runner.stats.tally
  delivered : deliveredFrames later.journal = deliveredFrames w.journal
  replays : replays later.journal = replays w.journal
  pool : w.fabric.pool.length ≤ later.fabric.pool.length

namespace Steady

variable {w later last : StreamWorld}

theorem refl : Steady w w := ⟨rfl, rfl, rfl, rfl, rfl, rfl, le_rfl⟩

theorem trans (first : Steady w later) (second : Steady later last) : Steady w last :=
  ⟨second.lastFrameId.trans first.lastFrameId, second.firstPacket.trans first.firstPacket,
    second.history.trans first.history, second.tally.trans first.tally, second.delivered.trans first.delivered,
    second.replays.trans first.replays, first.pool.trans second.pool⟩

theorem setStats {stats : StreamStats} (same : stats.tally = w.runner.stats.tally) : Steady w (w.setStats stats) :=
  ⟨rfl, rfl, rfl, same, rfl, rfl, le_rfl⟩

theorem setFrame (index : Nat) (frame : FrameInFlight) : Steady w (w.setFrame index frame) :=
  ⟨rfl, rfl, rfl, rfl, rfl, rfl, le_rfl⟩

theorem yield (w : StreamWorld) : Steady w w.yield := by
  unfold StreamWorld.yield
  cases w.schedule with
  | nil => exact .refl
  | cons acts rest => exact ⟨rfl, rfl, rfl, rfl, rfl, rfl, Fabric.consumeAll_pool acts w.fabric⟩

theorem commands (messages : List ToStreamWorker) : ∀ (runner : StreamRunner),
    (messages.foldl StreamWorld.command runner).lastFrameId = runner.lastFrameId ∧
      (messages.foldl StreamWorld.command runner).firstPacket = runner.firstPacket ∧
      (messages.foldl StreamWorld.command runner).history = runner.history ∧
      (messages.foldl StreamWorld.command runner).stats = runner.stats := by
  induction messages with
  | nil => exact fun runner => ⟨rfl, rfl, rfl, rfl⟩
  | cons message rest ih =>
    intro runner
    have kept := ih (StreamWorld.command runner message)
    cases message <;> exact kept

theorem drainCommands (w : StreamWorld) : Steady w w.drainCommands := by
  obtain ⟨lastFrameId, firstPacket, history, stats⟩ := commands w.yield.fabric.commands w.yield.runner
  exact (yield w).trans ⟨lastFrameId, firstPacket, history, congrArg _ stats, rfl, rfl, le_rfl⟩

theorem fanOut (key : Nat) (subscribers : List Nat) : ∀ (w : StreamWorld),
    Steady w (StreamWorld.fanOut key subscribers w).1 := by
  induction subscribers with
  | nil => exact fun w => .refl
  | cons id rest ih =>
    intro w
    have continued : ∀ fabric : Fabric, w.yield.fabric.pool.length ≤ fabric.pool.length →
        Steady w { w.yield with fabric := fabric } := fun fabric grows =>
      (yield w).trans ⟨rfl, rfl, rfl, rfl, rfl, rfl, grows⟩
    have pool := Fabric.trySend_pool id key (w.yield.fabric.retain key)
    rw [StreamWorld.fanOut]
    rcases offered : (w.yield.fabric.retain key).trySend id key with ⟨fabric, result⟩
    rw [offered] at pool
    have kept : w.yield.fabric.pool.length ≤ fabric.pool.length := (congrArg List.length pool).ge
    have released := kept.trans (Fabric.release_pool key fabric)
    cases result with
    | sent => exact (continued fabric kept).trans (ih _)
    | full => exact (continued (fabric.release key) released).trans (ih _)
    | disconnected =>
      exact (continued ((fabric.release key).dropSender id)
        (released.trans (Fabric.dropSender_pool id (fabric.release key)))).trans (ih _)

theorem noteFanOut (w : StreamWorld) (subscribers : List Nat) (dropped : Nat) :
    Steady w (w.noteFanOut subscribers dropped) := by
  unfold StreamWorld.noteFanOut
  simp only
  split
  · exact ⟨rfl, rfl, rfl, rfl, rfl, rfl, le_rfl⟩
  · exact ⟨rfl, rfl, rfl, rfl, rfl, rfl, le_rfl⟩

theorem requestRanges (frame : FrameInFlight) (ranges : List (Nat × Nat)) : ∀ (w : StreamWorld),
    Steady w (ranges.foldl (StreamWorld.requestRange frame) w) := by
  induction ranges with
  | nil => exact fun w => .refl
  | cons range rest ih =>
    intro w
    have requested : Steady w (StreamWorld.requestRange frame w range) :=
      ⟨rfl, rfl, rfl, rfl, (deliveredFrames_append _ _).trans (List.append_nil _), replays_append _ _, le_rfl⟩
    exact requested.trans (ih _)

theorem missingPacketCheck {params : StreamParams} {index packetId now : Nat}
    (result : w.missingPacketCheck params index packetId now = .ok later) : Steady w later := by
  unfold StreamWorld.missingPacketCheck at result
  obtain ⟨frame, _, result⟩ := Checked.bind_eq_ok result
  obtain ⟨⟨after, verdict⟩, _, result⟩ := Checked.bind_eq_ok result
  cases verdict with
  | skipped =>
    cases result
    exact setFrame index after
  | ratioReached =>
    cases result
    exact (setFrame index after).trans (setStats rfl)
  | requests ranges =>
    cases result
    exact (setFrame index after).trans (requestRanges after ranges _)

theorem discardFrame {index : Nat} (result : w.discardFrame index = .ok later) : Steady w later := by
  unfold StreamWorld.discardFrame at result
  obtain ⟨frame, _, result⟩ := Checked.bind_eq_ok result
  cases result
  have removed : Steady w (w.removeFrame index) := ⟨rfl, rfl, rfl, rfl, rfl, rfl, le_rfl⟩
  refine removed.trans ((yield _).trans ⟨rfl, rfl, rfl, rfl, ?_, ?_, Fabric.returnSlot_pool frame.slot _⟩)
  · exact (deliveredFrames_append _ _).trans (List.append_nil _)
  · exact replays_append _ _

theorem discardProvisionalLoop (fuel : Nat) : ∀ {w : StreamWorld},
    StreamWorld.discardProvisionalLoop fuel w = .ok later → Steady w later := by
  induction fuel with
  | zero =>
    intro w result
    cases result
    exact .refl
  | succ fuel ih =>
    intro w result
    rw [StreamWorld.discardProvisionalLoop] at result
    cases search : w.runner.frames.findIdx? (·.provisional) with
    | none =>
      rw [search] at result
      cases result
      exact .refl
    | some index =>
      rw [search] at result
      obtain ⟨next, discarded, result⟩ := Checked.bind_eq_ok result
      exact (discardFrame discarded).trans (ih result)

end Steady

structure Closes (params : StreamParams) (frame : FrameInFlight) (status : FrameStatus) (w later : StreamWorld) :
    Prop where
  lastFrameId : later.runner.lastFrameId = w.runner.lastFrameId
  firstPacket : later.runner.firstPacket = w.runner.firstPacket
  history : later.runner.history =
    (w.remember frame.frameId frame.extendedIds (some frame.fingerprints)).runner.history
  tally : later.runner.stats.tally = (w.runner.stats.close status frame).tally
  delivered : deliveredFrames later.journal = deliveredFrames w.journal ++ [frame.toFrame params status]
  replays : replays later.journal = replays w.journal
  pool : w.fabric.pool.length ≤ later.fabric.pool.length

theorem deliver_steady (w : StreamWorld) (opening : Nat) (frame : Frame) (accepted : List GvspView) :
    Steady (w.announce opening frame accepted) (w.deliver opening frame accepted) := by
  have fanned := Steady.fanOut w.fabric.nextKey (w.announce opening frame accepted).runner.subscribers
    (w.announce opening frame accepted)
  have noted := fanned.trans (Steady.noteFanOut _ (StreamWorld.fanOut w.fabric.nextKey
    (w.announce opening frame accepted).runner.subscribers (w.announce opening frame accepted)).2.1
    (StreamWorld.fanOut w.fabric.nextKey
      (w.announce opening frame accepted).runner.subscribers (w.announce opening frame accepted)).2.2)
  exact (noted.trans (Steady.yield _)).trans ⟨rfl, rfl, rfl, rfl, rfl, rfl, Fabric.release_pool w.fabric.nextKey _⟩

theorem drainCommands_stats (w : StreamWorld) : w.drainCommands.runner.stats = w.runner.stats := by
  have yielded : w.yield.runner = w.runner := by
    unfold StreamWorld.yield
    cases w.schedule <;> rfl
  rw [← yielded]
  exact (Steady.commands w.yield.fabric.commands w.yield.runner).2.2.2

theorem closeFrame_closes {params : StreamParams} {index : Nat} {status : FrameStatus} {frame : FrameInFlight}
    {w later : StreamWorld} (accounted : w.fabric.Accounted []) (found : w.runner.frames[index]? = some frame)
    (result : w.closeFrame params index status = .ok later) : Closes params frame status w later := by
  have drained := Steady.drainCommands w
  unfold StreamWorld.closeFrame at result
  obtain ⟨isFrame, got, result⟩ := Checked.bind_eq_ok result
  rw [(StreamWorld.drainCommands_quietly w accounted).frames, StreamWorld.get_frame found] at got
  cases got
  cases result
  have delivers := deliver_steady (((w.drainCommands.removeFrame index).remember frame.frameId frame.extendedIds
    (some frame.fingerprints)).setStats (w.drainCommands.runner.stats.close status frame)) frame.opening
    (frame.toFrame params status) frame.accepted
  refine ⟨delivers.lastFrameId.trans drained.lastFrameId, delivers.firstPacket.trans drained.firstPacket, ?_, ?_, ?_, ?_,
    drained.pool.trans delivers.pool⟩
  · refine delivers.history.trans ?_
    simp only [StreamWorld.remember, ← drained.history]
    rfl
  · rw [← drainCommands_stats w]
    exact delivers.tally
  · rw [← drained.delivered]
    exact delivers.delivered.trans (deliveredFrames_append _ _)
  · rw [← drained.replays]
    exact delivers.replays.trans (replays_append _ _)

theorem noteFirstPacket_eq (view : GvspView) (w : StreamWorld) : ∃ position,
    w.noteFirstPacket view = { w with runner := { w.runner with lastFrameId := position, firstPacket := false } } := by
  unfold StreamWorld.noteFirstPacket
  by_cases first : w.runner.firstPacket = true
  · rw [if_pos first]
    exact ⟨_, rfl⟩
  · rw [if_neg first]
    have started : w.runner.firstPacket = false := Bool.eq_false_iff.mpr first
    exact ⟨w.runner.lastFrameId, by rw [← started]⟩

end Telegenic.Stream
