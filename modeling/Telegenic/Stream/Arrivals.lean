import Telegenic.Stream.Follow

/-! What a packet of the device does to a receiver that follows it: a packet of
an open frame is taken or counted as a duplicate, a packet of the next frame
opens it, and a copy of a packet of a closed frame is ignored. -/

set_option autoImplicit false

namespace Telegenic.Stream

open Library Proto Proto.Gvsp

theorem forall₂_range' {Value : Type} {relation : Nat → Value → Prop} {start count : Nat} {values : List Value} :
    List.Forall₂ relation (List.range' start count) values ↔
      values.length = count ∧ ∀ i value, values[i]? = some value → relation (start + i) value := by
  rw [List.forall₂_iff_get]
  simp only [List.length_range', List.get_eq_getElem, List.getElem_range', Nat.one_mul]
  constructor
  · rintro ⟨length, all⟩
    refine ⟨length.symm, fun i value isValue => ?_⟩
    obtain ⟨inside, rfl⟩ := List.getElem?_eq_some_iff.mp isValue
    exact all i (by omega) inside
  · rintro ⟨length, all⟩
    exact ⟨length.symm, fun i _ inside => all i _ (List.getElem?_eq_getElem inside)⟩

theorem Thinned.set {frames : List FrameInFlight} {index : Nat} {frame after : FrameInFlight}
    (found : frames[index]? = some frame) (untouched : Untouched frame after) :
    Thinned frames (frames.set index after) := by
  induction frames generalizing index with
  | nil => cases found
  | cons first rest ih =>
    cases index with
    | zero =>
      cases found
      exact .kept untouched (.refl rest)
    | succ index => exact .kept .refl (ih found)

section InFlight

variable {params : StreamParams} {device : Device} {sheet : Sheet} {frames : List FrameInFlight} {j : Nat}

theorem InFlight.pending (inFlight : InFlight params device sheet frames) (unclosed : sheet.closed ≤ j)
    (isOpen : j < sheet.opened) :
    ∃ frame, frames[j - sheet.closed]? = some frame ∧ Pending params device sheet.arrived j frame := by
  obtain ⟨pending, echoes, rfl, isPending, _⟩ := inFlight
  obtain ⟨length, all⟩ := forall₂_range'.mp isPending
  have inside : j - sheet.closed < pending.length := by omega
  have found := List.getElem?_eq_getElem inside
  have isFrame := all (j - sheet.closed) _ found
  rw [Nat.add_sub_cancel' unclosed] at isFrame
  exact ⟨_, by rw [List.getElem?_append_left inside]; exact found, isFrame⟩

theorem InFlight.setPending {arrived : Nat → List Nat} {after : FrameInFlight}
    (inFlight : InFlight params device sheet frames) (unclosed : sheet.closed ≤ j) (isOpen : j < sheet.opened)
    (others : ∀ i, i ≠ j → arrived i = sheet.arrived i) (isAfter : Pending params device arrived j after) :
    InFlight params device { sheet with arrived := arrived } (frames.set (j - sheet.closed) after) := by
  obtain ⟨pending, echoes, rfl, isPending, isEcho⟩ := inFlight
  obtain ⟨length, all⟩ := forall₂_range'.mp isPending
  have inside : j - sheet.closed < pending.length := by omega
  refine ⟨pending.set (j - sheet.closed) after, echoes, List.set_append_left _ _ inside, ?_, ?_⟩
  · refine forall₂_range'.mpr ⟨by rw [List.length_set]; exact length, fun i frame isFrame => ?_⟩
    rw [List.getElem?_set] at isFrame
    split at isFrame
    · rename_i here
      cases isFrame
      show Pending params device arrived (sheet.closed + i) after
      rw [← here, Nat.add_sub_cancel' unclosed]
      exact isAfter
    · rename_i elsewhere
      exact (all i frame isFrame).congr (others _ (by omega))
  · intro frame present
    obtain ⟨i, echo⟩ := isEcho frame present
    exact ⟨i, echo.later le_rfl rfl⟩

end InFlight

theorem InFlight.real {params : StreamParams} {device : Device} {sheet : Sheet} {pending : List FrameInFlight}
    (isPending : List.Forall₂ (Pending params device sheet.arrived)
      (List.range' sheet.closed (sheet.opened - sheet.closed)) pending) {frame : FrameInFlight}
    (present : frame ∈ pending) :
    ∃ j, sheet.closed ≤ j ∧ j < sheet.opened ∧ Pending params device sheet.arrived j frame := by
  obtain ⟨length, all⟩ := forall₂_range'.mp isPending
  obtain ⟨i, inside, rfl⟩ := List.mem_iff_getElem.mp present
  exact ⟨sheet.closed + i, Nat.le_add_right _ _, by omega, all i _ (List.getElem?_eq_getElem inside)⟩

theorem InTime.set {params : StreamParams} {now index : Nat} {after : FrameInFlight} {w later : StreamWorld}
    (inTime : InTime params now w) (frames : later.runner.frames = w.runner.frames.set index after)
    (fresh : after.provisional = false → after.quietFor now params.frameRetention = false) :
    InTime params now later := by
  intro frame present
  rw [frames] at present
  rcases List.mem_or_eq_of_mem_set present with old | rfl
  · exact inTime frame old
  · exact fresh

section Taking

variable {params : StreamParams} {device : Device} {origin : Origin} {sheet : Sheet} {w : StreamWorld} {j k : Nat} {view : GvspView}
  {index : Nat} {frame : FrameInFlight} (now : Nat)

theorem afterContent_follows (follows : Follows params device origin sheet w) (inTime : InTime params now w)
    (fits : ∀ sent ∈ device.frames, sent.Fits params)
    (alone : params.resendEnabled = false → sheet.opened ≤ sheet.closed + 1) (view : GvspView)
    (found : w.runner.frames[index]? = some frame) :
    ∃ later, w.afterContent params view now index false = .ok later ∧
      Follows params device origin (device.closeHeads (sheet.opened - sheet.closed) sheet) later ∧
      w.fabric.pool.length ≤ later.fabric.pool.length := by
  obtain ⟨next, after, result, moves, scanned, frames⟩ :=
    StreamWorld.missingPacketCheck_moves [] none view.packetId now follows.wellformed found
  have steady := Steady.missingPacketCheck result
  have inside := (List.getElem?_eq_some_iff.mp found).1
  have still : next.runner.frames[index]? = some after := by
    rw [frames]
    exact List.getElem?_set_self inside
  have next_follows : Follows params device origin sheet next := by
    refine follows.thinned steady (moves.wellformed follows.wellformed) ?_
    rw [frames]
    exact .set found scanned.toUntouched
  have next_inTime : InTime params now next := by
    refine inTime.set frames fun real => ?_
    have same := inTime frame (List.mem_of_getElem? found)
    rw [FrameInFlight.provisional, scanned.replayOf] at real
    rw [FrameInFlight.quietFor, scanned.lastPacketTime]
    exact same real
  obtain ⟨later, rest_result, rest_follows, pool⟩ := completionLoop_follows now (some after.frameId) fits
    next.runner.frames.length sheet next next_follows next_inTime le_rfl alone
  refine ⟨later, ?_, rest_follows, steady.pool.trans pool⟩
  simp only [StreamWorld.afterContent, Bool.false_eq_true, if_false, Checked.ok_bind, result,
    StreamWorld.get_frame still]
  exact rest_result

theorem processFramePacket_takes (systemNow : Nat) (follows : Follows params device origin sheet w)
    (inTime : InTime params now w) (fits : ∀ sent ∈ device.frames, sent.Fits params)
    (alone : params.resendEnabled = false → sheet.opened ≤ sheet.closed + 1)
    (unclosed : sheet.closed ≤ j) (isOpen : j < sheet.opened)
    {sent : SentFrame} (isSent : device.frames[j]? = some sent) (packet : sent.IsPacket k view)
    (accepted : view.status.isError = false) (fresh : k ∉ sheet.arrived j) :
    ∃ later, w.processFramePacket params view now systemNow (j - sheet.closed) = .ok later ∧
      Follows params device origin (device.closeHeads (sheet.opened - sheet.closed)
        { sheet with arrived := Function.update sheet.arrived j (sheet.arrived j ++ [k]) }) later ∧
      w.fabric.pool.length ≤ later.fabric.pool.length := by
  obtain ⟨frame, found, pending⟩ := follows.inFlight.pending unclosed isOpen
  obtain ⟨_, isSent', collects⟩ := pending.collects
  rw [isSent] at isSent'
  cases isSent'
  have real := pending.provisional
  have inside := (List.getElem?_eq_some_iff.mp found).1
  have counted : w.countAbsorbed (j - sheet.closed) frame = w := if_neg (by rw [real]; exact Bool.false_ne_true)
  have unreceived : ¬ isReceived frame.slot.packets view.packetId = true := by
    rw [packet.packetId, collects.isReceived_iff]
    exact fresh
  obtain ⟨content, mismatches, settled, resent, diverged, result, settles, absorbs, collected, _⟩ :=
    collects.take (fits sent (List.mem_of_getElem? isSent)) packet fresh systemNow w.runner.stats
  let stats := { w.runner.stats with sizeMismatchErrors := mismatches, resentPackets := resent }
  have steady : Steady w ((w.setFrame (j - sheet.closed) settled).setStats stats) :=
    (Steady.setFrame (j - sheet.closed) settled).trans (.setStats rfl)
  have wellformed : Wellformed params ((w.setFrame (j - sheet.closed) settled).setStats stats) :=
    follows.wellformed.replace found absorbs.valid absorbs.key rfl rfl
  have isSettled : Pending params device (Function.update sheet.arrived j (sheet.arrived j ++ [k])) j settled := by
    refine ⟨absorbs.replayOf.trans pending.real, absorbs.frameId.trans pending.frameId,
      absorbs.extendedIds.trans pending.extendedIds, sent, isSent, ?_⟩
    rw [Function.update_self]
    exact collected
  have next_follows := follows.steady steady wellformed (follows.inFlight.setPending unclosed isOpen
    (fun i other => Function.update_of_ne other _ _) isSettled)
  have next_inTime : InTime params now ((w.setFrame (j - sheet.closed) settled).setStats stats) := by
    refine inTime.set rfl fun _ => ?_
    rw [FrameInFlight.quietFor, absorbs.lastPacketTime]
    exact inTime frame (List.mem_of_getElem? found) real
  obtain ⟨later, after_result, after_follows, pool⟩ := afterContent_follows now next_follows next_inTime fits alone view
    (List.getElem?_set_self inside)
  refine ⟨later, ?_, after_follows, steady.pool.trans pool⟩
  unfold StreamWorld.processFramePacket
  simp only [StreamWorld.get_frame found, Checked.ok_bind, counted]
  rw [if_neg (by rw [accepted]; exact Bool.false_ne_true), if_neg unreceived, result]
  simp only [Checked.ok_bind, real, Bool.false_and]
  rw [settles]
  exact after_result

end Taking

section Counting

variable {params : StreamParams} {device : Device} {origin : Origin} {sheet : Sheet} {w : StreamWorld}

theorem Follows.setStats (follows : Follows params device origin sheet w) {duplicates late : Nat} {stats : StreamStats}
    (grows : sheet.late ≤ late)
    (tally : Tallies device origin { sheet with duplicates := duplicates, late := late } stats.tally) :
    Follows params device origin { sheet with duplicates := duplicates, late := late } (w.setStats stats) := by
  obtain ⟨pending, echoes, frames, isPending, isEcho⟩ := follows.inFlight
  refine ⟨?_, ⟨pending, echoes, frames, isPending, fun frame present => ?_⟩, follows.distinct, follows.unstarted,
    follows.started, follows.history, follows.delivered, ?_, tally⟩
  · have move : Move params [] none w (w.setStats stats) :=
      (StreamWorld.setStats_quietly w follows.wellformed.accounted stats).move
    exact move.wellformed follows.wellformed
  · obtain ⟨j, echo⟩ := isEcho frame present
    exact ⟨j, echo.later le_rfl rfl⟩
  · have replays := follows.replays
    exact replays.trans (Nat.add_le_add_left grows _)

theorem Follows.ignore (follows : Follows params device origin sheet w) :
    Follows params device origin { sheet with late := sheet.late + 1 } w.ignore := by
  obtain ⟨duplicated, ignored, failed, missing, unsupported⟩ := follows.tally
  exact follows.setStats (Nat.le_succ _) ⟨duplicated, congrArg (· + 1) ignored, failed, missing, unsupported⟩

theorem Follows.countDuplicate (follows : Follows params device origin sheet w) :
    Follows params device origin { sheet with duplicates := sheet.duplicates + 1 } w.countDuplicate := by
  obtain ⟨duplicated, ignored, failed, missing, unsupported⟩ := follows.tally
  refine follows.setStats le_rfl ⟨?_, ignored, failed, missing, unsupported⟩
  show w.runner.stats.duplicatedPackets + 1 + origin.forgiven = origin.tally.duplicated + (sheet.duplicates + 1)
  have counted : w.runner.stats.duplicatedPackets + origin.forgiven = origin.tally.duplicated + sheet.duplicates :=
    duplicated
  omega

end Counting

section Routing

variable {params : StreamParams} {device : Device} {origin : Origin} {sheet : Sheet} {w : StreamWorld} {j k : Nat} {view : GvspView}

theorem Follows.noted (follows : Follows params device origin sheet w) (some_open : sheet.opened ≠ 0)
    (view : GvspView) : w.noteFirstPacket view = w := by
  refine if_neg ?_
  rw [(follows.started some_open).1]
  exact Bool.false_ne_true

theorem Follows.findIdx?_pending (follows : Follows params device origin sheet w) (unclosed : sheet.closed ≤ j)
    (isOpen : j < sheet.opened) :
    w.runner.frames.findIdx? (·.frameId == device.frameId j) = some (j - sheet.closed) := by
  obtain ⟨frame, found, pending⟩ := follows.inFlight.pending unclosed isOpen
  obtain ⟨inside, isFrame⟩ := List.getElem?_eq_some_iff.mp found
  refine List.findIdx?_eq_some_iff_getElem.mpr ⟨inside, ?_, fun i earlier => ?_⟩
  · rw [isFrame, pending.frameId]
    exact beq_self_eq_true _
  · obtain ⟨other, isOther, otherPending⟩ :=
      follows.inFlight.pending (j := sheet.closed + i) (Nat.le_add_right _ _) (by omega)
    rw [Nat.add_sub_cancel_left] at isOther
    obtain ⟨_, isOther⟩ := List.getElem?_eq_some_iff.mp isOther
    rw [isOther, otherPending.frameId, beq_iff_eq]
    exact follows.distinct (sheet.closed + i) j (Nat.le_add_right _ _) (by omega) isOpen

theorem Follows.refresh {index : Nat} {frame : FrameInFlight} (follows : Follows params device origin sheet w)
    (found : w.runner.frames[index]? = some frame) (now : Nat) :
    Follows params device origin sheet (w.setFrame index { frame with lastPacketTime := now }) := by
  have untouched : Untouched frame { frame with lastPacketTime := now } := .bookkeeping _ _ _ _ _ _
  have moves : Moves params [] none w _ := StreamWorld.setFrame_moves [] none found untouched
  exact follows.thinned (.setFrame _ _) (moves.wellformed follows.wellformed) (.set found untouched)

theorem InTime.refresh {now index : Nat} {frame : FrameInFlight} (inTime : InTime params now w)
    (retention : 0 < params.frameRetention) :
    InTime params now (w.setFrame index { frame with lastPacketTime := now }) := by
  refine inTime.set rfl fun _ => decide_eq_false ?_
  simp only [Nat.sub_self]
  omega

theorem processPacket_pending {datagram : List UInt8} (now systemNow : Nat) (follows : Follows params device origin sheet w)
    (tidy : device.Tidy params.resendEnabled sheet) (inTime : InTime params now w)
    (fits : ∀ sent ∈ device.frames, sent.Fits params) (retention : 0 < params.frameRetention)
    (parsed : GvspView.parse datagram = some view) (sends : device.Sends j k view)
    (unclosed : sheet.closed ≤ j) (isOpen : j < sheet.opened) :
    ∃ later, w.processPacket params datagram now systemNow = .ok later ∧
      Follows params device origin (device.arrive sheet j k) later ∧ w.fabric.pool.length ≤ later.fabric.pool.length := by
  obtain ⟨frame, found, pending⟩ := follows.inFlight.pending unclosed isOpen
  have inside := (List.getElem?_eq_some_iff.mp found).1
  let refreshed := { frame with lastPacketTime := now }
  have routed : (w.noteFirstPacket view).findOrCreateFrame params view now =
      .ok (w.setFrame (j - sheet.closed) refreshed, some (j - sheet.closed)) := by
    rw [follows.noted (by omega), StreamWorld.findOrCreateFrame, sends.frameId,
      follows.findIdx?_pending unclosed isOpen]
    simp only [StreamWorld.get_frame found, Checked.ok_bind]
    rfl
  have next := follows.refresh found now
  have next_found : (w.setFrame (j - sheet.closed) refreshed).runner.frames[j - sheet.closed]? = some refreshed :=
    List.getElem?_set_self inside
  obtain ⟨sent, isSent, packet⟩ := sends.packet
  rw [StreamWorld.processPacket, parsed]
  simp only [routed, Checked.ok_bind]
  rw [Device.arrive, if_neg (by omega)]
  by_cases repeated : k ∈ sheet.arrived j
  · obtain ⟨_, isSent', collects⟩ := pending.collects
    rw [isSent] at isSent'
    cases isSent'
    have received : isReceived refreshed.slot.packets view.packetId = true := by
      rw [packet.packetId]
      exact collects.isReceived_iff.mpr repeated
    have real : refreshed.provisional = false := pending.provisional
    rw [if_pos repeated]
    refine ⟨_, ?_, next.countDuplicate, le_rfl⟩
    unfold StreamWorld.processFramePacket
    simp only [StreamWorld.get_frame next_found, Checked.ok_bind, StreamWorld.countAbsorbed, real, Bool.false_eq_true,
      if_false, sends.accepted, received, if_true]
    rfl
  · rw [if_neg repeated]
    obtain ⟨later, result, later_follows, pool⟩ := processFramePacket_takes now systemNow next
      (inTime.refresh retention) fits tidy.alone unclosed isOpen isSent packet sends.accepted repeated
    refine ⟨later, result, ?_, pool⟩
    have opened : (Device.enter sheet j k).opened = sheet.opened := Nat.max_eq_left isOpen
    simp only [opened, show (Device.enter sheet j k).closed = sheet.closed from rfl]
    rw [show Device.enter sheet j k =
      { sheet with arrived := Function.update sheet.arrived j (sheet.arrived j ++ [k]) } by
        rw [Device.enter, Nat.max_eq_left isOpen]]
    exact later_follows

end Routing

section Opening

variable {params : StreamParams} {device : Device} {origin : Origin} {sheet : Sheet} {w : StreamWorld} {j k : Nat} {view : GvspView}

structure Opens (params : StreamParams) (view : GvspView) (now nPackets : Nat) (distance : Int)
    (replayOf : Option Fingerprints) (w later : StreamWorld) : Prop where
  frames : ∃ opening slot, later.runner.frames =
    w.runner.frames ++ [StreamWorld.newFrame params view now nPackets opening slot replayOf]
  lastFrameId : later.runner.lastFrameId = if replayOf.isSome then w.runner.lastFrameId else view.frameId
  firstPacket : later.runner.firstPacket = w.runner.firstPacket
  history : later.runner.history = w.runner.history
  tally : later.runner.stats.tally = { w.runner.stats.tally with
    missing := w.runner.stats.tally.missing + if replayOf.isSome then 0 else distance.toNat - 1 }
  delivered : deliveredFrames later.journal = deliveredFrames w.journal
  replays : replays later.journal = replays w.journal + if replayOf.isSome then 1 else 0
  pool : w.fabric.pool.length ≤ later.fabric.pool.length + 1

theorem moveTo_tally (view : GvspView) (distance : Int) (w : StreamWorld) :
    (w.moveTo view distance).runner.stats.tally =
      { w.runner.stats.tally with missing := w.runner.stats.tally.missing + (distance.toNat - 1) } := by
  unfold StreamWorld.moveTo
  simp only
  split
  · rfl
  · rename_i near
    rw [show distance.toNat - 1 = 0 by omega]
    rfl

theorem startFrame_opens (now nPackets : Nat) (distance : Int) (replayOf : Option Fingerprints) (slot : BufSlot)
    (fabric : Fabric) (taken : w.fabric.pool.length ≤ fabric.pool.length + 1) :
    Opens params view now nPackets distance replayOf w
      (StreamWorld.startFrame params view now nPackets distance replayOf slot { w with fabric := fabric }) := by
  cases replayOf with
  | none =>
    exact ⟨⟨_, _, rfl⟩, rfl, rfl, rfl, moveTo_tally view distance _,
      (deliveredFrames_append _ _).trans (List.append_nil _), replays_append _ _, taken⟩
  | some known =>
    exact ⟨⟨_, _, rfl⟩, rfl, rfl, rfl, rfl, (deliveredFrames_append _ _).trans (List.append_nil _),
      replays_append _ _, taken⟩

theorem Opens.afterSteady {now nPackets : Nat} {distance : Int} {replayOf : Option Fingerprints}
    {next later : StreamWorld} (opens : Opens params view now nPackets distance replayOf next later)
    (steady : Steady w next) (frames : next.runner.frames = w.runner.frames) :
    Opens params view now nPackets distance replayOf w later :=
  ⟨frames ▸ opens.frames, steady.lastFrameId ▸ opens.lastFrameId, opens.firstPacket.trans steady.firstPacket,
    opens.history.trans steady.history, steady.tally ▸ opens.tally, opens.delivered.trans steady.delivered,
    steady.replays ▸ opens.replays, steady.pool.trans opens.pool⟩

theorem openFrame_opens (params : StreamParams) (view : GvspView) (now nPackets : Nat) (distance : Int)
    (replayOf : Option Fingerprints) (accounted : w.fabric.Accounted []) (free : 0 < w.fabric.pool.length) :
    ∃ later, w.openFrame params view now nPackets distance replayOf = (later, some w.runner.frames.length) ∧
      Opens params view now nPackets distance replayOf w later := by
  have yielded := Steady.yield w
  have frames := (StreamWorld.yield_quietly w accounted).frames
  have grows := yielded.pool
  cases pool : w.yield.fabric.pool with
  | nil =>
    rw [pool] at grows
    exact absurd grows (by simpa using free.ne')
  | cons slot rest =>
    have opens : Opens params view now nPackets distance replayOf w.yield _ :=
      startFrame_opens now nPackets distance replayOf slot { w.yield.fabric with pool := rest }
        (by rw [pool]; exact le_rfl)
    refine ⟨_, ?_, opens.afterSteady yielded frames⟩
    simp only [StreamWorld.openFrame, Fabric.tryClaim, pool, frames]

theorem noteFirstPacket_spec (w : StreamWorld) (view : GvspView) :
    (w.noteFirstPacket view).runner.firstPacket = false ∧
      (w.noteFirstPacket view).runner.history = w.runner.history ∧
      (w.noteFirstPacket view).runner.stats = w.runner.stats ∧
      (w.noteFirstPacket view).journal = w.journal ∧ (w.noteFirstPacket view).fabric = w.fabric := by
  obtain ⟨position, noted⟩ := noteFirstPacket_eq view w
  rw [noted]
  exact ⟨rfl, rfl, rfl, rfl, rfl⟩

theorem noteFirstPacket_approach (positive : 1 ≤ view.frameId) (le : view.frameId ≤ maxBlockId view.extendedIds) :
    blockIdDistance view.frameId (w.noteFirstPacket view).runner.lastFrameId view.extendedIds =
      w.approach view.frameId view.extendedIds := by
  unfold StreamWorld.approach
  by_cases first : w.runner.firstPacket = true
  · rw [StreamWorld.noteFirstPacket, if_pos first, if_pos first]
    exact blockIdDistance_first positive le
  · rw [StreamWorld.noteFirstPacket, if_neg first, if_neg first]

theorem search_none (unknown : ∀ frame ∈ w.runner.frames, frame.frameId ≠ view.frameId) :
    (w.noteFirstPacket view).runner.frames.findIdx? (·.frameId == view.frameId) = none := by
  obtain ⟨position, noted⟩ := noteFirstPacket_eq view w
  rw [noted]
  simpa using unknown

theorem findOrCreateFrame_admits (now : Nat) (unknown : ∀ frame ∈ w.runner.frames, frame.frameId ≠ view.frameId)
    (positive : 1 ≤ view.frameId) (le : view.frameId ≤ maxBlockId view.extendedIds)
    (admits : w.Admits view.frameId view.extendedIds) :
    (w.noteFirstPacket view).findOrCreateFrame params view now =
      (w.noteFirstPacket view).createFrame params view now (w.approach view.frameId view.extendedIds) none := by
  rw [StreamWorld.findOrCreateFrame, search_none unknown]
  simp only [noteFirstPacket_approach positive le]
  split
  · rename_i behind
    obtain ⟨isRestart, unremembered⟩ : view.frameId = restartBlockId ∧
        w.recalls view.frameId view.extendedIds = none := by
      rcases admits with ahead | far | restart
      · omega
      · omega
      · exact restart
    have isNew : (w.noteFirstPacket view).classifyBehind view = .new := by
      rw [StreamWorld.classifyBehind, (noteFirstPacket_spec w view).2.1, if_neg (by simpa using isRestart)]
      rw [StreamWorld.recalls] at unremembered
      rw [unremembered]
    rw [isNew]
  · rfl

theorem Follows.admits_next (follows : Follows params device origin sheet w) :
    w.Admits (device.frameId sheet.opened) device.extendedIds ∧
      origin.missing device sheet.opened +
        ((w.approach (device.frameId sheet.opened) device.extendedIds).toNat - 1) =
      origin.missing device (sheet.opened + 1) := by
  cases opened : sheet.opened with
  | zero =>
    obtain ⟨admits, lead⟩ := follows.unstarted opened
    rw [device.frameId_zero]
    refine ⟨admits, ?_⟩
    simp only [Origin.missing, Device.skipped, device.offset_zero, lead]
    omega
  | succ j =>
    obtain ⟨started, position⟩ := follows.started (by omega)
    have ahead : w.approach (device.frameId (j + 1)) device.extendedIds =
        (device.offset (j + 1) - device.offset j : Nat) := by
      rw [StreamWorld.approach, if_neg (by rw [started]; exact Bool.false_ne_true), position, opened]
      exact device.distance_next
    have grows := device.offset_lt j
    have least := device.le_offset j
    rw [StreamWorld.Admits, ahead]
    refine ⟨.inl (by omega), ?_⟩
    simp only [Origin.missing, Device.skipped, Int.toNat_natCast]
    omega

theorem Follows.next_unknown (follows : Follows params device origin sheet w) (ordered : sheet.closed ≤ sheet.opened)
    (newId : device.NewId sheet sheet.opened) :
    ∀ frame ∈ w.runner.frames, frame.frameId ≠ device.frameId sheet.opened := by
  obtain ⟨pending, echoes, frames, isPending, isEcho⟩ := follows.inFlight
  intro frame present
  rw [frames] at present
  rcases List.mem_append.mp present with real | echo
  · obtain ⟨j, unclosed, isOpen, isFrame⟩ := InFlight.real isPending real
    rw [isFrame.frameId]
    exact newId rfl j unclosed isOpen
  · obtain ⟨j, isFrame⟩ := isEcho frame echo
    have closed := isFrame.closed
    have recent := isFrame.recent
    have near := device.offset_le (sheet.opened - 1)
    have large := @maxBlockId_large device.extendedIds
    rw [Nat.sub_add_cancel (show 1 ≤ sheet.opened by omega)] at near
    rw [isFrame.frameId]
    exact (device.frameId_ne (by omega) (by omega)).symm

theorem InFlight.filter_real {pending echoes : List FrameInFlight}
    (isPending : List.Forall₂ (Pending params device sheet.arrived)
      (List.range' sheet.closed (sheet.opened - sheet.closed)) pending)
    (isEcho : ∀ frame ∈ echoes, ∃ j, Echo params device sheet j frame) :
    (pending ++ echoes).filter (!·.provisional) = pending := by
  have kept : pending.filter (!·.provisional) = pending := by
    refine List.filter_eq_self.mpr fun frame present => ?_
    obtain ⟨j, _, _, isFrame⟩ := InFlight.real isPending present
    rw [isFrame.provisional]
    rfl
  have dropped : echoes.filter (!·.provisional) = [] := by
    refine List.filter_eq_nil_iff.mpr fun frame present => ?_
    obtain ⟨j, echo⟩ := isEcho frame present
    rw [echo.provisional]
    exact Bool.false_ne_true
  rw [List.filter_append, kept, dropped, List.append_nil]

theorem Follows.openNext (follows : Follows params device origin sheet w)
    (tidy : device.Tidy params.resendEnabled sheet)
    (now : Nat) (sends : device.Sends sheet.opened k view) (newId : device.NewId sheet sheet.opened)
    (opener : k = 0 → ∀ sent ∈ device.frames, sent.Supported)
    (room : packetProtocolOverhead device.extendedIds < params.scpsPacketSize) (free : 0 < w.fabric.pool.length)
    (inTime : InTime params now w) (retention : 0 < params.frameRetention) :
    ∃ later, (w.noteFirstPacket view).findOrCreateFrame params view now =
        .ok (later, some (sheet.opened - sheet.closed)) ∧
      Follows params device origin { sheet with opened := sheet.opened + 1 } later ∧ InTime params now later ∧
      w.fabric.pool.length ≤ later.fabric.pool.length + 1 := by
  have unknown := follows.next_unknown tidy.closed_le newId
  obtain ⟨admits, skips⟩ := follows.admits_next
  rw [← sends.frameId] at unknown
  rw [← sends.frameId, ← sends.extendedIds] at admits skips
  have noted := StreamWorld.noteFirstPacket_quietly w follows.wellformed.accounted view
  have noted_moves : Moves params [] none w (w.noteFirstPacket view) := noted.moves
  have noted_wellformed := noted_moves.wellformed follows.wellformed
  obtain ⟨pending, echoes, frames, isPending, isEcho⟩ := follows.inFlight
  obtain ⟨sent, isSent, packet⟩ := sends.packet
  obtain ⟨nPackets, expected, two_le⟩ : ∃ nPackets, computeNExpectedPackets params view = .ok nPackets ∧
      2 ≤ nPackets :=
    packet.expected (fun isLeader => opener isLeader sent (List.mem_of_getElem? isSent))
      (by rw [sends.extendedIds]; exact room)
  obtain ⟨next, discards, discard_moves, kept⟩ :=
    StreamWorld.discardProvisional_moves [] none noted_wellformed
  have next_frames : next.runner.frames = pending := by
    rw [kept, noted.frames, frames]
    exact InFlight.filter_real isPending isEcho
  have steady := Steady.discardProvisionalLoop _ discards
  obtain ⟨started, history, stats, journal, fabric⟩ := noteFirstPacket_spec w view
  have grows : w.fabric.pool.length ≤ next.fabric.pool.length := by
    rw [← fabric]
    exact steady.pool
  obtain ⟨later, opened, opens⟩ := openFrame_opens params view now nPackets
    (w.approach view.frameId view.extendedIds) none
    (discard_moves.wellformed noted_wellformed).accounted (free.trans_le grows)
  have length : next.runner.frames.length = sheet.opened - sheet.closed := by
    rw [next_frames]
    exact (forall₂_range'.mp isPending).1
  have result : (w.noteFirstPacket view).findOrCreateFrame params view now =
      .ok (later, some (sheet.opened - sheet.closed)) := by
    rw [findOrCreateFrame_admits now unknown (by rw [sends.frameId]; exact device.frameId_pos)
      (by rw [sends.frameId, sends.extendedIds]; exact device.frameId_le) admits, StreamWorld.createFrame]
    simp only [Option.isSome_none, Bool.false_eq_true, if_false, discards, Checked.ok_bind, expected]
    rw [if_neg (by omega), opened, length]
    rfl
  have wellformed : Wellformed params later := by
    obtain ⟨_, _, result', moves, _⟩ := StreamWorld.findOrCreateFrame_moves _ (some view) now noted_wellformed rfl rfl
    rw [result] at result'
    cases result'
    exact moves.wellformed noted_wellformed
  obtain ⟨opening, slot, later_frames⟩ := opens.frames
  rw [next_frames] at later_frames
  refine ⟨later, result, ⟨wellformed, ?_, ?_, ?_, ?_, ?_, ?_, ?_, ?_⟩, ?_, grows.trans opens.pool⟩
  · have sized := (wellformed.frames _ (by rw [later_frames]; exact List.mem_append_right _ List.mem_cons_self)).inBounds
    have isNew : Pending params device sheet.arrived sheet.opened
        (StreamWorld.newFrame params view now nPackets opening slot none) := by
      refine ⟨rfl, sends.frameId, sends.extendedIds, sent, isSent, ?_⟩
      rw [tidy.unopened sheet.opened le_rfl]
      exact newFrame_collects expected two_le sized.data_length
    refine ⟨_, [], by rw [later_frames, List.append_nil], ?_, fun frame present => by cases present⟩
    have more : sheet.opened + 1 - sheet.closed = sheet.opened - sheet.closed + 1 := by
      have := tidy.closed_le
      omega
    simp only [more, List.range'_concat, Nat.one_mul, Nat.add_sub_cancel' tidy.closed_le]
    exact List.rel_append isPending (.cons isNew .nil)
  · intro i j unclosed before isOpen
    rcases Nat.lt_succ_iff_lt_or_eq.mp isOpen with old | rfl
    · exact follows.distinct i j unclosed before old
    · exact newId rfl i unclosed before
  · intro none_open
    cases none_open
  · intro _
    rw [opens.firstPacket, steady.firstPacket, started, opens.lastFrameId]
    exact ⟨rfl, sends.frameId⟩
  · rw [opens.history, steady.history, history]
    exact follows.history
  · rw [opens.delivered, steady.delivered, journal]
    exact follows.delivered
  · rw [opens.replays, steady.replays, journal]
    exact follows.replays
  · obtain ⟨duplicated, ignored, failed, missing, unsupported⟩ := follows.tally
    rw [opens.tally, steady.tally, stats]
    refine ⟨duplicated, ignored, failed, ?_, unsupported⟩
    simp only [missing, Option.isSome_none, Bool.false_eq_true, if_false]
    omega
  · intro frame present real
    rw [later_frames] at present
    rcases List.mem_append.mp present with old | new
    · exact inTime frame (by rw [frames]; exact List.mem_append_left _ old) real
    · obtain rfl := List.mem_singleton.mp new
      refine decide_eq_false ?_
      simp only [StreamWorld.newFrame, Nat.sub_self]
      omega

end Opening

end Telegenic.Stream
