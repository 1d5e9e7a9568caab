import Telegenic.Stream.Books
import Telegenic.Stream.Bursts

/-! A device that restarts its block counter. Its first frame has the id of one
the receiver remembers and is taken for late copies until a packet differs from
what was recorded; from then on the receiver follows the device. -/

set_option autoImplicit false

namespace Telegenic.Stream

open Library Proto Proto.Gvsp

def SentFrame.DiffersAt (params : StreamParams) (known : Fingerprints) (sent : SentFrame) (k : Nat) : Prop :=
  if sent.kind k = .trailer then
    ∃ entry, known.trailer = some entry ∧ entry ≠ (k, params.fingerprint 2 (sent.body k))
  else
    ∃ position : Fin fingerprintedPackets, position.val = k ∧ ∃ hash, known.head position = some hash ∧
      hash ≠ params.fingerprint ((contentTag (sent.kind k)).getD 0) (sent.body k)

def SentFrame.Differs (params : StreamParams) (known : Fingerprints) (sent : SentFrame) : Prop :=
  ∃ k < sent.nPackets, sent.DiffersAt params known k

section Diverging

variable {params : StreamParams} {sent : SentFrame} {known fingerprints : Fingerprints} {k : Nat} {view : GvspView}

theorem SentFrame.IsPacket.diverged_iff (packet : sent.IsPacket k view) :
    (fingerprints.record params view (some known)).2 = true ↔ sent.DiffersAt params known k := by
  have kind := packet.contentType
  have isId := packet.packetId
  unfold Fingerprints.record SentFrame.DiffersAt
  rcases Nat.lt_or_ge sent.blocks k with last | inside
  · rw [kind, SentFrame.kind_trailer last, packet.data, isId]
    simp only [contentTag, if_true, Option.any_some]
    cases known.trailer with
    | none => simp
    | some entry => simp
  · obtain ⟨tag, tagged, notTrailer⟩ : ∃ tag, contentTag (sent.kind k) = some tag ∧ sent.kind k ≠ .trailer := by
      rcases Nat.eq_zero_or_pos k with rfl | positive
      · exact ⟨1, rfl, by simp⟩
      · rw [SentFrame.kind_payload positive inside]
        exact ⟨3, rfl, by simp⟩
    rw [kind, tagged, packet.data]
    simp only [if_neg notTrailer, Option.getD_some]
    subst isId
    split
    · rename_i inHead
      simp only [Option.bind_some]
      constructor
      · intro differs
        obtain ⟨hash, isHash, different⟩ := Option.any_eq_true _ _ |>.mp differs
        exact ⟨⟨view.packetId, inHead⟩, rfl, hash, isHash, by simpa using different⟩
      · rintro ⟨position, isPosition, hash, isHash, different⟩
        obtain rfl : position = ⟨view.packetId, inHead⟩ := Fin.ext isPosition
        simp [isHash, different]
    · rename_i beyond
      constructor
      · intro differs
        cases differs
      · rintro ⟨position, isPosition, _⟩
        exact absurd position.isLt (by omega)

end Diverging

section Relation

variable (params : StreamParams) (device : Device) (origin : Origin) (known : Fingerprints)

/-- The only frame in flight collects the device's first frame and is taken
for copies of the remembered one. -/
structure Suspects (sheet : Sheet) (frame : FrameInFlight) (w : StreamWorld) : Prop where
  wellformed : Wellformed params w
  frames : w.runner.frames = [frame]
  replayOf : frame.replayOf = some known
  frameId : frame.frameId = device.frameId 0
  extendedIds : frame.extendedIds = device.extendedIds
  collects : ∃ sent, device.frames[0]? = some sent ∧ Collects params sent (sheet.arrived 0) frame
  started : w.runner.firstPacket = false
  history : w.runner.history = origin.history
  delivered : (deliveredFrames w.journal).map Frame.outcome = origin.delivered
  replays : replays w.journal = origin.replays + 1
  tally : w.runner.stats.tally = { origin.tally with ignored := origin.tally.ignored + frame.absorbed }
  opened : sheet.opened = 1
  closed : sheet.closed = 0
  late : sheet.late = 0

inductive Restarting (sheet : Sheet) (w : StreamWorld) : Prop where
  | awaits (empty : sheet = {}) (wellformed : Wellformed params w) (idle : w.runner.frames = [])
      (began : w.origin device.firstId device.extendedIds = origin)
      (suspected : ¬ w.Admits device.firstId device.extendedIds)
      (recalled : ∃ block, w.recalls device.firstId device.extendedIds = some block ∧
        block.fingerprints = some known)
  | suspects {frame : FrameInFlight} (suspects : Suspects params device origin known sheet frame w)
      (same : ∀ sent, device.frames[0]? = some sent → ∀ k ∈ sheet.arrived 0, ¬ sent.DiffersAt params known k)
  | follows (began : Origin) (delivered : began.delivered = origin.delivered) (tally : began.tally = origin.tally)
      (follows : Follows params device began sheet w)

end Relation

section Suspecting

variable {params : StreamParams} {device : Device} {origin : Origin} {known : Fingerprints} {sheet : Sheet}
  {frame after : FrameInFlight} {w later : StreamWorld} {k : Nat} {view : GvspView}

theorem Suspects.provisional (suspects : Suspects params device origin known sheet frame w) :
    frame.provisional = true := by
  rw [FrameInFlight.provisional, suspects.replayOf]
  rfl

theorem Suspects.found (suspects : Suspects params device origin known sheet frame w) :
    w.runner.frames[0]? = some frame := by
  rw [suspects.frames]
  rfl

theorem Suspects.steady (suspects : Suspects params device origin known sheet frame w) (steady : Steady w later)
    (wellformed : Wellformed params later) (frames : later.runner.frames = [after]) (untouched : Untouched frame after)
    (absorbed : after.absorbed = frame.absorbed) : Suspects params device origin known sheet after later := by
  obtain ⟨sent, isSent, collects⟩ := suspects.collects
  refine ⟨wellformed, frames, untouched.replayOf.trans suspects.replayOf, untouched.frameId.trans suspects.frameId,
    untouched.extendedIds.trans suspects.extendedIds, ⟨sent, isSent, collects.untouched untouched⟩,
    steady.firstPacket.trans suspects.started, steady.history.trans suspects.history, ?_,
    steady.replays.trans suspects.replays, ?_, suspects.opened, suspects.closed, suspects.late⟩
  · rw [steady.delivered]
    exact suspects.delivered
  · rw [steady.tally, absorbed]
    exact suspects.tally

theorem Suspects.adopt (suspects : Suspects params device origin known sheet frame w) :
    ∃ later, w.adoptRestart 0 = .ok later ∧
      later.runner.frames = [{ frame with replayOf := none, resendDisabled := false }] ∧
      Follows params device { origin with replays := origin.replays + 1, lead := 0, forgiven := sheet.duplicates }
        sheet later := by
  obtain ⟨later, _, result, (moves : Moves params [] none w later), _⟩ :=
    StreamWorld.adoptRestart_moves [] none suspects.found suspects.provisional
  have wellformed := moves.wellformed suspects.wellformed
  have adopted := result
  rw [StreamWorld.adoptRestart, StreamWorld.get_frame suspects.found, Checked.ok_bind] at adopted
  cases adopted
  have frames : ((w.setFrame 0 { frame with replayOf := none, resendDisabled := false }).runner.frames) =
      [{ frame with replayOf := none, resendDisabled := false }] := by
    show w.runner.frames.set 0 _ = _
    rw [suspects.frames]
    rfl
  obtain ⟨sent, isSent, collects⟩ := suspects.collects
  have isPending : Pending params device sheet.arrived 0 { frame with replayOf := none, resendDisabled := false } := by
    refine ⟨rfl, suspects.frameId, suspects.extendedIds, sent, isSent, ?_, collects.clean, collects.two_le,
      collects.inside, collects.taken, collects.sized, collects.fingerprints, collects.leader⟩
    exact wellformed.frames _ (by
      show _ ∈ (w.setFrame 0 { frame with replayOf := none, resendDisabled := false }).runner.frames
      rw [frames]
      exact List.mem_cons_self)
  have tally := suspects.tally
  simp only [StreamStats.tally, Tally.ext_iff] at tally
  obtain ⟨duplicated, ignored, failed, missing, unsupported⟩ := tally
  refine ⟨_, result, frames, wellformed, ⟨[_], [], frames, ?_, fun other present => by cases present⟩, ?_, ?_, ?_,
    ⟨[], ?_, ?_, Nat.zero_le _⟩, ?_, ?_, ?_, ?_, failed, ?_, unsupported⟩
  · rw [suspects.opened, suspects.closed]
    exact .cons isPending .nil
  · intro i j _ before isOpen
    rw [suspects.opened] at isOpen
    omega
  · intro none_open
    rw [suspects.opened] at none_open
    cases none_open
  · intro _
    rw [suspects.opened]
    exact ⟨suspects.started, suspects.frameId⟩
  · rw [suspects.closed]
    exact .nil
  · rw [List.append_nil]
    exact suspects.history ▸ List.suffix_rfl
  · rw [suspects.closed, List.take_zero, List.append_nil]
    show (deliveredFrames (w.journal ++ [.adopted frame.opening])).map Frame.outcome = origin.delivered
    rw [deliveredFrames_append, List.map_append, suspects.delivered]
    exact List.append_nil _
  · have counts := suspects.replays
    show Stream.replays (w.journal ++ [.adopted frame.opening]) ≤ _
    rw [replays_append, counts]
    exact Nat.le_add_right _ _
  · exact congrArg (· + sheet.duplicates) duplicated
  · show w.runner.stats.ignoredPackets - frame.absorbed = _
    rw [ignored, suspects.late]
    simp
  · rw [suspects.opened]
    refine missing.trans ?_
    simp [Origin.missing, Device.skipped, device.offset_zero]

theorem Suspects.countAbsorbed (suspects : Suspects params device origin known sheet frame w) :
    Suspects params device origin known sheet { frame with absorbed := frame.absorbed + 1 }
      (w.countAbsorbed 0 frame) := by
  let absorbed := { frame with absorbed := frame.absorbed + 1 }
  have untouched : Untouched frame absorbed := .bookkeeping _ _ _ _ _ _
  have counted : w.countAbsorbed 0 frame = (w.setFrame 0 absorbed).ignore := if_pos suspects.provisional
  have set_moves : Moves params [] none w (w.setFrame 0 absorbed) :=
    StreamWorld.setFrame_moves [] none suspects.found untouched
  have set_wellformed := set_moves.wellformed suspects.wellformed
  have ignore_move : Move params [] none (w.setFrame 0 absorbed) (w.setFrame 0 absorbed).ignore :=
    (StreamWorld.setStats_quietly _ set_wellformed.accounted _).move
  obtain ⟨sent, isSent, collects⟩ := suspects.collects
  have tally := suspects.tally
  simp only [StreamStats.tally, Tally.ext_iff] at tally
  obtain ⟨duplicated, ignored, failed, missing, unsupported⟩ := tally
  rw [counted]
  refine ⟨ignore_move.wellformed set_wellformed, ?_, suspects.replayOf, suspects.frameId, suspects.extendedIds,
    ⟨sent, isSent, collects.untouched untouched⟩, suspects.started, suspects.history, suspects.delivered,
    suspects.replays, ?_, suspects.opened, suspects.closed, suspects.late⟩
  · show w.runner.frames.set 0 absorbed = [absorbed]
    rw [suspects.frames]
    rfl
  · exact Tally.ext duplicated (congrArg (· + 1) ignored) failed missing unsupported

theorem Suspects.checkFrameCompletion {now : Nat} (currentFrameId : Option Nat)
    (suspects : Suspects params device origin known sheet frame w) (waits : frame.allReceived = false)
    (fresh : frame.quietFor now params.frameRetention = false) :
    w.checkFrameCompletion params now currentFrameId = .ok w := by
  have stays : w.completionStep params now currentFrameId 0 true = .ok (w, 1, true) := by
    rw [StreamWorld.completionStep, StreamWorld.get_frame suspects.found, Checked.ok_bind, if_pos suspects.provisional,
      if_neg (by simp [waits, fresh])]
    rfl
  rw [StreamWorld.checkFrameCompletion, suspects.frames]
  simp only [List.length_singleton, StreamWorld.completionLoop]
  rw [suspects.frames, if_pos (show 0 < [frame].length from Nat.one_pos), stays]
  rfl

theorem Device.arrive_first (closed : sheet.closed = 0) (opened : sheet.opened = 1) (fresh : k ∉ sheet.arrived 0) :
    device.arrive sheet 0 k = device.closeHeads (sheet.opened - sheet.closed)
      { sheet with arrived := Function.update sheet.arrived 0 (sheet.arrived 0 ++ [k]) } := by
  rw [Device.arrive, if_neg (by omega), if_neg fresh]
  have entered : Device.enter sheet 0 k =
      { sheet with arrived := Function.update sheet.arrived 0 (sheet.arrived 0 ++ [k]) } := by
    rw [Device.enter, Nat.max_eq_left opened.ge]
  simp only [entered]

theorem afterContent_adopt (now index : Nat) (view : GvspView) (w : StreamWorld) :
    w.afterContent params view now index true =
      w.adoptRestart index >>= fun w => w.afterContent params view now index false := rfl

theorem Suspects.take {settled : FrameInFlight} {stats : StreamStats} {sent : SentFrame}
    (suspects : Suspects params device origin known sheet frame w) (isSent : device.frames[0]? = some sent)
    (absorbs : Absorbs params view frame settled)
    (collects : Collects params sent (sheet.arrived 0 ++ [k]) settled)
    (same : stats.tally = w.runner.stats.tally) :
    Suspects params device origin known
      { sheet with arrived := Function.update sheet.arrived 0 (sheet.arrived 0 ++ [k]) } settled
      ((w.setFrame 0 settled).setStats stats) := by
  refine ⟨suspects.wellformed.replace suspects.found absorbs.valid absorbs.key rfl rfl, ?_,
    absorbs.replayOf.trans suspects.replayOf, absorbs.frameId.trans suspects.frameId,
    absorbs.extendedIds.trans suspects.extendedIds, ⟨sent, isSent, ?_⟩, suspects.started, suspects.history,
    suspects.delivered, suspects.replays, ?_, suspects.opened, suspects.closed, suspects.late⟩
  · show w.runner.frames.set 0 settled = [settled]
    rw [suspects.frames]
    rfl
  · simp only [Function.update_self]
    exact collects
  · rw [absorbs.absorbed]
    exact same.trans suspects.tally

theorem Suspects.afterContent_adopts {now : Nat} (suspects : Suspects params device origin known sheet frame w)
    (suits : device.Suits params) (fresh : frame.quietFor now params.frameRetention = false) (view : GvspView) :
    ∃ later, w.afterContent params view now 0 true = .ok later ∧
      Restarting params device origin known (device.closeHeads (sheet.opened - sheet.closed) sheet) later := by
  obtain ⟨next, adopts, frames, follows⟩ := suspects.adopt
  have inTime : InTime params now next := by
    intro other present _
    rw [frames] at present
    rw [List.mem_singleton.mp present]
    exact fresh
  have found : next.runner.frames[0]? = some { frame with replayOf := none, resendDisabled := false } := by
    rw [frames]
    rfl
  obtain ⟨later, result, later_follows, _⟩ := afterContent_follows now follows inTime suits.fits
    (fun _ => by rw [suspects.opened, suspects.closed]) view found
  refine ⟨later, ?_, .follows { origin with replays := origin.replays + 1, lead := 0, forgiven := sheet.duplicates }
    rfl rfl later_follows⟩
  rw [afterContent_adopt, adopts]
  exact result

theorem Suspects.waits (suspects : Suspects params device origin known sheet frame w)
    {sent : SentFrame} (isSent : device.frames[0]? = some sent) (same : ∀ k ∈ sheet.arrived 0, ¬ sent.DiffersAt params known k)
    (differs : sent.Differs params known) : frame.allReceived = false := by
  obtain ⟨_, isSent', collects⟩ := suspects.collects
  rw [isSent] at isSent'
  cases isSent'
  obtain ⟨missing, inside, isMissing⟩ := differs
  exact Bool.eq_false_iff.mpr fun all => same missing (collects.allReceived_iff.mp all missing inside) isMissing

theorem Suspects.afterContent_waits {sent : SentFrame} {now : Nat}
    (suspects : Suspects params device origin known sheet frame w) (isSent : device.frames[0]? = some sent)
    (same : ∀ k ∈ sheet.arrived 0, ¬ sent.DiffersAt params known k) (differs : sent.Differs params known)
    (fresh : frame.quietFor now params.frameRetention = false) (view : GvspView) :
    ∃ later, w.afterContent params view now 0 false = .ok later ∧
      Restarting params device origin known (device.closeHeads (sheet.opened - sheet.closed) sheet) later := by
  obtain ⟨next, after, checks, (moves : Moves params [] none _ next), scanned, frames⟩ :=
    StreamWorld.missingPacketCheck_moves [] none view.packetId now suspects.wellformed suspects.found
  have next_frames : next.runner.frames = [after] := by
    rw [frames, suspects.frames]
    rfl
  have next_suspects := suspects.steady (.missingPacketCheck checks) (moves.wellformed suspects.wellformed) next_frames
    scanned.toUntouched scanned.absorbed
  have waits : after.allReceived = false := by
    rw [FrameInFlight.allReceived, scanned.lastValidPacket, scanned.nPackets]
    exact suspects.waits isSent same differs
  have next_fresh : after.quietFor now params.frameRetention = false := by
    rw [FrameInFlight.quietFor, scanned.lastPacketTime]
    exact fresh
  have incomplete : device.complete sheet sheet.closed = false := by
    refine Bool.eq_false_iff.mpr fun complete => ?_
    obtain ⟨missing, inside, isMissing⟩ := differs
    rw [suspects.closed] at complete
    exact same missing ((Device.complete_iff isSent).mp complete missing inside) isMissing
  refine ⟨next, ?_, ?_⟩
  · simp only [StreamWorld.afterContent, Bool.false_eq_true, if_false, Checked.ok_bind, checks,
      StreamWorld.get_frame next_suspects.found]
    exact next_suspects.checkFrameCompletion _ waits next_fresh
  · rw [Device.closeHeads_incomplete incomplete]
    refine .suspects next_suspects fun other isOther => ?_
    rw [isSent] at isOther
    cases isOther
    exact same

theorem Suspects.processFramePacket {sent : SentFrame} {now : Nat} (systemNow : Nat)
    (suspects : Suspects params device origin known sheet frame w)
    (same : ∀ k ∈ sheet.arrived 0, ¬ sent.DiffersAt params known k) (isSent : device.frames[0]? = some sent)
    (differs : sent.Differs params known) (suits : device.Suits params)
    (fresh : frame.quietFor now params.frameRetention = false) (sends : device.Sends 0 k view) :
    ∃ later, w.processFramePacket params view now systemNow 0 = .ok later ∧
      Restarting params device origin known (device.arrive sheet 0 k) later := by
  have counted := suspects.countAbsorbed
  obtain ⟨_, isSent', packet⟩ := sends.packet
  rw [isSent] at isSent'
  cases isSent'
  obtain ⟨_, isSent', collects⟩ := counted.collects
  rw [isSent] at isSent'
  cases isSent'
  unfold StreamWorld.processFramePacket
  simp only [StreamWorld.get_frame suspects.found, Checked.ok_bind, StreamWorld.get_frame counted.found, sends.accepted,
    Bool.false_eq_true, if_false, suspects.provisional, Bool.true_and, if_true]
  by_cases repeated : k ∈ sheet.arrived 0
  · rw [if_pos (by rw [packet.packetId]; exact collects.isReceived_iff.mpr repeated), Device.arrive,
      if_neg (by rw [suspects.closed]; exact Nat.not_lt_zero _), if_pos repeated]
    have still : Suspects params device origin known { sheet with duplicates := sheet.duplicates + 1 } _
        (w.countAbsorbed 0 frame) :=
      ⟨counted.wellformed, counted.frames, counted.replayOf, counted.frameId, counted.extendedIds, counted.collects,
        counted.started, counted.history, counted.delivered, counted.replays, counted.tally, counted.opened,
        counted.closed, counted.late⟩
    refine ⟨_, rfl, .suspects still fun other isOther => ?_⟩
    rw [isSent] at isOther
    cases isOther
    exact same
  obtain ⟨content, mismatches, settled, resent, diverged, result, settles, absorbs, collected, isDiverged⟩ :=
    collects.take (suits.fits sent (List.mem_of_getElem? isSent)) packet repeated systemNow
      (w.countAbsorbed 0 frame).runner.stats
  rw [if_neg (by rw [packet.packetId]; exact fun received => repeated (collects.isReceived_iff.mp received)), result]
  simp only [Checked.ok_bind]
  rw [settles, Device.arrive_first suspects.closed suspects.opened repeated]
  let stats := { (w.countAbsorbed 0 frame).runner.stats with sizeMismatchErrors := mismatches, resentPackets := resent }
  have taken : Suspects params device origin known _ settled
      (((w.countAbsorbed 0 frame).setFrame 0 settled).setStats stats) :=
    counted.take isSent absorbs collected rfl
  have settled_fresh : settled.quietFor now params.frameRetention = false := by
    rw [FrameInFlight.quietFor, absorbs.lastPacketTime]
    exact fresh
  have recorded : diverged = true ↔ sent.DiffersAt params known k := by
    rw [isDiverged, show ({ frame with absorbed := frame.absorbed + 1 } : FrameInFlight).replayOf = some known from
      suspects.replayOf]
    exact packet.diverged_iff
  have still : diverged = false → ∀ i ∈ sheet.arrived 0 ++ [k], ¬ sent.DiffersAt params known i := by
    intro undiverged i present
    rcases List.mem_append.mp present with old | new
    · exact same i old
    · rw [List.mem_singleton.mp new, ← recorded, undiverged]
      exact Bool.false_ne_true
  cases diverged with
  | true => exact taken.afterContent_adopts suits settled_fresh view
  | false =>
    refine taken.afterContent_waits isSent ?_ differs settled_fresh view
    simp only [Function.update_self]
    exact still rfl

theorem opens_suspect (now : Nat) {block : ClosedBlock} (wellformed : Wellformed params w) (idle : w.runner.frames = [])
    (restarts : device.firstId = restartBlockId) (suspected : ¬ w.Admits device.firstId device.extendedIds)
    (recalled : w.recalls device.firstId device.extendedIds = some block) (isKnown : block.fingerprints = some known)
    (supported : ∀ sent ∈ device.frames, sent.Supported) (suits : device.Suits params)
    (free : 0 < w.fabric.pool.length) (sends : device.Sends 0 k view) :
    ∃ later frame, (w.noteFirstPacket view).findOrCreateFrame params view now = .ok (later, some 0) ∧
      frame.lastPacketTime = now ∧
      Suspects params device (w.origin device.firstId device.extendedIds) known { opened := 1 } frame later := by
  obtain ⟨behind, recent⟩ : w.approach device.firstId device.extendedIds < 1 ∧
      -discardLateFrameThreshold < w.approach device.firstId device.extendedIds := by
    rw [StreamWorld.Admits] at suspected
    omega
  have started : w.runner.firstPacket = false := by
    refine Bool.eq_false_iff.mpr fun first => ?_
    rw [StreamWorld.approach, if_pos first] at behind
    omega
  have noted : w.noteFirstPacket view = w := if_neg (by rw [started]; exact Bool.false_ne_true)
  have isFirst : view.frameId = device.firstId := sends.frameId.trans device.frameId_zero
  obtain ⟨sent, isSent, packet⟩ := sends.packet
  obtain ⟨nPackets, expected, two_le⟩ : ∃ nPackets, computeNExpectedPackets params view = .ok nPackets ∧
      2 ≤ nPackets :=
    packet.expected (fun _ => supported sent (List.mem_of_getElem? isSent))
      (by rw [sends.extendedIds]; exact suits.room)
  let distance := blockIdDistance device.firstId w.runner.lastFrameId device.extendedIds
  have approach : w.approach device.firstId device.extendedIds = distance :=
    if_neg (by rw [started]; exact Bool.false_ne_true)
  rw [approach] at behind recent
  have classified : w.classifyBehind view = .maybeReplay known := by
    rw [StreamWorld.recalls] at recalled
    rw [StreamWorld.classifyBehind, isFirst, sends.extendedIds, if_neg (by simpa using restarts), recalled]
    simp only [isKnown]
  obtain ⟨later, opened, opens⟩ := openFrame_opens params view now nPackets distance (some known)
    wellformed.accounted free
  have result : (w.noteFirstPacket view).findOrCreateFrame params view now = .ok (later, some 0) := by
    rw [noted, StreamWorld.findOrCreateFrame, idle]
    simp only [List.findIdx?_nil, isFirst, sends.extendedIds]
    rw [if_pos ⟨behind, recent⟩, classified]
    simp only [StreamWorld.createFrame, Option.isSome_some, if_true, Checked.ok_bind, expected]
    rw [if_neg (by omega), opened, idle]
    rfl
  have later_wellformed : Wellformed params later := by
    obtain ⟨_, _, result', moves, _⟩ := StreamWorld.findOrCreateFrame_moves _ (some view) now wellformed rfl rfl
    rw [noted] at result
    rw [result] at result'
    cases result'
    exact moves.wellformed wellformed
  obtain ⟨opening, slot, frames⟩ := opens.frames
  rw [idle, List.nil_append] at frames
  have sized := (later_wellformed.frames _ (by rw [frames]; exact List.mem_cons_self)).inBounds
  refine ⟨later, _, result, rfl, later_wellformed, frames, rfl, sends.frameId, sends.extendedIds, ⟨sent, isSent, ?_⟩,
    opens.firstPacket.trans started, opens.history, congrArg _ opens.delivered, opens.replays, opens.tally, rfl, rfl,
    rfl⟩
  exact newFrame_collects expected two_le sized.data_length

end Suspecting

/-- A buffer is free when a packet arrives, and no frame in flight, real or
not, has been quiet for the retention time. -/
def Undisturbed (params : StreamParams) (w : StreamWorld) : StreamInput → Prop
  | .packet _ now _ _ =>
      0 < w.fabric.pool.length ∧ ∀ frame ∈ w.runner.frames, frame.quietFor now params.frameRetention = false
  | .tick now _ => ∀ frame ∈ w.runner.frames, frame.quietFor now params.frameRetention = false
  | _ => True

instance (params : StreamParams) (w : StreamWorld) : (input : StreamInput) → Decidable (Undisturbed params w input)
  | .packet _ now _ _ => inferInstanceAs (Decidable (0 < w.fabric.pool.length ∧
      ∀ frame ∈ w.runner.frames, frame.quietFor now params.frameRetention = false))
  | .tick now _ => inferInstanceAs (Decidable
      (∀ frame ∈ w.runner.frames, frame.quietFor now params.frameRetention = false))
  | .commands _ | .acts _ | .flush _ => inferInstanceAs (Decidable True)

theorem Undisturbed.unhindered {params : StreamParams} {w : StreamWorld} {input : StreamInput}
    (undisturbed : Undisturbed params w input) : Unhindered params w input := by
  cases input with
  | packet received now systemNow schedule => exact ⟨undisturbed.1, fun frame present _ => undisturbed.2 frame present⟩
  | tick now schedule => exact fun frame present _ => undisturbed frame present
  | _ => trivial

/-- A packet that may arrive; the frames behind the first one wait until it is
closed. -/
def Device.FirstAlone (device : Device) (resend : Bool) (sheet : Sheet) (j k : Nat) : Prop :=
  device.InOrder resend sheet j k ∧ device.NewId sheet j ∧ (1 ≤ j → 1 ≤ sheet.closed)

instance (device : Device) (resend : Bool) (sheet : Sheet) (j k : Nat) :
    Decidable (device.FirstAlone resend sheet j k) := inferInstanceAs (Decidable (_ ∧ _))

section Running

variable {params : StreamParams} {device : Device} {origin : Origin} {known : Fingerprints} {sheet : Sheet}
  {frame : FrameInFlight} {w later : StreamWorld} {sent : SentFrame} {j k : Nat}

theorem Suspects.quietly (suspects : Suspects params device origin known sheet frame w) (steady : Steady w later)
    (quietly : StreamWorld.Quietly [] w later) : Suspects params device origin known sheet frame later := by
  have moves : Moves params [] none w later := quietly.moves
  exact suspects.steady steady (moves.wellformed suspects.wellformed) (quietly.frames.trans suspects.frames) .refl rfl

theorem StreamWorld.origin_steady (steady : Steady w later) (frameId : Nat) (extendedIds : Bool) :
    later.origin frameId extendedIds = w.origin frameId extendedIds := by
  simp only [StreamWorld.origin, StreamWorld.approach, steady.history, steady.delivered, steady.tally, steady.replays,
    steady.firstPacket, steady.lastFrameId]

theorem Restarting.step_waits {input : StreamInput} (restarting : Restarting params device origin known sheet w)
    (isSent : device.frames[0]? = some sent) (differs : sent.Differs params known) (suits : device.Suits params)
    (tidy : device.Tidy params.resendEnabled sheet) (undisturbed : Undisturbed params w input)
    (brings : device.Brings none input) :
    ∃ later, w.step params input = .ok later ∧ Restarting params device origin known sheet later := by
  cases restarting with
  | awaits empty wellformed idle began suspected recalled =>
    obtain ⟨next, result, steady, next_wellformed, next_idle⟩ := step_idle wellformed idle brings
    refine ⟨next, result, .awaits empty next_wellformed next_idle ?_ ?_ ?_⟩
    · rw [StreamWorld.origin_steady steady]
      exact began
    · rw [steady.admits_iff]
      exact suspected
    · rw [StreamWorld.recalls, steady.history]
      exact recalled
  | @suspects frame suspects same =>
    obtain ⟨next, result, steady, quietly⟩ := step_quietly suspects.wellformed brings fun now schedule isTick => by
      subst isTick
      have ready : Suspects params device origin known sheet frame { w with schedule := schedule } :=
        suspects.quietly ⟨rfl, rfl, rfl, rfl, rfl, rfl, le_rfl⟩ (StreamWorld.schedule_quietly suspects.wellformed.accounted schedule)
      exact ready.checkFrameCompletion none (suspects.waits isSent (same sent isSent) differs)
        (undisturbed frame (by rw [suspects.frames]; exact List.mem_cons_self))
    exact ⟨next, result, .suspects (suspects.quietly steady quietly) same⟩
  | follows began delivered tally follows =>
    obtain ⟨next, result, next_follows⟩ := Stream.step_waits follows tidy suits undisturbed.unhindered brings
    exact ⟨next, result, .follows began delivered tally next_follows⟩

theorem Suspects.refresh (suspects : Suspects params device origin known sheet frame w) (now : Nat) :
    Suspects params device origin known sheet { frame with lastPacketTime := now }
      (w.setFrame 0 { frame with lastPacketTime := now }) := by
  have untouched : Untouched frame { frame with lastPacketTime := now } := .bookkeeping _ _ _ _ _ _
  have moves : Moves params [] none w _ := StreamWorld.setFrame_moves [] none suspects.found untouched
  refine suspects.steady (.setFrame _ _) (moves.wellformed suspects.wellformed) ?_ untouched rfl
  show w.runner.frames.set 0 _ = _
  rw [suspects.frames]
  rfl

theorem Suspects.routed {view : GvspView} {now : Nat} (suspects : Suspects params device origin known sheet frame w)
    (sends : device.Sends 0 k view) : (w.noteFirstPacket view).findOrCreateFrame params view now =
      .ok (w.setFrame 0 { frame with lastPacketTime := now }, some 0) := by
  have noted : w.noteFirstPacket view = w := if_neg (by rw [suspects.started]; exact Bool.false_ne_true)
  have search : w.runner.frames.findIdx? (·.frameId == view.frameId) = some 0 := by
    rw [suspects.frames]
    simp [suspects.frameId, sends.frameId]
  rw [noted, StreamWorld.findOrCreateFrame, search]
  simp only [StreamWorld.get_frame suspects.found, Checked.ok_bind]
  rfl

theorem quietFor_now {now : Nat} (frame : FrameInFlight) (retention : 0 < params.frameRetention)
    (isNow : frame.lastPacketTime = now) : frame.quietFor now params.frameRetention = false := by
  refine decide_eq_false ?_
  rw [isNow, Nat.sub_self]
  omega

theorem Restarting.step_arrives {received : Received} {now systemNow : Nat} {schedule : List (List ConsumerAct)}
    (restarting : Restarting params device origin known sheet w) (restarts : device.firstId = restartBlockId)
    (isSent : device.frames[0]? = some sent) (differs : sent.Differs params known) (suits : device.Suits params)
    (supported : ∀ sent ∈ device.frames, sent.Supported) (tidy : device.Tidy params.resendEnabled sheet)
    (undisturbed : Undisturbed params w (.packet received now systemNow schedule))
    (brings : device.Brings (some (j, k)) (.packet received now systemNow schedule))
    (allowed : device.FirstAlone params.resendEnabled sheet j k) :
    ∃ later, w.step params (.packet received now systemNow schedule) = .ok later ∧
      Restarting params device origin known (device.arrive sheet j k) later := by
  obtain ⟨order, newId, alone⟩ := allowed
  obtain ⟨fromDevice, view, parsed, sends⟩ := id brings
  obtain ⟨steady, frames⟩ := received_steady received schedule w
  have received_ok : ∀ {next : StreamWorld}, ((StreamWorld.noteDrops received.drops
      { w with schedule := schedule }).countPacket received.datagram).processPacket params received.datagram now
        systemNow = .ok next → w.step params (.packet received now systemNow schedule) = .ok next := by
    intro next result
    rw [StreamWorld.step, StreamWorld.drainSocket]
    simp only [fromDevice, if_true]
    exact result
  cases restarting with
  | awaits empty wellformed idle began suspected recalled =>
    subst empty
    obtain rfl : j = 0 := by
      rcases order.2 with late | isOpen | next
      · exact absurd late.1 (Nat.not_lt_zero _)
      · exact absurd isOpen.2 (Nat.not_lt_zero _)
      · exact next.1
    obtain ⟨block, isRecalled, isKnown⟩ := recalled
    obtain ⟨next, frame, routed, isNow, suspects⟩ := opens_suspect now
      (received_wellformed received schedule wellformed) (frames.trans idle) restarts
      (fun admits => suspected ((steady.admits_iff _ _).mp admits))
      (by rw [StreamWorld.recalls, steady.history]; exact isRecalled) isKnown supported suits
      (undisturbed.1.trans_le steady.pool) sends
    rw [StreamWorld.origin_steady steady, began] at suspects
    obtain ⟨later, result, restarting⟩ := suspects.processFramePacket systemNow
      (fun k present => by cases present) isSent differs suits (quietFor_now frame suits.retention isNow) sends
    refine ⟨later, received_ok ?_, restarting⟩
    rw [StreamWorld.processPacket, parsed]
    simp only [routed, Checked.ok_bind]
    exact result
  | @suspects frame suspects same =>
    obtain rfl : j = 0 := by
      have closed := suspects.closed
      omega
    have ready := suspects.steady steady (received_wellformed received schedule suspects.wellformed)
      (frames.trans suspects.frames) .refl rfl
    obtain ⟨later, result, restarting⟩ := (ready.refresh now).processFramePacket systemNow (same sent isSent) isSent
      differs suits (quietFor_now _ suits.retention rfl) sends
    refine ⟨later, received_ok ?_, restarting⟩
    rw [StreamWorld.processPacket, parsed]
    simp only [ready.routed sends, Checked.ok_bind]
    exact result
  | follows began delivered tally follows =>
    obtain ⟨next, result, next_follows, _⟩ := Stream.step_arrives follows tidy suits undisturbed.unhindered brings
      ⟨order, newId, .inl supported⟩
    exact ⟨next, result, .follows began delivered tally next_follows⟩

theorem run_restarts (restarts : device.firstId = restartBlockId) (isSent : device.frames[0]? = some sent)
    (differs : sent.Differs params known) (suits : device.Suits params)
    (supported : ∀ sent ∈ device.frames, sent.Supported) {labels : List (Option (Nat × Nat))}
    {inputs : List StreamInput} (brings : List.Forall₂ device.Brings labels inputs) :
    ∀ {sheet : Sheet} {w : StreamWorld}, Restarting params device origin known sheet w →
      device.Tidy params.resendEnabled sheet →
      device.Schedule (device.FirstAlone params.resendEnabled) labels sheet →
      Along params (Undisturbed params) inputs w →
      ∃ later, w.run params inputs = .ok later ∧
        Restarting params device origin known (device.play labels sheet) later := by
  induction brings with
  | nil => exact fun restarting _ _ _ => ⟨_, rfl, restarting⟩
  | @cons label input labels inputs here _ ih =>
    intro sheet w restarting tidy schedule along
    obtain ⟨undisturbed, along⟩ := along
    cases label with
    | none =>
      obtain ⟨next, result, still⟩ := restarting.step_waits isSent differs suits tidy undisturbed here
      rw [result] at along
      obtain ⟨later, rest, ends⟩ := ih still tidy schedule along
      exact ⟨later, by rw [StreamWorld.run, result]; exact rest, ends⟩
    | some packet =>
      obtain ⟨j, k⟩ := packet
      obtain ⟨allowed, schedule⟩ := schedule
      cases input with
      | packet received now systemNow acts =>
        obtain ⟨next, result, still⟩ := restarting.step_arrives restarts isSent differs suits supported tidy
          undisturbed here allowed
        rw [result] at along
        obtain ⟨later, rest, ends⟩ := ih still (tidy.arrive allowed.1) schedule along
        exact ⟨later, by rw [StreamWorld.run, result]; exact rest, ends⟩
      | _ => exact here.elim

theorem Restarting.ends (restarting : Restarting params device origin known sheet w)
    (some_closed : sheet.closed ≠ 0) :
    ∃ began : Origin, began.delivered = origin.delivered ∧ began.tally = origin.tally ∧
      Follows params device began sheet w := by
  cases restarting with
  | awaits empty => exact absurd (by rw [empty]) some_closed
  | suspects suspects => exact absurd suspects.closed some_closed
  | follows began delivered tally follows => exact ⟨began, delivered, tally, follows⟩

end Running

/-- The block last closed under id 1 is unknown, or was reassembled and differs
from the device's first frame. -/
def StreamWorld.Unlike (params : StreamParams) (device : Device) (w : StreamWorld) : Prop :=
  w.recalls restartBlockId device.extendedIds = none ∨
    ∃ block known, w.recalls restartBlockId device.extendedIds = some block ∧ block.fingerprints = some known ∧
      ∀ sent, device.frames[0]? = some sent → sent.Differs params known

/-- A restarted counter is followed: the frames are delivered once each, and
only copies that come after their frame was closed are ignored. -/
theorem restarted_counter_followed (params : StreamParams) (device : Device) (before : List StreamInput)
    (w : StreamWorld) (reached : (StreamWorld.spawn params).run params before = .ok w) (idle : w.runner.frames = [])
    (suits : device.Suits params) (restarts : device.firstId = restartBlockId)
    (image : ∀ sent ∈ device.frames, sent.payloadType = some payloadTypeImage) (some_frame : device.frames ≠ [])
    (unlike : w.Unlike params device)
    (labels : List (Option (Nat × Nat))) (inputs : List StreamInput) (brings : List.Forall₂ device.Brings labels inputs)
    (schedule : device.Schedule (device.FirstAlone params.resendEnabled) labels {})
    (everything : ∀ j sent, device.frames[j]? = some sent → ∀ k < sent.nPackets, some (j, k) ∈ labels)
    (undisturbed : Along params (Undisturbed params) inputs w) :
    ∃ later, w.run params inputs = .ok later ∧
      (deliveredFrames later.journal).map Frame.outcome =
        (deliveredFrames w.journal).map Frame.outcome ++ device.outcomes ∧
      later.runner.lastFrameId = device.frameId (device.frames.length - 1) ∧
      later.runner.stats.ignoredPackets = w.runner.stats.ignoredPackets + (device.play labels {}).late := by
  have wellformed := run_wellformed reached
  have supported : ∀ sent ∈ device.frames, sent.Supported := fun sent present => .inl (image sent present)
  have tidy := device.tidy_start params.resendEnabled
  obtain ⟨sent, others, isFrames⟩ := List.exists_cons_of_ne_nil some_frame
  have isSent : device.frames[0]? = some sent := by
    rw [isFrames]
    rfl
  have closed : (device.play labels {}).closed = device.frames.length ∧
      (device.play labels {}).opened = device.frames.length := by
    obtain ⟨ends, _, arrived⟩ := Device.play_closes (fun _ _ _ allowed => allowed.1) labels {} tidy schedule
    have all := ends.all_closed fun j sent isSent k inside => arrived j k (everything j sent isSent k inside)
    have closed_le := ends.closed_le
    have opened_le := ends.opened_le
    exact ⟨all, by omega⟩
  have nonempty : device.frames.length ≠ 0 := by simpa using some_frame
  -- The first frame is new, or it is taken for copies at first.
  obtain ⟨later, began, result, delivered, tally, follows⟩ : ∃ (later : StreamWorld) (began : Origin),
      w.run params inputs = .ok later ∧ began.delivered = (deliveredFrames w.journal).map Frame.outcome ∧
        began.tally = w.runner.stats.tally ∧ Follows params device began (device.play labels {}) later := by
    by_cases admits : w.Admits device.firstId device.extendedIds
    · obtain ⟨later, result, follows⟩ := run_follows suits brings (follows_start wellformed idle admits) tidy
        (schedule.imp (fun _ _ _ allowed => ⟨allowed.1, allowed.2.1, .inl supported⟩) labels)
        (undisturbed.imp (fun _ _ => Undisturbed.unhindered))
      exact ⟨later, _, result, rfl, rfl, follows⟩
    · rw [restarts] at admits
      rcases unlike with unknown | ⟨block, known, recalled, isKnown, differs⟩
      · exact absurd (.inr (.inr ⟨rfl, unknown⟩)) admits
      · rw [← restarts] at admits recalled
        obtain ⟨later, result, restarting⟩ := run_restarts restarts isSent (differs sent isSent) suits supported brings
          (.awaits rfl wellformed idle rfl admits ⟨block, recalled, isKnown⟩) tidy schedule undisturbed
        obtain ⟨began, delivered, tally, follows⟩ := restarting.ends (by rw [closed.1]; exact nonempty)
        exact ⟨later, began, result, delivered, tally, follows⟩
  refine ⟨later, result, ?_, ?_, ?_⟩
  · rw [follows.delivered, closed.1, delivered, List.take_of_length_le (by simp [Device.outcomes])]
  · rw [(follows.started (by rw [closed.2]; exact nonempty)).2, closed.2]
  · have ignored := follows.tally.ignored
    rw [tally] at ignored
    exact ignored

def restartedDevice : Device :=
  { extendedIds := false, firstId := 1, frames := [smallFrame 10, smallFrame 20], offset := fun j => j
    firstId_pos := one_le_one
    firstId_le := one_le_maxBlockId
    offset_zero := zero_eq_zero
    offset_lt := Nat.lt_succ_self
    offset_le := succ_le_halfRound }

def afterBlockOne : StreamWorld :=
  (((StreamWorld.spawn summingStream).run summingStream
    (((smallFrame 30).device 1 false one_le_one one_le_maxBlockId).arrivals [(0, 0), (0, 1), (0, 2)])).toOption).getD
    (.spawn summingStream)

/-- The packet that differs comes third, and a copy of the trailer comes late. -/
def restartedPackets : List (Nat × Nat) := [(0, 0), (0, 0), (0, 2), (0, 1), (0, 2), (1, 2), (1, 0), (1, 1)]

theorem restarted_counter_followed_small :
    ∃ later, afterBlockOne.run summingStream (restartedDevice.arrivals restartedPackets) = .ok later ∧
      (deliveredFrames later.journal).map Frame.outcome =
        (deliveredFrames afterBlockOne.journal).map Frame.outcome ++ restartedDevice.outcomes ∧
      later.runner.lastFrameId = restartedDevice.frameId 1 ∧
      later.runner.stats.ignoredPackets =
        afterBlockOne.runner.stats.ignoredPackets + (restartedDevice.play (restartedPackets.map some) {}).late := by
  have fits : ∀ sent ∈ restartedDevice.frames, sent.Fits summingStream := fun sent present =>
    ⟨(smallFrames_fit sent present).data_le, (smallFrames_fit sent present).nPackets_le⟩
  have recorded : ((afterBlockOne.recalls 1 false).bind (·.fingerprints)).bind (·.head 1) = some 30 := by
    decide +kernel
  obtain ⟨known, isKnown, isHash⟩ := Option.bind_eq_some_iff.mp recorded
  obtain ⟨block, recalled, isKnown⟩ := Option.bind_eq_some_iff.mp isKnown
  refine restarted_counter_followed summingStream restartedDevice
    (((smallFrame 30).device 1 false one_le_one one_le_maxBlockId).arrivals [(0, 0), (0, 1), (0, 2)]) afterBlockOne ?_ ?_
    ⟨fits, by decide, by decide⟩ rfl (by decide) (by decide) (.inr ⟨block, known, recalled, isKnown, ?_⟩)
    (restartedPackets.map some) (restartedDevice.arrivals restartedPackets) (by decide +kernel) (by decide +kernel)
    (smallFrames_everything (by decide)) (by decide +kernel)
  · obtain ⟨later, result, _⟩ := run_reaches summingStream
      (((smallFrame 30).device 1 false one_le_one one_le_maxBlockId).arrivals [(0, 0), (0, 1), (0, 2)])
    rw [afterBlockOne, result]
    rfl
  · exact List.isEmpty_iff.mp (by decide +kernel)
  · intro sent isSent
    cases isSent
    exact ⟨1, by decide, 1, rfl, 30, isHash, by decide⟩

end Telegenic.Stream
