import Telegenic.Stream.Arrivals

/-! Late copies: a packet of a closed frame is ignored. A copy of the frame with
the id of a restarted counter goes to a provisional frame, which never turns
real because every packet agrees with what the history recorded. -/

set_option autoImplicit false

namespace Telegenic.Stream

open Library Proto Proto.Gvsp

theorem exists_eq_append_cons {Value : Type} {kept front back : List Value} {value : Value}
    (isPrefix : kept <+: front ++ value :: back) (reaches : front.length < kept.length) :
    ∃ rest, kept = front ++ value :: rest := by
  rw [List.prefix_iff_eq_take] at isPrefix
  obtain ⟨more, isMore⟩ : ∃ more, kept.length - front.length = more + 1 := ⟨kept.length - front.length - 1, by omega⟩
  rw [List.take_append, List.take_of_length_le reaches.le, isMore, List.take_succ_cons] at isPrefix
  exact ⟨back.take more, isPrefix⟩

section Recalling

variable {params : StreamParams} {device : Device} {origin : Origin} {sheet : Sheet} {w : StreamWorld} {i j : Nat}

theorem Device.frameId_ne_recent (before : j < i) (inside : i ≤ sheet.opened - 1)
    (recent : device.offset (sheet.opened - 1) < device.offset j + 100) : device.frameId i ≠ device.frameId j := by
  have ordered := device.offset_mono inside
  have large := @maxBlockId_large device.extendedIds
  exact device.frameId_ne before (by omega)

theorem Follows.recalls_closed (follows : Follows params device origin sheet w) (ordered : sheet.closed ≤ sheet.opened)
    (late : j < sheet.closed) (recent : device.offset (sheet.opened - 1) < device.offset j + 100) :
    ∃ block, w.recalls (device.frameId j) device.extendedIds = some block ∧ Remembers params device j block := by
  obtain ⟨past, remembered, suffix, enough⟩ := follows.history
  obtain ⟨length, all⟩ := List.forall₂_iff_get.mp remembered
  simp only [List.length_range, List.get_eq_getElem, List.getElem_range] at length all
  have inside : j < past.length := by omega
  have isBlock := all j late inside
  have split : past = past.take j ++ past[j] :: past.drop (j + 1) := by
    rw [← List.drop_eq_getElem_cons inside, List.take_append_drop]
  have few := device.offset_add_le (show j ≤ sheet.opened - 1 by omega)
  have whole : (origin.history ++ past).reverse =
      (past.drop (j + 1)).reverse ++ past[j] :: (origin.history ++ past.take j).reverse := by
    conv_lhs => rw [split]
    simp only [List.reverse_append, List.reverse_cons, List.append_assoc, List.cons_append, List.nil_append]
  have reversed := List.reverse_prefix.mpr suffix
  rw [whole] at reversed
  have kept : historyLen = 128 := rfl
  obtain ⟨rest, isHistory⟩ := exists_eq_append_cons reversed (by
    rw [List.length_reverse, List.length_drop, List.length_reverse]
    omega)
  refine ⟨past[j], ?_, isBlock⟩
  rw [StreamWorld.recalls, isHistory, List.find?_eq_some_iff_append]
  refine ⟨by simp [isBlock.frameId, isBlock.extendedIds], _, rest, rfl, fun other present => ?_⟩
  -- Frames closed since then have other ids.
  obtain ⟨i, isInside, rfl⟩ := List.mem_iff_getElem.mp (List.mem_reverse.mp present)
  rw [List.length_drop] at isInside
  have isOther := all (j + 1 + i) (by omega) (by omega)
  have different := Device.frameId_ne_recent (i := j + 1 + i) (by omega) (by omega) recent
  rw [List.getElem_drop, isOther.frameId]
  simp [different]

end Recalling

section Absorbing

variable {params : StreamParams} {device : Device} {origin : Origin} {sheet : Sheet} {w : StreamWorld} {j k : Nat}
  {view : GvspView} {index : Nat} {frame : FrameInFlight}

theorem Device.Tidy.closeHeads {resend : Bool} (tidy : device.Tidy resend sheet) :
    device.closeHeads (sheet.opened - sheet.closed) sheet = sheet := by
  rcases Nat.lt_or_ge sheet.closed sheet.opened with isOpen | allClosed
  · exact Device.closeHeads_incomplete (tidy.head isOpen)
  · rw [Nat.sub_eq_zero_of_le allClosed]
    rfl

theorem InFlight.setEcho {frames : List FrameInFlight} {after : FrameInFlight}
    (inFlight : InFlight params device sheet frames) (found : frames[index]? = some frame)
    (provisional : frame.provisional = true) (isAfter : Echo params device sheet j after) :
    InFlight params device sheet (frames.set index after) := by
  obtain ⟨pending, echoes, rfl, isPending, isEcho⟩ := inFlight
  have beyond : pending.length ≤ index := by
    by_contra inside
    rw [List.getElem?_append_left (by omega)] at found
    obtain ⟨i, _, _, isFrame⟩ := InFlight.real isPending (List.mem_of_getElem? found)
    rw [isFrame.provisional] at provisional
    cases provisional
  refine ⟨pending, echoes.set (index - pending.length) after, List.set_append_right _ _ beyond, isPending, ?_⟩
  intro other present
  rcases List.mem_or_eq_of_mem_set present with old | rfl
  · exact isEcho other old
  · exact ⟨j, isAfter⟩

theorem processFramePacket_absorbs (now systemNow : Nat)
    (follows : Follows params device origin sheet (w.countAbsorbed index frame))
    (tidy : device.Tidy params.resendEnabled sheet) (inTime : InTime params now w)
    (fits : ∀ sent ∈ device.frames, sent.Fits params) (found : w.runner.frames[index]? = some frame)
    (echo : Echo params device sheet j frame) (sends : device.Sends j k view) :
    ∃ later, w.processFramePacket params view now systemNow index = .ok later ∧
      Follows params device origin sheet later ∧ w.fabric.pool.length ≤ later.fabric.pool.length := by
  have inside := (List.getElem?_eq_some_iff.mp found).1
  let absorbed := { frame with absorbed := frame.absorbed + 1 }
  have untouched : Untouched frame absorbed := .bookkeeping _ _ _ _ _ _
  have counted : w.countAbsorbed index frame = (w.setFrame index absorbed).ignore := if_pos echo.provisional
  have next_found : (w.countAbsorbed index frame).runner.frames[index]? = some absorbed := by
    rw [counted]
    exact List.getElem?_set_self inside
  have next_pool : w.fabric.pool.length ≤ (w.countAbsorbed index frame).fabric.pool.length := by
    rw [counted]
    exact le_rfl
  have next_inTime : InTime params now (w.countAbsorbed index frame) := by
    rw [counted]
    refine inTime.set rfl fun real => ?_
    exact absurd real (by rw [show absorbed.provisional = true from echo.provisional]; exact Bool.noConfusion)
  obtain ⟨sent, isSent, packet⟩ := sends.packet
  obtain ⟨_, known, copies, isSent', isReplay, agrees, collects⟩ := (echo.untouched untouched).replay
  rw [isSent] at isSent'
  cases isSent'
  unfold StreamWorld.processFramePacket
  simp only [StreamWorld.get_frame found, Checked.ok_bind, StreamWorld.get_frame next_found, sends.accepted,
    Bool.false_eq_true, if_false, echo.provisional, Bool.true_and, if_true]
  by_cases repeated : isReceived absorbed.slot.packets view.packetId = true
  · rw [if_pos repeated]
    exact ⟨_, rfl, follows, next_pool⟩
  have fresh : k ∉ copies := by
    rw [packet.packetId] at repeated
    exact fun isArrived => repeated (collects.isReceived_iff.mpr isArrived)
  obtain ⟨content, mismatches, settled, resent, diverged, result, settles, absorbs, collected, isDiverged⟩ :=
    collects.take (fits sent (List.mem_of_getElem? isSent)) packet fresh systemNow
      (w.countAbsorbed index frame).runner.stats
  have same : diverged = false := isDiverged.trans (Agrees.undiverged (fun other isOther => by
    rw [isReplay] at isOther
    cases isOther
    exact agrees) packet)
  subst same
  rw [if_neg repeated, result]
  simp only [Checked.ok_bind]
  rw [settles]
  have isSettled : Echo params device sheet j settled :=
    ⟨echo.closed, echo.recent, echo.restart, absorbs.frameId.trans echo.frameId, sent, known, copies ++ [k], isSent,
      absorbs.replayOf.trans isReplay, agrees, collected⟩
  have steady : Steady (w.countAbsorbed index frame)
      (((w.countAbsorbed index frame).setFrame index settled).setStats { (w.countAbsorbed index frame).runner.stats with
        sizeMismatchErrors := mismatches, resentPackets := resent }) :=
    (Steady.setFrame index settled).trans (.setStats rfl)
  have settled_follows : Follows params device origin { sheet with arrived := sheet.arrived } _ := follows.steady steady
    (follows.wellformed.replace next_found absorbs.valid absorbs.key rfl rfl)
    (follows.inFlight.setEcho next_found echo.provisional isSettled)
  obtain ⟨later, after_result, after_follows, pool⟩ := afterContent_follows now settled_follows
    (next_inTime.set rfl fun real => by rw [isSettled.provisional] at real; cases real) fits tidy.alone view
    (List.getElem?_set_self (List.getElem?_eq_some_iff.mp next_found).1)
  rw [tidy.closeHeads] at after_follows
  exact ⟨later, after_result, after_follows, next_pool.trans pool⟩

end Absorbing

section Routing

variable {params : StreamParams} {device : Device} {origin : Origin} {sheet : Sheet} {w : StreamWorld} {i j k : Nat}
  {view : GvspView} {index : Nat} {frame : FrameInFlight}

theorem Follows.echo_of_frameId (follows : Follows params device origin sheet w) (ordered : sheet.closed ≤ sheet.opened)
    (late : j < sheet.closed) (recent : device.offset (sheet.opened - 1) < device.offset j + 100)
    (present : frame ∈ w.runner.frames) (sameId : frame.frameId = device.frameId j) :
    Echo params device sheet j frame := by
  obtain ⟨pending, echoes, frames, isPending, isEcho⟩ := follows.inFlight
  rw [frames] at present
  rcases List.mem_append.mp present with real | provisional
  · obtain ⟨i, unclosed, isOpen, isFrame⟩ := InFlight.real isPending real
    refine absurd (isFrame.frameId.symm.trans sameId) ?_
    exact Device.frameId_ne_recent (show j < i by omega) (by omega) recent
  · obtain ⟨i, echo⟩ := isEcho frame provisional
    have same := echo.frameId.symm.trans sameId
    have closed := echo.closed
    rcases Nat.lt_trichotomy i j with before | rfl | after
    · exact absurd same.symm (Device.frameId_ne_recent before (by omega) echo.recent)
    · exact echo
    · exact absurd same (Device.frameId_ne_recent after (by omega) recent)

theorem Follows.countAbsorbed (follows : Follows params device origin sheet w)
    (found : w.runner.frames[index]? = some frame) (provisional : frame.provisional = true) :
    Follows params device origin { sheet with late := sheet.late + 1 } (w.countAbsorbed index frame) := by
  have untouched : Untouched frame { frame with absorbed := frame.absorbed + 1 } := .bookkeeping _ _ _ _ _ _
  have moves : Moves params [] none w _ := StreamWorld.setFrame_moves [] none found untouched
  have counted : w.countAbsorbed index frame =
      (w.setFrame index { frame with absorbed := frame.absorbed + 1 }).ignore := if_pos provisional
  rw [counted]
  exact (follows.thinned (.setFrame _ _) (moves.wellformed follows.wellformed) (.set found untouched)).ignore

theorem Device.Tidy.late (tidy : device.Tidy params.resendEnabled sheet) :
    device.Tidy params.resendEnabled { sheet with late := sheet.late + 1 } :=
  ⟨tidy.closed_le, tidy.opened_le, tidy.unopened, tidy.started, tidy.head, tidy.alone⟩

theorem Follows.distance_late (follows : Follows params device origin sheet w)
    (ordered : sheet.closed ≤ sheet.opened) (late : j < sheet.closed)
    (recent : device.offset (sheet.opened - 1) < device.offset j + 100) :
    let distance := blockIdDistance (device.frameId j) w.runner.lastFrameId device.extendedIds
    distance < 1 ∧ -discardLateFrameThreshold < distance := by
  have threshold : discardLateFrameThreshold = 100 := rfl
  have grows := device.offset_mono (show j ≤ sheet.opened - 1 by omega)
  simp only
  rw [(follows.started (by omega)).2, device.distance_late (by omega) recent, threshold]
  omega

theorem InFlight.addEcho {frames : List FrameInFlight} (inFlight : InFlight params device sheet frames)
    (echo : Echo params device sheet j frame) : InFlight params device sheet (frames ++ [frame]) := by
  obtain ⟨pending, echoes, rfl, isPending, isEcho⟩ := inFlight
  refine ⟨pending, echoes ++ [frame], List.append_assoc _ _ _, isPending, fun other present => ?_⟩
  rcases List.mem_append.mp present with old | new
  · exact isEcho other old
  · exact ⟨j, List.mem_singleton.mp new ▸ echo⟩

theorem Follows.absorbed {now nPackets : Nat} {distance : Int} {known : Fingerprints} {later : StreamWorld}
    (follows : Follows params device origin sheet w) (ordered : sheet.closed ≤ sheet.opened)
    (wellformed : Wellformed params later) (opens : Opens params view now nPackets distance (some known) w later)
    (frames : later.runner.frames = w.runner.frames ++ [frame]) (echo : Echo params device sheet j frame) :
    Follows params device origin { sheet with late := sheet.late + 1 }
      (later.countAbsorbed w.runner.frames.length frame) := by
  let absorbed := { frame with absorbed := frame.absorbed + 1 }
  have untouched : Untouched frame absorbed := .bookkeeping _ _ _ _ _ _
  have found : later.runner.frames[w.runner.frames.length]? = some frame := by
    rw [frames]
    exact List.getElem?_concat_length
  have counted : later.countAbsorbed w.runner.frames.length frame =
      (later.setFrame w.runner.frames.length absorbed).ignore := if_pos echo.provisional
  have set_moves : Moves params [] none later (later.setFrame w.runner.frames.length absorbed) :=
    StreamWorld.setFrame_moves [] none found untouched
  have set_wellformed := set_moves.wellformed wellformed
  have ignore_move : Move params [] none (later.setFrame w.runner.frames.length absorbed)
      (later.setFrame w.runner.frames.length absorbed).ignore :=
    (StreamWorld.setStats_quietly _ set_wellformed.accounted _).move
  have set_frames : (later.setFrame w.runner.frames.length absorbed).ignore.runner.frames =
      w.runner.frames ++ [absorbed] := by
    show later.runner.frames.set w.runner.frames.length absorbed = _
    rw [frames, List.set_append_right _ _ le_rfl, Nat.sub_self]
    rfl
  obtain ⟨duplicated, ignored, failed, missing, unsupported⟩ := follows.tally
  have tally : later.runner.stats.tally = w.runner.stats.tally := opens.tally
  simp only [StreamStats.tally, Tally.mk.injEq] at tally
  obtain ⟨same_duplicated, same_ignored, same_failed, same_missing, same_unsupported⟩ := tally
  rw [counted]
  refine ⟨ignore_move.wellformed set_wellformed, ?_, follows.distinct, ?_, ?_, ?_, ?_, ?_, ?_⟩
  · rw [set_frames]
    obtain ⟨pending, echoes, isFrames, isPending, isEcho⟩ := follows.inFlight.addEcho (echo.untouched untouched)
    refine ⟨pending, echoes, isFrames, isPending, fun other present => ?_⟩
    obtain ⟨i, isOther⟩ := isEcho other present
    exact ⟨i, isOther.later le_rfl rfl⟩
  · intro none_open
    have closed := echo.closed
    exact absurd none_open (by simp only; omega)
  · show sheet.opened ≠ 0 → later.runner.firstPacket = false ∧ later.runner.lastFrameId = _
    rw [opens.firstPacket, opens.lastFrameId]
    exact follows.started
  · show ∃ past, _ ∧ later.runner.history <:+ _ ∧ _ ≤ later.runner.history.length
    rw [opens.history]
    exact follows.history
  · exact (congrArg _ opens.delivered).trans follows.delivered
  · have bounded := follows.replays
    have counts : Stream.replays later.journal = Stream.replays w.journal + 1 := opens.replays
    show Stream.replays later.journal ≤ origin.replays + (sheet.late + 1)
    omega
  · refine ⟨?_, ?_, same_failed.trans failed, same_missing.trans missing, same_unsupported.trans unsupported⟩
    · show later.runner.stats.duplicatedPackets + _ = _
      rw [same_duplicated]
      exact duplicated
    · show later.runner.stats.ignoredPackets + 1 = origin.tally.ignored + (sheet.late + 1)
      rw [same_ignored]
      exact congrArg (· + 1) ignored

theorem Follows.openEcho (follows : Follows params device origin sheet w)
    (tidy : device.Tidy params.resendEnabled sheet) (now : Nat) (sends : device.Sends j k view)
    (supported : ∀ sent ∈ device.frames, sent.Supported)
    (room : packetProtocolOverhead device.extendedIds < params.scpsPacketSize) (free : 0 < w.fabric.pool.length)
    (late : j < sheet.closed) (recent : device.offset (sheet.opened - 1) < device.offset j + 100)
    (restart : device.frameId j = restartBlockId)
    (unknown : ∀ frame ∈ w.runner.frames, frame.frameId ≠ view.frameId) :
    ∃ later frame, (w.noteFirstPacket view).findOrCreateFrame params view now =
        .ok (later, some w.runner.frames.length) ∧
      later.runner.frames[w.runner.frames.length]? = some frame ∧ Echo params device sheet j frame ∧
      Follows params device origin { sheet with late := sheet.late + 1 }
        (later.countAbsorbed w.runner.frames.length frame) ∧
      (∀ other ∈ later.runner.frames, other ∈ w.runner.frames ∨ other = frame) ∧
      w.fabric.pool.length ≤ later.fabric.pool.length + 1 := by
  have ordered := tidy.closed_le
  have some_open : sheet.opened ≠ 0 := by omega
  obtain ⟨block, recalled, remembers⟩ := follows.recalls_closed ordered late recent
  obtain ⟨sent, known, isSent, isKnown, agrees⟩ := remembers.fingerprints
  obtain ⟨_, isSent', packet⟩ := sends.packet
  rw [isSent] at isSent'
  cases isSent'
  obtain ⟨nPackets, expected, two_le⟩ : ∃ nPackets, computeNExpectedPackets params view = .ok nPackets ∧
      2 ≤ nPackets :=
    packet.expected (fun _ => supported sent (List.mem_of_getElem? isSent)) (by rw [sends.extendedIds]; exact room)
  have classified : w.classifyBehind view = .maybeReplay known := by
    rw [StreamWorld.recalls] at recalled
    rw [StreamWorld.classifyBehind, sends.frameId, sends.extendedIds, if_neg (by simpa using restart), recalled]
    simp only [isKnown]
  let distance := blockIdDistance (device.frameId j) w.runner.lastFrameId device.extendedIds
  obtain ⟨later, opened, opens⟩ := openFrame_opens params view now nPackets distance (some known)
    follows.wellformed.accounted free
  have result : (w.noteFirstPacket view).findOrCreateFrame params view now =
      .ok (later, some w.runner.frames.length) := by
    have search : w.runner.frames.findIdx? (·.frameId == view.frameId) = none := by simpa using unknown
    rw [follows.noted some_open, StreamWorld.findOrCreateFrame, search]
    simp only [sends.frameId, sends.extendedIds]
    rw [if_pos (follows.distance_late ordered late recent), classified]
    simp only [StreamWorld.createFrame, Option.isSome_some, if_true, Checked.ok_bind, expected]
    rw [if_neg (by omega), opened]
    rfl
  have wellformed : Wellformed params later := by
    obtain ⟨_, _, result', moves, _⟩ :=
      StreamWorld.findOrCreateFrame_moves _ (some view) now follows.wellformed rfl rfl
    rw [follows.noted some_open] at result
    rw [result] at result'
    cases result'
    exact moves.wellformed follows.wellformed
  obtain ⟨opening, slot, frames⟩ := opens.frames
  have sized := (wellformed.frames _ (by rw [frames]; exact List.mem_append_right _ List.mem_cons_self)).inBounds
  have echo : Echo params device sheet j
      (StreamWorld.newFrame params view now nPackets opening slot (some known)) :=
    ⟨late, recent, restart, sends.frameId, sent, known, [], isSent, rfl, agrees,
      newFrame_collects expected two_le sized.data_length⟩
  refine ⟨later, _, result, ?_, echo, follows.absorbed ordered wellformed opens frames echo, ?_, opens.pool⟩
  · rw [frames]
    exact List.getElem?_concat_length
  · rw [frames]
    simp

theorem processPacket_late {datagram : List UInt8} (now systemNow : Nat)
    (follows : Follows params device origin sheet w)
    (tidy : device.Tidy params.resendEnabled sheet) (inTime : InTime params now w)
    (fits : ∀ sent ∈ device.frames, sent.Fits params) (supported : ∀ sent ∈ device.frames, sent.Supported)
    (room : packetProtocolOverhead device.extendedIds < params.scpsPacketSize) (free : 0 < w.fabric.pool.length)
    (parsed : GvspView.parse datagram = some view) (sends : device.Sends j k view)
    (late : j < sheet.closed) (recent : device.offset (sheet.opened - 1) < device.offset j + 100) :
    ∃ later, w.processPacket params datagram now systemNow = .ok later ∧
      Follows params device origin { sheet with late := sheet.late + 1 } later ∧
      w.fabric.pool.length ≤ later.fabric.pool.length + 1 := by
  have ordered := tidy.closed_le
  have some_open : sheet.opened ≠ 0 := by omega
  rw [StreamWorld.processPacket, parsed]
  simp only
  cases search : w.runner.frames.findIdx? (·.frameId == view.frameId) with
  | some index =>
    obtain ⟨inside, sameId, _⟩ := List.findIdx?_eq_some_iff_getElem.mp search
    have found := List.getElem?_eq_getElem inside
    have echo := follows.echo_of_frameId ordered late recent (List.getElem_mem inside)
      ((beq_iff_eq.mp sameId).trans sends.frameId)
    let refreshed := { w.runner.frames[index] with lastPacketTime := now }
    have untouched : Untouched w.runner.frames[index] refreshed := .bookkeeping _ _ _ _ _ _
    have next := follows.refresh found now
    have next_found : (w.setFrame index refreshed).runner.frames[index]? = some refreshed :=
      List.getElem?_set_self inside
    have next_echo := echo.untouched untouched
    have next_inTime : InTime params now (w.setFrame index refreshed) := inTime.set rfl fun real => by
      rw [next_echo.provisional] at real
      cases real
    obtain ⟨later, result, later_follows, pool⟩ := processFramePacket_absorbs now systemNow
      (next.countAbsorbed next_found next_echo.provisional) tidy.late next_inTime fits next_found
      (next_echo.later le_rfl rfl) sends
    refine ⟨later, ?_, later_follows, Nat.le_succ_of_le pool⟩
    rw [follows.noted some_open, StreamWorld.findOrCreateFrame, search]
    simp only [StreamWorld.get_frame found, Checked.ok_bind]
    exact result
  | none =>
    have unknown : ∀ frame ∈ w.runner.frames, frame.frameId ≠ view.frameId := by simpa using search
    by_cases restart : device.frameId j = restartBlockId
    · obtain ⟨next, frame, routed, found, echo, next_follows, others, taken⟩ := follows.openEcho tidy now sends supported
        room free late recent restart unknown
      have next_inTime : InTime params now next := by
        intro other present real
        rcases others other present with old | rfl
        · exact inTime other old real
        · rw [echo.provisional] at real
          cases real
      obtain ⟨later, result, later_follows, pool⟩ := processFramePacket_absorbs now systemNow next_follows tidy.late
        next_inTime fits found (echo.later le_rfl rfl) sends
      refine ⟨later, ?_, later_follows, taken.trans (Nat.add_le_add_right pool 1)⟩
      rw [routed]
      exact result
    · refine ⟨w.ignore, ?_, follows.ignore, Nat.le_succ _⟩
      have classified : w.classifyBehind view = .late := by
        rw [StreamWorld.classifyBehind, sends.frameId, if_pos restart]
      rw [follows.noted some_open, StreamWorld.findOrCreateFrame, search]
      simp only [sends.frameId, sends.extendedIds]
      rw [if_pos (follows.distance_late ordered late recent), classified]
      rfl

end Routing

end Telegenic.Stream
