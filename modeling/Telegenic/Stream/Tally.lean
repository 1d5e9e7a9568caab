import Telegenic.Stream.Requests

/-! What a packet adds to the counters. -/

set_option autoImplicit false

namespace Telegenic.Stream

open Library Proto Proto.Gvsp

namespace StreamStats

def Mismatched (amount : Nat) (stats later : StreamStats) : Prop :=
  ∃ more ≤ amount, later = { stats with sizeMismatchErrors := stats.sizeMismatchErrors + more }

namespace Mismatched

variable {amount more : Nat} {stats later last : StreamStats}

theorem refl : Mismatched 0 stats stats := ⟨0, le_rfl, rfl⟩

theorem one : Mismatched 1 stats { stats with sizeMismatchErrors := stats.sizeMismatchErrors + 1 } :=
  ⟨1, le_rfl, rfl⟩

theorem mono (counted : Mismatched amount stats later) (enough : amount ≤ more) : Mismatched more stats later := by
  obtain ⟨added, within, isLater⟩ := counted
  exact ⟨added, within.trans enough, isLater⟩

theorem trans (first : Mismatched amount stats later) (second : Mismatched more later last) :
    Mismatched (amount + more) stats last := by
  obtain ⟨added, within, rfl⟩ := first
  obtain ⟨others, withinOthers, rfl⟩ := second
  exact ⟨added + others, by omega, by rw [Nat.add_assoc]⟩

theorem grows (counted : Mismatched amount stats later) : stats.Grows amount later := by
  obtain ⟨added, within, rfl⟩ := counted
  simp [Grows, counters, within]

theorem skipped (counted : Mismatched amount stats later) : later.skipped = stats.skipped := by
  obtain ⟨added, within, rfl⟩ := counted
  rfl

theorem dropped (counted : Mismatched amount stats later) : later.framesDropped = stats.framesDropped := by
  obtain ⟨added, within, rfl⟩ := counted
  rfl

end Mismatched

end StreamStats

section Content

variable {params : StreamParams} {view : GvspView} {frame later : FrameInFlight} {stats counted : StreamStats}

theorem place_mismatches {packetId : Nat} {data : List UInt8}
    (result : frame.place packetId data stats = .ok (later, counted)) :
    stats.Mismatched 1 counted ∧ later.held = frame.held := by
  have within : stats.Mismatched 1 stats := StreamStats.Mismatched.refl.mono (Nat.zero_le 1)
  have written : ∀ {offset : Nat} {bytes : List UInt8} {after : FrameInFlight},
      frame.write offset bytes = .ok after → after.held = frame.held := by
    intro offset bytes after result
    obtain ⟨copied, _, result⟩ := Checked.bind_eq_ok result
    cases result
    rfl
  unfold FrameInFlight.place at result
  split at result
  · cases result
    exact ⟨.one, rfl⟩
  obtain ⟨block, _, result⟩ := Checked.bind_eq_ok result
  simp only at result
  split at result
  · cases result
    exact ⟨within, rfl⟩
  split at result
  · -- The packet reaches past the end of the buffer.
    obtain ⟨last, _, result⟩ := Checked.bind_eq_ok result
    have noted : stats.Mismatched 1
        (if packetId ≠ last then { stats with sizeMismatchErrors := stats.sizeMismatchErrors + 1 } else stats) := by
      split
      · exact .one
      · exact within
    split at result
    · cases result
      exact ⟨noted, rfl⟩
    · obtain ⟨room, _, result⟩ := Checked.bind_eq_ok result
      obtain ⟨bytes, _, result⟩ := Checked.bind_eq_ok result
      obtain ⟨after, write, result⟩ := Checked.bind_eq_ok result
      cases result
      exact ⟨noted, written write⟩
  · obtain ⟨after, write, result⟩ := Checked.bind_eq_ok result
    cases result
    exact ⟨within, written write⟩

theorem placeHeld_mismatches (held : List (Nat × List UInt8)) : ∀ {frame : FrameInFlight} {stats : StreamStats},
    FrameInFlight.placeHeld held frame stats = .ok (later, counted) → stats.Mismatched held.length counted := by
  induction held with
  | nil =>
    intro frame stats result
    cases result
    exact .refl
  | cons payload rest ih =>
    intro frame stats result
    rw [FrameInFlight.placeHeld] at result
    split at result
    · cases result
      exact StreamStats.Mismatched.refl.mono (Nat.zero_le _)
    split at result
    · cases result
      exact StreamStats.Mismatched.refl.mono (Nat.zero_le _)
    · obtain ⟨⟨after, noted⟩, placed, result⟩ := Checked.bind_eq_ok result
      refine ((place_mismatches placed).1.trans (ih result)).mono ?_
      rw [List.length_cons, Nat.add_comm]

theorem placeAll_mismatches {packetId : Nat} {data : List UInt8}
    (result : frame.placeAll packetId data stats = .ok (later, counted)) :
    stats.Mismatched (frame.held.length + 1) counted := by
  obtain ⟨⟨after, noted⟩, placed, result⟩ := Checked.bind_eq_ok result
  obtain ⟨⟨last, total⟩, rest, result⟩ := Checked.bind_eq_ok result
  cases result
  obtain ⟨first, held⟩ := place_mismatches placed
  have others := placeHeld_mismatches after.held rest
  rw [held] at others
  exact (first.trans others).mono (by omega)

theorem Valid.held_length_le (valid : Valid params frame) (clean : frame.error = none) :
    frame.held.length ≤ maxFramePackets := by
  have limit : frame.nPackets ≤ maxFramePackets := valid.inBounds.nPackets_le.trans (Nat.min_le_right _ _)
  have contents := valid.contents clean
  cases known : frame.blockKnown with
  | true =>
    rw [(contents.placed known).1]
    exact Nat.zero_le _
  | false =>
    have inside : ∀ id ∈ (payloads frame.accepted).map Prod.fst, id ∈ List.range frame.nPackets := by
      intro id present
      obtain ⟨payload, isPayload, rfl⟩ := List.mem_map.mp present
      obtain ⟨view, accepted, _, rfl⟩ := mem_payloads.mp isPayload
      exact List.mem_range.mpr ((contents.fitting view accepted).packetId_lt valid.inBounds.nPackets_pos)
    have few := ((payloads_ids_nodup (valid.flagged clean).distinct).subperm inside).length_le
    rw [List.length_map, List.length_range] at few
    rw [(contents.waiting known).1]
    exact few.trans limit

theorem hold_mismatches {packetId : Nat} {data : List UInt8} :
    stats.Mismatched 1 (frame.hold packetId data stats).2 := by
  unfold FrameInFlight.hold
  simp only
  split
  · exact .one
  · exact StreamStats.Mismatched.refl.mono (Nat.zero_le 1)

theorem fixBlockSize_held (result : frame.fixBlockSize params view = .ok later) : later.held = frame.held := by
  obtain ⟨blocks, _, result⟩ := Checked.bind_eq_ok result
  simp only at result
  split at result
  · cases result
    rfl
  split at result <;> (cases result; rfl)

theorem processPayload_mismatches (valid : Valid params frame)
    (result : frame.processPayload params view stats = .ok (later, counted)) :
    stats.Mismatched (maxFramePackets + 1) counted := by
  have none : stats.Mismatched (maxFramePackets + 1) stats := StreamStats.Mismatched.refl.mono (Nat.zero_le _)
  unfold FrameInFlight.processPayload at result
  split at result
  · cases result
    exact none
  rename_i clean
  have few := valid.held_length_le (by simpa using clean)
  -- What follows once the block size is settled.
  have settled : ∀ {fixed : FrameInFlight}, fixed.held = frame.held →
      (if fixed.error.isSome then
        pure (fixed, stats)
      else do
        let lastPayload ← fixed.lastPayload params
        if view.packetId < 1 ∨ lastPayload < view.packetId then
          return (fixed.reject, stats)
        else if !fixed.blockKnown then
          return fixed.hold view.packetId view.data stats
        else
          fixed.placeAll view.packetId view.data stats : Checked (FrameInFlight × StreamStats)) =
        .ok (later, counted) → stats.Mismatched (maxFramePackets + 1) counted := by
    intro fixed held result
    split at result
    · cases result
      exact none
    obtain ⟨last, _, result⟩ := Checked.bind_eq_ok result
    split at result
    · cases result
      exact none
    split at result
    · have isCounted := congrArg Prod.snd (Except.ok.inj result)
      rw [← show _ = counted from isCounted]
      exact hold_mismatches.mono (Nat.le_add_left 1 _)
    · have placed := placeAll_mismatches result
      rw [held] at placed
      exact placed.mono (Nat.succ_le_succ few)
  simp only at result
  split at result
  · obtain ⟨fixed, learned, result⟩ := Checked.bind_eq_ok result
    exact settled (fixBlockSize_held learned) result
  · exact settled rfl result

theorem processContent_mismatches {systemNow : Nat} (valid : Valid params frame)
    (result : frame.processContent params systemNow view stats = .ok (some (later, counted))) :
    stats.Mismatched (maxFramePackets + 1) counted := by
  have none : stats.Mismatched (maxFramePackets + 1) stats := StreamStats.Mismatched.refl.mono (Nat.zero_le _)
  unfold FrameInFlight.processContent at result
  split at result
  · cases result
    exact none
  · obtain ⟨⟨after, noted⟩, processed, result⟩ := Checked.bind_eq_ok result
    cases result
    exact processPayload_mismatches valid processed
  · obtain ⟨after, _, result⟩ := Checked.bind_eq_ok result
    cases result
    exact none
  · cases result

theorem content_absorbs {systemNow : Nat} {content : FrameInFlight} {total : StreamStats} {diverged : Bool}
    (valid : Valid params frame) (fresh : isReceived frame.slot.packets view.packetId = false)
    (processed : frame.processContent params systemNow view stats = .ok (some (content, counted)))
    (settles : content.settle params view counted = .ok (later, total, diverged)) :
    Absorbs params view frame later := by
  rcases StreamWorld.processContent_spec systemNow stats valid fresh with nothing | ⟨taken, mismatches, result, takes⟩
  · rw [nothing] at processed
    cases processed
  · rw [result] at processed
    cases processed
    obtain ⟨last, resent, differs, settled, absorbs, _⟩ := settle_absorbs valid fresh takes _
    rw [settled] at settles
    cases settles
    exact absorbs

theorem settle_grows {diverged : Bool} (result : frame.settle params view stats = .ok (later, counted, diverged)) :
    stats.Grows 1 counted ∧ counted.skipped = stats.skipped ∧ counted.framesDropped = stats.framesDropped := by
  obtain ⟨⟨marked, noted⟩, mark, result⟩ := Checked.bind_eq_ok result
  obtain ⟨moved, _, result⟩ := Checked.bind_eq_ok result
  cases result
  unfold FrameInFlight.markReceived at mark
  split at mark
  · obtain ⟨packet, _, mark⟩ := Checked.bind_eq_ok mark
    cases mark
    split
    · simp [StreamStats.Grows, StreamStats.counters, StreamStats.skipped]
    · exact ⟨StreamStats.Grows.refl.mono (Nat.zero_le 1), rfl, rfl⟩
  · cases mark
    exact ⟨StreamStats.Grows.refl.mono (Nat.zero_le 1), rfl, rfl⟩

end Content

namespace Counts

variable {params : StreamParams} {w later : StreamWorld} {view : GvspView} {index now systemNow : Nat}
  {frame : FrameInFlight}

theorem countAbsorbed (found : w.runner.frames[index]? = some frame) : Counts 1 w (w.countAbsorbed index frame) := by
  unfold StreamWorld.countAbsorbed
  split
  · have replaced : Counts 0 w (w.setFrame index { frame with absorbed := frame.absorbed + 1 }) := setFrame found rfl
    exact replaced.trans (ignore _)
  · exact refl.mono (Nat.zero_le 1)

theorem countDuplicate (w : StreamWorld) : Counts 1 w w.countDuplicate := by
  refine setStats ?_ rfl rfl
  simp [StreamStats.Grows, StreamStats.counters]

theorem disableResend (found : w.runner.frames[index]? = some frame) : Counts 1 w (w.disableResend index frame) := by
  have replaced : Counts 0 w (w.setFrame index { frame with resendDisabled := true }) := setFrame found rfl
  have counted : Counts 1 (w.setFrame index { frame with resendDisabled := true }) (w.disableResend index frame) := by
    refine setStats ?_ rfl rfl
    simp [StreamStats.Grows, StreamStats.counters, StreamWorld.setFrame]
  exact replaced.trans counted

theorem refusePacket (found : w.runner.frames[index]? = some frame) :
    Counts 2 w (w.refusePacket index frame view) := by
  have counted : ∀ w : StreamWorld, Counts 1 w
      (w.setStats { w.runner.stats with errorPackets := w.runner.stats.errorPackets + 1 }) := by
    intro w
    refine setStats ?_ rfl rfl
    simp [StreamStats.Grows, StreamStats.counters]
  unfold StreamWorld.refusePacket
  simp only
  split
  · exact (disableResend found).trans (counted _)
  · exact (counted w).mono (Nat.le_succ 1)

theorem looks (wellformed : Wellformed params w) (enrolled : w.Enrolled)
    (found : w.runner.frames[index]? = some frame)
    (result : w.afterContent params view now index false = .ok later) :
    Counts ((w.runner.frames.length + 1) * (maxFramePackets + 1 + later.fabric.subscriptions.length)) w later := by
  unfold StreamWorld.afterContent at result
  simp only [Bool.false_eq_true, if_false, Checked.ok_bind] at result
  obtain ⟨checked, last, missing, moves, _, frames⟩ :=
    StreamWorld.missingPacketCheck_moves [] none view.packetId now wellformed found
  rw [missing, Checked.ok_bind] at result
  obtain ⟨current, _, result⟩ := Checked.bind_eq_ok result
  have bounds := (wellformed.frames frame (List.mem_of_getElem? found)).inBounds
  have first := missingPacketCheck found bounds missing
  have rest := checkFrameCompletion (moves.wellformed wellformed) (first.enrolled enrolled) result
  have length : checked.runner.frames.length = w.runner.frames.length := by rw [frames, List.length_set]
  refine (first.trans rest).mono ?_
  rw [length, Nat.succ_mul]
  omega

theorem adopts (wellformed : Wellformed params w) (enrolled : w.Enrolled)
    (found : w.runner.frames[index]? = some frame) (provisional : frame.provisional = true)
    (result : w.afterContent params view now index true = .ok later) :
    Stream.adoptions later.journal = Stream.adoptions w.journal + 1 ∧ Channels w later := by
  obtain ⟨next, after, adopted, moves, present⟩ := StreamWorld.adoptRestart_moves [] none found provisional
  have continued : next.afterContent params view now index false = .ok later := by
    unfold StreamWorld.afterContent at result ⊢
    simp only [if_true, Bool.false_eq_true, if_false, adopted, Checked.ok_bind] at result ⊢
    exact result
  have recorded : Stream.adoptions next.journal = Stream.adoptions w.journal + 1 ∧ next.Enrolled ∧
      SameChannels w next := by
    unfold StreamWorld.adoptRestart at adopted
    rw [StreamWorld.get_frame found, Checked.ok_bind] at adopted
    cases adopted
    exact ⟨adoptions_append _ _, enrolled, .refl, rfl, rfl, (deliveredFrames_append _ _).trans (List.append_nil _)⟩
  obtain ⟨more, next_enrolled, same⟩ := recorded
  have looked := looks (moves.wellformed wellformed) next_enrolled present continued
  exact ⟨looked.adoptions.trans more, .head (.inside same) looked.channels⟩

theorem processFramePacket (wellformed : Wellformed params w) (enrolled : w.Enrolled)
    (found : w.runner.frames[index]? = some frame)
    (result : w.processFramePacket params view now systemNow index = .ok later) :
    Counts ((w.runner.frames.length + 2) * (maxFramePackets + 1 + later.fabric.subscriptions.length) + 3) w later ∨
      (frame.provisional = true ∧ Stream.adoptions later.journal = Stream.adoptions w.journal + 1 ∧
        Channels w later) := by
  obtain ⟨after, present, untouched, (moves : Moves params [] none _ _)⟩ :=
    StreamWorld.countAbsorbed_moves [] none found wellformed.accounted
  have absorbed := countAbsorbed found
  have valid := (moves.wellformed wellformed).frames after (List.mem_of_getElem? present)
  unfold StreamWorld.processFramePacket at result
  simp only [StreamWorld.get_frame found, StreamWorld.get_frame present, Checked.ok_bind] at result
  split at result
  · cases result
    exact .inl ((absorbed.trans (refusePacket present)).mono (Nat.le_add_left 3 _))
  split at result
  · cases result
    split
    · exact .inl (absorbed.mono (by omega))
    · exact .inl ((absorbed.trans (countDuplicate _)).mono (by omega))
  rename_i fresh
  obtain ⟨content, processed, result⟩ := Checked.bind_eq_ok result
  cases content with
  | none =>
    cases result
    split
    · exact .inl (absorbed.mono (by omega))
    · exact .inl ((absorbed.trans (ignore _)).mono (by omega))
  | some content =>
    obtain ⟨content, counted⟩ := content
    obtain ⟨⟨settled, total, diverged⟩, settles, result⟩ := Checked.bind_eq_ok result
    have absorbs := content_absorbs valid (Bool.eq_false_iff.mpr fresh) processed settles
    have inside := (List.getElem?_eq_some_iff.mp present).1
    have mismatched := processContent_mismatches valid processed
    obtain ⟨resent, skipped, dropped⟩ := settle_grows settles
    have replaced : Counts 0 (w.countAbsorbed index frame) ((w.countAbsorbed index frame).setFrame index settled) :=
      setFrame present (by rw [FrameInFlight.provisional, FrameInFlight.provisional, absorbs.replayOf])
    have taken := (absorbed.trans replaced).trans (setStats (mismatched.grows.trans resent)
      (skipped.trans mismatched.skipped) (dropped.trans mismatched.dropped))
    have taken_wellformed : Wellformed params
        (((w.countAbsorbed index frame).setFrame index settled).setStats total) :=
      (moves.wellformed wellformed).replace present absorbs.valid absorbs.key rfl rfl
    have taken_found : (((w.countAbsorbed index frame).setFrame index settled).setStats total).runner.frames[index]? =
        some settled := List.getElem?_set_self inside
    cases adopt : frame.provisional && diverged with
    | true =>
      rw [adopt] at result
      have provisional : frame.provisional = true := (Bool.and_eq_true_iff.mp adopt).1
      have still : settled.provisional = true := by
        rw [FrameInFlight.provisional, absorbs.replayOf, untouched.replayOf]
        exact provisional
      obtain ⟨more, channels⟩ := adopts taken_wellformed (taken.enrolled enrolled) taken_found still result
      exact .inr ⟨provisional, more.trans (congrArg (· + 1) taken.adoptions), taken.channels.trans channels⟩
    | false =>
      rw [adopt] at result
      have rest := looks taken_wellformed (taken.enrolled enrolled) taken_found result
      have length : (((w.countAbsorbed index frame).setFrame index settled).setStats total).runner.frames.length =
          w.runner.frames.length := by
        simp only [StreamWorld.setStats, StreamWorld.setFrame, List.length_set, StreamWorld.countAbsorbed]
        split <;> simp [StreamWorld.ignore, StreamWorld.setStats]
      rw [length] at rest
      refine .inl ((taken.trans rest).mono ?_)
      rw [Nat.succ_mul (w.runner.frames.length + 1)]
      omega

end Counts

end Telegenic.Stream
