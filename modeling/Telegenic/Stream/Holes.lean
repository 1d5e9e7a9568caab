import Telegenic.Stream.Resends

/-! What one look at the holes of a frame asks for and leaves behind when the
budget lasts: the overdue packets in maximal ranges, the others armed. -/

set_option autoImplicit false

namespace Telegenic.Stream

open Library Proto Proto.Gvsp

def PacketState.lookedAt (params : StreamParams) (now : Nat) (packet : PacketState) : PacketState :=
  if packet.received then packet
  else
    match packet.resendDeadline with
    | none => { packet with resendDeadline := some (now + params.initialPacketTimeout) }
    | some deadline =>
        if deadline < now then
          { packet with resendRequested := true, resendDeadline := some (now + params.packetTimeout) }
        else packet

section Look

variable {params : StreamParams} {now packetId : Nat} {frame : FrameInFlight}

theorem passed_lookedAt {k : Nat} {packet : PacketState} (held : frame.slot.packets[k]? = some packet)
    {limit : Nat} (reaches : packetId < limit) :
    packet.passed params now packetId (frame.lastValidPacket + 1).toNat limit (frame.dueHoles now packetId) k =
      if frame.lastValidPacket < k ∧ k ≤ packetId then packet.lookedAt params now else packet := by
  have due : frame.due now packetId k =
      (decide (k ≤ packetId) && (!packet.received && packet.resendDeadline.any (· < now))) := by
    rw [FrameInFlight.due, held, Option.any_some]
  simp only [PacketState.passed, dueHoles_covers]
  by_cases inSpan : frame.lastValidPacket < k ∧ k ≤ packetId
  · have overdue : frame.overdue now packetId k = (!packet.received && packet.resendDeadline.any (· < now)) := by
      rw [overdue_eq_due (by omega), due, decide_eq_true inSpan.2, Bool.true_and]
    rw [if_pos inSpan, overdue, if_pos (show _ ∧ _ ∧ _ by omega)]
    obtain ⟨received, requested, deadline⟩ := packet
    unfold PacketState.lookedAt PacketState.armed PacketState.asRequested
    cases received with
    | true => rfl
    | false =>
      cases deadline with
      | none => rfl
      | some deadline =>
        by_cases passed : deadline < now
        · simp [passed]
        · simp [passed]
  · have notDue : ¬ frame.overdue now packetId k = true := fun overdue => by
      have := overdue_bounds overdue
      omega
    rw [if_neg inSpan, if_neg notDue, if_neg (by omega)]

end Look

/-- With resends on and not refused, and a budget for what is overdue, a look at
the holes asks for the overdue packets in ranges that do not touch, and arms the
other holes. -/
theorem overdue_holes_requested (params : StreamParams) (w : StreamWorld) (index packetId now : Nat)
    (frame : FrameInFlight) (found : w.runner.frames[index]? = some frame)
    (sized : frame.slot.packets.length = frame.nPackets) (inside : packetId < frame.nPackets)
    (enabled : params.resendEnabled = true) (allowed : frame.resendDisabled = false)
    (unreached : frame.resendRatioReached = false) (budget : 0 < params.maxRequests frame.nPackets)
    (within : frame.nResendRequests + (List.range frame.nPackets).countP (frame.overdue now packetId) ≤
      params.maxRequests frame.nPackets) :
    ∃ (later : StreamWorld) (after : FrameInFlight) (requests : List ResendRequest),
      w.missingPacketCheck params index packetId now = .ok later ∧
      later.runner.frames = w.runner.frames.set index after ∧
      later.journal = w.journal ++ requests.map .requested ∧
      (∀ request ∈ requests, request.frameId = frame.frameId ∧ request.extendedIds = frame.extendedIds ∧
        request.first ≤ request.last ∧ request.last < frame.nPackets) ∧
      (requests.Pairwise fun earlier later => earlier.last + 1 < later.first) ∧
      (∀ k, (∃ request ∈ requests, request.first ≤ k ∧ k ≤ request.last) ↔ frame.overdue now packetId k = true) ∧
      ∀ k : Nat, after.slot.packets[k]? = frame.slot.packets[k]?.map fun packet =>
        if frame.lastValidPacket < k ∧ k ≤ packetId then packet.lookedAt params now else packet := by
  have on : ¬ ((!params.resendEnabled) = true ∨ frame.resendDisabled = true ∨ frame.resendRatioReached = true) := by
    rw [enabled, allowed, unreached]
    decide
  have looks : ¬ (params.maxRequests frame.nPackets = 0 ∨ frame.nPackets ≤ packetId) := by omega
  have walking : Walking packetId (frame.lastValidPacket + 1).toNat (.start frame) :=
    ⟨by show packetId < frame.slot.packets.length; omega, nofun⟩
  obtain ⟨scan, limit, taken, refused, walked, spent, passes, reached⟩ :=
    walk_passes params now (params.maxRequests frame.nPackets) (packetId + 2 - (frame.lastValidPacket + 1).toNat)
      (frame.lastValidPacket + 1).toNat (.start frame) walking le_rfl
  -- The budget lasts, so that the pass takes every run.
  have all : spend (params.maxRequests frame.nPackets) frame.nResendRequests (frame.dueHoles now packetId) =
      (frame.dueHoles now packetId, none) := spend_all (by rw [dueHoles_size inside]; exact within)
  obtain ⟨rfl, rfl⟩ := Prod.mk.inj (all.symm.trans spent)
  have ranges : scan.ranges = frame.dueHoles now packetId := passes.ranges
  have holes : frame.findHoles params packetId now = .ok (scan.frame, .requests scan.ranges) := by
    unfold FrameInFlight.findHoles
    rw [if_neg on]
    simp only
    rw [if_neg looks, walked]
    rfl
  obtain ⟨requests, journal, same, named, _, _, frames⟩ :=
    requestRanges_spec scan.frame scan.ranges (w.setFrame index scan.frame)
  rw [ranges] at same
  have ordered := (dueHoles_apart now packetId frame).2
  have gapped := dueHoles_gapped now packetId frame
  rw [← same] at ordered gapped
  have covers (k : Nat) : (∃ request ∈ requests, request.first ≤ k ∧ k ≤ request.last) ↔
      frame.overdue now packetId k = true := by
    rw [← dueHoles_covers, ← same]
    simp [Covered]
  refine ⟨_, scan.frame, requests, ?_, frames, journal, fun request present => ?_, List.pairwise_map.mp gapped, covers,
    fun k => ?_⟩
  · unfold StreamWorld.missingPacketCheck
    rw [StreamWorld.get_frame found, Checked.ok_bind, holes]
    rfl
  · obtain ⟨frameId, extendedIds⟩ := named request present
    have nonempty : request.first ≤ request.last := ordered _ (List.mem_map_of_mem present)
    have last := overdue_bounds ((covers request.last).mp ⟨request, present, nonempty, le_rfl⟩)
    exact ⟨frameId.trans passes.scanned.frameId, extendedIds.trans passes.scanned.extendedIds, nonempty, by omega⟩
  · refine (passes.packets k).trans ?_
    show frame.slot.packets[k]?.map _ = _
    cases held : frame.slot.packets[k]? with
    | none => rfl
    | some packet => exact congrArg some (passed_lookedAt held (by have := reached rfl; omega))

/-- Packets 1 and 3 are overdue when packet 4 is looked at again. -/
theorem overdue_holes_requested_twoHoles :
    ∃ w frame, (StreamWorld.spawn (budgeted 2)).run (budgeted 2) twoHoles = .ok w ∧
      w.runner.frames[0]? = some frame ∧ (List.range frame.nPackets).filter (frame.overdue 2 4) = [1, 3] ∧
      ∃ (later : StreamWorld) (requests : List ResendRequest), w.missingPacketCheck (budgeted 2) 0 4 2 = .ok later ∧
        later.journal = w.journal ++ requests.map .requested ∧
        ∀ k, (∃ request ∈ requests, request.first ≤ k ∧ k ≤ request.last) ↔ frame.overdue 2 4 k = true := by
  have shown : ((StreamWorld.spawn (budgeted 2)).run (budgeted 2) twoHoles).map (fun w =>
      w.runner.frames[0]?.map fun frame => (frame.nResendRequests,
        [frame.resendDisabled, frame.resendRatioReached, decide (frame.nPackets ≤ 4)],
        (List.range frame.nPackets).filter (frame.overdue 2 4))) =
      .ok (some (0, [false, false, false], [1, 3])) := by decide +kernel
  obtain ⟨w, run, wellformed⟩ := run_reaches (budgeted 2) twoHoles
  rw [run] at shown
  obtain ⟨frame, found, same⟩ := Option.map_eq_some_iff.mp (Except.ok.inj shown)
  simp only [Prod.mk.injEq, List.cons.injEq] at same
  obtain ⟨spent, ⟨allowed, unreached, inside, _⟩, overdue⟩ := same
  have valid := wellformed.frames frame (List.mem_of_getElem? found)
  have within : frame.nResendRequests + (List.range frame.nPackets).countP (frame.overdue 2 4) ≤
      (budgeted 2).maxRequests frame.nPackets := by
    rw [spent, List.countP_eq_length_filter, overdue]
    exact le_rfl
  obtain ⟨later, _, requests, checked, _, journal, _, _, covers, _⟩ := overdue_holes_requested (budgeted 2) w 0 4 2 frame
    found valid.inBounds.packets_length (Nat.lt_of_not_le (of_decide_eq_false inside)) rfl allowed unreached Nat.two_pos within
  exact ⟨w, frame, run, found, overdue, later, requests, checked, journal, covers⟩

end Telegenic.Stream
