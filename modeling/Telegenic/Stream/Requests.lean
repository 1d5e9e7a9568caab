import Telegenic.Stream.Counters

/-! How many packets one look at the holes asks for: the ranges it requests are
disjoint, so no more than it looked at. -/

set_option autoImplicit false

namespace Telegenic.Stream

open Library Proto Proto.Gvsp

namespace Counts

variable {params : StreamParams} {w later : StreamWorld} {index : Nat} {frame : FrameInFlight}

theorem requestRanges (frame : FrameInFlight) (ranges : List (Nat × Nat)) : ∀ (w : StreamWorld),
    Counts (rangesSize ranges) w (ranges.foldl (StreamWorld.requestRange frame) w) := by
  induction ranges with
  | nil => exact fun w => .refl
  | cons range rest ih =>
    intro w
    have sent : Counts 0 w (w.sendResendRequest frame.frameId range.1 range.2 frame.extendedIds) := by
      refine inside ⟨.refl, rfl, rfl, rfl, rfl, ?_, id, id, le_rfl⟩ ⟨.refl, rfl, rfl, ?_⟩
      · exact (adoptions_append _ _).trans (Nat.add_zero _)
      · exact (deliveredFrames_append _ _).trans (List.append_nil _)
    have requested : Counts (range.2 - range.1 + 1)
        (w.sendResendRequest frame.frameId range.1 range.2 frame.extendedIds)
        (StreamWorld.requestRange frame w range) := by
      refine setStats ?_ rfl rfl
      simp [StreamStats.Grows, StreamStats.counters]
    refine ((sent.trans requested).trans (ih _)).mono ?_
    simp [rangesSize]

theorem missingPacketCheck {packetId now : Nat} (found : w.runner.frames[index]? = some frame)
    (bounds : InBounds params frame) (result : w.missingPacketCheck params index packetId now = .ok later) :
    Counts (maxFramePackets + 1) w later := by
  unfold StreamWorld.missingPacketCheck at result
  rw [StreamWorld.get_frame found, Checked.ok_bind] at result
  obtain ⟨after, verdict, holes, scanned⟩ := findHoles_spec params bounds packetId now
  rw [holes, Checked.ok_bind] at result
  have replaced : Counts 0 w (w.setFrame index after) := by
    refine setFrame found ?_
    rw [FrameInFlight.provisional, FrameInFlight.provisional, scanned.replayOf]
  have limit : frame.nPackets ≤ maxFramePackets := bounds.nPackets_le.trans (Nat.min_le_right _ _)
  cases verdict with
  | skipped =>
    cases result
    exact replaced.mono (Nat.zero_le _)
  | ratioReached =>
    cases result
    have reached : Counts 1 (w.setFrame index after)
        ((w.setFrame index after).setStats { (w.setFrame index after).runner.stats with
          resendRatioReached := (w.setFrame index after).runner.stats.resendRatioReached + 1 }) := by
      refine setStats ?_ rfl rfl
      simp [StreamStats.Grows, StreamStats.counters]
    exact (replaced.trans reached).mono (by omega)
  | requests ranges =>
    cases result
    have few := findHoles_requests bounds holes
    exact (replaced.trans (requestRanges after ranges _)).mono (by omega)

theorem discardFrame (result : w.discardFrame index = .ok later) : Counts 0 w later := by
  unfold StreamWorld.discardFrame at result
  obtain ⟨frame, _, result⟩ := Checked.bind_eq_ok result
  cases result
  have removed := (removeFrame index w).trans (yield _)
  exact (removed.trans (returnSlot frame.slot _)).trans (record _ rfl rfl)

theorem discardProvisionalLoop (fuel : Nat) : ∀ {w : StreamWorld},
    StreamWorld.discardProvisionalLoop fuel w = .ok later → Counts 0 w later := by
  induction fuel with
  | zero =>
    intro w result
    cases result
    exact .refl
  | succ fuel ih =>
    intro w result
    rw [StreamWorld.discardProvisionalLoop] at result
    cases search : w.runner.frames.findIdx? (·.provisional) with
    | none =>
      rw [search] at result
      cases result
      exact .refl
    | some index =>
      rw [search] at result
      obtain ⟨next, discarded, result⟩ := Checked.bind_eq_ok result
      exact (discardFrame discarded).trans (ih result)

theorem completionStep {now : Nat} {currentFrameId : Option Nat} {canClose : Bool} {next : Nat × Bool}
    (wellformed : Wellformed params w) (enrolled : w.Enrolled) (found : w.runner.frames[index]? = some frame)
    (result : w.completionStep params now currentFrameId index canClose = .ok (later, next)) :
    Counts (maxFramePackets + 1 + later.fabric.subscriptions.length) w later := by
  have bounds := (wellformed.frames frame (List.mem_of_getElem? found)).inBounds
  have closed : ∀ {status : FrameStatus}, (do
      let w ← w.closeFrame params index status
      return (w, index, canClose) : Checked (StreamWorld × Nat × Bool)) = .ok (later, next) →
      Counts (maxFramePackets + 1 + later.fabric.subscriptions.length) w later := by
    intro status result
    obtain ⟨after, closes, result⟩ := Checked.bind_eq_ok result
    cases result
    exact closeFrame wellformed enrolled found closes
  unfold StreamWorld.completionStep at result
  rw [StreamWorld.get_frame found, Checked.ok_bind] at result
  split at result
  · split at result
    · obtain ⟨after, discarded, result⟩ := Checked.bind_eq_ok result
      cases result
      exact (discardFrame discarded).mono (Nat.zero_le _)
    · cases result
      exact refl.mono (Nat.zero_le _)
  split at result
  · exact closed result
  split at result
  · exact closed result
  split at result
  · exact closed result
  split at result
  · obtain ⟨last, _, result⟩ := Checked.bind_eq_ok result
    obtain ⟨after, checked, result⟩ := Checked.bind_eq_ok result
    cases result
    exact (missingPacketCheck found bounds checked).mono (Nat.le_add_right _ _)
  · cases result
    exact refl.mono (Nat.zero_le _)

theorem completionLoop {now : Nat} {currentFrameId : Option Nat} (fuel : Nat) :
    ∀ {index : Nat} {canClose : Bool} {w : StreamWorld}, Wellformed params w → w.Enrolled →
      StreamWorld.HeadOfLine w index canClose →
      StreamWorld.completionLoop params now currentFrameId fuel index canClose w = .ok later →
      Counts (fuel * (maxFramePackets + 1 + later.fabric.subscriptions.length)) w later := by
  induction fuel with
  | zero =>
    intro index canClose w _ _ _ result
    cases result
    exact refl.mono (Nat.zero_le _)
  | succ fuel ih =>
    intro index canClose w wellformed enrolled headOfLine result
    rw [StreamWorld.completionLoop] at result
    by_cases inside : index < w.runner.frames.length
    · obtain ⟨next, index', canClose', stepped, moves, still⟩ := StreamWorld.completionStep_moves [] none now
        currentFrameId wellformed (List.getElem?_eq_getElem inside) headOfLine
      rw [if_pos inside, stepped] at result
      have first := completionStep wellformed enrolled (List.getElem?_eq_getElem inside) stepped
      have rest := ih (moves.wellformed wellformed) (first.enrolled enrolled) still result
      refine (first.trans rest).mono ?_
      rw [Nat.succ_mul]
      have grown := rest.subscriptions
      omega
    · rw [if_neg inside] at result
      cases result
      exact refl.mono (Nat.zero_le _)

theorem checkFrameCompletion {now : Nat} {currentFrameId : Option Nat} (wellformed : Wellformed params w)
    (enrolled : w.Enrolled) (result : w.checkFrameCompletion params now currentFrameId = .ok later) :
    Counts (w.runner.frames.length * (maxFramePackets + 1 + later.fabric.subscriptions.length)) w later :=
  completionLoop w.runner.frames.length wellformed enrolled
    (fun _ before earlier => absurd earlier (Nat.not_lt_zero before)) result

end Counts

end Telegenic.Stream
