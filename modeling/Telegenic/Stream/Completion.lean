import Telegenic.Stream.Steady

/-! What the pass over the frames in flight does to each of them: the first
ones are closed while they are finished, and past the first unfinished frame
nothing is closed any more. -/

set_option autoImplicit false

namespace Telegenic.Stream

open Library Proto Proto.Gvsp

/-- Frames after a pass that closed none of them: each is as it was but for
its timing and resend bookkeeping, or it was provisional and is gone. -/
inductive Thinned : List FrameInFlight → List FrameInFlight → Prop where
  | nil : Thinned [] []
  | kept {frame after : FrameInFlight} {rest later : List FrameInFlight} (untouched : Untouched frame after)
      (thinned : Thinned rest later) : Thinned (frame :: rest) (after :: later)
  | dropped {frame : FrameInFlight} {rest later : List FrameInFlight} (provisional : frame.provisional = true)
      (thinned : Thinned rest later) : Thinned (frame :: rest) later

theorem Thinned.refl (frames : List FrameInFlight) : Thinned frames frames := by
  induction frames with
  | nil => exact .nil
  | cons frame rest ih => exact .kept .refl ih

namespace StreamWorld

section Step

variable {params : StreamParams} {w : StreamWorld} {index : Nat} {frame : FrameInFlight} (now : Nat)
  (currentFrameId : Option Nat)

theorem completionStep_provisional (canClose : Bool) (wellformed : Wellformed params w)
    (found : w.runner.frames[index]? = some frame) (provisional : frame.provisional = true) :
    ∃ later index', w.completionStep params now currentFrameId index canClose = .ok (later, index', canClose) ∧
      Steady w later ∧ Wellformed params later ∧
      (index' = index ∧ later.runner.frames = w.runner.frames.eraseIdx index ∨
        index' = index + 1 ∧ later.runner.frames = w.runner.frames) := by
  unfold completionStep
  rw [get_frame found, Checked.ok_bind, if_pos provisional]
  split
  · obtain ⟨later, result, moves, frames⟩ := discardFrame_moves [] none wellformed found provisional
    exact ⟨later, index, by rw [result]; rfl, .discardFrame result, moves.wellformed wellformed, .inl ⟨rfl, frames⟩⟩
  · exact ⟨w, index + 1, rfl, .refl, wellformed, .inr ⟨rfl, rfl⟩⟩

theorem completionStep_stays (canClose : Bool) (wellformed : Wellformed params w)
    (found : w.runner.frames[index]? = some frame)
    (real : frame.provisional = false)
    (unfinished : canClose = true → frame.allReceived = false ∧
      (params.resendEnabled = false → (w.runner.frames.drop (index + 1)).any (!·.provisional) = false) ∧
      (frame.frameId ≠ w.runner.lastFrameId ∨ frame.lastValidPacket ≠ 0 →
        frame.quietFor now params.frameRetention = false)) :
    ∃ later after, w.completionStep params now currentFrameId index canClose = .ok (later, index + 1, false) ∧
      Steady w later ∧ Wellformed params later ∧ Untouched frame after ∧
      later.runner.frames = w.runner.frames.set index after := by
  have notFinished : ¬ (canClose = true ∧ frame.allReceived = true) := by
    rintro ⟨may, all⟩
    rw [(unfinished may).1] at all
    cases all
  have notSuperseded : ¬ (canClose = true ∧ (!params.resendEnabled) = true ∧
      (w.runner.frames.drop (index + 1)).any (!·.provisional) = true) := by
    rintro ⟨may, off, newer⟩
    rw [(unfinished may).2.1 (by simpa using off)] at newer
    cases newer
  have notExpired : ¬ (canClose = true ∧ (frame.frameId ≠ w.runner.lastFrameId ∨ frame.lastValidPacket ≠ 0) ∧
      frame.quietFor now params.frameRetention = true) := by
    rintro ⟨may, expires, quiet⟩
    rw [(unfinished may).2.2 expires] at quiet
    cases quiet
  unfold completionStep
  rw [get_frame found, Checked.ok_bind, if_neg (by rw [real]; exact Bool.false_ne_true), if_neg notFinished,
    if_neg notSuperseded, if_neg notExpired]
  split
  · have valid := wellformed.frames frame (List.mem_of_getElem? found)
    rw [Checked.sub_ok valid.inBounds.nPackets_pos, Checked.ok_bind]
    obtain ⟨later, after, result, moves, scanned, frames⟩ :=
      missingPacketCheck_moves [] none (frame.nPackets - 1) now wellformed found
    exact ⟨later, after, by rw [result]; rfl, .missingPacketCheck result, moves.wellformed wellformed,
      scanned.toUntouched, frames⟩
  · refine ⟨w, frame, rfl, .refl, wellformed, .refl, ?_⟩
    obtain ⟨inside, rfl⟩ := List.getElem?_eq_some_iff.mp found
    exact (List.set_getElem_self inside).symm

theorem completionStep_closes (wellformed : Wellformed params w) (found : w.runner.frames[0]? = some frame)
    (real : frame.provisional = false) (all : frame.allReceived = true) :
    ∃ later, w.completionStep params now currentFrameId 0 true = .ok (later, 0, true) ∧
      Closes params frame frame.finishedStatus w later ∧ Wellformed params later ∧
      later.runner.frames = w.runner.frames.eraseIdx 0 := by
  have valid := wellformed.frames frame (List.mem_of_getElem? found)
  obtain ⟨later, result, moves, frames⟩ := closeFrame_moves [] none wellformed found real
    (fun before earlier => absurd earlier (Nat.not_lt_zero before)) frame.finishedStatus
    (fun complete => ⟨all, finishedStatus_complete complete valid.verdict⟩)
  refine ⟨later, ?_, closeFrame_closes wellformed.accounted found result, moves.wellformed wellformed, frames⟩
  unfold completionStep
  rw [get_frame found, Checked.ok_bind, if_neg (by rw [real]; exact Bool.false_ne_true), if_pos ⟨rfl, all⟩, result]
  rfl

end Step

section Loop

variable {params : StreamParams} {now : Nat} {currentFrameId : Option Nat}

theorem getElem?_middle {done rest : List FrameInFlight} {frame : FrameInFlight} {frames : List FrameInFlight}
    (split : frames = done ++ frame :: rest) : frames[done.length]? = some frame := by
  rw [split, List.getElem?_append_right le_rfl, Nat.sub_self]
  rfl

theorem completionLoop_blocked (fuel : Nat) : ∀ (done rest : List FrameInFlight) (canClose : Bool) (w : StreamWorld),
    Wellformed params w → w.runner.frames = done ++ rest →
    (canClose = true → ∀ frame ∈ rest, frame.provisional = true) →
    ∃ later rest', completionLoop params now currentFrameId fuel done.length canClose w = .ok later ∧
      Steady w later ∧ Wellformed params later ∧ later.runner.frames = done ++ rest' ∧ Thinned rest rest' := by
  induction fuel with
  | zero => exact fun done rest _ w wellformed frames _ => ⟨w, rest, rfl, .refl, wellformed, frames, .refl rest⟩
  | succ fuel ih =>
    intro done rest canClose w wellformed frames blocked
    rw [completionLoop]
    cases rest with
    | nil =>
      rw [List.append_nil] at frames
      exact ⟨w, [], if_neg (by rw [frames]; exact Nat.lt_irrefl _), .refl, wellformed, by simpa using frames, .nil⟩
    | cons frame rest =>
      have found := getElem?_middle frames
      rw [if_pos (List.getElem?_eq_some_iff.mp found).1]
      -- The frame stays, as `after`, and the pass goes on behind it.
      have passes : ∀ (next : StreamWorld) (after : FrameInFlight) (may : Bool), Steady w next →
          Wellformed params next → next.runner.frames = w.runner.frames.set done.length after →
          Untouched frame after → (may = true → ∀ other ∈ rest, other.provisional = true) →
          ∃ later rest', completionLoop params now currentFrameId fuel (done.length + 1) may next = .ok later ∧
            Steady w later ∧ Wellformed params later ∧ later.runner.frames = done ++ rest' ∧
            Thinned (frame :: rest) rest' := by
        intro next after may steady still set untouched blocked
        have split : next.runner.frames = (done ++ [after]) ++ rest := by
          rw [set, frames, List.set_append_right _ _ le_rfl, Nat.sub_self, List.append_assoc]
          rfl
        obtain ⟨later, rest', result, rest_steady, last, rest_frames, thinned⟩ :=
          ih (done ++ [after]) rest may next still split blocked
        rw [List.length_append] at result
        rw [List.append_assoc] at rest_frames
        exact ⟨later, after :: rest', result, steady.trans rest_steady, last, rest_frames, .kept untouched thinned⟩
      cases provisional : frame.provisional with
      | true =>
        have behind : canClose = true → ∀ other ∈ rest, other.provisional = true :=
          fun may other present => blocked may other (List.mem_cons_of_mem _ present)
        obtain ⟨next, index', result, steady, still, outcome⟩ :=
          completionStep_provisional now currentFrameId canClose wellformed found provisional
        rw [result, Checked.ok_bind]
        rcases outcome with ⟨rfl, erased⟩ | ⟨rfl, same⟩
        · have split : next.runner.frames = done ++ rest := by
            rw [erased, frames, List.eraseIdx_append_of_length_le le_rfl, Nat.sub_self]
            rfl
          obtain ⟨later, rest', rest_result, rest_steady, last, rest_frames, thinned⟩ :=
            ih done rest canClose next still split behind
          exact ⟨later, rest', rest_result, steady.trans rest_steady, last, rest_frames,
            .dropped provisional thinned⟩
        · obtain ⟨inside, isFrame⟩ := List.getElem?_eq_some_iff.mp found
          refine passes next frame canClose steady still ?_ .refl behind
          rw [same, ← isFrame]
          exact (List.set_getElem_self inside).symm
      | false =>
        have shut : canClose = false := by
          by_contra may
          have isProvisional := blocked (by simpa using may) frame List.mem_cons_self
          rw [provisional] at isProvisional
          cases isProvisional
        obtain ⟨next, after, result, steady, still, untouched, set⟩ :=
          completionStep_stays now currentFrameId canClose wellformed found provisional
            (fun may => by rw [shut] at may; cases may)
        rw [result, Checked.ok_bind]
        exact passes next after false steady still set untouched (fun may => by cases may)

end Loop

end StreamWorld

end Telegenic.Stream
