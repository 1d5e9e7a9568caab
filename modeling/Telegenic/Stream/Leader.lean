import Telegenic.Stream.Reassembly

/-! What a frame knows of its leader: only the leader packet changes it. -/

set_option autoImplicit false

namespace Telegenic.Stream

open Library Proto Proto.Gvsp

namespace FrameInFlight

variable {params : StreamParams} {frame later : FrameInFlight} {stats final : StreamStats} {view : GvspView}

theorem write_leader {offset : Nat} {data : List UInt8} (result : frame.write offset data = .ok later) :
    later.leader = frame.leader := by
  unfold write at result
  obtain ⟨bytes, _, result⟩ := Checked.bind_eq_ok result
  cases result
  rfl

theorem place_leader {packetId : Nat} {data : List UInt8}
    (result : frame.place packetId data stats = .ok (later, final)) : later.leader = frame.leader := by
  unfold place at result
  split at result
  · cases result
    rfl
  obtain ⟨block, _, result⟩ := Checked.bind_eq_ok result
  simp only at result
  split at result
  · cases result
    rfl
  split at result
  · obtain ⟨lastPayload, _, result⟩ := Checked.bind_eq_ok result
    split at result
    · cases result
      rfl
    · obtain ⟨room, _, result⟩ := Checked.bind_eq_ok result
      obtain ⟨fitting, _, result⟩ := Checked.bind_eq_ok result
      obtain ⟨written, isWritten, result⟩ := Checked.bind_eq_ok result
      cases result
      exact write_leader isWritten
  · obtain ⟨written, isWritten, result⟩ := Checked.bind_eq_ok result
    cases result
    exact write_leader isWritten

theorem placeHeld_leader (held : List (Nat × List UInt8)) : ∀ {frame : FrameInFlight} {stats : StreamStats},
    placeHeld held frame stats = .ok (later, final) → later.leader = frame.leader := by
  induction held with
  | nil =>
    intro frame stats result
    cases result
    rfl
  | cons payload rest ih =>
    intro frame stats result
    obtain ⟨packetId, data⟩ := payload
    rw [placeHeld] at result
    split at result
    · cases result
      rfl
    split at result
    · cases result
      rfl
    obtain ⟨⟨placed, counted⟩, isPlaced, result⟩ := Checked.bind_eq_ok result
    exact (ih result).trans (place_leader isPlaced)

theorem placeAll_leader {packetId : Nat} {data : List UInt8}
    (result : frame.placeAll packetId data stats = .ok (later, final)) : later.leader = frame.leader := by
  unfold placeAll at result
  obtain ⟨⟨placed, counted⟩, isPlaced, result⟩ := Checked.bind_eq_ok result
  obtain ⟨⟨emptied, counted'⟩, isEmptied, result⟩ := Checked.bind_eq_ok result
  cases result
  have placed_leader := place_leader isPlaced
  exact (placeHeld_leader _ isEmptied).trans placed_leader

theorem hold_leader (packetId : Nat) (data : List UInt8) (frame : FrameInFlight) (stats : StreamStats) :
    (frame.hold packetId data stats).1.leader = frame.leader := by
  unfold hold
  simp only
  split
  · rfl
  · unfold growTo
    split <;> rfl

theorem fixBlockSize_leader (result : frame.fixBlockSize params view = .ok later) : later.leader = frame.leader := by
  unfold fixBlockSize at result
  simp only at result
  obtain ⟨blocks, _, result⟩ := Checked.bind_eq_ok result
  split at result
  · cases result
    rfl
  split at result
  · cases result
    rfl
  · cases result
    rfl

theorem processPayload_leader (result : frame.processPayload params view stats = .ok (later, final)) :
    later.leader = frame.leader := by
  -- What follows once the block size is settled.
  have continued : ∀ sized : FrameInFlight, sized.leader = frame.leader →
      (if sized.error.isSome then pure (sized, stats) else (do
          let lastPayload ← sized.lastPayload params
          if view.packetId < 1 ∨ lastPayload < view.packetId then
            return (sized.reject, stats)
          else if !sized.blockKnown then
            return sized.hold view.packetId view.data stats
          else
            sized.placeAll view.packetId view.data stats : Checked _)) = .ok (later, final) → later.leader = frame.leader := by
    intro sized same result
    split at result
    · cases result
      exact same
    obtain ⟨lastPayload, _, result⟩ := Checked.bind_eq_ok result
    split at result
    · cases result
      exact same
    split at result
    · have held := hold_leader view.packetId view.data sized stats
      rw [Except.ok.inj result] at held
      exact held.trans same
    · exact (placeAll_leader result).trans same
  unfold processPayload at result
  split at result
  · cases result
    rfl
  simp only at result
  split at result
  · obtain ⟨sized, isSized, result⟩ := Checked.bind_eq_ok result
    exact continued sized (fixBlockSize_leader isSized) result
  · exact continued frame rfl result

theorem processTrailer_leader (result : frame.processTrailer params view = .ok later) :
    later.leader = frame.leader := by
  unfold processTrailer at result
  simp only at result
  split at result
  · cases result
    rfl
  obtain ⟨bound, _, result⟩ := Checked.bind_eq_ok result
  split at result
  · cases result
    rfl
  split at result
  · cases result
    rfl
  · cases result
    rfl

theorem processContent_leader {systemNow : Nat} (other : view.contentType ≠ .leader)
    (result : frame.processContent params systemNow view stats = .ok (some (later, final))) :
    later.leader = frame.leader := by
  unfold processContent at result
  cases kind : view.contentType <;> simp only [kind] at result other
  case leader => exact absurd rfl other
  case payload =>
    obtain ⟨⟨placed, counted⟩, isPlaced, result⟩ := Checked.bind_eq_ok result
    cases result
    exact processPayload_leader isPlaced
  case trailer =>
    obtain ⟨ended, isEnded, result⟩ := Checked.bind_eq_ok result
    cases result
    exact processTrailer_leader isEnded
  all_goals cases result

theorem settle_leader {diverged : Bool} (result : frame.settle params view stats = .ok (later, final, diverged)) :
    later.leader = frame.leader := by
  unfold settle at result
  obtain ⟨⟨marked, counted⟩, isMarked, result⟩ := Checked.bind_eq_ok result
  obtain ⟨advanced, isAdvanced, result⟩ := Checked.bind_eq_ok result
  cases result
  have kept : marked.leader = frame.leader := by
    unfold markReceived at isMarked
    split at isMarked
    · obtain ⟨packet, _, isMarked⟩ := Checked.bind_eq_ok isMarked
      cases isMarked
      rfl
    · cases isMarked
      rfl
  unfold advance at isAdvanced
  obtain ⟨hole, _, isAdvanced⟩ := Checked.bind_eq_ok isAdvanced
  cases isAdvanced
  exact kept

end FrameInFlight

end Telegenic.Stream
