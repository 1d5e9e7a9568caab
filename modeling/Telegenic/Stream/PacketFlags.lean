import Telegenic.Stream.Reassembly

/-! The received flags of a frame's packets: how resizing and marking change
them, and the longest received prefix the receiver tracks. -/

set_option autoImplicit false

namespace Telegenic.Stream

open Library

variable {packets : List PacketState} {last : Int} {n position : Nat}

@[simp] theorem resizePackets_length : (resizePackets packets n).length = n := by
  simp only [resizePackets, List.length_append, List.length_take, List.length_replicate]
  omega

theorem isReceived_eq_true :
    isReceived packets position = true ↔ (packets.map (·.received))[position]? = some true := by
  simp [isReceived, Option.any_eq_true]

theorem isReceived_congr {others : List PacketState}
    (same : others.map (·.received) = packets.map (·.received)) :
    isReceived others = isReceived packets := by
  funext position
  rw [Bool.eq_iff_iff, isReceived_eq_true, isReceived_eq_true, same]

theorem isReceived_of_length_le (beyond : packets.length ≤ position) :
    isReceived packets position = false := by
  simp [isReceived, List.getElem?_eq_none beyond]

theorem isReceived_resize :
    isReceived (resizePackets packets n) position = (decide (position < n) && isReceived packets position) := by
  simp only [isReceived, resizePackets]
  by_cases inTaken : position < (packets.take n).length
  · rw [List.getElem?_append_left inTaken]
    have inside : position < n := by
      simp only [List.length_take] at inTaken
      omega
    simp [inside, List.getElem?_take_of_lt inside]
  · rw [List.getElem?_append_right (by omega)]
    simp only [List.length_take] at inTaken
    by_cases inside : position < n
    · have missing : packets[position]? = none := List.getElem?_eq_none (by omega)
      by_cases added : position - min n packets.length < n - packets.length
      · simp [missing, added]
      · simp [missing, added]
    · have none_added : ¬ position - min n packets.length < n - packets.length := by omega
      simp [inside, none_added]

theorem isReceived_set {packet : PacketState} {marked : Nat} (inside : marked < packets.length) :
    isReceived (packets.set marked packet) position =
      if position = marked then packet.received else isReceived packets position := by
  simp only [isReceived, List.getElem?_set]
  by_cases same : marked = position
  · subst same
    simp [inside]
  · simp [same, Ne.symm same]

structure PrefixEnd (packets : List PacketState) (last : Int) : Prop where
  lower : -1 ≤ last
  upper : last < packets.length
  received : ∀ position : Nat, (position : Int) ≤ last → isReceived packets position = true
  maximal : isReceived packets (last + 1).toNat = false

namespace PrefixEnd

theorem congr {others : List PacketState} (ends : PrefixEnd packets last)
    (same : others.map (·.received) = packets.map (·.received)) : PrefixEnd others last := by
  have length_eq : others.length = packets.length := by
    simpa using congrArg List.length same
  have flags := isReceived_congr same
  exact ⟨ends.lower, by rw [length_eq]; exact ends.upper,
    fun position upTo => by rw [flags]; exact ends.received position upTo,
    by rw [flags]; exact ends.maximal⟩

theorem resize (ends : PrefixEnd packets last) :
    PrefixEnd (resizePackets packets n) (min last ((n : Int) - 1)) := by
  have lower := ends.lower
  refine ⟨by omega, by rw [resizePackets_length]; omega, ?_, ?_⟩
  · intro position upTo
    rw [isReceived_resize, ends.received position (by omega)]
    simp only [Bool.and_true, decide_eq_true_eq]
    omega
  · rw [isReceived_resize]
    by_cases cut : (n : Int) - 1 ≤ last
    · have beyond : ¬ (min last ((n : Int) - 1) + 1).toNat < n := by omega
      simp [beyond]
    · have whole : min last ((n : Int) - 1) = last := by omega
      rw [whole, ends.maximal, Bool.and_false]

theorem fresh : PrefixEnd (resizePackets [] n) (-1) := by
  refine ⟨le_rfl, by omega, fun position upTo => by omega, ?_⟩
  rw [isReceived_resize]
  simp [isReceived]

end PrefixEnd

theorem FrameInFlight.firstHole_spec {frame : FrameInFlight}
    (sized : frame.slot.packets.length = frame.nPackets) :
    ∀ (fuel start : Nat), start ≤ frame.nPackets → frame.nPackets ≤ start + fuel →
      ∃ hole, frame.firstHole fuel start = .ok hole ∧ start ≤ hole ∧ hole ≤ frame.nPackets ∧
        (∀ position, start ≤ position → position < hole → isReceived frame.slot.packets position = true) ∧
        isReceived frame.slot.packets hole = false := by
  intro fuel
  induction fuel with
  | zero =>
    intro start inRange enough
    refine ⟨start, rfl, le_rfl, inRange, fun position lower upper => by omega, ?_⟩
    exact isReceived_of_length_le (by omega)
  | succ fuel ih =>
    intro start inRange enough
    rw [FrameInFlight.firstHole]
    by_cases inside : start < frame.nPackets
    · have found : Checked.get frame.slot.packets start = .ok frame.slot.packets[start] :=
        Checked.get_lt (by omega)
      have flag : isReceived frame.slot.packets start = (frame.slot.packets[start]).received := by
        simp [isReceived, List.getElem?_eq_getElem (show start < frame.slot.packets.length by omega)]
      rw [if_pos inside, found, Checked.ok_bind]
      by_cases received : (frame.slot.packets[start]).received = true
      · obtain ⟨hole, result, lower, upper, filled, ends⟩ := ih (start + 1) (by omega) (by omega)
        refine ⟨hole, by rw [if_pos received]; exact result, by omega, upper, ?_, ends⟩
        intro position above below
        rcases Nat.eq_or_lt_of_le above with atStart | afterStart
        · rw [← atStart, flag, received]
        · exact filled position afterStart below
      · refine ⟨start, by rw [if_neg received]; rfl, le_rfl, inRange, fun position lower upper => by omega, ?_⟩
        rw [flag]
        simpa using received
    · refine ⟨start, by rw [if_neg inside], le_rfl, inRange, fun position lower upper => by omega, ?_⟩
      exact isReceived_of_length_le (by omega)

end Telegenic.Stream
