import Telegenic.Stream.Absorption

/-! One pass over the holes of a frame. It takes the runs of due packets in
order while the budget lasts, marks what it takes as requested, and arms the
other holes it comes by. -/

set_option autoImplicit false

namespace Telegenic.Stream

open Library Proto Proto.Gvsp

def rangesSize (ranges : List (Nat × Nat)) : Nat :=
  (ranges.map fun range => range.2 - range.1 + 1).sum

theorem rangesSize_nil : rangesSize [] = 0 := rfl

theorem rangesSize_append (first rest : List (Nat × Nat)) :
    rangesSize (first ++ rest) = rangesSize first + rangesSize rest := by
  rw [rangesSize, List.map_append, List.sum_append, rangesSize, rangesSize]

/-- The maximal runs of due positions among the `fuel` positions from
`position` on, after a run that is open since `pending`. A run that is still
open at the end is left out. -/
def dueRuns (due : Nat → Bool) : (fuel position : Nat) → (pending : Option Nat) → List (Nat × Nat)
  | 0, _, _ => []
  | fuel + 1, position, none =>
      if due position then dueRuns due fuel (position + 1) (some position)
      else dueRuns due fuel (position + 1) none
  | fuel + 1, position, some first =>
      if due position then dueRuns due fuel (position + 1) (some first)
      else (first, position - 1) :: dueRuns due fuel (position + 1) none

/-- The runs that fit into what is left of the budget, in order, and the first
one that does not. -/
def spend (budget spent : Nat) : List (Nat × Nat) → List (Nat × Nat) × Option (Nat × Nat)
  | [] => ([], none)
  | run :: rest =>
      if budget < spent + (run.2 - run.1 + 1) then
        ([], some run)
      else
        let (taken, refused) := spend budget (spent + (run.2 - run.1 + 1)) rest
        (run :: taken, refused)

def Covered (ranges : List (Nat × Nat)) (position : Nat) : Prop :=
  ∃ range ∈ ranges, range.1 ≤ position ∧ position ≤ range.2

/-! ## The runs -/

section Runs

variable {due other : Nat → Bool} {budget spent : Nat} {runs : List (Nat × Nat)}

theorem dueRuns_congr (fuel : Nat) : ∀ (position : Nat) (pending : Option Nat),
    (∀ k, position ≤ k → due k = other k) → dueRuns due fuel position pending = dueRuns other fuel position pending := by
  induction fuel with
  | zero => exact fun _ _ _ => rfl
  | succ fuel ih =>
    intro position pending same
    have here := same position le_rfl
    have rest : ∀ next, dueRuns due fuel (position + 1) next = dueRuns other fuel (position + 1) next :=
      fun next => ih (position + 1) next fun k behind => same k (by omega)
    cases pending with
    | none => simp only [dueRuns, here, rest]
    | some first => simp only [dueRuns, here, rest]

theorem dueRuns_due {fuel position : Nat} {pending : Option Nat} (isDue : due position = true) :
    dueRuns due (fuel + 1) position pending =
      dueRuns due fuel (position + 1) (some (pending.getD position)) := by
  cases pending with
  | none => rw [dueRuns, if_pos isDue, Option.getD_none]
  | some first => rw [dueRuns, if_pos isDue, Option.getD_some]

theorem dueRuns_apart (due : Nat → Bool) (fuel : Nat) : ∀ (position : Nat) (pending : Option Nat),
    (∀ first, pending = some first → first < position) →
    (dueRuns due fuel position pending).Pairwise (fun a b => a.2 < b.1) ∧
      ∀ run ∈ dueRuns due fuel position pending, pending.getD position ≤ run.1 ∧ run.1 ≤ run.2 := by
  induction fuel with
  | zero => exact fun _ _ _ => ⟨.nil, fun run present => absurd present List.not_mem_nil⟩
  | succ fuel ih =>
    intro position pending before
    cases pending with
    | none =>
      rw [dueRuns]
      split
      · exact ih (position + 1) (some position) fun first isFirst => by cases isFirst; omega
      · obtain ⟨apart, within⟩ := ih (position + 1) none fun first isFirst => by cases isFirst
        refine ⟨apart, fun run present => ?_⟩
        have bounds := within run present
        simp only [Option.getD_none] at bounds ⊢
        omega
    | some first =>
      have earlier := before first rfl
      rw [dueRuns]
      split
      · refine ih (position + 1) (some first) fun other isOther => ?_
        cases isOther
        omega
      · obtain ⟨apart, within⟩ := ih (position + 1) none fun first isFirst => by cases isFirst
        refine ⟨List.pairwise_cons.mpr ⟨fun run present => ?_, apart⟩, fun run present => ?_⟩
        · have bounds := within run present
          simp only [Option.getD_none] at bounds ⊢
          omega
        · rcases List.mem_cons.mp present with rfl | present
          · simp only [Option.getD_some]
            omega
          · have bounds := within run present
            simp only [Option.getD_none, Option.getD_some] at bounds ⊢
            omega

theorem dueRuns_gapped (due : Nat → Bool) (fuel : Nat) : ∀ (position : Nat) (pending : Option Nat),
    (∀ first, pending = some first → first < position) →
    (dueRuns due fuel position pending).Pairwise (fun a b => a.2 + 1 < b.1) := by
  induction fuel with
  | zero => exact fun _ _ _ => .nil
  | succ fuel ih =>
    intro position pending before
    cases pending with
    | none =>
      rw [dueRuns]
      split
      · exact ih (position + 1) (some position) fun first isFirst => by cases isFirst; omega
      · exact ih (position + 1) none nofun
    | some first =>
      have earlier := before first rfl
      rw [dueRuns]
      split
      · exact ih (position + 1) (some first) fun other isOther => by cases isOther; omega
      · refine List.pairwise_cons.mpr ⟨fun run present => ?_, ih (position + 1) none nofun⟩
        have begins := ((dueRuns_apart due fuel (position + 1) none nofun).2 run present).1
        simp only [Option.getD_none] at begins ⊢
        omega

theorem covered_nil (k : Nat) : ¬ Covered [] k := fun ⟨_, present, _⟩ => List.not_mem_nil present

theorem covered_cons (range : Nat × Nat) (ranges : List (Nat × Nat)) (k : Nat) :
    Covered (range :: ranges) k ↔ range.1 ≤ k ∧ k ≤ range.2 ∨ Covered ranges k := by
  simp only [Covered, List.exists_mem_cons_iff]

theorem covered_append (first second : List (Nat × Nat)) (k : Nat) :
    Covered (first ++ second) k ↔ Covered first k ∨ Covered second k := by
  simp only [Covered, List.mem_append, or_and_right, exists_or]

theorem dueRuns_none {fuel position : Nat} (notDue : due position = false) :
    dueRuns due (fuel + 1) position none = dueRuns due fuel (position + 1) none := by
  rw [dueRuns, if_neg (Bool.eq_false_iff.mp notDue)]

theorem dueRuns_some {fuel position first : Nat} (notDue : due position = false) :
    dueRuns due (fuel + 1) position (some first) = (first, position - 1) :: dueRuns due fuel (position + 1) none := by
  rw [dueRuns, if_neg (Bool.eq_false_iff.mp notDue)]

theorem getD_lt {position : Nat} {pending : Option Nat} (before : ∀ first, pending = some first → first < position) :
    pending.getD position < position + 1 := by
  cases pending with
  | none => exact Nat.lt_succ_self _
  | some first => exact Nat.lt_succ_of_lt (before first rfl)

theorem dueRuns_covers (fuel : Nat) : ∀ (position : Nat) (pending : Option Nat),
    (∀ first, pending = some first → first < position) → due (position + fuel) = false → ∀ k,
    (Covered (dueRuns due (fuel + 1) position pending) k ↔
      pending.getD position ≤ k ∧ k < position ∨ position ≤ k ∧ k ≤ position + fuel ∧ due k = true) := by
  induction fuel with
  | zero =>
    intro position pending before closed k
    rw [Nat.add_zero] at closed
    have atPosition : ¬ (position ≤ k ∧ k ≤ position + 0 ∧ due k = true) := by
      rintro ⟨low, high, isDue⟩
      obtain rfl : k = position := by omega
      rw [isDue] at closed
      nomatch closed
    rw [or_iff_left atPosition]
    cases pending with
    | none =>
      rw [dueRuns_none closed, Option.getD_none]
      exact iff_of_false (covered_nil k) (by omega)
    | some first =>
      have earlier := before first rfl
      rw [dueRuns_some closed, covered_cons, Option.getD_some, dueRuns, or_iff_left (covered_nil k)]
      simp only
      omega
  | succ fuel ih =>
    intro position pending before closed k
    rw [← Nat.add_assoc, Nat.add_right_comm] at closed
    cases isDue : due position with
    | true =>
      have atPosition : k = position → due k = true := fun same => same ▸ isDue
      have below := getD_lt before
      rw [dueRuns_due isDue, ih (position + 1) _ (fun first isFirst => by cases isFirst; exact below) closed,
        Option.getD_some]
      constructor
      · rintro (⟨low, high⟩ | ⟨low, high, held⟩)
        · by_cases here : k = position
          · exact .inr ⟨by omega, by omega, atPosition here⟩
          · exact .inl ⟨low, by omega⟩
        · exact .inr ⟨by omega, by omega, held⟩
      · rintro (⟨low, high⟩ | ⟨low, high, held⟩)
        · exact .inl ⟨low, by omega⟩
        · by_cases here : k = position
          · exact .inl ⟨by omega, by omega⟩
          · exact .inr ⟨by omega, by omega, held⟩
    | false =>
      have atPosition : due k = true → k ≠ position := fun held same => by
        rw [same, isDue] at held
        nomatch held
      have rest := ih (position + 1) none nofun closed k
      rw [Option.getD_none] at rest
      have behind : Covered (dueRuns due (fuel + 1) (position + 1) none) k ↔
          position ≤ k ∧ k ≤ position + (fuel + 1) ∧ due k = true := by
        rw [rest]
        constructor
        · rintro (_ | ⟨low, high, held⟩)
          · omega
          · exact ⟨by omega, by omega, held⟩
        · rintro ⟨low, high, held⟩
          have elsewhere := atPosition held
          exact .inr ⟨by omega, by omega, held⟩
      cases pending with
      | none =>
        rw [dueRuns_none isDue, behind, Option.getD_none]
        exact (or_iff_right (by omega)).symm
      | some first =>
        have earlier := before first rfl
        rw [dueRuns_some isDue, covered_cons, behind, Option.getD_some]
        refine or_congr_left ?_
        simp only
        omega

theorem dueRuns_size (fuel : Nat) : ∀ (position : Nat) (pending : Option Nat),
    (∀ first, pending = some first → first < position) → due (position + fuel) = false →
    rangesSize (dueRuns due (fuel + 1) position pending) =
      (position - pending.getD position) + (List.range' position (fuel + 1)).countP due := by
  induction fuel with
  | zero =>
    intro position pending before closed
    rw [Nat.add_zero] at closed
    have none_due : (List.range' position 1).countP due = 0 := by
      simp only [List.range'_one, List.countP_singleton]
      exact if_neg (Bool.eq_false_iff.mp closed)
    rw [none_due]
    cases pending with
    | none =>
      rw [dueRuns_none closed, Option.getD_none, Nat.sub_self]
      rfl
    | some first =>
      have earlier := before first rfl
      rw [dueRuns_some closed, Option.getD_some, dueRuns, rangesSize, List.map_cons, List.sum_cons, List.map_nil,
        List.sum_nil]
      omega
  | succ fuel ih =>
    intro position pending before closed
    rw [← Nat.add_assoc, Nat.add_right_comm] at closed
    rw [List.range'_succ, List.countP_cons]
    cases isDue : due position with
    | true =>
      have below := getD_lt before
      rw [dueRuns_due isDue, ih (position + 1) _ (fun first isFirst => by cases isFirst; exact below) closed,
        Option.getD_some, if_pos rfl]
      omega
    | false =>
      have rest := ih (position + 1) none nofun closed
      cases pending with
      | none =>
        rw [dueRuns_none isDue, rest]
        simp
      | some first =>
        have earlier := before first rfl
        rw [rangesSize] at rest
        rw [dueRuns_some isDue, rangesSize, List.map_cons, List.sum_cons, rest]
        simp only [Option.getD_none, Option.getD_some, Bool.false_eq_true, if_false]
        omega

theorem spend_all : ∀ {spent : Nat}, spent + rangesSize runs ≤ budget → spend budget spent runs = (runs, none) := by
  induction runs with
  | nil => exact fun _ => rfl
  | cons run rest ih =>
    intro spent whole
    rw [rangesSize, List.map_cons, List.sum_cons] at whole
    have rest_whole : spent + (run.2 - run.1 + 1) + rangesSize rest ≤ budget := by
      rw [rangesSize]
      omega
    rw [spend, if_neg (by omega), ih rest_whole]

theorem spend_sublist : ∀ {spent : Nat}, (spend budget spent runs).1.Sublist runs := by
  induction runs with
  | nil => exact .slnil
  | cons run rest ih =>
    intro spent
    rw [spend]
    split
    · exact List.nil_sublist _
    · exact ih.cons_cons run

end Runs

/-! ## The packets -/

def FrameInFlight.due (now packetId : Nat) (frame : FrameInFlight) (position : Nat) : Bool :=
  decide (position ≤ packetId) && (frame.slot.packets[position]?).any fun packet =>
    !packet.received && packet.resendDeadline.any (· < now)

def isRequested (packets : List PacketState) (position : Nat) : Bool :=
  (packets[position]?).any (·.resendRequested)

def PacketState.armed (params : StreamParams) (now : Nat) (packet : PacketState) : PacketState :=
  if packet.received then packet
  else { packet with resendDeadline := some (packet.resendDeadline.getD (now + params.initialPacketTimeout)) }

def PacketState.asRequested (params : StreamParams) (now : Nat) (packet : PacketState) : PacketState :=
  { packet with resendRequested := true, resendDeadline := some (now + params.packetTimeout) }

instance (ranges : List (Nat × Nat)) (k : Nat) : Decidable (Covered ranges k) :=
  inferInstanceAs (Decidable (∃ range ∈ ranges, range.1 ≤ k ∧ k ≤ range.2))

/-- What a pass over the packets from `position` to before `limit` makes of
packet `k` when it requests the ranges. -/
def PacketState.passed (params : StreamParams) (now packetId position limit : Nat) (ranges : List (Nat × Nat)) (k : Nat)
    (packet : PacketState) : PacketState :=
  if Covered ranges k then packet.asRequested params now
  else if position ≤ k ∧ k < limit ∧ k ≤ packetId then packet.armed params now
  else packet

section Pass

variable {params : StreamParams} {now packetId maxRequests position limit : Nat} {scan later last : HoleScan}
  {taken rest : List (Nat × Nat)} {refused : Option (Nat × Nat)}

theorem asRequested_passed (ranges : List (Nat × Nat)) (k : Nat) (packet : PacketState) :
    (packet.passed params now packetId position limit ranges k).asRequested params now = packet.asRequested params now := by
  unfold PacketState.passed PacketState.armed
  split
  · rfl
  · split
    · split <;> rfl
    · rfl

theorem passed_eq_id {ranges : List (Nat × Nat)} {k : Nat} (uncovered : ¬ Covered ranges k)
    (outside : ¬ (position ≤ k ∧ k < limit ∧ k ≤ packetId)) :
    PacketState.passed params now packetId position limit ranges k = id := by
  funext packet
  rw [PacketState.passed, if_neg uncovered, if_neg outside, id]

theorem passed_received (ranges : List (Nat × Nat)) (k : Nat) (packet : PacketState) :
    (packet.passed params now packetId position limit ranges k).received = packet.received := by
  unfold PacketState.passed PacketState.armed
  split
  · rfl
  · split
    · split <;> rfl
    · rfl

theorem passed_passed {middle k : Nat} (before : position ≤ middle) (behind : middle ≤ limit)
    (covered : Covered taken k → k < middle) (packet : PacketState) :
    (packet.passed params now packetId position middle taken k).passed params now packetId middle limit rest k =
      packet.passed params now packetId position limit (taken ++ rest) k := by
  by_cases inRest : Covered rest k
  · have both : Covered (taken ++ rest) k := (covered_append taken rest k).mpr (.inr inRest)
    rw [PacketState.passed, if_pos inRest, asRequested_passed, PacketState.passed, if_pos both]
  by_cases inTaken : Covered taken k
  · have both : Covered (taken ++ rest) k := (covered_append taken rest k).mpr (.inl inTaken)
    have earlier := covered inTaken
    rw [passed_eq_id inRest (by omega), id, PacketState.passed, if_pos inTaken, PacketState.passed, if_pos both]
  have uncovered : ¬ Covered (taken ++ rest) k := fun both => ((covered_append taken rest k).mp both).elim inTaken inRest
  by_cases earlier : k < middle
  · rw [passed_eq_id inRest (by omega), id, PacketState.passed, PacketState.passed, if_neg inTaken, if_neg uncovered]
    exact if_congr (by omega) rfl rfl
  · rw [passed_eq_id inTaken (by omega), id, PacketState.passed, PacketState.passed, if_neg inRest, if_neg uncovered]
    exact if_congr (by omega) rfl rfl


/-- Where a pass over the holes stands before it looks at `position`: the range
being extended begins before it. -/
structure Walking (packetId position : Nat) (scan : HoleScan) : Prop where
  inPackets : packetId < scan.frame.slot.packets.length
  before : ∀ first, scan.firstMissing = some first → first < position

/-- A pass over the packets from `position` to before `limit` took these ranges,
and was refused one if it ended early. -/
structure HoleScan.Passes (params : StreamParams) (now packetId position limit : Nat) (taken : List (Nat × Nat))
    (refused : Option (Nat × Nat)) (scan later : HoleScan) : Prop where
  forward : position ≤ limit
  covered : ∀ k, Covered taken k → k < limit
  ranges : later.ranges = scan.ranges ++ taken
  frame : later.frame = { scan.frame.withPackets later.frame.slot.packets with
    nResendRequests := scan.frame.nResendRequests + rangesSize taken + rangesSize refused.toList
    resendRatioReached := scan.frame.resendRatioReached || refused.isSome }
  packets : ∀ k : Nat, later.frame.slot.packets[k]? =
    scan.frame.slot.packets[k]?.map (PacketState.passed params now packetId position limit taken k)

namespace HoleScan.Passes

theorem nResendRequests (passes : Passes params now packetId position limit taken refused scan later) :
    later.frame.nResendRequests = scan.frame.nResendRequests + rangesSize taken + rangesSize refused.toList := by
  rw [passes.frame]

theorem ratioReached (passes : Passes params now packetId position limit taken refused scan later) :
    later.frame.resendRatioReached = (scan.frame.resendRatioReached || refused.isSome) := by
  rw [passes.frame]

theorem requested (passes : Passes params now packetId position limit taken refused scan later) {k : Nat}
    (inside : Covered taken k → k < scan.frame.slot.packets.length) :
    isRequested later.frame.slot.packets k = true ↔ isRequested scan.frame.slot.packets k = true ∨ Covered taken k := by
  unfold isRequested
  rw [passes.packets]
  cases held : scan.frame.slot.packets[k]? with
  | none =>
    have outside := List.getElem?_eq_none_iff.mp held
    exact iff_of_false Bool.false_ne_true fun either =>
      either.elim Bool.false_ne_true fun covered => absurd (inside covered) (by omega)
  | some packet =>
    rw [Option.map_some, Option.any_some, Option.any_some]
    by_cases covered : Covered taken k
    · simp [PacketState.passed, covered, PacketState.asRequested]
    · unfold PacketState.passed PacketState.armed
      rw [if_neg covered]
      split
      · split <;> simp [covered]
      · simp [covered]

theorem scanned (passes : Passes params now packetId position limit taken refused scan later) :
    Scanned scan.frame later.frame := by
  have flags : later.frame.slot.packets.map (·.received) = scan.frame.slot.packets.map (·.received) := by
    refine List.ext_getElem? fun k => ?_
    rw [List.getElem?_map, List.getElem?_map, passes.packets, Option.map_map]
    congr 1
    exact funext fun packet => passed_received taken k packet
  have untouched := (Untouched.withPackets flags).trans (.bookkeeping _ scan.frame.lastPacketTime scan.frame.absorbed
    later.frame.nResendRequests scan.frame.resendDisabled later.frame.resendRatioReached)
  rw [passes.frame] at untouched ⊢
  exact ⟨untouched, rfl, rfl⟩

theorem trans {middle : Nat} (first : Passes params now packetId position middle taken none scan later)
    (second : Passes params now packetId middle limit rest refused later last) :
    Passes params now packetId position limit (taken ++ rest) refused scan last where
  forward := first.forward.trans second.forward
  covered k both := ((covered_append taken rest k).mp both).elim
    (fun earlier => (first.covered k earlier).trans_le second.forward) (second.covered k)
  ranges := by rw [second.ranges, first.ranges, List.append_assoc]
  frame := by
    have spent := first.nResendRequests
    rw [Option.toList_none, rangesSize_nil, Nat.add_zero] at spent
    have reached := first.ratioReached
    rw [Option.isSome_none, Bool.or_false] at reached
    have same : ∀ packets spent reached,
        { later.frame.withPackets packets with nResendRequests := spent, resendRatioReached := reached } =
          { scan.frame.withPackets packets with nResendRequests := spent, resendRatioReached := reached } := by
      intro packets spent reached
      rw [first.frame]
      rfl
    rw [rangesSize_append, ← Nat.add_assoc, ← spent, ← reached, ← same]
    exact second.frame
  packets k := by
    rw [second.packets, first.packets, Option.map_map]
    congr 1
    exact funext fun packet => passed_passed first.forward second.forward (first.covered k) packet

end HoleScan.Passes

/-- The scan once it has come by the packet at `position`. -/
def HoleScan.look (params : StreamParams) (now packetId position : Nat) (scan : HoleScan) : HoleScan :=
  let packets := scan.frame.slot.packets.mapIdx (PacketState.passed params now packetId position (position + 1) [])
  { scan with frame := scan.frame.withPackets packets }

theorem needResend_eq (params : StreamParams) (now position : Nat) (inPackets : packetId < scan.frame.slot.packets.length) :
    scan.needResend params now packetId position =
      .ok (scan.look params now packetId position, scan.frame.due now packetId position) := by
  have looked : ∀ packets, (∀ k : Nat, packets[k]? = scan.frame.slot.packets[k]?.map
      (PacketState.passed params now packetId position (position + 1) [] k)) →
      { scan with frame := scan.frame.withPackets packets } = scan.look params now packetId position := by
    intro packets same
    have whole : packets =
        scan.frame.slot.packets.mapIdx (PacketState.passed params now packetId position (position + 1) []) :=
      List.ext_getElem? fun k => by rw [same, List.getElem?_mapIdx]
    rw [whole, HoleScan.look]
  unfold HoleScan.needResend
  by_cases inSpan : position ≤ packetId
  · have inside : position < scan.frame.slot.packets.length := by omega
    have armed : ∀ k : Nat, (scan.frame.slot.packets.set position ((scan.frame.slot.packets[position]).armed params now))[k]? =
        scan.frame.slot.packets[k]?.map (PacketState.passed params now packetId position (position + 1) [] k) := by
      intro k
      by_cases here : k = position
      · subst here
        rw [List.getElem?_set_self inside, List.getElem?_eq_getElem inside, Option.map_some, PacketState.passed,
          if_neg (covered_nil k), if_pos ⟨le_rfl, Nat.lt_succ_self k, inSpan⟩]
      · rw [List.getElem?_set_ne (Ne.symm here), passed_eq_id (covered_nil k) (by omega), Option.map_id, id]
    rw [if_pos inSpan, Checked.get_lt inside, Checked.ok_bind, FrameInFlight.due, decide_eq_true inSpan,
      List.getElem?_eq_getElem inside, Option.any_some, Bool.true_and]
    unfold PacketState.armed at armed
    cases received : (scan.frame.slot.packets[position]).received with
    | true =>
      rw [received, if_pos rfl, List.set_getElem_self] at armed
      rw [← looked _ armed]
      rfl
    | false =>
      rw [received, if_neg Bool.false_ne_true] at armed
      rw [← looked _ armed]
      cases (scan.frame.slot.packets[position]).resendDeadline with
      | none => simp [Nat.not_lt.mpr (Nat.le_add_right ..)] ; rfl
      | some deadline => rfl
  · rw [if_neg inSpan, FrameInFlight.due, decide_eq_false inSpan, Bool.false_and, ← looked scan.frame.slot.packets]
    · rfl
    · intro k
      rw [passed_eq_id (covered_nil k) (by omega), Option.map_id, id]

theorem look_passes (params : StreamParams) (now packetId position : Nat) (scan : HoleScan) :
    scan.Passes params now packetId position (position + 1) [] none (scan.look params now packetId position) where
  forward := Nat.le_succ position
  covered k none_taken := absurd none_taken (covered_nil k)
  ranges := (List.append_nil _).symm
  frame := by
    rw [Option.isSome_none, Bool.or_false]
    rfl
  packets _ := List.getElem?_mapIdx

theorem openRange_passes (needed : Bool) (passes : scan.Passes params now packetId position limit taken refused later) :
    scan.Passes params now packetId position limit taken refused (later.openRange position needed) := by
  unfold HoleScan.openRange
  split
  · exact ⟨passes.forward, passes.covered, passes.ranges, passes.frame, passes.packets⟩
  · exact passes

theorem closeRange_passes (params : StreamParams) (now packetId : Nat) (scan : HoleScan) {first : Nat}
    (earlier : first < position) (inPackets : position ≤ scan.frame.slot.packets.length) :
    maxRequests < scan.frame.nResendRequests + (position - 1 - first + 1) ∧
        (∃ later, (scan.look params now packetId position).closeRange params now maxRequests first (position - 1) =
            .ok (later, true) ∧
          scan.Passes params now packetId position (position + 1) [] (some (first, position - 1)) later) ∨
      ¬ maxRequests < scan.frame.nResendRequests + (position - 1 - first + 1) ∧
        ∃ later, (scan.look params now packetId position).closeRange params now maxRequests first (position - 1) =
            .ok (later, false) ∧ later.firstMissing = none ∧
          scan.Passes params now packetId position (position + 1) [(first, position - 1)] none later := by
  unfold HoleScan.closeRange
  rw [Checked.sub_ok (by omega), Checked.ok_bind]
  by_cases beyond : maxRequests < scan.frame.nResendRequests + (position - 1 - first + 1)
  · refine .inl ⟨beyond, _, if_pos beyond, Nat.le_succ position, fun k none_taken => absurd none_taken (covered_nil k),
      (List.append_nil _).symm, ?_, fun _ => List.getElem?_mapIdx⟩
    rw [Option.isSome_some, Bool.or_true, rangesSize_nil]
    rfl
  · have sized : position - 1 < ((scan.look params now packetId position).count (position - 1 - first + 1)).frame.slot.packets.length := by
      show position - 1 < (List.mapIdx _ _).length
      rw [List.length_mapIdx]
      omega
    have covered : ∀ k, Covered [(first, position - 1)] k ↔ first ≤ k ∧ k ≤ position - 1 := fun k => by
      rw [covered_cons, or_iff_left (covered_nil k)]
    have within : ¬ maxRequests <
        ((scan.look params now packetId position).count (position - 1 - first + 1)).frame.nResendRequests := beyond
    simp only
    rw [if_neg within, HoleScan.request, if_pos ⟨by omega, sized⟩]
    refine .inr ⟨beyond, _, rfl, rfl, Nat.le_succ position, fun k isCovered => ?_, rfl, ?_, fun k => ?_⟩
    · have := (covered k).mp isCovered
      omega
    · rw [Option.isSome_none, Bool.or_false]
      rfl
    · refine List.getElem?_mapIdx.trans ((congrArg (Option.map _) List.getElem?_mapIdx).trans ?_)
      rw [Option.map_map]
      congr 1
      funext packet
      simp only [Function.comp_apply]
      by_cases inRange : first ≤ k ∧ k ≤ position - 1
      · have asked : packet.passed params now packetId position (position + 1) [(first, position - 1)] k =
            packet.asRequested params now := if_pos ((covered k).mpr inRange)
        rw [if_pos inRange, asked]
        exact asRequested_passed [] k packet
      · rw [if_neg inRange, PacketState.passed, PacketState.passed, if_neg (covered_nil k),
          if_neg (mt (covered k).mp inRange)]

theorem visit_eq (params : StreamParams) (now maxRequests : Nat) (walking : Walking packetId position scan) :
    scan.visit params now packetId maxRequests position =
      if scan.frame.due now packetId position then
        .ok ((scan.look params now packetId position).openRange position true, false)
      else match scan.firstMissing with
        | none => .ok (scan.look params now packetId position, false)
        | some first => (scan.look params now packetId position).closeRange params now maxRequests first (position - 1) := by
  rw [HoleScan.visit, needResend_eq params now position walking.inPackets, Checked.ok_bind]
  simp only
  cases isDue : scan.frame.due now packetId position with
  | true =>
    have inSpan : position ≤ packetId := of_decide_eq_true (Bool.and_eq_true_iff.mp isDue).1
    rw [if_neg (by simpa using inSpan), if_pos rfl]
    rfl
  | false =>
    have unopened : ∀ looked : HoleScan, looked.openRange position false = looked := fun _ => if_neg (by simp)
    have same : (scan.look params now packetId position).firstMissing = scan.firstMissing := rfl
    rw [if_pos (.inr rfl), if_neg Bool.false_ne_true, unopened, same]
    cases pending : scan.firstMissing with
    | none => rfl
    | some first =>
      have earlier := walking.before first pending
      simp only [Checked.sub_ok (show 1 ≤ position by omega), Checked.ok_bind]

theorem HoleScan.Passes.inPackets (passes : scan.Passes params now packetId position limit taken refused later)
    (inside : packetId < scan.frame.slot.packets.length) : packetId < later.frame.slot.packets.length := by
  rw [passes.scanned.packets_length]
  exact inside

theorem HoleScan.Passes.dueRuns_eq (passes : scan.Passes params now packetId position limit taken refused later)
    (fuel : Nat) (pending : Option Nat) :
    dueRuns (later.frame.due now packetId) fuel limit pending = dueRuns (scan.frame.due now packetId) fuel limit pending := by
  refine dueRuns_congr fuel limit pending fun k behind => ?_
  have uncovered : ¬ Covered taken k := fun covered => absurd (passes.covered k covered) (by omega)
  rw [FrameInFlight.due, passes.packets, passed_eq_id uncovered (by omega), Option.map_id, id, ← FrameInFlight.due]

theorem walk_passes (params : StreamParams) (now maxRequests fuel : Nat) : ∀ (position : Nat) (scan : HoleScan),
    Walking packetId position scan → fuel ≤ packetId + 2 - position →
    ∃ later limit taken refused, HoleScan.walk params now packetId maxRequests fuel position scan =
        .ok (later, refused.isSome) ∧
      spend maxRequests scan.frame.nResendRequests
        (dueRuns (scan.frame.due now packetId) fuel position scan.firstMissing) = (taken, refused) ∧
      scan.Passes params now packetId position limit taken refused later ∧ (refused = none → limit = position + fuel) := by
  induction fuel with
  | zero =>
    intro position scan _ _
    refine ⟨scan, position, [], none, rfl, rfl, ⟨le_rfl, fun k none_taken => absurd none_taken (covered_nil k),
      (List.append_nil _).symm, ?_, fun k => ?_⟩, fun _ => rfl⟩
    · rw [Option.isSome_none, Bool.or_false]
      rfl
    · rw [passed_eq_id (covered_nil k) (by omega), Option.map_id, id]
  | succ fuel ih =>
    intro position scan walking inSpan
    -- The pass goes on behind the packet after a step that was refused nothing.
    have goOn : ∀ {next : HoleScan} {taken : List (Nat × Nat)} (pending : Option Nat),
        scan.Passes params now packetId position (position + 1) taken none next → next.firstMissing = pending →
        (∀ first, pending = some first → first < position + 1) →
        ∃ later limit rest refused, HoleScan.walk params now packetId maxRequests fuel (position + 1) next =
            .ok (later, refused.isSome) ∧
          spend maxRequests (scan.frame.nResendRequests + rangesSize taken)
            (dueRuns (scan.frame.due now packetId) fuel (position + 1) pending) = (rest, refused) ∧
          scan.Passes params now packetId position limit (taken ++ rest) refused later ∧
          (refused = none → limit = position + (fuel + 1)) := by
      intro next taken pending passes isPending before
      subst isPending
      obtain ⟨later, limit, rest, refused, walked, spent, onwards, reached⟩ :=
        ih (position + 1) next ⟨passes.inPackets walking.inPackets, before⟩ (by omega)
      rw [passes.dueRuns_eq, passes.nResendRequests] at spent
      exact ⟨later, limit, rest, refused, walked, spent, passes.trans onwards, fun last => by rw [reached last]; omega⟩
    have looks := look_passes params now packetId position scan
    rw [HoleScan.walk, visit_eq params now maxRequests walking]
    cases isDue : scan.frame.due now packetId position with
    | true =>
      have pending : ((scan.look params now packetId position).openRange position true).firstMissing =
          some (scan.firstMissing.getD position) := by
        unfold HoleScan.openRange HoleScan.look
        cases scan.firstMissing <;> rfl
      rw [dueRuns_due isDue]
      exact goOn _ (openRange_passes true looks) pending fun first isFirst => by
        cases isFirst
        exact getD_lt walking.before
    | false =>
      cases pending : scan.firstMissing with
      | none =>
        rw [dueRuns_none isDue]
        exact goOn none looks pending nofun
      | some first =>
        have earlier := walking.before first pending
        have inPackets := walking.inPackets
        rw [dueRuns_some isDue]
        simp only [Bool.false_eq_true, if_false]
        rcases closeRange_passes params now packetId scan earlier (by omega) with
          ⟨beyond, later, closes, passes⟩ | ⟨fits, next, closes, closed, passes⟩
        · rw [closes]
          refine ⟨later, position + 1, [], some (first, position - 1), rfl, ?_, passes, nofun⟩
          rw [spend, if_pos beyond]
        · obtain ⟨later, limit, rest, refused, walked, spent, onwards, reached⟩ := goOn none passes closed nofun
          rw [closes]
          refine ⟨later, limit, (first, position - 1) :: rest, refused, walked, ?_, onwards, reached⟩
          have size : rangesSize [(first, position - 1)] = position - 1 - first + 1 := Nat.add_zero _
          rw [size] at spent
          rw [spend, if_neg fits, spent]

end Pass

/-! ## The pass as a whole -/

/-- The runs of due packets up to `packetId`, behind the received prefix. -/
def FrameInFlight.dueHoles (now packetId : Nat) (frame : FrameInFlight) : List (Nat × Nat) :=
  let start := (frame.lastValidPacket + 1).toNat
  dueRuns (frame.due now packetId) (packetId + 2 - start) start none

theorem dueHoles_apart (now packetId : Nat) (frame : FrameInFlight) :
    (frame.dueHoles now packetId).Pairwise (fun a b => a.2 < b.1) ∧
      ∀ run ∈ frame.dueHoles now packetId, run.1 ≤ run.2 := by
  obtain ⟨apart, ordered⟩ := dueRuns_apart (frame.due now packetId)
    (packetId + 2 - (frame.lastValidPacket + 1).toNat) (frame.lastValidPacket + 1).toNat none
    fun first isFirst => by cases isFirst
  exact ⟨apart, fun run present => (ordered run present).2⟩

/-- The packets behind the received prefix, up to the one given, that are not
there and whose deadline was earlier. -/
def FrameInFlight.overdue (now packetId : Nat) (frame : FrameInFlight) (k : Nat) : Bool :=
  decide (frame.lastValidPacket < k) && frame.due now packetId k

section DueHoles

variable {params : StreamParams} {now packetId : Nat} {frame : FrameInFlight}

theorem overdue_bounds {k : Nat} (overdue : frame.overdue now packetId k = true) :
    (frame.lastValidPacket + 1).toNat ≤ k ∧ k ≤ packetId := by
  obtain ⟨behind, due⟩ := Bool.and_eq_true_iff.mp overdue
  have past := of_decide_eq_true behind
  have inSpan : k ≤ packetId := of_decide_eq_true (Bool.and_eq_true_iff.mp due).1
  omega

theorem overdue_eq_due {k : Nat} (behind : (frame.lastValidPacket + 1).toNat ≤ k) :
    frame.overdue now packetId k = frame.due now packetId k := by
  rw [FrameInFlight.overdue, decide_eq_true (by omega), Bool.true_and]

theorem due_past : frame.due now packetId (packetId + 1) = false := by
  rw [FrameInFlight.due, decide_eq_false (by omega), Bool.false_and]

theorem dueHoles_gapped (now packetId : Nat) (frame : FrameInFlight) : (frame.dueHoles now packetId).Pairwise fun a b => a.2 + 1 < b.1 :=
  dueRuns_gapped _ _ _ none nofun

theorem dueHoles_cases (now packetId : Nat) (frame : FrameInFlight) :
    (∃ fuel, packetId + 1 = (frame.lastValidPacket + 1).toNat + fuel ∧
      frame.due now packetId ((frame.lastValidPacket + 1).toNat + fuel) = false ∧
      frame.dueHoles now packetId =
        dueRuns (frame.due now packetId) (fuel + 1) (frame.lastValidPacket + 1).toNat none) ∨
    packetId + 1 < (frame.lastValidPacket + 1).toNat ∧ frame.dueHoles now packetId = [] := by
  simp only [FrameInFlight.dueHoles]
  by_cases some_left : (frame.lastValidPacket + 1).toNat ≤ packetId + 1
  · obtain ⟨fuel, steps⟩ := Nat.exists_eq_add_of_le some_left
    have span : packetId + 2 - (frame.lastValidPacket + 1).toNat = fuel + 1 := by omega
    refine .inl ⟨fuel, steps, ?_, by rw [span]⟩
    rw [← steps]
    exact due_past
  · have span : packetId + 2 - (frame.lastValidPacket + 1).toNat = 0 := by omega
    exact .inr ⟨by omega, by rw [span, dueRuns]⟩

theorem dueHoles_covers (k : Nat) : Covered (frame.dueHoles now packetId) k ↔ frame.overdue now packetId k = true := by
  rcases dueHoles_cases now packetId frame with ⟨fuel, steps, closed, runs⟩ | ⟨past, none_left⟩
  · rw [runs, dueRuns_covers fuel _ none nofun closed, Option.getD_none, or_iff_right (by omega)]
    constructor
    · rintro ⟨behind, _, due⟩
      rwa [overdue_eq_due behind]
    · intro overdue
      obtain ⟨behind, inSpan⟩ := overdue_bounds overdue
      rw [overdue_eq_due behind] at overdue
      exact ⟨behind, by omega, overdue⟩
  · rw [none_left]
    refine iff_of_false (covered_nil k) fun overdue => ?_
    have := overdue_bounds overdue
    omega

theorem dueHoles_size (inside : packetId < frame.nPackets) :
    rangesSize (frame.dueHoles now packetId) = (List.range frame.nPackets).countP (frame.overdue now packetId) := by
  rw [List.countP_eq_length_filter]
  rcases dueHoles_cases now packetId frame with ⟨fuel, steps, closed, runs⟩ | ⟨past, none_left⟩
  · rw [runs, dueRuns_size fuel _ none nofun closed, Option.getD_none, Nat.sub_self, Nat.zero_add,
      List.countP_eq_length_filter]
    refine List.Perm.length_eq ((List.perm_ext_iff_of_nodup (.filter _ List.nodup_range') (.filter _ List.nodup_range)).mpr ?_)
    intro k
    rw [List.mem_filter, List.mem_filter, List.mem_range'_1, List.mem_range]
    constructor
    · rintro ⟨⟨behind, _⟩, due⟩
      rw [← overdue_eq_due behind] at due
      have := overdue_bounds due
      exact ⟨by omega, due⟩
    · rintro ⟨_, overdue⟩
      obtain ⟨behind, inSpan⟩ := overdue_bounds overdue
      rw [overdue_eq_due behind] at overdue
      exact ⟨by omega, overdue⟩
  · rw [none_left, List.filter_eq_nil_iff.mpr]
    · rfl
    · intro k _ overdue
      have := overdue_bounds overdue
      omega

theorem findHoles_passes (bounds : InBounds params frame) (packetId now : Nat) :
    frame.findHoles params packetId now = .ok (frame, .skipped) ∨
      frame.resendRatioReached = false ∧ packetId < frame.nPackets ∧ ∃ scan limit taken refused,
        frame.findHoles params packetId now =
          .ok (scan.frame, if refused.isSome then .ratioReached else .requests scan.ranges) ∧
        spend (params.maxRequests frame.nPackets) frame.nResendRequests (frame.dueHoles now packetId) = (taken, refused) ∧
        (HoleScan.start frame).Passes params now packetId (frame.lastValidPacket + 1).toNat limit taken refused scan ∧
        (refused = none → packetId < limit) := by
  unfold FrameInFlight.findHoles
  by_cases off : (!params.resendEnabled) = true ∨ frame.resendDisabled = true ∨ frame.resendRatioReached = true
  · exact .inl (if_pos off)
  rw [if_neg off]
  by_cases outside : params.maxRequests frame.nPackets = 0 ∨ frame.nPackets ≤ packetId
  · exact .inl (if_pos outside)
  have unreached : frame.resendRatioReached = false := Bool.eq_false_iff.mpr fun reached => off (.inr (.inr reached))
  have inPackets : packetId < frame.slot.packets.length := by
    rw [bounds.packets_length]
    omega
  obtain ⟨scan, limit, taken, refused, walked, spent, passes, reached⟩ :=
    walk_passes params now (params.maxRequests frame.nPackets)
      (packetId + 2 - (frame.lastValidPacket + 1).toNat) (frame.lastValidPacket + 1).toNat (.start frame)
      ⟨inPackets, nofun⟩ le_rfl
  refine .inr ⟨unreached, by omega, scan, limit, taken, refused, (if_neg outside).trans ?_, spent, passes, fun last => ?_⟩
  · simp only [walked, Checked.ok_bind]
    cases refused <;> rfl
  · have := reached last
    omega

theorem findHoles_spec (params : StreamParams) (bounds : InBounds params frame) (packetId now : Nat) :
    ∃ later verdict, frame.findHoles params packetId now = .ok (later, verdict) ∧ Scanned frame later := by
  rcases findHoles_passes bounds packetId now with skipped | ⟨_, _, scan, _, _, _, result, _, passes, _⟩
  · exact ⟨frame, .skipped, skipped, .refl⟩
  · exact ⟨scan.frame, _, result, passes.scanned⟩

theorem findHoles_requests {after : FrameInFlight} {ranges : List (Nat × Nat)} (bounds : InBounds params frame)
    (result : frame.findHoles params packetId now = .ok (after, .requests ranges)) :
    (∀ range ∈ ranges, range.1 ≤ range.2 ∧ range.2 < frame.nPackets) ∧ rangesSize ranges ≤ frame.nPackets := by
  rcases findHoles_passes bounds packetId now with skipped | ⟨_, inside, scan, _, taken, refused, found, spent, passes, _⟩
  · nomatch result.symm.trans skipped
  · have part : (spend (params.maxRequests frame.nPackets) frame.nResendRequests (frame.dueHoles now packetId)).1.Sublist
        (frame.dueHoles now packetId) := spend_sublist
    rw [spent] at part
    cases refused with
    | some run => nomatch result.symm.trans found
    | none =>
      obtain ⟨rfl, same⟩ := Prod.mk.inj (Except.ok.inj (result.symm.trans found))
      cases same
      rw [passes.ranges]
      refine ⟨fun range present => ?_, ?_⟩
      · have ordered := (dueHoles_apart now packetId frame).2 range (part.subset present)
        have last := overdue_bounds ((dueHoles_covers range.2).mp ⟨range, part.subset present, ordered, le_rfl⟩)
        exact ⟨ordered, by omega⟩
      · refine ((part.map _).sum_le_sum fun _ _ => Nat.zero_le _).trans ?_
        refine (dueHoles_size inside).le.trans (List.countP_le_length.trans ?_)
        rw [List.length_range]

end DueHoles

end Telegenic.Stream
