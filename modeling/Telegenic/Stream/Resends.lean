import Telegenic.Stream.Integrity
import Telegenic.Stream.Requests

/-! Which packets one look at the holes marks as requested, and which requests
it hands out. The pass takes the runs of due packets in order while the budget
lasts. -/

set_option autoImplicit false

namespace Telegenic.Stream

open Library Proto Proto.Gvsp

/-! ## Runs of due packets -/

/-- All runs fit into what is left of the budget, or not even the first one
does. -/
def AllOrNone (budget spent : Nat) (runs : List (Nat × Nat)) : Prop :=
  spent + rangesSize runs ≤ budget ∨ ∀ run ∈ runs.head?, budget < spent + (run.2 - run.1 + 1)

instance (budget spent : Nat) (runs : List (Nat × Nat)) : Decidable (AllOrNone budget spent runs) :=
  inferInstanceAs (Decidable (_ ∨ _))

section Runs

variable {budget spent : Nat} {runs : List (Nat × Nat)}

theorem AllOrNone.spend_eq (fits : AllOrNone budget spent runs) :
    spend budget spent runs = (runs, none) ∨ ∃ run ∈ runs, spend budget spent runs = ([], some run) := by
  rcases fits with whole | first
  · exact .inl (spend_all whole)
  · cases runs with
    | nil => exact .inl rfl
    | cons run rest => exact .inr ⟨run, List.mem_cons_self, by rw [spend, if_pos (first run rfl)]⟩

end Runs

/-! ## The requests sent -/

def requestedPackets (requests : List ResendRequest) : Nat :=
  rangesSize (requests.map fun request => (request.first, request.last))

theorem requestRanges_spec (frame : FrameInFlight) (ranges : List (Nat × Nat)) : ∀ (w : StreamWorld),
    ∃ requests : List ResendRequest, (ranges.foldl (StreamWorld.requestRange frame) w).journal =
        w.journal ++ requests.map .requested ∧
      requests.map (fun request => (request.first, request.last)) = ranges ∧
      (∀ request ∈ requests, request.frameId = frame.frameId ∧ request.extendedIds = frame.extendedIds) ∧
      (ranges.foldl (StreamWorld.requestRange frame) w).runner.stats.resendRequests =
        w.runner.stats.resendRequests + rangesSize ranges ∧
      (ranges.foldl (StreamWorld.requestRange frame) w).runner.stats.resendRatioReached =
        w.runner.stats.resendRatioReached ∧
      (ranges.foldl (StreamWorld.requestRange frame) w).runner.frames = w.runner.frames := by
  induction ranges with
  | nil => exact fun w => ⟨[], (List.append_nil _).symm, rfl, fun _ present => absurd present List.not_mem_nil, rfl, rfl,
      rfl⟩
  | cons range rest ih =>
    intro w
    obtain ⟨requests, journal, same, named, counted, ratio, frames⟩ := ih (StreamWorld.requestRange frame w range)
    refine ⟨⟨frame.frameId, range.1, range.2, frame.extendedIds, StreamWorld.nextResendId w.runner.resendId⟩ ::
      requests, ?_, congrArg (range :: ·) same, ?_, ?_, ratio, frames⟩
    · refine journal.trans ?_
      rw [List.map_cons, List.append_cons]
      rfl
    · intro request present
      rcases List.mem_cons.mp present with rfl | later
      · exact ⟨rfl, rfl⟩
      · exact named request later
    · refine counted.trans ?_
      rw [rangesSize, rangesSize, List.map_cons, List.sum_cons, ← Nat.add_assoc]
      rfl

/-- A look at the holes of a frame asked for what it marked: the requests are
apart from each other, cover what is newly marked, and are what was counted.
The frame's own count also has the run that was refused, if one was. -/
structure Requested (now packetId : Nat) (frame after : FrameInFlight) (w later : StreamWorld)
    (requests : List ResendRequest) : Prop where
  journal : later.journal = w.journal ++ requests.map .requested
  named : ∀ request ∈ requests, request.frameId = frame.frameId ∧ request.extendedIds = frame.extendedIds ∧
    request.first ≤ request.last
  apart : requests.Pairwise fun earlier later => earlier.last < later.first
  marked : ∀ k, isRequested after.slot.packets k = true ↔
    isRequested frame.slot.packets k = true ∨ ∃ request ∈ requests, request.first ≤ k ∧ k ≤ request.last
  counted : later.runner.stats.resendRequests = w.runner.stats.resendRequests + requestedPackets requests
  spent : after.nResendRequests = frame.nResendRequests + requestedPackets requests ∧
      after.resendRatioReached = frame.resendRatioReached ∧
      later.runner.stats.resendRatioReached = w.runner.stats.resendRatioReached ∨
    frame.resendRatioReached = false ∧ after.resendRatioReached = true ∧
      later.runner.stats.resendRatioReached = w.runner.stats.resendRatioReached + 1 ∧
      ∃ refused ∈ frame.dueHoles now packetId,
        after.nResendRequests = frame.nResendRequests + requestedPackets requests + (refused.2 - refused.1 + 1)

/-- A stream whose packets carry one byte each, with a budget for requests. -/
def budgeted (requests : Nat) : StreamParams :=
  { smallStream with scpsPacketSize := 37, resendEnabled := true, maxRequests := fun _ => requests, frameRetention := 10 }

def arrivingAt (now : Nat) (datagram : List UInt8) : StreamInput := .packet { datagram := datagram } now 0 []

def twoHoles : List StreamInput :=
  [arrivingAt 0 [0, 0, 0, 1, 1, 0, 0, 0, 0, 0, 0, 1, 0, 0, 0, 0, 0, 0, 0, 0], arrivingAt 0 [0, 0, 0, 1, 3, 0, 0, 2, 10],
    arrivingAt 0 [0, 0, 0, 1, 3, 0, 0, 4, 11]]

/-- For each frame in flight the packets marked as requested and its count of
requests; then the requests sent and how many packets they were counted for. -/
def StreamWorld.resends (w : StreamWorld) : List (List Nat × Nat) × List ResendRequest × Nat :=
  (w.runner.frames.map fun frame =>
      ((List.range frame.nPackets).filter (isRequested frame.slot.packets), frame.nResendRequests),
    w.journal.filterMap fun
      | .requested request => some request
      | _ => none,
    w.runner.stats.resendRequests)

end Telegenic.Stream
