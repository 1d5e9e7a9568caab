import Telegenic.Stream.Collect
import Telegenic.Stream.Completion

/-! The receiver follows the device: what it has in flight, remembers and has
delivered is what the sheet of the packets that arrived says. -/

set_option autoImplicit false

namespace Telegenic.Stream

open Library Proto Proto.Gvsp

structure Outcome where
  frameId : Nat
  status : FrameStatus
  payload : PayloadKind
  data : List UInt8
  deriving DecidableEq, Repr

def Frame.outcome (frame : Frame) : Outcome := ⟨frame.frameId, frame.status, frame.payload, frame.data⟩

def Device.outcomes (device : Device) : List Outcome :=
  device.frames.mapIdx fun j sent => ⟨device.frameId j, .complete, sent.payloadKind, sent.data⟩

namespace StreamWorld

/-- How far ahead of the receiver's position a block id is. Whatever id comes
first counts as the next one. -/
def approach (frameId : Nat) (extendedIds : Bool) (w : StreamWorld) : Int :=
  if w.runner.firstPacket then 1 else blockIdDistance frameId w.runner.lastFrameId extendedIds

def recalls (frameId : Nat) (extendedIds : Bool) (w : StreamWorld) : Option ClosedBlock :=
  w.runner.history.reverse.find? fun closed => closed.frameId == frameId && closed.extendedIds == extendedIds

/-- A block id no frame in flight has is taken for a new frame's. -/
def Admits (frameId : Nat) (extendedIds : Bool) (w : StreamWorld) : Prop :=
  1 ≤ w.approach frameId extendedIds ∨ w.approach frameId extendedIds ≤ -discardLateFrameThreshold ∨
    frameId = restartBlockId ∧ w.recalls frameId extendedIds = none

end StreamWorld

/-- What the receiver had before the device's first frame. `lead` ids are
skipped before that frame; `forgiven` repeats of its packets are not counted. -/
structure Origin where
  history : List ClosedBlock
  delivered : List Outcome
  tally : Tally
  replays : Nat
  lead : Nat
  forgiven : Nat

def Origin.missing (origin : Origin) (device : Device) : Nat → Nat
  | 0 => 0
  | j + 1 => origin.lead + device.skipped j

def StreamWorld.origin (frameId : Nat) (extendedIds : Bool) (w : StreamWorld) : Origin :=
  { history := w.runner.history
    delivered := (deliveredFrames w.journal).map Frame.outcome
    tally := w.runner.stats.tally
    replays := replays w.journal
    lead := (w.approach frameId extendedIds).toNat - 1
    forgiven := 0 }

section Relation

variable (params : StreamParams) (device : Device) (origin : Origin)

structure Pending (arrived : Nat → List Nat) (j : Nat) (frame : FrameInFlight) : Prop where
  real : frame.replayOf = none
  frameId : frame.frameId = device.frameId j
  extendedIds : frame.extendedIds = device.extendedIds
  collects : ∃ sent, device.frames[j]? = some sent ∧ Collects params sent (arrived j) frame

structure Echo (sheet : Sheet) (j : Nat) (frame : FrameInFlight) : Prop where
  closed : j < sheet.closed
  recent : device.offset (sheet.opened - 1) < device.offset j + 100
  restart : device.frameId j = restartBlockId
  frameId : frame.frameId = device.frameId j
  replay : ∃ sent known copies, device.frames[j]? = some sent ∧ frame.replayOf = some known ∧
    Agrees params sent known ∧ Collects params sent copies frame

structure Remembers (j : Nat) (block : ClosedBlock) : Prop where
  frameId : block.frameId = device.frameId j
  extendedIds : block.extendedIds = device.extendedIds
  fingerprints : ∃ sent known, device.frames[j]? = some sent ∧ block.fingerprints = some known ∧
    Agrees params sent known

def InFlight (sheet : Sheet) (frames : List FrameInFlight) : Prop :=
  ∃ pending echoes, frames = pending ++ echoes ∧
    List.Forall₂ (Pending params device sheet.arrived) (List.range' sheet.closed (sheet.opened - sheet.closed)) pending ∧
    ∀ frame ∈ echoes, ∃ j, Echo params device sheet j frame

structure Tallies (sheet : Sheet) (tally : Tally) : Prop where
  duplicated : tally.duplicated + origin.forgiven = origin.tally.duplicated + sheet.duplicates
  ignored : tally.ignored = origin.tally.ignored + sheet.late
  failed : tally.failed = origin.tally.failed
  missing : tally.missing = origin.tally.missing + origin.missing device sheet.opened
  unsupported : tally.unsupported = origin.tally.unsupported

structure Follows (sheet : Sheet) (w : StreamWorld) : Prop where
  wellformed : Wellformed params w
  inFlight : InFlight params device sheet w.runner.frames
  distinct : ∀ i j, sheet.closed ≤ i → i < j → j < sheet.opened → device.frameId i ≠ device.frameId j
  unstarted : sheet.opened = 0 → w.Admits device.firstId device.extendedIds ∧
    (w.approach device.firstId device.extendedIds).toNat - 1 = origin.lead
  started : sheet.opened ≠ 0 →
    w.runner.firstPacket = false ∧ w.runner.lastFrameId = device.frameId (sheet.opened - 1)
  history : ∃ past, List.Forall₂ (Remembers params device) (List.range sheet.closed) past ∧
    w.runner.history <:+ origin.history ++ past ∧ min past.length historyLen ≤ w.runner.history.length
  delivered : (deliveredFrames w.journal).map Frame.outcome = origin.delivered ++ device.outcomes.take sheet.closed
  replays : replays w.journal ≤ origin.replays + sheet.late
  tally : Tallies device origin sheet w.runner.stats.tally

end Relation

section Frames

variable {params : StreamParams} {device : Device} {sheet : Sheet} {arrived : Nat → List Nat} {j : Nat}
  {frame after : FrameInFlight}

theorem Pending.provisional (pending : Pending params device arrived j frame) : frame.provisional = false := by
  rw [FrameInFlight.provisional, pending.real]
  rfl

theorem Echo.provisional (echo : Echo params device sheet j frame) : frame.provisional = true := by
  obtain ⟨_, known, _, _, isReplay, _⟩ := echo.replay
  rw [FrameInFlight.provisional, isReplay]
  rfl

theorem Pending.untouched (pending : Pending params device arrived j frame) (same : Untouched frame after) :
    Pending params device arrived j after := by
  obtain ⟨sent, isSent, collects⟩ := pending.collects
  exact ⟨same.replayOf.trans pending.real, same.frameId.trans pending.frameId,
    same.extendedIds.trans pending.extendedIds, sent, isSent, collects.untouched same⟩

theorem Echo.untouched (echo : Echo params device sheet j frame) (same : Untouched frame after) :
    Echo params device sheet j after := by
  obtain ⟨sent, known, copies, isSent, isReplay, agrees, collects⟩ := echo.replay
  exact ⟨echo.closed, echo.recent, echo.restart, same.frameId.trans echo.frameId,
    sent, known, copies, isSent, same.replayOf.trans isReplay, agrees, collects.untouched same⟩

theorem Pending.allReceived_iff (pending : Pending params device sheet.arrived j frame) :
    frame.allReceived = true ↔ device.complete sheet j = true := by
  obtain ⟨sent, isSent, collects⟩ := pending.collects
  rw [Device.complete_iff isSent]
  exact collects.allReceived_iff

theorem Pending.congr {other : Nat → List Nat} (pending : Pending params device arrived j frame)
    (same : other j = arrived j) : Pending params device other j frame := by
  refine ⟨pending.real, pending.frameId, pending.extendedIds, ?_⟩
  rw [same]
  exact pending.collects

theorem Echo.later {other : Sheet} (echo : Echo params device sheet j frame) (closed : sheet.closed ≤ other.closed)
    (opened : other.opened = sheet.opened) : Echo params device other j frame :=
  ⟨echo.closed.trans_le closed, opened ▸ echo.recent, echo.restart, echo.frameId, echo.replay⟩

theorem Thinned.echoes {echoes later : List FrameInFlight} (thinned : Thinned echoes later)
    (isEcho : ∀ frame ∈ echoes, ∃ j, Echo params device sheet j frame) :
    ∀ frame ∈ later, ∃ j, Echo params device sheet j frame := by
  induction thinned with
  | nil => exact isEcho
  | @kept frame after rest later untouched _ ih =>
    intro other present
    rcases List.mem_cons.mp present with rfl | inRest
    · obtain ⟨j, echo⟩ := isEcho frame List.mem_cons_self
      exact ⟨j, echo.untouched untouched⟩
    · exact ih (fun frame present => isEcho frame (List.mem_cons_of_mem _ present)) other inRest
  | dropped _ _ ih => exact ih fun frame present => isEcho frame (List.mem_cons_of_mem _ present)

theorem InFlight.thinned {frames later : List FrameInFlight} (inFlight : InFlight params device sheet frames)
    (thinned : Thinned frames later) : InFlight params device sheet later := by
  obtain ⟨pending, echoes, rfl, isPending, isEcho⟩ := inFlight
  unfold InFlight
  generalize List.range' sheet.closed (sheet.opened - sheet.closed) = ids at isPending ⊢
  induction isPending generalizing later with
  | nil => exact ⟨[], later, rfl, .nil, thinned.echoes isEcho⟩
  | @cons j frame ids pending isFrame _ ih =>
    cases thinned with
    | kept untouched thinned =>
      obtain ⟨pending', echoes', rfl, still, echo⟩ := ih thinned
      exact ⟨_ :: pending', echoes', rfl, .cons (isFrame.untouched untouched) still, echo⟩
    | dropped provisional thinned =>
      rw [isFrame.provisional] at provisional
      cases provisional

end Frames

section Closing

variable {params : StreamParams} {device : Device} {origin : Origin} {sheet : Sheet} {frame : FrameInFlight}
  {w later : StreamWorld}

theorem Follows.steady {arrived : Nat → List Nat} (follows : Follows params device origin sheet w)
    (steady : Steady w later) (wellformed : Wellformed params later)
    (inFlight : InFlight params device { sheet with arrived := arrived } later.runner.frames) :
    Follows params device origin { sheet with arrived := arrived } later := by
  refine ⟨wellformed, inFlight, follows.distinct, ?_, ?_, ?_, ?_, ?_, ?_⟩
  · simp only [StreamWorld.Admits, StreamWorld.approach, StreamWorld.recalls, steady.firstPacket, steady.lastFrameId,
      steady.history]
    exact follows.unstarted
  · rw [steady.firstPacket, steady.lastFrameId]
    exact follows.started
  · rw [steady.history]
    exact follows.history
  · rw [steady.delivered]
    exact follows.delivered
  · rw [steady.replays]
    exact follows.replays
  · rw [steady.tally]
    obtain ⟨duplicated, ignored, failed, missing, unsupported⟩ := follows.tally
    exact ⟨duplicated, ignored, failed, missing, unsupported⟩

theorem Follows.thinned (follows : Follows params device origin sheet w) (steady : Steady w later)
    (wellformed : Wellformed params later) (thinned : Thinned w.runner.frames later.runner.frames) :
    Follows params device origin sheet later :=
  follows.steady steady wellformed (follows.inFlight.thinned thinned)

theorem suffix_snoc {Value : Type} {limit : Nat} {past kept before : List Value} (value : Value)
    (suffix : kept <:+ before ++ past) (enough : min past.length limit ≤ kept.length) :
    (if limit ≤ kept.length then kept.drop 1 else kept) ++ [value] <:+ before ++ (past ++ [value]) ∧
      min (past ++ [value]).length limit ≤
        ((if limit ≤ kept.length then kept.drop 1 else kept) ++ [value]).length := by
  rw [← List.append_assoc]
  simp only [List.length_append, List.length_singleton]
  split
  · rename_i full
    obtain ⟨forgotten, split⟩ := (List.drop_suffix 1 kept).trans suffix
    refine ⟨⟨forgotten, by rw [← List.append_assoc, split]⟩, ?_⟩
    rw [List.length_drop]
    omega
  · rename_i room
    obtain ⟨forgotten, split⟩ := suffix
    exact ⟨⟨forgotten, by rw [← List.append_assoc, split]⟩, by omega⟩

theorem Device.outcomes_take {sent : SentFrame} {j : Nat} (isSent : device.frames[j]? = some sent) :
    device.outcomes.take (j + 1) =
      device.outcomes.take j ++ [⟨device.frameId j, .complete, sent.payloadKind, sent.data⟩] := by
  rw [List.take_add_one]
  congr 1
  simp [Device.outcomes, isSent]

theorem Follows.close (follows : Follows params device origin sheet w)
    (fits : ∀ sent ∈ device.frames, sent.Fits params)
    {rest echoes : List FrameInFlight} (frames : w.runner.frames = frame :: rest ++ echoes)
    (pending : Pending params device sheet.arrived sheet.closed frame) (isOpen : sheet.closed < sheet.opened)
    (others : List.Forall₂ (Pending params device sheet.arrived)
      (List.range' (sheet.closed + 1) (sheet.opened - (sheet.closed + 1))) rest)
    (isEcho : ∀ frame ∈ echoes, ∃ j, Echo params device sheet j frame)
    (complete : device.complete sheet sheet.closed = true)
    (closes : Closes params frame frame.finishedStatus w later) (wellformed : Wellformed params later)
    (erased : later.runner.frames = w.runner.frames.eraseIdx 0) :
    Follows params device origin { sheet with closed := sheet.closed + 1 } later := by
  obtain ⟨sent, isSent, collects⟩ := pending.collects
  have isFitting := fits sent (List.mem_of_getElem? isSent)
  have all := (Device.complete_iff isSent).mp complete
  obtain ⟨receivedSize, dataEnd⟩ := collects.finished_sizes all isFitting
  have finished : frame.finishedStatus = .complete := by
    rw [FrameInFlight.finishedStatus, collects.clean, Option.getD_none, if_pos (receivedSize.trans dataEnd.symm)]
  rw [finished] at closes
  refine ⟨wellformed, ⟨rest, echoes, ?_, others, ?_⟩, ?_, ?_, ?_, ?_, ?_, ?_, ?_⟩
  · rw [erased, frames]
    rfl
  · intro echo present
    obtain ⟨j, isEcho⟩ := isEcho echo present
    exact ⟨j, isEcho.later (Nat.le_succ _) rfl⟩
  · intro i j unclosed
    exact follows.distinct i j (Nat.le_of_succ_le unclosed)
  · intro none_open
    exact absurd none_open (by simp only; omega)
  · rw [closes.firstPacket, closes.lastFrameId]
    exact follows.started
  · obtain ⟨past, remembered, suffix, enough⟩ := follows.history
    have kept := suffix_snoc ⟨frame.frameId, frame.extendedIds, some frame.fingerprints⟩ suffix enough
    refine ⟨past ++ [⟨frame.frameId, frame.extendedIds, some frame.fingerprints⟩], ?_, ?_⟩
    · simp only [List.range_succ]
      exact List.rel_append remembered (.cons ⟨pending.frameId, pending.extendedIds,
        sent, frame.fingerprints, isSent, rfl, collects.fingerprints⟩ .nil)
    · rw [closes.history]
      exact kept
  · have shown : (frame.toFrame params .complete).outcome =
        ⟨device.frameId sheet.closed, .complete, sent.payloadKind, sent.data⟩ := by
      rw [Frame.outcome, collects.finished_data all isFitting]
      simp only [FrameInFlight.toFrame, pending.frameId, collects.payloadKind_eq (all 0 (Nat.succ_pos _))]
    rw [closes.delivered, List.map_append, follows.delivered, device.outcomes_take isSent, List.map_singleton, shown,
      List.append_assoc]
  · rw [closes.replays]
    exact follows.replays
  · rw [closes.tally]
    obtain ⟨duplicated, ignored, failed, missing, unsupported⟩ := follows.tally
    exact ⟨duplicated, ignored, failed, missing, unsupported⟩

def InTime (params : StreamParams) (now : Nat) (w : StreamWorld) : Prop :=
  ∀ frame ∈ w.runner.frames, frame.provisional = false → frame.quietFor now params.frameRetention = false

instance (params : StreamParams) (now : Nat) (w : StreamWorld) : Decidable (InTime params now w) :=
  inferInstanceAs (Decidable (∀ frame ∈ w.runner.frames, _))

theorem completionLoop_follows (now : Nat) (currentFrameId : Option Nat)
    (fits : ∀ sent ∈ device.frames, sent.Fits params) (fuel : Nat) : ∀ (sheet : Sheet) (w : StreamWorld),
      Follows params device origin sheet w → InTime params now w → w.runner.frames.length ≤ fuel →
      (params.resendEnabled = false → sheet.opened ≤ sheet.closed + 1) →
      ∃ later, StreamWorld.completionLoop params now currentFrameId fuel 0 true w = .ok later ∧
        Follows params device origin (device.closeHeads (sheet.opened - sheet.closed) sheet) later ∧
        w.fabric.pool.length ≤ later.fabric.pool.length := by
  induction fuel with
  | zero =>
    intro sheet w follows _ empty _
    obtain ⟨pending, echoes, frames, isPending, _⟩ := follows.inFlight
    have none_left : sheet.opened - sheet.closed = 0 := by
      have length := isPending.length_eq
      rw [frames, List.length_append] at empty
      rw [List.length_range'] at length
      omega
    rw [none_left]
    exact ⟨w, rfl, follows, le_rfl⟩
  | succ fuel ih =>
    intro sheet w follows inTime enough alone
    obtain ⟨pending, echoes, frames, isPending, isEcho⟩ := follows.inFlight
    cases count : sheet.opened - sheet.closed with
    | zero =>
      rw [count] at isPending
      cases isPending
      obtain ⟨later, rest, result, steady, wellformed, rest_frames, thinned⟩ :=
        StreamWorld.completionLoop_blocked (fuel + 1) [] echoes true w follows.wellformed frames
          (fun _ frame present => (isEcho frame present).elim fun j echo => echo.provisional)
      refine ⟨later, result, follows.thinned steady wellformed ?_, steady.pool⟩
      rw [frames, rest_frames]
      exact thinned
    | succ more =>
      rw [count, List.range'_succ] at isPending
      obtain ⟨frame, rest, isFrame, others, rfl⟩ := List.forall₂_cons_left_iff.mp isPending
      have found : w.runner.frames[0]? = some frame := by
        rw [frames]
        rfl
      rw [StreamWorld.completionLoop, if_pos (List.getElem?_eq_some_iff.mp found).1]
      rw [Device.closeHeads]
      cases complete : device.complete sheet sheet.closed with
      | true =>
        obtain ⟨next, result, closes, wellformed, erased⟩ := StreamWorld.completionStep_closes now currentFrameId
          follows.wellformed found isFrame.provisional (isFrame.allReceived_iff.mpr complete)
        rw [result, Checked.ok_bind, if_pos ⟨by omega, rfl⟩]
        have isMore : sheet.opened - (sheet.closed + 1) = more := by omega
        have next_follows := follows.close fits frames isFrame (by omega) (by rw [isMore]; exact others) isEcho
          complete closes wellformed erased
        have sublist : ∀ other ∈ next.runner.frames, other ∈ w.runner.frames := by
          rw [erased]
          exact fun other => List.mem_of_mem_eraseIdx
        have shorter : next.runner.frames.length ≤ fuel := by
          rw [erased, List.length_eraseIdx_of_lt (List.getElem?_eq_some_iff.mp found).1]
          omega
        obtain ⟨later, rest_result, rest_follows, pool⟩ := ih { sheet with closed := sheet.closed + 1 } next
          next_follows (fun other present => inTime other (sublist other present)) shorter
          (fun off => by have := alone off; simp only; omega)
        simp only [isMore] at rest_follows
        exact ⟨later, rest_result, rest_follows, closes.pool.trans pool⟩
      | false =>
        have unfinished : frame.allReceived = false :=
          Bool.eq_false_iff.mpr fun all => by
            rw [isFrame.allReceived_iff, complete] at all
            cases all
        have unsuperseded : params.resendEnabled = false →
            (w.runner.frames.drop (0 + 1)).any (!·.provisional) = false := by
          intro off
          have single := alone off
          obtain rfl : more = 0 := by omega
          cases others
          rw [frames, List.any_eq_false]
          intro other present
          obtain ⟨j, echo⟩ := isEcho other present
          rw [echo.provisional]
          exact Bool.false_ne_true
        obtain ⟨next, after, result, steady, wellformed, untouched, set⟩ := StreamWorld.completionStep_stays now
          currentFrameId true follows.wellformed found isFrame.provisional
          (fun _ => ⟨unfinished, unsuperseded, fun _ => inTime frame (List.mem_of_getElem? found) isFrame.provisional⟩)
        rw [result, Checked.ok_bind, if_neg (fun closes => by cases closes.2)]
        have next_frames : next.runner.frames = [after] ++ (rest ++ echoes) := by
          rw [set, frames]
          rfl
        obtain ⟨later, rest', rest_result, rest_steady, last, rest_frames, thinned⟩ :=
          StreamWorld.completionLoop_blocked fuel [after] (rest ++ echoes) false next wellformed next_frames
            (fun may => by cases may)
        refine ⟨later, rest_result, follows.thinned (steady.trans rest_steady) last ?_,
          (steady.trans rest_steady).pool⟩
        rw [frames, rest_frames]
        exact .kept untouched thinned

end Closing

end Telegenic.Stream
