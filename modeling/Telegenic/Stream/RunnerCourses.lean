import Telegenic.Stream.Budget
import Telegenic.Stream.Ordering

/-! Every function of the receiver worker goes from look to look, so the budget
of a frame holds along every run. -/

set_option autoImplicit false

namespace Telegenic.Stream

open Library Proto Proto.Gvsp

namespace StreamWorld

section Silently

variable {params : StreamParams} {w later : StreamWorld} {index : Nat} {frame : FrameInFlight}

theorem discardFrame_silent (wellformed : Wellformed params w) (result : w.discardFrame index = .ok later) :
    Silent w later := by
  unfold discardFrame at result
  obtain ⟨frame, _, result⟩ := Checked.bind_eq_ok result
  cases result
  have yielded : Quietly [] (w.removeFrame index) (w.removeFrame index).yield := yield_quietly _ wellformed.accounted
  refine .of_eraseIdx yielded.frames yielded.openings ?_
  change requestsIn ((w.removeFrame index).yield.journal ++ [_]) = _
  rw [yielded.journal, requestsIn_append]
  exact List.append_nil _

theorem closeFrame_silent {status : FrameStatus} (wellformed : Wellformed params w)
    (found : w.runner.frames[index]? = some frame) (result : w.closeFrame params index status = .ok later) :
    Silent w later := by
  obtain ⟨closed, closes, frames, openings, journal, _⟩ := closeFrame_spec wellformed found status
  cases result.symm.trans closes
  refine .of_eraseIdx frames openings ?_
  rw [journal, requestsIn_append]
  exact List.append_nil _

theorem discardProvisionalLoop_silent (fuel : Nat) : ∀ {w : StreamWorld}, Wellformed params w →
    discardProvisionalLoop fuel w = .ok later → Silent w later := by
  induction fuel with
  | zero =>
    intro w _ result
    cases result
    exact .refl
  | succ fuel ih =>
    intro w wellformed result
    rw [discardProvisionalLoop] at result
    cases search : w.runner.frames.findIdx? (·.provisional) with
    | none =>
      rw [search] at result
      cases result
      exact .refl
    | some index =>
      rw [search] at result
      obtain ⟨next, discarded, result⟩ := Checked.bind_eq_ok result
      obtain ⟨inside, provisional, _⟩ := List.findIdx?_eq_some_iff_getElem.mp search
      obtain ⟨_, discards, moves, _⟩ :=
        discardFrame_moves [] none wellformed (List.getElem?_eq_getElem inside) provisional
      cases discarded.symm.trans discards
      exact (discardFrame_silent wellformed discarded).trans (ih (moves.wellformed wellformed) result)

theorem abortLoop_silent (fuel : Nat) : ∀ {w : StreamWorld}, Wellformed params w →
    (∀ frame ∈ w.runner.frames, frame.provisional = false) → abortLoop params fuel w = .ok later → Silent w later := by
  induction fuel with
  | zero =>
    intro w _ _ result
    cases result
    exact .refl
  | succ fuel ih =>
    intro w wellformed real result
    rw [abortLoop] at result
    split at result
    · cases result
      exact .refl
    rename_i left
    obtain ⟨next, closed, result⟩ := Checked.bind_eq_ok result
    have inside : 0 < w.runner.frames.length := by
      rw [List.length_pos_iff]
      simpa using left
    have found := List.getElem?_eq_getElem inside
    obtain ⟨_, closes, moves, frames⟩ := closeFrame_moves [] none wellformed found (real _ (List.mem_of_getElem? found))
      (fun before earlier => absurd earlier (Nat.not_lt_zero before)) .aborted (fun complete => by cases complete)
    cases closed.symm.trans closes
    refine (closeFrame_silent wellformed found closed).trans (ih (moves.wellformed wellformed) ?_ result)
    exact fun other present => real other (List.mem_of_mem_eraseIdx (frames ▸ present))

theorem flushFrames_silent (wellformed : Wellformed params w) (result : w.flushFrames params = .ok later) :
    Silent w later := by
  unfold flushFrames at result
  obtain ⟨next, discarded, result⟩ := Checked.bind_eq_ok result
  obtain ⟨_, discards, moves, frames⟩ := discardProvisional_moves [] none wellformed
  cases discarded.symm.trans discards
  refine (discardProvisionalLoop_silent _ wellformed discarded).trans
    (abortLoop_silent _ (moves.wellformed wellformed) ?_ result)
  exact fun frame present => (mem_filter_real (frames ▸ present)).2

theorem openFrame_silent (view : GvspView) (now nPackets : Nat) (distance : Int) (replayOf : Option Fingerprints)
    (wellformed : Wellformed params w) :
    Silent w (w.openFrame params view now nPackets distance replayOf).1 := by
  have yielded := yield_quietly w wellformed.accounted
  rcases claim : w.yield.fabric.tryClaim with ⟨fabric, claimed⟩
  cases claimed with
  | none =>
    simp only [openFrame, claim]
    split
    · exact .of_quietly (yielded.trans (setStats_quietly w.yield yielded.accounted _))
    · exact .of_quietly (yielded.trans (setStats_skipFrame_quietly _ yielded.accounted _ view))
  | some slot =>
    obtain ⟨frames, openings, journal, _⟩ :=
      startFrame_spec params { w.yield with fabric := fabric } view now nPackets distance replayOf slot
    simp only [openFrame, claim]
    refine (Silent.of_quietly yielded).trans (.of_append frames rfl (fun held => held) openings ?_)
    rw [journal, requestsIn_append]
    exact List.append_nil _

theorem createFrame_silent {view : GvspView} {now : Nat} {distance : Int} {replayOf : Option Fingerprints}
    {found : Option Nat} (wellformed : Wellformed params w)
    (result : w.createFrame params view now distance replayOf = .ok (later, found)) : Silent w later := by
  obtain ⟨next, makes, moves, _⟩ := makeWay_moves [] none replayOf wellformed
  have made : Silent w next := by
    split at makes
    · cases makes
      exact .refl
    · exact discardProvisionalLoop_silent _ wellformed makes
  have accounted := (moves.wellformed wellformed).accounted
  unfold createFrame at result
  rw [makes, Checked.ok_bind] at result
  obtain ⟨nPackets, _, result⟩ := Checked.bind_eq_ok result
  have counted := setStats_quietly next accounted
  split at result
  · simp only at result
    split at result
    · cases result
      exact made.trans (.of_quietly (counted _))
    · cases result
      exact made.trans (.of_quietly ((counted _).trans (setStats_skipFrame_quietly next.ignore accounted _ view)))
  · have opened := openFrame_silent view now nPackets distance replayOf (moves.wellformed wellformed)
    rw [Checked.pure_eq] at result
    rw [Except.ok.inj result] at opened
    exact made.trans opened

theorem findOrCreateFrame_silent {view : GvspView} {now : Nat} {found : Option Nat} (wellformed : Wellformed params w)
    (result : w.findOrCreateFrame params view now = .ok (later, found)) : Silent w later := by
  unfold findOrCreateFrame at result
  split at result
  · rename_i index search
    obtain ⟨inside, _, _⟩ := List.findIdx?_eq_some_iff_getElem.mp search
    have known := List.getElem?_eq_getElem inside
    rw [get_frame known, Checked.ok_bind] at result
    cases result
    have fares : Fares w.runner.frames[index] { w.runner.frames[index] with lastPacketTime := now } :=
      .of_same rfl rfl rfl id rfl
    exact .of_set known fares rfl rfl rfl
  · simp only at result
    split at result
    · split at result
      · exact createFrame_silent wellformed result
      · exact createFrame_silent wellformed result
      · cases result
        exact .of_quietly (setStats_quietly w wellformed.accounted _)
    · exact createFrame_silent wellformed result

theorem adoptRestart_silent (found : w.runner.frames[index]? = some frame) (provisional : frame.provisional = true)
    (result : w.adoptRestart index = .ok later) : Silent w later := by
  unfold adoptRestart at result
  rw [get_frame found, Checked.ok_bind] at result
  cases result
  have fares : Fares frame { frame with replayOf := none, resendDisabled := false } := by
    refine ⟨rfl, le_rfl, id, fun _ real => ?_, fun _ held => by cases held⟩
    rw [provisional] at real
    cases real
  exact .of_set found fares rfl rfl ((requestsIn_append _ _).trans (List.append_nil _))

theorem settle_fares {view : GvspView} {stats counted : StreamStats} {diverged : Bool} {after : FrameInFlight}
    (result : frame.settle params view stats = .ok (after, counted, diverged)) : Fares frame after := by
  unfold FrameInFlight.settle at result
  obtain ⟨⟨marked, _⟩, marks, result⟩ := Checked.bind_eq_ok result
  obtain ⟨advanced, advances, result⟩ := Checked.bind_eq_ok result
  cases result
  unfold FrameInFlight.advance at advances
  obtain ⟨hole, _, advances⟩ := Checked.bind_eq_ok advances
  cases advances
  unfold FrameInFlight.markReceived at marks
  split at marks
  · obtain ⟨packet, _, marks⟩ := Checked.bind_eq_ok marks
    cases marks
    exact .of_same rfl rfl rfl id rfl
  · cases marks
    exact .of_same rfl rfl rfl id rfl

theorem refusePacket_silent {view : GvspView} (found : w.runner.frames[index]? = some frame) :
    Silent w (w.refusePacket index frame view) := by
  have fares : Fares frame { frame with resendDisabled := true } := .of_same rfl rfl rfl (fun _ => rfl) rfl
  unfold refusePacket
  simp only
  split
  · exact .of_set found fares rfl rfl rfl
  · exact .of_frames rfl rfl rfl

theorem countAbsorbed_silent (found : w.runner.frames[index]? = some frame) : Silent w (w.countAbsorbed index frame) := by
  have fares : Fares frame { frame with absorbed := frame.absorbed + 1 } := .of_same rfl rfl rfl id rfl
  unfold countAbsorbed
  split
  · exact .of_set found fares rfl rfl rfl
  · exact .refl

end Silently

section Looking

variable {params : StreamParams} {w later : StreamWorld} {index now : Nat} {frame : FrameInFlight}
  {currentFrameId : Option Nat} {canClose : Bool}

theorem look_course {packetId : Nat} (wellformed : Wellformed params w) (found : w.runner.frames[index]? = some frame)
    (checked : w.missingPacketCheck params index packetId now = .ok later) :
    Course params w [⟨w, index, packetId, now⟩] later :=
  .look .refl found (wellformed.frames frame (List.mem_of_getElem? found)).inBounds checked (.done .refl)

theorem completionStep_course {next : Nat × Bool} (wellformed : Wellformed params w)
    (found : w.runner.frames[index]? = some frame)
    (result : w.completionStep params now currentFrameId index canClose = .ok (later, next)) :
    ∃ looks, w.completionLook params now currentFrameId index canClose = .ok looks ∧ Course params w looks later := by
  have closed : ∀ {status : FrameStatus}, (do
      let w ← w.closeFrame params index status
      return (w, index, canClose) : Checked (StreamWorld × Nat × Bool)) = .ok (later, next) →
      Course params w [] later := by
    intro status result
    obtain ⟨after, closes, result⟩ := Checked.bind_eq_ok result
    cases result
    exact .done (closeFrame_silent wellformed found closes)
  unfold completionStep at result
  unfold completionLook
  rw [get_frame found, Checked.ok_bind] at result ⊢
  by_cases provisional : frame.provisional = true
  · rw [if_pos provisional] at result ⊢
    refine ⟨[], rfl, ?_⟩
    split at result
    · obtain ⟨after, discarded, result⟩ := Checked.bind_eq_ok result
      cases result
      exact .done (discardFrame_silent wellformed discarded)
    · cases result
      exact .done .refl
  rw [if_neg provisional] at result ⊢
  split at result
  · rename_i finished
    exact ⟨[], if_pos finished, closed result⟩
  rename_i unfinished
  rw [if_neg unfinished]
  split at result
  · rename_i superseded
    exact ⟨[], if_pos superseded, closed result⟩
  rename_i newest
  rw [if_neg newest]
  split at result
  · rename_i expired
    exact ⟨[], if_pos expired, closed result⟩
  rename_i fresh
  rw [if_neg fresh]
  split at result
  · rename_i idle
    obtain ⟨last, lasts, result⟩ := Checked.bind_eq_ok result
    obtain ⟨after, checked, result⟩ := Checked.bind_eq_ok result
    cases result
    exact ⟨_, by rw [if_pos idle, lasts]; rfl, look_course wellformed found checked⟩
  · rename_i busy
    cases result
    exact ⟨[], if_neg busy, .done .refl⟩

theorem completionLoop_course (fuel : Nat) : ∀ {index : Nat} {canClose : Bool} {w : StreamWorld}, Wellformed params w →
    HeadOfLine w index canClose → completionLoop params now currentFrameId fuel index canClose w = .ok later →
      ∃ looks, completionLooks params now currentFrameId fuel index canClose w = .ok looks ∧ Course params w looks later := by
  induction fuel with
  | zero =>
    intro index canClose w _ _ result
    cases result
    exact ⟨[], rfl, .done .refl⟩
  | succ fuel ih =>
    intro index canClose w wellformed headOfLine result
    rw [completionLoop] at result
    rw [completionLooks]
    by_cases inside : index < w.runner.frames.length
    · have found := List.getElem?_eq_getElem inside
      obtain ⟨next, index', canClose', stepped, moves, still⟩ :=
        completionStep_moves [] none now currentFrameId wellformed found headOfLine
      rw [if_pos inside, stepped] at result
      obtain ⟨first, looking, course⟩ := completionStep_course wellformed found stepped
      obtain ⟨rest, others, rest_course⟩ := ih (moves.wellformed wellformed) still result
      refine ⟨first ++ rest, ?_, course.trans rest_course⟩
      rw [if_pos inside, looking, Checked.ok_bind, stepped, Checked.ok_bind]
      simp only [others, Checked.ok_bind]
      rfl
    · rw [if_neg inside] at result ⊢
      cases result
      exact ⟨[], rfl, .done .refl⟩

theorem checkFrameCompletion_course (wellformed : Wellformed params w)
    (result : w.checkFrameCompletion params now currentFrameId = .ok later) :
    ∃ looks, w.checkLooks params now currentFrameId = .ok looks ∧ Course params w looks later :=
  completionLoop_course w.runner.frames.length wellformed
    (fun _ before earlier => absurd earlier (Nat.not_lt_zero before)) result

theorem afterContent_course {view : GvspView} {adopt : Bool} (wellformed : Wellformed params w)
    (found : w.runner.frames[index]? = some frame) (provisional : adopt = true → frame.provisional = true)
    (result : w.afterContent params view now index adopt = .ok later) :
    ∃ looks, w.contentLooks params view now index adopt = .ok looks ∧ Course params w looks later := by
  have started : ∃ next after, (if adopt then w.adoptRestart index else .ok w) = Except.ok next ∧
      Moves params [] none w next ∧ next.runner.frames[index]? = some after ∧ Silent w next := by
    cases adopt with
    | true =>
      obtain ⟨next, after, adopts, moves, present⟩ := @adoptRestart_moves params [] none _ _ _ found (provisional rfl)
      exact ⟨next, after, adopts, moves, present, adoptRestart_silent found (provisional rfl) adopts⟩
    | false => exact ⟨w, frame, rfl, .refl, found, .refl⟩
  obtain ⟨next, after, adopted, moves, present, silent⟩ := started
  have next_wellformed := moves.wellformed wellformed
  obtain ⟨checked, last, missing, check_moves, _, frames⟩ :=
    missingPacketCheck_moves [] none view.packetId now next_wellformed present
  have still : checked.runner.frames[index]? = some last := by
    rw [frames]
    exact List.getElem?_set_self (List.getElem?_eq_some_iff.mp present).1
  rw [afterContent, adopted, Checked.ok_bind, missing, Checked.ok_bind, get_frame still, Checked.ok_bind] at result
  obtain ⟨rest, others, course⟩ := checkFrameCompletion_course (check_moves.wellformed next_wellformed) result
  refine ⟨⟨next, index, view.packetId, now⟩ :: rest, ?_,
    ((look_course next_wellformed present missing).trans course).after_silent silent⟩
  rw [contentLooks, adopted, Checked.ok_bind, missing, Checked.ok_bind, get_frame still, Checked.ok_bind, others,
    Checked.ok_bind]
  rfl

theorem processFramePacket_course {origin : List FrameInFlight} {view : GvspView} {systemNow : Nat}
    (wellformed : Wellformed params w) (found : w.runner.frames[index]? = some frame) (routed : Routed origin view frame)
    (result : w.processFramePacket params view now systemNow index = .ok later) :
    ∃ looks, w.framePacketLooks params view now systemNow index = .ok looks ∧ Course params w looks later := by
  obtain ⟨after, present, untouched, moves⟩ := @countAbsorbed_moves params [] none _ _ _ found wellformed.accounted
  have counted_wellformed := moves.wellformed wellformed
  have valid := counted_wellformed.frames after (List.mem_of_getElem? present)
  have inside := (List.getElem?_eq_some_iff.mp present).1
  have absorbed := countAbsorbed_silent found
  have counted : ∀ stats, Silent w ((w.countAbsorbed index frame).setStats stats) := fun stats =>
    absorbed.trans (.of_frames rfl rfl rfl)
  have perhaps : ∀ {provisional : Bool} {stats : StreamStats}, (if provisional = true then w.countAbsorbed index frame else
      (w.countAbsorbed index frame).setStats stats) = later → Course params w [] later := by
    intro provisional stats result
    subst result
    split
    · exact .done absorbed
    · exact .done (counted _)
  unfold processFramePacket at result
  unfold framePacketLooks
  simp only [get_frame found, get_frame present, Checked.ok_bind] at result ⊢
  split at result
  · rename_i failed
    cases result
    exact ⟨[], if_pos failed, .done (absorbed.trans (refusePacket_silent present))⟩
  rename_i fine
  rw [if_neg fine]
  split at result
  · rename_i received
    exact ⟨[], if_pos received, perhaps (Except.ok.inj result)⟩
  rename_i fresh
  rw [if_neg fresh]
  rcases processContent_spec systemNow (w.countAbsorbed index frame).runner.stats valid
    (Bool.eq_false_iff.mpr fresh) with nothing | ⟨content, mismatches, taken, takes⟩
  · rw [nothing, Checked.ok_bind] at result ⊢
    exact ⟨[], rfl, perhaps (Except.ok.inj result)⟩
  · rw [taken, Checked.ok_bind] at result ⊢
    obtain ⟨settled, resent, diverged, settles, absorbs, _⟩ :=
      settle_absorbs valid (Bool.eq_false_iff.mpr fresh) takes
        { (w.countAbsorbed index frame).runner.stats with sizeMismatchErrors := mismatches }
    simp only [settles, Checked.ok_bind] at result ⊢
    have fares : Fares after settled := (Fares.of_sameFrame takes.same).trans (settle_fares settles)
    let stats := (w.countAbsorbed index frame).runner.stats
    let taken_world := ((w.countAbsorbed index frame).setFrame index settled).setStats
      { stats with sizeMismatchErrors := mismatches, resentPackets := resent }
    have taken : Move params origin (some view) (w.countAbsorbed index frame) taken_world :=
      .absorbed rfl present (routed.untouched untouched) absorbs rfl rfl rfl rfl
    have taken_frame : taken_world.runner.frames[index]? = some settled := List.getElem?_set_self inside
    have still_provisional : (frame.provisional && diverged) = true → settled.provisional = true := by
      intro adopt
      rw [FrameInFlight.provisional, absorbs.replayOf, untouched.replayOf]
      exact (Bool.and_eq_true_iff.mp adopt).1
    obtain ⟨looks, looking, course⟩ := afterContent_course (taken.wellformed counted_wellformed) taken_frame
      still_provisional result
    have replaced : Silent (w.countAbsorbed index frame) taken_world := .of_set present fares rfl rfl rfl
    exact ⟨looks, looking, course.after_silent (absorbed.trans replaced)⟩

theorem processPacket_course {datagram : List UInt8} {systemNow : Nat} (wellformed : Wellformed params w)
    (result : w.processPacket params datagram now systemNow = .ok later) :
    ∃ looks, w.packetLooks params datagram now systemNow = .ok looks ∧ Course params w looks later := by
  unfold processPacket at result
  unfold packetLooks
  cases parsed : GvspView.parse datagram with
  | none =>
    rw [parsed] at result
    cases result
    exact ⟨[], rfl, .done (.of_quietly (setStats_quietly w wellformed.accounted _))⟩
  | some view =>
    rw [parsed] at result
    have noted := noteFirstPacket_quietly w wellformed.accounted view
    have noted_moves : Moves params [] none w (w.noteFirstPacket view) := noted.moves
    have noted_wellformed := noted_moves.wellformed wellformed
    obtain ⟨next, found, routes, moves, routed⟩ := findOrCreateFrame_moves (w.noteFirstPacket view).runner.frames
      (some view) now noted_wellformed rfl rfl
    have silent := (Silent.of_quietly noted).trans (findOrCreateFrame_silent noted_wellformed routes)
    simp only [routes, Checked.ok_bind] at result ⊢
    cases found with
    | none =>
      cases result
      exact ⟨[], rfl, .done silent⟩
    | some index =>
      obtain ⟨frame, present, belongs⟩ := routed index rfl
      obtain ⟨looks, looking, course⟩ :=
        processFramePacket_course (moves.wellformed noted_wellformed) present belongs result
      exact ⟨looks, looking, course.after_silent silent⟩

theorem countPacket_silent (received : Received) (wellformed : Wellformed params w) :
    Silent w (w.noteDrops received.drops) ∧ Silent w ((w.noteDrops received.drops).countPacket received.datagram) ∧
      Wellformed params ((w.noteDrops received.drops).countPacket received.datagram) := by
  have noted := noteDrops_quietly w wellformed.accounted received.drops
  have counted : Quietly [] w ((w.noteDrops received.drops).countPacket received.datagram) :=
    noted.trans (setStats_quietly _ noted.accounted _)
  have moves : Moves params [] none w ((w.noteDrops received.drops).countPacket received.datagram) := counted.moves
  exact ⟨.of_quietly noted, .of_quietly counted, moves.wellformed wellformed⟩

theorem step_course {input : StreamInput} (wellformed : Wellformed params w) (result : w.step params input = .ok later) :
    ∃ looks, w.stepLooks params input = .ok looks ∧ Course params w looks later := by
  have scheduled : ∀ schedule, Silent w { w with schedule := schedule } := fun _ => .of_frames rfl rfl rfl
  have ready : ∀ schedule, Wellformed params { w with schedule := schedule } := fun schedule =>
    (show Move params [] none w _ from (schedule_quietly wellformed.accounted schedule).move).wellformed wellformed
  cases input with
  | packet received now systemNow schedule =>
    obtain ⟨noted, counted, counted_wellformed⟩ := countPacket_silent received (ready schedule)
    change drainSocket params received now systemNow { w with schedule := schedule } = .ok later at result
    unfold drainSocket at result
    unfold stepLooks
    simp only at result ⊢
    split at result
    · rename_i ours
      obtain ⟨looks, looking, course⟩ := processPacket_course counted_wellformed result
      exact ⟨looks, (if_pos ours).trans looking, course.after_silent ((scheduled schedule).trans counted)⟩
    · rename_i other
      cases result
      exact ⟨[], if_neg other, .done ((scheduled schedule).trans noted)⟩
  | tick now schedule =>
    obtain ⟨next, checks, result⟩ := Checked.bind_eq_ok result
    cases result
    obtain ⟨looks, looking, course⟩ := checkFrameCompletion_course (ready schedule) checks
    exact ⟨looks, looking, (course.after_silent (scheduled schedule)).then_silent (.of_frames rfl rfl rfl)⟩
  | commands schedule =>
    cases result
    have drained := drainCommands_quietly _ (ready schedule).accounted
    exact ⟨[], rfl, .done ((scheduled schedule).trans (.of_quietly drained))⟩
  | acts acts =>
    cases result
    exact ⟨[], rfl, .done (.of_frames rfl rfl rfl)⟩
  | flush schedule =>
    obtain ⟨next, flushes, result⟩ := Checked.bind_eq_ok result
    cases result
    have flushed := (scheduled schedule).trans (flushFrames_silent (ready schedule) flushes)
    exact ⟨[], rfl, .done (flushed.trans (.of_frames rfl rfl rfl))⟩

theorem run_course (inputs : List StreamInput) : ∀ {w : StreamWorld}, Wellformed params w →
    ∃ later looks, w.run params inputs = .ok later ∧ w.looks params inputs = .ok looks ∧ Course params w looks later := by
  induction inputs with
  | nil => exact fun _ => ⟨_, [], rfl, rfl, .done .refl⟩
  | cons input rest ih =>
    intro w wellformed
    obtain ⟨next, steps, moves⟩ := step_moves input wellformed
    obtain ⟨first, looking, course⟩ := step_course wellformed steps
    obtain ⟨later, others, runs, looks, rest_course⟩ := ih (moves.wellformed wellformed)
    refine ⟨later, first ++ others, ?_, ?_, course.trans rest_course⟩
    · rw [run, steps]
      exact runs
    · rw [StreamWorld.looks, looking, Checked.ok_bind, steps, Checked.ok_bind, looks]
      rfl

end Looking

/-! ## Packets the device no longer has -/

section Unavailable

variable {params : StreamParams} {w later : StreamWorld} {view : GvspView} {now : Nat}

def Unavailable (view : GvspView) : Prop :=
  view.status = Gvcp.GvcpStatus.packetUnavailable ∨ view.status = Gvcp.GvcpStatus.packetRemovedFromMemory ∨
    view.status = Gvcp.GvcpStatus.packetAndPrevRemovedFromMemory

theorem Unavailable.isError (unavailable : Unavailable view) : view.status.isError = true := by
  rcases unavailable with status | status | status <;> rw [status] <;> rfl

theorem createFrame_nowhere {distance : Int} {replayOf : Option Fingerprints} (wellformed : Wellformed params w)
    (result : w.createFrame params view now distance replayOf = .ok (later, none)) :
    ∀ frame ∈ later.runner.frames, frame ∈ w.runner.frames := by
  obtain ⟨next, makes, moves, _, kept⟩ := makeWay_moves [] none replayOf wellformed
  have accounted := (moves.wellformed wellformed).accounted
  unfold createFrame at result
  rw [makes, Checked.ok_bind] at result
  obtain ⟨nPackets, _, result⟩ := Checked.bind_eq_ok result
  split at result
  · simp only at result
    split at result
    · cases result
      exact kept
    · cases result
      exact kept
  · have yielded := yield_quietly next accounted
    have opens := Except.ok.inj result
    unfold openFrame at opens
    simp only at opens
    split at opens
    · split at opens
      · cases opens
        exact fun frame present => kept frame (yielded.frames ▸ present)
      · cases opens
        exact fun frame present => kept frame (yielded.frames ▸ present)
    · cases opens

theorem findOrCreateFrame_nowhere (wellformed : Wellformed params w)
    (result : w.findOrCreateFrame params view now = .ok (later, none)) :
    ∀ frame ∈ later.runner.frames, frame.frameId ≠ view.frameId := by
  unfold findOrCreateFrame at result
  split at result
  · obtain ⟨frame, _, result⟩ := Checked.bind_eq_ok result
    cases result
  · rename_i search
    have distinct : ∀ frame ∈ w.runner.frames, frame.frameId ≠ view.frameId := by
      simpa using List.findIdx?_eq_none_iff.mp search
    simp only at result
    split at result
    · split at result
      · exact fun frame present => distinct frame (createFrame_nowhere wellformed result frame present)
      · exact fun frame present => distinct frame (createFrame_nowhere wellformed result frame present)
      · cases result
        exact distinct
    · exact fun frame present => distinct frame (createFrame_nowhere wellformed result frame present)

theorem processFramePacket_refuses {systemNow index : Nat} {frame : FrameInFlight} (unavailable : Unavailable view)
    (found : w.runner.frames[index]? = some frame)
    (result : w.processFramePacket params view now systemNow index = .ok later) :
    ∃ refused, later.runner.frames[index]? = some refused ∧ refused.frameId = frame.frameId ∧
      refused.resendDisabled = true := by
  have inside := (List.getElem?_eq_some_iff.mp found).1
  have counted : ∃ after, (w.countAbsorbed index frame).runner.frames[index]? = some after ∧
      after.frameId = frame.frameId := by
    unfold countAbsorbed
    split
    · exact ⟨_, List.getElem?_set_self inside, rfl⟩
    · exact ⟨frame, found, rfl⟩
  obtain ⟨after, present, sameId⟩ := counted
  unfold processFramePacket at result
  simp only [get_frame found, get_frame present, Checked.ok_bind, if_pos unavailable.isError] at result
  cases result
  unfold refusePacket
  simp only [if_pos (show view.status = _ ∨ view.status = _ ∨ view.status = _ from unavailable)]
  exact ⟨_, List.getElem?_set_self (List.getElem?_eq_some_iff.mp present).1, sameId, rfl⟩

theorem step_refuses {received : Received} {systemNow : Nat} {schedule : List (List ConsumerAct)}
    (wellformed : Wellformed params w) (fromDevice : received.fromDevice = true)
    (parsed : GvspView.parse received.datagram = some view) (unavailable : Unavailable view)
    (result : w.step params (.packet received now systemNow schedule) = .ok later)
    (distinct : (later.runner.frames.map (·.frameId)).Nodup) :
    ∀ frame ∈ later.runner.frames, frame.frameId = view.frameId → frame.resendDisabled = true := by
  have ready : Wellformed params { w with schedule := schedule } :=
    (show Move params [] none w _ from (schedule_quietly wellformed.accounted schedule).move).wellformed wellformed
  obtain ⟨_, _, counted_wellformed⟩ := countPacket_silent received ready
  change drainSocket params received now systemNow { w with schedule := schedule } = .ok later at result
  unfold drainSocket at result
  simp only [if_pos fromDevice] at result
  unfold processPacket at result
  rw [parsed] at result
  have noted := noteFirstPacket_quietly _ counted_wellformed.accounted view
  have noted_moves : Moves params [] none _ _ := noted.moves
  have noted_wellformed := noted_moves.wellformed counted_wellformed
  obtain ⟨next, found, routes, moves, routed⟩ := findOrCreateFrame_moves _ (some view) now noted_wellformed rfl rfl
  simp only [routes, Checked.ok_bind] at result
  cases found with
  | none =>
    cases result
    exact fun frame present same => absurd same (findOrCreateFrame_nowhere noted_wellformed routes frame present)
  | some index =>
    obtain ⟨frame, present, belongs⟩ := routed index rfl
    obtain ⟨refused, isRefused, sameId, disabled⟩ := processFramePacket_refuses unavailable present result
    intro other isOther same
    obtain ⟨position, isPosition⟩ := List.mem_iff_getElem?.mp isOther
    -- Frame ids are distinct, so the other frame is the refused one.
    have here : position = index := by
      refine (List.getElem?_inj ?_ distinct).mp ?_
      · rw [List.length_map]
        exact (List.getElem?_eq_some_iff.mp isPosition).1
      · rw [List.getElem?_map, List.getElem?_map, isPosition, isRefused, Option.map_some, Option.map_some, same, sameId,
          belongs.1]
    rw [here, isRefused] at isPosition
    exact Option.some.inj isPosition ▸ disabled

end Unavailable

end StreamWorld

theorem spawn_kept (params : StreamParams) : Kept params [] (.spawn params) where
  numbered := ⟨List.nodup_nil, fun _ present => (by cases present), fun _ present => (by cases present)⟩
  known _ present := absurd present List.not_mem_nil
  spent _ present := by cases present
  reached _ present := by cases present

theorem looks_append {params : StreamParams} (inputs rest : List StreamInput) : ∀ {w mid : StreamWorld} {past later : List Look},
    w.run params inputs = .ok mid → w.looks params inputs = .ok past → mid.looks params rest = .ok later →
      w.looks params (inputs ++ rest) = .ok (past ++ later) := by
  induction inputs with
  | nil =>
    intro w mid past later runs looks rest_looks
    cases runs
    cases looks
    exact rest_looks
  | cons input inputs ih =>
    intro w mid past later runs looks rest_looks
    obtain ⟨next, steps, runs⟩ := Checked.bind_eq_ok runs
    obtain ⟨first, looking, looks⟩ := Checked.bind_eq_ok looks
    obtain ⟨_, again, looks⟩ := Checked.bind_eq_ok looks
    cases steps.symm.trans again
    obtain ⟨others, others_looks, looks⟩ := Checked.bind_eq_ok looks
    cases looks
    rw [List.cons_append, StreamWorld.looks, looking, Checked.ok_bind, steps, Checked.ok_bind,
      ih runs others_looks rest_looks, Checked.ok_bind, List.append_assoc]
    rfl

theorem run_snoc {params : StreamParams} {input : StreamInput} (inputs : List StreamInput) : ∀ {w mid later : StreamWorld},
    w.run params inputs = .ok mid → w.run params (inputs ++ [input]) = .ok later → mid.step params input = .ok later := by
  induction inputs with
  | nil =>
    intro w mid later runs whole
    cases runs
    obtain ⟨next, steps, done⟩ := Checked.bind_eq_ok whole
    cases done
    exact steps
  | cons first rest ih =>
    intro w mid later runs whole
    obtain ⟨next, steps, runs⟩ := Checked.bind_eq_ok runs
    obtain ⟨_, again, whole⟩ := Checked.bind_eq_ok whole
    cases steps.symm.trans again
    exact ih runs whole

/-- Every request of a run is sent by one of its looks at the holes of a frame.
When a look sends requests, the packets requested for the frame so far, these
included, are within its budget, no earlier look found the budget spent, and
the frame is not provisional. After a packet that tells that the device no
longer has it, no look sends requests for its frame, unless that is provisional
then. -/
theorem requests_within_budget (params : StreamParams) (inputs : List StreamInput) :
    ∃ w looks, (StreamWorld.spawn params).run params inputs = .ok w ∧
      (StreamWorld.spawn params).looks params inputs = .ok looks ∧
      requestsIn w.journal = looks.flatMap (Look.sent params) ∧
      (∀ before look after, looks = before ++ look :: after → ∃ frame, look.frame? = some frame ∧
        (∀ request ∈ look.sent params, request.frameId = frame.frameId) ∧
        (look.sent params ≠ [] → frame.provisional = false ∧
          packetsFor params frame.opening (before ++ [look]) ≤ params.maxRequests frame.nPackets ∧
          ∀ earlier ∈ before, earlier.isFor frame.opening = true → earlier.exhausts params = false)) ∧
      ∀ before received now systemNow schedule after view,
        inputs = before ++ .packet received now systemNow schedule :: after → received.fromDevice = true →
        GvspView.parse received.datagram = some view → StreamWorld.Unavailable view →
        ∃ mid past rest, (StreamWorld.spawn params).run params (before ++ [.packet received now systemNow schedule]) = .ok mid ∧
          (StreamWorld.spawn params).looks params (before ++ [.packet received now systemNow schedule]) = .ok past ∧
          looks = past ++ rest ∧
          ∀ frame ∈ mid.runner.frames, frame.frameId = view.frameId → frame.provisional = false →
            ∀ look ∈ rest, look.isFor frame.opening = true → look.sent params = [] := by
  obtain ⟨w, looks, runs, looking, course⟩ := StreamWorld.run_course inputs (spawn_wellformed params)
  refine ⟨w, looks, runs, looking, course.requests, ?_, ?_⟩
  · intro before look after split
    obtain ⟨frame, found, allowed⟩ := course.allowed (spawn_kept params) before look after split
    exact ⟨frame, found, allowed.named, fun sent => ⟨allowed.real sent, allowed.within sent, allowed.unspent sent⟩⟩
  · intro before received now systemNow schedule after view split fromDevice parsed unavailable
    obtain ⟨start, starts, start_wellformed⟩ := run_reaches params before
    obtain ⟨mid, past, mid_runs, mid_looks, mid_course⟩ := StreamWorld.run_course
      (before ++ [.packet received now systemNow schedule]) (spawn_wellformed params)
    obtain ⟨_, again, ordered⟩ := run_ordered params (before ++ [.packet received now systemNow schedule])
    cases mid_runs.symm.trans again
    obtain ⟨_, rest, _, rest_looks, rest_course⟩ := StreamWorld.run_course after (run_wellformed mid_runs)
    have whole := looks_append (before ++ [.packet received now systemNow schedule]) after mid_runs mid_looks rest_looks
    rw [List.append_assoc, List.singleton_append, ← split, looking] at whole
    refine ⟨mid, past, rest, mid_runs, mid_looks, Except.ok.inj whole, ?_⟩
    intro frame present sameId real
    have distinct : (mid.runner.frames.map (·.frameId)).Nodup := by
      have entries := ordered.distinct
      rwa [StreamWorld.lineup, List.map_map] at entries
    have disabled := StreamWorld.step_refuses start_wellformed fromDevice parsed unavailable
      (run_snoc before starts mid_runs) distinct frame present sameId
    exact rest_course.refused
      ((mid_course.numbered (spawn_kept params).numbered).refusedFor present (.inr ⟨disabled, real⟩))

end Telegenic.Stream
