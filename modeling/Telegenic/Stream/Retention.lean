import Telegenic.Stream.Completion
import Telegenic.Stream.Decisions
import Telegenic.Stream.Ordering
import Telegenic.Stream.Resends

/-! Which frames a look at the retention time leaves in flight. Behind the
frame at the receiver's position there are only provisional ones, so that frame
is the only one that can stay. -/

set_option autoImplicit false

namespace Telegenic.Stream

open Library Proto Proto.Gvsp

/-! ## The newest frame is the last real one -/

def Leading (id : Nat) (entries : List Entry) : Prop :=
  entries.Pairwise fun earlier later => earlier.frameId = id → later.provisional = true

structure Calm (w later : StreamWorld) : Prop where
  lastFrameId : later.runner.lastFrameId = w.runner.lastFrameId
  firstPacket : later.runner.firstPacket = w.runner.firstPacket
  entries : later.lineup.entries.Sublist w.lineup.entries

structure StreamWorld.Underway (w : StreamWorld) : Prop where
  leading : Leading w.runner.lastFrameId w.lineup.entries
  started : w.runner.firstPacket = false

def StreamWorld.NewestLast (w : StreamWorld) : Prop :=
  w.runner.frames = [] ∨ w.Underway

namespace Calm

variable {params : StreamParams} {w later last : StreamWorld} {index : Nat} {frame after : FrameInFlight}

theorem refl : Calm w w := ⟨rfl, rfl, .refl _⟩

theorem trans (first : Calm w later) (second : Calm later last) : Calm w last :=
  ⟨second.lastFrameId.trans first.lastFrameId, second.firstPacket.trans first.firstPacket,
    second.entries.trans first.entries⟩

theorem underway (calm : Calm w later) (underway : w.Underway) : later.Underway := by
  refine ⟨?_, calm.firstPacket.trans underway.started⟩
  rw [calm.lastFrameId]
  exact underway.leading.sublist calm.entries

theorem newestLast (calm : Calm w later) (newest : w.NewestLast) : later.NewestLast := by
  rcases newest with empty | underway
  · have none_left := calm.entries
    rw [StreamWorld.lineup, StreamWorld.lineup, empty] at none_left
    exact .inl (List.map_eq_nil_iff.mp (List.sublist_nil.mp none_left))
  · exact .inr (calm.underway underway)

theorem same (steady : Steady w later) (frames : later.runner.frames = w.runner.frames) : Calm w later :=
  ⟨steady.lastFrameId, steady.firstPacket, by rw [StreamWorld.lineup, frames]; exact .refl _⟩

theorem replaced (steady : Steady w later) (found : w.runner.frames[index]? = some frame)
    (entry : after.entry = frame.entry) (frames : later.runner.frames = w.runner.frames.set index after) :
    Calm w later :=
  ⟨steady.lastFrameId, steady.firstPacket, by
    rw [StreamWorld.lineup, entries_set found frames entry]⟩

theorem setFrame (found : w.runner.frames[index]? = some frame) (entry : after.entry = frame.entry) :
    Calm w (w.setFrame index after) :=
  replaced (.setFrame index after) found entry rfl

theorem setStats (stats : StreamStats) (w : StreamWorld) : Calm w (w.setStats stats) := ⟨rfl, rfl, .refl _⟩

theorem countAbsorbed (found : w.runner.frames[index]? = some frame) : Calm w (w.countAbsorbed index frame) := by
  unfold StreamWorld.countAbsorbed
  split
  · have counted : Calm w (w.setFrame index { frame with absorbed := frame.absorbed + 1 }) :=
      setFrame found (FrameInFlight.entry_eq rfl rfl rfl)
    exact counted.trans (setStats _ _)
  · exact refl

theorem refusePacket (view : GvspView) (found : w.runner.frames[index]? = some frame) :
    Calm w (w.refusePacket index frame view) := by
  unfold StreamWorld.refusePacket
  simp only
  split
  · have disabled : Calm w (w.setFrame index { frame with resendDisabled := true }) :=
      setFrame found (FrameInFlight.entry_eq rfl rfl rfl)
    exact disabled.trans ((setStats _ _).trans (setStats _ _))
  · exact setStats _ _

theorem erased (lastFrameId : later.runner.lastFrameId = w.runner.lastFrameId)
    (firstPacket : later.runner.firstPacket = w.runner.firstPacket)
    (frames : later.runner.frames = w.runner.frames.eraseIdx index) : Calm w later :=
  ⟨lastFrameId, firstPacket, by
    rw [StreamWorld.lineup, entries_eraseIdx frames]
    exact List.eraseIdx_sublist _ _⟩

theorem missingPacketCheck {packetId now : Nat} (wellformed : Wellformed params w)
    (found : w.runner.frames[index]? = some frame)
    (result : w.missingPacketCheck params index packetId now = .ok later) : Calm w later := by
  obtain ⟨checked, after, checks, (moves : Moves params [] none _ _), scanned, frames⟩ :=
    StreamWorld.missingPacketCheck_moves [] none packetId now wellformed found
  rw [checks] at result
  cases result
  exact replaced (.missingPacketCheck checks) found
    (FrameInFlight.entry_eq scanned.frameId scanned.opening scanned.replayOf) frames

theorem discardFrame (wellformed : Wellformed params w) (found : w.runner.frames[index]? = some frame)
    (provisional : frame.provisional = true) (result : w.discardFrame index = .ok later) : Calm w later := by
  have steady : Steady w later := .discardFrame result
  obtain ⟨next, discards, (moves : Moves params [] none _ _), frames⟩ :=
    StreamWorld.discardFrame_moves [] none wellformed found provisional
  rw [discards] at result
  cases result
  exact erased steady.lastFrameId steady.firstPacket frames

theorem closeFrame {status : FrameStatus} (wellformed : Wellformed params w)
    (found : w.runner.frames[index]? = some frame) (result : w.closeFrame params index status = .ok later) :
    Calm w later := by
  have closes := closeFrame_closes wellformed.accounted found result
  obtain ⟨next, closed, frames, _⟩ := StreamWorld.closeFrame_spec wellformed found status
  rw [closed] at result
  cases result
  exact erased closes.lastFrameId closes.firstPacket frames

theorem completionStep {now : Nat} {currentFrameId : Option Nat} {canClose : Bool} {next : Nat × Bool}
    (wellformed : Wellformed params w) (found : w.runner.frames[index]? = some frame)
    (result : w.completionStep params now currentFrameId index canClose = .ok (later, next)) : Calm w later := by
  have closed : ∀ {status : FrameStatus}, (do
      let w ← w.closeFrame params index status
      return (w, index, canClose) : Checked (StreamWorld × Nat × Bool)) = .ok (later, next) → Calm w later := by
    intro status result
    obtain ⟨after, closes, result⟩ := Checked.bind_eq_ok result
    cases result
    exact closeFrame wellformed found closes
  unfold StreamWorld.completionStep at result
  rw [StreamWorld.get_frame found, Checked.ok_bind] at result
  split at result
  · rename_i provisional
    split at result
    · obtain ⟨after, discards, result⟩ := Checked.bind_eq_ok result
      cases result
      exact discardFrame wellformed found provisional discards
    · cases result
      exact refl
  split at result
  · exact closed result
  split at result
  · exact closed result
  split at result
  · exact closed result
  split at result
  · obtain ⟨position, _, result⟩ := Checked.bind_eq_ok result
    obtain ⟨after, checks, result⟩ := Checked.bind_eq_ok result
    cases result
    exact missingPacketCheck wellformed found checks
  · cases result
    exact refl

theorem completionLoop {now : Nat} {currentFrameId : Option Nat} (fuel : Nat) :
    ∀ {index : Nat} {canClose : Bool} {w : StreamWorld}, Wellformed params w →
      StreamWorld.HeadOfLine w index canClose →
      StreamWorld.completionLoop params now currentFrameId fuel index canClose w = .ok later → Calm w later := by
  induction fuel with
  | zero =>
    intro index canClose w _ _ result
    cases result
    exact refl
  | succ fuel ih =>
    intro index canClose w wellformed headOfLine result
    rw [StreamWorld.completionLoop] at result
    by_cases inside : index < w.runner.frames.length
    · obtain ⟨next, index', canClose', stepped, (moves : Moves params [] none _ _), still⟩ :=
        StreamWorld.completionStep_moves [] none now currentFrameId wellformed (List.getElem?_eq_getElem inside)
          headOfLine
      rw [if_pos inside, stepped] at result
      exact (completionStep wellformed (List.getElem?_eq_getElem inside) stepped).trans
        (ih (moves.wellformed wellformed) still result)
    · rw [if_neg inside] at result
      cases result
      exact refl

theorem checkFrameCompletion {now : Nat} {currentFrameId : Option Nat} (wellformed : Wellformed params w)
    (result : w.checkFrameCompletion params now currentFrameId = .ok later) : Calm w later :=
  completionLoop w.runner.frames.length wellformed (fun _ before earlier => absurd earlier (Nat.not_lt_zero before))
    result

theorem afterContent {view : GvspView} {now : Nat} (wellformed : Wellformed params w)
    (found : w.runner.frames[index]? = some frame)
    (result : w.afterContent params view now index false = .ok later) : Calm w later := by
  unfold StreamWorld.afterContent at result
  simp only [Bool.false_eq_true, if_false, Checked.ok_bind] at result
  obtain ⟨checked, checks, result⟩ := Checked.bind_eq_ok result
  obtain ⟨current, _, result⟩ := Checked.bind_eq_ok result
  obtain ⟨next, _, missing, (moves : Moves params [] none _ _), _⟩ :=
    StreamWorld.missingPacketCheck_moves [] none view.packetId now wellformed found
  rw [missing] at checks
  cases checks
  exact (missingPacketCheck wellformed found missing).trans (checkFrameCompletion (moves.wellformed wellformed) result)

end Calm

section Positions

variable {params : StreamParams} {view : GvspView} {now systemNow index : Nat} {frame : FrameInFlight}
  {w later : StreamWorld} {entries : List Entry} {entry : Entry} {id : Nat}

theorem leading_of_absent (absent : ∀ entry ∈ entries, entry.frameId ≠ id) : Leading id entries :=
  List.pairwise_of_forall_mem_list fun earlier present _ _ same => absurd same (absent earlier present)

theorem leading_snoc_of_absent (absent : ∀ entry ∈ entries, entry.frameId ≠ id) : Leading id (entries ++ [entry]) := by
  refine List.pairwise_append.mpr ⟨leading_of_absent absent, List.pairwise_singleton _ _, ?_⟩
  exact fun earlier present _ _ same => absurd same (absent earlier present)

theorem Leading.snoc (leading : Leading id entries) (provisional : entry.provisional = true) :
    Leading id (entries ++ [entry]) := by
  refine List.pairwise_append.mpr ⟨leading, List.pairwise_singleton _ _, ?_⟩
  intro earlier _ other isOther _
  rw [List.mem_singleton.mp isOther]
  exact provisional

theorem absent_entries (distinct : ∀ frame ∈ w.runner.frames, frame.frameId ≠ id) :
    ∀ entry ∈ w.lineup.entries, entry.frameId ≠ id := by
  intro entry present
  obtain ⟨frame, inFlight, rfl⟩ := List.mem_map.mp present
  exact distinct frame inFlight

theorem openFrame_underway {nPackets : Nat} {distance : Int} {replayOf : Option Fingerprints} {found : Option Nat}
    (accounted : w.fabric.Accounted []) (underway : w.Underway)
    (distinct : ∀ frame ∈ w.runner.frames, frame.frameId ≠ view.frameId)
    (result : w.openFrame params view now nPackets distance replayOf = (later, found)) : later.Underway := by
  have yielded : Calm w w.yield := .same (.yield w) (StreamWorld.yield_quietly w accounted).frames
  have kept := yielded.underway underway
  have not_first : w.yield.runner.firstPacket = false := yielded.firstPacket.trans underway.started
  have absent := absent_entries fun frame present =>
    distinct frame ((StreamWorld.yield_quietly w accounted).frames ▸ present)
  unfold StreamWorld.openFrame at result
  simp only at result
  rcases claim : w.yield.fabric.tryClaim with ⟨fabric, slot⟩
  rw [claim] at result
  cases slot with
  | none =>
    cases replayOf with
    | some known =>
      cases result
      exact ⟨kept.leading, not_first⟩
    | none =>
      cases result
      exact ⟨leading_of_absent absent, not_first⟩
  | some slot =>
    obtain ⟨frames, _⟩ := StreamWorld.startFrame_spec params { w.yield with fabric := fabric } view now nPackets distance
      replayOf slot
    have entries : (StreamWorld.startFrame params view now nPackets distance replayOf slot
        { w.yield with fabric := fabric }).lineup.entries = w.yield.lineup.entries ++
          [(StreamWorld.newFrame params view now nPackets w.yield.runner.openings slot replayOf).entry] := by
      rw [StreamWorld.lineup, frames, List.map_append]
      rfl
    cases replayOf with
    | some known =>
      cases result
      refine ⟨?_, not_first⟩
      rw [entries]
      exact kept.leading.snoc rfl
    | none =>
      cases result
      refine ⟨?_, not_first⟩
      rw [entries]
      exact leading_snoc_of_absent absent

theorem makeWay_calm (replayOf : Option Fingerprints) (wellformed : Wellformed params w)
    (result : (if replayOf.isSome then .ok w else w.discardProvisional) = Except.ok later) : Calm w later := by
  cases replayOf with
  | some known =>
    cases result
    exact .refl
  | none =>
    obtain ⟨next, discards, (moves : Moves params [] none _ _), frames⟩ :=
      StreamWorld.discardProvisional_moves [] none wellformed
    have steady : Steady w later := .discardProvisionalLoop _ result
    have same : Except.ok next = Except.ok later := discards.symm.trans result
    cases same
    refine ⟨steady.lastFrameId, steady.firstPacket, ?_⟩
    rw [StreamWorld.lineup, StreamWorld.lineup, frames]
    exact List.filter_sublist.map _

theorem createFrame_underway {distance : Int} {replayOf : Option Fingerprints} {found : Option Nat}
    (wellformed : Wellformed params w) (underway : w.Underway)
    (distinct : ∀ frame ∈ w.runner.frames, frame.frameId ≠ view.frameId)
    (result : w.createFrame params view now distance replayOf = .ok (later, found)) : later.Underway := by
  obtain ⟨cleared, makeWay, result⟩ := Checked.bind_eq_ok result
  have calm := makeWay_calm replayOf wellformed makeWay
  obtain ⟨next, way, (moves : Moves params [] none _ _), _, kept⟩ :=
    StreamWorld.makeWay_moves [] none replayOf wellformed
  have same : Except.ok next = Except.ok cleared := way.symm.trans makeWay
  cases same
  have cleared_distinct : ∀ frame ∈ cleared.runner.frames, frame.frameId ≠ view.frameId :=
    fun frame present => distinct frame (kept frame present)
  have not_first := calm.firstPacket.trans underway.started
  obtain ⟨nPackets, _, result⟩ := Checked.bind_eq_ok result
  simp only at result
  split at result
  · split at result
    · cases result
      exact ⟨(calm.underway underway).leading, not_first⟩
    · cases result
      exact ⟨leading_of_absent (absent_entries cleared_distinct), not_first⟩
  · exact openFrame_underway (moves.wellformed wellformed).accounted (calm.underway underway)
      cleared_distinct (Except.ok.inj result)

theorem findOrCreateFrame_underway {found : Option Nat} (wellformed : Wellformed params w) (underway : w.Underway)
    (result : w.findOrCreateFrame params view now = .ok (later, found)) : later.Underway := by
  unfold StreamWorld.findOrCreateFrame at result
  cases search : w.runner.frames.findIdx? (·.frameId == view.frameId) with
  | some index =>
    rw [search] at result
    obtain ⟨frame, got, result⟩ := Checked.bind_eq_ok result
    obtain ⟨inside, _⟩ := List.findIdx?_eq_some_iff_getElem.mp search
    have isFrame := List.getElem?_eq_getElem inside
    rw [StreamWorld.get_frame isFrame] at got
    cases got
    cases result
    refine Calm.underway (Calm.setFrame isFrame ?_) underway
    rfl
  | none =>
    have distinct : ∀ frame ∈ w.runner.frames, frame.frameId ≠ view.frameId := by
      intro frame present
      simpa using List.findIdx?_eq_none_iff.mp search frame present
    rw [search] at result
    simp only at result
    split at result
    · cases arrival : w.classifyBehind view with
      | new =>
        rw [arrival] at result
        exact createFrame_underway wellformed underway distinct result
      | maybeReplay known =>
        rw [arrival] at result
        exact createFrame_underway wellformed underway distinct result
      | late =>
        rw [arrival] at result
        cases result
        exact ⟨underway.leading, underway.started⟩
    · exact createFrame_underway wellformed underway distinct result

theorem adoptRestart_underway (ordered : w.lineup.Ordered) (started : w.runner.firstPacket = false)
    (found : w.runner.frames[index]? = some frame) (provisional : frame.provisional = true)
    (result : w.adoptRestart index = .ok later) : later.Underway := by
  unfold StreamWorld.adoptRestart at result
  rw [StreamWorld.get_frame found, Checked.ok_bind] at result
  cases result
  refine ⟨?_, started⟩
  obtain ⟨inside, isFrame⟩ := List.getElem?_eq_some_iff.mp found
  have last : index + 1 = w.runner.frames.length := by
    rw [(ordered.last index frame.entry (getElem?_entries found) provisional).1]
    exact List.length_map _
  have split : w.runner.frames = w.runner.frames.take index ++ [frame] := by
    conv_lhs => rw [← List.take_append_drop index w.runner.frames, List.drop_eq_getElem_cons inside, isFrame, last,
      List.drop_length]
  have distinct := ordered.distinct
  rw [StreamWorld.lineup, split, List.map_map, List.map_append, List.nodup_append] at distinct
  have length : (w.runner.frames.take index).length = index := List.length_take_of_le inside.le
  have entries : ∀ after : FrameInFlight, (w.runner.frames.set index after).map (·.entry) =
      (w.runner.frames.take index).map (·.entry) ++ [after.entry] := by
    intro after
    conv_lhs => rw [split]
    rw [List.set_append_right _ _ length.le, length, Nat.sub_self, List.map_append]
    rfl
  show Leading frame.frameId (List.map _ (w.runner.frames.set index _))
  rw [entries]
  refine leading_snoc_of_absent fun entry present same => ?_
  obtain ⟨other, inFront, rfl⟩ := List.mem_map.mp present
  exact distinct.2.2 _ (List.mem_map_of_mem inFront) _ (List.mem_singleton_self _) same

theorem setFrame_lineup {after : FrameInFlight} (found : w.runner.frames[index]? = some frame)
    (same : after.entry = frame.entry) : (w.setFrame index after).lineup = w.lineup :=
  lineup_eq (entries_set found rfl same) rfl rfl

theorem countAbsorbed_lineup (found : w.runner.frames[index]? = some frame) :
    (w.countAbsorbed index frame).lineup = w.lineup := by
  unfold StreamWorld.countAbsorbed
  split
  · exact setFrame_lineup found (FrameInFlight.entry_eq rfl rfl rfl)
  · rfl

theorem processFramePacket_underway (wellformed : Wellformed params w) (ordered : w.lineup.Ordered)
    (underway : w.Underway) (found : w.runner.frames[index]? = some frame)
    (result : w.processFramePacket params view now systemNow index = .ok later) : later.Underway := by
  obtain ⟨after, present, untouched, (moves : Moves params [] none _ _)⟩ :=
    StreamWorld.countAbsorbed_moves [] none found wellformed.accounted
  have calm : Calm w (w.countAbsorbed index frame) := .countAbsorbed found
  have absorbed_wellformed := moves.wellformed wellformed
  have valid := absorbed_wellformed.frames after (List.mem_of_getElem? present)
  unfold StreamWorld.processFramePacket at result
  simp only [StreamWorld.get_frame found, StreamWorld.get_frame present, Checked.ok_bind] at result
  split at result
  · cases result
    exact (calm.trans (.refusePacket view present)).underway underway
  split at result
  · cases result
    split
    · exact calm.underway underway
    · exact (calm.trans (.setStats _ _)).underway underway
  rename_i fresh
  obtain ⟨content, processed, result⟩ := Checked.bind_eq_ok result
  cases content with
  | none =>
    cases result
    split
    · exact calm.underway underway
    · exact (calm.trans (.setStats _ _)).underway underway
  | some content =>
    obtain ⟨content, counted⟩ := content
    obtain ⟨⟨settled, total, diverged⟩, settles, result⟩ := Checked.bind_eq_ok result
    have absorbs := content_absorbs valid (Bool.eq_false_iff.mpr fresh) processed settles
    have inside := (List.getElem?_eq_some_iff.mp present).1
    let taken := ((w.countAbsorbed index frame).setFrame index settled).setStats total
    have taken_calm : Calm w taken := calm.trans
      ((Calm.setFrame present (FrameInFlight.entry_eq absorbs.frameId absorbs.opening absorbs.replayOf)).trans
        (.setStats _ _))
    have taken_wellformed : Wellformed params taken :=
      absorbed_wellformed.replace present absorbs.valid absorbs.key rfl rfl
    have taken_found : taken.runner.frames[index]? = some settled := List.getElem?_set_self inside
    cases adopt : frame.provisional && diverged with
    | true =>
      have still : settled.provisional = true := by
        rw [FrameInFlight.provisional, absorbs.replayOf, untouched.replayOf]
        exact (Bool.and_eq_true_iff.mp adopt).1
      have taken_lineup : taken.lineup = w.lineup := (setFrame_lineup present
        (FrameInFlight.entry_eq absorbs.frameId absorbs.opening absorbs.replayOf)).trans
        (countAbsorbed_lineup found)
      have taken_ordered : taken.lineup.Ordered := taken_lineup ▸ ordered
      obtain ⟨next, adopted, adopts, (rest_moves : Moves params [] none _ _), next_found⟩ :=
        StreamWorld.adoptRestart_moves [] none taken_found still
      rw [adopt] at result
      have continued : next.afterContent params view now index false = .ok later := by
        rw [← result]
        show _ = taken.afterContent params view now index true
        rw [StreamWorld.afterContent, StreamWorld.afterContent, if_pos rfl, if_neg Bool.false_ne_true, adopts]
      have adopted_underway := adoptRestart_underway taken_ordered (taken_calm.firstPacket.trans underway.started)
        taken_found still adopts
      exact Calm.underway (.afterContent (rest_moves.wellformed taken_wellformed) next_found continued)
        adopted_underway
    | false =>
      rw [adopt] at result
      exact (taken_calm.trans (.afterContent taken_wellformed taken_found result)).underway underway

theorem noteFirstPacket_underway (view : GvspView) (newest : w.NewestLast) : (w.noteFirstPacket view).Underway := by
  rcases newest with empty | underway
  · obtain ⟨position, noted⟩ := noteFirstPacket_eq view w
    rw [noted]
    refine ⟨?_, rfl⟩
    rw [StreamWorld.lineup, empty]
    exact List.Pairwise.nil
  · have same : w.noteFirstPacket view = w := if_neg (by rw [underway.started]; exact Bool.false_ne_true)
    rw [same]
    exact underway

theorem processPacket_newestLast {datagram : List UInt8} (wellformed : Wellformed params w)
    (ordered : w.lineup.Ordered) (newest : w.NewestLast)
    (result : w.processPacket params datagram now systemNow = .ok later) : later.NewestLast := by
  unfold StreamWorld.processPacket at result
  cases parsed : GvspView.parse datagram with
  | none =>
    rw [parsed] at result
    cases result
    exact (Calm.setStats _ _).newestLast newest
  | some view =>
    rw [parsed] at result
    simp only at result
    obtain ⟨⟨next, found⟩, search, result⟩ := Checked.bind_eq_ok result
    have noted := StreamWorld.noteFirstPacket_quietly w wellformed.accounted view
    have noted_moves : Moves params w.runner.frames (some view) w (w.noteFirstPacket view) := noted.moves
    obtain ⟨_, _, search', moves, routed⟩ := StreamWorld.findOrCreateFrame_moves w.runner.frames (some view) now
      (noted_moves.wellformed wellformed) rfl noted.frames
    rw [search] at search'
    cases search'
    have underway := findOrCreateFrame_underway (noted_moves.wellformed wellformed)
      (noteFirstPacket_underway view newest) search
    cases found with
    | none =>
      cases result
      exact .inr underway
    | some index =>
      obtain ⟨frame, present, _⟩ := routed index rfl
      have next_moves : Moves params w.runner.frames (some view) w next := noted_moves.trans moves
      exact .inr (processFramePacket_underway (next_moves.wellformed wellformed) (next_moves.ordered ordered) underway
        present result)

theorem abortLoop_calm (fuel : Nat) : ∀ {w : StreamWorld}, Wellformed params w →
    StreamWorld.abortLoop params fuel w = .ok later → Calm w later := by
  induction fuel with
  | zero =>
    intro w _ result
    cases result
    exact .refl
  | succ fuel ih =>
    intro w wellformed result
    rw [StreamWorld.abortLoop] at result
    split at result
    · cases result
      exact .refl
    · rename_i nonempty
      obtain ⟨next, closes, result⟩ := Checked.bind_eq_ok result
      have present : w.runner.frames ≠ [] := fun empty => nonempty (List.isEmpty_iff.mpr empty)
      obtain ⟨frame, rest, frames⟩ := List.exists_cons_of_ne_nil present
      have found : w.runner.frames[0]? = some frame := by rw [frames]; rfl
      obtain ⟨_, closed, erased, _, _, slots, kept⟩ := StreamWorld.closeFrame_spec wellformed found .aborted
      rw [closes] at closed
      cases closed
      exact (Calm.closeFrame wellformed found closes).trans
        (ih (wellformed.remove found erased slots kept) result)

theorem flushFrames_calm (wellformed : Wellformed params w) (result : w.flushFrames params = .ok later) :
    Calm w later := by
  obtain ⟨cleared, discards, result⟩ := Checked.bind_eq_ok result
  have calm : Calm w cleared := makeWay_calm none wellformed discards
  obtain ⟨next, discards', (moves : Moves params [] none _ _), _⟩ :=
    StreamWorld.discardProvisional_moves [] none wellformed
  rw [discards] at discards'
  cases discards'
  exact calm.trans (abortLoop_calm _ (moves.wellformed wellformed) result)

theorem schedule_calm (schedule : List (List ConsumerAct)) (w : StreamWorld) : Calm w { w with schedule := schedule } :=
  ⟨rfl, rfl, .refl _⟩

theorem noteDrops_calm (drops : Option Nat) (w : StreamWorld) : Calm w (w.noteDrops drops) := by
  cases drops with
  | none => exact .refl
  | some drops => exact .setStats _ _

theorem step_newestLast {input : StreamInput} (wellformed : Wellformed params w) (ordered : w.lineup.Ordered)
    (newest : w.NewestLast) (result : w.step params input = .ok later) : later.NewestLast := by
  cases input with
  | packet received now systemNow schedule =>
    let ready := { w with schedule := schedule }.noteDrops received.drops
    have noted : StreamWorld.Quietly [] w ready := (StreamWorld.schedule_quietly wellformed.accounted schedule).trans
      (StreamWorld.noteDrops_quietly { w with schedule := schedule } wellformed.accounted received.drops)
    have noted_calm : Calm w ready := (schedule_calm schedule w).trans (noteDrops_calm received.drops _)
    simp only [StreamWorld.step, StreamWorld.drainSocket] at result
    split at result
    · have counted : StreamWorld.Quietly [] w (ready.countPacket received.datagram) :=
        noted.trans (StreamWorld.setStats_quietly _ noted.accounted _)
      have moves : Moves params [] none w (ready.countPacket received.datagram) := counted.moves
      exact processPacket_newestLast (moves.wellformed wellformed) (moves.ordered ordered)
        ((noted_calm.trans (.setStats _ _)).newestLast newest) result
    · cases result
      exact noted_calm.newestLast newest
  | tick now schedule =>
    obtain ⟨checked, completion, result⟩ := Checked.bind_eq_ok result
    cases result
    have calm := Calm.checkFrameCompletion (schedule_wellformed wellformed schedule) completion
    have published : Calm checked checked.publishStats := ⟨rfl, rfl, .refl _⟩
    exact (((schedule_calm schedule w).trans calm).trans published).newestLast newest
  | commands schedule =>
    cases result
    have drained := StreamWorld.drainCommands_quietly { w with schedule := schedule } wellformed.accounted
    exact ((schedule_calm schedule w).trans (.same (.drainCommands _) drained.frames)).newestLast newest
  | acts acts =>
    cases result
    have acted : Calm w { w with fabric := acts.foldl Fabric.consume w.fabric } := ⟨rfl, rfl, .refl _⟩
    exact acted.newestLast newest
  | flush schedule =>
    obtain ⟨flushed, flush, result⟩ := Checked.bind_eq_ok result
    cases result
    have calm := flushFrames_calm (schedule_wellformed wellformed schedule) flush
    have cleared : Calm flushed flushed.publishStats.clearSubscribers := ⟨rfl, rfl, .refl _⟩
    exact (((schedule_calm schedule w).trans calm).trans cleared).newestLast newest

theorem run_newestLast (inputs : List StreamInput) : ∀ {w : StreamWorld}, Wellformed params w → w.lineup.Ordered →
    w.NewestLast → w.run params inputs = .ok later → later.NewestLast ∧ later.lineup.Ordered := by
  induction inputs with
  | nil =>
    intro w _ ordered newest result
    cases result
    exact ⟨newest, ordered⟩
  | cons input rest ih =>
    intro w wellformed ordered newest result
    obtain ⟨next, stepped, moves⟩ := StreamWorld.step_moves input wellformed
    rw [StreamWorld.run, stepped] at result
    exact ih (moves.wellformed wellformed) (moves.ordered ordered) (step_newestLast wellformed ordered newest stepped)
      result

end Positions

/-! ## Stale frames -/

def Gone (journal : List StreamEvent) (opening : Nat) : Prop :=
  .discarded opening ∈ journal ∨ ∃ frame accepted, .delivered opening frame accepted ∈ journal

theorem Gone.append {journal : List StreamEvent} {opening : Nat} (gone : Gone journal opening)
    (events : List StreamEvent) : Gone (journal ++ events) opening := by
  rcases gone with discarded | ⟨frame, accepted, delivered⟩
  · exact .inl (List.mem_append_left _ discarded)
  · exact .inr ⟨frame, accepted, List.mem_append_left _ delivered⟩

section Stale

variable {params : StreamParams} {now : Nat} {currentFrameId : Option Nat} {w later : StreamWorld} {index : Nat}
  {frame : FrameInFlight}

theorem mem_eraseIdx_or {Value : Type} {values : List Value} {index : Nat} {removed value : Value}
    (found : values[index]? = some removed) (present : value ∈ values) :
    value = removed ∨ value ∈ values.eraseIdx index :=
  List.mem_cons.mp ((perm_cons_eraseIdx found).mem_iff.mp present)

theorem Lineup.Step.stays_or_gone {line after : Lineup} (step : Lineup.Step line after) {entry : Entry}
    (present : entry ∈ line.entries) :
    (∃ kept ∈ after.entries, kept.opening = entry.opening) ∨ Gone after.journal entry.opening := by
  cases step with
  | requested request => exact .inl ⟨entry, present, rfl⟩
  | joined => exact .inl ⟨entry, List.mem_append_left _ present, rfl⟩
  | @madeReal index adopted found provisional =>
    have same : (line.entries.set index { adopted with provisional := false }).map (·.opening) =
        line.entries.map (·.opening) := map_set_same _ found rfl
    have still : entry.opening ∈ (line.entries.set index { adopted with provisional := false }).map (·.opening) :=
      same ▸ List.mem_map_of_mem present
    exact .inl (List.mem_map.mp still)
  | left found provisional =>
    rcases mem_eraseIdx_or found present with rfl | kept
    · exact .inr (.inl (List.mem_append_right _ (List.mem_singleton_self _)))
    · exact .inl ⟨entry, kept, rfl⟩
  | served found real headOfLine sameId =>
    rcases mem_eraseIdx_or found present with rfl | kept
    · exact .inr (.inr ⟨_, _, List.mem_append_right _ (List.mem_singleton_self _)⟩)
    · exact .inl ⟨entry, kept, rfl⟩

theorem Lineup.Step.gone {line after : Lineup} (step : Lineup.Step line after) {opening : Nat}
    (gone : Gone line.journal opening) : Gone after.journal opening := by
  cases step with
  | requested | joined | madeReal | left | served => exact gone.append _

theorem Moves.stays_or_gone {origin : List FrameInFlight} {arrival : Option GvspView}
    (moves : Moves params origin arrival w later) (present : frame ∈ w.runner.frames) :
    (∃ kept ∈ later.runner.frames, kept.opening = frame.opening) ∨ Gone later.journal frame.opening := by
  have entry_present : frame.entry ∈ w.lineup.entries := List.mem_map_of_mem present
  have entries : (∃ kept ∈ later.lineup.entries, kept.opening = frame.opening) ∨ Gone later.journal frame.opening := by
    induction moves with
    | refl => exact .inl ⟨frame.entry, entry_present, rfl⟩
    | @tail middle last _ move ih =>
      rcases move.lineup with same | step
      · rw [same, show last.journal = middle.journal from congrArg Lineup.journal same]
        exact ih
      · rcases ih with ⟨kept, inLine, opening⟩ | gone
        · rw [← opening]
          exact step.stays_or_gone inLine
        · exact .inr (step.gone gone)
  rcases entries with ⟨_, inLine, opening⟩ | gone
  · obtain ⟨kept, inFlight, rfl⟩ := List.mem_map.mp inLine
    exact .inl ⟨kept, inFlight, opening⟩
  · exact .inr gone

theorem completionLoop_drops (now : Nat) (currentFrameId : Option Nat) (fuel : Nat) : ∀ (done rest : List FrameInFlight) (canClose : Bool) (w : StreamWorld),
    Wellformed params w → w.runner.frames = done ++ rest → rest.length ≤ fuel →
    (∀ frame ∈ rest, frame.provisional = true ∧ frame.quietFor now params.frameRetention = true) →
    ∃ later, StreamWorld.completionLoop params now currentFrameId fuel done.length canClose w = .ok later ∧
      later.runner.frames = done := by
  induction fuel with
  | zero =>
    intro done rest canClose w _ frames enough _
    obtain rfl := List.length_eq_zero_iff.mp (Nat.le_zero.mp enough)
    exact ⟨w, rfl, frames.trans (List.append_nil _)⟩
  | succ fuel ih =>
    intro done rest canClose w wellformed frames enough stale
    rw [StreamWorld.completionLoop]
    cases rest with
    | nil =>
      rw [List.append_nil] at frames
      exact ⟨w, if_neg (by rw [frames]; exact Nat.lt_irrefl _), frames⟩
    | cons frame rest =>
      have found := StreamWorld.getElem?_middle frames
      obtain ⟨provisional, quiet⟩ := stale frame List.mem_cons_self
      obtain ⟨next, discards, (moves : Moves params [] none _ _), erased⟩ :=
        StreamWorld.discardFrame_moves [] none wellformed found provisional
      have steps : w.completionStep params now currentFrameId done.length canClose =
          .ok (next, done.length, canClose) := by
        unfold StreamWorld.completionStep
        rw [StreamWorld.get_frame found, Checked.ok_bind, if_pos provisional, if_pos (.inr quiet), discards]
        rfl
      have split : next.runner.frames = done ++ rest := by
        rw [erased, frames, List.eraseIdx_append_of_length_le le_rfl, Nat.sub_self]
        rfl
      rw [if_pos (List.getElem?_eq_some_iff.mp found).1, steps, Checked.ok_bind]
      exact ih done rest canClose next (moves.wellformed wellformed) split (Nat.le_of_succ_le_succ enough)
        fun other present => stale other (List.mem_cons_of_mem _ present)

/-- A stale real frame at the head of the line is closed, unless it is at the
worker's position and its packets stop after the leader. -/
theorem completionStep_stale (currentFrameId : Option Nat) (wellformed : Wellformed params w) (found : w.runner.frames[0]? = some frame)
    (real : frame.provisional = false) (quiet : frame.quietFor now params.frameRetention = true) :
    (∃ later status, w.completionStep params now currentFrameId 0 true = .ok (later, 0, true) ∧
      w.closeFrame params 0 status = .ok later) ∨
    (frame.frameId = w.runner.lastFrameId ∧ frame.lastValidPacket = 0 ∧ ∃ later after,
      w.completionStep params now currentFrameId 0 true = .ok (later, 1, false) ∧ Wellformed params later ∧
      Untouched frame after ∧ later.runner.frames = w.runner.frames.set 0 after) := by
  have closes : ∀ status, (do
      let w ← w.closeFrame params 0 status
      return (w, 0, true) : Checked (StreamWorld × Nat × Bool)) = w.completionStep params now currentFrameId 0 true →
      ∃ later status, w.completionStep params now currentFrameId 0 true = .ok (later, 0, true) ∧
        w.closeFrame params 0 status = .ok later := by
    intro status result
    obtain ⟨later, closed, _⟩ := StreamWorld.closeFrame_spec wellformed found status
    rw [closed] at result
    exact ⟨later, status, result.symm, closed⟩
  by_cases all : frame.allReceived = true
  · refine .inl (closes frame.finishedStatus ?_)
    rw [StreamWorld.completionStep, StreamWorld.get_frame found, Checked.ok_bind, if_neg (Bool.eq_false_iff.mp real),
      if_pos ⟨rfl, all⟩]
  have unfinished : ¬ (true = true ∧ frame.allReceived = true) := fun both => all both.2
  by_cases superseded : (!params.resendEnabled) = true ∧
      (w.runner.frames.drop (0 + 1)).any (!·.provisional) = true
  · refine .inl (closes .missingPackets ?_)
    rw [StreamWorld.completionStep, StreamWorld.get_frame found, Checked.ok_bind, if_neg (Bool.eq_false_iff.mp real),
      if_neg unfinished, if_pos ⟨rfl, superseded⟩]
  by_cases expires : frame.frameId ≠ w.runner.lastFrameId ∨ frame.lastValidPacket ≠ 0
  · refine .inl (closes (frame.error.getD .timeout) ?_)
    rw [StreamWorld.completionStep, StreamWorld.get_frame found, Checked.ok_bind, if_neg (Bool.eq_false_iff.mp real),
      if_neg unfinished, if_neg (fun may => superseded may.2), if_pos ⟨rfl, expires, quiet⟩]
  · have exempt : frame.frameId = w.runner.lastFrameId ∧ frame.lastValidPacket = 0 := by
      simpa only [not_or, not_not] using expires
    have alone : params.resendEnabled = false → (w.runner.frames.drop (0 + 1)).any (!·.provisional) = false := by
      intro off
      refine Bool.eq_false_iff.mpr fun newer => superseded ⟨by rw [off]; rfl, newer⟩
    obtain ⟨later, after, steps, _, still, untouched, frames⟩ := StreamWorld.completionStep_stays now currentFrameId true
      wellformed found real fun _ => ⟨Bool.eq_false_iff.mpr all, alone, fun expiring => absurd expiring expires⟩
    exact .inr ⟨exempt.1, exempt.2, later, after, steps, still, untouched, frames⟩

/-- The frame at the worker's position, whose packets stop after the leader, is
all that a look at stale frames can leave in flight. -/
theorem completionLoop_stale (currentFrameId : Option Nat) (fuel : Nat) : ∀ (w : StreamWorld), Wellformed params w →
    Leading w.runner.lastFrameId w.lineup.entries → w.runner.frames.length ≤ fuel →
    (∀ frame ∈ w.runner.frames, frame.quietFor now params.frameRetention = true) →
    ∃ later, StreamWorld.completionLoop params now currentFrameId fuel 0 true w = .ok later ∧
      ∀ after ∈ later.runner.frames, ∃ frame ∈ w.runner.frames, Untouched frame after ∧
        frame.frameId = w.runner.lastFrameId ∧ frame.lastValidPacket = 0 := by
  induction fuel with
  | zero =>
    intro w _ _ enough _
    have empty := List.length_eq_zero_iff.mp (Nat.le_zero.mp enough)
    exact ⟨w, rfl, fun after present => by rw [empty] at present; cases present⟩
  | succ fuel ih =>
    intro w wellformed leading enough stale
    rw [StreamWorld.completionLoop]
    cases frames : w.runner.frames with
    | nil => exact ⟨w, if_neg (Nat.not_lt_zero 0), fun after present => by rw [frames] at present; cases present⟩
    | cons frame rest =>
      have found : w.runner.frames[0]? = some frame := by rw [frames]; rfl
      have erase : w.runner.frames.eraseIdx 0 = rest := by rw [frames]; rfl
      have quiet := stale frame (frames ▸ List.mem_cons_self)
      rw [frames, List.length_cons] at enough
      rw [if_pos (show 0 < (frame :: rest).length from Nat.zero_lt_succ _)]
      -- The head leaves and the pass goes on with the rest.
      have continues : ∀ next, Calm w next → Wellformed params next → next.runner.frames = rest →
          ∃ later, StreamWorld.completionLoop params now currentFrameId fuel 0 true next = .ok later ∧
            ∀ after ∈ later.runner.frames, ∃ other ∈ frame :: rest, Untouched other after ∧
              other.frameId = w.runner.lastFrameId ∧ other.lastValidPacket = 0 := by
        intro next calm still left
        have next_leading : Leading next.runner.lastFrameId next.lineup.entries := by
          rw [calm.lastFrameId]
          exact leading.sublist calm.entries
        obtain ⟨later, result, remains⟩ := ih next still next_leading (by rw [left]; omega) fun other present =>
          stale other (by rw [frames]; exact List.mem_cons_of_mem _ (left ▸ present))
        refine ⟨later, result, fun after present => ?_⟩
        obtain ⟨other, inRest, facts⟩ := remains after present
        rw [calm.lastFrameId] at facts
        exact ⟨other, List.mem_cons_of_mem _ (left ▸ inRest), facts⟩
      cases real : frame.provisional with
      | true =>
        obtain ⟨next, discards, (moves : Moves params [] none _ _), erased⟩ :=
          StreamWorld.discardFrame_moves [] none wellformed found real
        have steps : w.completionStep params now currentFrameId 0 true = .ok (next, 0, true) := by
          unfold StreamWorld.completionStep
          rw [StreamWorld.get_frame found, Checked.ok_bind, if_pos real, if_pos (.inr quiet), discards]
          rfl
        rw [steps, Checked.ok_bind]
        exact continues next (.discardFrame wellformed found real discards) (moves.wellformed wellformed)
          (erased.trans erase)
      | false =>
        rcases completionStep_stale currentFrameId wellformed found real quiet with
          ⟨next, status, steps, closed⟩ | ⟨position, leaderOnly, next, after, steps, still, untouched, set⟩
        · obtain ⟨_, closed', erased, _, _, slots, kept⟩ := StreamWorld.closeFrame_spec wellformed found status
          rw [closed] at closed'
          cases closed'
          rw [steps, Checked.ok_bind]
          exact continues next (.closeFrame wellformed found closed) (wellformed.remove found erased slots kept)
            (erased.trans erase)
        · have split : next.runner.frames = [after] ++ rest := by
            rw [set, frames]
            rfl
          have behind : ∀ other ∈ rest, other.provisional = true := by
            rw [Leading, StreamWorld.lineup, frames] at leading
            exact fun other present =>
              (List.pairwise_cons.mp leading).1 other.entry (List.mem_map_of_mem present) position
          obtain ⟨later, result, remains⟩ := completionLoop_drops now currentFrameId
            fuel [after] rest false next still split (by omega) fun other present =>
              ⟨behind other present, stale other (by rw [frames]; exact List.mem_cons_of_mem _ present)⟩
          rw [steps, Checked.ok_bind]
          refine ⟨later, result, fun kept present => ?_⟩
          rw [remains] at present
          rw [List.mem_singleton.mp present]
          exact ⟨frame, List.mem_cons_self, untouched, position, leaderOnly⟩

end Stale

namespace FrameInFlight

/-- Packet 0 is the only one received; if no packet was refused, it was a
leader. -/
def OnlyLeader (frame : FrameInFlight) : Prop :=
  (∀ k, isReceived frame.slot.packets k = true ↔ k = 0) ∧
    (frame.error = none → ∃ view, frame.accepted = [view] ∧ view.contentType = .leader ∧ view.packetId = 0)

/-- Once the leader is there, packet 1 comes before the packets behind it. -/
def NoGapAfterLeader (frame : FrameInFlight) : Prop :=
  isReceived frame.slot.packets 0 = true → isReceived frame.slot.packets 1 = false →
    ∀ k, isReceived frame.slot.packets k = true → k = 0

theorem OnlyLeader.of_leading {params : StreamParams} {frame : FrameInFlight} (valid : Valid params frame)
    (leaderOnly : frame.lastValidPacket = 0) (gapless : frame.NoGapAfterLeader) : frame.OnlyLeader := by
  have ends := valid.inBounds.prefixEnd
  rw [leaderOnly] at ends
  have first := ends.received 0 le_rfl
  have flags : ∀ k, isReceived frame.slot.packets k = true ↔ k = 0 :=
    fun k => ⟨gapless first ends.maximal k, fun isFirst => isFirst ▸ first⟩
  refine ⟨flags, fun clean => ?_⟩
  have flagged := valid.flagged clean
  have ids : ∀ k, k ∈ frame.accepted.map (·.packetId) ↔ k = 0 := fun k => (flagged.received_iff k).symm.trans (flags k)
  obtain ⟨view, taken, isFirst⟩ := List.mem_map.mp ((ids 0).mpr rfl)
  have kind := (valid.contents clean).fitting view taken
  have single : frame.accepted = [view] := by
    have distinct := flagged.distinct
    cases accepted : frame.accepted with
    | nil =>
      rw [accepted] at taken
      cases taken
    | cons head rest =>
      rw [accepted] at taken distinct ids
      -- A second packet would have the same id.
      have empty : rest = [] := List.eq_nil_iff_forall_not_mem.mpr fun other present => by
        have zero := (ids other.packetId).mp (List.mem_map_of_mem (List.mem_cons_of_mem _ present))
        have head_zero := (ids head.packetId).mp (List.mem_map_of_mem List.mem_cons_self)
        rw [List.map_cons, List.nodup_cons] at distinct
        exact distinct.1 (head_zero.trans zero.symm ▸ List.mem_map_of_mem present)
      rw [empty, List.mem_singleton] at taken
      rw [empty, taken]
  refine ⟨view, single, ?_, isFirst⟩
  unfold FitsFrame at kind
  split at kind
  · assumption
  · omega
  · omega
  · exact kind.elim

end FrameInFlight

/-- The packets received for each frame in flight, and whether it is stale. -/
def StreamWorld.waiting (params : StreamParams) (now : Nat) (w : StreamWorld) : List (Nat × List Bool × Bool) :=
  w.runner.frames.map fun frame =>
    (frame.frameId, frame.slot.packets.map (·.received), frame.quietFor now params.frameRetention)

def gapAfterLeader : List StreamInput :=
  [arrivingAt 0 [0, 0, 0, 1, 1, 0, 0, 0, 0, 0, 0, 1, 0, 0, 0, 0, 0, 0, 0, 0], arrivingAt 0 [0, 0, 0, 1, 3, 0, 0, 2, 10]]

end Telegenic.Stream
