import Telegenic.Stream.Recent
import Telegenic.Stream.Retention

/-! A snapshot session: single frames captured over a stream that stays open.
The device is part of the surroundings: whatever it is told to do, any packets
can reach the worker at any time. -/

set_option autoImplicit false

namespace Telegenic.Stream

open Library Proto Proto.Gvsp

inductive SnapPhase where
  | idle
  | clear
  | start
  | wait
  | blocked (left : Nat)
  | stop (frame : Option Nat)
  deriving DecidableEq, Repr

inductive AcquisitionCommand where
  | start
  | stop
  deriving DecidableEq, Repr

structure SnapshotSession where
  worker : StreamWorld
  frames : Nat
  autoStops : Bool
  phase : SnapPhase := .idle
  commands : List AcquisitionCommand := []
  started : List StreamEvent := []
  /-- History variable: the frames that calls of `snap` returned, each with what
  had happened when that call issued its `AcquisitionStart`. -/
  returned : List (List StreamEvent × Nat) := []

inductive SnapAction where
  | worker (input : StreamInput)
  | snap
  | advance (accepted : Bool)
  | expire
  deriving DecidableEq, Repr

namespace SnapshotSession

/-- `SnapshotSession::open` over a stream channel that was just opened. -/
def openSession (params : StreamParams) (autoStops : Bool) : SnapshotSession :=
  let worker := StreamWorld.spawn params
  { worker := { worker with fabric := worker.fabric.consume (.subscribe 4) }
    frames := worker.fabric.subscriptions.length
    autoStops := autoStops }

/-- The session's channel. -/
def channel (s : SnapshotSession) : Option Subscription :=
  s.worker.fabric.subscriptions[s.frames]?

/-- The keys in the session's channel. -/
def queue (s : SnapshotSession) : List Nat :=
  s.channel.elim [] (·.queue)

/-- The frames that have left the session's channel. -/
def received (s : SnapshotSession) : List Nat :=
  s.channel.elim [] (·.received)

def act (acts : List ConsumerAct) (s : SnapshotSession) : SnapshotSession :=
  { s with worker := { s.worker with fabric := acts.foldl Fabric.consume s.worker.fabric } }

def setPhase (phase : SnapPhase) (s : SnapshotSession) : SnapshotSession :=
  { s with phase := phase }

def receive (left : Nat) (s otherwise : SnapshotSession) : SnapshotSession :=
  match s.received[left]? with
  | some key => s.setPhase (.stop (some key))
  | none => otherwise

def finish (frame : Option Nat) (accepted : Bool) (s : SnapshotSession) : SnapshotSession :=
  let stops := (!s.autoStops || frame.isNone) && accepted
  { s with
    phase := .idle
    commands := s.commands ++ if stops then [.stop] else []
    returned := s.returned ++ (frame.map fun key => (s.started, key)).toList }

def advance (accepted : Bool) (s : SnapshotSession) : SnapshotSession :=
  match s.phase with
  | .idle => s
  | .clear =>
      match s.queue with
      | key :: _ => s.act [.tryRecv s.frames, .dropFrame key]
      | [] => s.setPhase .start
  | .start =>
      if accepted then
        { s with phase := .wait, commands := s.commands ++ [.start], started := s.worker.journal }
      else
        s.setPhase .idle
  | .wait =>
      match s.queue with
      | key :: _ => (s.act [.tryRecv s.frames]).setPhase (.stop (some key))
      | [] => (s.act [.startWaiting s.frames .thread]).setPhase (.blocked s.received.length)
  | .blocked left => s.receive left s
  | .stop frame => s.finish frame accepted

def step (params : StreamParams) (s : SnapshotSession) : SnapAction → Checked SnapshotSession
  | .worker input => do
      let worker ← s.worker.step params input
      return { s with worker := worker }
  | .snap => .ok (if s.phase = .idle then s.setPhase .clear else s)
  | .advance accepted => .ok (s.advance accepted)
  | .expire =>
      .ok (match s.phase with
        | .blocked left => s.receive left ((s.act [.stopWaiting s.frames 0]).setPhase (.stop none))
        | _ => s)

def run (params : StreamParams) : List SnapAction → SnapshotSession → Checked SnapshotSession
  | [], s => .ok s
  | action :: rest, s => do
      let s ← s.step params action
      run params rest s

/-- Every action is allowed in the state that it meets. -/
def Along (params : StreamParams) (allowed : SnapshotSession → SnapAction → Prop) : List SnapAction →
    SnapshotSession → Prop
  | [], _ => True
  | action :: rest, s =>
      allowed s action ∧
        match s.step params action with
        | .ok next => Along params allowed rest next
        | .error _ => True

/-- When `AcquisitionStart` is issued no frame is in flight and none is in the
session's channel. -/
def StartsAfresh (s : SnapshotSession) : SnapAction → Prop
  | .advance true => s.phase = .start → s.worker.runner.frames = [] ∧ s.queue = []
  | _ => True

instance (s : SnapshotSession) (action : SnapAction) : Decidable (s.StartsAfresh action) :=
  match action with
  | .advance true => inferInstanceAs (Decidable (_ → _))
  | .advance false | .worker _ | .snap | .expire => .isTrue trivial

instance alongDecidable (params : StreamParams) : ∀ (actions : List SnapAction) (s : SnapshotSession),
    Decidable (Along params StartsAfresh actions s)
  | [], _ => .isTrue trivial
  | action :: rest, s =>
      have : Decidable (match s.step params action with
          | .ok next => Along params StartsAfresh rest next
          | .error _ => True) :=
        match s.step params action with
        | .ok next => alongDecidable params rest next
        | .error _ => .isTrue trivial
      inferInstanceAs (Decidable (_ ∧ _))

end SnapshotSession

/-- The frame with this key had not been opened when the journal was as it was
then. -/
def StreamWorld.OpenedSince (w : StreamWorld) (started : List StreamEvent) (key : Nat) : Prop :=
  ∃ opening, (deliveredIn w.journal)[key]? = some opening ∧ opening ∈ openedIn w.journal ∧ opening ∉ openedIn started

section Live

variable {params : StreamParams} {w later : StreamWorld} {id left base : Nat}

structure StreamWorld.Live (params : StreamParams) (w : StreamWorld) : Prop where
  wellformed : Wellformed params w
  ledger : w.Ledger True []
  ordered : w.lineup.Ordered

structure Advances (params : StreamParams) (w later : StreamWorld) : Prop where
  live : later.Live params
  recent : ∀ {id left base}, w.fabric.Recent id left base base → later.fabric.Recent id left base base
  since : ∀ {base before}, w.lineup.Since base before → later.lineup.Since base before

theorem StreamWorld.Live.step (live : w.Live params) {input : StreamInput} (running : input.isFlush = false) :
    ∃ later, w.step params input = .ok later ∧ Advances params w later := by
  obtain ⟨later, result, moves⟩ := StreamWorld.step_moves input live.wellformed
  have channels := step_channels live.wellformed live.ledger.enrolled running result
  exact ⟨later, result, ⟨moves.wellformed live.wellformed, channels.ledger live.ledger, moves.ordered live.ordered⟩,
    channels.recent, moves.since⟩

theorem StreamWorld.Live.acts (live : w.Live params) (acts : List ConsumerAct) :
    Advances params w { w with fabric := acts.foldl Fabric.consume w.fabric } := by
  obtain ⟨later, result, advances⟩ := live.step (show (StreamInput.acts acts).isFlush = false from rfl)
  cases result
  exact advances

theorem StreamWorld.Live.opened (live : w.Live params) {opening : Nat} (delivered : opening ∈ deliveredIn w.journal) :
    opening ∈ openedIn w.journal := by
  rw [show openedIn w.journal = _ from live.ordered.opened]
  exact List.mem_range.mpr (live.ordered.below opening (List.mem_append_left _ delivered))

theorem StreamWorld.OpenedSince.advances {started : List StreamEvent} {key : Nat} (since : w.OpenedSince started key)
    (advances : Advances params w later) : later.OpenedSince started key := by
  obtain ⟨opening, delivered, _, new⟩ := since
  have start : w.lineup.Since 0 (deliveredIn w.journal) :=
    ⟨Nat.zero_le _, fun _ _ => Nat.zero_le _, [], (List.append_nil _).symm, fun _ _ => Nat.zero_le _⟩
  obtain ⟨after, grown, _⟩ := (advances.since start).delivered
  have still : (deliveredIn later.journal)[key]? = some opening := by
    rw [show deliveredIn later.journal = _ from grown,
      List.getElem?_append_left (List.getElem?_eq_some_iff.mp delivered).1]
    exact delivered
  exact ⟨opening, still, advances.live.opened (List.mem_of_getElem? still), new⟩

theorem deliveredFrames_length (journal : List StreamEvent) :
    (deliveredFrames journal).length = (deliveredIn journal).length := by
  rw [deliveredFrames, deliveredIn, List.length_filterMap_eq_countP, List.length_filterMap_eq_countP]
  congr 1
  funext event
  cases event <;> rfl

end Live

namespace SnapshotSession

variable {params : StreamParams} {s later : SnapshotSession} {left base : Nat}

/-- Since `AcquisitionStart` was issued only frames that were opened later
have come to the channel. -/
structure Armed (s : SnapshotSession) (left : Nat) : Prop where
  recent : s.worker.fabric.Recent s.frames left (deliveredIn s.started).length (deliveredIn s.started).length
  since : ∃ base, s.worker.lineup.Since base (deliveredIn s.started) ∧ ∀ opening ∈ openedIn s.started, opening < base

def Expects (s : SnapshotSession) : SnapPhase → Prop
  | .idle | .clear | .start | .stop none => True
  | .wait => ∃ left, s.Armed left
  | .blocked left => s.Armed left
  | .stop (some key) => s.worker.OpenedSince s.started key

structure Sound (params : StreamParams) (s : SnapshotSession) : Prop where
  live : s.worker.Live params
  expects : s.Expects s.phase
  returned : ∀ snap ∈ s.returned, s.worker.OpenedSince snap.1 snap.2

theorem Armed.opened (armed : s.Armed left) (live : s.worker.Live params) {key : Nat}
    (bounds : (deliveredIn s.started).length ≤ key ∧ key < s.worker.fabric.nextKey) :
    s.worker.OpenedSince s.started key := by
  obtain ⟨base, since, opened⟩ := armed.since
  obtain ⟨after, delivered, recent⟩ := since.delivered
  have closed : s.worker.fabric.nextKey = (deliveredIn s.worker.journal).length :=
    live.ledger.nextKey.trans (deliveredFrames_length _)
  have delivered : deliveredIn s.worker.journal = deliveredIn s.started ++ after := delivered
  have found : (deliveredIn s.worker.journal)[key]? = after[key - (deliveredIn s.started).length]? := by
    rw [delivered, List.getElem?_append_right bounds.1]
  have inside : key - (deliveredIn s.started).length < after.length := by
    have length := congrArg List.length delivered
    rw [List.length_append] at length
    omega
  rw [List.getElem?_eq_getElem inside] at found
  refine ⟨_, found, live.opened (List.mem_of_getElem? found), fun old => ?_⟩
  exact absurd (recent _ (List.getElem_mem inside)) (not_le.mpr (opened _ old))

theorem Armed.advances {worker : StreamWorld} (armed : s.Armed left) (advances : Advances params s.worker worker) :
    ({ s with worker := worker } : SnapshotSession).Armed left := by
  obtain ⟨base, since, opened⟩ := armed.since
  exact ⟨advances.recent armed.recent, base, advances.since since, opened⟩

theorem Expects.advances {worker : StreamWorld} {phase : SnapPhase} (expects : s.Expects phase)
    (advances : Advances params s.worker worker) : ({ s with worker := worker } : SnapshotSession).Expects phase := by
  cases phase with
  | idle | clear | start => trivial
  | wait =>
    obtain ⟨left, armed⟩ := expects
    exact ⟨left, armed.advances advances⟩
  | blocked left => exact Armed.advances expects advances
  | stop frame =>
    cases frame with
    | none => trivial
    | some key => exact StreamWorld.OpenedSince.advances expects advances

theorem Sound.advances {worker : StreamWorld} (sound : s.Sound params) (advances : Advances params s.worker worker) :
    ({ s with worker := worker } : SnapshotSession).Sound params :=
  ⟨advances.live, sound.expects.advances advances, fun snap present => (sound.returned snap present).advances advances⟩

theorem Sound.act (sound : s.Sound params) (acts : List ConsumerAct) : (s.act acts).Sound params :=
  sound.advances (sound.live.acts acts)

theorem Sound.setPhase (sound : s.Sound params) {phase : SnapPhase} (expects : s.Expects phase) :
    (s.setPhase phase).Sound params := by
  refine ⟨sound.live, ?_, sound.returned⟩
  cases phase with
  | idle | clear | start => trivial
  | wait =>
    obtain ⟨left, armed⟩ := expects
    exact ⟨left, armed.recent, armed.since⟩
  | blocked left => exact ⟨expects.recent, expects.since⟩
  | stop frame => cases frame <;> exact expects

theorem recent_of_empty (empty : s.queue = []) (reached : base ≤ s.worker.fabric.nextKey) :
    s.worker.fabric.Recent s.frames s.received.length base base := by
  refine ⟨fun subscription found key present => ?_, reached⟩
  have isChannel : s.channel = some subscription := found
  have queue : subscription.queue = [] := by
    rw [SnapshotSession.queue, isChannel] at empty
    exact empty
  have received : s.received = subscription.received := by
    rw [SnapshotSession.received, isChannel]
    rfl
  rw [queue, received, List.drop_length] at present
  cases present

theorem Sound.receive {otherwise : SnapshotSession} (sound : s.Sound params) (armed : s.Armed left)
    (other : otherwise.Sound params) : (s.receive left otherwise).Sound params := by
  rw [SnapshotSession.receive]
  split
  · rename_i key found
    refine sound.setPhase (show s.worker.OpenedSince s.started key from armed.opened sound.live ?_)
    cases isChannel : s.channel with
    | none =>
      rw [SnapshotSession.received, isChannel] at found
      cases found
    | some subscription =>
      rw [SnapshotSession.received, isChannel] at found
      refine armed.recent.subscription subscription isChannel key (List.mem_append_left _ ?_)
      have found : subscription.received[left]? = some key := found
      rw [List.mem_iff_getElem?]
      exact ⟨0, by rw [List.getElem?_drop]; exact found⟩
  · exact other

theorem Sound.start (sound : s.Sound params) (idle : s.worker.runner.frames = []) (empty : s.queue = []) :
    ({ s with phase := .wait, commands := s.commands ++ [.start], started := s.worker.journal } :
      SnapshotSession).Sound params := by
  have closed : s.worker.fabric.nextKey = (deliveredIn s.worker.journal).length :=
    sound.live.ledger.nextKey.trans (deliveredFrames_length _)
  refine ⟨sound.live, ⟨s.received.length, recent_of_empty empty closed.ge, s.worker.runner.openings, ⟨le_rfl, ?_, [], ?_, ?_⟩,
    ?_⟩, sound.returned⟩
  · intro entry present
    rw [show s.worker.lineup.entries = [] from congrArg (List.map _) idle] at present
    cases present
  · exact (List.append_nil _).symm
  · exact fun _ present => by cases present
  · intro opening present
    rw [show openedIn s.worker.journal = _ from sound.live.ordered.opened] at present
    exact List.mem_range.mp present

theorem Sound.advance {accepted : Bool} (sound : s.Sound params) (afresh : s.StartsAfresh (.advance accepted)) :
    (s.advance accepted).Sound params := by
  have expects := sound.expects
  unfold SnapshotSession.advance
  split
  · exact sound
  · split
    · exact sound.act _
    · exact sound.setPhase trivial
  · rename_i phase
    split
    · rename_i isAccepted
      subst isAccepted
      exact sound.start (afresh phase).1 (afresh phase).2
    · exact sound.setPhase trivial
  · rename_i phase
    rw [phase] at expects
    obtain ⟨left, armed⟩ := expects
    split
    · rename_i key rest queue
      have own : s.worker.OpenedSince s.started key := by
        refine armed.opened sound.live ?_
        cases isChannel : s.channel with
        | none =>
          rw [SnapshotSession.queue, isChannel] at queue
          cases queue
        | some subscription =>
          rw [SnapshotSession.queue, isChannel] at queue
          refine armed.recent.subscription subscription isChannel key (List.mem_append_right _ ?_)
          exact (show subscription.queue = key :: rest from queue) ▸ List.mem_cons_self
      exact (sound.act _).setPhase (own.advances (sound.live.acts [.tryRecv s.frames]))
    · rename_i empty
      have blocked : s.Armed s.received.length :=
        ⟨recent_of_empty empty armed.recent.reached, armed.since⟩
      exact (sound.act _).setPhase (blocked.advances (sound.live.acts [.startWaiting s.frames .thread]))
  · rename_i left phase
    rw [phase] at expects
    exact sound.receive expects sound
  · rename_i frame phase
    rw [phase] at expects
    refine ⟨sound.live, trivial, fun snap present => ?_⟩
    rcases List.mem_append.mp present with old | new
    · exact sound.returned snap old
    · cases frame with
      | none => cases new
      | some key =>
        cases List.mem_singleton.mp new
        exact expects

theorem Sound.step {action : SnapAction} (sound : s.Sound params)
    (running : ∀ input, action = .worker input → input.isFlush = false) (afresh : s.StartsAfresh action) :
    ∃ later, s.step params action = .ok later ∧ later.Sound params := by
  cases action with
  | worker input =>
    obtain ⟨worker, result, advances⟩ := sound.live.step (running input rfl)
    exact ⟨{ s with worker := worker }, by rw [SnapshotSession.step, result]; rfl, sound.advances advances⟩
  | snap =>
    refine ⟨_, rfl, ?_⟩
    split
    · exact sound.setPhase trivial
    · exact sound
  | advance accepted => exact ⟨_, rfl, sound.advance afresh⟩
  | expire =>
    refine ⟨_, rfl, ?_⟩
    have expects := sound.expects
    split
    · rename_i left phase
      rw [phase] at expects
      exact sound.receive expects ((sound.act _).setPhase trivial)
    · exact sound

theorem Sound.run (actions : List SnapAction) : ∀ {s : SnapshotSession}, s.Sound params →
    (∀ input, .worker input ∈ actions → input.isFlush = false) → Along params StartsAfresh actions s →
    ∃ later, s.run params actions = .ok later ∧ later.Sound params := by
  induction actions with
  | nil => exact fun sound _ _ => ⟨_, rfl, sound⟩
  | cons action rest ih =>
    intro s sound running along
    obtain ⟨next, result, nextSound⟩ := sound.step
      (fun input isWorker => running input (isWorker ▸ List.mem_cons_self)) along.1
    have restAlong := along.2
    rw [result] at restAlong
    obtain ⟨later, restResult, laterSound⟩ := ih nextSound
      (fun input present => running input (List.mem_cons_of_mem _ present)) restAlong
    exact ⟨later, by rw [SnapshotSession.run, result]; exact restResult, laterSound⟩

theorem openSession_sound (params : StreamParams) (autoStops : Bool) : (openSession params autoStops).Sound params := by
  have live : (StreamWorld.spawn params).Live params :=
    ⟨spawn_wellformed params, spawn_ledger params, spawn_ordered params⟩
  exact ⟨(live.acts [.subscribe 4]).live, trivial, fun _ present => by cases present⟩

end SnapshotSession

open SnapshotSession

/-- As long as nothing is in flight and nothing is in the session's channel
whenever `AcquisitionStart` is issued: every frame that a `snap` returns was
opened by a packet that the worker processed after that call issued it. -/
theorem snap_returns_own_frame (params : StreamParams) (autoStops : Bool) (actions : List SnapAction)
    (running : ∀ input, .worker input ∈ actions → input.isFlush = false)
    (afresh : SnapshotSession.Along params StartsAfresh actions (openSession params autoStops)) :
    ∃ s, (openSession params autoStops).run params actions = .ok s ∧
      ∀ snap ∈ s.returned, s.worker.OpenedSince snap.1 snap.2 := by
  obtain ⟨s, result, sound⟩ := (openSession_sound params autoStops).run actions running afresh
  exact ⟨s, result, sound.returned⟩

/-- A call of `snap` up to where it waits for its frame. -/
def snapCall : List SnapAction := .snap :: List.replicate 3 (.advance true)

/-- A call that gets the frame whose packets arrive meanwhile. -/
def oneSnap : List SnapAction := snapCall ++ oneFrame.map .worker ++ List.replicate 2 (.advance true)

theorem snap_returns_own_frame_oneSnap :
    ((openSession smallStream true).run smallStream oneSnap).map (·.returned.length) = .ok 1 ∧
      ∃ s, (openSession smallStream true).run smallStream oneSnap = .ok s ∧
        ∀ snap ∈ s.returned, s.worker.OpenedSince snap.1 snap.2 :=
  ⟨by decide +kernel, snap_returns_own_frame smallStream true oneSnap
    (by simp [oneSnap, snapCall, oneFrame, arriving, StreamInput.isFlush]) (by decide +kernel)⟩

/-- A first call runs out of time with a part of its frame in flight. The
second call clears its channel and starts, and then the rest of that frame is
given up. -/
def leftover : List SnapAction :=
  snapCall ++ (oneFrame.take 2).map .worker ++ [.expire, .advance true] ++
    snapCall ++ [.worker (.tick 1 [])] ++ List.replicate 2 (.advance true)

/-- The second call returns the frame of the first one. -/
theorem snap_returns_leftover_frame :
    ((openSession smallStream true).run smallStream leftover).map (fun s => (s.commands,
      s.returned.map fun snap => ((deliveredIn s.worker.journal)[snap.2]?, openedIn snap.1))) =
    .ok ([.start, .stop, .start], [(some 0, [0])]) := by
  decide +kernel

end Telegenic.Stream
