import Telegenic.Stream.Ledger

/-! How the worker serves the subscriptions. Whatever it does between closing
two frames leaves the books of the subscriptions true, and closing a frame
offers it to every subscription sent before. -/

set_option autoImplicit false

namespace Telegenic.Stream

open Library Proto Proto.Gvsp

namespace StreamWorld

def Ledger (live : Prop) (given : List (Nat × Nat)) (w : StreamWorld) : Prop :=
  w.fabric.Ledger live given (deliveredFrames w.journal) w.runner.subscribers [] w.runner.stats.framesDropped

end StreamWorld

structure SameChannels (w later : StreamWorld) : Prop where
  board : w.fabric.SameBoard later.fabric
  subscribers : later.runner.subscribers = w.runner.subscribers
  dropped : later.runner.stats.framesDropped = w.runner.stats.framesDropped
  delivered : deliveredFrames later.journal = deliveredFrames w.journal

/-- The actions of the worker, and of the other threads in between, as the
subscriptions see them. -/
inductive Channelled : StreamWorld → StreamWorld → Prop where
  | inside {w later : StreamWorld} (same : SameChannels w later) : Channelled w later
  | yields (w : StreamWorld) : Channelled w w.yield
  | acts (w : StreamWorld) (acts : List ConsumerAct) :
      Channelled w { w with fabric := acts.foldl Fabric.consume w.fabric }
  | drains (w : StreamWorld) : Channelled w w.drainCommands
  | closes {w middle : StreamWorld} (same : SameChannels w.drainCommands middle)
      (accounted : middle.fabric.Accounted []) (room : middle.fabric.slots.length < middle.fabric.poolCapacity)
      (opening : Nat) (frame : Frame) (accepted : List GvspView) :
      Channelled w (middle.deliver opening frame accepted)

def Channels : StreamWorld → StreamWorld → Prop := Relation.ReflTransGen Channelled

namespace StreamWorld

theorem yield_runner (w : StreamWorld) : w.yield.runner = w.runner := by
  unfold yield
  cases w.schedule <;> rfl

theorem fanOut_runner (key : Nat) (subscribers : List Nat) : ∀ (w : StreamWorld),
    (fanOut key subscribers w).1.runner = w.runner := by
  induction subscribers with
  | nil => exact fun w => rfl
  | cons id rest ih =>
    intro w
    rw [fanOut]
    rcases (w.yield.fabric.retain key).trySend id key with ⟨after, result⟩
    cases result <;> exact (ih _).trans (yield_runner w)

end StreamWorld

section FanOut

variable {live : Prop} {given : List (Nat × Nat)} {closed : List Frame} {subscribers : List Nat} {dropped key : Nat}

theorem yield_ledger {pending : List Nat} {w : StreamWorld}
    (ledger : w.fabric.Ledger live given closed subscribers pending dropped) :
    w.yield.fabric.Ledger live given closed subscribers pending dropped := by
  unfold StreamWorld.yield
  cases w.schedule with
  | nil => exact ledger
  | cons acts rest => exact ledger.consumeAll acts

theorem Fabric.Ledger.forgets {fabric : Fabric} {done rest : List Nat} {id : Nat}
    (ledger : fabric.Ledger live given closed (done ++ id :: rest) rest dropped)
    (dead : ∀ subscription, fabric.subscriptions[id]? = some subscription → subscription.receivers = 0) :
    fabric.Ledger live given closed (done ++ rest) rest dropped := by
  have fewer : (done ++ rest).Sublist (done ++ id :: rest) := (List.sublist_cons_self id rest).append_left done
  refine ⟨ledger.nextKey, ledger.named, ledger.kept, fun other present => List.mem_append_right _ present,
    ledger.dropped, ledger.roomy, ledger.terms, ledger.distinct.sublist (fewer.append_right _), ?_, ?_⟩
  · exact fun other present => ledger.known other ((fewer.append_right _).mem present)
  · intro isLive other subscription found alive
    have different : other ≠ id := by
      rintro rfl
      exact alive (dead subscription found)
    have registered := ledger.registered isLive other subscription found alive
    simp only [List.mem_append, List.mem_cons, different, false_or] at registered ⊢
    exact registered

theorem fanOut_ledger (last : closed.length = key + 1) (pending : List Nat) : ∀ {w : StreamWorld} {done : List Nat}
    {dropped : Nat}, w.fabric.Accounted [key] → pending.Nodup →
      w.fabric.Ledger live given closed (done ++ pending) pending dropped →
      (StreamWorld.fanOut key pending w).1.fabric.Ledger live given closed
        (done ++ (StreamWorld.fanOut key pending w).2.1) [] (dropped + (StreamWorld.fanOut key pending w).2.2) := by
  induction pending with
  | nil => exact fun _ _ ledger => ledger
  | cons id rest ih =>
    intro w done dropped accounted distinct ledger
    obtain ⟨once, distinct⟩ := List.nodup_cons.mp distinct
    have yielded := StreamWorld.yield_quietly w accounted
    obtain ⟨retained, _⟩ := yielded.accounted.retain key (by simp)
    obtain ⟨_, sent, unsent⟩ := retained.trySend id
    have offered := (yield_ledger ledger).board (Fabric.SameBoard.adjust key (· + 1) w.yield.fabric)
    have isLast : (w.yield.fabric.retain key).nextKey = key + 1 := offered.nextKey.trans last
    rw [StreamWorld.fanOut]
    rcases outcome : (w.yield.fabric.retain key).trySend id key with ⟨fabric, result⟩
    rw [outcome] at sent unsent
    obtain ⟨after, _, dead⟩ := offered.trySend once isLast retained outcome
    cases result with
    | sent =>
      rw [List.append_cons] at after
      have rest_ledger := ih (w := { w.yield with fabric := fabric }) (sent rfl) distinct after
      simp only [List.append_assoc, List.singleton_append] at rest_ledger
      exact rest_ledger
    | full =>
      obtain ⟨released, _⟩ := (unsent (by simp)).release
      rw [List.append_cons] at after
      have rest_ledger := ih (w := { w.yield with fabric := fabric.release key }) released distinct
        (after.board (Fabric.SameBoard.release ..))
      simp only [List.append_assoc, List.singleton_append, if_true] at rest_ledger
      rw [Nat.add_assoc, Nat.add_comm 1] at rest_ledger
      exact rest_ledger
    | disconnected =>
      obtain ⟨released, _⟩ := (unsent (by simp)).release
      obtain ⟨freed, _⟩ := released.dropSender id
      have forgotten := after.forgets (dead rfl)
      exact ih (w := { w.yield with fabric := (fabric.release key).dropSender id }) freed distinct
        ((forgotten.board (Fabric.SameBoard.release ..)).dropSender id)

end FanOut

section Actions

variable {given : List (Nat × Nat)} {w later : StreamWorld}

theorem SameChannels.ledger {live : Prop} (same : SameChannels w later) (ledger : w.Ledger live given) :
    later.Ledger live given := by
  unfold StreamWorld.Ledger
  rw [same.delivered, same.subscribers, same.dropped]
  exact Fabric.Ledger.board ledger same.board

theorem commands_subscribers (messages : List ToStreamWorker) : ∀ (runner : StreamRunner),
    (messages.foldl StreamWorld.command runner).subscribers = runner.subscribers ++
      messages.filterMap (fun | .subscribe id => some id | .shutdown => none) := by
  induction messages with
  | nil => exact fun runner => (List.append_nil _).symm
  | cons message rest ih =>
    intro runner
    cases message with
    | subscribe id => simpa [StreamWorld.command] using ih (StreamWorld.command runner (.subscribe id))
    | shutdown => simpa [StreamWorld.command] using ih (StreamWorld.command runner .shutdown)

theorem yield_world_ledger {live : Prop} (ledger : w.Ledger live given) : w.yield.Ledger live given := by
  have yielded := yield_ledger ledger
  unfold StreamWorld.yield at yielded ⊢
  cases schedule : w.schedule with
  | nil => exact ledger
  | cons acts rest =>
    rw [schedule] at yielded
    exact yielded

theorem drainCommands_ledger {live : Prop} (ledger : w.Ledger live given) :
    w.drainCommands.Ledger live given ∧ w.drainCommands.fabric.enrolling = [] := by
  have yielded : w.yield.fabric.Ledger live given (deliveredFrames w.yield.journal) w.yield.runner.subscribers []
    w.yield.runner.stats.framesDropped := yield_world_ledger ledger
  have subscribers : w.drainCommands.runner.subscribers = w.yield.runner.subscribers ++ w.yield.fabric.enrolling :=
    commands_subscribers w.yield.fabric.commands w.yield.runner
  have stats : w.drainCommands.runner.stats = w.yield.runner.stats :=
    (Steady.commands w.yield.fabric.commands w.yield.runner).2.2.2
  have all : w.drainCommands.runner.subscribers ++ w.drainCommands.fabric.enrolling =
      w.yield.runner.subscribers ++ w.yield.fabric.enrolling :=
    (congrArg (· ++ []) subscribers).trans (List.append_nil _)
  refine ⟨⟨yielded.nextKey, yielded.named, yielded.kept, fun id present => (by cases present), ?_, yielded.roomy,
    yielded.terms, ?_, ?_, ?_⟩, rfl⟩
  · rw [stats]
    exact yielded.dropped
  · rw [all]
    exact yielded.distinct
  · rw [all]
    exact yielded.known
  · rw [all]
    exact yielded.registered

theorem noteFanOut_dropped (subscribers : List Nat) (dropped : Nat) (w : StreamWorld) :
    (w.noteFanOut subscribers dropped).runner.subscribers = subscribers ∧
      (w.noteFanOut subscribers dropped).runner.stats.framesDropped = w.runner.stats.framesDropped + dropped ∧
      (w.noteFanOut subscribers dropped).fabric = w.fabric ∧
      (w.noteFanOut subscribers dropped).journal = w.journal := by
  unfold StreamWorld.noteFanOut
  simp only
  split
  · exact ⟨rfl, rfl, rfl, rfl⟩
  · refine ⟨rfl, ?_, rfl, rfl⟩
    simp only
    omega

theorem deliver_ledger (ledger : w.Ledger True given) (drained : w.fabric.enrolling = [])
    (accounted : w.fabric.Accounted []) (room : w.fabric.slots.length < w.fabric.poolCapacity)
    (opening : Nat) (frame : Frame) (accepted : List GvspView) :
    (w.deliver opening frame accepted).Ledger True given := by
  obtain ⟨shared, _⟩ := accounted.share frame room
  have distinct : w.runner.subscribers.Nodup := ledger.distinct.sublist (List.sublist_append_left ..)
  have last : (deliveredFrames w.journal ++ [frame]).length = w.fabric.nextKey + 1 := by
    rw [List.length_append, ← ledger.nextKey]
    rfl
  have fanned : Fabric.Ledger True given (deliveredFrames w.journal ++ [frame])
      ([] ++ (StreamWorld.fanOut w.fabric.nextKey w.runner.subscribers (w.announce opening frame accepted)).2.1) []
      (w.runner.stats.framesDropped +
        (StreamWorld.fanOut w.fabric.nextKey w.runner.subscribers (w.announce opening frame accepted)).2.2)
      (StreamWorld.fanOut w.fabric.nextKey w.runner.subscribers (w.announce opening frame accepted)).1.fabric :=
    fanOut_ledger last w.runner.subscribers shared distinct (Fabric.Ledger.share ledger drained frame)
  have quietly := StreamWorld.fanOut_quietly w.runner.subscribers (w.announce opening frame accepted) shared
  unfold StreamWorld.deliver
  simp only
  rcases outcome : StreamWorld.fanOut w.fabric.nextKey (w.announce opening frame accepted).runner.subscribers
    (w.announce opening frame accepted) with ⟨after, kept, dropped⟩
  have same : (w.announce opening frame accepted).runner.subscribers = w.runner.subscribers := rfl
  rw [same] at outcome
  have runner := StreamWorld.fanOut_runner w.fabric.nextKey w.runner.subscribers (w.announce opening frame accepted)
  rw [outcome] at fanned quietly runner
  obtain ⟨subscribers, counted, fabric, journal⟩ := noteFanOut_dropped kept dropped after
  have noted : (after.noteFanOut kept dropped).Ledger True given := by
    unfold StreamWorld.Ledger
    rw [subscribers, counted, fabric, journal, quietly.journal, runner]
    exact (deliveredFrames_append w.journal [.delivered opening frame accepted]).symm ▸ fanned
  have released : SameChannels (after.noteFanOut kept dropped).yield
      { (after.noteFanOut kept dropped).yield with
        fabric := (after.noteFanOut kept dropped).yield.fabric.release w.fabric.nextKey } :=
    ⟨Fabric.SameBoard.release .., rfl, rfl, rfl⟩
  exact released.ledger (yield_world_ledger noted)

theorem Channelled.ledger (action : Channelled w later) (ledger : w.Ledger True given) : later.Ledger True given := by
  cases action with
  | inside same => exact same.ledger ledger
  | yields => exact yield_world_ledger ledger
  | acts acts => exact Fabric.Ledger.consumeAll acts ledger
  | drains => exact (drainCommands_ledger ledger).1
  | closes same accounted room opening frame accepted =>
    obtain ⟨drained, none⟩ := drainCommands_ledger ledger
    refine deliver_ledger (same.ledger drained) ?_ accounted room opening frame accepted
    rw [Fabric.enrolling, same.board.commands]
    exact none

theorem Channels.ledger (actions : Channels w later) (ledger : w.Ledger True given) : later.Ledger True given := by
  induction actions with
  | refl => exact ledger
  | tail _ action ih => exact action.ledger ih

end Actions

end Telegenic.Stream
