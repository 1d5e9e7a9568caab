import Telegenic.Stream.Ordering
import Telegenic.Stream.Subscribers

/-! What comes through a subscription from some point on: only frames that the
worker closed after that point. -/

set_option autoImplicit false

namespace Telegenic.Stream

open Library Proto Proto.Gvsp

/-- Whatever is queued, or was received after the first `left` frames, was
closed after `base` frames and before the next one. -/
def Subscription.Recent (left base next : Nat) (subscription : Subscription) : Prop :=
  ∀ key ∈ subscription.received.drop left ++ subscription.queue, base ≤ key ∧ key < next

namespace Subscription.Recent

variable {left base next key : Nat} {subscription later : Subscription}

theorem queued (recent : subscription.Recent left base next) (received : later.received = subscription.received)
    (queue : ∀ other ∈ later.queue, other ∈ subscription.queue ∨ other = key) (bounds : base ≤ key ∧ key < next) :
    later.Recent left base next := by
  intro other present
  rw [received] at present
  rcases List.mem_append.mp present with old | inQueue
  · exact recent other (List.mem_append_left _ old)
  · rcases queue other inQueue with old | rfl
    · exact recent other (List.mem_append_right _ old)
    · exact bounds

theorem handed (recent : subscription.Recent left base next)
    (received : later.received = subscription.received ++ [key])
    (queue : ∀ other ∈ later.queue, other ∈ subscription.queue) (bounds : base ≤ key ∧ key < next) :
    later.Recent left base next := by
  intro other present
  rw [received, List.drop_append] at present
  rcases List.mem_append.mp present with taken | inQueue
  · rcases List.mem_append.mp taken with old | new
    · exact recent other (List.mem_append_left _ old)
    · cases List.mem_singleton.mp (List.mem_of_mem_drop new)
      exact bounds
  · exact recent other (List.mem_append_right _ (queue other inQueue))

theorem fewer (recent : subscription.Recent left base next) (received : later.received = subscription.received)
    (queue : ∀ other ∈ later.queue, other ∈ subscription.queue) : later.Recent left base next := by
  intro other present
  rw [received] at present
  rcases List.mem_append.mp present with old | inQueue
  · exact recent other (List.mem_append_left _ old)
  · exact recent other (List.mem_append_right _ (queue other inQueue))

end Subscription.Recent

/-- The same of the subscription at a position, if there is one, when at least
`closed` frames were closed. -/
structure Fabric.Recent (id left base closed : Nat) (fabric : Fabric) : Prop where
  subscription : ∀ subscription, fabric.subscriptions[id]? = some subscription →
    subscription.Recent left base fabric.nextKey
  reached : closed ≤ fabric.nextKey

namespace Fabric.Recent

variable {id left base closed key : Nat} {fabric later : Fabric}

theorem board (recent : fabric.Recent id left base closed) (same : fabric.SameBoard later) : later.Recent id left base closed := by
  refine ⟨fun subscription found => ?_, same.nextKey ▸ recent.reached⟩
  rw [same.nextKey]
  rw [same.subscriptions] at found
  exact recent.subscription subscription found

theorem update (recent : fabric.Recent id left base closed) (other : Nat) (change : Subscription → Subscription)
    (keeps : ∀ subscription, fabric.subscriptions[other]? = some subscription →
      subscription.Recent left base fabric.nextKey → (change subscription).Recent left base fabric.nextKey) :
    (fabric.updateSubscription other change).Recent id left base closed := by
  refine ⟨fun subscription found => ?_, recent.reached⟩
  rw [updateSubscription, List.getElem?_modify] at found
  obtain ⟨before, isBefore, rfl⟩ := Option.map_eq_some_iff.mp found
  by_cases same : other = id
  · subst same
    simp only [if_true]
    exact keeps before isBefore (recent.subscription before isBefore)
  · simp only [same, if_false]
    exact recent.subscription before isBefore

theorem freeChannel (recent : fabric.Recent id left base closed) (other : Nat) :
    (fabric.freeChannel other).Recent id left base closed := by
  unfold Fabric.freeChannel
  split
  · exact recent
  · split
    · refine board (recent.update other _ fun subscription _ before => ?_) (SameBoard.releaseAll ..)
      exact before.fewer rfl fun _ present => by cases present
    · exact recent

theorem dropSender (recent : fabric.Recent id left base closed) (other : Nat) :
    (fabric.dropSender other).Recent id left base closed := by
  refine freeChannel ?_ other
  exact recent.update other _ fun _ _ before => before.fewer rfl fun _ present => present

theorem handOver (recent : fabric.Recent id left base closed) (key : Nat) : (fabric.handOver key).Recent id left base closed :=
  recent.board (SameBoard.handOver ..)

theorem tryRecv (recent : fabric.Recent id left base closed) (other : Nat) : (fabric.tryRecv other).Recent id left base closed := by
  unfold Fabric.tryRecv
  split
  · exact recent
  · rename_i subscription found
    split
    · exact recent
    · rename_i key rest queue
      split
      · exact recent
      · refine handOver (recent.update other _ fun before isBefore wasRecent => ?_) _
        have same : before = subscription := Option.some.inj (isBefore.symm.trans found)
        subst same
        have bounds := wasRecent key (List.mem_append_right _ (queue ▸ List.mem_cons_self))
        exact wasRecent.handed rfl (fun _ present => queue ▸ List.mem_cons_of_mem _ present) bounds

theorem consume (recent : fabric.Recent id left base closed) (act : ConsumerAct) :
    (fabric.consume act).Recent id left base closed := by
  cases act with
  | subscribe capacity =>
    refine ⟨fun subscription found => ?_, recent.reached⟩
    have appended : (fabric.subscriptions ++ [{ capacity := capacity, since := fabric.nextKey }])[id]? =
        some subscription := found
    rw [List.getElem?_append] at appended
    split at appended
    · exact recent.subscription subscription appended
    · -- The new channel is empty.
      rw [List.getElem?_singleton] at appended
      split at appended
      · cases appended
        intro key present
        rw [List.drop_nil] at present
        cases present
      · cases appended
  | cloneReceiver other =>
    refine recent.update other _ fun subscription _ before => ?_
    split
    · exact before
    · exact before.fewer rfl fun _ present => present
  | dropReceiver other =>
    refine freeChannel ?_ other
    exact recent.update other _ fun _ _ before => before.fewer rfl fun _ present => present
  | tryRecv other => exact recent.tryRecv other
  | startWaiting other waiter =>
    refine recent.update other _ fun subscription _ before => ?_
    split
    · exact before
    · exact before.fewer rfl fun _ present => present
  | stopWaiting other position =>
    exact recent.update other _ fun _ _ before => before.fewer rfl fun _ present => present
  | cloneFrame key =>
    simp only [Fabric.consume]
    split
    · exact recent.board ((SameBoard.adjust ..).trans (SameBoard.handOver ..))
    · exact recent
  | dropFrame key =>
    simp only [Fabric.consume]
    split
    · have dropped : SameBoard fabric { fabric with heldHandles := fabric.heldHandles.erase key } :=
        ⟨rfl, rfl, rfl, rfl, fun entry present => ⟨entry, present, rfl, rfl⟩⟩
      exact recent.board (dropped.trans (SameBoard.release ..))
    · exact recent
  | requestShutdown => exact ⟨recent.subscription, recent.reached⟩

theorem consumeAll (acts : List ConsumerAct) : ∀ {fabric : Fabric}, fabric.Recent id left base closed →
    (acts.foldl Fabric.consume fabric).Recent id left base closed := by
  induction acts with
  | nil => exact fun recent => recent
  | cons act rest ih => exact fun recent => ih (recent.consume act)

theorem share (recent : fabric.Recent id left base closed) (frame : Frame) :
    (fabric.share frame).Recent id left base (fabric.nextKey + 1) := by
  refine ⟨fun subscription found key present => ?_, le_rfl⟩
  obtain ⟨atLeast, below⟩ := recent.subscription subscription found key present
  exact ⟨atLeast, Nat.lt_succ_of_lt below⟩

theorem trySend (recent : fabric.Recent id left base closed) (other : Nat) (atLeast : base ≤ key) (below : key < closed) :
    (fabric.trySend other key).1.Recent id left base closed := by
  have bounds : base ≤ key ∧ key < fabric.nextKey := ⟨atLeast, below.trans_le recent.reached⟩
  unfold Fabric.trySend
  split
  · exact recent
  · split
    · exact recent
    · split
      · refine handOver (recent.update other _ fun _ _ before => ?_) _
        exact before.handed rfl (fun _ present => present) bounds
      · refine recent.update other _ fun _ _ before => before.queued rfl (fun key' present => ?_) bounds
        exact (List.mem_append.mp present).imp_right List.mem_singleton.mp
      · split
        · refine recent.update other _ fun _ _ before => before.queued rfl (fun key' present => ?_) bounds
          exact (List.mem_append.mp present).imp_right List.mem_singleton.mp
        · exact recent.update other _ fun _ _ before => before.fewer rfl fun _ present => present

end Fabric.Recent

section Actions

variable {id left base closed : Nat} {w later : StreamWorld}

theorem yield_recent (recent : w.fabric.Recent id left base closed) : w.yield.fabric.Recent id left base closed := by
  unfold StreamWorld.yield
  cases w.schedule with
  | nil => exact recent
  | cons acts rest => exact recent.consumeAll acts

theorem fanOut_recent {key : Nat} (atLeast : base ≤ key) (below : key < closed) (subscribers : List Nat) :
    ∀ {w : StreamWorld}, w.fabric.Recent id left base closed →
      (StreamWorld.fanOut key subscribers w).1.fabric.Recent id left base closed := by
  induction subscribers with
  | nil => exact fun recent => recent
  | cons other rest ih =>
    intro w recent
    have retained := (yield_recent recent).board (Fabric.SameBoard.adjust key (· + 1) w.yield.fabric)
    have offered := retained.trySend other atLeast below
    rw [StreamWorld.fanOut]
    rcases outcome : (w.yield.fabric.retain key).trySend other key with ⟨fabric, result⟩
    rw [show w.yield.fabric.adjust key (· + 1) = w.yield.fabric.retain key from rfl, outcome] at offered
    cases result with
    | sent => exact ih (w := { w.yield with fabric := fabric }) offered
    | full =>
      exact ih (w := { w.yield with fabric := fabric.release key }) (offered.board (Fabric.SameBoard.release ..))
    | disconnected =>
      exact ih (w := { w.yield with fabric := (fabric.release key).dropSender other })
        ((offered.board (Fabric.SameBoard.release ..)).dropSender other)

theorem deliver_recent (recent : w.fabric.Recent id left base closed) (started : base ≤ w.fabric.nextKey) (opening : Nat)
    (frame : Frame) (accepted : List GvspView) :
    (w.deliver opening frame accepted).fabric.Recent id left base closed := by
  have fanned := fanOut_recent started (Nat.lt_succ_self _) (w.announce opening frame accepted).runner.subscribers
    (w := w.announce opening frame accepted) (recent.share frame)
  unfold StreamWorld.deliver
  simp only
  rcases outcome : StreamWorld.fanOut w.fabric.nextKey (w.announce opening frame accepted).runner.subscribers
    (w.announce opening frame accepted) with ⟨after, kept, dropped⟩
  rw [outcome] at fanned
  have noted : (after.noteFanOut kept dropped).fabric = after.fabric := (noteFanOut_dropped kept dropped after).2.2.1
  have released := (yield_recent (w := after.noteFanOut kept dropped) (noted ▸ fanned)).board
    (Fabric.SameBoard.release w.fabric.nextKey _)
  exact ⟨released.subscription, recent.reached.trans (Nat.le_of_succ_le released.reached)⟩

theorem drainCommands_recent (recent : w.fabric.Recent id left base closed) :
    w.drainCommands.fabric.Recent id left base closed :=
  ⟨(yield_recent recent).subscription, (yield_recent recent).reached⟩

theorem Channelled.recent (action : Channelled w later) (recent : w.fabric.Recent id left base base) :
    later.fabric.Recent id left base base := by
  cases action with
  | inside same => exact recent.board same.board
  | yields => exact yield_recent recent
  | acts acts => exact recent.consumeAll acts
  | drains => exact drainCommands_recent recent
  | closes same accounted room opening frame accepted =>
    have middle := (drainCommands_recent recent).board same.board
    exact deliver_recent middle middle.reached opening frame accepted

theorem Channels.recent (actions : Channels w later) (recent : w.fabric.Recent id left base base) :
    later.fabric.Recent id left base base := by
  induction actions with
  | refl => exact recent
  | tail _ action ih => exact action.recent ih

end Actions

/-- Since `base` frames had been opened and the frames of `before` delivered,
with none in flight, only frames that were opened later were delivered. -/
structure Lineup.Since (base : Nat) (before : List Nat) (line : Lineup) : Prop where
  openings : base ≤ line.openings
  entries : ∀ entry ∈ line.entries, base ≤ entry.opening
  delivered : ∃ after, deliveredIn line.journal = before ++ after ∧ ∀ opening ∈ after, base ≤ opening

section Since

variable {base : Nat} {before : List Nat} {line later : Lineup}

theorem deliveredIn_append (journal rest : List StreamEvent) :
    deliveredIn (journal ++ rest) = deliveredIn journal ++ deliveredIn rest :=
  List.filterMap_append

theorem Lineup.Step.since (step : Lineup.Step line later) (since : line.Since base before) :
    later.Since base before := by
  obtain ⟨after, delivered, recent⟩ := since.delivered
  have unserved : ∀ event, deliveredIn [event] = [] → ∃ after, deliveredIn (line.journal ++ [event]) = before ++ after ∧
      ∀ opening ∈ after, base ≤ opening := by
    intro event none
    exact ⟨after, by rw [deliveredIn_append, none, List.append_nil, delivered], recent⟩
  cases step with
  | requested request => exact ⟨since.openings, since.entries, unserved _ rfl⟩
  | joined distinct alone restart =>
    refine ⟨Nat.le_succ_of_le since.openings, fun entry present => ?_, unserved _ rfl⟩
    rcases List.mem_append.mp present with old | new
    · exact since.entries entry old
    · cases List.mem_singleton.mp new
      exact since.openings
  | @madeReal index entry found provisional =>
    refine ⟨since.openings, fun other present => ?_, unserved _ rfl⟩
    rcases List.mem_or_eq_of_mem_set present with old | rfl
    · exact since.entries other old
    · exact since.entries entry (List.mem_of_getElem? found)
  | left found provisional =>
    exact ⟨since.openings, (fun entry present => since.entries entry (List.mem_of_mem_eraseIdx present)), unserved _ rfl⟩
  | @served index entry frame accepted found real headOfLine sameId =>
    refine ⟨since.openings, (fun entry present => since.entries entry (List.mem_of_mem_eraseIdx present)),
      after ++ [entry.opening], ?_, fun opening present => ?_⟩
    · rw [deliveredIn_append, delivered, List.append_assoc]
      rfl
    · rcases List.mem_append.mp present with old | new
      · exact recent opening old
      · cases List.mem_singleton.mp new
        exact since.entries entry (List.mem_of_getElem? found)

theorem Moves.since {params : StreamParams} {origin : List FrameInFlight} {arrival : Option GvspView}
    {w later : StreamWorld} (moves : Moves params origin arrival w later) (since : w.lineup.Since base before) :
    later.lineup.Since base before := by
  induction moves with
  | refl => exact since
  | tail _ move ih =>
    rcases move.lineup with same | step
    · exact same ▸ ih
    · exact step.since ih

end Since

end Telegenic.Stream
