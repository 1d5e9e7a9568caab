import Telegenic.Stream.Steady

/-! What each subscription was offered. A channel is offered every frame closed
since the subscription was sent, in closing order, and what it took is on its
way to a receiver or was received. -/

set_option autoImplicit false

namespace Telegenic.Stream

namespace Subscription

def taken (subscription : Subscription) : List Nat :=
  (subscription.offers.filter (·.2)).map Prod.fst

def missed (subscription : Subscription) : List Nat :=
  (subscription.offers.filter (!·.2)).map Prod.fst

def terms (subscription : Subscription) : Nat × Nat :=
  (subscription.capacity, subscription.since)

/-- A subscription when `nextKey` frames were closed, the last `behind` of them
not yet offered. -/
structure Kept (nextKey behind : Nat) (subscription : Subscription) : Prop where
  offered : subscription.offers.map Prod.fst = List.range' subscription.since subscription.offers.length
  current : subscription.receivers ≠ 0 → subscription.since + subscription.offers.length + behind = nextKey
  contents : subscription.receivers ≠ 0 → (subscription.received ++ subscription.queue).Perm subscription.taken
  inOrder : subscription.receivers ≠ 0 → subscription.mixed = false →
    subscription.received ++ subscription.queue = subscription.taken
  blocked : subscription.mixed = false → .thread ∈ subscription.waiting →
    .task ∉ subscription.waiting ∧ subscription.queue = []

structure Handled (subscription later : Subscription) : Prop where
  offers : later.offers = subscription.offers
  terms : later.terms = subscription.terms
  alive : later.receivers ≠ 0 → subscription.receivers ≠ 0
  kept : ∀ {nextKey behind : Nat}, subscription.Kept nextKey behind → later.Kept nextKey behind

section Changes

variable {nextKey behind key : Nat} {subscription later : Subscription}

theorem taken_note (key : Nat) (taken : Bool) (subscription : Subscription) :
    (subscription.note key taken).taken = subscription.taken ++ if taken then [key] else [] := by
  cases taken <;> simp [Subscription.taken, note]

theorem Handled.receivers (receivers : later.receivers ≠ 0 → subscription.receivers ≠ 0)
    (same : later = { subscription with
      receivers := later.receivers, waiting := later.waiting, senderAlive := later.senderAlive })
    (fewer : ∀ waiter ∈ later.waiting, waiter ∈ subscription.waiting) : Handled subscription later := by
  refine ⟨by rw [same], by rw [same]; rfl, receivers, fun kept => ?_⟩
  rw [same]
  exact ⟨kept.offered, fun alive => kept.current (receivers alive), fun alive => kept.contents (receivers alive),
    fun alive => kept.inOrder (receivers alive), fun unmixed waits =>
      have before := kept.blocked unmixed (fewer _ waits)
      ⟨fun task => before.1 (fewer _ task), before.2⟩⟩

theorem Handled.refl : Handled subscription subscription := ⟨rfl, rfl, id, id⟩

theorem Handled.startWaiting (waiter : Waiter) : Handled subscription
    (if subscription.receivers = 0 ∨ subscription.queue ≠ [] ∨ subscription.senderAlive = false then subscription
    else { subscription with
      waiting := subscription.waiting ++ [waiter]
      mixed := subscription.mixed || subscription.waiting.any (· != waiter) }) := by
  split
  · exact .refl
  rename_i ready
  have empty : subscription.queue = [] := by
    by_contra queued
    exact ready (.inr (.inl queued))
  refine ⟨rfl, rfl, id, fun kept => ⟨kept.offered, kept.current, kept.contents, ?_, ?_⟩⟩
  · intro alive unmixed
    exact kept.inOrder alive (Bool.or_eq_false_iff.mp unmixed).1
  · intro unmixed waits
    have alike : ∀ other ∈ subscription.waiting, other = waiter := by
      simpa using List.any_eq_false.mp (Bool.or_eq_false_iff.mp unmixed).2
    refine ⟨fun task => ?_, empty⟩
    -- All that wait are of the kind of the new waiter.
    have all : ∀ other ∈ subscription.waiting ++ [waiter], other = waiter := by
      intro other present
      rcases List.mem_append.mp present with old | new
      · exact alike other old
      · exact List.mem_singleton.mp new
    exact Waiter.noConfusion ((all _ waits).trans (all _ task).symm)

theorem Handled.tryRecv {rest : List Nat} (queue : subscription.queue = key :: rest) :
    Handled subscription ({ subscription with queue := rest }.hand key) := by
  have moved : (subscription.received ++ [key]) ++ rest = subscription.received ++ subscription.queue := by
    rw [queue, List.append_assoc, List.singleton_append]
  refine ⟨rfl, rfl, id, fun kept => ⟨kept.offered, kept.current, ?_, ?_, ?_⟩⟩
  · intro alive
    exact (List.Perm.of_eq moved).trans (kept.contents alive)
  · intro alive unmixed
    exact moved.trans (kept.inOrder alive unmixed)
  · intro unmixed waits
    have none := (kept.blocked unmixed waits).2
    rw [queue] at none
    cases none

theorem Handled.freed (dead : subscription.receivers = 0) : Handled subscription { subscription with queue := [] } :=
  ⟨rfl, rfl, id, fun kept => ⟨kept.offered, kept.current, fun alive => absurd dead alive,
    fun alive => absurd dead alive, fun unmixed waits => ⟨(kept.blocked unmixed waits).1, rfl⟩⟩⟩

theorem Kept.note (kept : subscription.Kept (key + 1) 1) (alive : subscription.receivers ≠ 0) (taken : Bool) :
    (subscription.note key taken).offers.map Prod.fst =
        List.range' subscription.since (subscription.note key taken).offers.length ∧
      subscription.since + (subscription.note key taken).offers.length + 0 = key + 1 := by
  have current := kept.current alive
  have length : (subscription.note key taken).offers.length = subscription.offers.length + 1 := by
    simp [Subscription.note]
  refine ⟨?_, by omega⟩
  rw [length, List.range'_1_concat, ← kept.offered]
  simp only [Subscription.note, List.map_append, List.map_cons, List.map_nil]
  rw [show subscription.since + subscription.offers.length = key by omega]

theorem Kept.refused (kept : subscription.Kept (key + 1) 1) (alive : subscription.receivers ≠ 0) :
    (subscription.note key false).Kept (key + 1) 0 := by
  obtain ⟨offered, current⟩ := kept.note alive false
  have taken : (subscription.note key false).taken = subscription.taken := by simp [taken_note]
  exact ⟨offered, fun _ => current, fun alive => taken ▸ kept.contents alive,
    fun alive unmixed => taken ▸ kept.inOrder alive unmixed, kept.blocked⟩

theorem Kept.queued {waiting : List Waiter} (kept : subscription.Kept (key + 1) 1) (alive : subscription.receivers ≠ 0)
    (nobody : .thread ∉ waiting ∨ .task ∈ subscription.waiting)
    (fewer : ∀ waiter ∈ waiting, waiter ∈ subscription.waiting) :
    ({ subscription with waiting := waiting, queue := subscription.queue ++ [key] }.note key true).Kept (key + 1) 0 := by
  obtain ⟨offered, current⟩ := kept.note alive true
  have taken : ({ subscription with waiting := waiting, queue := subscription.queue ++ [key] }.note key true).taken =
      subscription.taken ++ [key] := by simp [Subscription.taken, Subscription.note]
  refine ⟨offered, fun _ => current, fun alive => ?_, fun alive unmixed => ?_, fun unmixed waits => ?_⟩
  · rw [taken]
    exact (List.Perm.of_eq (List.append_assoc ..).symm).trans ((kept.contents alive).append_right [key])
  · rw [taken, ← kept.inOrder alive unmixed]
    exact (List.append_assoc ..).symm
  · rcases nobody with none | task
    · exact absurd waits none
    · exact absurd task (kept.blocked unmixed (fewer _ waits)).1

theorem Kept.handed {rest : List Waiter} (kept : subscription.Kept (key + 1) 1) (alive : subscription.receivers ≠ 0)
    (waiting : subscription.waiting = .thread :: rest) :
    (({ subscription with waiting := rest }.note key true).hand key).Kept (key + 1) 0 := by
  obtain ⟨offered, current⟩ := kept.note alive true
  have taken : (({ subscription with waiting := rest }.note key true).hand key).taken = subscription.taken ++ [key] := by
    simp [Subscription.taken, Subscription.note, Subscription.hand]
  have first : Waiter.thread ∈ subscription.waiting := by rw [waiting]; exact List.mem_cons_self
  refine ⟨offered, fun _ => current, fun alive => ?_, fun alive unmixed => ?_, fun unmixed waits => ?_⟩
  · rw [taken]
    refine List.Perm.trans ?_ ((kept.contents alive).append_right [key])
    show ((subscription.received ++ [key]) ++ subscription.queue).Perm _
    rw [List.append_assoc, List.append_assoc]
    exact List.perm_append_comm.append_left _
  · rw [taken, ← kept.inOrder alive unmixed]
    show (subscription.received ++ [key]) ++ subscription.queue = _
    rw [(kept.blocked unmixed first).2, List.append_nil, List.append_nil]
  · obtain ⟨noTask, empty⟩ := kept.blocked unmixed first
    rw [waiting] at noTask
    exact ⟨fun task => noTask (List.mem_cons_of_mem _ task), empty⟩

end Changes

end Subscription

theorem map_modify_same {Value Image : Type} (image : Value → Image) {values : List Value} {index : Nat}
    {change : Value → Value} (same : ∀ value, values[index]? = some value → image (change value) = image value) :
    (values.modify index change).map image = values.map image := by
  refine List.ext_getElem? fun position => ?_
  rw [List.getElem?_map, List.getElem?_map, List.getElem?_modify]
  cases found : values[position]? with
  | none => rfl
  | some value =>
    simp only [Option.map_eq_map, Option.map_some]
    split
    · rename_i here
      rw [same value (here ▸ found)]
    · rfl

namespace Fabric

def enrolling (fabric : Fabric) : List Nat :=
  fabric.commands.filterMap fun
    | .subscribe id => some id
    | .shutdown => none

/-- The books of the subscriptions. `closed` are the frames closed so far,
`pending` the subscribers that the last of them is still to be offered to, and
`dropped` the frames counted as dropped. While the worker is `live` it knows of
every subscription with a receiver. -/
structure Ledger (live : Prop) (given : List (Nat × Nat)) (closed : List Frame) (subscribers pending : List Nat)
    (dropped : Nat) (fabric : Fabric) : Prop where
  nextKey : fabric.nextKey = closed.length
  named : ∀ entry ∈ fabric.shared, closed[entry.key]? = some entry.frame
  kept : ∀ (id : Nat) (subscription : Subscription), fabric.subscriptions[id]? = some subscription →
    subscription.Kept fabric.nextKey (if id ∈ pending then 1 else 0)
  pending : ∀ id ∈ pending, id ∈ subscribers
  dropped : dropped = (fabric.subscriptions.map (·.missed.length)).sum
  roomy : ∀ (id : Nat) (subscription : Subscription), fabric.subscriptions[id]? = some subscription →
    fabric.poolCapacity ≤ subscription.capacity → subscription.missed = []
  terms : given <+: fabric.subscriptions.map Subscription.terms
  distinct : (subscribers ++ fabric.enrolling).Nodup
  known : ∀ id ∈ subscribers ++ fabric.enrolling, id < fabric.subscriptions.length
  registered : live → ∀ (id : Nat) (subscription : Subscription), fabric.subscriptions[id]? = some subscription →
    subscription.receivers ≠ 0 → id ∈ subscribers ++ fabric.enrolling

structure SameBoard (fabric later : Fabric) : Prop where
  subscriptions : later.subscriptions = fabric.subscriptions
  commands : later.commands = fabric.commands
  nextKey : later.nextKey = fabric.nextKey
  capacity : later.poolCapacity = fabric.poolCapacity
  shared : ∀ entry ∈ later.shared, ∃ other ∈ fabric.shared, other.key = entry.key ∧ other.frame = entry.frame

namespace SameBoard

variable {fabric later last : Fabric}

theorem refl : SameBoard fabric fabric := ⟨rfl, rfl, rfl, rfl, fun entry present => ⟨entry, present, rfl, rfl⟩⟩

theorem trans (first : SameBoard fabric later) (second : SameBoard later last) : SameBoard fabric last := by
  refine ⟨second.subscriptions.trans first.subscriptions, second.commands.trans first.commands,
    second.nextKey.trans first.nextKey, second.capacity.trans first.capacity, fun entry present => ?_⟩
  obtain ⟨other, isOther, key, frame⟩ := second.shared entry present
  obtain ⟨origin, isOrigin, originKey, originFrame⟩ := first.shared other isOther
  exact ⟨origin, isOrigin, originKey.trans key, originFrame.trans frame⟩

theorem returnSlot (slot : BufSlot) (fabric : Fabric) : SameBoard fabric (fabric.returnSlot slot) := by
  unfold Fabric.returnSlot
  split <;> exact ⟨rfl, rfl, rfl, rfl, fun entry present => ⟨entry, present, rfl, rfl⟩⟩

theorem adjust (key : Nat) (change : Nat → Nat) (fabric : Fabric) : SameBoard fabric (fabric.adjust key change) := by
  refine ⟨rfl, rfl, rfl, rfl, fun entry present => ?_⟩
  obtain ⟨other, isOther, rfl⟩ := List.mem_map.mp present
  refine ⟨other, isOther, ?_⟩
  split <;> exact ⟨rfl, rfl⟩

theorem release (key : Nat) (fabric : Fabric) : SameBoard fabric (fabric.release key) := by
  unfold Fabric.release
  split
  · exact .refl
  split
  · have forgotten : SameBoard fabric (fabric.forget key) :=
      ⟨rfl, rfl, rfl, rfl, fun entry present => ⟨entry, List.mem_of_mem_filter present, rfl, rfl⟩⟩
    exact forgotten.trans (returnSlot _ _)
  · exact adjust ..

theorem releaseAll (keys : List Nat) : ∀ (fabric : Fabric), SameBoard fabric (fabric.releaseAll keys) := by
  induction keys with
  | nil => exact fun fabric => .refl
  | cons key rest ih => exact fun fabric => (release key fabric).trans (ih _)

theorem handOver (key : Nat) (fabric : Fabric) : SameBoard fabric (fabric.handOver key) :=
  ⟨rfl, rfl, rfl, rfl, fun entry present => ⟨entry, present, rfl, rfl⟩⟩

end SameBoard

namespace Ledger

variable {live : Prop} {given : List (Nat × Nat)} {closed : List Frame} {subscribers pending : List Nat}
  {dropped : Nat} {fabric later : Fabric}

theorem board (ledger : fabric.Ledger live given closed subscribers pending dropped)
    (same : SameBoard fabric later) : later.Ledger live given closed subscribers pending dropped := by
  obtain ⟨subscriptions, commands, nextKey, capacity, shared⟩ := same
  have enrolling : later.enrolling = fabric.enrolling := by rw [enrolling, enrolling, commands]
  refine ⟨?_, ?_, ?_, ledger.pending, ?_, ?_, ?_, ?_, ?_, ?_⟩
  · exact nextKey.trans ledger.nextKey
  · intro entry present
    obtain ⟨other, isOther, key, frame⟩ := shared entry present
    rw [← key, ← frame]
    exact ledger.named other isOther
  · rw [subscriptions, nextKey]
    exact ledger.kept
  · rw [subscriptions]
    exact ledger.dropped
  · rw [subscriptions, capacity]
    exact ledger.roomy
  · rw [subscriptions]
    exact ledger.terms
  · rw [enrolling]
    exact ledger.distinct
  · rw [subscriptions, enrolling]
    exact ledger.known
  · rw [subscriptions, enrolling]
    exact ledger.registered

theorem update (ledger : fabric.Ledger live given closed subscribers pending dropped) (id : Nat)
    (change : Subscription → Subscription)
    (handled : ∀ subscription, fabric.subscriptions[id]? = some subscription →
      subscription.Handled (change subscription)) :
    (fabric.updateSubscription id change).Ledger live given closed subscribers pending dropped := by
  have origin : ∀ {other : Nat} {subscription : Subscription},
      (fabric.updateSubscription id change).subscriptions[other]? = some subscription →
      ∃ before, fabric.subscriptions[other]? = some before ∧ before.Handled subscription := by
    intro other subscription found
    rw [updateSubscription, List.getElem?_modify] at found
    obtain ⟨before, isBefore, rfl⟩ := Option.map_eq_some_iff.mp found
    refine ⟨before, isBefore, ?_⟩
    split
    · rename_i here
      exact handled before (here ▸ isBefore)
    · exact .refl
  have missed : (fabric.updateSubscription id change).subscriptions.map (·.missed.length) =
      fabric.subscriptions.map (·.missed.length) :=
    map_modify_same _ fun subscription found => by
      rw [Subscription.missed, Subscription.missed, (handled subscription found).offers]
  have terms : (fabric.updateSubscription id change).subscriptions.map Subscription.terms =
      fabric.subscriptions.map Subscription.terms :=
    map_modify_same _ fun subscription found => (handled subscription found).terms
  refine ⟨ledger.nextKey, ledger.named, ?_, ledger.pending, ?_, ?_, ?_, ledger.distinct, ?_, ?_⟩
  · intro other subscription found
    obtain ⟨before, isBefore, changed⟩ := origin found
    exact changed.kept (ledger.kept other before isBefore)
  · rw [missed]
    exact ledger.dropped
  · intro other subscription found roomy
    obtain ⟨before, isBefore, changed⟩ := origin found
    have capacity : subscription.capacity = before.capacity := congrArg Prod.fst changed.terms
    rw [Subscription.missed, changed.offers]
    exact ledger.roomy other before isBefore (capacity ▸ roomy)
  · rw [terms]
    exact ledger.terms
  · intro other present
    rw [updateSubscription, List.length_modify]
    exact ledger.known other present
  · intro isLive other subscription found alive
    obtain ⟨before, isBefore, changed⟩ := origin found
    exact ledger.registered isLive other before isBefore (changed.alive alive)

theorem freeChannel (ledger : fabric.Ledger live given closed subscribers pending dropped) (id : Nat) :
    (fabric.freeChannel id).Ledger live given closed subscribers pending dropped := by
  unfold Fabric.freeChannel
  split
  · exact ledger
  · rename_i subscription found
    split
    · rename_i dead
      refine (ledger.update id _ fun other isOther => ?_).board (SameBoard.releaseAll ..)
      cases found.symm.trans isOther
      exact .freed dead.1
    · exact ledger

theorem dropSender (ledger : fabric.Ledger live given closed subscribers pending dropped) (id : Nat) :
    (fabric.dropSender id).Ledger live given closed subscribers pending dropped :=
  (ledger.update id (fun s => { s with senderAlive := false })
    fun _ _ => .receivers (fun alive => alive) rfl fun _ present => present).freeChannel id

theorem dropReceiver (ledger : fabric.Ledger live given closed subscribers pending dropped) (id : Nat) :
    (fabric.dropReceiver id).Ledger live given closed subscribers pending dropped := by
  refine (ledger.update id _ fun subscription _ => ?_).freeChannel id
  refine .receivers (fun alive => ?_) rfl fun waiter present => ?_
  · simp only at alive
    omega
  · simp only at present
    split at present
    · cases present
    · exact present

theorem tryRecv (ledger : fabric.Ledger live given closed subscribers pending dropped) (id : Nat) :
    (fabric.tryRecv id).Ledger live given closed subscribers pending dropped := by
  unfold Fabric.tryRecv
  split
  · exact ledger
  · rename_i subscription found
    split
    · exact ledger
    · rename_i key rest queue
      split
      · exact ledger
      · refine (ledger.update id _ fun other isOther => ?_).board (SameBoard.handOver ..)
        cases found.symm.trans isOther
        exact .tryRecv queue

theorem subscribe (ledger : fabric.Ledger live given closed subscribers pending dropped) (capacity : Nat) :
    (fabric.consume (.subscribe capacity)).Ledger live given closed subscribers pending dropped := by
  have enrolling : (fabric.consume (.subscribe capacity)).enrolling =
      fabric.enrolling ++ [fabric.subscriptions.length] := by
    simp [Fabric.enrolling, Fabric.consume]
  have subscriptions : (fabric.consume (.subscribe capacity)).subscriptions =
      fabric.subscriptions ++ [{ capacity := capacity, since := fabric.nextKey }] := rfl
  have cases_of : ∀ {id : Nat} {subscription : Subscription},
      (fabric.consume (.subscribe capacity)).subscriptions[id]? = some subscription →
      fabric.subscriptions[id]? = some subscription ∨
        (id = fabric.subscriptions.length ∧ subscription = { capacity := capacity, since := fabric.nextKey }) := by
    intro id subscription found
    rw [subscriptions, List.getElem?_append] at found
    split at found
    · exact .inl found
    · rename_i outside
      obtain ⟨last, isLast⟩ := List.getElem?_eq_some_iff.mp found
      simp only [List.length_singleton] at last
      refine .inr ⟨by omega, ?_⟩
      rw [← isLast, List.getElem_singleton]
  refine ⟨ledger.nextKey, ledger.named, ?_, ledger.pending, ?_, ?_, ?_, ?_, ?_, ?_⟩
  · intro id subscription found
    rcases cases_of found with old | ⟨rfl, rfl⟩
    · exact ledger.kept id subscription old
    · have fresh : fabric.subscriptions.length ∉ pending := fun waits =>
        Nat.lt_irrefl _ (ledger.known _ (List.mem_append_left _ (ledger.pending _ waits)))
      rw [if_neg fresh]
      exact ⟨rfl, fun _ => rfl, fun _ => .refl _, fun _ _ => rfl, fun _ waits => by cases waits⟩
  · rw [subscriptions, List.map_append, List.sum_append, ← ledger.dropped]
    rfl
  · intro id subscription found roomy
    rcases cases_of found with old | ⟨_, rfl⟩
    · exact ledger.roomy id subscription old roomy
    · rfl
  · rw [subscriptions, List.map_append]
    exact ledger.terms.trans (List.prefix_append ..)
  · rw [enrolling, ← List.append_assoc]
    refine List.nodup_append.mpr ⟨ledger.distinct, List.nodup_singleton _, fun id present other isLast => ?_⟩
    have before := ledger.known id present
    have last := List.mem_singleton.mp isLast
    omega
  · intro id present
    rw [enrolling, ← List.append_assoc] at present
    rw [subscriptions, List.length_append, List.length_singleton]
    rcases List.mem_append.mp present with old | isLast
    · exact Nat.lt_succ_of_lt (ledger.known id old)
    · rw [List.mem_singleton.mp isLast]
      exact Nat.lt_succ_self _
  · intro isLive id subscription found alive
    rw [enrolling, ← List.append_assoc]
    rcases cases_of found with old | ⟨rfl, _⟩
    · exact List.mem_append_left _ (ledger.registered isLive id subscription old alive)
    · exact List.mem_append_right _ List.mem_cons_self

theorem consume (ledger : fabric.Ledger live given closed subscribers pending dropped) (act : ConsumerAct) :
    (fabric.consume act).Ledger live given closed subscribers pending dropped := by
  cases act with
  | subscribe capacity => exact ledger.subscribe capacity
  | cloneReceiver id =>
    refine ledger.update id _ fun subscription _ => ?_
    split
    · exact .refl
    · rename_i alive
      exact .receivers (fun _ => alive) rfl fun _ present => present
  | dropReceiver id => exact ledger.dropReceiver id
  | tryRecv id => exact ledger.tryRecv id
  | startWaiting id waiter => exact ledger.update id _ fun _ _ => .startWaiting waiter
  | stopWaiting id position =>
    refine ledger.update id _ fun _ _ => .receivers (fun alive => alive) rfl fun _ present => ?_
    exact List.mem_of_mem_eraseIdx present
  | cloneFrame key =>
    simp only [Fabric.consume]
    split
    · exact ledger.board ((SameBoard.adjust ..).trans (SameBoard.handOver ..))
    · exact ledger
  | dropFrame key =>
    simp only [Fabric.consume]
    split
    · have dropped : SameBoard fabric { fabric with heldHandles := fabric.heldHandles.erase key } :=
        ⟨rfl, rfl, rfl, rfl, fun entry present => ⟨entry, present, rfl, rfl⟩⟩
      exact ledger.board (dropped.trans (SameBoard.release ..))
    · exact ledger
  | requestShutdown =>
    have enrolling : (fabric.consume .requestShutdown).enrolling = fabric.enrolling := by
      simp [Fabric.enrolling, Fabric.consume]
    refine ⟨ledger.nextKey, ledger.named, ledger.kept, ledger.pending, ledger.dropped, ledger.roomy, ledger.terms,
      ?_, ?_, ?_⟩
    · rw [enrolling]
      exact ledger.distinct
    · rw [enrolling]
      exact ledger.known
    · rw [enrolling]
      exact ledger.registered

theorem consumeAll (acts : List ConsumerAct) : ∀ {fabric : Fabric},
    fabric.Ledger live given closed subscribers pending dropped →
    (acts.foldl Fabric.consume fabric).Ledger live given closed subscribers pending dropped := by
  induction acts with
  | nil => exact fun ledger => ledger
  | cons act rest ih => exact fun ledger => ih (ledger.consume act)

theorem share (ledger : fabric.Ledger True given closed subscribers [] dropped) (drained : fabric.enrolling = [])
    (frame : Frame) :
    (fabric.share frame).Ledger True given (closed ++ [frame]) subscribers subscribers dropped := by
  refine ⟨?_, ?_, ?_, fun _ present => present, ledger.dropped, ledger.roomy, ledger.terms, ledger.distinct,
    ledger.known, ledger.registered⟩
  · rw [List.length_append, ← ledger.nextKey]
    rfl
  · intro entry present
    rcases List.mem_append.mp present with old | new
    · have named := ledger.named entry old
      rw [List.getElem?_append_left (List.getElem?_eq_some_iff.mp named).1]
      exact named
    · rw [List.mem_singleton.mp new, ledger.nextKey]
      exact List.getElem?_concat_length
  · intro id subscription found
    have kept := ledger.kept id subscription found
    refine ⟨kept.offered, fun alive => ?_, kept.contents, kept.inOrder, kept.blocked⟩
    have registered := ledger.registered trivial id subscription found alive
    rw [drained, List.append_nil] at registered
    have current := kept.current alive
    rw [if_neg (List.not_mem_nil)] at current
    rw [if_pos registered]
    exact congrArg (· + 1) current

theorem pass {id : Nat} {rest : List Nat}
    (ledger : fabric.Ledger live given closed subscribers (id :: rest) dropped)
    (dead : ∀ subscription, fabric.subscriptions[id]? = some subscription → subscription.receivers = 0) :
    fabric.Ledger live given closed subscribers rest dropped := by
  refine ⟨ledger.nextKey, ledger.named, ?_, fun other present => ledger.pending other (List.mem_cons_of_mem _ present),
    ledger.dropped, ledger.roomy, ledger.terms, ledger.distinct, ledger.known, ledger.registered⟩
  intro other subscription found
  have kept := ledger.kept other subscription found
  refine ⟨kept.offered, fun alive => ?_, kept.contents, kept.inOrder, kept.blocked⟩
  have different : other ≠ id := by
    rintro rfl
    exact alive (dead subscription found)
  have current := kept.current alive
  simpa [different] using current

end Ledger

theorem sum_modify {Value : Type} (size : Value → Nat) (change : Value → Value) {value : Value} {extra : Nat}
    (grown : size (change value) = size value + extra) : ∀ {values : List Value} {index : Nat},
      values[index]? = some value →
      ((values.modify index change).map size).sum = (values.map size).sum + extra := by
  intro values
  induction values with
  | nil =>
    intro index found
    simp at found
  | cons head tail ih =>
    intro index found
    cases index with
    | zero =>
      rw [List.getElem?_cons_zero, Option.some.injEq] at found
      subst found
      simp only [List.modify_zero_cons, List.map_cons, List.sum_cons, grown]
      omega
    | succ index =>
      rw [List.getElem?_cons_succ] at found
      simp only [List.modify_succ_cons, List.map_cons, List.sum_cons, ih found]
      omega

namespace Ledger

variable {live : Prop} {given : List (Nat × Nat)} {closed : List Frame} {subscribers rest worker : List Nat}
  {dropped id key : Nat} {fabric : Fabric} {subscription : Subscription}

theorem offer (ledger : fabric.Ledger live given closed subscribers (id :: rest) dropped) (once : id ∉ rest)
    (last : fabric.nextKey = key + 1) (found : fabric.subscriptions[id]? = some subscription)
    (alive : subscription.receivers ≠ 0) {extra : List Nat} {change : Subscription → Subscription}
    (kept : (change subscription).Kept (key + 1) 0) (terms : (change subscription).terms = subscription.terms)
    (missed : (change subscription).missed = subscription.missed ++ extra)
    (roomy : fabric.poolCapacity ≤ subscription.capacity → extra = []) :
    (fabric.updateSubscription id change).Ledger live given closed subscribers rest (dropped + extra.length) := by
  have cases_of : ∀ {other : Nat} {after : Subscription},
      (fabric.updateSubscription id change).subscriptions[other]? = some after →
      (other ≠ id ∧ fabric.subscriptions[other]? = some after) ∨ (other = id ∧ after = change subscription) := by
    intro other after isAfter
    rw [updateSubscription, List.getElem?_modify] at isAfter
    obtain ⟨before, isBefore, rfl⟩ := Option.map_eq_some_iff.mp isAfter
    split
    · rename_i here
      subst here
      cases found.symm.trans isBefore
      exact .inr ⟨rfl, rfl⟩
    · rename_i elsewhere
      exact .inl ⟨fun same => elsewhere same.symm, isBefore⟩
  refine ⟨ledger.nextKey, ledger.named, ?_, fun other present => ledger.pending other (List.mem_cons_of_mem _ present),
    ?_, ?_, ?_, ledger.distinct, ?_, ?_⟩
  · intro other after isAfter
    rcases cases_of isAfter with ⟨elsewhere, before⟩ | ⟨rfl, rfl⟩
    · have unchanged := ledger.kept other after before
      simp only [List.mem_cons, elsewhere, false_or] at unchanged
      exact unchanged
    · rw [if_neg once]
      exact last ▸ kept
  · rw [ledger.dropped]
    refine (sum_modify (·.missed.length) change ?_ found).symm
    rw [missed, List.length_append]
  · intro other after isAfter fits
    rcases cases_of isAfter with ⟨_, before⟩ | ⟨rfl, rfl⟩
    · exact ledger.roomy other after before fits
    · have same : (change subscription).capacity = subscription.capacity := congrArg Prod.fst terms
      rw [missed, ledger.roomy other subscription found (same ▸ fits), roomy (same ▸ fits)]
      rfl
  · have same : (fabric.updateSubscription id change).subscriptions.map Subscription.terms =
        fabric.subscriptions.map Subscription.terms := by
      refine map_modify_same _ fun before isBefore => ?_
      cases found.symm.trans isBefore
      exact terms
    rw [same]
    exact ledger.terms
  · intro other present
    rw [updateSubscription, List.length_modify]
    exact ledger.known other present
  · intro isLive other after isAfter stillAlive
    rcases cases_of isAfter with ⟨_, before⟩ | ⟨rfl, _⟩
    · exact ledger.registered isLive other after before stillAlive
    · exact ledger.registered isLive other subscription found alive

theorem queue_length_lt (ledger : fabric.Ledger live given closed subscribers (id :: rest) dropped)
    (last : fabric.nextKey = key + 1) (found : fabric.subscriptions[id]? = some subscription)
    (alive : subscription.receivers ≠ 0) (accounted : fabric.Accounted (key :: worker)) :
    subscription.queue.length < fabric.poolCapacity := by
  have kept := ledger.kept id subscription found
  have current := kept.current alive
  rw [if_pos List.mem_cons_self] at current
  have offers_nodup : (subscription.offers.map Prod.fst).Nodup := by
    rw [kept.offered]
    exact List.nodup_range'
  have taken_sublist : subscription.taken.Sublist (subscription.offers.map Prod.fst) := List.filter_sublist.map _
  have held_nodup := (kept.contents alive).nodup_iff.mpr (offers_nodup.sublist taken_sublist)
  have queue_nodup : subscription.queue.Nodup := held_nodup.sublist (List.sublist_append_right ..)
  have older : key ∉ subscription.queue := by
    intro queued
    have taken := (kept.contents alive).mem_iff.mp (List.mem_append_right _ queued)
    have offered := taken_sublist.mem taken
    rw [kept.offered, List.mem_range'_1] at offered
    omega
  have shared : ∀ other ∈ key :: subscription.queue, other ∈ fabric.shared.map (·.key) := by
    intro other present
    have held : other ∈ (key :: worker) ++ fabric.handles := by
      rcases List.mem_cons.mp present with rfl | queued
      · exact List.mem_cons_self
      · refine List.mem_append_right _ (List.mem_append_right _ ?_)
        exact List.mem_flatMap.mpr ⟨subscription, List.mem_of_getElem? found, queued⟩
    obtain ⟨entry, isEntry, rfl⟩ := accounted.alive other held
    exact List.mem_map_of_mem isEntry
  have few := ((List.nodup_cons.mpr ⟨older, queue_nodup⟩).subperm shared).length_le
  have room := accounted.room
  simp only [Fabric.slots, List.length_append, List.length_map, List.length_cons] at few room
  omega

theorem trySend (ledger : fabric.Ledger live given closed subscribers (id :: rest) dropped) (once : id ∉ rest)
    (last : fabric.nextKey = key + 1) (accounted : fabric.Accounted (key :: worker)) {after : Fabric}
    {result : SendResult} (sends : fabric.trySend id key = (after, result)) :
    after.Ledger live given closed subscribers rest (dropped + if result = .full then 1 else 0) ∧
      after.nextKey = fabric.nextKey ∧
      (result = .disconnected → ∀ subscription, after.subscriptions[id]? = some subscription →
        subscription.receivers = 0) := by
  unfold Fabric.trySend at sends
  split at sends
  · rename_i absent
    cases sends
    have dead : ∀ subscription, fabric.subscriptions[id]? = some subscription → subscription.receivers = 0 := by
      intro subscription found
      rw [absent] at found
      cases found
    exact ⟨ledger.pass dead, rfl, fun _ => dead⟩
  rename_i subscription found
  split at sends
  · rename_i noReceiver
    cases sends
    have dead : ∀ other, fabric.subscriptions[id]? = some other → other.receivers = 0 := by
      intro other isOther
      cases found.symm.trans isOther
      exact noReceiver
    exact ⟨ledger.pass dead, rfl, fun _ => dead⟩
  rename_i alive
  have kept := ledger.kept id subscription found
  rw [if_pos List.mem_cons_self, last] at kept
  split at sends
  · rename_i others waiting
    cases sends
    refine ⟨(ledger.offer once last found alive (kept.handed alive waiting) rfl ?_ fun _ => rfl).board
      (SameBoard.handOver ..), rfl, fun disconnected => by cases disconnected⟩
    simp [Subscription.missed, Subscription.note, Subscription.hand]
  · rename_i others waiting
    cases sends
    have task : Waiter.task ∈ subscription.waiting := by rw [waiting]; exact List.mem_cons_self
    refine ⟨ledger.offer once last found alive (kept.queued alive (.inr task) fun waiter present => ?_) rfl ?_
      fun _ => rfl, rfl, fun disconnected => by cases disconnected⟩
    · rw [waiting]
      exact List.mem_cons_of_mem _ present
    · simp [Subscription.missed, Subscription.note]
  · rename_i nobody
    split at sends
    · cases sends
      have queued := kept.queued alive (.inl (by rw [nobody]; exact List.not_mem_nil)) fun _ present => present
      refine ⟨ledger.offer once last found alive queued rfl ?_ fun _ => rfl, rfl,
        fun disconnected => by cases disconnected⟩
      simp [Subscription.missed, Subscription.note]
    · rename_i full
      cases sends
      have counted : (fabric.updateSubscription id (·.note key false)).Ledger live given closed subscribers rest
          (dropped + [key].length) := by
        refine ledger.offer once last found alive (kept.refused alive) rfl ?_ fun fits => ?_
        · simp [Subscription.missed, Subscription.note]
        · have short := ledger.queue_length_lt last found alive accounted
          omega
      exact ⟨counted, rfl, fun disconnected => by cases disconnected⟩

end Ledger

end Fabric

end Telegenic.Stream
