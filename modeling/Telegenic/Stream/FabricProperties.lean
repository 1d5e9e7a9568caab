import Telegenic.Stream.Fabric

/-! Slots are conserved by everything that happens to the shared state: each
delivered frame is counted by exactly its handles, and its slot goes back to
the pool when the last of them is dropped. -/

set_option autoImplicit false

namespace Telegenic.Stream

namespace Fabric

def slots (fabric : Fabric) : List BufSlot :=
  fabric.pool ++ fabric.shared.map (·.frame.slot)

def handles (fabric : Fabric) : List Nat :=
  fabric.heldHandles ++ fabric.subscriptions.flatMap (·.queue)

structure Sound (holders : List Nat) (fabric : Fabric) : Prop where
  keys_nodup : (fabric.shared.map (·.key)).Nodup
  keys_lt : ∀ entry ∈ fabric.shared, entry.key < fabric.nextKey
  counted : ∀ entry ∈ fabric.shared, entry.strong = holders.count entry.key
  owned : ∀ entry ∈ fabric.shared, entry.key ∈ holders
  alive : ∀ key ∈ holders, ∃ entry ∈ fabric.shared, entry.key = key
  room : fabric.slots.length ≤ fabric.poolCapacity

def Accounted (worker : List Nat) (fabric : Fabric) : Prop :=
  fabric.Sound (worker ++ fabric.handles)

structure Conserves (fabric later : Fabric) : Prop where
  slots : later.slots.Perm fabric.slots
  capacity : later.poolCapacity = fabric.poolCapacity
  lost : later.lost = fabric.lost

namespace Conserves

variable {fabric later last : Fabric}

theorem refl : Conserves fabric fabric := ⟨.refl _, rfl, rfl⟩

theorem trans (first : Conserves fabric later) (second : Conserves later last) : Conserves fabric last :=
  ⟨second.slots.trans first.slots, second.capacity.trans first.capacity, second.lost.trans first.lost⟩

end Conserves

namespace Sound

variable {holders others : List Nat} {fabric : Fabric} {key : Nat}

theorem perm (sound : fabric.Sound holders) (same : holders.Perm others) : fabric.Sound others :=
  ⟨sound.keys_nodup, sound.keys_lt, fun entry present => by rw [sound.counted entry present, same.count_eq],
    fun entry present => same.mem_iff.mp (sound.owned entry present),
    fun key held => sound.alive key (same.mem_iff.mpr held), sound.room⟩

theorem congr {later : Fabric} (sound : fabric.Sound holders) (pool : later.pool = fabric.pool)
    (shared : later.shared = fabric.shared) (nextKey : later.nextKey = fabric.nextKey)
    (capacity : later.poolCapacity = fabric.poolCapacity) : later.Sound holders := by
  refine ⟨?_, ?_, ?_, ?_, ?_, ?_⟩
  · rw [shared]
    exact sound.keys_nodup
  · rw [shared, nextKey]
    exact sound.keys_lt
  · rw [shared]
    exact sound.counted
  · rw [shared]
    exact sound.owned
  · rw [shared]
    exact sound.alive
  · rw [slots, pool, shared, capacity]
    exact sound.room

theorem lookup_eq (sound : fabric.Sound holders) {entry : SharedFrame} (present : entry ∈ fabric.shared) :
    fabric.lookup entry.key = some entry := by
  unfold lookup
  cases found : fabric.shared.find? (fun other => other.key == entry.key) with
  | none =>
    have absent := List.find?_eq_none.mp found entry present
    simp at absent
  | some other =>
    have sameKey : other.key = entry.key := by simpa using List.find?_some found
    rw [List.inj_on_of_nodup_map sound.keys_nodup (List.mem_of_find?_eq_some found) present sameKey]

end Sound

theorem perm_cons_filter {entries : List SharedFrame} {entry : SharedFrame}
    (distinct : (entries.map (·.key)).Nodup) (present : entry ∈ entries) :
    entries.Perm (entry :: entries.filter fun other => other.key != entry.key) := by
  induction entries with
  | nil => cases present
  | cons head tail ih =>
    rw [List.map_cons, List.nodup_cons] at distinct
    obtain ⟨head_new, tail_distinct⟩ := distinct
    rcases List.mem_cons.mp present with rfl | inTail
    · have untouched : tail.filter (fun other => other.key != entry.key) = tail := by
        refine List.filter_eq_self.mpr ?_
        intro other member
        simp only [bne_iff_ne, ne_eq]
        intro same
        exact head_new (same ▸ List.mem_map_of_mem member)
      simp [untouched]
    · have other_key : head.key ≠ entry.key := fun same =>
        head_new (same ▸ List.mem_map_of_mem inTail)
      rw [List.filter_cons_of_pos (by simpa using other_key)]
      exact ((ih tail_distinct inTail).cons head).trans (List.Perm.swap _ _ _)

section Handles

variable {holders : List Nat} {fabric : Fabric} {key : Nat}

theorem returnSlot_eq {slot : BufSlot} (room : fabric.pool.length < fabric.poolCapacity) :
    fabric.returnSlot slot = { fabric with pool := fabric.pool ++ [slot] } :=
  if_pos room

theorem Sound.adjust {others : List Nat} {change : Nat → Nat} (sound : fabric.Sound holders)
    (recount : ∀ entry ∈ fabric.shared,
      (if entry.key = key then change entry.strong else entry.strong) = others.count entry.key)
    (owned : ∀ entry ∈ fabric.shared, entry.key ∈ others)
    (alive : ∀ other ∈ others, other ∈ holders) :
    (fabric.adjust key change).Sound others ∧ Conserves fabric (fabric.adjust key change) := by
  let adjusted : SharedFrame → SharedFrame := fun entry =>
    if entry.key = key then { entry with strong := change entry.strong } else entry
  have adjusted_key : ∀ entry, (adjusted entry).key = entry.key := by
    intro entry
    simp only [adjusted]
    split <;> rfl
  have adjusted_strong : ∀ entry, (adjusted entry).strong =
      if entry.key = key then change entry.strong else entry.strong := by
    intro entry
    simp only [adjusted]
    split <;> rfl
  have slots_eq : (fabric.adjust key change).slots = fabric.slots := by
    refine congrArg (fabric.pool ++ ·) ?_
    rw [Fabric.adjust, List.map_map]
    refine List.map_congr_left fun entry _ => ?_
    simp only [Function.comp_apply]
    split <;> rfl
  have keys_eq : (fabric.adjust key change).shared.map (·.key) = fabric.shared.map (·.key) := by
    rw [Fabric.adjust, List.map_map]
    exact List.map_congr_left fun entry _ => adjusted_key entry
  refine ⟨⟨by rw [keys_eq]; exact sound.keys_nodup, ?_, ?_, ?_, ?_, by rw [slots_eq]; exact sound.room⟩,
    ⟨by rw [slots_eq], rfl, rfl⟩⟩
  · intro entry present
    obtain ⟨old, member, rfl⟩ := List.mem_map.mp present
    exact (adjusted_key old).trans_lt (sound.keys_lt old member)
  · intro entry present
    obtain ⟨old, member, rfl⟩ := List.mem_map.mp present
    rw [show SharedFrame.key _ = old.key from adjusted_key old]
    exact (adjusted_strong old).trans (recount old member)
  · intro entry present
    obtain ⟨old, member, rfl⟩ := List.mem_map.mp present
    rw [show SharedFrame.key _ = old.key from adjusted_key old]
    exact owned old member
  · intro other present
    obtain ⟨entry, member, rfl⟩ := sound.alive other (alive other present)
    exact ⟨adjusted entry, List.mem_map_of_mem member, adjusted_key entry⟩

theorem Sound.retain (sound : fabric.Sound holders) (held : key ∈ holders) :
    (fabric.retain key).Sound (key :: holders) ∧ Conserves fabric (fabric.retain key) := by
  refine sound.adjust ?_ (fun entry present => List.mem_cons_of_mem _ (sound.owned entry present)) ?_
  · intro entry present
    have count := sound.counted entry present
    by_cases same : entry.key = key
    · rw [if_pos same, count, same, List.count_cons_self]
    · rw [if_neg same, count, List.count_cons_of_ne (Ne.symm same)]
  · intro other present
    rcases List.mem_cons.mp present with rfl | old
    · exact held
    · exact old

theorem Sound.free {entry : SharedFrame} (sound : fabric.Sound (entry.key :: holders))
    (present : entry ∈ fabric.shared) (gone : entry.key ∉ holders) :
    ((fabric.forget entry.key).returnSlot entry.frame.slot).Sound holders ∧
      Conserves fabric ((fabric.forget entry.key).returnSlot entry.frame.slot) := by
  have room : (fabric.forget entry.key).pool.length < (fabric.forget entry.key).poolCapacity := by
    have bound := sound.room
    have nonempty := List.length_pos_of_mem present
    simp only [slots, List.length_append, List.length_map] at bound
    simp only [forget]
    omega
  rw [returnSlot_eq room]
  have slots_perm : (fabric.pool ++ [entry.frame.slot] ++
      (fabric.shared.filter fun other => other.key != entry.key).map (·.frame.slot)).Perm fabric.slots := by
    rw [List.append_assoc, slots]
    exact (((perm_cons_filter sound.keys_nodup present).map (·.frame.slot)).symm).append_left fabric.pool
  refine ⟨⟨?_, ?_, ?_, ?_, ?_, ?_⟩, ⟨slots_perm, rfl, rfl⟩⟩
  · exact sound.keys_nodup.sublist (List.filter_sublist.map _)
  · intro other member
    exact sound.keys_lt other (List.mem_filter.mp member).1
  · intro other member
    obtain ⟨old, differs⟩ := List.mem_filter.mp member
    rw [sound.counted other old, List.count_cons_of_ne (Ne.symm (by simpa using differs))]
  · intro other member
    obtain ⟨old, differs⟩ := List.mem_filter.mp member
    exact (List.mem_cons.mp (sound.owned other old)).resolve_left (by simpa using differs)
  · intro other held
    obtain ⟨found, member, rfl⟩ := sound.alive other (List.mem_cons_of_mem _ held)
    refine ⟨found, List.mem_filter.mpr ⟨member, ?_⟩, rfl⟩
    simp only [bne_iff_ne, ne_eq]
    intro same
    exact gone (same ▸ held)
  · exact slots_perm.length_eq ▸ sound.room

theorem Sound.release (sound : fabric.Sound (key :: holders)) :
    (fabric.release key).Sound holders ∧ Conserves fabric (fabric.release key) := by
  obtain ⟨entry, present, rfl⟩ := sound.alive key (by simp)
  have count : entry.strong = holders.count entry.key + 1 := by
    rw [sound.counted entry present, List.count_cons_self]
  unfold Fabric.release
  rw [sound.lookup_eq present]
  by_cases last : entry.strong ≤ 1
  · simp only [if_pos last]
    exact sound.free present (List.count_eq_zero.mp (by omega))
  · simp only [if_neg last]
    have positive : 1 ≤ holders.count entry.key := by omega
    refine sound.adjust ?_ ?_ (fun other held => List.mem_cons_of_mem _ held)
    · intro other member
      have total := sound.counted other member
      by_cases same : other.key = entry.key
      · rw [same, List.count_cons_self] at total
        rw [if_pos same, same]
        omega
      · rw [List.count_cons_of_ne (Ne.symm same)] at total
        rw [if_neg same, total]
    · intro other member
      rcases List.mem_cons.mp (sound.owned other member) with same | old
      · rw [same]
        exact List.count_pos_iff.mp positive
      · exact old

end Handles

section Channels

variable {worker : List Nat} {fabric : Fabric} {key id : Nat}

theorem handles_returnSlot {slot : BufSlot} : (fabric.returnSlot slot).handles = fabric.handles := by
  unfold returnSlot
  split <;> rfl

theorem handles_release : (fabric.release key).handles = fabric.handles := by
  unfold release
  split
  · rfl
  · split
    · exact handles_returnSlot
    · rfl

theorem handles_handOver : (key :: fabric.handles).Perm (fabric.handOver key).handles := by
  unfold handles handOver
  rw [List.append_assoc]
  exact List.perm_middle.symm

theorem Accounted.handOver (accounted : fabric.Accounted (key :: worker)) :
    (fabric.handOver key).Accounted worker := by
  have holders : (key :: worker ++ fabric.handles).Perm (worker ++ (fabric.handOver key).handles) :=
    List.perm_middle.symm.trans (handles_handOver.append_left worker)
  exact (Sound.perm accounted holders).congr rfl rfl rfl rfl

theorem Conserves.handOver : Conserves fabric (fabric.handOver key) := ⟨.refl _, rfl, rfl⟩

theorem Accounted.retain (accounted : fabric.Accounted worker) (key : Nat) (held : key ∈ worker ++ fabric.handles) :
    (fabric.retain key).Accounted (key :: worker) ∧ Conserves fabric (fabric.retain key) :=
  Sound.retain accounted held

theorem Accounted.release (accounted : fabric.Accounted (key :: worker)) :
    (fabric.release key).Accounted worker ∧ Conserves fabric (fabric.release key) := by
  unfold Accounted
  rw [handles_release]
  exact Sound.release accounted

theorem Sound.releaseAll {holders : List Nat} (keys : List Nat) : ∀ (fabric : Fabric),
    fabric.Sound (keys ++ holders) →
    (fabric.releaseAll keys).Sound holders ∧ Conserves fabric (fabric.releaseAll keys) ∧
      (fabric.releaseAll keys).handles = fabric.handles := by
  induction keys with
  | nil => exact fun fabric sound => ⟨sound, .refl, rfl⟩
  | cons key rest ih =>
    intro fabric sound
    obtain ⟨released, conserved⟩ := Sound.release sound
    obtain ⟨rest_sound, rest_conserved, rest_handles⟩ := ih (fabric.release key) released
    exact ⟨rest_sound, conserved.trans rest_conserved, rest_handles.trans handles_release⟩

theorem queues_modify {change : Subscription → Subscription} :
    ∀ (subscriptions : List Subscription) (id : Nat) (subscription : Subscription),
      subscriptions[id]? = some subscription →
      ((change subscription).queue ++ subscriptions.flatMap (·.queue)).Perm
        (subscription.queue ++ (subscriptions.modify id change).flatMap (·.queue)) := by
  intro subscriptions
  induction subscriptions with
  | nil =>
    intro id subscription found
    simp at found
  | cons head tail ih =>
    intro id subscription found
    cases id with
    | zero =>
      simp only [List.getElem?_cons_zero, Option.some.injEq] at found
      subst found
      simp only [List.modify_zero_cons, List.flatMap_cons]
      exact List.perm_append_comm_assoc _ _ _
    | succ id =>
      simp only [List.getElem?_cons_succ] at found
      simp only [List.modify_succ_cons, List.flatMap_cons]
      refine (List.perm_append_comm_assoc _ _ _).trans ?_
      refine ((ih id subscription found).append_left head.queue).trans ?_
      exact List.perm_append_comm_assoc _ _ _

theorem handles_updateSubscription (change : Subscription → Subscription) {subscription : Subscription}
    (found : fabric.subscriptions[id]? = some subscription) :
    ((change subscription).queue ++ fabric.handles).Perm
      (subscription.queue ++ (fabric.updateSubscription id change).handles) := by
  refine (List.perm_append_comm_assoc _ _ _).trans ?_
  refine ((queues_modify fabric.subscriptions id subscription found).append_left fabric.heldHandles).trans ?_
  exact List.perm_append_comm_assoc _ _ _

theorem handles_updateSubscription_same {change : Subscription → Subscription}
    (same : ∀ subscription, (change subscription).queue = subscription.queue) :
    (fabric.updateSubscription id change).handles = fabric.handles := by
  have queues : ∀ (subscriptions : List Subscription) (id : Nat),
      (subscriptions.modify id change).flatMap (·.queue) = subscriptions.flatMap (·.queue) := by
    intro subscriptions
    induction subscriptions with
    | nil => intro id; simp
    | cons head tail ih =>
      intro id
      cases id with
      | zero => simp [same]
      | succ id => simp [ih id]
  exact congrArg (fabric.heldHandles ++ ·) (queues fabric.subscriptions id)

theorem Conserves.updateSubscription {change : Subscription → Subscription} :
    Conserves fabric (fabric.updateSubscription id change) := ⟨.refl _, rfl, rfl⟩

theorem Accounted.updateSubscription_same (accounted : fabric.Accounted worker) (id : Nat)
    (change : Subscription → Subscription)
    (same : ∀ subscription, (change subscription).queue = subscription.queue) :
    (fabric.updateSubscription id change).Accounted worker := by
  unfold Accounted
  rw [handles_updateSubscription_same same]
  exact Sound.congr accounted rfl rfl rfl rfl

theorem Accounted.trySend (accounted : fabric.Accounted (key :: worker)) (id : Nat) :
    Conserves fabric (fabric.trySend id key).1 ∧
      ((fabric.trySend id key).2 = .sent → (fabric.trySend id key).1.Accounted worker) ∧
      ((fabric.trySend id key).2 ≠ .sent → (fabric.trySend id key).1.Accounted (key :: worker)) := by
  have enqueued : ∀ (subscription : Subscription) (change : Subscription → Subscription),
      fabric.subscriptions[id]? = some subscription → (change subscription).queue = subscription.queue ++ [key] →
      (fabric.updateSubscription id change).Accounted worker := by
    intro subscription change found queue
    have moved := handles_updateSubscription change found
    rw [queue, List.append_assoc] at moved
    have handles : (key :: fabric.handles).Perm (fabric.updateSubscription id change).handles :=
      (List.perm_append_left_iff _).mp moved
    have holders : (key :: worker ++ fabric.handles).Perm
        (worker ++ (fabric.updateSubscription id change).handles) :=
      (List.perm_middle.symm).trans (handles.append_left worker)
    exact (Sound.perm accounted holders).congr rfl rfl rfl rfl
  unfold Fabric.trySend
  cases found : fabric.subscriptions[id]? with
  | none => exact ⟨.refl, fun sent => (by cases sent), fun _ => accounted⟩
  | some subscription =>
    simp only
    by_cases dead : subscription.receivers = 0
    · rw [if_pos dead]
      exact ⟨.refl, fun sent => (by cases sent), fun _ => accounted⟩
    rw [if_neg dead]
    cases waiting : subscription.waiting with
    | nil =>
      simp only
      by_cases fits : subscription.queue.length < subscription.capacity
      · rw [if_pos fits]
        exact ⟨.updateSubscription, fun _ => enqueued subscription _ found rfl,
          fun unsent => absurd rfl unsent⟩
      · rw [if_neg fits]
        exact ⟨.updateSubscription, fun sent => (by cases sent),
          fun _ => accounted.updateSubscription_same id _ fun _ => rfl⟩
    | cons waiter rest =>
      cases waiter with
      | task =>
        exact ⟨.updateSubscription, fun _ => enqueued subscription _ found rfl,
          fun unsent => absurd rfl unsent⟩
      | thread =>
        refine ⟨Conserves.updateSubscription.trans .handOver, fun _ => ?_, fun unsent => absurd rfl unsent⟩
        exact (accounted.updateSubscription_same id (fun s => ({ s with waiting := rest }.note key true).hand key)
          fun _ => rfl).handOver

theorem Accounted.freeChannel (accounted : fabric.Accounted worker) (id : Nat) :
    (fabric.freeChannel id).Accounted worker ∧ Conserves fabric (fabric.freeChannel id) := by
  unfold Fabric.freeChannel
  cases found : fabric.subscriptions[id]? with
  | none => exact ⟨accounted, .refl⟩
  | some subscription =>
    simp only
    by_cases dead : subscription.receivers = 0 ∧ subscription.senderAlive = false
    · rw [if_pos dead]
      have emptied := handles_updateSubscription (fun s => { s with queue := [] }) found
      rw [List.nil_append] at emptied
      have holders : (worker ++ fabric.handles).Perm (subscription.queue ++ (worker ++
          (fabric.updateSubscription id fun s => { s with queue := [] }).handles)) :=
        (emptied.append_left worker).trans (List.perm_append_comm_assoc _ _ _)
      obtain ⟨sound, conserved, handles⟩ := Sound.releaseAll subscription.queue
        (fabric.updateSubscription id fun s => { s with queue := [] })
        ((Sound.perm accounted holders).congr rfl rfl rfl rfl)
      refine ⟨?_, Conserves.updateSubscription.trans conserved⟩
      unfold Accounted
      rw [handles]
      exact sound
    · rw [if_neg dead]
      exact ⟨accounted, .refl⟩

theorem Accounted.dropSender (accounted : fabric.Accounted worker) (id : Nat) :
    (fabric.dropSender id).Accounted worker ∧ Conserves fabric (fabric.dropSender id) := by
  have marked := accounted.updateSubscription_same id (fun s => { s with senderAlive := false }) fun _ => rfl
  obtain ⟨freed, conserved⟩ := marked.freeChannel id
  exact ⟨freed, Conserves.updateSubscription.trans conserved⟩

theorem Accounted.dropReceiver (accounted : fabric.Accounted worker) (id : Nat) :
    (fabric.dropReceiver id).Accounted worker ∧ Conserves fabric (fabric.dropReceiver id) := by
  have marked := accounted.updateSubscription_same id (fun s => { s with
    receivers := s.receivers - 1
    waiting := if s.receivers ≤ 1 then [] else s.waiting }) fun _ => rfl
  obtain ⟨freed, conserved⟩ := marked.freeChannel id
  exact ⟨freed, Conserves.updateSubscription.trans conserved⟩

theorem Accounted.tryRecv (accounted : fabric.Accounted worker) (id : Nat) :
    (fabric.tryRecv id).Accounted worker ∧ Conserves fabric (fabric.tryRecv id) := by
  unfold Fabric.tryRecv
  cases found : fabric.subscriptions[id]? with
  | none => exact ⟨accounted, .refl⟩
  | some subscription =>
    simp only
    cases queue : subscription.queue with
    | nil => exact ⟨accounted, .refl⟩
    | cons key rest =>
      simp only
      by_cases dead : subscription.receivers = 0
      · rw [if_pos dead]
        exact ⟨accounted, .refl⟩
      rw [if_neg dead]
      refine ⟨Accounted.handOver ?_, Conserves.updateSubscription.trans .handOver⟩
      -- The key moves from the head of the queue to the receiving thread.
      have moved := handles_updateSubscription (fun s => { s with queue := rest }.hand key) found
      rw [queue, List.cons_append] at moved
      have handles : fabric.handles.Perm
          (key :: (fabric.updateSubscription id fun s => { s with queue := rest }.hand key).handles) :=
        (List.perm_append_left_iff rest).mp (moved.trans List.perm_middle.symm)
      have holders : (worker ++ fabric.handles).Perm (key :: worker ++
          (fabric.updateSubscription id fun s => { s with queue := rest }.hand key).handles) :=
        (handles.append_left worker).trans List.perm_middle
      exact (Sound.perm accounted holders).congr rfl rfl rfl rfl

theorem Accounted.consume (accounted : fabric.Accounted worker) (act : ConsumerAct) :
    (fabric.consume act).Accounted worker ∧ Conserves fabric (fabric.consume act) := by
  cases act with
  | subscribe capacity =>
    refine ⟨?_, ⟨.refl _, rfl, rfl⟩⟩
    have same : (fabric.consume (.subscribe capacity)).handles = fabric.handles := by
      simp [Fabric.consume, handles]
    unfold Accounted
    rw [same]
    exact Sound.congr accounted rfl rfl rfl rfl
  | cloneReceiver id =>
    refine ⟨accounted.updateSubscription_same id _ ?_, .updateSubscription⟩
    intro subscription
    split <;> rfl
  | dropReceiver id => exact accounted.dropReceiver id
  | tryRecv id => exact accounted.tryRecv id
  | startWaiting id waiter =>
    refine ⟨accounted.updateSubscription_same id _ ?_, .updateSubscription⟩
    intro subscription
    split <;> rfl
  | stopWaiting id position =>
    exact ⟨accounted.updateSubscription_same id _ fun _ => rfl, .updateSubscription⟩
  | cloneFrame key =>
    simp only [Fabric.consume]
    by_cases held : key ∈ fabric.heldHandles
    · rw [if_pos held]
      obtain ⟨retained, conserved⟩ := accounted.retain key (by simp [handles, held])
      exact ⟨retained.handOver, conserved.trans .handOver⟩
    · rw [if_neg held]
      exact ⟨accounted, .refl⟩
  | dropFrame key =>
    simp only [Fabric.consume]
    by_cases held : key ∈ fabric.heldHandles
    · rw [if_pos held]
      let without := { fabric with heldHandles := fabric.heldHandles.erase key }
      have handles : fabric.handles.Perm (key :: without.handles) :=
        (List.perm_cons_erase held).append_right _
      have holders : (worker ++ fabric.handles).Perm (key :: worker ++ without.handles) :=
        (handles.append_left worker).trans List.perm_middle
      have taken : without.Accounted (key :: worker) := (Sound.perm accounted holders).congr rfl rfl rfl rfl
      have unchanged : Conserves fabric without := ⟨.refl _, rfl, rfl⟩
      obtain ⟨released, conserved⟩ := taken.release
      exact ⟨released, unchanged.trans conserved⟩
    · rw [if_neg held]
      exact ⟨accounted, .refl⟩
  | requestShutdown => exact ⟨Sound.congr accounted rfl rfl rfl rfl, ⟨.refl _, rfl, rfl⟩⟩

theorem Accounted.consumeAll (acts : List ConsumerAct) : ∀ (fabric : Fabric), fabric.Accounted worker →
    (acts.foldl Fabric.consume fabric).Accounted worker ∧ Conserves fabric (acts.foldl Fabric.consume fabric) := by
  induction acts with
  | nil => exact fun fabric accounted => ⟨accounted, .refl⟩
  | cons act rest ih =>
    intro fabric accounted
    obtain ⟨consumed, conserved⟩ := accounted.consume act
    obtain ⟨rest_accounted, rest_conserved⟩ := ih (fabric.consume act) consumed
    exact ⟨rest_accounted, conserved.trans rest_conserved⟩

end Channels

section Slots

variable {worker : List Nat} {fabric : Fabric}

theorem Accounted.share (accounted : fabric.Accounted worker) (frame : Frame)
    (room : fabric.slots.length < fabric.poolCapacity) :
    (fabric.share frame).Accounted (fabric.nextKey :: worker) ∧
      (fabric.share frame).slots = fabric.slots ++ [frame.slot] := by
  have slots_eq : (fabric.share frame).slots = fabric.slots ++ [frame.slot] := by
    simp [Fabric.share, slots]
  have fresh : fabric.nextKey ∉ worker ++ fabric.handles := by
    intro held
    obtain ⟨entry, present, same⟩ := Sound.alive accounted _ held
    exact absurd (Sound.keys_lt accounted entry present) (by omega)
  refine ⟨⟨?_, ?_, ?_, ?_, ?_, ?_⟩, slots_eq⟩
  · simp only [Fabric.share, List.map_append, List.map_cons, List.map_nil]
    refine List.nodup_append.mpr ⟨Sound.keys_nodup accounted, by simp, ?_⟩
    intro key present other isNew same
    obtain ⟨entry, member, rfl⟩ := List.mem_map.mp present
    have older := Sound.keys_lt accounted entry member
    rw [List.mem_singleton.mp isNew] at same
    omega
  · intro entry present
    rcases List.mem_append.mp present with old | new
    · exact Nat.lt_succ_of_lt (Sound.keys_lt accounted entry old)
    · rw [List.mem_singleton.mp new]
      exact Nat.lt_succ_self _
  · intro entry present
    rcases List.mem_append.mp present with old | new
    · have older := Sound.keys_lt accounted entry old
      refine (Sound.counted accounted entry old).trans ?_
      exact (List.count_cons_of_ne (by omega)).symm
    · rw [List.mem_singleton.mp new]
      refine Eq.symm (List.count_cons_self.trans ?_)
      exact congrArg (· + 1) (List.count_eq_zero.mpr fresh)
  · intro entry present
    rcases List.mem_append.mp present with old | new
    · exact List.mem_cons_of_mem _ (Sound.owned accounted entry old)
    · rw [List.mem_singleton.mp new]
      exact List.mem_cons_self
  · intro key held
    rcases List.mem_cons.mp held with rfl | old
    · exact ⟨_, List.mem_append_right _ (List.mem_singleton_self _), rfl⟩
    · obtain ⟨entry, present, same⟩ := Sound.alive accounted key old
      exact ⟨entry, List.mem_append_left _ present, same⟩
  · rw [slots_eq, List.length_append, List.length_singleton]
    exact room

theorem Sound.withPool {holders : List Nat} {pool : List BufSlot} (sound : fabric.Sound holders)
    (room : ({ fabric with pool := pool } : Fabric).slots.length ≤ fabric.poolCapacity) :
    ({ fabric with pool := pool } : Fabric).Sound holders :=
  ⟨sound.keys_nodup, sound.keys_lt, sound.counted, sound.owned, sound.alive, room⟩

theorem Accounted.tryClaim (accounted : fabric.Accounted worker) {later : Fabric} {slot : BufSlot}
    (claimed : fabric.tryClaim = (later, some slot)) :
    later.Accounted worker ∧ fabric.slots = slot :: later.slots ∧ later.poolCapacity = fabric.poolCapacity ∧
      later.lost = fabric.lost := by
  unfold Fabric.tryClaim at claimed
  cases pool : fabric.pool with
  | nil =>
    rw [pool] at claimed
    cases claimed
  | cons first rest =>
    rw [pool] at claimed
    cases claimed
    have slots_eq : fabric.slots = slot :: { fabric with pool := rest }.slots := by
      simp [slots, pool]
    refine ⟨Sound.withPool accounted ?_, slots_eq, rfl, rfl⟩
    have bound := Sound.room accounted
    rw [slots_eq, List.length_cons] at bound
    exact Nat.le_of_succ_le bound

theorem Accounted.returnSlot (accounted : fabric.Accounted worker) (slot : BufSlot)
    (room : fabric.slots.length < fabric.poolCapacity) :
    (fabric.returnSlot slot).Accounted worker ∧ (fabric.returnSlot slot).slots.Perm (slot :: fabric.slots) ∧
      (fabric.returnSlot slot).poolCapacity = fabric.poolCapacity ∧
      (fabric.returnSlot slot).lost = fabric.lost := by
  have pool_room : fabric.pool.length < fabric.poolCapacity := by
    simp only [slots, List.length_append] at room
    omega
  rw [returnSlot_eq pool_room]
  have slots_perm : ({ fabric with pool := fabric.pool ++ [slot] } : Fabric).slots.Perm (slot :: fabric.slots) := by
    simp only [slots, List.append_assoc]
    exact List.perm_middle
  refine ⟨Sound.withPool accounted ?_, slots_perm, rfl, rfl⟩
  rw [slots_perm.length_eq, List.length_cons]
  exact room

end Slots

end Fabric

end Telegenic.Stream
