import Telegenic.Stream.Frame

/-! What the stream worker shares with the rest of the program: the pool of
free buffers, the reference-counted frames it delivered, the subscription
channels they are sent through and the worker's command queue. The other
threads act on these between any two accesses of the worker. -/

set_option autoImplicit false

namespace Telegenic.Stream

/-- A receive that found its channel empty: a blocked thread takes the next
frame itself, an asynchronous task is woken to fetch it from the queue. -/
inductive Waiter where
  | thread
  | task
  deriving DecidableEq, Repr

/-- One subscription's bounded channel. The queue holds keys of shared
frames. -/
structure Subscription where
  capacity : Nat
  queue : List Nat := []
  waiting : List Waiter := []
  receivers : Nat := 1
  senderAlive : Bool := true
  /-- History variable: frames closed before the subscription was sent. -/
  since : Nat := 0
  /-- History variable: the frames offered to the channel while it had a
  receiver, and whether it took them. -/
  offers : List (Nat × Bool) := []
  /-- History variable: the frames that left the channel, in that order. -/
  received : List Nat := []
  /-- History variable: blocked threads and tasks waited at the same time. -/
  mixed : Bool := false
  deriving DecidableEq, Repr

/-- Records whether the channel took a frame. -/
def Subscription.note (key : Nat) (taken : Bool) (subscription : Subscription) : Subscription :=
  { subscription with offers := subscription.offers ++ [(key, taken)] }

/-- A frame leaves the channel. -/
def Subscription.hand (key : Nat) (subscription : Subscription) : Subscription :=
  { subscription with received := subscription.received ++ [key] }

/-- A delivered frame and how many handles to it exist. -/
structure SharedFrame where
  key : Nat
  frame : Frame
  strong : Nat
  deriving DecidableEq, Repr

/-- Messages to the stream worker; a subscription is named by its position. -/
inductive ToStreamWorker where
  | subscribe (subscription : Nat)
  | shutdown
  deriving DecidableEq, Repr

structure Fabric where
  /-- The bounded channel of free slots. -/
  pool : List BufSlot
  poolCapacity : Nat
  /-- Frames with at least one handle left. -/
  shared : List SharedFrame := []
  nextKey : Nat := 0
  subscriptions : List Subscription := []
  commands : List ToStreamWorker := []
  /-- Keys of the handles other threads hold. -/
  heldHandles : List Nat := []
  /-- History variable: slots whose return found the pool's channel full. -/
  lost : List BufSlot := []
  deriving DecidableEq, Repr

inductive SendResult where
  | sent
  | full
  | disconnected
  deriving DecidableEq, Repr

namespace Fabric

/-- `FramePool::new`. -/
def newPool (nBuffers payloadSize : Nat) : List BufSlot :=
  (List.range nBuffers).map fun key =>
    { key := key, data := List.replicate payloadSize 0, packets := [] }

/-- `FramePool::try_claim`. -/
def tryClaim (fabric : Fabric) : Fabric × Option BufSlot :=
  match fabric.pool with
  | [] => (fabric, none)
  | slot :: rest => ({ fabric with pool := rest }, some slot)

/-- A dropped `PooledBuf` offers its slot to the pool; the slot is lost when
the channel is full. -/
def returnSlot (slot : BufSlot) (fabric : Fabric) : Fabric :=
  if fabric.pool.length < fabric.poolCapacity then
    { fabric with pool := fabric.pool ++ [slot] }
  else
    { fabric with lost := fabric.lost ++ [slot] }

/-- `Arc::new`: the frame under the next key, with one handle, held by the
caller. -/
def share (frame : Frame) (fabric : Fabric) : Fabric :=
  { fabric with
    shared := fabric.shared ++ [{ key := fabric.nextKey, frame := frame, strong := 1 }]
    nextKey := fabric.nextKey + 1 }

/-- The shared frame with this key, when it is still alive. -/
def lookup (key : Nat) (fabric : Fabric) : Option SharedFrame :=
  fabric.shared.find? fun entry => entry.key == key

/-- Changes the handle count of one frame. -/
def adjust (key : Nat) (change : Nat → Nat) (fabric : Fabric) : Fabric :=
  { fabric with shared := fabric.shared.map fun entry =>
      if entry.key = key then { entry with strong := change entry.strong } else entry }

/-- `Arc::clone`. -/
def retain (key : Nat) (fabric : Fabric) : Fabric :=
  fabric.adjust key (· + 1)

def forget (key : Nat) (fabric : Fabric) : Fabric :=
  { fabric with shared := fabric.shared.filter fun entry => entry.key != key }

/-- Drops one handle; the last one frees the frame and returns its slot. -/
def release (key : Nat) (fabric : Fabric) : Fabric :=
  match fabric.lookup key with
  | none => fabric
  | some entry =>
      if entry.strong ≤ 1 then
        (fabric.forget key).returnSlot entry.frame.slot
      else
        fabric.adjust key (· - 1)

/-- Drops a list of handles, one after the other. -/
def releaseAll (keys : List Nat) (fabric : Fabric) : Fabric :=
  keys.foldl (fun fabric key => fabric.release key) fabric

def updateSubscription (id : Nat) (change : Subscription → Subscription) (fabric : Fabric) : Fabric :=
  { fabric with subscriptions := fabric.subscriptions.modify id change }

/-- Another thread comes to hold a handle. -/
def handOver (key : Nat) (fabric : Fabric) : Fabric :=
  { fabric with heldHandles := fabric.heldHandles ++ [key] }

/-- `Sender::try_send` of a handle the caller holds. On failure the caller
still holds it. -/
def trySend (id key : Nat) (fabric : Fabric) : Fabric × SendResult :=
  match fabric.subscriptions[id]? with
  | none => (fabric, .disconnected)
  | some subscription =>
      if subscription.receivers = 0 then
        (fabric, .disconnected)
      else
        match subscription.waiting with
        | .thread :: rest =>
            ((fabric.updateSubscription id
              (fun s => ({ s with waiting := rest }.note key true).hand key)).handOver key, .sent)
        | .task :: rest =>
            (fabric.updateSubscription id
              (fun s => { s with waiting := rest, queue := s.queue ++ [key] }.note key true), .sent)
        | [] =>
            if subscription.queue.length < subscription.capacity then
              (fabric.updateSubscription id (fun s => { s with queue := s.queue ++ [key] }.note key true), .sent)
            else
              (fabric.updateSubscription id (·.note key false), .full)

/-- Frees a channel that has lost both ends, dropping what is still queued. -/
def freeChannel (id : Nat) (fabric : Fabric) : Fabric :=
  match fabric.subscriptions[id]? with
  | none => fabric
  | some subscription =>
      if subscription.receivers = 0 ∧ subscription.senderAlive = false then
        (fabric.updateSubscription id fun s => { s with queue := [] }).releaseAll subscription.queue
      else
        fabric

/-- Drops the worker's end of a subscription. -/
def dropSender (id : Nat) (fabric : Fabric) : Fabric :=
  (fabric.updateSubscription id fun s => { s with senderAlive := false }).freeChannel id

end Fabric

/-- What the other threads can do to the shared state. -/
inductive ConsumerAct where
  | subscribe (capacity : Nat)
  | cloneReceiver (subscription : Nat)
  | dropReceiver (subscription : Nat)
  | tryRecv (subscription : Nat)
  | startWaiting (subscription : Nat) (waiter : Waiter)
  | stopWaiting (subscription : Nat) (position : Nat)
  | cloneFrame (key : Nat)
  | dropFrame (key : Nat)
  | requestShutdown
  deriving DecidableEq, Repr

namespace Fabric

/-- `Receiver::try_recv`. -/
def tryRecv (id : Nat) (fabric : Fabric) : Fabric :=
  match fabric.subscriptions[id]? with
  | none => fabric
  | some subscription =>
      match subscription.queue with
      | [] => fabric
      | key :: rest =>
          if subscription.receivers = 0 then
            fabric
          else
            (fabric.updateSubscription id (fun s => { s with queue := rest }.hand key)).handOver key

/-- Drops one receiver; the last one disconnects the channel but leaves its
queue in place for as long as the sender lives. -/
def dropReceiver (id : Nat) (fabric : Fabric) : Fabric :=
  (fabric.updateSubscription id fun s =>
    { s with receivers := s.receivers - 1, waiting := if s.receivers ≤ 1 then [] else s.waiting }).freeChannel id

/-- One act of another thread. Acts that no thread can perform, such as
dropping a handle nobody holds, leave the state as it is. -/
def consume (fabric : Fabric) : ConsumerAct → Fabric
  | .subscribe capacity =>
      { fabric with
        subscriptions := fabric.subscriptions ++ [{ capacity := capacity, since := fabric.nextKey }]
        commands := fabric.commands ++ [.subscribe fabric.subscriptions.length] }
  | .cloneReceiver id =>
      fabric.updateSubscription id fun s =>
        if s.receivers = 0 then s else { s with receivers := s.receivers + 1 }
  | .dropReceiver id => fabric.dropReceiver id
  | .tryRecv id => fabric.tryRecv id
  | .startWaiting id waiter =>
      fabric.updateSubscription id fun s =>
        if s.receivers = 0 ∨ s.queue ≠ [] ∨ s.senderAlive = false then s
        else { s with waiting := s.waiting ++ [waiter], mixed := s.mixed || s.waiting.any (· != waiter) }
  | .stopWaiting id position =>
      fabric.updateSubscription id fun s => { s with waiting := s.waiting.eraseIdx position }
  | .cloneFrame key =>
      if key ∈ fabric.heldHandles then
        (fabric.retain key).handOver key
      else
        fabric
  | .dropFrame key =>
      if key ∈ fabric.heldHandles then
        release key { fabric with heldHandles := fabric.heldHandles.erase key }
      else
        fabric
  | .requestShutdown => { fabric with commands := fabric.commands ++ [.shutdown] }

end Fabric

end Telegenic.Stream
