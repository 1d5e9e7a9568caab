import Mathlib.Tactic

/-! The response handle that threads and tasks wait on. Any number of threads
deposit an outcome, block for it or poll for it, and their steps on the shared
cell, event and waker list interleave in any order. -/

set_option autoImplicit false

namespace Telegenic.Handle

variable {Value Waker : Type}

/-- What a waker list can tell about wakers: it only takes two for one when
waking either has the same effect. -/
structure WakerKind (Waker : Type) where
  willWake : Waker → Waker → Bool
  same : Setoid Waker
  sound : ∀ {first second : Waker}, willWake first second = true → same.r first second

/-- Where a thread is in the call that it makes. -/
inductive Phase (Value Waker : Type) where
  | idle
  /-- `fulfill`, with the outcome to deposit. -/
  | deposit (value : Value)
  | notify
  | lock
  | take
  /-- The wakers of the list that was taken which are still to be woken. The
  guard is a temporary of the loop's head, so the lock is held to its end. -/
  | wake (rest : List Waker)
  /-- `wait_timeout`. -/
  | check
  | listen
  | recheck
  | sleep
  | lastCheck
  | get
  /-- `poll`, with the waker of the context. -/
  | pollCheck (waker : Waker)
  | pollLock (waker : Waker)
  | register (waker : Waker)
  | unlock (waker : Waker)
  | pollRecheck (waker : Waker)
  deriving DecidableEq, Repr

inductive HandleEvent (Value Waker : Type) where
  /-- The cell was set. -/
  | deposited (value : Value)
  | woke (waker : Waker)
  deriving DecidableEq, Repr

/-- What the clones of one handle share, and what has happened so far. -/
structure Inner (Value Waker : Type) where
  cell : Option Value := none
  /-- A thread's listener, and whether it was notified. -/
  listeners : Nat → Option Bool := fun _ => none
  /-- The thread that holds the lock of the waker list. -/
  guard : Option Nat := none
  wakers : List Waker := []
  /-- The outcomes of the `fulfill` calls in the order in which they came to
  the cell. -/
  deposits : List Value := []
  /-- Some call has notified the event. -/
  notified : Bool := false
  /-- Some call of `fulfill` has returned. -/
  finished : Bool := false
  /-- The polls that returned `Pending`: their threads and wakers. -/
  pending : List (Nat × Waker) := []
  /-- What `get` returned to those that found the cell set or were notified;
  nothing stands for its timeout error. -/
  seen : List (Option Value) := []
  journal : List (HandleEvent Value Waker) := []

structure World (Value Waker : Type) where
  inner : Inner Value Waker := {}
  threads : Nat → Phase Value Waker := fun _ => .idle

/-- The calls on a clone of the handle. -/
inductive Call (Value Waker : Type) where
  | fulfill (value : Value)
  | waitTimeout
  | poll (waker : Waker)
  deriving DecidableEq, Repr

inductive Action (Value Waker : Type) where
  | call (thread : Nat) (call : Call Value Waker)
  /-- The thread takes its next step, if it can. -/
  | advance (thread : Nat)
  /-- The timeout of a thread that sleeps runs out. -/
  | expire (thread : Nat)
  deriving DecidableEq, Repr

def Call.start : Call Value Waker → Phase Value Waker
  | fulfill value => .deposit value
  | waitTimeout => .check
  | poll waker => .pollCheck waker

/-- Puts the waker into the list, in the place of the first that will wake the
same task. -/
def registerWaker (kind : WakerKind Waker) (waker : Waker) : List Waker → List Waker
  | [] => [waker]
  | first :: rest => if kind.willWake first waker then waker :: rest else first :: registerWaker kind waker rest

namespace Inner

/-- `cell.set`. -/
def set (value : Value) (s : Inner Value Waker) : Inner Value Waker :=
  let s := { s with deposits := s.deposits ++ [value] }
  match s.cell with
  | some _ => s
  | none => { s with cell := some value, journal := s.journal ++ [.deposited value] }

/-- `event.notify(usize::MAX)`. -/
def notifyAll (s : Inner Value Waker) : Inner Value Waker :=
  { s with listeners := fun thread => (s.listeners thread).map fun _ => true, notified := true }

def setListener (thread : Nat) (listener : Option Bool) (s : Inner Value Waker) : Inner Value Waker :=
  { s with listeners := Function.update s.listeners thread listener }

def setGuard (guard : Option Nat) (s : Inner Value Waker) : Inner Value Waker :=
  { s with guard := guard }

end Inner

/-- One step of a thread. -/
def move (kind : WakerKind Waker) (thread : Nat) (s : Inner Value Waker) :
    Phase Value Waker → Inner Value Waker × Phase Value Waker
  | .idle => (s, .idle)
  | .deposit value => (s.set value, .notify)
  | .notify => (s.notifyAll, .lock)
  | .lock => if s.guard.isSome then (s, .lock) else (s.setGuard (some thread), .take)
  | .take => ({ s with wakers := [] }, .wake s.wakers)
  | .wake (waker :: rest) => ({ s with journal := s.journal ++ [.woke waker] }, .wake rest)
  | .wake [] => ({ s.setGuard none with finished := true }, .idle)
  | .check => (s, if s.cell.isSome then .get else .listen)
  | .listen => (s.setListener thread (some false), .recheck)
  | .recheck => if s.cell.isSome then (s.setListener thread none, .get) else (s, .sleep)
  | .sleep => if s.listeners thread = some true then (s.setListener thread none, .get) else (s, .sleep)
  | .lastCheck => (s, if s.cell.isSome then .get else .idle)
  | .get => ({ s with seen := s.seen ++ [s.cell] }, .idle)
  | .pollCheck waker => (s, if s.cell.isSome then .get else .pollLock waker)
  | .pollLock waker => if s.guard.isSome then (s, .pollLock waker) else (s.setGuard (some thread), .register waker)
  | .register waker => ({ s with wakers := registerWaker kind waker s.wakers }, .unlock waker)
  | .unlock waker => (s.setGuard none, .pollRecheck waker)
  | .pollRecheck waker =>
      if s.cell.isSome then (s, .get) else ({ s with pending := s.pending ++ [(thread, waker)] }, .idle)

namespace World

def setThread (thread : Nat) (phase : Phase Value Waker) (w : World Value Waker) : World Value Waker :=
  { w with threads := Function.update w.threads thread phase }

def advance (kind : WakerKind Waker) (thread : Nat) (w : World Value Waker) : World Value Waker :=
  let (inner, phase) := move kind thread w.inner (w.threads thread)
  { w with inner := inner }.setThread thread phase

/-- Calls are made by threads that are in none, and only a thread that sleeps
can run out of time. -/
def step (kind : WakerKind Waker) (w : World Value Waker) : Action Value Waker → World Value Waker
  | .call thread call =>
      match w.threads thread with
      | .idle => w.setThread thread call.start
      | _ => w
  | .advance thread => w.advance kind thread
  | .expire thread =>
      match w.threads thread with
      | .sleep => { w with inner := w.inner.setListener thread none }.setThread thread .lastCheck
      | _ => w

def run (kind : WakerKind Waker) (actions : List (Action Value Waker)) : World Value Waker :=
  actions.foldl (step kind) {}

end World

end Telegenic.Handle
