import Telegenic.Control.Runner

/-! The worker's docket: what waits in the channel and in the queue, what is in
flight, and what has happened. Every handler of the worker changes the docket
by the few kinds of entries below. -/

set_option autoImplicit false

namespace Telegenic.Control

open Library Proto Proto.Gvcp

namespace Op

def Sound : Op → Prop
  | readRegs _ addrs acc => acc.length ≤ addrs.length
  | writeRegs _ pairs completed => completed ≤ pairs.length
  | readMem _ acc want _ => acc.length ≤ want
  | writeMem _ data offset _ => offset ≤ data.length
  | readReg _ | heartbeat => True

end Op

/-- The payload is of the operation's kind. -/
inductive Matches : Op → PendingSend → Prop where
  | readReg {handle addr : Nat} : Matches (.readReg handle) (.readRegs [addr])
  | readRegs {handle : Nat} {addrs acc : List Nat} : Matches (.readRegs handle addrs acc) .readRegsChunk
  | writeRegs {handle completed : Nat} {pairs : List (Nat × Nat)} :
      Matches (.writeRegs handle pairs completed) .writeRegsChunk
  | readMem {handle want nextAddr : Nat} {acc : List UInt8} :
      Matches (.readMem handle acc want nextAddr) .readMemChunk
  | writeMem {handle offset baseAddr : Nat} {data : List UInt8} :
      Matches (.writeMem handle data offset baseAddr) .writeMemChunk
  | heartbeat : Matches .heartbeat (.readRegs [Bootstrap.controlChannelPrivilege])

structure Ready (op : Op) (send : PendingSend) : Prop where
  kind : Matches op send
  sound : op.Sound

structure Docket where
  channel : List ToWorker
  queue : List Op
  payloads : List PendingSend
  inflight : Option Op
  controlLost : Bool
  alive : Bool
  journal : List ControlEvent

def ControlWorld.docket (w : ControlWorld) : Docket :=
  { channel := w.channel
    queue := w.runner.queue
    payloads := w.runner.queuedPayloads
    inflight := w.runner.inflight.map (·.op)
    controlLost := w.runner.controlLost
    alive := w.alive
    journal := w.journal }

def failure (op : Op) (error : CameraError) : ControlEvent :=
  match op.handle with
  | some handle => .resolved handle (.error error)
  | none => .heartbeat (.failed error)

def ControlEvent.IsNote : ControlEvent → Prop
  | sent _ .retry _ | sent _ .eventAck _ => True
  | _ => False

def mismatch : CameraError := .protocol "internal op/payload mismatch"

/-- How a transaction can settle its operation, and whether control is lost
over it. In a `reliable` run no heartbeat just fails. -/
inductive Settles (reliable : Prop) : Op → ControlEvent → Bool → Prop where
  | user {op : Op} {handle : Nat} (isUser : op.handle = some handle) {response : Response}
      (other : response ≠ .error mismatch) : Settles reliable op (.resolved handle response) false
  | confirmed : Settles reliable .heartbeat (.heartbeat .confirmed) false
  | lost : Settles reliable .heartbeat (.heartbeat .lost) true
  | failed (unreliable : ¬ reliable) {error : CameraError} (other : error ≠ mismatch) :
      Settles reliable .heartbeat (.heartbeat (.failed error)) false

/-- The queue with a resumed operation put next, behind a heartbeat that waits
at the front. -/
def resumeQueue (op : Op) : List Op → List Op
  | .heartbeat :: rest => .heartbeat :: op :: rest
  | queue => op :: queue

def resumePayloads (send : PendingSend) : List Op → List PendingSend → List PendingSend
  | .heartbeat :: _, first :: rest => first :: send :: rest
  | _, payloads => send :: payloads

inductive Docket.Step (reliable : Prop) : Docket → Docket → Prop where
  | note {d : Docket} {events : List ControlEvent} (isNote : ∀ event ∈ events, event.IsNote) :
      Step reliable d { d with journal := d.journal ++ events }
  | enter {d : Docket} {message : ToWorker} {handle : Nat} (isUser : message.handle = some handle) :
      Step reliable d { d with
        channel := d.channel ++ [message]
        journal := d.journal ++ [.entered handle] }
  | post {d : Docket} {message : ToWorker} (plain : message.handle = none) :
      Step reliable d { d with channel := d.channel ++ [message] }
  | skip {d : Docket} {message : ToWorker} {rest : List ToWorker} (plain : message.handle = none)
      (next : d.channel = message :: rest) : Step reliable d { d with channel := rest }
  | take {d : Docket} {message : ToWorker} {rest : List ToWorker} {handle : Nat} {op : Op} {send : PendingSend}
      (isUser : message.handle = some handle) (next : d.channel = message :: rest) (owner : op.handle = some handle)
      (ready : Ready op send) :
      Step reliable d { d with
        channel := rest
        queue := d.queue ++ [op]
        payloads := d.payloads ++ [send]
        journal := d.journal ++ [.took handle] }
  | due {d : Docket} (notInflight : d.inflight ≠ some .heartbeat) (notQueued : ∀ op ∈ d.queue, op.isHeartbeat = false) :
      Step reliable d { d with
        queue := .heartbeat :: d.queue
        payloads := .readRegs [Bootstrap.controlChannelPrivilege] :: d.payloads
        journal := d.journal ++ [.heartbeat .queued] }
  | resume {d : Docket} {op next : Op} {send : PendingSend} {id handle : Nat} (inflight : d.inflight = some op)
      (isUser : op.handle = some handle) (same : next.handle = some handle) (ready : Ready next send) :
      Step reliable d { d with
        queue := resumeQueue next d.queue
        payloads := resumePayloads send d.queue d.payloads
        inflight := none
        journal := d.journal ++ [.ended id] }
  | launch {d : Docket} {op : Op} {send : PendingSend} {queue : List Op} {payloads : List PendingSend}
      {datagram : List UInt8} (idle : d.inflight = none) (first : d.queue = op :: queue)
      (payload : d.payloads = send :: payloads) :
      Step reliable d { d with
        queue := queue
        payloads := payloads
        inflight := some op
        journal := d.journal ++ [.sent datagram (.command op.handle) true] }
  | refuse {d : Docket} {op : Op} {send : PendingSend} {queue : List Op} {payloads : List PendingSend}
      {datagram : List UInt8} (idle : d.inflight = none) (first : d.queue = op :: queue)
      (payload : d.payloads = send :: payloads) (unreliable : op.isHeartbeat = true → ¬ reliable) :
      Step reliable d { d with
        queue := queue
        payloads := payloads
        journal := d.journal ++ [.sent datagram (.command op.handle) false, failure op .io] }
  | settle {d : Docket} {op : Op} {id : Nat} {event : ControlEvent} {lost : Bool} (inflight : d.inflight = some op)
      (settles : Settles reliable op event lost) :
      Step reliable d { d with
        inflight := none
        controlLost := d.controlLost || lost
        journal := d.journal ++ [.ended id, event] }

abbrev Docket.Steps (reliable : Prop) : Docket → Docket → Prop :=
  Relation.ReflTransGen (Docket.Step reliable)

/-- Queue and payloads go together, operations are within their bounds, and
there is at most one heartbeat, which waits at the front. -/
structure Docket.Ordered (d : Docket) : Prop where
  ready : List.Forall₂ Ready d.queue d.payloads
  sound : ∀ op ∈ d.inflight, op.Sound
  front : ∀ op ∈ d.queue.tail, op.isHeartbeat = false
  single : d.inflight = some .heartbeat → ∀ op ∈ d.queue, op.isHeartbeat = false

section Ordered

variable {reliable : Prop} {d later : Docket}

theorem resume_ready {op : Op} {send : PendingSend} {queue : List Op} {payloads : List PendingSend}
    (ready : List.Forall₂ Ready queue payloads) (isReady : Ready op send) :
    List.Forall₂ Ready (resumeQueue op queue) (resumePayloads send queue payloads) := by
  cases ready with
  | nil => exact .cons isReady .nil
  | @cons first firstSend queue payloads isFirst rest =>
    cases first with
    | heartbeat => exact .cons isFirst (.cons isReady rest)
    | _ => exact .cons isReady (.cons isFirst rest)

theorem resumeQueue_tail {op : Op} {queue : List Op} (user : op.isHeartbeat = false)
    (front : ∀ other ∈ queue.tail, other.isHeartbeat = false) :
    ∀ other ∈ (resumeQueue op queue).tail, other.isHeartbeat = false := by
  cases queue with
  | nil =>
    intro other present
    cases present
  | cons first rest =>
    cases first with
    | heartbeat =>
      intro other present
      rcases List.mem_cons.mp present with rfl | inRest
      · exact user
      · exact front other inRest
    | _ =>
      intro other present
      rcases List.mem_cons.mp present with rfl | inRest
      · rfl
      · exact front other inRest

theorem Op.isHeartbeat_eq_false {op : Op} {handle : Nat} (isUser : op.handle = some handle) :
    op.isHeartbeat = false := by
  cases op with
  | heartbeat => cases isUser
  | _ => rfl

theorem Op.eq_heartbeat {op : Op} (is : op.isHeartbeat = true) : op = .heartbeat := by
  cases op with
  | heartbeat => rfl
  | _ => cases is

@[simp]
theorem Op.handle_heartbeat : Op.heartbeat.handle = none :=
  rfl

theorem Docket.Step.ordered (step : Docket.Step reliable d later) (ordered : d.Ordered) : later.Ordered := by
  cases step with
  | note => exact ⟨ordered.ready, ordered.sound, ordered.front, ordered.single⟩
  | enter => exact ⟨ordered.ready, ordered.sound, ordered.front, ordered.single⟩
  | post => exact ⟨ordered.ready, ordered.sound, ordered.front, ordered.single⟩
  | skip => exact ⟨ordered.ready, ordered.sound, ordered.front, ordered.single⟩
  | take isUser next owner ready =>
    have user := Op.isHeartbeat_eq_false owner
    refine ⟨List.rel_append ordered.ready (.cons ready .nil), ordered.sound, ?_, ?_⟩
    · intro other present
      simp only at present
      cases queue : d.queue with
      | nil =>
        rw [queue] at present
        cases present
      | cons first rest =>
        rw [queue] at present
        rcases List.mem_append.mp present with old | new
        · exact ordered.front other (by rw [queue]; exact old)
        · rw [List.mem_singleton.mp new]
          exact user
    · intro inflight other present
      rcases List.mem_append.mp present with old | new
      · exact ordered.single inflight other old
      · rw [List.mem_singleton.mp new]
        exact user
  | due notInflight notQueued =>
    refine ⟨.cons ⟨.heartbeat, trivial⟩ ordered.ready, ordered.sound, notQueued, ?_⟩
    exact fun inflight => absurd inflight notInflight
  | resume inflight isUser same ready =>
    refine ⟨resume_ready ordered.ready ready, ?_, ?_, ?_⟩
    · intro op present
      cases present
    · exact resumeQueue_tail (Op.isHeartbeat_eq_false same) ordered.front
    · intro inflight
      cases inflight
  | launch idle first payload =>
    have ready := ordered.ready
    rw [first, payload] at ready
    cases ready with
    | cons isReady rest =>
      have front := ordered.front
      rw [first] at front
      refine ⟨rest, ?_, fun other present => front other (List.mem_of_mem_tail present), fun _ => front⟩
      intro other present
      cases present
      exact isReady.sound
  | refuse idle first payload unreliable =>
    have ready := ordered.ready
    rw [first, payload] at ready
    cases ready with
    | cons isReady rest =>
      have front := ordered.front
      rw [first] at front
      refine ⟨rest, ordered.sound, fun other present => front other (List.mem_of_mem_tail present), fun _ => front⟩
  | settle inflight settles =>
    refine ⟨ordered.ready, ?_, ordered.front, ?_⟩
    · intro op present
      cases present
    · intro inflight
      cases inflight

theorem Docket.Steps.ordered (steps : Docket.Steps reliable d later) (ordered : d.Ordered) : later.Ordered := by
  induction steps with
  | refl => exact ordered
  | tail _ last ih => exact last.ordered ih

theorem Docket.Steps.preserve (property : Docket → Prop) (steps : Docket.Steps reliable d later)
    (keeps : ∀ {before after : Docket}, Docket.Step reliable before after → before.Ordered → property before →
      property after)
    (ordered : d.Ordered) (initial : property d) : later.Ordered ∧ property later := by
  induction steps with
  | refl => exact ⟨ordered, initial⟩
  | tail _ last ih => exact ⟨last.ordered ih.1, keeps last ih.1 ih.2⟩

theorem Docket.Step.grows (step : Docket.Step reliable d later) :
    d.journal <+: later.journal ∧ (d.controlLost = true → later.controlLost = true) := by
  cases step with
  | post => exact ⟨List.prefix_rfl, id⟩
  | skip => exact ⟨List.prefix_rfl, id⟩
  | settle => exact ⟨List.prefix_append .., fun lost => by simp [lost]⟩
  | _ => exact ⟨List.prefix_append .., id⟩

theorem Docket.Steps.alive_eq (steps : Docket.Steps reliable d later) : later.alive = d.alive := by
  induction steps with
  | refl => rfl
  | tail _ last ih =>
    rw [← ih]
    cases last <;> rfl

theorem Docket.Steps.grows (steps : Docket.Steps reliable d later) :
    d.journal <+: later.journal ∧ (d.controlLost = true → later.controlLost = true) := by
  induction steps with
  | refl => exact ⟨List.prefix_rfl, id⟩
  | tail _ last ih => exact ⟨ih.1.trans last.grows.1, fun lost => last.grows.2 (ih.2 lost)⟩

end Ordered

end Telegenic.Control
