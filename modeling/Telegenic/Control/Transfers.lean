import Telegenic.Control.Commands

/-! What a device holds is what its users read, through chunks, retransmissions
and heartbeats. -/

set_option autoImplicit false

namespace Telegenic.Control

open Library Proto Proto.Gvcp

/-- The command that a device reads from a datagram. -/
def readCommand (datagram : List UInt8) : Option Command :=
  (Cmd.parse datagram).bind Command.ofCmd

/-- What the users ask for, and what the device holds. -/
structure Scene where
  asked : Nat → ToWorker
  registers : Nat → Nat
  bytes : Nat → UInt8

namespace Scene

variable (scene : Scene)

def memory (addr count : Nat) : List UInt8 :=
  (List.range count).map fun i => scene.bytes ((addr + i) % 2 ^ 32)

/-- An acknowledge that is no error carries what the device holds; memory may
come in shorter answers than asked for. -/
def Tells (command : Command) (ack : Ack) : Prop :=
  ack.status.isError = false →
    match command with
    | .readReg addrs => ack.registerValues = addrs.map scene.registers
    | .readMem addr count => ∀ data, dropFrom? ack.payload 4 = some data → data <+: scene.memory addr count
    | .writeReg _ | .writeMem _ _ => True

/-- What a message that asks for a value is to be answered with. -/
def answer? : ToWorker → Option Value
  | .readReg addr _ => some (.word (scene.registers addr))
  | .readRegs addrs _ => some (.words (addrs.map scene.registers))
  | .readMem addr len _ => some (.bytes (scene.memory addr len))
  | .writeRegs _ _ | .writeMem _ _ _ | .subscribeEvents _ | .shutdown => none

theorem memory_append (addr first second : Nat) : scene.memory addr first ++
    scene.memory ((addr + first) % 2 ^ 32) second = scene.memory addr (first + second) := by
  rw [memory, memory, memory, List.range_add, List.map_append, List.map_map]
  congr 1
  refine List.map_congr_left fun i _ => ?_
  rw [Function.comp_apply, Nat.mod_add_mod, Nat.add_assoc]

theorem memory_length (addr count : Nat) : (scene.memory addr count).length = count := by
  rw [memory, List.length_map, List.length_range]

theorem memory_within (addr : Nat) {first count : Nat} (within : first ≤ count) :
    scene.memory addr first <+: scene.memory addr count := by
  rw [← Nat.add_sub_cancel' within, ← memory_append]
  exact List.prefix_append _ _

/-- Another answer extends what was read so far, as far as it is wanted. -/
theorem memory_extends {base want count : Nat} {acc data : List UInt8} (before : acc <+: scene.memory base want)
    (told : data <+: scene.memory ((base + acc.length) % 2 ^ 32) count) :
    acc ++ data.take (min data.length (want - acc.length)) <+: scene.memory base want := by
  have within := before.length_le
  rw [memory_length] at within
  have isAcc : acc = scene.memory base acc.length := by
    refine (List.prefix_of_prefix_length_le before (scene.memory_within base within) ?_).eq_of_length ?_
    all_goals simp only [memory_length, le_refl]
  rw [← Nat.add_sub_cancel' within, ← memory_append, ← isAcc, List.prefix_append_right_inj, Nat.add_sub_cancel' within]
  have cut := List.take_prefix (min data.length (want - acc.length)) data
  have told := (cut.trans told).trans (scene.memory_within _ (Nat.le_add_right count (want - acc.length)))
  refine List.prefix_of_prefix_length_le told (scene.memory_within _ (Nat.le_add_left _ count)) ?_
  rw [memory_length, List.length_take]
  omega

end Scene

section Steps

variable (scene : Scene)

/-- What is known of an operation between its commands: what was asked for, and
that what it has so far is what the device holds. -/
def Op.Knows : Op → PendingSend → Prop
  | .readReg handle, send => ∃ addr, send = .readRegs [addr] ∧ scene.asked handle = .readReg addr handle
  | .readRegs handle addrs acc, send => send = .readRegsChunk ∧ scene.asked handle = .readRegs addrs handle ∧
      acc <+: addrs.map scene.registers
  | .readMem handle acc want nextAddr, send => send = .readMemChunk ∧ ∃ base, scene.asked handle = .readMem base want handle ∧
      nextAddr = (base + acc.length) % 2 ^ 32 ∧ acc <+: scene.memory base want
  | .writeRegs handle _ _, _ | .writeMem handle _ _ _, _ => scene.answer? (scene.asked handle) = none
  | .heartbeat, _ => True

/-- The datagram under way is the next command of the operation. -/
def Flying (op : Op) (sent : List UInt8) : Prop :=
  ∃ send sentUnder command, op.Knows scene send ∧ Next sentUnder op send command ∧ readCommand sent = some command

/-- A handle is resolved with an error or with what the device holds. -/
def Right (handle : Nat) : Response → Prop
  | .ok value => ∀ expected, scene.answer? (scene.asked handle) = some expected → value = expected
  | .error _ => True

def Outcome.Right (handle : Nat) : Outcome → Prop
  | .settled response => Control.Right scene handle response
  | .more next send => next.Knows scene send

variable {scene}

theorem right_of_answer {handle : Nat} {value : Value} (answer : scene.answer? (scene.asked handle) = some value) :
    Right scene handle (.ok value) := by
  intro expected isAnswer
  exact Option.some.inj (answer.symm.trans isAnswer)

/-- An acknowledge keeps what is known, whichever setting it is judged under. -/
theorem Next.answered_right {sentUnder judgedUnder : Bool} {op : Op} {send : PendingSend} {command : Command}
    {ack : Ack} {handle : Nat} (next : Next sentUnder op send command) (knows : op.Knows scene send)
    (isUser : op.handle = some handle) (tells : scene.Tells command ack) :
    (op.answered judgedUnder ack).Right scene handle := by
  unfold Op.answered
  split_ifs with failed unexpected
  · trivial
  · trivial
  have told := tells (Bool.eq_false_iff.mpr failed)
  cases op with
  | heartbeat => cases isUser
  | readReg owner =>
    cases isUser
    obtain ⟨addr, rfl, isAsked⟩ := knows
    cases next
    rw [show ack.registerValues = [scene.registers addr] from told]
    exact right_of_answer (by rw [isAsked]; rfl)
  | readRegs owner addrs acc =>
    cases isUser
    obtain ⟨rfl, isAsked, before⟩ := knows
    cases next
    have longer : acc ++ ack.registerValues <+: addrs.map scene.registers := by
      obtain ⟨rest, parted⟩ := before
      rw [show ack.registerValues = List.map _ _ from told, List.map_take, List.map_drop, ← parted,
        List.drop_left, List.prefix_append_right_inj]
      exact List.take_prefix _ _
    dsimp only
    split_ifs with counted complete
    · trivial
    · refine right_of_answer ?_
      rw [isAsked, longer.eq_of_length (by rw [complete, List.length_map])]
      rfl
    · exact ⟨rfl, isAsked, longer⟩
  | readMem owner acc want nextAddr =>
    cases isUser
    obtain ⟨rfl, base, isAsked, rfl, before⟩ := knows
    cases next
    dsimp only
    cases payload : dropFrom? ack.payload 4 with
    | none => trivial
    | some data =>
      have longer := scene.memory_extends before (told data payload)
      dsimp only
      split_ifs with complete empty
      · refine right_of_answer ?_
        rw [isAsked, longer.eq_of_length_le (by rw [Scene.memory_length]; exact complete)]
        rfl
      · trivial
      · refine ⟨rfl, base, isAsked, ?_, longer⟩
        rw [Nat.mod_add_mod, List.length_append, List.length_take, min_eq_left (min_le_left _ _), Nat.add_assoc]
  | writeRegs owner pairs completed | writeMem owner data offset baseAddr =>
    cases isUser
    dsimp only
    split_ifs
    · intro expected answer
      cases knows.symm.trans answer
    · exact knows

theorem ToWorker.knows {message : ToWorker} {op : Op} {send : PendingSend} {handle : Nat}
    (task : message.task = some (op, send)) (isUser : message.handle = some handle)
    (isAsked : scene.asked handle = message) (fits : message.Fits) : op.Knows scene send := by
  cases message with
  | readReg addr =>
    cases task
    cases isUser
    exact ⟨addr, rfl, isAsked⟩
  | readRegs =>
    cases task
    cases isUser
    exact ⟨rfl, isAsked, List.nil_prefix⟩
  | readMem addr len =>
    cases task
    cases isUser
    exact ⟨rfl, addr, isAsked, (Nat.mod_eq_of_lt fits.1).symm, List.nil_prefix⟩
  | writeRegs | writeMem =>
    cases task
    cases isUser
    exact congrArg scene.answer? isAsked
  | subscribeEvents | shutdown => cases task

end Steps

namespace ControlWorld

section Runs

variable (scene : Scene)

structure Upheld (w : ControlWorld) : Prop where
  channel : ∀ message ∈ w.channel, ∀ op send, message.task = some (op, send) → op.Knows scene send
  tasks : ∀ task ∈ w.runner.queue.zip w.runner.queuedPayloads, task.1.Knows scene task.2
  flies : ∀ inflight ∈ w.runner.inflight, Flying scene inflight.op inflight.sent
  told : ∀ handle response, .resolved handle response ∈ w.journal → Right scene handle response

/-- Every handle is asked for once, and the device answers what is under way
with what it holds. -/
def Abides (w : ControlWorld) : Handler → Prop
  | .push message => ∀ handle, message.handle = some handle → scene.asked handle = message
  | .datagram inbound => ∀ inflight ∈ w.runner.inflight, ∀ ack, Answered inflight ack inbound →
      ∀ command, readCommand inflight.sent = some command → scene.Tells command ack
  | _ => True

variable {scene} {cfg : GigeConfig} {answers : Answers} {w later : ControlWorld} {handler : Handler}

theorem Upheld.step (upheld : Upheld scene w) (events : List ControlEvent)
    (journal : later.journal = w.journal ++ events)
    (told : ∀ handle response, .resolved handle response ∈ events → Right scene handle response)
    (channel : later.channel = w.channel) (queue : later.runner.queue = w.runner.queue)
    (payloads : later.runner.queuedPayloads = w.runner.queuedPayloads)
    (flies : ∀ inflight ∈ later.runner.inflight, Flying scene inflight.op inflight.sent) :
    Upheld scene later := by
  refine ⟨channel ▸ upheld.channel, by rw [queue, payloads]; exact upheld.tasks, flies, fun handle response present => ?_⟩
  rw [journal] at present
  exact (List.mem_append.mp present).elim (upheld.told handle response) (told handle response)

theorem Upheld.ended (upheld : Upheld scene w) (inflight : Inflight) (stats : LinkStats) :
    Upheld scene ((w.takeInflight inflight).setStats stats) :=
  upheld.step [.ended inflight.id] rfl (by simp) rfl rfl rfl (fun _ present => by cases present)

theorem Upheld.record (upheld : Upheld scene w) {event : ControlEvent}
    (told : ∀ handle response, event = .resolved handle response → Right scene handle response) :
    Upheld scene (w.record event) :=
  upheld.step [event] rfl (fun handle response present => told handle response (List.mem_singleton.mp present).symm)
    rfl rfl rfl upheld.flies

theorem Upheld.queues (upheld : Upheld scene w) {queue : List Op} {payloads : List PendingSend}
    (tasks : ∀ task ∈ queue.zip payloads, task.1.Knows scene task.2) :
    Upheld scene (w.setQueues queue payloads) :=
  ⟨upheld.channel, tasks, upheld.flies, upheld.told⟩

theorem Sends.upheld {op : Op} {send : PendingSend} (sends : Sends cfg answers op send w later)
    (upheld : Upheld scene w) (knows : op.Knows scene send) (opFits : op.Fits False) (sendFits : send.Fits)
    (short : answers.concatenationNext = true → op.registersLeft ≤ 0xffff) : Upheld scene later := by
  cases sends with
  | @launched datagram _ encodes =>
    refine upheld.step [_] rfl (by simp) rfl rfl rfl fun inflight present => ?_
    cases present
    obtain ⟨command, next, rfl⟩ := encodeOp_next encodes
    have spelled := next.spelled opFits sendFits short (nextId_lt w.runner.nextId)
    refine ⟨send, _, command, knows, next, ?_⟩
    exact (congrArg (·.bind Command.ofCmd) spelled.parsed).trans (spelled.complete _ spelled.parsed)
  | @refused datagram =>
    have sent : Upheld scene (w.takeId.record (.sent datagram (.command op.handle) false)) :=
      upheld.step [_] rfl (by simp) rfl rfl rfl upheld.flies
    refine sent.record fun handle response present => ?_
    rw [failure] at present
    cases isUser : op.handle <;> rw [isUser] at present <;> cases present
    trivial

/-- What the end of a transaction makes of its operation. -/
theorem Upheld.answered {inbound : Inbound} {inflight : Inflight} {ack : Ack} {judgedUnder : Bool} {handle : Nat}
    {outcome : Outcome} (upheld : Upheld scene w) (abides : w.Abides scene (.datagram inbound))
    (busy : w.runner.inflight = some inflight) (answered : Answered inflight ack inbound)
    (isUser : inflight.op.handle = some handle) (isOutcome : inflight.op.answered judgedUnder ack = outcome) :
    outcome.Right scene handle := by
  obtain ⟨send, sentUnder, command, knows, next, reads⟩ := upheld.flies inflight busy
  rw [← isOutcome]
  exact next.answered_right knows isUser (abides inflight busy ack answered command reads)

theorem Deed.upheld (deed : Deed cfg w handler later) (ordered : w.docket.Ordered) (fit : Fit False w)
    (upheld : Upheld scene w) (admitted : w.Admitted handler) (abides : w.Abides scene handler) :
    Upheld scene later := by
  cases deed with
  | idles => exact upheld
  | @noted _ _ _ events acks =>
    refine upheld.step events rfl (fun handle response present => ?_) rfl rfl rfl upheld.flies
    obtain ⟨_, _, _, other⟩ := acks _ present
    cases other
  | @extended _ inflight _ busy =>
    refine upheld.step [] (List.append_nil _).symm (by simp) rfl rfl rfl fun _ present => ?_
    cases present
    exact upheld.flies inflight busy
  | settled busy isUser answered outcome =>
    refine (upheld.ended _ _).record fun handle response isEvent => ?_
    cases isEvent
    exact upheld.answered abides busy answered isUser outcome
  | timedOut =>
    refine (upheld.ended _ _).record fun handle response isEvent => ?_
    cases isEvent
    trivial
  | parked busy answered more isQueue isPayloads =>
    have tasks := upheld.tasks
    rw [isQueue, isPayloads, List.zip_cons_cons, List.forall_mem_cons] at tasks
    obtain ⟨handle, isUser, -⟩ := (Op.answered_more more).2.isUser
    refine (upheld.ended _ _).queues (List.forall_mem_cons.mpr ⟨tasks.1, List.forall_mem_cons.mpr ⟨?_, tasks.2⟩⟩)
    exact upheld.answered abides busy answered isUser more
  | resumed busy answered more _ sends =>
    obtain ⟨expected, resumes⟩ := Op.answered_more more
    obtain ⟨opFits, sendFits, less⟩ := resumes.fits (fit.inflight _ busy) False.elim expected
    obtain ⟨handle, isUser, -⟩ := resumes.isUser
    exact sends.upheld (upheld.ended _ _) (upheld.answered abides busy answered isUser more) opFits sendFits fun flag =>
      less.trans (admitted flag _ busy)
  | confirmed | failed | lost | expired =>
    exact upheld.step [.ended _, .heartbeat _] (List.append_assoc ..) (by simp) rfl rfl rfl
      (fun _ present => by cases present)
  | pushed message =>
    have longer : Upheld scene { w with channel := w.channel ++ [message] } := by
      refine ⟨List.forall_mem_append.mpr ⟨upheld.channel, List.forall_mem_singleton.mpr ?_⟩, upheld.tasks,
        upheld.flies, upheld.told⟩
      intro op send task
      obtain ⟨-, handle, isUser, -⟩ := ToWorker.task_ready task
      exact ToWorker.knows task isUser (abides handle isUser) (ToWorker.FromPort.fits admitted)
    rw [push]
    cases message.handle with
    | none => exact longer
    | some handle => exact longer.record fun _ _ isEvent => by cases isEvent
  | skipped _ channel =>
    exact ⟨(List.forall_mem_cons.mp (channel ▸ upheld.channel)).2, upheld.tasks, upheld.flies, upheld.told⟩
  | @took message rest handle op send _ channel task =>
    obtain ⟨first, others⟩ := List.forall_mem_cons.mp (channel ▸ upheld.channel)
    have shorter : Upheld scene { w with channel := rest } := ⟨others, upheld.tasks, upheld.flies, upheld.told⟩
    refine (shorter.record fun _ _ isEvent => by cases isEvent).queues ?_
    have lengths : w.runner.queue.length = w.runner.queuedPayloads.length := ordered.ready.length_eq
    refine (List.zip_append lengths).symm ▸ ?_
    exact List.forall_mem_append.mpr ⟨upheld.tasks, List.forall_mem_singleton.mpr (first op send task)⟩
  | @retried answers inflight busy =>
    refine upheld.step [.sent inflight.sent .retry answers.sends] rfl (by simp) rfl rfl rfl fun _ present => ?_
    cases present
    exact upheld.flies inflight busy
  | postponed => exact upheld.step [] (List.append_nil _).symm (by simp) rfl rfl rfl upheld.flies
  | queued =>
    exact ⟨upheld.channel, List.forall_mem_cons.mpr ⟨trivial, upheld.tasks⟩, upheld.flies, fun handle response present =>
      (List.mem_append.mp present).elim (upheld.told handle response) (by simp)⟩
  | pumped _ isQueue isPayloads sends =>
    have tasks := upheld.tasks
    rw [isQueue, isPayloads, List.zip_cons_cons, List.forall_mem_cons] at tasks
    have ops := List.forall_mem_cons.mp (isQueue ▸ fit.queue)
    have payloads := List.forall_mem_cons.mp (isPayloads ▸ fit.payloads)
    exact sends.upheld (upheld.queues tasks.2) tasks.1 ops.1 payloads.1 fun flag => admitted flag _ (by rw [isQueue]; rfl)

theorem handleAll_upheld (handlers : List Handler) : ∀ {w later : ControlWorld}, w.docket.Ordered → Fit False w →
    Upheld scene w → Along cfg (fun w handler => w.Admitted handler ∧ w.Abides scene handler) handlers w →
    w.handleAll cfg handlers = .ok later → Upheld scene later := by
  induction handlers with
  | nil =>
    intro w later _ _ upheld _ result
    cases result
    exact upheld
  | cons handler rest ih =>
    intro w later ordered fit upheld along result
    obtain ⟨next, handled, result⟩ := Checked.bind_eq_ok result
    have deed := Deed.of_handle ordered handled
    obtain ⟨⟨admitted, abides⟩, along⟩ := along
    rw [handled] at along
    exact ih (deed.ordered ordered) (deed.fit fit admitted False.elim) (deed.upheld ordered fit upheld admitted abides)
      along result

end Runs

end ControlWorld

open ControlWorld

/-- A device whose register at 0x934 holds 5, asked for it once. -/
def oneRegister : Scene := ⟨fun _ => .readReg 0x934 7, fun _ => 5, fun _ => 0⟩

end Telegenic.Control
