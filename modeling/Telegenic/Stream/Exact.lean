import Telegenic.Stream.Copies
import Telegenic.Stream.Decisions

/-! Exact reassembly: however the packets of the device's frames are ordered,
repeated and mixed with late copies, the receiver delivers every frame once, in
order and byte for byte. -/

set_option autoImplicit false

namespace Telegenic.Stream

open Library Proto Proto.Gvsp

namespace Device

structure Suits (device : Device) (params : StreamParams) : Prop where
  fits : ∀ sent ∈ device.frames, sent.Fits params
  room : packetProtocolOverhead device.extendedIds < params.scpsPacketSize
  retention : 0 < params.frameRetention

/-- The input is the packet the label names, or, without one, none of the
device's packets and not the final flush. -/
def Brings (device : Device) : Option (Nat × Nat) → StreamInput → Prop
  | some (j, k), .packet received _ _ _ =>
      received.fromDevice = true ∧ ∃ view, GvspView.parse received.datagram = some view ∧ device.Sends j k view
  | some _, _ => False
  | none, .packet received _ _ _ => received.fromDevice = false
  | none, .flush _ => False
  | none, _ => True

instance (device : Device) : (label : Option (Nat × Nat)) → (input : StreamInput) → Decidable (device.Brings label input)
  | some (_, _), .packet _ _ _ _ => inferInstanceAs (Decidable (_ ∧ _))
  | some _, .tick _ _ | some _, .commands _ | some _, .acts _ | some _, .flush _ => inferInstanceAs (Decidable False)
  | none, .packet _ _ _ _ => inferInstanceAs (Decidable (_ = _))
  | none, .flush _ => inferInstanceAs (Decidable False)
  | none, .tick _ _ | none, .commands _ | none, .acts _ => inferInstanceAs (Decidable True)

def Legible (device : Device) (sheet : Sheet) (j k : Nat) : Prop :=
  (∀ sent ∈ device.frames, sent.Supported) ∨ ¬ j < sheet.closed ∧ (j = sheet.opened → k ≠ 0)

def Allowed (device : Device) (resend : Bool) (sheet : Sheet) (j k : Nat) : Prop :=
  device.InOrder resend sheet j k ∧ device.NewId sheet j ∧ device.Legible sheet j k

end Device

/-- A buffer is free when a packet arrives, and no frame in flight has been
quiet for the retention time. -/
def Unhindered (params : StreamParams) (w : StreamWorld) : StreamInput → Prop
  | .packet _ now _ _ => 0 < w.fabric.pool.length ∧ InTime params now w
  | .tick now _ => InTime params now w
  | _ => True

instance (params : StreamParams) (w : StreamWorld) : (input : StreamInput) → Decidable (Unhindered params w input)
  | .packet _ now _ _ => inferInstanceAs (Decidable (0 < w.fabric.pool.length ∧ InTime params now w))
  | .tick now _ => inferInstanceAs (Decidable (InTime params now w))
  | .commands _ | .acts _ | .flush _ => inferInstanceAs (Decidable True)

section Steps

variable {params : StreamParams} {device : Device} {origin : Origin} {sheet : Sheet} {w : StreamWorld} {j k : Nat}
  {view : GvspView}

theorem processPacket_next {datagram : List UInt8} (now systemNow : Nat)
    (follows : Follows params device origin sheet w) (tidy : device.Tidy params.resendEnabled sheet)
    (inTime : InTime params now w) (suits : device.Suits params) (free : 0 < w.fabric.pool.length)
    (parsed : GvspView.parse datagram = some view) (sends : device.Sends sheet.opened k view)
    (newId : device.NewId sheet sheet.opened) (opener : k = 0 → ∀ sent ∈ device.frames, sent.Supported)
    (mayOpen : params.resendEnabled = true ∨ sheet.closed = sheet.opened) :
    ∃ later, w.processPacket params datagram now systemNow = .ok later ∧
      Follows params device origin (device.arrive sheet sheet.opened k) later ∧
      w.fabric.pool.length ≤ later.fabric.pool.length + 1 := by
  have ordered := tidy.closed_le
  obtain ⟨next, routed, next_follows, next_inTime, taken⟩ :=
    follows.openNext tidy now sends newId opener suits.room free inTime suits.retention
  obtain ⟨sent, isSent, packet⟩ := sends.packet
  have fresh : k ∉ sheet.arrived sheet.opened := by
    rw [tidy.unopened sheet.opened le_rfl]
    exact List.not_mem_nil
  have alone : params.resendEnabled = false → sheet.opened + 1 ≤ sheet.closed + 1 := by
    intro off
    rcases mayOpen with on | all_closed
    · rw [on] at off
      cases off
    · omega
  obtain ⟨later, result, later_follows, pool⟩ := processFramePacket_takes now systemNow next_follows next_inTime
    suits.fits alone ordered (Nat.lt_succ_self _) isSent packet sends.accepted fresh
  refine ⟨later, ?_, ?_, taken.trans (Nat.add_le_add_right pool 1)⟩
  · rw [StreamWorld.processPacket, parsed]
    simp only [routed, Checked.ok_bind]
    exact result
  · rw [Device.arrive, if_neg (by omega), if_neg fresh]
    have entered : Device.enter sheet sheet.opened k = { sheet with
        opened := sheet.opened + 1
        arrived := Function.update sheet.arrived sheet.opened (sheet.arrived sheet.opened ++ [k]) } := by
      rw [Device.enter, Nat.max_eq_right (Nat.le_succ _)]
    simp only [entered]
    exact later_follows

theorem processPacket_follows {datagram : List UInt8} (now systemNow : Nat)
    (follows : Follows params device origin sheet w) (tidy : device.Tidy params.resendEnabled sheet)
    (inTime : InTime params now w) (suits : device.Suits params) (free : 0 < w.fabric.pool.length)
    (parsed : GvspView.parse datagram = some view) (sends : device.Sends j k view)
    (allowed : device.Allowed params.resendEnabled sheet j k) :
    ∃ later, w.processPacket params datagram now systemNow = .ok later ∧
      Follows params device origin (device.arrive sheet j k) later ∧
      w.fabric.pool.length ≤ later.fabric.pool.length + 1 := by
  obtain ⟨⟨_, order⟩, newId, legible⟩ := allowed
  rcases order with ⟨late, recent⟩ | ⟨unclosed, isOpen⟩ | ⟨rfl, mayOpen⟩
  · rw [Device.arrive, if_pos late]
    have supported := legible.resolve_right fun unclosed => unclosed.1 late
    exact processPacket_late now systemNow follows tidy inTime suits.fits supported suits.room free parsed sends late
      recent
  · obtain ⟨later, result, later_follows, pool⟩ := processPacket_pending now systemNow follows tidy inTime suits.fits
      suits.retention parsed sends unclosed isOpen
    exact ⟨later, result, later_follows, Nat.le_succ_of_le pool⟩
  · refine processPacket_next now systemNow follows tidy inTime suits free parsed sends newId (fun isLeader => ?_)
      mayOpen
    exact legible.resolve_right fun opener => opener.2 rfl isLeader

theorem Follows.schedule (follows : Follows params device origin sheet w) (schedule : List (List ConsumerAct)) :
    Follows params device origin sheet { w with schedule := schedule } :=
  ⟨schedule_wellformed follows.wellformed schedule, follows.inFlight, follows.distinct, follows.unstarted,
    follows.started, follows.history, follows.delivered, follows.replays, follows.tally⟩

theorem Follows.quietly {later : StreamWorld} (follows : Follows params device origin sheet w) (steady : Steady w later)
    (quietly : StreamWorld.Quietly [] w later) : Follows params device origin sheet later := by
  have moves : Moves params [] none w later := quietly.moves
  refine follows.thinned steady (moves.wellformed follows.wellformed) ?_
  rw [quietly.frames]
  exact .refl _

theorem Follows.noteDrops (follows : Follows params device origin sheet w) (drops : Option Nat) :
    Follows params device origin sheet (w.noteDrops drops) := by
  cases drops with
  | none => exact follows
  | some drops =>
    exact follows.quietly (.setStats rfl) (StreamWorld.setStats_quietly w follows.wellformed.accounted _)

theorem Follows.countPacket (follows : Follows params device origin sheet w) (datagram : List UInt8) :
    Follows params device origin sheet (w.countPacket datagram) :=
  follows.quietly (.setStats rfl) (StreamWorld.setStats_quietly w follows.wellformed.accounted _)

theorem noteDrops_frames (drops : Option Nat) (w : StreamWorld) :
    (w.noteDrops drops).runner.frames = w.runner.frames ∧ (w.noteDrops drops).fabric = w.fabric := by
  cases drops <;> exact ⟨rfl, rfl⟩

theorem step_arrives {received : Received} {now systemNow : Nat} {schedule : List (List ConsumerAct)}
    (follows : Follows params device origin sheet w) (tidy : device.Tidy params.resendEnabled sheet)
    (suits : device.Suits params) (unhindered : Unhindered params w (.packet received now systemNow schedule))
    (brings : device.Brings (some (j, k)) (.packet received now systemNow schedule))
    (allowed : device.Allowed params.resendEnabled sheet j k) :
    ∃ later, w.step params (.packet received now systemNow schedule) = .ok later ∧
      Follows params device origin (device.arrive sheet j k) later ∧
      w.fabric.pool.length ≤ later.fabric.pool.length + 1 := by
  obtain ⟨fromDevice, view, parsed, sends⟩ := brings
  obtain ⟨free, inTime⟩ := unhindered
  obtain ⟨frames, fabric⟩ := noteDrops_frames received.drops { w with schedule := schedule }
  have ready := ((follows.schedule schedule).noteDrops received.drops).countPacket received.datagram
  have pool : ((StreamWorld.noteDrops received.drops { w with schedule := schedule }).countPacket
      received.datagram).fabric.pool = w.fabric.pool := congrArg Fabric.pool fabric
  rw [StreamWorld.step, StreamWorld.drainSocket, ← pool]
  simp only [fromDevice, if_true]
  refine processPacket_follows now systemNow ready tidy ?_ suits ?_ parsed sends allowed
  · intro frame present
    exact inTime frame (frames ▸ present)
  · rw [pool]
    exact free

theorem step_waits {input : StreamInput} (follows : Follows params device origin sheet w)
    (tidy : device.Tidy params.resendEnabled sheet) (suits : device.Suits params)
    (unhindered : Unhindered params w input) (brings : device.Brings none input) :
    ∃ later, w.step params input = .ok later ∧ Follows params device origin sheet later := by
  cases input with
  | packet received now systemNow schedule =>
    have elsewhere : received.fromDevice = false := brings
    rw [StreamWorld.step, StreamWorld.drainSocket]
    simp only [elsewhere, Bool.false_eq_true, if_false]
    exact ⟨_, rfl, (follows.schedule schedule).noteDrops received.drops⟩
  | tick now schedule =>
    obtain ⟨next, result, next_follows, _⟩ := completionLoop_follows now none suits.fits w.runner.frames.length sheet
      { w with schedule := schedule } (follows.schedule schedule) unhindered le_rfl tidy.alone
    rw [tidy.closeHeads] at next_follows
    refine ⟨next.publishStats, ?_, ?_⟩
    · rw [StreamWorld.step, StreamWorld.checkFrameCompletion]
      exact congrArg (· >>= _) result
    · exact next_follows.quietly ⟨rfl, rfl, rfl, rfl, rfl, rfl, le_rfl⟩
        (StreamWorld.publishStats_quietly next next_follows.wellformed.accounted)
  | commands schedule =>
    have ready := follows.schedule schedule
    exact ⟨_, rfl, ready.quietly (.drainCommands _)
      (StreamWorld.drainCommands_quietly _ ready.wellformed.accounted)⟩
  | acts acts =>
    obtain ⟨accounted, conserved⟩ := Fabric.Accounted.consumeAll acts w.fabric follows.wellformed.accounted
    exact ⟨_, rfl, follows.quietly ⟨rfl, rfl, rfl, rfl, rfl, rfl, Fabric.consumeAll_pool acts w.fabric⟩
      ⟨rfl, rfl, rfl, conserved, accounted⟩⟩
  | flush schedule => exact brings.elim

end Steps

theorem run_follows {params : StreamParams} {device : Device} {origin : Origin} (suits : device.Suits params)
    {labels : List (Option (Nat × Nat))} {inputs : List StreamInput} (brings : List.Forall₂ device.Brings labels inputs) :
    ∀ {sheet : Sheet} {w : StreamWorld}, Follows params device origin sheet w →
      device.Tidy params.resendEnabled sheet → device.Schedule (device.Allowed params.resendEnabled) labels sheet →
      Along params (Unhindered params) inputs w →
      ∃ later, w.run params inputs = .ok later ∧ Follows params device origin (device.play labels sheet) later := by
  induction brings with
  | nil => exact fun follows _ _ _ => ⟨_, rfl, follows⟩
  | @cons label input labels inputs here _ ih =>
    intro sheet w follows tidy schedule along
    obtain ⟨unhindered, along⟩ := along
    cases label with
    | none =>
      obtain ⟨next, result, next_follows⟩ := step_waits follows tidy suits unhindered here
      rw [result] at along
      obtain ⟨later, rest, later_follows⟩ := ih next_follows tidy schedule along
      exact ⟨later, by rw [StreamWorld.run, result]; exact rest, later_follows⟩
    | some packet =>
      obtain ⟨j, k⟩ := packet
      obtain ⟨allowed, schedule⟩ := schedule
      cases input with
      | packet received now systemNow acts =>
        obtain ⟨next, result, next_follows, _⟩ := step_arrives follows tidy suits unhindered here allowed
        rw [result] at along
        obtain ⟨later, rest, later_follows⟩ := ih next_follows (tidy.arrive allowed.1) schedule along
        exact ⟨later, by rw [StreamWorld.run, result]; exact rest, later_follows⟩
      | _ => exact here.elim

section Whole

variable {params : StreamParams} {device : Device} {w : StreamWorld}

theorem Device.Schedule.imp {allowed weaker : Sheet → Nat → Nat → Prop}
    (weakens : ∀ sheet j k, allowed sheet j k → weaker sheet j k) (labels : List (Option (Nat × Nat))) :
    ∀ {sheet : Sheet}, device.Schedule allowed labels sheet → device.Schedule weaker labels sheet := by
  induction labels with
  | nil => exact fun _ => trivial
  | cons label rest ih =>
    intro sheet schedule
    cases label with
    | none => exact ih schedule
    | some packet => exact ⟨weakens _ _ _ schedule.1, ih schedule.2⟩

theorem Device.tidy_start (device : Device) (resend : Bool) : device.Tidy resend {} :=
  ⟨le_rfl, Nat.zero_le _, fun _ _ => rfl, fun _ before => absurd before (Nat.not_lt_zero _),
    fun isOpen => absurd isOpen (Nat.not_lt_zero _), fun _ => Nat.zero_le _⟩

theorem follows_start (wellformed : Wellformed params w) (idle : w.runner.frames = [])
    (admits : w.Admits device.firstId device.extendedIds) :
    Follows params device (w.origin device.firstId device.extendedIds) {} w := by
  refine ⟨wellformed, ⟨[], [], idle, .nil, fun frame present => by cases present⟩, ?_, fun _ => ⟨admits, rfl⟩, ?_,
    ⟨[], .nil, ?_, Nat.zero_le _⟩, ?_, le_rfl, ⟨rfl, rfl, rfl, rfl, rfl⟩⟩
  · intro i j _ _ isOpen
    cases isOpen
  · intro some_open
    exact absurd rfl some_open
  · rw [List.append_nil]
    exact List.suffix_rfl
  · simp [StreamWorld.origin]

theorem run_delivers (suits : device.Suits params) (wellformed : Wellformed params w) (idle : w.runner.frames = [])
    (admits : w.Admits device.firstId device.extendedIds)
    {labels : List (Option (Nat × Nat))} {inputs : List StreamInput} (brings : List.Forall₂ device.Brings labels inputs)
    (schedule : device.Schedule (device.Allowed params.resendEnabled) labels {})
    (everything : ∀ j sent, device.frames[j]? = some sent → ∀ k < sent.nPackets, some (j, k) ∈ labels)
    (unhindered : Along params (Unhindered params) inputs w) :
    ∃ later, w.run params inputs = .ok later ∧
      Follows params device (w.origin device.firstId device.extendedIds) (device.play labels {}) later ∧
      (device.play labels {}).opened = device.frames.length ∧
      (deliveredFrames later.journal).map Frame.outcome =
        (deliveredFrames w.journal).map Frame.outcome ++ device.outcomes := by
  have tidy := device.tidy_start params.resendEnabled
  obtain ⟨later, result, follows⟩ := run_follows suits brings (follows_start wellformed idle admits) tidy schedule
    unhindered
  obtain ⟨ends, _, arrived⟩ := Device.play_closes (fun _ _ _ allowed => allowed.1) labels {} tidy schedule
  have closed := ends.all_closed fun j sent isSent k inside => arrived j k (everything j sent isSent k inside)
  have closed_le := ends.closed_le
  have opened_le := ends.opened_le
  refine ⟨later, result, follows, by omega, ?_⟩
  rw [follows.delivered, closed, List.take_of_length_le (by simp [Device.outcomes])]
  rfl

theorem spawn_admits (params : StreamParams) (frameId : Nat) (extendedIds : Bool) :
    (StreamWorld.spawn params).Admits frameId extendedIds :=
  .inl (le_refl (1 : Int))

def Device.Consecutive (device : Device) : Prop := ∀ j, device.offset j = j

/-- Every frame is delivered once, in order and complete, with the device's
data. Repeats are counted as duplicates while their frame is open and as
ignored once it is closed. -/
theorem exact_reassembly (params : StreamParams) (device : Device) (suits : device.Suits params)
    (consecutive : device.Consecutive) (image : ∀ sent ∈ device.frames, sent.payloadType = some payloadTypeImage)
    (labels : List (Option (Nat × Nat))) (inputs : List StreamInput) (brings : List.Forall₂ device.Brings labels inputs)
    (schedule : device.Schedule (fun sheet j k => device.InOrder params.resendEnabled sheet j k ∧ device.NewId sheet j)
      labels {})
    (everything : ∀ j sent, device.frames[j]? = some sent → ∀ k < sent.nPackets, some (j, k) ∈ labels)
    (unhindered : Along params (Unhindered params) inputs (.spawn params)) :
    ∃ later, (StreamWorld.spawn params).run params inputs = .ok later ∧
      (deliveredFrames later.journal).map Frame.outcome = device.outcomes ∧
      later.runner.stats.duplicatedPackets = (device.play labels {}).duplicates ∧
      later.runner.stats.ignoredPackets = (device.play labels {}).late ∧
      later.runner.stats.failedFrames = 0 ∧ later.runner.stats.missingFrames = 0 := by
  have supported : ∀ sent ∈ device.frames, sent.Supported := fun sent present => .inl (image sent present)
  obtain ⟨later, result, follows, opened, delivered⟩ := run_delivers suits (spawn_wellformed params) rfl
    (spawn_admits params _ _) brings
    (schedule.imp (fun _ _ _ allowed => ⟨allowed.1, allowed.2, .inl supported⟩) labels) everything unhindered
  obtain ⟨duplicated, ignored, failed, missing, _⟩ := follows.tally
  refine ⟨later, result, delivered, ?_, ?_, failed, ?_⟩
  · exact duplicated.trans (Nat.zero_add _)
  · exact ignored.trans (Nat.zero_add _)
  · refine missing.trans ?_
    rw [opened]
    cases device.frames.length with
    | zero => rfl
    | succ last =>
        show 0 + (0 + device.skipped last) = 0
        rw [Device.skipped, consecutive last]
        omega

def Device.datagram (device : Device) (j k : Nat) : List UInt8 :=
  match device.frames[j]? with
  | none => []
  | some sent =>
      [0, 0] ++ beBytes 2 (device.frameId j) ++ beBytes 1 ((contentTag (sent.kind k)).getD 0) ++ beBytes 3 k ++
        sent.body k

def Device.arrivals (device : Device) (packets : List (Nat × Nat)) : List StreamInput :=
  packets.map fun (j, k) => arriving (device.datagram j k)

def smallFrame (byte : UInt8) : SentFrame :=
  { leader := [0, 0, 0, 1, 0, 0, 0, 0, 0, 0, 0, 0], data := [byte], trailer := [], blockSize := 4
    blockSize_pos := by decide }

def twoBuffers : StreamParams := { smallStream with nBuffers := 2 }

theorem smallFrames_fit : ∀ sent ∈ [smallFrame 10, smallFrame 20], sent.Fits twoBuffers := by
  intro sent present
  rcases List.mem_cons.mp present with rfl | second
  · exact ⟨by decide, by decide⟩
  · obtain rfl := List.mem_singleton.mp second
    exact ⟨by decide, by decide⟩

theorem smallFrames_everything {labels : List (Option (Nat × Nat))} (all : ∀ j < 2, ∀ k < 3, some (j, k) ∈ labels)
    (j : Nat) (sent : SentFrame) (isSent : [smallFrame 10, smallFrame 20][j]? = some sent) :
    ∀ k < sent.nPackets, some (j, k) ∈ labels := by
  match j with
  | 0 =>
    cases isSent
    exact all 0 (by decide)
  | 1 =>
    cases isSent
    exact all 1 (by decide)
  | j + 2 => cases isSent

def wrappingDevice : Device :=
  { extendedIds := false, firstId := 65535, frames := [smallFrame 10, smallFrame 20], offset := fun j => j
    firstId_pos := by decide
    firstId_le := by decide
    offset_zero := zero_eq_zero
    offset_lt := Nat.lt_succ_self
    offset_le := succ_le_halfRound }

/-- Both frames out of order, with repeats and with copies that come late, the
last of them of block 1. -/
def shuffledPackets : List (Nat × Nat) :=
  [(0, 2), (0, 0), (0, 0), (0, 1), (0, 1), (1, 1), (0, 2), (1, 2), (1, 0), (1, 0)]

theorem exact_reassembly_shuffled :
    ∃ later, (StreamWorld.spawn twoBuffers).run twoBuffers (wrappingDevice.arrivals shuffledPackets) = .ok later ∧
      (deliveredFrames later.journal).map Frame.outcome = wrappingDevice.outcomes ∧
      later.runner.stats.duplicatedPackets = (wrappingDevice.play (shuffledPackets.map some) {}).duplicates ∧
      later.runner.stats.ignoredPackets = (wrappingDevice.play (shuffledPackets.map some) {}).late ∧
      later.runner.stats.failedFrames = 0 ∧ later.runner.stats.missingFrames = 0 := by
  refine exact_reassembly twoBuffers wrappingDevice ⟨?_, by decide, by decide⟩ (fun _ => rfl) (by decide)
    (shuffledPackets.map some) (wrappingDevice.arrivals shuffledPackets) (by decide +kernel) (by decide +kernel) ?_
    (by decide +kernel)
  · exact smallFrames_fit
  · exact smallFrames_everything (by decide)

/-- A packet of a stream received cleanly: frame after frame, and each packet
once. -/
def Device.Cleanly (device : Device) (sheet : Sheet) (j k : Nat) : Prop :=
  (∃ sent, device.frames[j]? = some sent ∧ k < sent.nPackets) ∧ k ∉ sheet.arrived j ∧ sheet.closed ≤ j ∧
    (j < sheet.opened ∨ j = sheet.opened ∧ sheet.closed = sheet.opened)

instance (device : Device) (sheet : Sheet) (j k : Nat) : Decidable (device.Cleanly sheet j k) :=
  inferInstanceAs (Decidable (_ ∧ _))

theorem Device.Cleanly.inOrder {sheet : Sheet} {j k : Nat} (clean : device.Cleanly sheet j k) (resend : Bool) :
    device.InOrder resend sheet j k ∧ device.NewId sheet j := by
  obtain ⟨isPacket, _, unclosed, isOpen | ⟨isNext, allClosed⟩⟩ := clean
  · exact ⟨⟨isPacket, .inr (.inl ⟨unclosed, isOpen⟩)⟩, fun isNext => by omega⟩
  · exact ⟨⟨isPacket, .inr (.inr ⟨isNext, .inr allClosed⟩)⟩, fun _ i _ _ => by omega⟩

theorem Device.closeHeads_counts (fuel : Nat) : ∀ (sheet : Sheet),
    (device.closeHeads fuel sheet).duplicates = sheet.duplicates ∧
      (device.closeHeads fuel sheet).late = sheet.late := by
  induction fuel with
  | zero => exact fun _ => ⟨rfl, rfl⟩
  | succ fuel ih =>
    intro sheet
    rw [Device.closeHeads]
    split
    · exact ih _
    · exact ⟨rfl, rfl⟩

theorem Device.play_clean (labels : List (Option (Nat × Nat))) : ∀ {sheet : Sheet},
    device.Schedule device.Cleanly labels sheet → (device.play labels sheet).duplicates = sheet.duplicates ∧
      (device.play labels sheet).late = sheet.late := by
  induction labels with
  | nil => exact fun _ => ⟨rfl, rfl⟩
  | cons label rest ih =>
    intro sheet schedule
    cases label with
    | none => exact ih schedule
    | some packet =>
      obtain ⟨j, k⟩ := packet
      obtain ⟨⟨_, fresh, unclosed, _⟩, schedule⟩ := schedule
      have arrives : (device.arrive sheet j k).duplicates = sheet.duplicates ∧
          (device.arrive sheet j k).late = sheet.late := by
        rw [Device.arrive, if_neg (by omega), if_neg fresh]
        exact device.closeHeads_counts _ _
      obtain ⟨duplicates, late⟩ := ih schedule
      exact ⟨duplicates.trans arrives.1, late.trans arrives.2⟩

theorem Device.skipped_eq_sum (device : Device) (last : Nat) :
    device.skipped last = ((List.range last).map fun j => device.offset (j + 1) - device.offset j - 1).sum := by
  induction last with
  | zero => simp [Device.skipped, device.offset_zero]
  | succ last ih =>
    have grows := device.offset_lt last
    have least := device.le_offset last
    rw [List.range_succ, List.map_append, List.sum_append, ← ih]
    simp only [Device.skipped, List.map_cons, List.map_nil, List.sum_singleton]
    omega

/-- Frames whose ids advance by up to half the ring are all delivered, and
what is missing is what the steps skip. -/
theorem block_ids_followed (params : StreamParams) (device : Device) (suits : device.Suits params)
    (image : ∀ sent ∈ device.frames, sent.payloadType = some payloadTypeImage)
    (advance : device.offset (device.frames.length - 1) < 2 ^ 64)
    (labels : List (Option (Nat × Nat))) (inputs : List StreamInput) (brings : List.Forall₂ device.Brings labels inputs)
    (schedule : device.Schedule device.Cleanly labels {})
    (everything : ∀ j sent, device.frames[j]? = some sent → ∀ k < sent.nPackets, some (j, k) ∈ labels)
    (unhindered : Along params (Unhindered params) inputs (.spawn params)) :
    ∃ later, (StreamWorld.spawn params).run params inputs = .ok later ∧
      (deliveredFrames later.journal).map Frame.outcome = device.outcomes ∧
      later.runner.stats.ignoredPackets = 0 ∧ replays later.journal = 0 ∧
      later.runner.stats.missingFrames =
        ((List.range (device.frames.length - 1)).map fun j => device.offset (j + 1) - device.offset j - 1).sum ∧
      later.runner.stats.missingFrames < 2 ^ 64 := by
  have supported : ∀ sent ∈ device.frames, sent.Supported := fun sent present => .inl (image sent present)
  obtain ⟨later, result, follows, opened, delivered⟩ := run_delivers suits (spawn_wellformed params) rfl
    (spawn_admits params _ _) brings
    (schedule.imp (fun _ _ _ clean =>
      ⟨(clean.inOrder _).1, (clean.inOrder params.resendEnabled).2, .inl supported⟩) labels)
    everything unhindered
  obtain ⟨_, late⟩ := device.play_clean labels schedule
  obtain ⟨_, ignored, _, missing, _⟩ := follows.tally
  have replayed := follows.replays
  have skips : later.runner.stats.missingFrames = device.skipped (device.frames.length - 1) := by
    refine missing.trans ?_
    rw [opened]
    cases device.frames.length with
    | zero => simp [Device.skipped, device.offset_zero, Origin.missing, StreamWorld.origin, StreamWorld.spawn,
        StreamStats.tally]
    | succ last =>
        show 0 + (0 + device.skipped last) = _
        rw [Nat.zero_add, Nat.zero_add]
        rfl
  rw [late] at ignored replayed
  refine ⟨later, result, delivered, ignored, Nat.le_zero.mp replayed, ?_, ?_⟩
  · rw [skips]
    exact device.skipped_eq_sum _
  · rw [skips, Device.skipped]
    omega

def skippingDevice : Device :=
  { extendedIds := false, firstId := 65534, frames := [smallFrame 10, smallFrame 20], offset := fun j => 3 * j
    firstId_pos := by decide
    firstId_le := by decide
    offset_zero := zero_eq_zero
    offset_lt := fun j => by omega
    offset_le := fun j => by
      show 3 * (j + 1) ≤ 3 * j + 32767
      omega }

/-- Two ids are skipped at the wrap. -/
theorem block_ids_followed_wrap :
    let packets := [(0, 0), (0, 1), (0, 2), (1, 0), (1, 1), (1, 2)]
    ∃ later, (StreamWorld.spawn twoBuffers).run twoBuffers (skippingDevice.arrivals packets) = .ok later ∧
      (deliveredFrames later.journal).map Frame.outcome = skippingDevice.outcomes ∧
      later.runner.stats.ignoredPackets = 0 ∧ replays later.journal = 0 ∧
      later.runner.stats.missingFrames =
        ((List.range 1).map fun j => skippingDevice.offset (j + 1) - skippingDevice.offset j - 1).sum ∧
      later.runner.stats.missingFrames < 2 ^ 64 := by
  intro packets
  exact block_ids_followed twoBuffers skippingDevice ⟨smallFrames_fit, by decide, by decide⟩ (by decide) (by decide)
    (packets.map some) (skippingDevice.arrivals packets) (by decide +kernel) (by decide +kernel)
    (smallFrames_everything (by decide)) (by decide +kernel)

end Whole

end Telegenic.Stream
