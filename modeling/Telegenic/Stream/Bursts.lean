import Telegenic.Stream.Exact

/-! One frame's burst: what the receiver makes of it does not depend on the
order of its packets, unless the leader is first and its payload type is not
supported. -/

set_option autoImplicit false

namespace Telegenic.Stream

open Library Proto Proto.Gvsp

def SentFrame.device (sent : SentFrame) (frameId : Nat) (extendedIds : Bool) (positive : 1 ≤ frameId)
    (le : frameId ≤ maxBlockId extendedIds) : Device :=
  { extendedIds := extendedIds, firstId := frameId, frames := [sent], offset := fun j => j
    firstId_pos := positive
    firstId_le := le
    offset_zero := zero_eq_zero
    offset_lt := Nat.lt_succ_self
    offset_le := fun j => by
      have large := @maxBlockId_large extendedIds
      omega }

structure Device.BurstOf (device : Device) (sent : SentFrame) (order : List Nat)
    (labels : List (Option (Nat × Nat))) (inputs : List StreamInput) : Prop where
  packets : order.Perm (List.range sent.nPackets)
  labelled : labels.filterMap id = order.map fun k => (0, k)
  brings : List.Forall₂ device.Brings labels inputs

section Reassembled

variable {params : StreamParams} {device : Device} {sent : SentFrame}

theorem Device.arrive_single {sheet : Sheet} {k : Nat} {rest : List Nat} (single : device.frames = [sent])
    (closed : sheet.closed = 0) (opened : sheet.opened ≤ 1) (fresh : k ∉ sheet.arrived 0) (missing : rest ≠ [])
    (distinct : (sheet.arrived 0 ++ k :: rest).Nodup) (inside : ∀ i ∈ rest, i < sent.nPackets) :
    device.arrive sheet 0 k = { Device.enter sheet 0 k with opened := 1 } := by
  obtain ⟨next, more, rfl⟩ := List.exists_cons_of_ne_nil missing
  have entered : (Device.enter sheet 0 k).opened = 1 := Nat.max_eq_right opened
  have incomplete : device.complete (Device.enter sheet 0 k) 0 = false := by
    refine Bool.eq_false_iff.mpr fun complete => ?_
    have isSent : device.frames[0]? = some sent := by
      rw [single]
      rfl
    have all := (Device.complete_iff isSent).mp complete next (inside next List.mem_cons_self)
    simp only [Device.enter, Function.update_self, List.mem_append, List.mem_singleton] at all
    rw [List.nodup_append] at distinct
    rcases all with before | rfl
    · exact distinct.2.2 next before next (by simp) rfl
    · simp at distinct
  rw [Device.arrive, if_neg (by omega), if_neg fresh]
  show device.closeHeads ((Device.enter sheet 0 k).opened - sheet.closed) _ = _
  rw [entered, closed, Nat.sub_zero, Device.closeHeads, if_neg]
  · rw [← entered]
  · rintro ⟨_, complete⟩
    rw [show (Device.enter sheet 0 k).closed = 0 from closed, incomplete] at complete
    cases complete

theorem Device.schedule_quiet (device : Device) {allowed : Sheet → Nat → Nat → Prop}
    (labels : List (Option (Nat × Nat))) (quiet : ∀ label ∈ labels, label = none) {sheet : Sheet} :
    device.Schedule allowed labels sheet := by
  induction labels with
  | nil => trivial
  | cons label rest ih =>
    obtain rfl := quiet label List.mem_cons_self
    exact ih fun label present => quiet label (List.mem_cons_of_mem _ present)

theorem Device.schedule_single (single : device.frames = [sent]) (resend : Bool)
    (labels : List (Option (Nat × Nat))) : ∀ {sheet : Sheet} {rest : List Nat},
      labels.filterMap id = rest.map (fun k => (0, k)) → sheet.closed = 0 → sheet.opened ≤ 1 →
      (sheet.arrived 0 ++ rest).Nodup → (∀ k ∈ rest, k < sent.nPackets) →
      (sheet.opened = 0 → sent.Supported ∨ rest.head? ≠ some 0) →
      device.Schedule (device.Allowed resend) labels sheet := by
  induction labels with
  | nil => exact fun _ _ _ _ _ _ => trivial
  | cons label labels ih =>
    intro sheet rest labelled closed opened distinct inside legible
    cases label with
    | none => exact ih labelled closed opened distinct inside legible
    | some packet =>
      cases rest with
      | nil => cases labelled
      | cons k rest =>
        obtain ⟨rfl, others⟩ : packet = (0, k) ∧ labels.filterMap id = rest.map fun k => (0, k) := by
          simpa using labelled
        have fresh : k ∉ sheet.arrived 0 := fun before =>
          (List.nodup_append.mp distinct).2.2 k before k List.mem_cons_self rfl
        refine ⟨⟨⟨⟨sent, by rw [single]; rfl, inside k List.mem_cons_self⟩, ?_⟩, ?_, ?_⟩, ?_⟩
        · rcases Nat.eq_zero_or_pos sheet.opened with none_open | some_open
          · exact .inr (.inr ⟨none_open.symm, .inr (closed.trans none_open.symm)⟩)
          · exact .inr (.inl ⟨closed.le, some_open⟩)
        · intro isNext i _ isOpen
          omega
        · rcases Nat.eq_zero_or_pos sheet.opened with none_open | some_open
          · rcases legible none_open with supported | notLeader
            · exact .inl (by rw [single]; simpa using supported)
            · exact .inr ⟨by omega, fun _ isLeader => notLeader (by rw [isLeader]; rfl)⟩
          · exact .inr ⟨by omega, fun isNext => by omega⟩
        · by_cases last : rest = []
          · subst last
            -- Nothing more arrives.
            have quiet : ∀ label ∈ labels, label = none := by
              simpa [List.filterMap_eq_nil_iff] using others
            exact device.schedule_quiet labels quiet
          · rw [Device.arrive_single single closed opened fresh last distinct
              fun i present => inside i (List.mem_cons_of_mem _ present)]
            refine ih others closed le_rfl ?_ (fun i present => inside i (List.mem_cons_of_mem _ present))
              (fun none_open => by cases none_open)
            simpa [Device.enter, Function.update_self] using distinct

theorem run_reassembles {w : StreamWorld} {order : List Nat} {labels : List (Option (Nat × Nat))}
    {inputs : List StreamInput} (suits : device.Suits params) (single : device.frames = [sent])
    (wellformed : Wellformed params w) (idle : w.runner.frames = [])
    (admits : w.Admits device.firstId device.extendedIds) (burst : device.BurstOf sent order labels inputs)
    (legible : sent.Supported ∨ order.head? ≠ some 0) (unhindered : Along params (Unhindered params) inputs w) :
    ∃ later, w.run params inputs = .ok later ∧
      (deliveredFrames later.journal).map Frame.outcome =
        (deliveredFrames w.journal).map Frame.outcome ++ device.outcomes ∧
      later.runner.stats.unsupportedFrames = w.runner.stats.unsupportedFrames := by
  have schedule : device.Schedule (device.Allowed params.resendEnabled) labels {} :=
    device.schedule_single single params.resendEnabled labels burst.labelled rfl (Nat.zero_le _)
      (burst.packets.nodup_iff.mpr List.nodup_range)
      (fun k present => List.mem_range.mp (burst.packets.mem_iff.mp present)) (fun _ => legible)
  have everything : ∀ j other, device.frames[j]? = some other → ∀ k < other.nPackets, some (j, k) ∈ labels := by
    intro j other isSent k inside
    rw [single] at isSent
    cases j with
    | zero =>
      cases isSent
      have present : (0, k) ∈ labels.filterMap id := by
        rw [burst.labelled]
        exact List.mem_map_of_mem (burst.packets.mem_iff.mpr (List.mem_range.mpr inside))
      obtain ⟨label, isLabel, same⟩ := List.mem_filterMap.mp present
      exact same ▸ isLabel
    | succ j => cases isSent
  obtain ⟨later, result, follows, _, delivered⟩ := run_delivers suits wellformed idle admits burst.brings schedule
    everything unhindered
  exact ⟨later, result, delivered, follows.tally.unsupported⟩

end Reassembled

structure Dropped (params : StreamParams) (device : Device) (before w : StreamWorld) : Prop where
  wellformed : Wellformed params w
  idle : w.runner.frames = []
  started : w.runner.firstPacket = false
  position : w.runner.lastFrameId = device.firstId
  history : ∃ front, w.runner.history = front ++ [⟨device.firstId, device.extendedIds, none⟩]
  delivered : (deliveredFrames w.journal).map Frame.outcome = (deliveredFrames before.journal).map Frame.outcome
  unsupported : w.runner.stats.unsupportedFrames = before.runner.stats.unsupportedFrames + 1

section Dropping

variable {params : StreamParams} {device : Device} {sent : SentFrame} {before w later : StreamWorld} {view : GvspView}

theorem step_quietly {input : StreamInput} (wellformed : Wellformed params w) (brings : device.Brings none input)
    (finds_nothing : ∀ now schedule, input = .tick now schedule →
      StreamWorld.checkFrameCompletion params now none { w with schedule := schedule } =
        .ok { w with schedule := schedule }) :
    ∃ later, w.step params input = .ok later ∧ Steady w later ∧ StreamWorld.Quietly [] w later := by
  have scheduled := fun schedule => StreamWorld.schedule_quietly wellformed.accounted schedule
  have kept : ∀ schedule, Steady w { w with schedule := schedule } :=
    fun schedule => ⟨rfl, rfl, rfl, rfl, rfl, rfl, le_rfl⟩
  cases input with
  | packet received now systemNow schedule =>
    have elsewhere : received.fromDevice = false := brings
    rw [StreamWorld.step, StreamWorld.drainSocket]
    simp only [elsewhere, Bool.false_eq_true, if_false]
    cases received.drops with
    | none => exact ⟨_, rfl, kept schedule, scheduled schedule⟩
    | some drops =>
      exact ⟨_, rfl, (kept schedule).trans (.setStats rfl), (scheduled schedule).trans
        (StreamWorld.setStats_quietly _ (scheduled schedule).accounted _)⟩
  | tick now schedule =>
    refine ⟨({ w with schedule := schedule } : StreamWorld).publishStats, ?_,
      (kept schedule).trans ⟨rfl, rfl, rfl, rfl, rfl, rfl, le_rfl⟩, (scheduled schedule).trans
        (StreamWorld.publishStats_quietly _ (scheduled schedule).accounted)⟩
    rw [StreamWorld.step, finds_nothing now schedule rfl]
    rfl
  | commands schedule =>
    exact ⟨_, rfl, (kept schedule).trans (.drainCommands _), (scheduled schedule).trans
      (StreamWorld.drainCommands_quietly _ (scheduled schedule).accounted)⟩
  | acts acts =>
    obtain ⟨accounted, conserved⟩ := Fabric.Accounted.consumeAll acts w.fabric wellformed.accounted
    exact ⟨_, rfl, ⟨rfl, rfl, rfl, rfl, rfl, rfl, Fabric.consumeAll_pool acts w.fabric⟩,
      ⟨rfl, rfl, rfl, conserved, accounted⟩⟩
  | flush schedule => exact brings.elim

theorem step_idle {input : StreamInput} (wellformed : Wellformed params w) (idle : w.runner.frames = [])
    (brings : device.Brings none input) :
    ∃ later, w.step params input = .ok later ∧ Steady w later ∧ Wellformed params later ∧ later.runner.frames = [] := by
  obtain ⟨later, result, steady, quietly⟩ := step_quietly wellformed brings fun now schedule _ => by
    rw [StreamWorld.checkFrameCompletion]
    simp only [idle]
    rfl
  have moves : Moves params [] none w later := quietly.moves
  exact ⟨later, result, steady, moves.wellformed wellformed, quietly.frames.trans idle⟩

theorem Dropped.steady (dropped : Dropped params device before w) (steady : Steady w later)
    (wellformed : Wellformed params later) (idle : later.runner.frames = []) : Dropped params device before later := by
  refine ⟨wellformed, idle, steady.firstPacket.trans dropped.started, steady.lastFrameId.trans dropped.position, ?_, ?_,
    ?_⟩
  · rw [steady.history]
    exact dropped.history
  · rw [steady.delivered]
    exact dropped.delivered
  · have same := congrArg Tally.unsupported steady.tally
    exact same.trans dropped.unsupported

theorem Dropped.since (dropped : Dropped params device later w) (steady : Steady before later) :
    Dropped params device before w := by
  refine ⟨dropped.wellformed, dropped.idle, dropped.started, dropped.position, dropped.history, ?_, ?_⟩
  · rw [← steady.delivered]
    exact dropped.delivered
  · have same := congrArg Tally.unsupported steady.tally
    exact dropped.unsupported.trans (congrArg (· + 1) same)

theorem Dropped.setStats {stats : StreamStats} (dropped : Dropped params device before w)
    (same : stats.unsupportedFrames = w.runner.stats.unsupportedFrames) :
    Dropped params device before (w.setStats stats) := by
  have move : Move params [] none w (w.setStats stats) :=
    (StreamWorld.setStats_quietly w dropped.wellformed.accounted stats).move
  exact ⟨move.wellformed dropped.wellformed, dropped.idle, dropped.started, dropped.position, dropped.history,
    dropped.delivered, same.trans dropped.unsupported⟩

theorem Dropped.processPacket {datagram : List UInt8} {k : Nat} (now systemNow : Nat)
    (dropped : Dropped params device before w) (parsed : GvspView.parse datagram = some view)
    (sends : device.Sends 0 k view) :
    ∃ later, w.processPacket params datagram now systemNow = .ok later ∧ Dropped params device before later := by
  refine ⟨w.ignore, ?_, dropped.setStats rfl⟩
  have noted : w.noteFirstPacket view = w := if_neg (by rw [dropped.started]; exact Bool.false_ne_true)
  have here : blockIdDistance view.frameId w.runner.lastFrameId view.extendedIds = 0 := by
    have same : blockIdDistance (device.frameId 0) (device.frameId 0) device.extendedIds = _ :=
      device.distance_late le_rfl (Nat.lt_add_of_pos_right (by decide))
    rw [sends.frameId, sends.extendedIds, dropped.position, ← device.frameId_zero, same, Nat.sub_self]
    rfl
  have late : w.classifyBehind view = .late := by
    unfold StreamWorld.classifyBehind
    split
    · rfl
    · obtain ⟨front, history⟩ := dropped.history
      rw [history, List.reverse_append]
      simp [sends.frameId, sends.extendedIds, device.frameId_zero]
  rw [StreamWorld.processPacket, parsed]
  simp only [noted]
  rw [StreamWorld.findOrCreateFrame, dropped.idle]
  simp only [List.findIdx?_nil, here]
  rw [if_pos (by decide), late]
  rfl

theorem SentFrame.IsPacket.unexpected (packet : sent.IsPacket 0 view) (unsupported : ¬ sent.Supported)
    (room : packetProtocolOverhead view.extendedIds < params.scpsPacketSize) :
    computeNExpectedPackets params view = .ok 0 := by
  have nonzero : estimatedBlockSize params view.extendedIds ≠ 0 := Nat.sub_ne_zero_of_lt room
  unfold computeNExpectedPackets
  simp only [if_neg nonzero, Checked.divCeil_ok (Nat.pos_of_ne_zero nonzero), Checked.ok_bind, Checked.pure_eq]
  rw [packet.contentType, SentFrame.kind_zero, packet.data]
  unfold SentFrame.Supported SentFrame.payloadType at unsupported
  simp only [show sent.body 0 = sent.leader from rfl]
  cases payloadType : (ImageLeader.parse sent.leader).map (·.payloadType) with
  | none => rfl
  | some payloadType' =>
    simp only [payloadType, Option.some.injEq] at unsupported
    exact if_neg unsupported

theorem processPacket_drops {datagram : List UInt8} (now systemNow : Nat) (wellformed : Wellformed params w)
    (idle : w.runner.frames = []) (single : device.frames = [sent]) (suits : device.Suits params)
    (admits : w.Admits device.firstId device.extendedIds) (unsupported : ¬ sent.Supported)
    (parsed : GvspView.parse datagram = some view) (sends : device.Sends 0 0 view) :
    ∃ later, w.processPacket params datagram now systemNow = .ok later ∧ Dropped params device w later := by
  obtain ⟨_, isSent, packet⟩ := sends.packet
  rw [single] at isSent
  cases isSent
  have expected : computeNExpectedPackets params view = .ok 0 :=
    packet.unexpected unsupported (by rw [sends.extendedIds]; exact suits.room)
  have noted := StreamWorld.noteFirstPacket_quietly w wellformed.accounted view
  have noted_moves : Moves params [] none w (w.noteFirstPacket view) := noted.moves
  have noted_wellformed := noted_moves.wellformed wellformed
  obtain ⟨started, history, stats, journal, _⟩ := noteFirstPacket_spec w view
  let next := (w.noteFirstPacket view).ignore
  let later := (next.setStats { next.runner.stats with
    unsupportedFrames := next.runner.stats.unsupportedFrames + 1 }).skipFrame view
  have created : ∀ distance, (w.noteFirstPacket view).createFrame params view now distance none =
      .ok (later, none) := by
    intro distance
    have none_provisional : (w.noteFirstPacket view).discardProvisional = .ok (w.noteFirstPacket view) := by
      rw [StreamWorld.discardProvisional, noted.frames, idle]
      rfl
    simp only [StreamWorld.createFrame, Option.isSome_none, Bool.false_eq_true, if_false, none_provisional,
      Checked.ok_bind, expected, if_true]
    rfl
  have routed : (w.noteFirstPacket view).findOrCreateFrame params view now = .ok (later, none) :=
    (findOrCreateFrame_admits now (by rw [idle]; simp) (by rw [sends.frameId]; exact device.frameId_pos)
      (by rw [sends.frameId, sends.extendedIds]; exact device.frameId_le)
      (by rw [sends.frameId, sends.extendedIds, device.frameId_zero]; exact admits)).trans (created _)
  have later_wellformed : Wellformed params later := by
    obtain ⟨_, _, result, moves, _⟩ := StreamWorld.findOrCreateFrame_moves _ (some view) now noted_wellformed rfl rfl
    rw [routed] at result
    cases result
    exact moves.wellformed noted_wellformed
  refine ⟨later, ?_, later_wellformed, noted.frames.trans idle, started, ?_, ?_, ?_, ?_⟩
  · rw [StreamWorld.processPacket, parsed]
    simp only [routed, Checked.ok_bind]
    rfl
  · exact sends.frameId.trans device.frameId_zero
  · refine ⟨_, congrArg (_ ++ [·]) ?_⟩
    rw [sends.frameId, sends.extendedIds, device.frameId_zero]
  · exact congrArg _ (congrArg deliveredFrames journal)
  · show (w.noteFirstPacket view).runner.stats.unsupportedFrames + 1 = _
    rw [stats]

theorem Steady.admits_iff (steady : Steady w later) (frameId : Nat) (extendedIds : Bool) :
    later.Admits frameId extendedIds ↔ w.Admits frameId extendedIds := by
  simp only [StreamWorld.Admits, StreamWorld.approach, StreamWorld.recalls, steady.firstPacket, steady.lastFrameId,
    steady.history]

theorem received_steady (received : Received) (schedule : List (List ConsumerAct)) (w : StreamWorld) :
    Steady w ((StreamWorld.noteDrops received.drops { w with schedule := schedule }).countPacket received.datagram) ∧
      ((StreamWorld.noteDrops received.drops { w with schedule := schedule }).countPacket
        received.datagram).runner.frames = w.runner.frames := by
  cases received.drops with
  | none => exact ⟨⟨rfl, rfl, rfl, rfl, rfl, rfl, le_rfl⟩, rfl⟩
  | some drops => exact ⟨⟨rfl, rfl, rfl, rfl, rfl, rfl, le_rfl⟩, rfl⟩

theorem received_wellformed (received : Received) (schedule : List (List ConsumerAct))
    (wellformed : Wellformed params w) :
    Wellformed params
      ((StreamWorld.noteDrops received.drops { w with schedule := schedule }).countPacket received.datagram) := by
  have ready := schedule_wellformed wellformed schedule
  have counts : ∀ {w : StreamWorld} (stats : StreamStats), Wellformed params w → Wellformed params (w.setStats stats) := by
    intro w stats wellformed
    have move : Move params [] none w (w.setStats stats) :=
      (StreamWorld.setStats_quietly w wellformed.accounted stats).move
    exact move.wellformed wellformed
  cases received.drops with
  | none => exact counts _ ready
  | some drops => exact counts _ (counts _ ready)

theorem run_stays_dropped {labels : List (Option (Nat × Nat))} {inputs : List StreamInput}
    (brings : List.Forall₂ device.Brings labels inputs) : ∀ {w : StreamWorld}, Dropped params device before w →
      (∀ j k, some (j, k) ∈ labels → j = 0) →
      ∃ later, w.run params inputs = .ok later ∧ Dropped params device before later := by
  induction brings with
  | nil => exact fun dropped _ => ⟨_, rfl, dropped⟩
  | @cons label input labels inputs here _ ih =>
    intro w dropped single
    have others : ∀ j k, some (j, k) ∈ labels → j = 0 := fun j k present =>
      single j k (List.mem_cons_of_mem _ present)
    cases label with
    | none =>
      obtain ⟨next, result, steady, wellformed, idle⟩ := step_idle dropped.wellformed dropped.idle here
      obtain ⟨later, rest, still⟩ := ih (dropped.steady steady wellformed idle) others
      exact ⟨later, by rw [StreamWorld.run, result]; exact rest, still⟩
    | some packet =>
      obtain ⟨j, k⟩ := packet
      obtain rfl := single j k List.mem_cons_self
      cases input with
      | packet received now systemNow schedule =>
        obtain ⟨fromDevice, view, parsed, sends⟩ := here
        obtain ⟨steady, frames⟩ := received_steady received schedule w
        have ready := dropped.steady steady (received_wellformed received schedule dropped.wellformed)
          (frames.trans dropped.idle)
        obtain ⟨next, result, next_dropped⟩ := ready.processPacket now systemNow parsed sends
        obtain ⟨later, rest, still⟩ := ih next_dropped others
        refine ⟨later, ?_, still⟩
        rw [StreamWorld.run, StreamWorld.step, StreamWorld.drainSocket]
        simp only [fromDevice, if_true, result]
        exact rest
      | _ => exact here.elim

theorem run_drops {labels : List (Option (Nat × Nat))} {inputs : List StreamInput} {rest : List Nat}
    (suits : device.Suits params) (single : device.frames = [sent]) (unsupported : ¬ sent.Supported)
    (brings : List.Forall₂ device.Brings labels inputs) : ∀ {w : StreamWorld}, Wellformed params w →
      w.runner.frames = [] → w.Admits device.firstId device.extendedIds →
      labels.filterMap id = (0 :: rest).map (fun k => (0, k)) →
      ∃ later, w.run params inputs = .ok later ∧ Dropped params device w later := by
  induction brings with
  | nil =>
    intro w _ _ _ labelled
    cases labelled
  | @cons label input labels inputs here more ih =>
    intro w wellformed idle admits labelled
    cases label with
    | none =>
      obtain ⟨next, result, steady, next_wellformed, next_idle⟩ := step_idle wellformed idle here
      obtain ⟨later, rest, dropped⟩ := ih next_wellformed next_idle ((steady.admits_iff _ _).mpr admits) labelled
      refine ⟨later, by rw [StreamWorld.run, result]; exact rest, dropped.since steady⟩
    | some packet =>
      obtain ⟨rfl, others⟩ : packet = (0, 0) ∧ labels.filterMap id = rest.map fun k => (0, k) := by
        simpa using labelled
      have single_frame : ∀ j k, some (j, k) ∈ labels → j = 0 := by
        intro j k present
        have isLabel : (j, k) ∈ labels.filterMap id := List.mem_filterMap.mpr ⟨_, present, rfl⟩
        rw [others] at isLabel
        obtain ⟨_, _, same⟩ := List.mem_map.mp isLabel
        exact (Prod.mk.inj same).1.symm
      cases input with
      | packet received now systemNow schedule =>
        obtain ⟨fromDevice, view, parsed, sends⟩ := here
        obtain ⟨steady, frames⟩ := received_steady received schedule w
        obtain ⟨next, result, dropped⟩ := processPacket_drops now systemNow
          (received_wellformed received schedule wellformed) (frames.trans idle) single suits
          ((steady.admits_iff _ _).mpr admits) unsupported parsed sends
        obtain ⟨later, rest, still⟩ := run_stays_dropped more (dropped.since steady) single_frame
        refine ⟨later, ?_, still⟩
        rw [StreamWorld.run, StreamWorld.step, StreamWorld.drainSocket]
        simp only [fromDevice, if_true, result]
        exact rest
      | _ => exact here.elim

end Dropping

def fifthBlock (sent : SentFrame) : Device := sent.device 5 false (by decide) (by decide)

def burst (sent : SentFrame) (order : List Nat) : List StreamInput :=
  (fifthBlock sent).arrivals (order.map fun k => (0, k))

def burstLabels (order : List Nat) : List (Option (Nat × Nat)) := order.map fun k => some (0, k)

def rawFrame : SentFrame := { smallFrame 10 with leader := [0, 0, 0, 2, 0, 0, 0, 0, 0, 0, 0, 0] }

def StreamWorld.verdict (w : StreamWorld) : List Outcome × Nat :=
  ((deliveredFrames w.journal).map Frame.outcome, w.runner.stats.unsupportedFrames)

end Telegenic.Stream
