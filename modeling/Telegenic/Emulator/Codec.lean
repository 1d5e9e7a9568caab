import Telegenic.Emulator.Device
import Telegenic.Stream.Runs

/-! The GVCP encoders and parsers of both sides agree: commands, acknowledges,
and the resend requests the stream worker sends. -/

set_option autoImplicit false

namespace Telegenic.Emulator

open Library Proto Proto.Gvcp Telegenic.Stream

/-! ## Commands -/

/-- The encoders' datagrams, with the command each stands for. -/
inductive Encodes : List UInt8 → Cmd → Prop where
  | readReg {addrs : List Nat} {id : Nat} (fits : 4 * addrs.length ≤ 0xffff) (isId : id < 2 ^ 16) :
      Encodes (encodeReadReg addrs id) ⟨flagAckRequired, readRegisterCmd, id, addrs.flatMap (beBytes 4)⟩
  | writeReg {pairs : List (Nat × Nat)} {id : Nat} (fits : 8 * pairs.length ≤ 0xffff) (isId : id < 2 ^ 16) :
      Encodes (encodeWriteReg pairs id)
        ⟨flagAckRequired, writeRegisterCmd, id, pairs.flatMap fun pair => beBytes 4 pair.1 ++ beBytes 4 pair.2⟩
  | readMem {addr count id : Nat} (isId : id < 2 ^ 16) :
      Encodes (encodeReadMem addr count id) ⟨flagAckRequired, readMemoryCmd, id, beBytes 4 addr ++ beBytes 4 count⟩
  | writeMem {addr id : Nat} {data : List UInt8} (fits : 4 + data.length ≤ 0xffff) (isId : id < 2 ^ 16) :
      Encodes (encodeWriteMem addr data id) ⟨flagAckRequired, writeMemoryCmd, id, beBytes 4 addr ++ data⟩
  | forceIp {mac : Fin 6 → UInt8} {ip mask gateway : Fin 4 → UInt8} {id : Nat} (isId : id < 2 ^ 16) :
      Encodes (encodeForceIp mac ip mask gateway id) ⟨flagAckRequired, forceIpCmd, id,
        List.replicate 2 0 ++ List.ofFn mac ++ List.replicate 12 0 ++ List.ofFn ip ++ List.replicate 12 0 ++
          List.ofFn mask ++ List.replicate 12 0 ++ List.ofFn gateway⟩

theorem Encodes.delimits {datagram : List UInt8} {cmd : Cmd} (encodes : Encodes datagram cmd) :
    Delimits Cmd.parse datagram cmd := by
  have flags : flagAckRequired < 2 ^ 8 := by decide
  have known (command : Command) {id : Nat} (fits : command.operands.length ≤ 0xffff) (isId : id < 2 ^ 16) :
      Delimits Cmd.parse (command.encode id) ⟨flagAckRequired, command.code, id, command.operands⟩ :=
    Cmd.delimits command.code_lt flags isId fits
  cases encodes with
  | @readReg addrs id fits isId =>
    rw [encodeReadReg_eq]
    exact known (.readReg addrs) (by rw [Command.operands, flatMap_beBytes_length]; exact fits) isId
  | @writeReg pairs id fits isId =>
    rw [encodeWriteReg_eq]
    refine known (.writeReg pairs) ?_ isId
    rw [Command.operands, flatMap_pairs, flatMap_beBytes_length, flatMap_pair_length]
    omega
  | @readMem addr count id isId =>
    rw [encodeReadMem_eq]
    exact known (.readMem addr count) (show 8 ≤ 0xffff by decide) isId
  | @writeMem addr id data fits isId =>
    rw [encodeWriteMem_eq]
    exact known (.writeMem addr data) (by rw [Command.operands, List.length_append, beBytes_length]; exact fits) isId
  | @forceIp mac ip mask gateway id isId =>
    have sized : (List.replicate 2 0 ++ List.ofFn mac ++ List.replicate 12 0 ++ List.ofFn ip ++ List.replicate 12 0 ++
        List.ofFn mask ++ List.replicate 12 0 ++ List.ofFn gateway).length = 56 := by simp
    have delimits := Cmd.delimits (show forceIpCmd < 2 ^ 16 by decide) flags isId (sized.trans_le (by decide))
    rwa [sized] at delimits

/-! ## Acknowledges -/

theorem parse_ack_sized {datagram : List UInt8} {ack : Ack} (parsed : Ack.parse datagram = some ack) :
    ∃ length, beAt? datagram 4 2 = some length ∧ headerLen + length ≤ datagram.length := by
  simp only [Ack.parse, Option.bind_eq_bind, Option.bind_eq_some_iff] at parsed
  obtain ⟨_, _, _, _, length, sized, _, isId, _, sliced, _⟩ := parsed
  have behind := (slice?_le sliced).2
  have header := beAt?_le isId
  rw [List.length_drop, headerLen] at behind
  exact ⟨length, sized, by rw [headerLen]; omega⟩

theorem ack_delimits {status : GvcpStatus} {answer ackId : Nat} {payload : List UInt8} (isStatus : status.code < 2 ^ 16)
    (isAnswer : answer < 2 ^ 16) (isId : ackId < 2 ^ 16) (fits : payload.length ≤ 0xffff) :
    Delimits Ack.parse (ack status answer ackId payload) ⟨status, answer, ackId, payload⟩ := by
  have layout (extra : List UInt8) : ack status answer ackId payload ++ extra = beBytes 2 status.code ++
      (beBytes 2 answer ++ (beBytes 2 payload.length ++ (beBytes 2 ackId ++ (payload ++ extra)))) := by
    simp [ack]
  have sized (extra : List UInt8) : beAt? (ack status answer ackId payload ++ extra) 4 2 = some payload.length := by
    rw [layout, ← List.append_assoc]
    exact (beAt?_append _ _ rfl).trans (congrArg some (Nat.mod_eq_of_lt (Nat.lt_succ_of_le fits)))
  have length : (ack status answer ackId payload).length - headerLen = payload.length := by
    simp only [ack, List.length_append, beBytes_length, headerLen]
    omega
  refine .of_length parse_ack_sized ?_ fun extra => ?_
  · rw [length, ← List.append_nil (ack status answer ackId payload)]
    exact sized []
  · have first : beAt? (ack status answer ackId payload ++ extra) 0 2 = some status.code := by
      rw [layout]
      exact (beAt?_append [] _ rfl).trans (congrArg some (Nat.mod_eq_of_lt isStatus))
    have second : beAt? (ack status answer ackId payload ++ extra) 2 2 = some answer := by
      rw [layout]
      exact (beAt?_append _ _ rfl).trans (congrArg some (Nat.mod_eq_of_lt isAnswer))
    have fourth : beAt? (ack status answer ackId payload ++ extra) 6 2 = some ackId := by
      rw [layout, ← List.append_assoc, ← List.append_assoc]
      exact (beAt?_append _ _ rfl).trans (congrArg some (Nat.mod_eq_of_lt isId))
    have behind : (ack status answer ackId payload ++ extra).drop headerLen = payload ++ extra := by
      rw [layout]
      rfl
    have read : slice? (payload ++ extra) 0 payload.length = some payload :=
      slice?_append (rfl : ([] : List UInt8).length = 0) (Nat.zero_add _)
    simp only [Ack.parse, first, second, sized, fourth, behind, read, Option.bind_eq_bind, Option.bind_some]
    rfl

theorem words_length (bytes : List UInt8) : 4 * (words bytes).length ≤ bytes.length := by
  fun_induction words bytes with
  | case1 first second third fourth rest ih =>
    rw [List.length_cons]
    simp only [List.length_cons]
    omega
  | case2 => exact Nat.zero_le _

namespace GigeDevice

variable {device : GigeDevice} {cmd : Cmd}

theorem registers_length (device : GigeDevice) (addrs : List Nat) :
    (addrs.flatMap fun addr => (device.mem.drop addr).take 4).length ≤ 4 * addrs.length := by
  induction addrs with
  | nil => exact Nat.zero_le _
  | cons addr rest ih =>
    rw [List.flatMap_cons, List.length_append, List.length_take, List.length_cons]
    omega

theorem words_registers (addrs : List Nat) (inside : ∀ addr ∈ addrs, addr + 4 ≤ memSize) :
    words (addrs.flatMap fun addr => (device.mem.drop addr).take 4) = addrs.map device.readReg := by
  induction addrs with
  | nil => rfl
  | cons addr rest ih =>
    obtain ⟨here, inside⟩ := List.forall_mem_cons.mp inside
    have four : ((device.mem.drop addr).take 4).length = 4 := by
      rw [List.length_take, List.length_drop, device.sized]
      omega
    rw [List.flatMap_cons, List.map_cons, ← ih inside]
    match taken : (device.mem.drop addr).take 4, four with
    | [first, second, third, fourth], _ => exact congrArg (beNat · :: _) taken.symm

/-- Every reply is an acknowledge that its length field can describe. -/
theorem execute_acks (isId : cmd.reqId < 2 ^ 16) (fits : cmd.payload.length ≤ 0xffff) {reply : List UInt8}
    (replied : (device.execute cmd).2.reply = some reply) :
    ∃ acked : Ack, reply = ack acked.status acked.answer acked.ackId acked.payload ∧ Delimits Ack.parse reply acked := by
  have built {status : GvcpStatus} {answer ackId : Nat} {payload : List UInt8} (isStatus : status.code < 2 ^ 16)
      (isAnswer : answer < 2 ^ 16) (isId : ackId < 2 ^ 16) (fits : payload.length ≤ 0xffff)
      (same : some (ack status answer ackId payload) = some reply) :
      ∃ acked : Ack, reply = ack acked.status acked.answer acked.ackId acked.payload ∧ Delimits Ack.parse reply acked :=
    ⟨⟨status, answer, ackId, payload⟩, (Option.some.inj same).symm,
      Option.some.inj same ▸ ack_delimits isStatus isAnswer isId fits⟩
  unfold execute at replied
  split at replied
  · exact built (by decide) (by decide) (by decide) ((List.length_take_le _ _).trans (by decide)) replied
  split at replied
  · rw [readRegisters] at replied
    split at replied
    · have counted := (registers_length device (words cmd.payload)).trans (words_length cmd.payload)
      exact built (by decide) (by decide) isId (counted.trans fits) replied
    · exact built (by decide) (by decide) isId (by decide) replied
  split at replied
  · rw [writeRegisters] at replied
    split at replied
    · exact built (by decide) (by decide) isId (by rw [beBytes_length]; decide) replied
    · exact built (by decide) (by decide) isId (by decide) replied
  split at replied
  · rw [readMemory] at replied
    split at replied
    · simp only at replied
      split at replied
      · exact built (by decide) (by decide) isId (by decide) replied
      · refine built (by decide) (by decide) isId ?_ replied
        rw [List.length_append, beBytes_length, List.length_take]
        rename_i small
        have : dataSizeMax = 512 := rfl
        omega
    · exact built (by decide) (by decide) isId (by decide) replied
  split at replied
  · simp only [writeMemory] at replied
    split at replied
    · split at replied
      · exact built (by decide) (by decide) isId (by rw [beBytes_length]; decide) replied
      · exact built (by decide) (by decide) isId (by decide) replied
    · exact built (by decide) (by decide) isId (by decide) replied
  split at replied <;> cases replied

end GigeDevice

/-! ## Resend requests -/

/-- The frame id fits the id mode of the stream. -/
def InMode (extendedIds : Bool) (frameId : Nat) : Prop :=
  frameId < if extendedIds then 2 ^ 64 else 2 ^ 16

theorem packetResend_encoded {device : GigeDevice}
    (enabled : device.readReg Bootstrap.gvcpCapability &&& Bootstrap.capPacketResend ≠ 0)
    {frameId first last : Nat} {extendedIds : Bool} (inMode : InMode extendedIds frameId) (isFirst : first < 2 ^ 24)
    (isLast : last < 2 ^ 24) (id : Nat) :
    ∃ cmd, Cmd.parse (encodePacketResend frameId first last extendedIds id) = some cmd ∧
      (device.execute cmd).2.resend = some ⟨frameId, first, last⟩ := by
  have masked {n : Nat} (small : n < 2 ^ 24) : n &&& 0xffffff = n :=
    (Nat.and_two_pow_sub_one_eq_mod n 24).trans (Nat.mod_eq_of_lt small)
  have word (front rest : List UInt8) {start width n : Nat} (starts : front.length = start) (small : n < 256 ^ width) :
      beAt? (front ++ (beBytes width n ++ rest)) start width = some n := by
    rw [beAt?_append front rest starts, Nat.mod_eq_of_lt small]
  have wide {n : Nat} (small : n < 2 ^ 24) : n < 256 ^ 4 := small.trans (by decide)
  cases extendedIds with
  | true =>
    let payload := beBytes 4 0 ++ (beBytes 4 first ++ (beBytes 4 last ++ (beBytes 8 frameId ++ [])))
    have layout : encodePacketResend frameId first last true id =
        header packetResendCmd flagExtendedIds 20 id ++ payload := by
      simp [encodePacketResend, payload]
    have whole : slice? payload 0 20 = some payload := rfl
    refine ⟨_, by rw [layout, Cmd.parse_header]; exact congrArg (Option.map _) whole, ?_⟩
    have isFrame : beAt? payload 12 8 = some frameId :=
      word (beBytes 4 0 ++ beBytes 4 first ++ beBytes 4 last) [] rfl inMode
    have firstAt : beAt? payload 4 4 = some first := word (beBytes 4 0) _ rfl (wide isFirst)
    have lastAt : beAt? payload 8 4 = some last := word (beBytes 4 0 ++ beBytes 4 first) _ rfl (wide isLast)
    show device.packetResend _ = _
    rw [GigeDevice.packetResend, if_neg enabled]
    simp only [isFrame, firstAt, lastAt, Option.bind_eq_bind, Option.bind_some]
    rfl
  | false =>
    have small : frameId < 2 ^ 16 := inMode
    let payload := beBytes 4 frameId ++ (beBytes 4 first ++ (beBytes 4 last ++ []))
    have layout : encodePacketResend frameId first last false id =
        header packetResendCmd 0 12 id ++ payload := by
      simp [encodePacketResend, payload, masked isFirst, masked isLast]
    have whole : slice? payload 0 12 = some payload := rfl
    refine ⟨_, by rw [layout, Cmd.parse_header]; exact congrArg (Option.map _) whole, ?_⟩
    have isFrame : beAt? payload 0 4 = some frameId := word [] _ rfl (small.trans (by decide))
    have firstAt : beAt? payload 4 4 = some first := word (beBytes 4 frameId) _ rfl (wide isFirst)
    have lastAt : beAt? payload 8 4 = some last := word (beBytes 4 frameId ++ beBytes 4 first) _ rfl (wide isLast)
    have lowHalf : frameId &&& 0xffff = frameId :=
      (Nat.and_two_pow_sub_one_eq_mod frameId 16).trans (Nat.mod_eq_of_lt small)
    show device.packetResend _ = _
    rw [GigeDevice.packetResend, if_neg enabled]
    simp only [isFrame, firstAt, lastAt, Option.bind_eq_bind, Option.bind_some, lowHalf, masked isFirst, masked isLast]
    rfl

theorem view_inMode {datagram : List UInt8} {view : Gvsp.GvspView} (parsed : Gvsp.GvspView.parse datagram = some view) :
    InMode view.extendedIds view.frameId := by
  simp only [Gvsp.GvspView.parse, Option.bind_eq_bind, Option.bind_eq_some_iff] at parsed
  obtain ⟨_, _, infos, _, rest⟩ := parsed
  split at rest
  · rename_i extended
    obtain ⟨frameId, isFrame, rest⟩ := Option.bind_eq_some_iff.mp rest
    obtain ⟨_, _, rest⟩ := Option.bind_eq_some_iff.mp rest
    obtain ⟨_, _, rest⟩ := Option.bind_eq_some_iff.mp rest
    cases rest
    rw [InMode, if_pos extended]
    exact beAt?_lt isFrame
  · rename_i standard
    obtain ⟨frameId, isFrame, rest⟩ := Option.bind_eq_some_iff.mp rest
    obtain ⟨_, _, rest⟩ := Option.bind_eq_some_iff.mp rest
    cases rest
    rw [InMode, if_neg standard]
    exact beAt?_lt isFrame

/-- What the codec needs of a request. -/
structure Encodable (request : Stream.ResendRequest) : Prop where
  inMode : InMode request.extendedIds request.frameId
  first : request.first < 2 ^ 24
  last : request.last < 2 ^ 24

theorem moves_requested {params : StreamParams} {origin : List FrameInFlight} {arrival : Option Gvsp.GvspView}
    {w later : StreamWorld} (move : Move params origin arrival w later) {request : Stream.ResendRequest}
    (present : .requested request ∈ later.journal) :
    .requested request ∈ w.journal ∨ ∃ frame ∈ w.runner.frames, frame.Asks request := by
  cases move with
  | quiet frames openings journal =>
    rcases journal with same | ⟨⟨asked, asks⟩, same⟩
    · exact .inl (same ▸ present)
    · rw [same] at present
      rcases List.mem_append.mp present with old | new
      · exact .inl old
      · cases List.mem_singleton.mp new
        exact .inr asks
  | touched found untouched frames openings journal => exact .inl (journal ▸ present)
  | absorbed isArrival found routed absorbs frames openings journal => exact .inl (journal ▸ present)
  | adopted _ _ _ _ _ journal | discarded _ _ _ _ journal | delivered _ _ _ _ _ _ journal | opened _ _ _ _ _ _ _ _ _ journal =>
    rw [journal] at present
    exact .inl ((List.mem_append.mp present).resolve_right fun new => by cases List.mem_singleton.mp new)

theorem requests_encodable (params : StreamParams) (inputs : List StreamInput) :
    ∃ w, (StreamWorld.spawn params).run params inputs = .ok w ∧
      ∀ request, .requested request ∈ w.journal → Encodable request := by
  have along : Along params (fun _ _ => True) inputs (.spawn params) := .of_forall inputs _ fun _ _ _ => trivial
  have reached := run_preserves params
    (fun w => (∀ frame ∈ w.runner.frames, InMode frame.extendedIds frame.frameId) ∧
      ∀ request, .requested request ∈ w.journal → Encodable request) ?_ inputs (.spawn params) (spawn_wellformed params)
    ⟨fun frame present => (by cases present), fun _ present => by cases present⟩ along
  · obtain ⟨w, result, _, _, all⟩ := reached
    exact ⟨w, result, all⟩
  intro world input _ before after move wellformed both
  have tracked : Tracked params world.runner.frames input.arrival fun frame => InMode frame.extendedIds frame.frameId := by
    refine ⟨fun {view} _ _ _ _ _ isArrival _ _ _ => ?_, fun untouched inMode => ?_, id, fun _ _ _ absorbs inMode => ?_⟩
    · cases input with
      | packet received =>
        rw [StreamInput.arrival] at isArrival
        split at isArrival
        · exact view_inMode isArrival
        · cases isArrival
      | _ => cases isArrival
    · rw [untouched.extendedIds, untouched.frameId]
      exact inMode
    · rw [absorbs.extendedIds, absorbs.frameId]
      exact inMode
  refine ⟨move.tracked wellformed tracked both.1, fun request present => ?_⟩
  rcases moves_requested move present with old | ⟨frame, inFlight, asks⟩
  · exact both.2 request old
  · have limit := (wellformed.frames frame inFlight).inBounds.nPackets_le.trans (Nat.min_le_right _ _)
    have few : maxFramePackets < 2 ^ 24 := by decide
    have inside := asks.inside
    have ordered := asks.ordered
    exact ⟨by rw [asks.extendedIds, asks.frameId]; exact both.1 frame inFlight, by omega, by omega⟩

/-! ## The round trip -/

/-- Commands and acknowledges are read back as they were encoded, whatever is
appended, and no strict prefix is accepted; register acknowledges give the
registers' values; and the device reads every resend request as the worker
meant it. -/
theorem gvcp_round_trips :
    (∀ datagram cmd, Encodes datagram cmd → Delimits Cmd.parse datagram cmd) ∧
    (∀ (device : GigeDevice) data cmd reply, Cmd.parse data = some cmd → (device.execute cmd).2.reply = some reply →
      ∃ acked : Ack, reply = ack acked.status acked.answer acked.ackId acked.payload ∧ Delimits Ack.parse reply acked) ∧
    (∀ reqId < 2 ^ 16, ∀ timeoutMs, Delimits Ack.parse (pendingAck reqId timeoutMs)
      ⟨.success, Gvcp.pendingAck, reqId, beBytes 2 0 ++ beBytes 2 timeoutMs⟩) ∧
    (∀ (device : GigeDevice) data cmd, Cmd.parse data = some cmd → (∀ addr ∈ words cmd.payload, addr + 4 ≤ memSize) →
      ∃ acked : Ack, Delimits Ack.parse (device.readRegisters cmd) acked ∧
        acked.registerValues = (words cmd.payload).map device.readReg) ∧
    ∀ params inputs, ∃ w, (StreamWorld.spawn params).run params inputs = .ok w ∧
      ∀ request, .requested request ∈ w.journal → ∀ device : GigeDevice,
        device.readReg Bootstrap.gvcpCapability &&& Bootstrap.capPacketResend ≠ 0 →
        ∃ cmd, Cmd.parse (encodePacketResend request.frameId request.first request.last request.extendedIds request.id) =
            some cmd ∧
          (device.execute cmd).2.resend = some ⟨request.frameId, request.first, request.last⟩ := by
  have bounds {data : List UInt8} {cmd : Cmd} (parsed : Cmd.parse data = some cmd) :
      cmd.reqId < 2 ^ 16 ∧ cmd.payload.length ≤ 0xffff := by
    obtain ⟨length, read, _, same, isId⟩ := Cmd.parse_sized parsed
    exact ⟨isId, same ▸ Nat.le_of_lt_succ (beAt?_lt read)⟩
  refine ⟨fun _ _ => Encodes.delimits, fun device data cmd reply parsed => ?_, fun reqId isId timeoutMs => ?_,
    fun device data cmd parsed inside => ?_, fun params inputs => ?_⟩
  · exact GigeDevice.execute_acks (bounds parsed).1 (bounds parsed).2
  · exact ack_delimits (by decide) (by decide) isId (show 4 ≤ 0xffff by decide)
  · have counted := (device.registers_length (words cmd.payload)).trans (words_length cmd.payload)
    have delimits := ack_delimits (show GvcpStatus.success.code < 2 ^ 16 by decide)
      (show readRegisterAck < 2 ^ 16 by decide) (bounds parsed).1 (counted.trans (bounds parsed).2)
    rw [GigeDevice.readRegisters, if_pos inside]
    exact ⟨_, delimits, GigeDevice.words_registers _ inside⟩
  · obtain ⟨w, result, all⟩ := requests_encodable params inputs
    refine ⟨w, result, fun request present device enabled => ?_⟩
    have encodable := all request present
    exact packetResend_encoded enabled encodable.inMode encodable.first encodable.last request.id

end Telegenic.Emulator
