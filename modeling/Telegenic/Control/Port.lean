import Telegenic.Control.Runs
import Telegenic.Proto.Commands

/-! The requests other threads put to the worker, and the commands that the
worker's operations send. -/

set_option autoImplicit false

namespace Telegenic.Control

open Library Proto Proto.Gvcp

/-- A call of `ControlPort`. -/
inductive PortCall where
  | readRegister (addr : UInt32)
  | readRegisters (addrs : List UInt32)
  | writeRegister (addr value : UInt32)
  | writeRegisters (pairs : List (UInt32 × UInt32))
  | readMemory (addr len : UInt32)
  | writeMemory (addr : UInt32) (data : List UInt8)
  deriving DecidableEq

/-- The message the call sends to the worker, unless it turns the caller away. -/
def PortCall.message (handle : Nat) : PortCall → Except CameraError ToWorker
  | readRegister addr => .ok (.readReg addr.toNat handle)
  | readRegisters addrs => .ok (.readRegs (addrs.map UInt32.toNat) handle)
  | writeRegister addr value => .ok (.writeRegs [(addr.toNat, value.toNat)] handle)
  | writeRegisters pairs => .ok (.writeRegs (pairs.map fun pair => (pair.1.toNat, pair.2.toNat)) handle)
  | readMemory addr len =>
      if addr.toNat % 4 ≠ 0 then
        .error (.protocol "read address must be 4-byte aligned")
      else
        .ok (.readMem addr.toNat len.toNat handle)
  | writeMemory addr data =>
      if addr.toNat % 4 ≠ 0 ∨ data.length % 4 ≠ 0 then
        .error (.protocol "write address and length must be 4-byte aligned")
      else
        .ok (.writeMem addr.toNat data handle)

/-- The message came through `ControlPort`, or carries no operation. -/
def ToWorker.FromPort (message : ToWorker) : Prop :=
  message.handle = none ∨ ∃ call handle, PortCall.message handle call = .ok message

/-- Words of 32 bits, and memory in words. -/
def ToWorker.Fits : ToWorker → Prop
  | readReg addr _ => addr < 2 ^ 32
  | readRegs addrs _ => ∀ addr ∈ addrs, addr < 2 ^ 32
  | writeRegs pairs _ => ∀ pair ∈ pairs, pair.1 < 2 ^ 32 ∧ pair.2 < 2 ^ 32
  | readMem addr _ _ => addr < 2 ^ 32 ∧ addr % 4 = 0
  | writeMem addr data _ => addr % 4 = 0 ∧ data.length % 4 = 0
  | subscribeEvents _ | shutdown => True

theorem ToWorker.FromPort.fits {message : ToWorker} (fromPort : message.FromPort) : message.Fits := by
  rcases fromPort with plain | ⟨call, handle, accepted⟩
  · cases message with
    | subscribeEvents | shutdown => trivial
    | readReg | readRegs | writeRegs | readMem | writeMem => cases plain
  · cases call with
    | readRegister addr =>
      cases accepted
      exact addr.toNat_lt
    | readRegisters addrs =>
      cases accepted
      intro addr present
      obtain ⟨word, _, rfl⟩ := List.mem_map.mp present
      exact word.toNat_lt
    | writeRegister addr value =>
      cases accepted
      intro pair present
      cases List.mem_singleton.mp present
      exact ⟨addr.toNat_lt, value.toNat_lt⟩
    | writeRegisters pairs =>
      cases accepted
      intro pair present
      obtain ⟨words, _, rfl⟩ := List.mem_map.mp present
      exact ⟨words.1.toNat_lt, words.2.toNat_lt⟩
    | readMemory addr len =>
      rw [PortCall.message] at accepted
      split at accepted
      · cases accepted
      · rename_i aligned
        cases accepted
        exact ⟨addr.toNat_lt, not_not.mp aligned⟩
    | writeMemory addr data =>
      rw [PortCall.message] at accepted
      split at accepted
      · cases accepted
      · rename_i aligned
        cases accepted
        exact ⟨not_not.mp (not_or.mp aligned).1, not_not.mp (not_or.mp aligned).2⟩

/-- The command an operation sends next. -/
inductive Next (concatenation : Bool) : Op → PendingSend → Command → Prop where
  | registers {op : Op} {addrs : List Nat} : Next concatenation op (.readRegs addrs) (.readReg addrs)
  | readRegs {handle : Nat} {addrs acc : List Nat} :
      Next concatenation (.readRegs handle addrs acc) .readRegsChunk
        (.readReg ((addrs.drop acc.length).take (regsPerCommand concatenation (addrs.length - acc.length))))
  | writeRegs {handle completed : Nat} {pairs : List (Nat × Nat)} :
      Next concatenation (.writeRegs handle pairs completed) .writeRegsChunk
        (.writeReg ((pairs.drop completed).take (regsPerCommand concatenation (pairs.length - completed))))
  | readMem {handle want nextAddr : Nat} {acc : List UInt8} :
      Next concatenation (.readMem handle acc want nextAddr) .readMemChunk
        (.readMem nextAddr (chunkLen (nextMultipleOfFour (want - acc.length))))
  | writeMem {handle offset baseAddr : Nat} {data : List UInt8} :
      Next concatenation (.writeMem handle data offset baseAddr) .writeMemChunk
        (.writeMem ((baseAddr + offset) % 2 ^ 32) ((data.drop offset).take (chunkLen (data.length - offset))))

theorem encodeOp_next {concatenation : Bool} {id : Nat} {op : Op} {send : PendingSend} {datagram : List UInt8}
    (encodes : encodeOp concatenation id op send = .ok (some datagram)) :
    ∃ command, Next concatenation op send command ∧ datagram = command.encode id := by
  unfold encodeOp at encodes
  split at encodes
  · cases encodes
    exact ⟨_, .registers, encodeReadReg_eq⟩
  · obtain ⟨remaining, difference, encodes⟩ := Checked.bind_eq_ok encodes
    obtain ⟨within, rfl⟩ := Checked.sub_eq_ok difference
    simp only [Checked.chunk_ok within (regsPerCommand_le _ _), Checked.ok_bind] at encodes
    cases encodes
    exact ⟨_, .readRegs, encodeReadReg_eq⟩
  · obtain ⟨remaining, difference, encodes⟩ := Checked.bind_eq_ok encodes
    obtain ⟨within, rfl⟩ := Checked.sub_eq_ok difference
    simp only [Checked.chunk_ok within (regsPerCommand_le _ _), Checked.ok_bind] at encodes
    cases encodes
    exact ⟨_, .writeRegs, encodeWriteReg_eq⟩
  · obtain ⟨remaining, difference, encodes⟩ := Checked.bind_eq_ok encodes
    obtain ⟨within, rfl⟩ := Checked.sub_eq_ok difference
    cases encodes
    exact ⟨_, .readMem, encodeReadMem_eq ..⟩
  · obtain ⟨remaining, difference, encodes⟩ := Checked.bind_eq_ok encodes
    obtain ⟨within, rfl⟩ := Checked.sub_eq_ok difference
    simp only [Checked.chunk_ok within (chunkLen_le _), Checked.ok_bind] at encodes
    cases encodes
    exact ⟨_, .writeMem, encodeWriteMem_eq ..⟩
  · cases encodes

/-- What the operation's next command carries can be sent. An address that
depends on the device's answers is only aligned as long as they come in
words. -/
def Op.Fits (inWords : Prop) : Op → Prop
  | readReg _ | heartbeat => True
  | readRegs _ addrs _ => ∀ addr ∈ addrs, addr < 2 ^ 32
  | writeRegs _ pairs _ => ∀ pair ∈ pairs, pair.1 < 2 ^ 32 ∧ pair.2 < 2 ^ 32
  | readMem _ _ _ nextAddr => nextAddr < 2 ^ 32 ∧ (inWords → nextAddr % 4 = 0)
  | writeMem _ data offset baseAddr => baseAddr % 4 = 0 ∧ data.length % 4 = 0 ∧ offset % 4 = 0

def PendingSend.Fits : PendingSend → Prop
  | readRegs addrs => addrs.length ≤ 1 ∧ ∀ addr ∈ addrs, addr < 2 ^ 32
  | _ => True

/-- Bytes of operands a register operation has left to send. -/
def Op.registersLeft : Op → Nat
  | readRegs _ addrs acc => 4 * (addrs.length - acc.length)
  | writeRegs _ pairs completed => 8 * (pairs.length - completed)
  | _ => 0

section Next

variable {inWords : Prop} {concatenation : Bool} {op : Op} {send : PendingSend} {command : Command}

theorem chunkLen_mod_four {remaining : Nat} (inFours : remaining % 4 = 0) : chunkLen remaining % 4 = 0 := by
  rw [chunkLen, dataSizeMax]
  omega

theorem Next.inRange (next : Next concatenation op send command) (opFits : op.Fits inWords) (sendFits : send.Fits) :
    command.InRange := by
  cases next with
  | registers => exact sendFits.2
  | readRegs => exact fun addr present => opFits addr (List.mem_of_mem_drop (List.mem_of_mem_take present))
  | writeRegs => exact fun pair present => opFits pair (List.mem_of_mem_drop (List.mem_of_mem_take present))
  | readMem => exact ⟨opFits.1, (min_le_right _ _).trans_lt (by decide)⟩
  | writeMem => exact Nat.mod_lt _ (by decide)

theorem Next.chunked (next : Next concatenation op send command) (opFits : op.Fits inWords) : command.Chunked := by
  cases next with
  | registers | readRegs | writeRegs => trivial
  | readMem => exact ⟨min_le_right .., chunkLen_mod_four (by rw [nextMultipleOfFour]; omega)⟩
  | @writeMem handle offset baseAddr data =>
    have length : ((data.drop offset).take (chunkLen (data.length - offset))).length =
        chunkLen (data.length - offset) := by
      rw [List.length_take, List.length_drop]
      exact min_eq_left (chunkLen_le _)
    have inFours : (data.length - offset) % 4 = 0 := by
      have := opFits.2
      omega
    rw [Command.Chunked, length]
    exact ⟨min_le_right .., chunkLen_mod_four inFours⟩

theorem Next.aligned (next : Next concatenation op send command) (opFits : op.Fits inWords) (answered : inWords) :
    command.Aligned := by
  cases next with
  | registers | readRegs | writeRegs => trivial
  | readMem => exact opFits.2 answered
  | @writeMem handle offset baseAddr data =>
    have inFours : (baseAddr + offset) % 4 = 0 := by
      have := opFits
      simp only [Op.Fits] at this
      omega
    exact (Nat.mod_mod_of_dvd _ (by decide)).trans inFours

theorem regsPerCommand_bytes {size remaining : Nat} (few : size ≤ 0xffff)
    (short : concatenation = true → size * remaining ≤ 0xffff) :
    size * regsPerCommand concatenation remaining ≤ 0xffff := by
  cases concatenation with
  | true => exact short rfl
  | false => exact (Nat.mul_le_mul_left size (min_le_right _ 1)).trans ((Nat.mul_one size).trans_le few)

theorem Next.asserted (next : Next concatenation op send command) (opFits : op.Fits inWords) (sendFits : send.Fits)
    (short : concatenation = true → op.registersLeft ≤ 0xffff) : command.Asserted := by
  have chunked := next.chunked opFits
  cases next with
  | registers =>
    refine ⟨?_, trivial⟩
    have := sendFits.1
    rw [Command.operands, flatMap_beBytes_length]
    omega
  | readRegs =>
    refine ⟨?_, trivial⟩
    rw [Command.operands, flatMap_beBytes_length]
    exact (Nat.mul_le_mul_left 4 (List.length_take_le ..)).trans (regsPerCommand_bytes (by decide) short)
  | writeRegs =>
    refine ⟨?_, trivial⟩
    rw [Command.operands, flatMap_pairs, flatMap_beBytes_length, flatMap_pair_length, ← Nat.mul_assoc]
    exact (Nat.mul_le_mul_left 8 (List.length_take_le ..)).trans (regsPerCommand_bytes (by decide) short)
  | readMem =>
    refine ⟨?_, trivial⟩
    rw [Command.operands, List.length_append, beBytes_length, beBytes_length]
    decide
  | writeMem =>
    refine ⟨?_, chunked⟩
    have := chunked.1
    rw [Command.operands, List.length_append, beBytes_length]
    rw [dataSizeMax] at this
    omega

/-- The datagram is read back as the command that was encoded. -/
structure Spelled (id : Nat) (command : Command) (datagram : List UInt8) : Prop where
  parsed : Cmd.parse datagram =
    some { flags := flagAckRequired, command := command.code, reqId := id, payload := command.operands }
  complete : ∀ cmd, Cmd.parse datagram = some cmd → Command.ofCmd cmd = some command
  declared : datagram.length = headerLen + command.operands.length
  asserted : command.Asserted
  chunked : command.Chunked

theorem nextId_lt (id : Nat) : nextId id < 2 ^ 16 := by
  rw [nextId]
  split <;> omega

theorem Next.spelled {id : Nat} (next : Next concatenation op send command) (opFits : op.Fits inWords)
    (sendFits : send.Fits) (short : concatenation = true → op.registersLeft ≤ 0xffff) (inRange : id < 2 ^ 16) :
    Spelled id command (command.encode id) := by
  have asserted := next.asserted opFits sendFits short
  have parsed := Command.parse_encode asserted.1 inRange
  refine ⟨parsed, ?_, ?_, asserted, next.chunked opFits⟩
  · intro cmd parses
    cases parses.symm.trans parsed
    exact Command.ofCmd_operands (next.inRange opFits sendFits) _ _
  · rw [Command.encode, List.length_append]
    rfl

end Next

end Telegenic.Control
