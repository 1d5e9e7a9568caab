import Telegenic.Proto.Gvcp

/-! The commands of the control channel as a device reads them, and that the
encoders' datagrams spell them. -/

set_option autoImplicit false

namespace Telegenic.Proto.Gvcp

open Library

/-- A request for the device's registers or memory. -/
inductive Command where
  | readReg (addrs : List Nat)
  | writeReg (pairs : List (Nat × Nat))
  | readMem (addr count : Nat)
  | writeMem (addr : Nat) (data : List UInt8)
  deriving DecidableEq, Repr

def wordPairs : List Nat → List (Nat × Nat)
  | first :: second :: rest => (first, second) :: wordPairs rest
  | _ => []

namespace Command

def code : Command → Nat
  | readReg _ => readRegisterCmd
  | writeReg _ => writeRegisterCmd
  | readMem _ _ => readMemoryCmd
  | writeMem _ _ => writeMemoryCmd

def operands : Command → List UInt8
  | readReg addrs => addrs.flatMap (beBytes 4)
  | writeReg pairs => pairs.flatMap fun pair => beBytes 4 pair.1 ++ beBytes 4 pair.2
  | readMem addr count => beBytes 4 addr ++ beBytes 4 count
  | writeMem addr data => beBytes 4 addr ++ data

def encode (id : Nat) (command : Command) : List UInt8 :=
  header command.code flagAckRequired command.operands.length id ++ command.operands

def ofCmd (cmd : Cmd) : Option Command :=
  if cmd.command = readRegisterCmd then
    some (readReg (words cmd.payload))
  else if cmd.command = writeRegisterCmd then
    some (writeReg (wordPairs (words cmd.payload)))
  else if cmd.command = readMemoryCmd then
    match words cmd.payload with
    | [addr, count] => some (readMem addr count)
    | _ => none
  else if cmd.command = writeMemoryCmd then
    match words (cmd.payload.take 4) with
    | [addr] => some (writeMem addr (cmd.payload.drop 4))
    | _ => none
  else
    none

def InRange : Command → Prop
  | readReg addrs => ∀ addr ∈ addrs, addr < 2 ^ 32
  | writeReg pairs => ∀ pair ∈ pairs, pair.1 < 2 ^ 32 ∧ pair.2 < 2 ^ 32
  | readMem addr count => addr < 2 ^ 32 ∧ count < 2 ^ 32
  | writeMem addr _ => addr < 2 ^ 32

/-- What the encoders assert. -/
def Asserted (command : Command) : Prop :=
  command.operands.length ≤ 0xffff ∧
    match command with
    | writeMem _ data => data.length ≤ dataSizeMax ∧ data.length % 4 = 0
    | _ => True

def Chunked : Command → Prop
  | readMem _ count => count ≤ dataSizeMax ∧ count % 4 = 0
  | writeMem _ data => data.length ≤ dataSizeMax ∧ data.length % 4 = 0
  | _ => True

def Aligned : Command → Prop
  | readMem addr _ | writeMem addr _ => addr % 4 = 0
  | _ => True

end Command

section Operands

variable {addrs : List Nat} {pairs : List (Nat × Nat)} {id : Nat}

theorem flatMap_beBytes_length (addrs : List Nat) : (addrs.flatMap (beBytes 4)).length = 4 * addrs.length := by
  induction addrs with
  | nil => rfl
  | cons addr rest ih =>
    rw [List.flatMap_cons, List.length_append, beBytes_length, ih, List.length_cons]
    ring

theorem flatMap_pairs (pairs : List (Nat × Nat)) :
    (pairs.flatMap fun pair => beBytes 4 pair.1 ++ beBytes 4 pair.2) =
      (pairs.flatMap fun pair => [pair.1, pair.2]).flatMap (beBytes 4) := by
  rw [List.flatMap_assoc]
  rfl

theorem flatMap_pair_length (pairs : List (Nat × Nat)) :
    (pairs.flatMap fun pair => [pair.1, pair.2]).length = 2 * pairs.length := by
  induction pairs with
  | nil => rfl
  | cons pair rest ih =>
    rw [List.flatMap_cons, List.length_append, ih, List.length_cons]
    exact Nat.add_comm ..

theorem encodeReadReg_eq : encodeReadReg addrs id = (Command.readReg addrs).encode id := by
  rw [encodeReadReg, Command.encode, Command.operands, flatMap_beBytes_length]
  rfl

theorem encodeWriteReg_eq : encodeWriteReg pairs id = (Command.writeReg pairs).encode id := by
  rw [encodeWriteReg, Command.encode, Command.operands, flatMap_pairs, flatMap_beBytes_length, flatMap_pair_length,
    ← Nat.mul_assoc]
  rfl

theorem encodeReadMem_eq (addr count : Nat) : encodeReadMem addr count id = (Command.readMem addr count).encode id := by
  rw [encodeReadMem, List.append_assoc]
  rfl

theorem encodeWriteMem_eq (addr : Nat) (data : List UInt8) :
    encodeWriteMem addr data id = (Command.writeMem addr data).encode id := by
  rw [encodeWriteMem, Command.encode, Command.operands, List.length_append, beBytes_length, List.append_assoc]
  rfl

theorem words_append {addr : Nat} (inRange : addr < 2 ^ 32) (rest : List UInt8) :
    words (beBytes 4 addr ++ rest) = addr :: words rest := by
  have whole : beNat (beBytes 4 addr) = addr := (beNat_beBytes 4 addr).trans (Nat.mod_eq_of_lt inRange)
  exact congrArg (· :: words rest) whole

theorem words_flatMap (inRange : ∀ addr ∈ addrs, addr < 2 ^ 32) : words (addrs.flatMap (beBytes 4)) = addrs := by
  induction addrs with
  | nil => rfl
  | cons addr rest ih =>
    rw [List.flatMap_cons, words_append (inRange addr List.mem_cons_self),
      ih fun other present => inRange other (List.mem_cons_of_mem _ present)]

theorem wordPairs_flatMap (pairs : List (Nat × Nat)) :
    wordPairs (pairs.flatMap fun pair => [pair.1, pair.2]) = pairs := by
  induction pairs with
  | nil => rfl
  | cons pair rest ih => exact congrArg (pair :: ·) ih

end Operands

theorem Cmd.parse_header (command flags length id : Nat) (rest : List UInt8) :
    Cmd.parse (header command flags length id ++ rest) =
      (slice? rest 0 (length % 2 ^ 16)).map fun payload =>
        { flags := flags % 2 ^ 8, command := command % 2 ^ 16, reqId := id % 2 ^ 16, payload } := by
  have layout : header command flags length id ++ rest = beBytes 1 packetTypeCmd.toNat ++ (beBytes 1 flags ++
      (beBytes 2 command ++ (beBytes 2 length ++ (beBytes 2 id ++ rest)))) := by
    simp [header, beBytes]
  rw [layout]
  set whole := beBytes 1 packetTypeCmd.toNat ++ (beBytes 1 flags ++
      (beBytes 2 command ++ (beBytes 2 length ++ (beBytes 2 id ++ rest)))) with isWhole
  have packetType : beAt? whole 0 1 = some (packetTypeCmd.toNat % 256 ^ 1) := beAt?_append [] _ rfl
  have isFlags : beAt? whole 1 1 = some (flags % 256 ^ 1) := beAt?_append (beBytes 1 _) _ rfl
  have isCommand : beAt? whole 2 2 = some (command % 256 ^ 2) := beAt?_append (beBytes 1 _ ++ beBytes 1 _) _ rfl
  have isLength : beAt? whole 4 2 = some (length % 256 ^ 2) :=
    beAt?_append (beBytes 1 _ ++ beBytes 1 _ ++ beBytes 2 _) _ rfl
  have isId : beAt? whole 6 2 = some (id % 256 ^ 2) :=
    beAt?_append (beBytes 1 _ ++ beBytes 1 _ ++ beBytes 2 _ ++ beBytes 2 _) _ rfl
  have behind : whole.drop headerLen = rest := rfl
  have isKey : packetTypeCmd.toNat % 256 ^ 1 = packetTypeCmd.toNat := rfl
  simp only [Cmd.parse, packetType, isFlags, isCommand, isLength, isId, behind, isKey, Option.bind_eq_bind,
    Option.bind_some, ne_eq, not_true_eq_false, if_false]
  exact Option.map_eq_bind.symm

theorem Cmd.parse_sized {datagram : List UInt8} {cmd : Cmd} (parsed : Cmd.parse datagram = some cmd) :
    ∃ length, beAt? datagram 4 2 = some length ∧ headerLen + length ≤ datagram.length ∧ cmd.payload.length = length ∧
      cmd.reqId < 2 ^ 16 := by
  simp only [Cmd.parse, Option.bind_eq_bind, Option.bind_eq_some_iff] at parsed
  obtain ⟨_, _, _, _, _, _, length, sized, _, isId, rest⟩ := parsed
  split at rest
  · cases rest
  obtain ⟨payload, sliced, result⟩ := Option.bind_eq_some_iff.mp rest
  cases result
  have behind := (slice?_le sliced).2
  have header := beAt?_le isId
  rw [slice?, if_pos ⟨Nat.zero_le _, behind⟩, Option.some.injEq] at sliced
  rw [List.length_drop, headerLen] at behind
  refine ⟨length, sized, by rw [headerLen]; omega, ?_, beAt?_lt isId⟩
  rw [← sliced, List.length_take, List.drop_zero, List.length_drop, headerLen]
  omega

theorem Cmd.delimits {command flags id : Nat} {payload : List UInt8} (isCommand : command < 2 ^ 16)
    (isFlags : flags < 2 ^ 8) (isId : id < 2 ^ 16) (fits : payload.length ≤ 0xffff) :
    Delimits Cmd.parse (header command flags payload.length id ++ payload)
      { flags, command, reqId := id, payload } := by
  have whole : payload.length % 2 ^ 16 = payload.length := Nat.mod_eq_of_lt (Nat.lt_succ_of_le fits)
  have claims : ∀ {bytes cmd}, Cmd.parse bytes = some cmd →
      ∃ length, beAt? bytes 4 2 = some length ∧ headerLen + length ≤ bytes.length := fun parsed =>
    have ⟨length, read, fits, _⟩ := parse_sized parsed
    ⟨length, read, fits⟩
  refine .of_length claims ?_ fun extra => ?_
  · have layout : header command flags payload.length id ++ payload = [packetTypeCmd, UInt8.ofNat flags] ++
        beBytes 2 command ++ (beBytes 2 payload.length ++ (beBytes 2 id ++ payload)) := by simp [header]
    have length : (header command flags payload.length id ++ payload).length = headerLen + payload.length := by
      rw [layout]
      simp only [List.length_append, List.length_cons, List.length_nil, beBytes_length, headerLen]
      omega
    rw [length, Nat.add_sub_cancel_left, layout]
    exact (beAt?_append _ _ rfl).trans (congrArg some whole)
  · have read : slice? (payload ++ extra) 0 payload.length = some payload :=
      slice?_append (rfl : ([] : List UInt8).length = 0) (Nat.zero_add _)
    rw [List.append_assoc, parse_header, whole, read, Nat.mod_eq_of_lt isCommand, Nat.mod_eq_of_lt isFlags,
      Nat.mod_eq_of_lt isId]
    rfl

namespace Command

theorem code_lt (command : Command) : command.code < 2 ^ 16 := by
  cases command <;> exact Nat.lt_of_sub_pos (Nat.zero_lt_succ _)

theorem parse_encode {command : Command} {id : Nat} (fits : command.operands.length ≤ 0xffff) (inRange : id < 2 ^ 16) :
    Cmd.parse (command.encode id) =
      some { flags := flagAckRequired, command := command.code, reqId := id, payload := command.operands } := by
  have delimits := Cmd.delimits command.code_lt (show flagAckRequired < 2 ^ 8 by decide) inRange fits
  exact (congrArg Cmd.parse (List.append_nil _).symm).trans (delimits.appended [])

theorem ofCmd_operands {command : Command} (inRange : command.InRange) (flags id : Nat) :
    ofCmd { flags, command := command.code, reqId := id, payload := command.operands } = some command := by
  cases command with
  | readReg addrs => exact congrArg (fun read => some (readReg read)) (words_flatMap inRange)
  | writeReg pairs =>
    have typed : ∀ word ∈ pairs.flatMap (fun pair => [pair.1, pair.2]), word < 2 ^ 32 := by
      intro word present
      obtain ⟨pair, isPair, isWord⟩ := List.mem_flatMap.mp present
      rcases List.mem_cons.mp isWord with rfl | isWord
      · exact (inRange pair isPair).1
      · exact List.mem_singleton.mp isWord ▸ (inRange pair isPair).2
    have read : wordPairs (words (writeReg pairs).operands) = pairs := by
      rw [operands, flatMap_pairs, words_flatMap typed, wordPairs_flatMap]
    exact congrArg (fun read => some (writeReg read)) read
  | readMem addr count =>
    have read : words (readMem addr count).operands = [addr, count] := by
      rw [operands, words_append inRange.1, ← List.append_nil (beBytes 4 count), words_append inRange.2]
      rfl
    simp only [ofCmd, read]
    rfl
  | writeMem addr data =>
    have first : (writeMem addr data).operands.take 4 = beBytes 4 addr ++ [] := rfl
    simp only [ofCmd, first, words_append inRange]
    rfl

end Command

end Telegenic.Proto.Gvcp
