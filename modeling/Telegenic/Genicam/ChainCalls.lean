import Telegenic.Genicam.Chains

/-! Calls on the nodes of a chain, in any order: the register behind it keeps a
sound cache, and a value set through any node is read back through every one. -/

set_option autoImplicit false

namespace Telegenic.Genicam

open Library

section Reads

variable {P : Platform} {n : Nat} {description : Description P n} {last : Fin n} (register : IntRegister description last)
  (size : Nat)

def IntRegister.soundly : Comparison P n (List UInt8) where
  backing s t := s = t ∧ register.Sound size s
  byName := description.byName
  refs := description.Refers
  fits _ _ := True
  clean := False

variable {register} {size} {stack : List (Fin n)} {first second : Calls P n (List UInt8)} {id : Fin n}

theorem soundly_steady : (register.soundly size).Steady where
  description := fun ⟨same, _⟩ => congrArg Backing.description same
  byName := fun ⟨_, sound⟩ => congrArg Description.byName sound.description
  targets := fun ⟨_, sound⟩ id target named => by
    rw [sound.description] at named
    exact named
  dropped := fun ⟨same, sound⟩ => by
    subst same
    exact ⟨rfl, sound.description, sound.size, fun _ held => by rw [Backing.cached, ite_self] at held; nomatch held⟩

theorem cached_soundly :
    (register.soundly size).Alike stack (fun _ => True) (.read fun w => w.backing.cached id)
      (.read fun w => w.backing.cached id) :=
  Coupled.read fun _ _ between => ⟨congrArg (Backing.cached · id) between.backing.1, trivial⟩

theorem onPort_soundly (address length : Nat) :
    (register.soundly size).Alike stack (fun _ => True) (onPort (mockPort.read address length))
      (onPort (mockPort.read address length)) := by
  intro s t between
  obtain ⟨same, sound⟩ := between.backing
  simp only [onPort, ← same, mockPort_read]
  cases load? s.backing.port address length with
  | some bytes => exact .ok trivial ⟨⟨rfl, sound⟩, between.first, between.second⟩
  | none => exact .error ⟨⟨rfl, sound⟩, between.first, between.second, fun _ => rfl⟩

theorem IntRegister.Sound.remember {s : Backing P n (List UInt8)} (sound : register.Sound size s) (other : last ≠ id)
    (bytes : List UInt8) : register.Sound size (s.remember id bytes) := by
  unfold Backing.remember
  split
  · exact sound
  · refine ⟨sound.description, sound.size, fun cached held => sound.valid cached ?_⟩
    simpa only [Backing.cached, Function.update_of_ne other] using held

theorem reads_soundly (nested : (register.soundly size).Reading stack first second id) :
    (register.soundly size).Alike stack (fun bytes => ∀ written : List UInt8, written.length = bytes.length → True)
      (registerRead mockPort first id) (registerRead mockPort second id) := by
  by_cases own : last = id
  · subst own
    intro s t between
    obtain ⟨same, sound⟩ := between.backing
    rw [registerRead_integer register first s sound.description,
      registerRead_integer register second t (same ▸ sound.description), ← same]
    cases s.backing.current last register.address register.length with
    | none => exact .error ⟨⟨rfl, sound.warmed⟩, between.first, between.second, nofun⟩
    | some bytes => exact .ok (fun _ _ => trivial) ⟨⟨rfl, sound.warmed⟩, between.first, between.second⟩
  · refine (Comparison.nodeAt_alike soundly_steady).bind fun node known => ?_
    cases node with
    | register common kind =>
      simp only
      split
      · exact Comparison.refuse_alike soundly_steady fun _ => rfl
      · refine cached_soundly.bind fun cached _ => ?_
        cases cached with
        | some bytes => exact .pure fun _ _ => trivial
        | none =>
          refine Comparison.Alike.bind (Comparison.registerAddress_alike soundly_steady nested) fun place _ => ?_
          refine (onPort_soundly _ _).bind fun bytes _ => ?_
          refine Coupled.bind (Coupled.modify fun s t between => ?_) fun _ _ => .pure fun _ _ => trivial
          obtain ⟨same, sound⟩ := between.backing
          exact { between with backing := ⟨congrArg (Backing.remember id bytes) same, sound.remember own bytes⟩ }
    | category | integer | float | boolean | stringFeat | enumeration | command | converter | swissKnife | port =>
      exact Comparison.refuse_alike soundly_steady fun _ => rfl

theorem soundly_readable : (register.soundly size).Readable mockPort where
  toSteady := soundly_steady
  lengths := fun nested known =>
    (Comparison.registerLength_alike soundly_steady
      (List.forall_mem_append.mp (nested.targets soundly_steady known)).2).weaken fun _ _ _ _ => trivial
  reads := reads_soundly

end Reads

/-! ## Runs -/

section Runs

variable {P : Platform} {n : Nat} {description : Description P n} {last : Fin n} (register : IntRegister description last)
  (size : Nat)

structure IntRegister.Rests (w : World P n (List UInt8)) : Prop where
  visit : w.visit = []
  sound : register.Sound size w.backing

variable {register} {size} {w : World P n (List UInt8)} {id : Fin n} {links : Nat}

theorem IntRegister.Rests.build (cachable : Fin n → Cachable) (memory : List UInt8) :
    register.Rests memory.length (description.build cachable memory) :=
  ⟨rfl, rfl, rfl, fun _ held => by
    rw [Description.cached_build] at held
    nomatch held⟩

theorem IntRegister.Rests.idle (rests : register.Rests size w) : Idle description w where
  visit := rests.visit
  shaped := by
    rw [rests.sound.description]
    exact .refl description

theorem IntRegister.Rests.warmed (rests : register.Rests size w) :
    register.Rests size { w with backing := w.backing.warmed last register.address register.length } :=
  ⟨rests.visit, rests.sound.warmed⟩

theorem IntRegister.Rests.assign (rests : register.Rests size w) (v : Int64) :
    register.Rests size { w with backing := (register.assign v w.backing).2 } :=
  ⟨rests.visit, rests.sound.assign v⟩

theorem IntRegister.Rests.below (rests : register.Rests size w) : Below description last links w.visit := by
  rw [rests.visit]
  exact nofun

theorem IntRegister.Rests.read (rests : register.Rests size w) {call : Call P n} (reads : call.written = none) :
    register.Rests size (perform mockPort call w).2 := by
  have outcome := Comparison.performWithin_reads (C := register.soundly size) (Nat.lt_succ_self (n + 1))
    (Nat.le_succ (n + 2)) nofun soundly_readable reads w w ⟨⟨rfl, rests.sound⟩, rests.visit, rests.visit⟩
  show register.Rests size (performWithin mockPort (n + 2) call w).2
  generalize performWithin mockPort (n + 2) call w = left at outcome ⊢
  generalize performWithin mockPort (n + 2 + 1) call w = right at outcome
  cases outcome with
  | ok _ related => exact ⟨related.first, related.backing.2⟩
  | @error stop _ _ related =>
    refine ⟨related.first.trans ?_, related.backing.2⟩
    cases stop <;> simp [Stop.unwound]

theorem IntRegister.Rests.setIntValue (rests : register.Rests size w) (chain : Chain description last links id) (v : Int64)
    (room : Nat) : register.Rests size ((calls mockPort (room + links + 1)).setIntValue id v w).2 := by
  rw [chain.setIntValue register v rests.sound.description rests.below]
  exact rests.assign v

theorem IntRegister.Rests.setEnumEntry (rests : register.Rests size w) (chain : Chain description last links id)
    (entry : String) (room : Nat) :
    register.Rests size (Genicam.setEnumEntry (calls mockPort (room + links + 1)) id entry w).2 := by
  simp only [Genicam.setEnumEntry, Stateful.bind_apply, nodeAt, Stateful.read]
  cases w.backing.description.node id with
  | enumeration value entries =>
    simp only
    cases entries.find? fun known => known.1 == entry with
    | some found => exact rests.setIntValue chain found.2 room
    | none => exact rests
  | category | integer | float | boolean | stringFeat | command | register | converter | swissKnife | port => exact rests

theorem IntRegister.Rests.setFloatValue (rests : register.Rests size w) (chain : Chain description last links id)
    (v : P.Float) (room : Nat) : register.Rests size ((calls mockPort (room + links + 1)).setFloatValue id v w).2 := by
  have fresh := rests.below.fresh register chain
  have kind := chain.inChain register
  rw [← rests.sound.description] at kind
  have asInt := rests.setIntValue chain (P.round v) room
  simp only [calls] at asInt ⊢
  rw [visiting_apply fresh] at asInt ⊢
  simp only [setFloatValueInner, Stateful.bind_apply, nodeAt, Stateful.read]
  cases node : w.backing.description.node id <;> rw [node] at kind <;> cases kind
  case integer => exact asInt
  case boolean | enumeration | register => exact rests

theorem IntRegister.Rests.write (rests : register.Rests size w) (chain : Chain description last links id) {call : Call P n}
    (writes : call.written = some id) : register.Rests size (performWithin mockPort (n + 1 + links + 1) call w).2 := by
  have kind := chain.inChain register
  rw [← rests.sound.description] at kind
  cases call <;> cases writes <;> rw [performWithin, Stateful.map_run]
  case setIntValue v => exact rests.setIntValue chain v (n + 1)
  case setFloatValue v => exact rests.setFloatValue chain v (n + 1)
  case setEnumEntry entry => exact rests.setEnumEntry chain entry (n + 1)
  case setStringValue text =>
    have entry := rests.setEnumEntry chain text n
    simp only [setStringValue, Stateful.bind_apply, nodeAt, Stateful.read]
    cases node : w.backing.description.node id <;> rw [node] at kind <;> cases kind
    case enumeration =>
      rw [Nat.add_right_comm n 1 links]
      exact entry
    case integer | boolean | register => exact rests
  case setBoolValue v =>
    simp only [setBoolValue, Stateful.bind_apply, nodeAt, Stateful.read]
    cases node : w.backing.description.node id <;> rw [node] at kind <;> cases kind
    case boolean onValue offValue => exact rests.setIntValue chain _ (n + 1)
    case integer | enumeration | register => exact rests.setIntValue chain _ (n + 1)
  case execute =>
    simp only [execute, Stateful.bind_apply, nodeAt, Stateful.read]
    cases node : w.backing.description.node id <;> rw [node] at kind <;> cases kind <;> exact rests

def OnChain (description : Description P n) (last : Fin n) (call : Call P n) : Prop :=
  ∃ id links, call.node = some id ∧ Chain description last links id

theorem IntRegister.Rests.perform (rests : register.Rests size w) {call : Call P n} (onChain : OnChain description last call) :
    register.Rests size (Genicam.perform mockPort call w).2 := by
  obtain ⟨id, links, about, chain⟩ := onChain
  cases writes : call.written with
  | none => exact rests.read writes
  | some target =>
    cases (Call.written_node writes).symm.trans about
    have room : n + 2 + links = n + 1 + links + 1 := by omega
    rw [← rests.idle.performWithin_eq mockPort call links, room]
    exact rests.write chain writes

theorem IntRegister.Rests.performAll (calls : List (Call P n)) :
    ∀ {w : World P n (List UInt8)}, (∀ call ∈ calls, OnChain description last call) → register.Rests size w →
      register.Rests size (Genicam.performAll mockPort calls w) := by
  induction calls with
  | nil => exact fun _ rests => rests
  | cons call rest ih =>
    intro w onChain rests
    rw [List.forall_mem_cons] at onChain
    exact ih onChain.2 (rests.perform onChain.1)

theorem IntRegister.Sound.reply_warmed {s : Backing P n (List UInt8)} (sound : register.Sound size s) :
    register.reply (s.warmed last register.address register.length) = register.reply s := by
  unfold IntRegister.reply
  rw [sound.current, sound.warmed.current, Backing.warmed_port]

theorem IntRegister.Rests.intValue (rests : register.Rests size w) (chain : Chain description last links id) :
    Genicam.perform mockPort (.intValue id) w =
      ((register.reply w.backing).map .int,
        { w with backing := w.backing.warmed last register.address register.length }) := by
  have room : n + 2 + links = n + 1 + links + 1 := by omega
  rw [← rests.idle.performWithin_eq mockPort _ links, room, performWithin, Stateful.map_run,
    chain.intValue register rests.sound.description rests.below]

theorem IntRegister.Rests.intValue_of_reply (rests : register.Rests size w) {v : Int64}
    (reply : register.reply w.backing = .ok v) : (Genicam.perform mockPort (.intValue last) w).1 = .ok (.int v) := by
  rw [rests.intValue .last, reply]
  rfl

theorem IntRegister.Rests.replies {v : Int64} (reads : List (Fin n)) :
    ∀ {w : World P n (List UInt8)}, (∀ id ∈ reads, ∃ links, Chain description last links id) → register.Rests size w →
      register.reply w.backing = .ok v →
      Genicam.replies mockPort (reads.map .intValue) w = reads.map fun _ => .ok (.int v) := by
  induction reads with
  | nil => exact fun _ _ _ => rfl
  | cons id reads ih =>
    intro w chained rests reply
    rw [List.forall_mem_cons] at chained
    obtain ⟨⟨links, chain⟩, chained⟩ := chained
    have held := rests.intValue chain
    have after := ih (w := { w with backing := w.backing.warmed last register.address register.length }) chained
      rests.warmed (rests.sound.reply_warmed.trans reply)
    rw [List.map_cons, List.map_cons, Genicam.replies, held, reply, after]
    rfl

end Runs

/-- After any calls on nodes of the chain, a value the field can hold is set
through any of them, read back through all of them, and nothing else in the
device's memory changes. -/
theorem chain_set_then_get {P : Platform} {n : Nat} (description : Description P n) (last : Fin n)
    (register : IntRegister description last) (field : register.Field) (cachable : Fin n → Cachable) (memory : List UInt8)
    (inside : register.address + register.length ≤ memory.length) (calls : List (Call P n))
    (onChain : ∀ call ∈ calls, OnChain description last call) (head : Fin n) (links : Nat)
    (chain : Chain description last links head) (v : Int64)
    (represents : Represents register.sign (field.high - field.low + 1) v) :
    ∃ after, perform mockPort (.setIntValue head v) (performAll mockPort calls (description.build cachable memory)) =
        (.ok .done, after) ∧
      (∀ reads : List (Fin n), (∀ id ∈ reads, ∃ links, Chain description last links id) →
        replies mockPort (reads.map .intValue) after = reads.map fun _ => .ok (.int v)) ∧
      (∀ k < 8 * register.length, ¬ (field.low ≤ k ∧ k ≤ field.high) →
        bitAt after.backing.port (8 * register.address + position register.length register.endianness k) =
          bitAt (performAll mockPort calls (description.build cachable memory)).backing.port
            (8 * register.address + position register.length register.endianness k)) ∧
      ∀ index, index < register.address ∨ register.address + register.length ≤ index →
        after.backing.port[index]? = (performAll mockPort calls (description.build cachable memory)).backing.port[index]? := by
  have start : register.Rests memory.length (description.build cachable memory) := .build cachable memory
  have rests := start.performAll calls onChain
  generalize performAll mockPort calls (description.build cachable memory) = w at rests ⊢
  obtain ⟨bytes, memory', sized, stored, accepted, port, bits⟩ := register.assign_spec rests.sound field inside v
  have reply := register.reply_assign rests.sound field inside (represents.extends (Nat.succ_pos _))
  refine ⟨{ w with backing := (register.assign v w.backing).2 }, ?_, fun reads chained => ?_, fun k within outside => ?_,
    fun index outside => ?_⟩
  · have room : n + 2 + links = n + 1 + links + 1 := by omega
    rw [← rests.idle.performWithin_eq mockPort _ links, room, performWithin, Stateful.map_run,
      chain.setIntValue register v rests.sound.description rests.below, accepted]
    rfl
  · exact IntRegister.Rests.replies reads chained (rests.assign v) reply
  · simp only [port]
    rw [bitAt_store? stored (by rw [sized]; exact position_lt _ within), bits k within, if_neg outside]
  · simp only [port]
    exact store?_outside stored (by rw [sized]; exact outside)

/-- An Enumeration over an Integer whose constant index picks a field of a
register. -/
def chainGraph : Description plainPlatform 4 where
  name id := ["Mode", "ModeValue", "ModeReg", "ModeIndex"].getD id ""
  node id :=
    [.enumeration (.direct (.link (.id 1))) [("Off", 0), ("On", 9)],
      .integer (.indexed ⟨.id 3, [(7, .link (.id 2))], .none⟩) (.direct .none) (.direct .none) (.direct .none),
      .register { addressTerms := [.direct (.litInt 1)], length := .direct (.litInt 2), access := .RW }
        (.int .signed .big (some 4) (some 0)),
      .integer (.direct (.litInt 7)) (.direct .none) (.direct .none) (.direct .none)].getD id .port
  byName name := ["Mode", "ModeValue", "ModeReg", "ModeIndex"].findFinIdx? (· == name)
  invalidates _ := []

def chainRegister : IntRegister chainGraph 2 where
  common := { addressTerms := [.direct (.litInt 1)], length := .direct (.litInt 2), access := .RW }
  sign := .signed
  endianness := .big
  lsb := some 4
  msb := some 0
  address := 1
  length := 2
  found := rfl
  plain := ⟨fun term listed => by rw [List.mem_singleton.mp listed]; rfl, rfl⟩
  access := rfl
  placed := rfl

theorem chainGraph_value : Chain chainGraph 2 1 1 := .feature rfl (.indexed rfl rfl rfl) .last

theorem chainGraph_mode : Chain chainGraph 2 2 0 := .feature rfl .link chainGraph_value

theorem chain_set_then_get_chainGraph :
    ∃ after, perform mockPort (.setIntValue 0 9)
        (performAll mockPort [.setEnumEntry 0 "On", .intValue 1] (chainGraph.build (fun _ => .writeThrough) [1, 2, 3, 4])) =
        (.ok .done, after) ∧
      replies mockPort [.intValue 0, .intValue 1, .intValue 2] after = [.ok (.int 9), .ok (.int 9), .ok (.int 9)] := by
  have onChain : ∀ call ∈ [Call.setEnumEntry 0 "On", .intValue 1], OnChain chainGraph 2 call := by
    simp only [List.forall_mem_cons]
    exact ⟨⟨0, 2, rfl, chainGraph_mode⟩, ⟨1, 1, rfl, chainGraph_value⟩, nofun⟩
  have chained : ∀ id ∈ [(0 : Fin 4), 1, 2], ∃ links, Chain chainGraph 2 links id := by
    simp only [List.forall_mem_cons]
    exact ⟨⟨2, chainGraph_mode⟩, ⟨1, chainGraph_value⟩, ⟨0, .last⟩, nofun⟩
  obtain ⟨after, ran, reads, -⟩ := chain_set_then_get chainGraph 2 chainRegister ⟨11, 15, by decide, rfl⟩
    (fun _ => .writeThrough) [1, 2, 3, 4] (by decide) _ onChain 0 2 chainGraph_mode 9 ⟨by decide, by decide⟩
  exact ⟨after, ran, reads _ chained⟩

end Telegenic.Genicam
