import Telegenic.Genicam.IntegerRegisters

/-! Chains of Integer, Boolean and Enumeration features that end at an integer
register: every call on a node of the chain is a call on the register. -/

set_option autoImplicit false

namespace Telegenic.Genicam

open Library

section Register

variable {P : Platform} {n : Nat} {description : Description P n} {id : Fin n} (register : IntRegister description id)

def IntRegister.reply (s : Backing P n (List UInt8)) : Except Stop Int64 :=
  match s.current id register.address register.length with
  | none => .error (.error (.camera (mockReadError register.address)))
  | some bytes =>
      (extractInt bytes register.sign register.endianness register.lsb register.msb).mapError fun message =>
        .error (.formula (description.name id) message)

def IntRegister.store (bytes : List UInt8) (s : Backing P n (List UInt8)) : Except Stop Unit × Backing P n (List UInt8) :=
  match store? s.port register.address bytes with
  | none => (.error (.error (.camera (mockWriteError register.address))), s)
  | some after => (.ok (), { s with port := after }.afterWrite id bytes)

def IntRegister.assign (v : Int64) (s : Backing P n (List UInt8)) : Except Stop Unit × Backing P n (List UInt8) :=
  if register.lsb.isSome ∨ register.msb.isSome then
    let warmed := s.warmed id register.address register.length
    match s.current id register.address register.length with
    | none => (.error (.error (.camera (mockReadError register.address))), warmed)
    | some current =>
        match insertInt current v register.endianness register.lsb register.msb with
        | .error message => (.error (.error (.formula (description.name id) message)), warmed)
        | .ok bytes => register.store bytes warmed
  else
    match encodeInt v register.length register.endianness with
    | .error message => (.error (.error (.formula (description.name id) message)), s)
    | .ok bytes => register.store bytes s

variable (nested : Calls P n (List UInt8)) (w : World P n (List UInt8)) (same : w.backing.description = description)

include same

theorem intValueInner_reply :
    intValueInner mockPort nested id w =
      (register.reply w.backing, { w with backing := w.backing.warmed id register.address register.length }) := by
  rw [intValueInner_integer register nested w same, IntRegister.reply, same]
  cases w.backing.current id register.address register.length <;> rfl

theorem registerWrite_store (bytes : List UInt8) :
    registerWrite mockPort nested id bytes w =
      ((register.store bytes w.backing).1, { w with backing := (register.store bytes w.backing).2 }) := by
  rw [registerWrite_integer register nested w same, IntRegister.store]
  cases store? w.backing.port register.address bytes <;> rfl

theorem setIntValueInner_assign (v : Int64) :
    setIntValueInner mockPort nested id v w =
      ((register.assign v w.backing).1, { w with backing := (register.assign v w.backing).2 }) := by
  unfold IntRegister.assign
  split
  case isTrue masked =>
    rw [setIntValueInner_masked register nested w same v masked, same]
    cases w.backing.current id register.address register.length with
    | none => rfl
    | some current =>
      simp only
      cases insertInt current v register.endianness register.lsb register.msb with
      | error message => rfl
      | ok bytes =>
        exact registerWrite_store register nested _ ((Backing.warmed_description ..).trans same) bytes
  case isFalse whole =>
    rw [setIntValueInner_whole register nested w same v whole, same]
    cases encodeInt v register.length register.endianness with
    | error message => rfl
    | ok bytes => exact registerWrite_store register nested w same bytes

theorem IntRegister.intValue (room : Nat) (fresh : id ∉ w.visit) :
    (calls mockPort (room + 1)).intValue id w =
      (register.reply w.backing, { w with backing := w.backing.warmed id register.address register.length }) := by
  show visiting id (intValueInner mockPort (calls mockPort room) id) w = _
  rw [visiting_apply fresh, intValueInner_reply register _ { w with visit := id :: w.visit } same]
  rfl

theorem IntRegister.setIntValue (room : Nat) (fresh : id ∉ w.visit) (v : Int64) :
    (calls mockPort (room + 1)).setIntValue id v w =
      ((register.assign v w.backing).1, { w with backing := (register.assign v w.backing).2 }) := by
  show visiting id (setIntValueInner mockPort (calls mockPort room) id v) w = _
  rw [visiting_apply fresh, setIntValueInner_assign register _ { w with visit := id :: w.visit } same]
  rfl

end Register

/-! ## The register over memory -/

section Sound

variable {P : Platform} {n : Nat} {description : Description P n} {id : Fin n} (register : IntRegister description id)

structure IntRegister.Field where
  low : Nat
  high : Nat
  sized : 1 ≤ register.length ∧ register.length ≤ 8
  ranged : bitRange (8 * register.length) register.lsb register.msb register.endianness = some (low, high)

/-- The description is the one given, and what the register has cached is what
the memory of so many bytes holds. -/
structure IntRegister.Sound (size : Nat) (s : Backing P n (List UInt8)) : Prop where
  description : s.description = description
  size : s.port.length = size
  valid : ∀ bytes, s.cached id = some bytes → load? s.port register.address register.length = some bytes

variable {register} {size : Nat} {s : Backing P n (List UInt8)}

theorem IntRegister.Sound.current (sound : register.Sound size s) :
    s.current id register.address register.length = load? s.port register.address register.length := by
  unfold Backing.current
  cases held : s.cached id with
  | none => rfl
  | some bytes => exact (sound.valid bytes held).symm

theorem IntRegister.Sound.warmed (sound : register.Sound size s) :
    register.Sound size (s.warmed id register.address register.length) where
  description := (Backing.warmed_description ..).trans sound.description
  size := (congrArg List.length (Backing.warmed_port ..)).trans sound.size
  valid bytes held := by
    rw [Backing.warmed_port]
    obtain before | ⟨_, loaded⟩ := Backing.warmed_cached _ _ _ _ _ held
    · exact sound.valid bytes before
    · exact loaded

theorem IntRegister.Sound.stored (sound : register.Sound size s) {bytes after : List UInt8}
    (sized : bytes.length = register.length) (stored : store? s.port register.address bytes = some after) :
    register.Sound size ({ s with port := after }.afterWrite id bytes) where
  description := sound.description
  size := (store?_length stored).trans sound.size
  valid cached held := by
    obtain ⟨_, ⟨_, rfl⟩ | ⟨different, _⟩⟩ := Backing.afterWrite_cached _ _ _ held
    · rw [← sized]
      exact load?_store? stored
    · exact absurd rfl different

theorem IntRegister.Sound.assign (sound : register.Sound size s) (v : Int64) :
    register.Sound size (register.assign v s).2 := by
  have storing : ∀ {t : Backing P n (List UInt8)} {bytes : List UInt8}, register.Sound size t →
      bytes.length = register.length → register.Sound size (register.store bytes t).2 := by
    intro t bytes sound sized
    unfold IntRegister.store
    cases stored : store? t.port register.address bytes with
    | none => exact sound
    | some after => exact sound.stored sized stored
  unfold IntRegister.assign
  split
  · cases read : s.current id register.address register.length with
    | none => exact sound.warmed
    | some current =>
      simp only
      cases inserted : insertInt current v register.endianness register.lsb register.msb with
      | error message => exact sound.warmed
      | ok bytes =>
        refine storing sound.warmed ((insertInt_length inserted).trans ?_)
        exact load?_length (sound.current.symm.trans read)
  · cases encoded : encodeInt v register.length register.endianness with
    | error message => exact sound
    | ok bytes => exact storing sound (encodeInt_length encoded)

theorem IntRegister.assign_spec (sound : register.Sound size s) (field : register.Field)
    (inside : register.address + register.length ≤ size) (v : Int64) :
    ∃ bytes after, bytes.length = register.length ∧ store? s.port register.address bytes = some after ∧
      (register.assign v s).1 = .ok () ∧ (register.assign v s).2.port = after ∧
      ∀ k < 8 * register.length,
        bitAt bytes (position register.length register.endianness k) =
          if field.low ≤ k ∧ k ≤ field.high then v.toBitVec.getLsbD (k - field.low)
          else bitAt s.port (8 * register.address + position register.length register.endianness k) := by
  have storing : ∀ {t : Backing P n (List UInt8)} {bytes : List UInt8}, t.port = s.port → bytes.length = register.length →
      ∃ after, store? s.port register.address bytes = some after ∧
        (register.store bytes t).1 = .ok () ∧ (register.store bytes t).2.port = after := by
    intro t bytes same sized
    have stored : store? s.port register.address bytes = _ := store?_eq_some (by rw [sized, sound.size]; exact inside)
    refine ⟨_, stored, ?_⟩
    simp only [IntRegister.store, same, stored]
    exact ⟨trivial, rfl⟩
  have loaded : load? s.port register.address register.length = _ := load?_eq_some (by rw [sound.size]; exact inside)
  generalize (s.port.drop register.address).take register.length = current at loaded
  have long := load?_length loaded
  unfold IntRegister.assign
  by_cases masked : register.lsb.isSome ∨ register.msb.isSome
  · obtain ⟨bytes, inserted⟩ := insertInt_ok (by rw [long]; exact field.sized) (by rw [long]; exact field.ranged) v
    have sized := (insertInt_length inserted).trans long
    obtain ⟨after, stored, accepted, left⟩ := storing (Backing.warmed_port s id register.address register.length) sized
    refine ⟨bytes, after, sized, stored, ?_⟩
    simp only [if_pos masked, sound.current, loaded, inserted, accepted, left, true_and]
    intro k within
    rw [insertInt_bitAt long inserted field.ranged within, bitAt_load? loaded (position_lt _ within)]
  · obtain ⟨lsb, msb⟩ : register.lsb = none ∧ register.msb = none := by simpa using masked
    have encoded : encodeInt v register.length register.endianness =
        .ok (storeU64 v.toBitVec register.length register.endianness) :=
      if_neg (by have := field.sized; omega)
    have sized := storeU64_length v.toBitVec field.sized.2 register.endianness
    obtain ⟨after, stored, accepted, left⟩ := storing rfl sized
    refine ⟨_, after, sized, stored, ?_⟩
    simp only [if_neg masked, encoded, accepted, left, true_and]
    intro k within
    have ranged := field.ranged
    rw [lsb, msb] at ranged
    have whole : field.low = 0 ∧ field.high = 8 * register.length - 1 := by
      simp only [bitRange, numberedBits] at ranged
      split at ranged
      · exact ⟨(congrArg Prod.fst (Option.some.inj ranged)).symm, (congrArg Prod.snd (Option.some.inj ranged)).symm⟩
      · nomatch ranged
    rw [bitAt_storeU64 _ _ field.sized.2 within, if_pos (by omega), whole.1, Nat.sub_zero]

theorem IntRegister.reply_of_bits (sound : register.Sound size s) (field : register.Field) {bytes : List UInt8} {v : Int64}
    (loaded : load? s.port register.address register.length = some bytes)
    (room : Extends register.sign (field.high - field.low + 1) v)
    (bits : ∀ k, field.low ≤ k → k ≤ field.high →
      bitAt bytes (position register.length register.endianness k) = v.toBitVec.getLsbD (k - field.low)) :
    register.reply s = .ok v := by
  have long := load?_length loaded
  have bounds := bitRange_bounds field.ranged
  have sized := field.sized
  have value : fieldValue (loadU64 bytes register.endianness) register.sign field.low field.high = v.toBitVec := by
    refine fieldValue_of_extends bounds.1 (by omega) room fun k low high => ?_
    rw [loadU64_getLsbD _ _ (by omega) (by omega), long, bits k low high]
  have extracted : extractInt bytes register.sign register.endianness register.lsb register.msb = .ok v := by
    simp only [extractInt, long, field.ranged, value]
    rw [if_neg (by omega)]
    rfl
  simp only [IntRegister.reply, sound.current, loaded, extracted]
  rfl

theorem IntRegister.reply_assign (sound : register.Sound size s) (field : register.Field)
    (inside : register.address + register.length ≤ size) {v : Int64}
    (room : Extends register.sign (field.high - field.low + 1) v) : register.reply (register.assign v s).2 = .ok v := by
  obtain ⟨bytes, memory, sized, stored, _, port, bits⟩ := register.assign_spec sound field inside v
  have loaded : load? (register.assign v s).2.port register.address register.length = some bytes := by
    rw [port, ← sized]
    exact load?_store? stored
  refine register.reply_of_bits (sound.assign v) field loaded room fun k low high => ?_
  rw [bits k (Nat.lt_of_le_of_lt high (bitRange_bounds field.ranged).2), if_pos ⟨low, high⟩]

theorem IntRegister.reply_extends (sound : register.Sound size s) (field : register.Field) {v : Int64}
    (reply : register.reply s = .ok v) : Extends register.sign (field.high - field.low + 1) v := by
  have bounds := bitRange_bounds field.ranged
  have sized := field.sized
  unfold IntRegister.reply at reply
  rw [sound.current] at reply
  cases loaded : load? s.port register.address register.length with
  | none =>
    rw [loaded] at reply
    nomatch reply
  | some bytes =>
    have long := load?_length loaded
    simp only [loaded, extractInt, long, field.ranged] at reply
    rw [if_neg (by omega)] at reply
    cases reply
    exact fieldValue_extends bounds.1 (by omega) _ _

theorem IntRegister.field_of_reply (sound : register.Sound size s) {v : Int64} (reply : register.reply s = .ok v) :
    Nonempty register.Field ∧ register.address + register.length ≤ size := by
  unfold IntRegister.reply at reply
  rw [sound.current] at reply
  cases loaded : load? s.port register.address register.length with
  | none =>
    rw [loaded] at reply
    nomatch reply
  | some bytes =>
    have long := load?_length loaded
    refine ⟨?_, sound.size ▸ load?_inside loaded⟩
    simp only [loaded, extractInt, long] at reply
    split at reply
    · nomatch reply
    · next sized =>
      cases ranged : bitRange (8 * register.length) register.lsb register.msb register.endianness with
      | none =>
        rw [ranged] at reply
        nomatch reply
      | some range => exact ⟨range.1, range.2, by omega, ranged⟩

end Sound

/-! ## Chains -/

section Chains

variable {P : Platform} {n : Nat}

/-- The value is that of the target: a link to it, or an indexed value whose
index is a constant that picks such a link. -/
inductive Leads (description : Description P n) : ValueRef P n → Fin n → Prop where
  | link {target : Fin n} : Leads description (.direct (.link (.id target))) target
  | indexed {ix : Indexed P n} {index target : Fin n} {place : Int64} {min max inc : ValueRef P n}
      (points : ix.index = .id index) (constant : description.node index = .integer (.direct (.litInt place)) min max inc)
      (picks : ix.pick place = .link (.id target)) : Leads description (.indexed ix) target

def Node.feature? : Node P n → Option (ValueRef P n)
  | .integer value .. | .boolean value .. | .enumeration value _ => some value
  | _ => none

theorem intValueInner_feature {σ : Type} {port : PortIo σ} {nested : Calls P n σ} {w : World P n σ} {id : Fin n}
    {value : ValueRef P n} (found : (w.backing.description.node id).feature? = some value) :
    intValueInner port nested id w = refInt nested value w := by
  simp only [intValueInner, Stateful.bind_apply, nodeAt, Stateful.read]
  cases node : w.backing.description.node id with
  | integer | boolean | enumeration =>
    rw [node] at found
    cases found
    rfl
  | category | float | stringFeat | command | register | converter | swissKnife | port =>
    rw [node] at found
    cases found

theorem setIntValueInner_feature {σ : Type} {port : PortIo σ} {nested : Calls P n σ} {w : World P n σ} {id : Fin n}
    {value : ValueRef P n} (found : (w.backing.description.node id).feature? = some value) (v : Int64) :
    setIntValueInner port nested id v w = setRefInt nested id value v w := by
  simp only [setIntValueInner, Stateful.bind_apply, nodeAt, Stateful.read]
  cases node : w.backing.description.node id with
  | integer | boolean | enumeration =>
    rw [node] at found
    cases found
    rfl
  | category | float | stringFeat | command | register | converter | swissKnife | port =>
    rw [node] at found
    cases found

/-- The node reaches the last one in so many links. -/
inductive Chain (description : Description P n) (last : Fin n) : Nat → Fin n → Prop where
  | last : Chain description last 0 last
  | feature {id target : Fin n} {value : ValueRef P n} {links : Nat}
      (found : (description.node id).feature? = some value) (leads : Leads description value target)
      (rest : Chain description last links target) : Chain description last (links + 1) id

inductive Node.InChain : Node P n → Prop where
  | integer (value min max inc : ValueRef P n) : InChain (.integer value min max inc)
  | boolean (value : ValueRef P n) (onValue offValue : Int64) : InChain (.boolean value onValue offValue)
  | enumeration (value : ValueRef P n) (entries : List (String × Int64)) : InChain (.enumeration value entries)
  | register (common : RegisterCommon P n) (sign : Sign) (endianness : Endianness) (lsb msb : Option Nat) :
      InChain (.register common (.int sign endianness lsb msb))

variable {description : Description P n} {last id : Fin n} {links : Nat}

theorem Chain.inChain (register : IntRegister description last) (chain : Chain description last links id) :
    (description.node id).InChain := by
  cases chain with
  | last =>
    rw [register.found]
    exact .register ..
  | feature found =>
    cases node : description.node id with
    | integer => exact .integer ..
    | boolean => exact .boolean ..
    | enumeration => exact .enumeration ..
    | category | float | stringFeat | command | register | converter | swissKnife | port =>
      rw [node] at found
      nomatch found

theorem Leads.unique {value : ValueRef P n} {target target' : Fin n} (leads : Leads description value target)
    (leads' : Leads description value target') : target = target' := by
  cases leads with
  | link =>
    cases leads'
    rfl
  | indexed points constant picks =>
    cases leads' with
    | indexed points' constant' picks' =>
      cases points.symm.trans points'
      cases constant.symm.trans constant'
      cases picks.symm.trans picks'
      rfl

variable (register : IntRegister description last)

include register in
theorem Chain.links_unique (chain : Chain description last links id) :
    ∀ {links' : Nat}, Chain description last links' id → links = links' := by
  have ends : (description.node last).feature? = none := by rw [register.found]; rfl
  induction chain with
  | last =>
    intro links' chain'
    cases chain' with
    | last => rfl
    | feature found => rw [ends] at found; nomatch found
  | feature found leads rest ih =>
    intro links' chain'
    cases chain' with
    | last => rw [ends] at found; nomatch found
    | feature found' leads' rest' =>
      cases found.symm.trans found'
      cases leads.unique leads'
      rw [ih rest']

def Below (description : Description P n) (last : Fin n) (links : Nat) (visit : List (Fin n)) : Prop :=
  ∀ id ∈ visit, ∃ further, links < further ∧ Chain description last further id

include register in
theorem Below.fresh {visit : List (Fin n)} (below : Below description last links visit)
    (chain : Chain description last links id) : id ∉ visit := by
  intro held
  obtain ⟨further, more, chain'⟩ := below id held
  exact absurd (chain.links_unique register chain') (Nat.ne_of_lt more)

theorem Below.push {visit : List (Fin n)} (below : Below description last (links + 1) visit)
    (chain : Chain description last (links + 1) id) : Below description last links (id :: visit) := by
  intro held listed
  rcases List.mem_cons.mp listed with rfl | listed
  · exact ⟨links + 1, Nat.lt_succ_self _, chain⟩
  · obtain ⟨further, more, chain'⟩ := below held listed
    exact ⟨further, Nat.lt_of_succ_lt more, chain'⟩

theorem Below.constant {visit : List (Fin n)} (below : Below description last links visit) {place : Int64}
    {min max inc : ValueRef P n} (constant : description.node id = .integer (.direct (.litInt place)) min max inc) :
    id ∉ visit := by
  intro held
  obtain ⟨further, more, chain⟩ := below id held
  cases chain with
  | last => exact Nat.not_lt_zero _ more
  | feature found leads rest =>
    rw [constant] at found
    cases found
    nomatch leads

theorem constant_intValue {room : Nat} {w : World P n (List UInt8)} (same : w.backing.description = description)
    {place : Int64} {min max inc : ValueRef P n}
    (constant : description.node id = .integer (.direct (.litInt place)) min max inc) (fresh : id ∉ w.visit) :
    (calls mockPort (room + 1)).intValue id w = (.ok place, w) := by
  simp only [calls]
  rw [visiting_apply fresh]
  simp only [intValueInner, Stateful.bind_apply, nodeAt, Stateful.read, same, constant]
  rfl

theorem Leads.selected {room : Nat} {w : World P n (List UInt8)} (same : w.backing.description = description)
    {ix : Indexed P n} {target : Fin n} (leads : Leads description (.indexed ix) target)
    (below : Below description last links w.visit) :
    Genicam.selected (calls mockPort (room + 1)) ix w = (.ok (.link (.id target)), w) := by
  cases leads with
  | indexed points constant picks =>
    simp only [Genicam.selected, Stateful.bind_apply, points, resolve, Stateful.pure_apply,
      constant_intValue same constant (below.constant constant), picks]

theorem Leads.refInt {room : Nat} {w : World P n (List UInt8)} (same : w.backing.description = description)
    {value : ValueRef P n} {target : Fin n} (leads : Leads description value target)
    (below : Below description last links w.visit) :
    Genicam.refInt (calls mockPort (room + 1)) value w = (calls mockPort (room + 1)).intValue target w := by
  cases value with
  | direct value =>
    cases leads
    rfl
  | indexed ix =>
    simp only [Genicam.refInt, Stateful.bind_apply, leads.selected same below]
    rfl

theorem Leads.setRefInt {room : Nat} {w : World P n (List UInt8)} (same : w.backing.description = description)
    {value : ValueRef P n} {target : Fin n} (leads : Leads description value target)
    (below : Below description last links w.visit) (v : Int64) :
    Genicam.setRefInt (calls mockPort (room + 1)) id value v w = (calls mockPort (room + 1)).setIntValue target v w := by
  cases value with
  | direct value =>
    cases leads
    rfl
  | indexed ix =>
    simp only [Genicam.setRefInt, Stateful.bind_apply, leads.selected same below]
    rfl

theorem Chain.intValue (chain : Chain description last links id) :
    ∀ {room : Nat} {w : World P n (List UInt8)}, w.backing.description = description →
      Below description last links w.visit →
      (calls mockPort (room + links + 1)).intValue id w =
        (register.reply w.backing, { w with backing := w.backing.warmed last register.address register.length }) := by
  induction chain with
  | last =>
    intro room w same below
    exact register.intValue w same room (below.fresh register .last)
  | @feature id target value links found leads rest ih =>
    intro room w same below
    have under := below.push (.feature found leads rest)
    show visiting id (intValueInner mockPort (calls mockPort (room + links + 1)) id) w = _
    rw [visiting_apply (below.fresh register (.feature found leads rest)),
      intValueInner_feature (by rw [same]; exact found), leads.refInt (w := { w with visit := id :: w.visit }) same under,
      ih (w := { w with visit := id :: w.visit }) same under]
    rfl

theorem Chain.setIntValue (chain : Chain description last links id) (v : Int64) :
    ∀ {room : Nat} {w : World P n (List UInt8)}, w.backing.description = description →
      Below description last links w.visit →
      (calls mockPort (room + links + 1)).setIntValue id v w =
        ((register.assign v w.backing).1, { w with backing := (register.assign v w.backing).2 }) := by
  induction chain with
  | last =>
    intro room w same below
    exact register.setIntValue w same room (below.fresh register .last) v
  | @feature id target value links found leads rest ih =>
    intro room w same below
    have under := below.push (.feature found leads rest)
    show visiting id (setIntValueInner mockPort (calls mockPort (room + links + 1)) id v) w = _
    rw [visiting_apply (below.fresh register (.feature found leads rest)),
      setIntValueInner_feature (by rw [same]; exact found), leads.setRefInt (w := { w with visit := id :: w.visit }) same under,
      ih (w := { w with visit := id :: w.visit }) same under]
    rfl

end Chains

end Telegenic.Genicam
