import Telegenic.Genicam.IntegerRegisters

/-! Two fields of one register. A masked write starts from the bytes its own
node has cached; where a write of the first field leaves the second no cached
bytes, neither field's writes are lost. -/

set_option autoImplicit false

namespace Telegenic.Genicam

open Library

section Sharing

variable {P : Platform} {n : Nat}

/-- Two masked registers on the same bytes, with fields that have no bit in
common. -/
structure Sharing (description : Description P n) (first second : Fin n) where
  upper : IntRegister description first
  lower : IntRegister description second
  upperMasked : upper.lsb.isSome ∨ upper.msb.isSome
  lowerMasked : lower.lsb.isSome ∨ lower.msb.isSome
  address : lower.address = upper.address
  length : lower.length = upper.length
  upperBits : Nat × Nat
  lowerBits : Nat × Nat
  upperRanged : bitRange (8 * upper.length) upper.lsb upper.msb upper.endianness = some upperBits
  lowerRanged : bitRange (8 * upper.length) lower.lsb lower.msb lower.endianness = some lowerBits
  disjoint : ∀ j k, upperBits.1 ≤ j → j ≤ upperBits.2 → lowerBits.1 ≤ k → k ≤ lowerBits.2 →
    position upper.length upper.endianness j ≠ position upper.length lower.endianness k

/-- Reads and writes of the two fields. -/
inductive OnFields (first second : Fin n) : Call P n → Prop where
  | readFirst : OnFields first second (.intValue first)
  | readSecond : OnFields first second (.intValue second)
  | writeFirst (v : Int64) : OnFields first second (.setIntValue first v)
  | writeSecond (v : Int64) : OnFields first second (.setIntValue second v)

def noteWritten {Failure Result : Type} (id : Fin n) (last : Option Int64) : Call P n → Except Failure Result → Option Int64
  | .setIntValue target v, .ok _ => if target = id then some v else last
  | _, _ => last

/-- The value of the last successful `set_int_value` on the node. -/
def lastWritten {σ : Type} (port : PortIo σ) (id : Fin n) : List (Call P n) → World P n σ → Option Int64 → Option Int64
  | [], _, last => last
  | call :: rest, w, last =>
      lastWritten port id rest (perform port call w).2 (noteWritten id last call (perform port call w).1)

variable {description : Description P n} {first second : Fin n} (sharing : Sharing description first second)

def Sharing.InField (p : Nat) : Prop :=
  ∃ k, sharing.upperBits.1 ≤ k ∧ k ≤ sharing.upperBits.2 ∧
    p = position sharing.upper.length sharing.upper.endianness k

theorem Sharing.inField_lt {p : Nat} (inField : sharing.InField p) : p < 8 * sharing.upper.length := by
  obtain ⟨k, low, high, rfl⟩ := inField
  exact position_lt _ (Nat.lt_of_le_of_lt high (bitRange_bounds sharing.upperRanged).2)

include sharing in
theorem Sharing.distinct : first ≠ second := by
  rintro rfl
  have same := sharing.upper.found.symm.trans sharing.lower.found
  injection same with _ kinds
  injection kinds with _ endianness lsb msb
  have bits : sharing.upperBits = sharing.lowerBits := by
    apply Option.some.inj
    rw [← sharing.upperRanged, endianness, lsb, msb, sharing.lowerRanged]
  have ordered := (bitRange_bounds sharing.upperRanged).1
  refine sharing.disjoint sharing.upperBits.1 sharing.upperBits.1 (Nat.le_refl _) ordered ?_ ?_ (by rw [endianness])
  · exact Nat.le_of_eq (congrArg Prod.fst bits.symm)
  · rw [← bits]
    exact ordered

/-- Between calls: the first field holds `held`, and bytes cached by the second
node agree with the memory on it. -/
structure Sharing.Kept (cachable : Fin n → Cachable) (held : Nat → Bool) (w : World P n (List UInt8)) : Prop where
  visit : w.visit = []
  description : w.backing.description = description
  cachable : w.backing.cachable = cachable
  sized : ∀ bytes, w.backing.cached first = some bytes → bytes.length = sharing.upper.length
  agrees : ∀ bytes, w.backing.cached second = some bytes → bytes.length = sharing.upper.length ∧
    ∀ p, sharing.InField p → bitAt bytes p = bitAt w.backing.port (8 * sharing.upper.address + p)
  holds : ∀ p, sharing.InField p → bitAt w.backing.port (8 * sharing.upper.address + p) = held p

def Sharing.held (memory : List UInt8) : Option Int64 → Nat → Bool
  | none, p => bitAt memory (8 * sharing.upper.address + p)
  | some v, p =>
      v.toBitVec.getLsbD (position sharing.upper.length sharing.upper.endianness p - sharing.upperBits.1)

variable {sharing} {cachable : Fin n → Cachable} {held : Nat → Bool} {w : World P n (List UInt8)}

theorem Sharing.Kept.warmed (kept : sharing.Kept cachable held w) (id : Fin n) :
    sharing.Kept cachable held
      { w with backing := w.backing.warmed id sharing.upper.address sharing.upper.length } where
  visit := kept.visit
  description := (Backing.warmed_description ..).trans kept.description
  cachable := (Backing.warmed_cachable ..).trans kept.cachable
  sized bytes cached := by
    obtain before | ⟨_, loaded⟩ := Backing.warmed_cached _ _ _ _ _ cached
    · exact kept.sized bytes before
    · exact load?_length loaded
  agrees bytes cached := by
    simp only [Backing.warmed_port]
    obtain before | ⟨_, loaded⟩ := Backing.warmed_cached _ _ _ _ _ cached
    · exact kept.agrees bytes before
    · exact ⟨load?_length loaded, fun p inField => bitAt_load? loaded (sharing.inField_lt inField)⟩
  holds := by
    simp only [Backing.warmed_port]
    exact kept.holds

theorem Sharing.Kept.current_length (kept : sharing.Kept cachable held w) {id : Fin n} (shared : id = first ∨ id = second)
    {bytes : List UInt8} (read : w.backing.current id sharing.upper.address sharing.upper.length = some bytes) :
    bytes.length = sharing.upper.length := by
  obtain cached | loaded := Backing.current_cases _ _ _ _ read
  · obtain rfl | rfl := shared
    · exact kept.sized bytes cached
    · exact (kept.agrees bytes cached).1
  · exact load?_length loaded

theorem Sharing.Kept.writeFirst (kept : sharing.Kept cachable held w)
    (dropped : cachable second = .noCache ∨ second ∈ description.invalidates first) {v : Int64}
    {current bytes after memory : List UInt8}
    (read : w.backing.current first sharing.upper.address sharing.upper.length = some current)
    (inserted : insertInt current v sharing.upper.endianness sharing.upper.lsb sharing.upper.msb = .ok bytes)
    (stored : store? w.backing.port sharing.upper.address bytes = some after) :
    sharing.Kept cachable (sharing.held memory (some v))
      { w with backing := { w.backing.warmed first sharing.upper.address sharing.upper.length with
        port := after }.afterWrite first bytes } := by
  have warm := kept.warmed first
  have long := kept.current_length (.inl rfl) read
  have sized := (insertInt_length inserted).trans long
  refine { warm with sized := fun cached reads => ?_, agrees := fun cached reads => ?_, holds := fun p inField => ?_ }
  · obtain ⟨_, ⟨_, rfl⟩ | ⟨different, _⟩⟩ := Backing.afterWrite_cached _ _ _ reads
    · exact sized
    · exact absurd rfl different
  · -- The second node has nothing cached: its cache is off, or the write dropped it.
    obtain ⟨spared, ⟨same, _⟩ | ⟨_, reads⟩⟩ := Backing.afterWrite_cached _ _ _ reads
    · exact absurd same.symm sharing.distinct
    · rcases dropped with off | listed
      · rw [Backing.cached, if_pos] at reads
        · nomatch reads
        · exact (congrFun warm.cachable second).trans off
      · exact absurd (by rw [← warm.description] at listed; exact listed) spared
  · obtain ⟨k, low, high, rfl⟩ := inField
    have inside : k < 8 * sharing.upper.length := Nat.lt_of_le_of_lt high (bitRange_bounds sharing.upperRanged).2
    show bitAt after _ = _
    rw [bitAt_store? stored (by rw [sized]; exact position_lt _ inside),
      insertInt_bitAt long inserted sharing.upperRanged inside, if_pos ⟨low, high⟩, Sharing.held,
      position_position _ inside]

theorem Sharing.Kept.writeSecond (kept : sharing.Kept cachable held w) {v : Int64} {current bytes after : List UInt8}
    (read : w.backing.current second sharing.upper.address sharing.upper.length = some current)
    (inserted : insertInt current v sharing.lower.endianness sharing.lower.lsb sharing.lower.msb = .ok bytes)
    (stored : store? w.backing.port sharing.upper.address bytes = some after) :
    sharing.Kept cachable held
      { w with backing := { w.backing.warmed second sharing.upper.address sharing.upper.length with
        port := after }.afterWrite second bytes } := by
  have warm := kept.warmed second
  have long := kept.current_length (.inr rfl) read
  have sized := (insertInt_length inserted).trans long
  have written : ∀ p, sharing.InField p → bitAt after (8 * sharing.upper.address + p) = bitAt bytes p :=
    fun p inField => bitAt_store? stored (by rw [sized]; exact sharing.inField_lt inField)
  -- The bytes the write started from had the memory's first field, and it left that alone.
  have spared : ∀ p, sharing.InField p → bitAt bytes p = held p := by
    intro p inField
    have inside := sharing.inField_lt inField
    have back := position_position sharing.lower.endianness inside
    have elsewhere : ¬ (sharing.lowerBits.1 ≤ position sharing.upper.length sharing.lower.endianness p ∧
        position sharing.upper.length sharing.lower.endianness p ≤ sharing.lowerBits.2) := by
      rintro ⟨low, high⟩
      obtain ⟨k, low', high', rfl⟩ := inField
      exact sharing.disjoint k _ low' high' low high back.symm
    have kept_bit := insertInt_bitAt long inserted sharing.lowerRanged (position_lt sharing.lower.endianness inside)
    rw [if_neg elsewhere, back] at kept_bit
    rw [kept_bit, ← kept.holds p inField]
    obtain cached | loaded := Backing.current_cases _ _ _ _ read
    · exact (kept.agrees current cached).2 p inField
    · exact bitAt_load? loaded inside
  refine { warm with sized := fun cached reads => ?_, agrees := fun cached reads => ?_, holds := fun p inField => ?_ }
  · obtain ⟨_, ⟨_, rfl⟩ | ⟨_, reads⟩⟩ := Backing.afterWrite_cached _ _ _ reads
    · exact sized
    · exact warm.sized cached reads
  · obtain ⟨_, ⟨_, rfl⟩ | ⟨different, _⟩⟩ := Backing.afterWrite_cached _ _ _ reads
    · exact ⟨sized, fun p inField => (written p inField).symm⟩
    · exact absurd rfl different
  · exact (written p inField).trans (spared p inField)

/-! ## Runs -/

theorem Sharing.Kept.perform {memory : List UInt8} {last : Option Int64}
    (kept : sharing.Kept cachable (sharing.held memory last) w)
    (dropped : cachable second = .noCache ∨ second ∈ description.invalidates first) {call : Call P n}
    (onFields : OnFields first second call) :
    sharing.Kept cachable
      (sharing.held memory (noteWritten first last call (Genicam.perform mockPort call w).1)) (Genicam.perform mockPort call w).2 := by
  have fresh : ∀ id, id ∉ w.visit := fun id => by rw [kept.visit]; exact List.not_mem_nil
  cases onFields with
  | readFirst =>
    obtain ⟨result, ran⟩ := visiting_read sharing.upper (calls mockPort (n + 1)) w kept.description (fresh first)
    rw [perform_intValue, ran]
    exact kept.warmed first
  | readSecond =>
    obtain ⟨result, ran⟩ := visiting_read sharing.lower (calls mockPort (n + 1)) w kept.description (fresh second)
    rw [perform_intValue, ran, sharing.address, sharing.length]
    exact kept.warmed second
  | writeFirst v =>
    obtain ⟨stop, ran⟩ | ⟨current, bytes, after, read, inserted, stored, ran⟩ :=
      visiting_write sharing.upper (calls mockPort (n + 1)) w kept.description (fresh first) v sharing.upperMasked
    · rw [perform_setIntValue, ran]
      exact kept.warmed first
    · rw [perform_setIntValue, ran]
      simp only [Except.map, noteWritten, if_true]
      exact kept.writeFirst dropped read inserted stored
  | writeSecond v =>
    have lower := visiting_write sharing.lower (calls mockPort (n + 1)) w kept.description (fresh second) v
      sharing.lowerMasked
    rw [sharing.address, sharing.length] at lower
    obtain ⟨stop, ran⟩ | ⟨current, bytes, after, read, inserted, stored, ran⟩ := lower
    · rw [perform_setIntValue, ran]
      exact kept.warmed second
    · rw [perform_setIntValue, ran]
      simp only [Except.map, noteWritten, if_neg sharing.distinct.symm]
      exact kept.writeSecond read inserted stored

theorem Sharing.Kept.performAll {memory : List UInt8}
    (dropped : cachable second = .noCache ∨ second ∈ description.invalidates first) (calls : List (Call P n)) :
    ∀ {w : World P n (List UInt8)} {last : Option Int64}, (∀ call ∈ calls, OnFields first second call) →
      sharing.Kept cachable (sharing.held memory last) w →
      sharing.Kept cachable (sharing.held memory (lastWritten mockPort first calls w last))
        (Genicam.performAll mockPort calls w) := by
  induction calls with
  | nil => exact fun _ kept => kept
  | cons call rest ih =>
    intro w last onFields kept
    rw [List.forall_mem_cons] at onFields
    exact ih onFields.2 (kept.perform dropped onFields.1)

theorem Sharing.Kept.build (sharing : Sharing description first second) (cachable : Fin n → Cachable)
    (memory : List UInt8) :
    sharing.Kept cachable (sharing.held memory none) (description.build cachable memory) where
  visit := rfl
  description := rfl
  cachable := rfl
  sized bytes cached := by
    rw [Description.cached_build] at cached
    nomatch cached
  agrees bytes cached := by
    rw [Description.cached_build] at cached
    nomatch cached
  holds _ _ := rfl

/-- Where a write of the first field leaves nothing cached for the second, the
first field holds what was last written to it, whatever reads and writes of the
two fields are made. -/
theorem no_lost_update (description : Description P n) (first second : Fin n) (sharing : Sharing description first second)
    (cachable : Fin n → Cachable) (dropped : cachable second = .noCache ∨ second ∈ description.invalidates first)
    (memory : List UInt8) (calls : List (Call P n)) (onFields : ∀ call ∈ calls, OnFields first second call) (k : Nat)
    (low : sharing.upperBits.1 ≤ k) (high : k ≤ sharing.upperBits.2) :
    bitAt (performAll mockPort calls (description.build cachable memory)).backing.port
        (8 * sharing.upper.address + position sharing.upper.length sharing.upper.endianness k) =
      match lastWritten mockPort first calls (description.build cachable memory) none with
      | some v => v.toBitVec.getLsbD (k - sharing.upperBits.1)
      | none => bitAt memory (8 * sharing.upper.address + position sharing.upper.length sharing.upper.endianness k) := by
  have kept := Sharing.Kept.performAll dropped calls onFields (.build sharing cachable memory)
  have inside : k < 8 * sharing.upper.length := Nat.lt_of_le_of_lt high (bitRange_bounds sharing.upperRanged).2
  rw [kept.holds _ ⟨k, low, high, rfl⟩]
  cases lastWritten mockPort first calls (description.build cachable memory) none with
  | none => rfl
  | some v => rw [Sharing.held, position_position _ inside]

end Sharing

/-! ## Where the second node's cache survives -/

def plainField (lsb msb : Nat) {n : Nat} : Node plainPlatform n :=
  .register { addressTerms := [.direct (.litInt 0)], length := .direct (.litInt 4), access := .RW }
    (.int .unsigned .little (some lsb) (some msb))

/-- Two fields of one register; a write of either invalidates what `dropped`
lists. -/
def fieldsGraph (dropped : List (Fin 2)) : Description plainPlatform 2 where
  name id := ["Low", "High"].getD id ""
  node id := [plainField 0 7, plainField 8 15].getD id .port
  byName name := ["Low", "High"].findFinIdx? (· == name)
  invalidates _ := dropped

/-- The write of the high field starts from bytes cached before the low field
was written, and puts its old bits back. -/
theorem cached_sibling_loses_update :
    replies mockPort [.intValue 1, .setIntValue 0 5, .setIntValue 1 1]
        ((fieldsGraph []).build (fun _ => .writeAround) [0, 0, 0, 0]) = [.ok (.int 0), .ok .done, .ok .done] ∧
      lastWritten mockPort 0 [.intValue 1, .setIntValue 0 5, .setIntValue 1 1]
        ((fieldsGraph []).build (fun _ => .writeAround) [0, 0, 0, 0]) none = some 5 ∧
      (performAll mockPort [.intValue 1, .setIntValue 0 5, .setIntValue 1 1]
        ((fieldsGraph []).build (fun _ => .writeAround) [0, 0, 0, 0])).backing.port = [0, 1, 0, 0] :=
  ⟨rfl, rfl, rfl⟩

def fieldRegister (dropped : List (Fin 2)) (id : Fin 2) : IntRegister (fieldsGraph dropped) id where
  common := { addressTerms := [.direct (.litInt 0)], length := .direct (.litInt 4), access := .RW }
  sign := .unsigned
  endianness := .little
  lsb := some (8 * id)
  msb := some (8 * id + 7)
  address := 0
  length := 4
  found := match id with
    | 0 => rfl
    | 1 => rfl
  plain := ⟨fun term listed => by rw [List.mem_singleton.mp listed]; rfl, rfl⟩
  access := rfl
  placed := rfl

def fieldsSharing (dropped : List (Fin 2)) : Sharing (fieldsGraph dropped) 0 1 where
  upper := fieldRegister dropped 0
  lower := fieldRegister dropped 1
  upperMasked := .inl rfl
  lowerMasked := .inl rfl
  address := rfl
  length := rfl
  upperBits := (0, 7)
  lowerBits := (8, 15)
  upperRanged := rfl
  lowerRanged := rfl
  disjoint j k _ high low _ := by
    show j ≠ k
    simp only at high low
    omega

theorem no_lost_update_dropped :
    bitAt (performAll mockPort [.intValue 1, .setIntValue 0 5, .setIntValue 1 1]
        ((fieldsGraph [1]).build (fun _ => .writeAround) [0, 0, 0, 0])).backing.port 2 =
      (5 : Int64).toBitVec.getLsbD 2 :=
  no_lost_update (fieldsGraph [1]) 0 1 (fieldsSharing [1]) (fun _ => .writeAround) (.inr (List.mem_singleton.mpr rfl))
    [0, 0, 0, 0] [.intValue 1, .setIntValue 0 5, .setIntValue 1 1]
    (by simp only [List.forall_mem_cons]; exact ⟨.readSecond, .writeFirst 5, .writeSecond 1, nofun⟩) 2 (by decide) (by decide)

end Telegenic.Genicam
