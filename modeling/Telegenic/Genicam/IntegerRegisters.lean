import Telegenic.Genicam.Caching
import Telegenic.Genicam.Fields

/-! Integer registers at places of their own, over plain memory: what a read
and a write of one do. -/

set_option autoImplicit false

namespace Telegenic.Genicam

open Library

section Integers

variable {P : Platform} {n : Nat}

/-- A readable and writable integer register whose place no other node
decides. -/
structure IntRegister (description : Description P n) (id : Fin n) where
  common : RegisterCommon P n
  sign : Sign
  endianness : Endianness
  lsb : Option Nat
  msb : Option Nat
  address : Nat
  length : Nat
  found : description.node id = .register common (.int sign endianness lsb msb)
  plain : common.IsPlain
  access : common.access = .RW
  placed : common.place (description.name id) = .ok (address, length)

def Backing.current (s : Backing P n (List UInt8)) (id : Fin n) (address length : Nat) : Option (List UInt8) :=
  (s.cached id).or (load? s.port address length)

def Backing.warmed (s : Backing P n (List UInt8)) (id : Fin n) (address length : Nat) : Backing P n (List UInt8) :=
  match s.cached id, load? s.port address length with
  | none, some bytes => s.remember id bytes
  | _, _ => s

section Warmed

variable (s : Backing P n (List UInt8)) (id other : Fin n) (address length : Nat)

theorem Backing.warmed_port : (s.warmed id address length).port = s.port := by
  unfold Backing.warmed
  split
  · unfold Backing.remember
    split <;> rfl
  · rfl

theorem Backing.warmed_description : (s.warmed id address length).description = s.description := by
  unfold Backing.warmed
  split
  · exact Backing.remember_description id _ s
  · rfl

theorem Backing.warmed_cachable : (s.warmed id address length).cachable = s.cachable := by
  unfold Backing.warmed
  split
  · unfold Backing.remember
    split <;> rfl
  · rfl

theorem Backing.warmed_cache {bytes : List UInt8} (kept : (s.warmed id address length).cache other = some bytes) :
    s.cache other = some bytes ∨ other = id ∧ load? s.port address length = some bytes := by
  unfold Backing.warmed at kept
  split at kept
  case h_1 fetched _ loaded =>
    unfold Backing.remember at kept
    split at kept
    · exact .inl kept
    · by_cases same : other = id
      · subst same
        simp only [Function.update_self] at kept
        exact .inr ⟨rfl, loaded.trans kept⟩
      · simp only [Function.update_of_ne same] at kept
        exact .inl kept
  case h_2 => exact .inl kept

theorem Backing.warmed_cached {bytes : List UInt8} (kept : (s.warmed id address length).cached other = some bytes) :
    s.cached other = some bytes ∨ other = id ∧ load? s.port address length = some bytes := by
  unfold Backing.cached at kept ⊢
  rw [Backing.warmed_cachable] at kept
  split at kept
  · nomatch kept
  · rename_i policy
    rw [if_neg policy]
    exact Backing.warmed_cache s id other address length kept

theorem Backing.current_cases {bytes : List UInt8} (read : s.current id address length = some bytes) :
    s.cached id = some bytes ∨ load? s.port address length = some bytes := by
  unfold Backing.current at read
  cases held : s.cached id with
  | some kept =>
    rw [held] at read
    exact .inl read
  | none =>
    rw [held] at read
    exact .inr read

theorem Backing.afterWrite_cached {written bytes : List UInt8} (kept : (s.afterWrite id written).cached other = some bytes) :
    other ∉ s.description.invalidates id ∧ (other = id ∧ bytes = written ∨ other ≠ id ∧ s.cached other = some bytes) := by
  have policy : (s.afterWrite id written).cachable = s.cachable := rfl
  unfold Backing.cached at kept ⊢
  rw [policy, Backing.afterWrite_cache] at kept
  split at kept
  · nomatch kept
  · rename_i cached
    rw [if_neg cached]
    split at kept
    · nomatch kept
    · rename_i spared
      refine ⟨spared, ?_⟩
      split at kept
      · rename_i same
        split at kept
        · exact .inl ⟨same, (Option.some.inj kept).symm⟩
        · nomatch kept
      · rename_i different
        exact .inr ⟨different, kept⟩

end Warmed

variable {description : Description P n} {id : Fin n} (register : IntRegister description id)

theorem IntRegister.found_now {now : Description P n} (same : now = description) :
    now.node id = .register register.common (.int register.sign register.endianness register.lsb register.msb) :=
  same ▸ register.found

theorem IntRegister.placed_now {now : Description P n} (same : now = description) :
    register.common.place (now.name id) = .ok (register.address, register.length) :=
  same ▸ register.placed

variable (nested : Calls P n (List UInt8)) (w : World P n (List UInt8)) (same : w.backing.description = description)

include same

theorem registerRead_integer :
    registerRead mockPort nested id w =
      ((w.backing.current id register.address register.length).elim
          (.error (.error (.camera (mockReadError register.address)))) .ok,
        { w with backing := w.backing.warmed id register.address register.length }) := by
  have readable : register.common.access ≠ .WO := by rw [register.access]; decide
  have found := register.found_now same
  have placed := register.placed_now same
  simp only [registerRead, Stateful.bind_apply, nodeAt, Stateful.read, found, if_neg readable]
  cases held : w.backing.cached id with
  | some bytes => simp [Backing.current, Backing.warmed, held, Stateful.pure_apply]
  | none =>
    cases loaded : load? w.backing.port register.address register.length with
    | some bytes =>
      simp only
      rw [registerFetch_plain nested w found register.plain placed loaded]
      simp [Backing.current, Backing.warmed, held, loaded]
    | none =>
      simp only [registerFetch, Stateful.bind_apply, registerAddress_plain nested w found register.plain, placed,
        onPort, mockPort_read, loaded]
      simp [Backing.current, Backing.warmed, held, loaded, Except.mapError]

theorem registerWrite_integer (bytes : List UInt8) :
    registerWrite mockPort nested id bytes w =
      match store? w.backing.port register.address bytes with
      | none => (.error (.error (.camera (mockWriteError register.address))), w)
      | some after => (.ok (), { w with backing := { w.backing with port := after }.afterWrite id bytes }) := by
  have writable : register.common.access ≠ .RO := by rw [register.access]; decide
  have found := register.found_now same
  have placed := register.placed_now same
  cases stored : store? w.backing.port register.address bytes with
  | some after => exact registerWrite_plain nested w found register.plain writable placed stored
  | none =>
    simp only [registerWrite, Stateful.bind_apply, nodeAt, Stateful.read, found, if_neg writable,
      registerAddress_plain nested w found register.plain, placed, onPort, mockPort_write_none stored]
    rfl

omit same in
theorem orFormula_apply {A : Type} (id : Fin n) (result : Except String A) :
    (orFormula id result : Access P n (List UInt8) A) w =
      (result.mapError fun message => .error (.formula (w.backing.description.name id) message), w) := by
  cases result <;> rfl

theorem intValueInner_integer :
    intValueInner mockPort nested id w =
      match w.backing.current id register.address register.length with
      | none => (.error (.error (.camera (mockReadError register.address))),
          { w with backing := w.backing.warmed id register.address register.length })
      | some bytes =>
        ((extractInt bytes register.sign register.endianness register.lsb register.msb).mapError fun message =>
            .error (.formula (w.backing.description.name id) message),
          { w with backing := w.backing.warmed id register.address register.length }) := by
  simp only [intValueInner, Stateful.bind_apply, nodeAt, Stateful.read, register.found_now same,
    registerRead_integer register nested w same]
  cases w.backing.current id register.address register.length with
  | none => rfl
  | some bytes => simp only [Option.elim, orFormula_apply, Backing.warmed_description]

theorem registerLength_integer : registerLength nested id register.common.length w = (.ok register.length, w) := by
  rw [registerLength_plain nested w register.plain.length, RegisterCommon.place_length (register.placed_now same)]

theorem setIntValueInner_masked (v : Int64) (masked : register.lsb.isSome ∨ register.msb.isSome) :
    setIntValueInner mockPort nested id v w =
      match w.backing.current id register.address register.length with
      | none => (.error (.error (.camera (mockReadError register.address))),
          { w with backing := w.backing.warmed id register.address register.length })
      | some current =>
        match insertInt current v register.endianness register.lsb register.msb with
        | .error message => (.error (.error (.formula (w.backing.description.name id) message)),
            { w with backing := w.backing.warmed id register.address register.length })
        | .ok bytes =>
          registerWrite mockPort nested id bytes
            { w with backing := w.backing.warmed id register.address register.length } := by
  simp only [setIntValueInner, Stateful.bind_apply, nodeAt, Stateful.read, register.found_now same,
    registerLength_integer register nested w same, registerBytes, if_pos masked,
    registerRead_integer register nested w same]
  cases w.backing.current id register.address register.length with
  | none => rfl
  | some current =>
    simp only [Option.elim, orFormula_apply, Backing.warmed_description]
    cases insertInt current v register.endianness register.lsb register.msb <;> rfl

theorem setIntValueInner_whole (v : Int64) (whole : ¬ (register.lsb.isSome ∨ register.msb.isSome)) :
    setIntValueInner mockPort nested id v w =
      match encodeInt v register.length register.endianness with
      | .error message => (.error (.error (.formula (w.backing.description.name id) message)), w)
      | .ok bytes => registerWrite mockPort nested id bytes w := by
  simp only [setIntValueInner, Stateful.bind_apply, nodeAt, Stateful.read, register.found_now same,
    registerLength_integer register nested w same, registerBytes, if_neg whole, orFormula_apply]
  cases encodeInt v register.length register.endianness <;> rfl

/-! ## Calls -/

omit same in
theorem visiting_apply {σ A : Type} {body : Access P n σ A} {w : World P n σ} {id : Fin n} (fresh : id ∉ w.visit) :
    visiting id body w =
      ((body { w with visit := id :: w.visit }).1, leave (body { w with visit := id :: w.visit }).2) := by
  simp only [visiting, Stateful.bind_apply, enter, if_neg fresh, leaving]

theorem visiting_read (fresh : id ∉ w.visit) :
    ∃ result, visiting id (intValueInner mockPort nested id) w =
      (result, { w with backing := w.backing.warmed id register.address register.length }) := by
  rw [visiting_apply fresh, intValueInner_integer register nested { w with visit := id :: w.visit } same]
  cases w.backing.current id register.address register.length with
  | none => exact ⟨_, rfl⟩
  | some bytes => exact ⟨_, rfl⟩

theorem visiting_write (fresh : id ∉ w.visit) (v : Int64) (masked : register.lsb.isSome ∨ register.msb.isSome) :
    (∃ stop, visiting id (setIntValueInner mockPort nested id v) w =
        (.error stop, { w with backing := w.backing.warmed id register.address register.length })) ∨
      ∃ current bytes after, w.backing.current id register.address register.length = some current ∧
        insertInt current v register.endianness register.lsb register.msb = .ok bytes ∧
        store? w.backing.port register.address bytes = some after ∧
        visiting id (setIntValueInner mockPort nested id v) w =
          (.ok (), { w with
            backing := { w.backing.warmed id register.address register.length with port := after }.afterWrite id bytes }) := by
  rw [visiting_apply fresh, setIntValueInner_masked register nested { w with visit := id :: w.visit } same v masked]
  cases read : w.backing.current id register.address register.length with
  | none => exact .inl ⟨_, rfl⟩
  | some current =>
    simp only
    cases inserted : insertInt current v register.endianness register.lsb register.msb with
    | error message => exact .inl ⟨_, rfl⟩
    | ok bytes =>
      simp only
      rw [registerWrite_integer register nested _ ((Backing.warmed_description ..).trans same), Backing.warmed_port]
      cases stored : store? w.backing.port register.address bytes with
      | none => exact .inl ⟨_, rfl⟩
      | some after => exact .inr ⟨current, bytes, after, rfl, inserted, stored, rfl⟩

end Integers

end Telegenic.Genicam
