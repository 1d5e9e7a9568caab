import Telegenic.Genicam.Circularity

/-! Registers whose place in device memory no other node decides: evaluating
their address and length reads nothing and changes nothing. -/

set_option autoImplicit false

namespace Telegenic.Genicam

open Library

section Plain

variable {P : Platform} {n : Nat} {σ : Type}

def Direct.plain : Direct P n → Except Stop Int64
  | .litInt v => .ok v
  | .litFloat v => .ok (P.round v)
  | .link (.name name) => .error (.error (.dangling name))
  | .link (.id _) | .none | .litStr _ => .error (.error (.wrongType "<value reference>"))

def ValueRef.plain : ValueRef P n → Except Stop Int64
  | .direct value => value.plain
  | .indexed ix =>
      match ix.index with
      | .name name => .error (.error (.dangling name))
      | .id _ => .error (.error (.wrongType "<value reference>"))

def plainSum : Int64 → List (ValueRef P n) → Except Stop Int64
  | address, [] => .ok address
  | address, term :: terms =>
      match term.plain with
      | .ok value => plainSum (address + value) terms
      | .error stop => .error stop

def plainLength (name : String) (length : ValueRef P n) : Except Stop Nat :=
  if length.isNone then .ok 4
  else
    match length.plain with
    | .ok value =>
        if 0 ≤ value.toInt ∧ value.toInt ≤ maxRegisterLength then .ok value.toInt.toNat
        else .error (.error (.outOfRange name value 0 (Int64.ofNat maxRegisterLength)))
    | .error stop => .error stop

def RegisterCommon.place (name : String) (common : RegisterCommon P n) : Except Stop (Nat × Nat) :=
  match plainSum 0 common.addressTerms with
  | .error stop => .error stop
  | .ok address =>
      match plainLength name common.length with
      | .error stop => .error stop
      | .ok length => .ok (address.toBitVec.toNat, length)

theorem RegisterCommon.place_length {name : String} {common : RegisterCommon P n} {address length : Nat}
    (placed : common.place name = .ok (address, length)) : plainLength name common.length = .ok length := by
  unfold RegisterCommon.place at placed
  split at placed
  · nomatch placed
  · split at placed
    · nomatch placed
    · cases placed
      assumption

structure RegisterCommon.IsPlain (common : RegisterCommon P n) : Prop where
  address : ∀ term ∈ common.addressTerms, term.targets = []
  length : common.length.targets = []

variable (nested : Calls P n σ) (w : World P n σ)

theorem refInt_plain {value : ValueRef P n} (plain : value.targets = []) : refInt nested value w = (value.plain, w) := by
  cases value with
  | direct value =>
    cases value with
    | link link =>
      cases link with
      | name name => rfl
      | id target => nomatch plain
    | none | litInt | litFloat | litStr => rfl
  | indexed ix =>
    obtain ⟨index, entries, default⟩ := ix
    cases index with
    | name name => rfl
    | id target => nomatch plain

theorem sumTerms_plain {terms : List (ValueRef P n)} : ∀ {address : Int64}, (∀ term ∈ terms, term.targets = []) →
    sumTerms nested address terms w = (plainSum address terms, w) := by
  induction terms with
  | nil => exact fun _ => rfl
  | cons term terms ih =>
    intro address plain
    rw [List.forall_mem_cons] at plain
    rw [sumTerms, Stateful.bind_apply, refInt_plain nested w plain.1, plainSum]
    cases term.plain with
    | ok value => exact ih plain.2
    | error stop => rfl

theorem registerLength_plain {id : Fin n} {length : ValueRef P n} (plain : length.targets = []) :
    registerLength nested id length w = (plainLength (w.backing.description.name id) length, w) := by
  unfold registerLength plainLength
  by_cases absent : length.isNone
  · simp only [absent, if_true]
    rfl
  · simp only [absent]
    rw [if_neg Bool.false_ne_true, if_neg Bool.false_ne_true, Stateful.bind_apply, refInt_plain nested w plain]
    cases length.plain with
    | error stop => rfl
    | ok value =>
      simp only
      split <;> rfl

theorem registerAddress_plain {id : Fin n} {common : RegisterCommon P n} {kind : RegKind}
    (found : w.backing.description.node id = .register common kind) (plain : common.IsPlain) :
    registerAddress nested id w = (common.place (w.backing.description.name id), w) := by
  rw [registerAddress, Stateful.bind_apply, nodeAt, Stateful.read, found]
  simp only
  rw [Stateful.bind_apply, sumTerms_plain nested w plain.address, RegisterCommon.place]
  cases plainSum 0 common.addressTerms with
  | error stop => rfl
  | ok address =>
    simp only
    rw [Stateful.bind_apply, registerLength_plain nested w plain.length]
    cases plainLength (w.backing.description.name id) common.length <;> rfl

end Plain

/-! ## Over plain memory -/

section Memory

variable {P : Platform} {n : Nat} (nested : Calls P n (List UInt8)) (w : World P n (List UInt8)) {id : Fin n}
  {common : RegisterCommon P n} {kind : RegKind} {address length : Nat} {bytes after : List UInt8}

theorem registerFetch_plain (found : w.backing.description.node id = .register common kind) (plain : common.IsPlain)
    (placed : common.place (w.backing.description.name id) = .ok (address, length))
    (loaded : load? w.backing.port address length = some bytes) :
    registerFetch mockPort nested id w = (.ok bytes, { w with backing := w.backing.remember id bytes }) := by
  rw [registerFetch, Stateful.bind_apply, registerAddress_plain nested w found plain, placed]
  simp only [Stateful.bind_apply, onPort, mockPort_read, loaded]
  rfl

theorem registerWrite_plain (found : w.backing.description.node id = .register common kind) (plain : common.IsPlain)
    (writable : common.access ≠ .RO)
    (placed : common.place (w.backing.description.name id) = .ok (address, length))
    (stored : store? w.backing.port address bytes = some after) :
    registerWrite mockPort nested id bytes w =
      (.ok (), { w with backing := { w.backing with port := after }.afterWrite id bytes }) := by
  rw [registerWrite, Stateful.bind_apply, nodeAt, Stateful.read, found]
  simp only [if_neg writable]
  rw [Stateful.bind_apply, registerAddress_plain nested w found plain, placed]
  simp only [Stateful.bind_apply, onPort, mockPort_write_some stored]
  rfl

end Memory

end Telegenic.Genicam
