import Telegenic.Genicam.Places

/-! Caches over plain memory. Where no register's place is another node's
value and no two registers overlap, what a cache holds is what the device
would answer, and a graph with caches answers every call as it would without
them. -/

set_option autoImplicit false

namespace Telegenic.Genicam

open Library

section Transparent

variable {P : Platform} {n : Nat}

def Description.placed (description : Description P n) (id : Fin n) : Option (Nat × Nat) :=
  match description.node id with
  | .register common _ => (common.place (description.name id)).toOption
  | _ => none

def Description.PlainRegisters (description : Description P n) : Prop :=
  ∀ id common kind, description.node id = .register common kind → common.IsPlain

def Description.Apart (description : Description P n) : Prop :=
  ∀ id other address length address' length', id ≠ other → description.placed id = some (address, length) →
    description.placed other = some (address', length') → address + length ≤ address' ∨ address' + length' ≤ address

def Description.Valid (description : Description P n) (memory : List UInt8) (cache : Fin n → Option (List UInt8)) : Prop :=
  ∀ id bytes, cache id = some bytes →
    ∃ address length, description.placed id = some (address, length) ∧ load? memory address length = some bytes

structure Description.Uncached (description : Description P n) (s t : Backing P n (List UInt8)) : Prop where
  same : s.description = t.description
  shaped : description.Shaped s.description
  port : s.port = t.port
  uncached : ∀ id, t.cachable id = .noCache
  valid : description.Valid s.port s.cache

def Comparison.cacheless (description : Description P n) : Comparison P n (List UInt8) where
  backing := description.Uncached
  byName := description.byName
  refs := description.Refers
  fits id bytes := ∀ address length, description.placed id = some (address, length) → bytes.length = length
  clean := False

variable {description : Description P n}

theorem cacheless_steady : (Comparison.cacheless description).Steady where
  description related := related.same
  byName related := related.shaped.byName
  targets related id _ named := (related.shaped.node id).targets _ named
  dropped related := { related with valid := nofun }

theorem cacheless_settable : (Comparison.cacheless description).Settable where
  toSteady := cacheless_steady
  literal := by
    rintro s t id old literal ⟨node, ⟨_, _, known, rfl⟩, held⟩ given plain related
    obtain ⟨first, held, given⟩ := (known.shaped.node id).held held given
    exact { related with
      same := congrArg (Description.setLiteral · id literal) related.same
      shaped := related.shaped.setLiteral held given plain }

/-! ## Registers -/

section Caches

variable {s t : Backing P n (List UInt8)} {id : Fin n} {address length : Nat} {bytes after : List UInt8}

theorem Description.Uncached.remember (related : description.Uncached s t)
    (placed : description.placed id = some (address, length)) (loaded : load? s.port address length = some bytes) :
    description.Uncached (s.remember id bytes) (t.remember id bytes) := by
  rw [Backing.remember, Backing.remember, if_pos (related.uncached id)]
  split
  · exact related
  · refine { related with valid := fun other held kept => ?_ }
    by_cases same : other = id
    · subst same
      simp only [Function.update_self] at kept
      cases kept
      exact ⟨address, length, placed, loaded⟩
    · simp only [Function.update_of_ne same] at kept
      exact related.valid other held kept

theorem Description.Uncached.afterWrite (related : description.Uncached s t) (apart : description.Apart)
    (placed : description.placed id = some (address, length)) (sized : bytes.length = length)
    (stored : store? s.port address bytes = some after) :
    description.Uncached ({ s with port := after }.afterWrite id bytes) ({ t with port := after }.afterWrite id bytes) := by
  refine { related with port := rfl, valid := fun other held kept => ?_ }
  rw [Backing.afterWrite_cache] at kept
  split at kept
  · nomatch kept
  · split at kept
    case isTrue same =>
      subst same
      split at kept
      · cases kept
        exact ⟨address, length, placed, by rw [← sized]; exact load?_store? stored⟩
      · nomatch kept
    case isFalse distinct =>
      obtain ⟨address', length', placed', loaded⟩ := related.valid other held kept
      refine ⟨address', length', placed', ?_⟩
      have disjoint := apart other id address' length' address length distinct placed' placed
      rw [← loaded]
      exact load?_store?_apart stored (by omega)

end Caches

section Registers

variable {stack : List (Fin n)} {first second : Calls P n (List UInt8)} {id : Fin n} {common : RegisterCommon P n}
  {kind : RegKind} {s t : World P n (List UInt8)}

theorem Description.Shaped.register {now : Description P n} (shaped : description.Shaped now)
    (found : now.node id = .register common kind) : description.node id = .register common kind := by
  have kept := shaped.node id
  generalize now.node id = node at kept found
  cases kept with
  | same => exact found
  | literal held =>
    cases node : description.node id <;> simp_all [Node.setLiteral]

theorem Known.register (known : (Comparison.cacheless description).Known id (.register common kind))
    (between : (Comparison.cacheless description).Between stack s t) :
    s.backing.description.node id = .register common kind := by
  obtain ⟨now, _, related, found⟩ := known
  have first := related.shaped.register found
  exact (between.backing.shaped.node_eq fun value held => by rw [first] at held; nomatch held).trans first

theorem Description.Shaped.placed {now : Description P n} (shaped : description.Shaped now)
    (found : now.node id = .register common kind) (address length : Nat) :
    description.placed id = some (address, length) ↔ common.place (now.name id) = .ok (address, length) := by
  simp only [Description.placed, shaped.register found, shaped.name]
  cases common.place (description.name id) with
  | error stop => exact ⟨nofun, nofun⟩
  | ok place => exact ⟨fun same => congrArg Except.ok (Option.some.inj same), fun same => by cases same; rfl⟩

variable (plain : description.PlainRegisters)

include plain

variable (first second) in
theorem registerAddress_cacheless (between : (Comparison.cacheless description).Between stack s t)
    (found : s.backing.description.node id = .register common kind) :
    registerAddress first id s = (common.place (s.backing.description.name id), s) ∧
      registerAddress second id t = (common.place (s.backing.description.name id), t) := by
  have isPlain := plain id common kind (between.backing.shaped.register found)
  refine ⟨registerAddress_plain first s found isPlain, ?_⟩
  rw [registerAddress_plain second t (between.backing.same ▸ found) isPlain, ← between.backing.same]

theorem lengths_cacheless (nested : (Comparison.cacheless description).Reading stack first second id)
    (known : (Comparison.cacheless description).Known id (.register common kind)) :
    (Comparison.cacheless description).Alike stack
      (fun length => ∀ bytes : List UInt8, bytes.length = length → (Comparison.cacheless description).fits id bytes)
      (registerLength first id common.length) (registerLength second id common.length) := by
  have referred := (List.forall_mem_append.mp (nested.targets cacheless_steady known)).2
  refine (Comparison.registerLength_alike cacheless_steady referred).strengthen ?_
  intro s t length s' between returned bytes sized address length' placed
  obtain ⟨now, _, related, found⟩ := known
  rw [registerLength_plain first s (plain id common kind (related.shaped.register found)).length,
    between.backing.shaped.name, ← related.shaped.name,
    RegisterCommon.place_length ((related.shaped.placed found _ _).mp placed)] at returned
  cases returned
  exact sized

theorem fetch_cacheless (nested : (Comparison.cacheless description).Reading stack first second id)
    (between : (Comparison.cacheless description).Between stack s t)
    (found : s.backing.description.node id = .register common kind) :
    Agree ((Comparison.cacheless description).Between stack) ((Comparison.cacheless description).Failed stack)
      (fun bytes => ∀ written : List UInt8, written.length = bytes.length →
        (Comparison.cacheless description).fits id written)
      (registerFetch mockPort first id s) (registerFetch mockPort second id t) := by
  have agreed := Comparison.registerAddress_alike cacheless_steady nested s t between
  obtain ⟨here, there⟩ := registerAddress_cacheless first second plain between found
  have placed := fun address length => (between.backing.shaped.placed found address length).mpr
  rw [here, there] at agreed
  rw [registerFetch, registerFetch, Stateful.bind_apply, Stateful.bind_apply, here, there]
  generalize common.place (s.backing.description.name id) = place at agreed placed ⊢
  cases place with
  | error stop =>
    cases agreed with
    | error related => exact .error related
  | ok place =>
    obtain ⟨address, length⟩ := place
    simp only [Stateful.bind_apply, onPort, mockPort_read, ← between.backing.port]
    cases loaded : load? s.backing.port address length with
    | none => exact .error ⟨{ between.backing with port := rfl }, between.first, between.second, fun _ => rfl⟩
    | some bytes =>
      have related : description.Uncached s.backing { t.backing with port := s.backing.port } :=
        { between.backing with port := rfl }
      refine .ok ?_ ⟨related.remember (placed address length rfl) loaded, between.first, between.second⟩
      intro written sized address' length' placed'
      cases (placed address length rfl).symm.trans placed'
      exact sized.trans (load?_length loaded)

theorem reads_cacheless (nested : (Comparison.cacheless description).Reading stack first second id) :
    (Comparison.cacheless description).Alike stack
      (fun bytes => ∀ written : List UInt8, written.length = bytes.length →
        (Comparison.cacheless description).fits id written)
      (registerRead mockPort first id) (registerRead mockPort second id) := by
  refine (Comparison.nodeAt_alike cacheless_steady).bind fun node known => ?_
  cases node with
  | register common kind =>
    simp only
    split
    · exact Comparison.refuse_alike cacheless_steady fun _ => rfl
    · intro s t between
      have found := Known.register known between
      have fetched := fetch_cacheless plain nested between found
      have empty : t.backing.cached id = none := if_pos (between.backing.uncached id)
      simp only [Stateful.bind_apply, Stateful.read, empty]
      cases held : s.backing.cached id with
      | none => exact fetched
      | some bytes =>
        -- Only the graph without caches asks the device, which answers what the cache holds.
        have kept : s.backing.cache id = some bytes := by
          unfold Backing.cached at held
          split at held
          · nomatch held
          · exact held
        obtain ⟨address, length, placed, loaded⟩ := between.backing.valid id bytes kept
        have answered := registerFetch_plain second t (between.backing.same ▸ found)
          (plain id common kind (between.backing.shaped.register found))
          (between.backing.same ▸ (between.backing.shaped.placed found _ _).mp placed)
          (between.backing.port ▸ loaded)
        rw [Backing.remember, if_pos (between.backing.uncached id)] at answered
        rw [answered]
        refine .ok ?_ between
        intro written sized address' length' placed'
        cases placed.symm.trans placed'
        exact sized.trans (load?_length loaded)
  | category | integer | float | boolean | stringFeat | enumeration | command | converter | swissKnife | port =>
    exact Comparison.refuse_alike cacheless_steady fun _ => rfl

theorem writes_cacheless (apart : description.Apart) {bytes : List UInt8}
    (nested : (Comparison.cacheless description).Reading stack first second id)
    (fits : (Comparison.cacheless description).fits id bytes) :
    (Comparison.cacheless description).Alike stack (fun _ => True) (registerWrite mockPort first id bytes)
      (registerWrite mockPort second id bytes) := by
  refine (Comparison.nodeAt_alike cacheless_steady).bind fun node known => ?_
  cases node with
  | register common kind =>
    simp only
    split
    · exact Comparison.refuse_alike cacheless_steady fun _ => rfl
    · intro s t between
      have found := Known.register known between
      have agreed := Comparison.registerAddress_alike cacheless_steady nested s t between
      obtain ⟨here, there⟩ := registerAddress_cacheless first second plain between found
      have placed := fun address length => (between.backing.shaped.placed found address length).mpr
      rw [here, there] at agreed
      rw [Stateful.bind_apply, Stateful.bind_apply, here, there]
      generalize common.place (s.backing.description.name id) = place at agreed placed ⊢
      cases place with
      | error stop =>
        cases agreed with
        | error related => exact .error related
      | ok place =>
        obtain ⟨address, length⟩ := place
        have there := placed address length rfl
        cases stored : store? s.backing.port address bytes with
        | none =>
          simp only [Stateful.bind_apply, onPort, ← between.backing.port, mockPort_write_none stored]
          exact .error ⟨{ between.backing with port := rfl }, between.first, between.second, fun _ => rfl⟩
        | some after =>
          simp only [Stateful.bind_apply, onPort, ← between.backing.port, mockPort_write_some stored]
          refine .ok trivial ⟨?_, between.first, between.second⟩
          exact between.backing.afterWrite apart there (fits address length there) stored
  | category | integer | float | boolean | stringFeat | enumeration | command | converter | swissKnife | port =>
    exact Comparison.refuse_alike cacheless_steady fun _ => rfl

theorem cacheless_respected (apart : description.Apart) : (Comparison.cacheless description).Respected mockPort where
  toSettable := cacheless_settable
  lengths := lengths_cacheless plain
  reads := reads_cacheless plain
  writes := writes_cacheless plain apart

end Registers

end Transparent

/-! ## Runs -/

section Replies

variable {P : Platform} {n : Nat} {σ : Type}

def replies (port : PortIo σ) : List (Call P n) → World P n σ → List (Except Stop (Reply P))
  | [], _ => []
  | call :: rest, w => (perform port call w).1 :: replies port rest (perform port call w).2

variable {description : Description P n} {s t : World P n (List UInt8)}

theorem perform_cacheless (plain : description.PlainRegisters) (apart : description.Apart)
    (between : (Comparison.cacheless description).Between [] s t) (call : Call P n) :
    (perform mockPort call s).1 = (perform mockPort call t).1 ∧
      (Comparison.cacheless description).Between [] (perform mockPort call s).2 (perform mockPort call t).2 := by
  have alike : (Comparison.cacheless description).Alike [] (fun _ => True) (performWithin mockPort (n + 2) call)
      (performWithin mockPort (n + 2) call) :=
    Comparison.performWithin_alike (Nat.lt_succ_self (n + 1)) (Nat.le_refl _) nofun (cacheless_respected plain apart)
  have agreed := alike s t between
  unfold perform
  generalize performWithin mockPort _ call s = left at agreed ⊢
  generalize performWithin mockPort _ call t = right at agreed ⊢
  cases agreed with
  | ok _ related => exact ⟨rfl, related⟩
  | @error stop _ _ related =>
    have idle : stop.unwound ([] : List (Fin n)) = [] := by cases stop <;> simp [Stop.unwound]
    exact ⟨rfl, related.backing, related.first.trans idle, related.second.trans idle⟩

theorem replies_cacheless (plain : description.PlainRegisters) (apart : description.Apart) (calls : List (Call P n)) :
    ∀ {s t : World P n (List UInt8)}, (Comparison.cacheless description).Between [] s t →
      replies mockPort calls s = replies mockPort calls t := by
  induction calls with
  | nil => exact fun _ => rfl
  | cons call rest ih =>
    intro s t between
    obtain ⟨same, after⟩ := perform_cacheless plain apart between call
    rw [replies, replies, same, ih after]

def Description.build (description : Description P n) (cachable : Fin n → Cachable) (memory : List UInt8) :
    World P n (List UInt8) :=
  .start { description, cachable, cache := fun _ => none, port := memory }

theorem Description.cached_build {P : Platform} {n : Nat} (description : Description P n) (cachable : Fin n → Cachable)
    (memory : List UInt8) (id : Fin n) : (description.build cachable memory).backing.cached id = none :=
  ite_self _

/-- A graph whose registers lie at places of their own, apart from each other,
returns what it returns without caches. -/
theorem caching_transparent (description : Description P n) (plain : description.PlainRegisters)
    (apart : description.Apart) (cachable : Fin n → Cachable) (memory : List UInt8) (calls : List (Call P n)) :
    replies mockPort calls (description.build cachable memory) =
      replies mockPort calls (description.build (fun _ => .noCache) memory) := by
  apply replies_cacheless plain apart
  exact ⟨⟨rfl, .refl _, rfl, fun _ => rfl, nofun⟩, rfl, rfl⟩

end Replies

def sideBySide : Description plainPlatform 2 where
  name id := ["Gain", "Status"].getD id ""
  node id := [plainRegister 0 4, plainRegister 4 4].getD id .port
  byName name := ["Gain", "Status"].findFinIdx? (· == name)
  invalidates _ := []

theorem sideBySide_plain : sideBySide.PlainRegisters := by
  intro id common kind found
  have address : common.addressTerms = [.direct (.litInt (if id = 0 then 0 else 4))] := by
    match id with
    | 0 => cases found; rfl
    | 1 => cases found; rfl
  have length : common.length = .direct (.litInt 4) := by
    match id with
    | 0 => cases found; rfl
    | 1 => cases found; rfl
  constructor
  · rw [address]
    exact fun term listed => by rw [List.mem_singleton.mp listed]; rfl
  · rw [length]
    rfl

theorem sideBySide_apart : sideBySide.Apart := by
  intro id other address length address' length' distinct placed placed'
  match id, other with
  | 0, 0 | 1, 1 => exact absurd rfl distinct
  | 0, 1 | 1, 0 =>
    cases placed
    cases placed'
    decide

theorem caching_transparent_sideBySide :
    replies mockPort [.intValue 0, .setIntValue 0 5, .intValue 0]
        (sideBySide.build (fun _ => .writeThrough) (List.replicate 8 0)) =
      replies mockPort [.intValue 0, .setIntValue 0 5, .intValue 0]
        (sideBySide.build (fun _ => .noCache) (List.replicate 8 0)) :=
  caching_transparent sideBySide sideBySide_plain sideBySide_apart _ _ _

/-- A selector, and a register the selector's value is an address term of. -/
def selectorGraph : Description plainPlatform 2 where
  name id := ["Selector", "Value"].getD id ""
  node id :=
    [.integer (.direct (.litInt 0)) (.direct .none) (.direct .none) (.direct .none),
      .register { addressTerms := [.direct (.litInt 0), .direct (.link (.id 0))], length := .direct (.litInt 4), access := .RW }
        (.int .unsigned .little none none)].getD id .port
  byName name := ["Selector", "Value"].findFinIdx? (· == name)
  invalidates _ := []

/-- The cache is kept under the register, not under its address: after the
selector moves the only register there is, it answers for the old place. -/
theorem selector_reads_stale_cache :
    (∀ id, (selectorGraph.node id).isRegister → id = 1) ∧
      replies mockPort [.intValue 1, .setIntValue 0 4, .intValue 1]
          (selectorGraph.build (fun _ => .writeAround) [1, 0, 0, 0, 2, 0, 0, 0]) =
        [.ok (.int 1), .ok .done, .ok (.int 1)] ∧
      replies mockPort [.intValue 1, .setIntValue 0 4, .intValue 1]
          (selectorGraph.build (fun _ => .noCache) [1, 0, 0, 0, 2, 0, 0, 0]) =
        [.ok (.int 1), .ok .done, .ok (.int 2)] :=
  ⟨by decide, rfl, rfl⟩

end Telegenic.Genicam
