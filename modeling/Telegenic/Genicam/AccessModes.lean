import Telegenic.Genicam.Writes

/-! The access mode of a node is found by following the links of values, and a
write is passed on along the same links: on a graph without indexed values no
node that can be written is called read-only, String features apart. -/

set_option autoImplicit false

namespace Telegenic.Genicam

open Library

section Chains

variable {P : Platform} {n : Nat}

def Node.followed? : Node P n → Option (ValueRef P n)
  | .integer value .. | .float value .. | .boolean value .. | .enumeration value .. | .converter value .. => some value
  | _ => none

/-- The mode of a node from which no link is followed: that of a register,
of a number given in place, or of a command. -/
inductive Node.Has : Node P n → AccessMode → Prop where
  | register {common : RegisterCommon P n} {kind : RegKind} : Has (.register common kind) common.access
  | number {node : Node P n} {value : Direct P n} (held : node.followed? = some (.direct value))
      (given : value.isLiteral) (number : value.isText = false) : Has node .RW
  | command {value commandValue : ValueRef P n} : Has (.command value commandValue) .WO

/-- The chain of so many links from the node ends at one of this mode. -/
inductive Description.Chain (description : Description P n) : Nat → Fin n → AccessMode → Prop where
  | last {id : Fin n} {mode : AccessMode} (has : (description.node id).Has mode) : Chain description 0 id mode
  | link {links : Nat} {id next : Fin n} {mode : AccessMode}
      (held : (description.node id).followed? = some (.direct (.link (.id next))))
      (rest : Chain description links next mode) : Chain description (links + 1) id mode

def Description.Unindexed (description : Description P n) : Prop :=
  ∀ id ix, (description.node id).value? ≠ some (.indexed ix)

variable {description : Description P n} {links other : Nat} {id : Fin n} {mode another : AccessMode}

theorem accessModeFrom_link {next : Fin n} (held : (description.node id).followed? = some (.direct (.link (.id next))))
    (steps : Nat) : description.accessModeFrom (steps + 1) id = description.accessModeFrom steps next := by
  rw [Description.accessModeFrom]
  generalize description.node id = node at held ⊢
  cases node <;> cases held <;> rfl

theorem accessModeFrom_number {value : Direct P n} (held : (description.node id).followed? = some (.direct value))
    (given : value.isLiteral) (number : value.isText = false) (steps : Nat) :
    description.accessModeFrom (steps + 1) id = .RW := by
  rw [Description.accessModeFrom]
  generalize description.node id = node at held ⊢
  cases value with
  | litInt | litFloat => cases node <;> cases held <;> rfl
  | litStr => cases number
  | none | link => cases given

theorem Node.Has.unlinked {node : Node P n} {next : Link n} (has : node.Has mode) :
    node.followed? ≠ some (.direct (.link next)) := by
  intro linked
  cases has with
  | register | command => cases linked
  | number held given =>
    cases held.symm.trans linked
    cases given

theorem Node.Has.accessModeFrom (has : (description.node id).Has mode) (steps : Nat) :
    description.accessModeFrom (steps + 1) id = mode := by
  generalize isNode : description.node id = node at has
  cases has with
  | register | command => rw [Description.accessModeFrom, isNode]
  | number held given number =>
    rw [← isNode] at held
    exact accessModeFrom_number held given number steps

theorem Description.Chain.accessModeFrom (chain : description.Chain links id mode) :
    ∀ {steps : Nat}, links < steps → description.accessModeFrom steps id = mode := by
  induction chain with
  | last has =>
    intro steps within
    obtain ⟨steps, rfl⟩ := Nat.exists_eq_add_of_le' within
    exact has.accessModeFrom steps
  | link held _ ih =>
    intro steps within
    obtain ⟨steps, rfl⟩ := Nat.exists_eq_add_of_le' (Nat.one_le_of_lt within)
    rw [accessModeFrom_link held]
    exact ih (Nat.lt_of_succ_lt_succ within)

theorem Description.Chain.links_eq (chain : description.Chain links id mode) :
    ∀ {other another}, description.Chain other id another → links = other := by
  induction chain with
  | last has =>
    intro other another second
    cases second with
    | last => rfl
    | link held => exact absurd held has.unlinked
  | link held _ ih =>
    intro other another second
    cases second with
    | last has => exact absurd held has.unlinked
    | link linked rest =>
      cases held.symm.trans linked
      rw [ih rest]

theorem Description.Chain.links_lt (chain : description.Chain links id mode) : links < n := by
  have nodes : ∃ node : Nat → Fin n, ∀ behind ≤ links, description.Chain behind (node behind) mode := by
    induction chain with
    | @last id mode has =>
      refine ⟨fun _ => id, fun behind none => ?_⟩
      rw [Nat.le_zero.mp none]
      exact .last has
    | @link links id next mode held rest ih =>
      obtain ⟨node, behind⟩ := ih
      refine ⟨Function.update node (links + 1) id, fun place within => ?_⟩
      by_cases first : place = links + 1
      · subst first
        rw [Function.update_self]
        exact .link held rest
      · rw [Function.update_of_ne first]
        exact behind place (by omega)
  obtain ⟨node, behind⟩ := nodes
  have injective : Function.Injective fun place : Fin (links + 1) => node place := by
    intro first second same
    have chain := behind second (by omega)
    rw [← show node first = node second from same] at chain
    exact Fin.ext ((behind first (by omega)).links_eq chain)
  have few := Fintype.card_le_of_injective _ injective
  rw [Fintype.card_fin, Fintype.card_fin] at few
  exact few

theorem Description.Chain.perform_accessMode {σ : Type} {backing : Backing P n σ}
    (chain : backing.description.Chain links id mode) (port : PortIo σ) :
    perform port (.accessMode id) (.start backing) = (.ok (.access mode), .start backing) := by
  have found := chain.accessModeFrom (Nat.lt_succ_of_lt chain.links_lt)
  rw [← found]
  rfl

end Chains

section Writable

variable {P : Platform} {n : Nat} {σ : Type} {description : Description P n} {port : PortIo σ}

def Description.Writable (description : Description P n) (id : Fin n) : Prop :=
  ∃ links mode, description.Chain links id mode ∧ mode ≠ .RO

theorem registerWrite_writable {stack : List (Fin n)} {nested : Calls P n σ} {id : Fin n} {bytes : List UInt8}
    (isRegister : (description.node id).isRegister) :
    Achieves description stack (fun _ => description.Writable id) (registerWrite port nested id bytes) := by
  intro w value w' between succeeded
  simp only [registerWrite, nodeAt, Stateful.bind_apply, Stateful.read, between.backing.2] at succeeded
  cases found : description.node id with
  | register common kind =>
    simp only [found] at succeeded
    split at succeeded
    · cases succeeded
    · rename_i writable
      exact ⟨0, common.access, .last (found ▸ .register), writable⟩
  | _ =>
    rw [found] at isRegister
    cases isRegister

theorem ends_writable (unindexed : description.Unindexed) :
    Ends description port (fun id => (description.node id).isString = false) fun id _ => description.Writable id where
  register _ isRegister := registerWrite_writable isRegister
  literal := by
    intro stack id old literal numeric held given text w value w' _ _
    cases found : description.node id with
    | command => exact ⟨0, .WO, .last (found ▸ .command), nofun⟩
    | stringFeat =>
      rw [found] at numeric
      cases numeric
    | _ =>
      rw [found] at held text
      exact ⟨0, .RW, .last (.number (by rw [found]; exact held) given text.symm), nofun⟩
  forward := by
    rintro id target w numeric ⟨value, held, named⟩ ⟨links, mode, chain, writable⟩
    cases value with
    | indexed ix => exact absurd held (unindexed id ix)
    | direct value =>
      obtain rfl : value = .link (.id target) := by
        cases value with
        | link link =>
          cases link with
          | id next => rw [List.mem_singleton.mp named]
          | name => cases named
        | none | litInt | litFloat | litStr => cases named
      cases found : description.node id with
      | command => exact ⟨0, .WO, .last (found ▸ .command), nofun⟩
      | stringFeat =>
        rw [found] at numeric
        cases numeric
      | _ =>
        rw [found] at held
        exact ⟨links + 1, mode, .link (by rw [found]; exact held) chain, writable⟩
  numeric numeric := numeric
  strings numeric isString := by
    rw [numeric] at isString
    cases isString

end Writable

/-- A String feature over a text register, beside a feature over a register. -/
def stringGraph : Backing plainPlatform 4 (List UInt8) where
  description :=
    { name := fun id => ["Id", "IdReg", "Gain", "GainReg"].getD id ""
      node := fun id =>
        [.stringFeat (.direct (.link (.id 1))),
          .register ⟨[.direct (.litInt 0)], .direct (.litInt 4), .RW⟩ .text,
          .integer (.direct (.link (.id 3))) (.direct .none) (.direct .none) (.direct .none),
          plainRegister 4 4].getD id .port
      byName := fun _ => none
      invalidates := fun _ => [] }
  cachable := fun _ => .noCache
  cache := fun _ => none
  port := List.replicate 8 0

theorem stringGraph_unindexed : stringGraph.description.Unindexed := by
  intro id ix held
  fin_cases id <;> cases held

end Telegenic.Genicam
