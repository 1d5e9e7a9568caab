import Telegenic.Genicam.Engine

/-! The static reference relation of a description: the nodes a node names,
whatever the values of the nodes are. Formulas refer to the nodes of the
variables they use that are not built in. -/

set_option autoImplicit false

namespace Telegenic.Genicam

variable {P : Platform} {n : Nat}

def Link.targets : Link n → List (Fin n)
  | .id target => [target]
  | .name _ => []

def Direct.targets : Direct P n → List (Fin n)
  | .link named => named.targets
  | _ => []

def Indexed.targets (ix : Indexed P n) : List (Fin n) :=
  ix.index.targets ++ (ix.entries.flatMap (·.2.targets) ++ ix.default.targets)

def ValueRef.targets : ValueRef P n → List (Fin n)
  | .direct value => value.targets
  | .indexed ix => ix.targets

def formulaTargets (P : Platform) (byName : String → Option (Fin n)) (formula : String)
    (vars : List (String × Link n)) (bound : List String) : List (Fin n) :=
  match P.parse formula with
  | .error _ => []
  | .ok expr =>
      ((P.vars expr).filter (· ∉ bound)).flatMap fun name =>
        match vars.find? fun entry => entry.1 == name with
        | some (_, link) => link.targets
        | none => (byName name).toList

def Node.targets (byName : String → Option (Fin n)) : Node P n → List (Fin n)
  | .integer value min max inc => value.targets ++ (min.targets ++ (max.targets ++ inc.targets))
  | .float value min max => value.targets ++ (min.targets ++ max.targets)
  | .boolean value .. | .stringFeat value | .enumeration value _ => value.targets
  | .command value commandValue => value.targets ++ commandValue.targets
  | .register common _ => common.addressTerms.flatMap ValueRef.targets ++ common.length.targets
  | .converter value formulaTo formulaFrom vars =>
      value.targets ++
        (formulaTargets P byName formulaTo vars ["FROM"] ++ formulaTargets P byName formulaFrom vars ["TO"])
  | .swissKnife formula vars => formulaTargets P byName formula vars []
  | .category _ | .port => []

def Description.Refers (description : Description P n) (id target : Fin n) : Prop :=
  target ∈ (description.node id).targets description.byName

theorem Indexed.index_targets {ix : Indexed P n} {target : Fin n} (named : target ∈ ix.index.targets) :
    target ∈ ix.targets :=
  List.mem_append_left _ named

theorem Indexed.pick_targets {ix : Indexed P n} {place : Int64} {target : Fin n}
    (picked : target ∈ (ix.pick place).targets) : target ∈ ix.targets := by
  apply List.mem_append_right
  unfold Indexed.pick at picked
  split at picked
  case h_1 entry found =>
    exact List.mem_append_left _ (List.mem_flatMap.mpr ⟨_, List.mem_of_find?_eq_some found, picked⟩)
  case h_2 => exact List.mem_append_right _ picked

theorem formulaTargets_variableLink {formula : String} {vars : List (String × Link n)} {bound : List String}
    {expr : P.Expr} {name : String} {link : Link n} {target : Fin n} (description : Description P n)
    (parsed : P.parse formula = .ok expr) (used : name ∈ P.vars expr) (free : name ∉ bound)
    (linked : description.variableLink vars name = some link) (named : target ∈ link.targets) :
    target ∈ formulaTargets P description.byName formula vars bound := by
  rw [formulaTargets, parsed]
  refine List.mem_flatMap.mpr ⟨name, List.mem_filter.mpr ⟨used, by simpa using free⟩, ?_⟩
  unfold Description.variableLink at linked
  split at linked
  · rename_i found
    cases linked
    simpa only [found] using named
  · rename_i found
    obtain ⟨id, known, rfl⟩ := Option.map_eq_some_iff.mp linked
    rw [Link.targets, List.mem_singleton] at named
    simpa only [found] using Option.mem_toList.mpr (named ▸ known)

theorem Direct.literal_targets {value : Direct P n} (plain : value.isLiteral) : value.targets = [] := by
  cases value with
  | litInt | litFloat | litStr => rfl
  | none | link => nomatch plain

theorem Node.setLiteral_targets {literal : Direct P n} (plain : literal.isLiteral)
    (byName : String → Option (Fin n)) (node : Node P n) {target : Fin n}
    (named : target ∈ (node.setLiteral literal).targets byName) : target ∈ node.targets byName := by
  have nothing := Direct.literal_targets plain
  cases node <;> simp_all [Node.setLiteral, Node.targets, ValueRef.targets]

/-! ## Shapes -/

theorem Node.setLiteral_setLiteral (node : Node P n) (first second : Direct P n) :
    (node.setLiteral first).setLiteral second = node.setLiteral second := by
  cases node <;> rfl

/-- The node as calls may have left it: only a literal value changes, and only
to another literal. -/
inductive Node.Shaped (node : Node P n) : Node P n → Prop where
  | same : Shaped node node
  | literal {old new : Direct P n} (held : node.value? = some (.direct old)) (given : old.isLiteral)
      (plain : new.isLiteral) : Shaped node (node.setLiteral new)

structure Description.Shaped (description now : Description P n) : Prop where
  name : now.name = description.name
  byName : now.byName = description.byName
  invalidates : now.invalidates = description.invalidates
  node : ∀ id, (description.node id).Shaped (now.node id)

theorem Description.Shaped.refl (description : Description P n) : description.Shaped description where
  name := rfl
  byName := rfl
  invalidates := rfl
  node _ := .same

theorem Node.Shaped.targets {node now : Node P n} (shaped : node.Shaped now) (byName : String → Option (Fin n))
    {target : Fin n} (named : target ∈ now.targets byName) : target ∈ node.targets byName := by
  cases shaped with
  | same => exact named
  | literal _ _ plain => exact Node.setLiteral_targets plain byName node named

theorem Node.Shaped.held {node now : Node P n} (shaped : node.Shaped now) {old : Direct P n}
    (holds : now.value? = some (.direct old)) (given : old.isLiteral) :
    ∃ first, node.value? = some (.direct first) ∧ first.isLiteral := by
  cases shaped with
  | same => exact ⟨old, holds, given⟩
  | @literal first _ held given => exact ⟨first, held, given⟩

theorem Node.Shaped.setLiteral {node now : Node P n} (shaped : node.Shaped now) {old new : Direct P n}
    (held : node.value? = some (.direct old)) (given : old.isLiteral) (plain : new.isLiteral) :
    node.Shaped (now.setLiteral new) := by
  cases shaped with
  | same => exact .literal held given plain
  | literal =>
    rw [Node.setLiteral_setLiteral]
    exact .literal held given plain

theorem Description.Shaped.setLiteral {description now : Description P n} (shaped : description.Shaped now) {set : Fin n}
    {old new : Direct P n} (held : (description.node set).value? = some (.direct old)) (given : old.isLiteral)
    (plain : new.isLiteral) : description.Shaped (now.setLiteral set new) :=
  { shaped with
    node := fun id => by
      by_cases same : id = set
      · subst same
        simp only [Description.setLiteral, Function.update_self]
        exact (shaped.node id).setLiteral held given plain
      · simp only [Description.setLiteral, Function.update_of_ne same]
        exact shaped.node id }

theorem Description.Shaped.node_eq {description now : Description P n} (shaped : description.Shaped now) {id : Fin n}
    (fixed : ∀ value, (description.node id).value? = some (.direct value) → ¬ value.isLiteral) :
    now.node id = description.node id := by
  have kept := shaped.node id
  generalize now.node id = node at kept
  cases kept with
  | same => rfl
  | literal held given => exact absurd given (fixed _ held)

end Telegenic.Genicam
