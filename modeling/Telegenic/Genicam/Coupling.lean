import Telegenic.Genicam.References

/-! Two evaluations of one graph, compared. A `Comparison` says which states
correspond; where the register accesses and the changes of literals respect
it, so does every node's evaluation, provided the evaluations of the nodes it
refers to do. The comparison also follows the visit stack: a call ends with
the stack it began with, or with an empty one if it met a node twice. -/

set_option autoImplicit false

namespace Telegenic.Genicam

open Library

def GenicamError.isCircular : GenicamError → Bool
  | .circular _ => true
  | _ => false

def Stop.unwound {n : Nat} (stack : List (Fin n)) : Stop → List (Fin n)
  | .error e => if e.isCircular then [] else stack
  | .depth => stack

theorem Stop.unwound_plain {n : Nat} (stack : List (Fin n)) {e : GenicamError} (plain : e.isCircular = false) :
    (Stop.error e).unwound stack = stack := by
  simp only [Stop.unwound, plain, Bool.false_eq_true, if_false]

/-- The call did not run out of room and, where that is asked for, did not
meet a node twice. -/
def Stop.Tolerated (clean : Prop) : Stop → Prop
  | .error e => clean → e.isCircular = false
  | .depth => False

theorem encodeFloat_length {P : Platform} {v : P.Float} {length : Nat} {endianness : Endianness} {bytes : List UInt8}
    (encoded : encodeFloat v length endianness = .ok bytes) : bytes.length = length := by
  unfold encodeFloat at encoded
  split at encoded
  · cases encoded
    exact storeU64_length _ (by omega) endianness
  · cases encoded
    exact storeU64_length _ (by omega) endianness
  · nomatch encoded

/-- Which states of two evaluations correspond, the references that may be
followed, what may lie in a register, and whether circular references are
excluded. -/
structure Comparison (P : Platform) (n : Nat) (σ : Type) where
  backing : Backing P n σ → Backing P n σ → Prop
  byName : String → Option (Fin n)
  refs : Fin n → Fin n → Prop
  fits : Fin n → List UInt8 → Prop
  clean : Prop

namespace Comparison

variable {P : Platform} {n : Nat} {σ A B : Type} (C : Comparison P n σ)

structure Between (stack : List (Fin n)) (s t : World P n σ) : Prop where
  backing : C.backing s.backing t.backing
  first : s.visit = stack
  second : t.visit = stack

structure Failed (stack : List (Fin n)) (stop : Stop) (s t : World P n σ) : Prop where
  backing : C.backing s.backing t.backing
  first : s.visit = stop.unwound stack
  second : t.visit = stop.unwound stack
  tolerated : stop.Tolerated C.clean

def Alike (stack : List (Fin n)) (known : A → Prop) (first second : Access P n σ A) : Prop :=
  Coupled (C.Between stack) (C.Failed stack) known first second

structure ReadsAlike (stack : List (Fin n)) (first second : Calls P n σ) (target : Fin n) : Prop where
  intValue : C.Alike stack (fun _ => True) (first.intValue target) (second.intValue target)
  floatValue : C.Alike stack (fun _ => True) (first.floatValue target) (second.floatValue target)

structure CallsAlike (stack : List (Fin n)) (first second : Calls P n σ) (target : Fin n) : Prop
    extends C.ReadsAlike stack first second target where
  setIntValue : ∀ v, C.Alike stack (fun _ => True) (first.setIntValue target v) (second.setIntValue target v)
  setFloatValue : ∀ v, C.Alike stack (fun _ => True) (first.setFloatValue target v) (second.setFloatValue target v)

def Known (id : Fin n) (node : Node P n) : Prop := ∃ s t, C.backing s t ∧ s.description.node id = node

def Holds (id : Fin n) (value : ValueRef P n) : Prop := ∃ node, C.Known id node ∧ node.value? = some value

def Reading (stack : List (Fin n)) (first second : Calls P n σ) (id : Fin n) : Prop :=
  ∀ target, C.refs id target → C.ReadsAlike stack first second target

def Nested (stack : List (Fin n)) (first second : Calls P n σ) (id : Fin n) : Prop :=
  ∀ target, C.refs id target → C.CallsAlike stack first second target

structure Steady : Prop where
  description : ∀ {s t}, C.backing s t → s.description = t.description
  byName : ∀ {s t}, C.backing s t → s.description.byName = C.byName
  targets : ∀ {s t}, C.backing s t → ∀ id, ∀ target ∈ (s.description.node id).targets C.byName, C.refs id target
  dropped : ∀ {s t}, C.backing s t → C.backing { s with cache := fun _ => none } { t with cache := fun _ => none }

structure Settable : Prop extends C.Steady where
  literal : ∀ {s t} {id : Fin n} {old literal : Direct P n}, C.Holds id (.direct old) → old.isLiteral →
    literal.isLiteral → C.backing s t →
    C.backing { s with description := s.description.setLiteral id literal }
      { t with description := t.description.setLiteral id literal }

structure Readable (port : PortIo σ) : Prop extends C.Steady where
  lengths : ∀ {stack first second id common kind}, C.Reading stack first second id →
    C.Known id (.register common kind) →
    C.Alike stack (fun length => ∀ bytes : List UInt8, bytes.length = length → C.fits id bytes)
      (registerLength first id common.length) (registerLength second id common.length)
  reads : ∀ {stack first second id}, C.Reading stack first second id →
    C.Alike stack (fun bytes => ∀ written : List UInt8, written.length = bytes.length → C.fits id written)
      (registerRead port first id) (registerRead port second id)

structure Respected (port : PortIo σ) : Prop extends C.Readable port, C.Settable where
  writes : ∀ {stack first second id bytes}, C.Reading stack first second id → C.fits id bytes →
    C.Alike stack (fun _ => True) (registerWrite port first id bytes) (registerWrite port second id bytes)

variable {C} {stack : List (Fin n)} {first second : Calls P n σ} {id : Fin n}

theorem Nested.reading (nested : C.Nested stack first second id) : C.Reading stack first second id :=
  fun target refers => (nested target refers).toReadsAlike

theorem Alike.pure {known : A → Prop} {value : A} (holds : known value) :
    C.Alike stack known (Pure.pure value) (Pure.pure value) :=
  Coupled.pure holds

theorem Alike.bind {known : A → Prop} {next : B → Prop} {m m' : Access P n σ A} {rest rest' : A → Access P n σ B}
    (begins : C.Alike stack known m m') (goesOn : ∀ value, known value → C.Alike stack next (rest value) (rest' value)) :
    C.Alike stack next (m >>= rest) (m' >>= rest') :=
  Coupled.bind begins goesOn

theorem Alike.map {known : A → Prop} {m m' : Access P n σ A} (change : A → B) (begins : C.Alike stack known m m') :
    C.Alike stack (fun _ => True) (change <$> m) (change <$> m') :=
  Coupled.map begins fun _ _ => trivial

theorem fail_alike {known : A → Prop} {error : GenicamError} (plain : error.isCircular = false) :
    C.Alike stack known (.fail (.error error)) (.fail (.error error)) :=
  Coupled.fail fun _ _ between =>
    { backing := between.backing
      first := between.first.trans (Stop.unwound_plain stack plain).symm
      second := between.second.trans (Stop.unwound_plain stack plain).symm
      tolerated := fun _ => plain }

theorem noValue_alike {known : A → Prop} : C.Alike stack known noValue noValue :=
  fail_alike rfl

theorem resolve_alike (link : Link n) :
    C.Alike stack (fun target => target ∈ link.targets) (resolve link) (resolve link) := by
  cases link with
  | name name => exact fail_alike rfl
  | id target => exact .pure (List.mem_singleton.mpr rfl)

section Lookups

variable (R : C.Steady)

include R

theorem nodeAt_alike : C.Alike stack (C.Known id) (nodeAt id) (nodeAt id) :=
  Coupled.read fun _ _ between =>
    ⟨congrArg (Description.node · id) (R.description between.backing), _, _, between.backing, rfl⟩

theorem Known.targets {node : Node P n} (known : C.Known id node) : ∀ target ∈ node.targets C.byName, C.refs id target := by
  obtain ⟨s, t, related, rfl⟩ := known
  exact R.targets related id

theorem refuse_alike {known : A → Prop} {error : String → GenicamError} (plain : ∀ name, (error name).isCircular = false) :
    C.Alike stack known (refuse error id) (refuse error id) := by
  have named : C.Alike stack (fun _ => True) (nameOf id) (nameOf id) :=
    Coupled.read fun _ _ between => ⟨congrArg (Description.name · id) (R.description between.backing), trivial⟩
  exact named.bind fun name _ => fail_alike (plain name)

theorem orFormula_alike {known : A → Prop} {result : Except String A} (holds : ∀ value, result = .ok value → known value) :
    C.Alike stack known (orFormula id result) (orFormula id result) := by
  cases result with
  | ok value => exact .pure (holds value rfl)
  | error message => exact refuse_alike R fun _ => rfl

end Lookups

/-! ## Values -/

section Values

theorem selected_picks {ix : Indexed P n} (nested : ∀ target ∈ ix.targets, C.ReadsAlike stack first second target) :
    C.Alike stack (fun entry => ∃ place, entry = ix.pick place) (selected first ix) (selected second ix) := by
  refine (resolve_alike ix.index).bind fun index named => ?_
  refine (nested index (Indexed.index_targets named)).intValue.bind fun place _ => ?_
  exact .pure ⟨place, rfl⟩

theorem selected_alike {ix : Indexed P n} {holds : Fin n → Prop}
    (nested : ∀ target ∈ ix.targets, C.ReadsAlike stack first second target) (all : ∀ target ∈ ix.targets, holds target) :
    C.Alike stack (fun entry => ∀ target ∈ entry.targets, holds target) (selected first ix) (selected second ix) := by
  refine (selected_picks nested).weaken ?_
  rintro entry ⟨place, rfl⟩ target picked
  exact all target (Indexed.pick_targets picked)

theorem chosenEntry_alike {value : ValueRef P n}
    (nested : ∀ target ∈ value.targets, C.ReadsAlike stack first second target) :
    C.Alike stack (fun entry => ∀ target ∈ entry.targets, C.ReadsAlike stack first second target)
      (chosenEntry first value) (chosenEntry second value) := by
  cases value with
  | indexed ix => exact selected_alike nested nested
  | direct value => exact .pure nested

theorem directInt_alike {value : Direct P n} (nested : ∀ target ∈ value.targets, C.ReadsAlike stack first second target) :
    C.Alike stack (fun _ => True) (directInt first value) (directInt second value) := by
  cases value with
  | litInt | litFloat => exact .pure trivial
  | link link => exact (resolve_alike link).bind fun target named => (nested target named).intValue
  | none | litStr => exact noValue_alike

theorem refInt_alike {value : ValueRef P n} (nested : ∀ target ∈ value.targets, C.ReadsAlike stack first second target) :
    C.Alike stack (fun _ => True) (refInt first value) (refInt second value) := by
  cases value with
  | direct value => exact directInt_alike nested
  | indexed ix => exact (selected_alike nested nested).bind fun entry nested => directInt_alike nested

theorem directFloat_alike {value : Direct P n}
    (nested : ∀ target ∈ value.targets, C.ReadsAlike stack first second target) :
    C.Alike stack (fun _ => True) (directFloat first value) (directFloat second value) := by
  cases value with
  | litInt | litFloat => exact .pure trivial
  | link link => exact (resolve_alike link).bind fun target named => (nested target named).floatValue
  | none | litStr => exact noValue_alike

theorem refFloat_alike {value : ValueRef P n}
    (nested : ∀ target ∈ value.targets, C.ReadsAlike stack first second target) :
    C.Alike stack (fun _ => True) (refFloat first value) (refFloat second value) := by
  cases value with
  | direct value => exact directFloat_alike nested
  | indexed ix => exact (selected_alike nested nested).bind fun entry nested => directFloat_alike nested

theorem sumTerms_alike {terms : List (ValueRef P n)} : ∀ {address : Int64},
    (∀ target ∈ terms.flatMap ValueRef.targets, C.ReadsAlike stack first second target) →
    C.Alike stack (fun _ => True) (sumTerms first address terms) (sumTerms second address terms) := by
  induction terms with
  | nil => exact fun _ => .pure trivial
  | cons term terms ih =>
    intro address nested
    rw [List.flatMap_cons, List.forall_mem_append] at nested
    exact (refInt_alike nested.1).bind fun value _ => ih nested.2

end Values

/-! ## Formulas -/

section Formulas

variable (R : C.Steady)

include R

theorem typedValue_alike {target : Fin n} (nested : C.ReadsAlike stack first second target) :
    C.Alike stack (fun _ => True) (typedValue first target) (typedValue second target) := by
  refine (nodeAt_alike R).bind fun node _ => ?_
  split
  · exact nested.floatValue.bind fun _ _ => .pure trivial
  · exact nested.intValue.bind fun _ _ => .pure trivial

theorem variableValue_alike {formula : String} {expr : P.Expr} {vars : List (String × Link n)}
    {builtins : List (String × Value P.Float)} {name : String} (parsed : P.parse formula = .ok expr)
    (nested : ∀ target ∈ formulaTargets P C.byName formula vars (builtins.map (·.1)),
      C.ReadsAlike stack first second target)
    (used : name ∈ P.vars expr) :
    C.Alike stack (fun _ => True) (variableValue first id vars builtins name)
      (variableValue second id vars builtins name) := by
  unfold variableValue
  split
  case h_1 => exact .pure trivial
  case h_2 absent =>
    -- The name is not built in, so its link is one of the formula's references.
    have free : name ∉ builtins.map (·.1) := by
      intro listed
      obtain ⟨entry, member, rfl⟩ := List.mem_map.mp listed
      exact List.find?_eq_none.mp absent entry member (beq_self_eq_true _)
    have looked : C.Alike stack
        (fun link : Option (Link n) => ∀ known, link = some known → ∀ target ∈ known.targets,
          C.ReadsAlike stack first second target)
        (.read fun w => w.backing.description.variableLink vars name)
        (.read fun w => w.backing.description.variableLink vars name) := by
      refine Coupled.read fun s t between => ⟨?_, fun link linked target named => nested target ?_⟩
      · exact congrArg (Description.variableLink · vars name) (R.description between.backing)
      · rw [← R.byName between.backing]
        exact formulaTargets_variableLink _ parsed used free linked named
    refine looked.bind fun link nested => ?_
    cases link with
    | none => exact refuse_alike R fun _ => rfl
    | some link =>
      exact (resolve_alike link).bind fun target named => typedValue_alike R (nested link rfl target named)

theorem bindVariables_alike {formula : String} {expr : P.Expr} {vars : List (String × Link n)}
    {builtins : List (String × Value P.Float)} (parsed : P.parse formula = .ok expr)
    (nested : ∀ target ∈ formulaTargets P C.byName formula vars (builtins.map (·.1)),
      C.ReadsAlike stack first second target)
    (names : List String) : (∀ name ∈ names, name ∈ P.vars expr) →
      C.Alike stack (fun _ => True) (bindVariables first id vars builtins names)
        (bindVariables second id vars builtins names) := by
  induction names with
  | nil => exact fun _ => .pure trivial
  | cons name names ih =>
    intro used
    rw [List.forall_mem_cons] at used
    refine (variableValue_alike R parsed nested used.1).bind fun value _ => ?_
    exact (ih used.2).bind fun values _ => .pure trivial

theorem evalFormula_alike (builtins : List (String × Value P.Float)) {formula : String} {vars : List (String × Link n)}
    (nested : ∀ target ∈ formulaTargets P C.byName formula vars (builtins.map (·.1)),
      C.ReadsAlike stack first second target) :
    C.Alike stack (fun _ => True) (evalFormula first id formula vars builtins)
      (evalFormula second id formula vars builtins) := by
  refine (orFormula_alike R fun expr parsed => parsed).bind fun expr parsed => ?_
  refine (bindVariables_alike R parsed nested _ fun _ used => used).bind fun values _ => ?_
  exact orFormula_alike R fun _ _ => trivial

theorem rawValue_alike {value : Direct P n} (nested : ∀ target ∈ value.targets, C.ReadsAlike stack first second target) :
    C.Alike stack (fun _ => True) (rawValue first value) (rawValue second value) := by
  cases value with
  | link link => exact (resolve_alike link).bind fun target named => typedValue_alike R (nested target named)
  | none | litInt | litFloat | litStr => exact (directInt_alike nested).map _

theorem evalConverter_alike {value : ValueRef P n} {formula : String} {vars : List (String × Link n)}
    (valued : ∀ target ∈ value.targets, C.ReadsAlike stack first second target)
    (nested : ∀ target ∈ formulaTargets P C.byName formula vars ["TO"], C.ReadsAlike stack first second target) :
    C.Alike stack (fun _ => True) (evalConverter first id value formula vars)
      (evalConverter second id value formula vars) :=
  (chosenEntry_alike valued).bind fun _ entered =>
    (rawValue_alike R entered).bind fun raw _ => evalFormula_alike R [("TO", raw)] nested

end Formulas

/-! ## Nodes -/

section Literals

variable (S : C.Settable)

include S

theorem setLiteral_alike {old literal : Direct P n} (held : C.Holds id (.direct old)) (given : old.isLiteral)
    (plain : literal.isLiteral) : C.Alike stack (fun _ => True) (setLiteral id literal) (setLiteral id literal) :=
  Coupled.modify fun _ _ between => { between with backing := S.literal held given plain between.backing }

theorem setRefInt_alike {value : ValueRef P n} {v : Int64} (held : C.Holds id value)
    (nested : ∀ target ∈ value.targets, C.CallsAlike stack first second target) :
    C.Alike stack (fun _ => True) (setRefInt first id value v) (setRefInt second id value v) := by
  cases value with
  | direct value =>
    cases value with
    | link link => exact (resolve_alike link).bind fun target named => (nested target named).setIntValue v
    | litInt => exact setLiteral_alike S held rfl rfl
    | none | litFloat | litStr => exact refuse_alike S.toSteady fun _ => rfl
  | indexed ix =>
    refine (selected_alike (fun target named => (nested target named).toReadsAlike) nested).bind fun entry nested => ?_
    cases entry with
    | link link => exact (resolve_alike link).bind fun target named => (nested target named).setIntValue v
    | none | litInt | litFloat | litStr => exact refuse_alike S.toSteady fun _ => rfl

theorem setRefFloat_alike {value : ValueRef P n} {v : P.Float} (held : C.Holds id value)
    (nested : ∀ target ∈ value.targets, C.CallsAlike stack first second target) :
    C.Alike stack (fun _ => True) (setRefFloat first id value v) (setRefFloat second id value v) := by
  cases value with
  | direct value =>
    cases value with
    | link link => exact (resolve_alike link).bind fun target named => (nested target named).setFloatValue v
    | litFloat => exact setLiteral_alike S held rfl rfl
    | none | litInt | litStr => exact refuse_alike S.toSteady fun _ => rfl
  | indexed ix =>
    refine (selected_alike (fun target named => (nested target named).toReadsAlike) nested).bind fun entry nested => ?_
    cases entry with
    | link link => exact (resolve_alike link).bind fun target named => (nested target named).setFloatValue v
    | none | litInt | litFloat | litStr => exact refuse_alike S.toSteady fun _ => rfl

end Literals

section Nodes

variable (R : C.Steady)

include R

theorem setTyped_alike {link : Link n} {v : Value P.Float}
    (nested : ∀ target ∈ link.targets, C.CallsAlike stack first second target) :
    C.Alike stack (fun _ => True) (setTyped first link v) (setTyped second link v) := by
  refine (resolve_alike link).bind fun target named => (nodeAt_alike R).bind fun node _ => ?_
  split
  · exact (nested target named).setFloatValue _
  · exact (nested target named).setIntValue _

theorem setRefValue_alike {value : ValueRef P n} {v : Value P.Float}
    (nested : ∀ target ∈ value.targets, C.CallsAlike stack first second target) :
    C.Alike stack (fun _ => True) (setRefValue first id value v) (setRefValue second id value v) := by
  cases value with
  | direct value =>
    cases value with
    | link link => exact setTyped_alike R nested
    | none | litInt | litFloat | litStr => exact refuse_alike R fun _ => rfl
  | indexed ix =>
    refine (selected_alike (fun target named => (nested target named).toReadsAlike) nested).bind fun entry nested => ?_
    cases entry with
    | link link => exact setTyped_alike R nested
    | none | litInt | litFloat | litStr => exact refuse_alike R fun _ => rfl

theorem Reading.targets (nested : C.Reading stack first second id) {node : Node P n} (known : C.Known id node) :
    ∀ target ∈ node.targets C.byName, C.ReadsAlike stack first second target :=
  fun target named => nested target (Known.targets R known target named)

theorem Nested.targets (nested : C.Nested stack first second id) {node : Node P n} (known : C.Known id node) :
    ∀ target ∈ node.targets C.byName, C.CallsAlike stack first second target :=
  fun target named => nested target (Known.targets R known target named)

theorem registerLength_alike {length : ValueRef P n}
    (nested : ∀ target ∈ length.targets, C.ReadsAlike stack first second target) :
    C.Alike stack (fun _ => True) (registerLength first id length) (registerLength second id length) := by
  unfold registerLength
  split
  · exact .pure trivial
  · refine (refInt_alike nested).bind fun value _ => ?_
    split
    · exact .pure trivial
    · exact refuse_alike R fun _ => rfl

theorem registerAddress_alike (nested : C.Reading stack first second id) :
    C.Alike stack (fun _ => True) (registerAddress first id) (registerAddress second id) := by
  refine (nodeAt_alike R).bind fun node known => ?_
  have referred := nested.targets R known
  cases node with
  | register common kind =>
    obtain ⟨addressed, sized⟩ := List.forall_mem_append.mp referred
    refine (sumTerms_alike addressed).bind fun address _ => ?_
    exact (registerLength_alike R sized).bind fun length _ => .pure trivial
  | category | integer | float | boolean | stringFeat | enumeration | command | converter | swissKnife | port =>
    exact refuse_alike R fun _ => rfl

end Nodes

section Reads

variable {port : PortIo σ} (R : C.Readable port)

include R

theorem intValueInner_alike (nested : C.Reading stack first second id) :
    C.Alike stack (fun _ => True) (intValueInner port first id) (intValueInner port second id) := by
  refine (nodeAt_alike R.toSteady).bind fun node known => ?_
  have referred := nested.targets R.toSteady known
  cases node with
  | integer => exact refInt_alike (List.forall_mem_append.mp referred).1
  | float => exact (refFloat_alike (List.forall_mem_append.mp referred).1).map _
  | boolean | enumeration => exact refInt_alike referred
  | register common kind =>
    cases kind with
    | int => exact (R.reads nested).bind fun bytes _ => orFormula_alike R.toSteady fun _ _ => trivial
    | raw | float | text => exact refuse_alike R.toSteady fun _ => rfl
  | converter value formulaTo formulaFrom vars =>
    rw [Node.targets, List.forall_mem_append, List.forall_mem_append] at referred
    exact (evalConverter_alike R.toSteady referred.1 referred.2.2).map _
  | swissKnife => exact (evalFormula_alike R.toSteady [] referred).map _
  | category | stringFeat | command | port => exact refuse_alike R.toSteady fun _ => rfl

theorem floatValueInner_alike (nested : C.Reading stack first second id) :
    C.Alike stack (fun _ => True) (floatValueInner port first id) (floatValueInner port second id) := by
  refine (nodeAt_alike R.toSteady).bind fun node known => ?_
  have referred := nested.targets R.toSteady known
  cases node with
  | integer => exact (refInt_alike (List.forall_mem_append.mp referred).1).map _
  | float => exact refFloat_alike (List.forall_mem_append.mp referred).1
  | register common kind =>
    cases kind with
    | float => exact (R.reads nested).bind fun bytes _ => orFormula_alike R.toSteady fun _ _ => trivial
    | raw | int | text => exact refuse_alike R.toSteady fun _ => rfl
  | converter value formulaTo formulaFrom vars =>
    rw [Node.targets, List.forall_mem_append, List.forall_mem_append] at referred
    exact (evalConverter_alike R.toSteady referred.1 referred.2.2).map _
  | swissKnife => exact (evalFormula_alike R.toSteady [] referred).map _
  | category | boolean | enumeration | stringFeat | command | port => exact refuse_alike R.toSteady fun _ => rfl

theorem registerBytes_alike (nested : C.Reading stack first second id) {v : Int64} {length : Nat}
    {endianness : Endianness} {lsb msb : Option Nat}
    (sized : ∀ bytes : List UInt8, bytes.length = length → C.fits id bytes) :
    C.Alike stack (C.fits id) (registerBytes port first id v length endianness lsb msb)
      (registerBytes port second id v length endianness lsb msb) := by
  unfold registerBytes
  split
  · refine (R.reads nested).bind fun current sized => ?_
    exact orFormula_alike R.toSteady fun bytes inserted => sized bytes (insertInt_length inserted)
  · exact orFormula_alike R.toSteady fun bytes encoded => sized bytes (encodeInt_length encoded)

end Reads

section Inner

variable {port : PortIo σ} (R : C.Respected port)

include R

theorem setIntValueInner_alike (nested : C.Nested stack first second id) {v : Int64} :
    C.Alike stack (fun _ => True) (setIntValueInner port first id v) (setIntValueInner port second id v) := by
  refine (nodeAt_alike R.toSteady).bind fun node known => ?_
  have referred := nested.targets R.toSteady known
  cases node with
  | integer | command => exact setRefInt_alike R.toSettable ⟨_, known, rfl⟩ (List.forall_mem_append.mp referred).1
  | boolean | enumeration => exact setRefInt_alike R.toSettable ⟨_, known, rfl⟩ referred
  | register common kind =>
    cases kind with
    | int =>
      refine (R.lengths nested.reading known).bind fun length sized => ?_
      exact (registerBytes_alike R.toReadable nested.reading sized).bind fun bytes fits => R.writes nested.reading fits
    | raw | float | text => exact refuse_alike R.toSteady fun _ => rfl
  | converter value formulaTo formulaFrom vars =>
    rw [Node.targets, List.forall_mem_append, List.forall_mem_append] at referred
    exact (evalFormula_alike R.toSteady [("FROM", _)] fun target named => (referred.2.1 target named).toReadsAlike).bind fun out _ => setRefValue_alike R.toSteady referred.1
  | category | float | stringFeat | swissKnife | port => exact refuse_alike R.toSteady fun _ => rfl

theorem setFloatValueInner_alike (nested : C.Nested stack first second id) {v : P.Float} :
    C.Alike stack (fun _ => True) (setFloatValueInner port first id v) (setFloatValueInner port second id v) := by
  refine (nodeAt_alike R.toSteady).bind fun node known => ?_
  have referred := nested.targets R.toSteady known
  cases node with
  | float => exact setRefFloat_alike R.toSettable ⟨_, known, rfl⟩ (List.forall_mem_append.mp referred).1
  | integer => exact setIntValueInner_alike R nested
  | register common kind =>
    cases kind with
    | float =>
      refine (R.lengths nested.reading known).bind fun length sized => ?_
      refine Alike.bind (orFormula_alike R.toSteady fun bytes encoded => sized bytes (encodeFloat_length encoded)) ?_
      exact fun bytes fits => R.writes nested.reading fits
    | raw | int | text => exact refuse_alike R.toSteady fun _ => rfl
  | converter value formulaTo formulaFrom vars =>
    rw [Node.targets, List.forall_mem_append, List.forall_mem_append] at referred
    exact (evalFormula_alike R.toSteady [("FROM", _)] fun target named => (referred.2.1 target named).toReadsAlike).bind fun out _ => setRefValue_alike R.toSteady referred.1
  | category | boolean | enumeration | stringFeat | command | swissKnife | port => exact refuse_alike R.toSteady fun _ => rfl

end Inner

end Comparison

end Telegenic.Genicam
