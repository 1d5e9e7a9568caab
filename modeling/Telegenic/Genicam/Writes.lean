import Telegenic.Genicam.Circularity

/-! Where a write ends. A write to a node is passed on along the links of
values until it sets a literal or writes a register; what both leave behind
holds after every write that succeeds. -/

set_option autoImplicit false

namespace Telegenic.Genicam

open Library Relation

section Forwarding

variable {P : Platform} {n : Nat}

def ValueRef.entryTargets : ValueRef P n → List (Fin n)
  | .direct value => value.targets
  | .indexed ix => ix.entries.flatMap (·.2.targets) ++ ix.default.targets

def Description.Forwards (description : Description P n) (id target : Fin n) : Prop :=
  ∃ value, (description.node id).value? = some value ∧ target ∈ value.entryTargets

def Node.isString : Node P n → Bool
  | .stringFeat _ => true
  | _ => false

def Direct.isText : Direct P n → Bool
  | .litStr _ => true
  | _ => false

variable {description : Description P n} {id target : Fin n}

theorem Indexed.pick_entryTargets {ix : Indexed P n} {place : Int64} (picked : target ∈ (ix.pick place).targets) :
    target ∈ (ValueRef.indexed ix).entryTargets := by
  unfold Indexed.pick at picked
  split at picked
  case h_1 entry found =>
    exact List.mem_append_left _ (List.mem_flatMap.mpr ⟨_, List.mem_of_find?_eq_some found, picked⟩)
  case h_2 => exact List.mem_append_right _ picked

theorem Node.value?_targets {node : Node P n} {value : ValueRef P n} (held : node.value? = some value)
    (byName : String → Option (Fin n)) (named : target ∈ value.targets) : target ∈ node.targets byName := by
  cases node <;> cases held <;> simp [Node.targets, named]

theorem Description.Forwards.refers (forwards : description.Forwards id target) : description.Refers id target := by
  obtain ⟨value, held, named⟩ := forwards
  have listed : target ∈ value.targets := by
    cases value with
    | direct => exact named
    | indexed => exact List.mem_append_right _ named
  exact Node.value?_targets held _ listed

end Forwarding

section Leaving

variable {P : Platform} {n : Nat} {σ A : Type} {description : Description P n} {id target : Fin n}
  {stack : List (Fin n)} {nested : Calls P n σ} {port : PortIo σ}

abbrev Comparison.unchanged (description : Description P n) : Comparison P n σ :=
  .keeping description (· = description) False

theorem unchanged_keeps : Keeps description (· = description) where
  byName now := now ▸ rfl
  targets := by
    rintro _ rfl id target named
    exact named

theorem unchanged_steady : (Comparison.unchanged description : Comparison P n σ).Steady := keeping_steady unchanged_keeps

theorem unchanged_readable (port : PortIo σ) : (Comparison.unchanged description : Comparison P n σ).Readable port :=
  keeping_readable unchanged_keeps port

theorem known_node {node : Node P n} (known : (Comparison.unchanged description : Comparison P n σ).Known id node) :
    description.node id = node := by
  obtain ⟨s, t, ⟨_, rfl⟩, rfl⟩ := known
  rfl

abbrev Evaluates (description : Description P n) (stack : List (Fin n)) (nested : Calls P n σ) (id : Fin n) : Prop :=
  (Comparison.unchanged description).Reading stack nested nested id

abbrev Achieves (description : Description P n) (stack : List (Fin n)) (after : World P n σ → Prop)
    (m : Access P n σ A) : Prop :=
  Leaves (fun w => (Comparison.unchanged description).Between stack w w) after m

/-- What the ends of a write leave behind, and what is passed back along the
links to them; from a String feature only where it is `served`. -/
structure Ends (description : Description P n) (port : PortIo σ) (served : Fin n → Prop)
    (after : Fin n → World P n σ → Prop) : Prop where
  register : ∀ {stack nested id bytes}, Evaluates description stack nested id → (description.node id).isRegister →
    Achieves description stack (after id) (registerWrite port nested id bytes)
  literal : ∀ {stack id old literal}, served id → (description.node id).value? = some (.direct old) → old.isLiteral →
    (description.node id).isString = old.isText →
    Achieves description stack (after id) (setLiteral id literal)
  forward : ∀ {id target w}, served id → description.Forwards id target → after target w → after id w
  numeric : ∀ {id}, (description.node id).isString = false → served id
  strings : ∀ {id target}, served id → (description.node id).isString → description.Forwards id target → served target

structure CallsEnd (description : Description P n) (stack : List (Fin n)) (after : World P n σ → Prop)
    (nested : Calls P n σ) (target : Fin n) : Prop where
  setIntValue : ∀ v, Achieves description stack after (nested.setIntValue target v)
  setFloatValue : ∀ v, Achieves description stack after (nested.setFloatValue target v)

theorem refuse_achieves {after : World P n σ → Prop} {error : String → GenicamError} :
    Achieves description stack after (refuse error id : Access P n σ A) := by
  intro w value w' _ succeeded
  nomatch succeeded

variable {served : Fin n → Prop} {after : Fin n → World P n σ → Prop}

section Values

variable (ends : Ends description port served after)
  (passes : ∀ target, description.Forwards id target → CallsEnd description stack (after target) nested target)
  (evaluates : Evaluates description stack nested id)

include evaluates in
theorem selected_forwards {ix : Indexed P n} (held : (description.node id).value? = some (.indexed ix)) :
    (Comparison.unchanged description).Alike stack
      (fun entry => ∀ target ∈ entry.targets, description.Forwards id target) (selected nested ix) (selected nested ix) := by
  refine (Comparison.selected_picks fun target named => evaluates target (Node.value?_targets held _ named)).weaken ?_
  rintro entry ⟨place, rfl⟩ target picked
  exact ⟨_, held, Indexed.pick_entryTargets picked⟩

variable (numeric : (description.node id).isString = false)

include ends numeric

include passes

theorem called {target : Fin n} (forwards : description.Forwards id target) :
    CallsEnd description stack (after id) nested target :=
  have passed w := ends.forward (w := w) (ends.numeric numeric) forwards
  { setIntValue := fun v => ((passes target forwards).setIntValue v).weaken passed
    setFloatValue := fun v => ((passes target forwards).setFloatValue v).weaken passed }

theorem setTyped_achieves {link : Link n} {v : Value P.Float}
    (forwards : ∀ target ∈ link.targets, description.Forwards id target) :
    Achieves description stack (after id) (setTyped nested link v) := by
  refine Leaves.bind (Comparison.resolve_alike link) fun target named => ?_
  refine Leaves.bind (Comparison.nodeAt_alike unchanged_steady) fun node _ => ?_
  have passed := called ends passes numeric (forwards target named)
  split
  · exact passed.setFloatValue _
  · exact passed.setIntValue _

include evaluates

theorem setRefValue_achieves {value : ValueRef P n} {v : Value P.Float} (held : (description.node id).value? = some value) :
    Achieves description stack (after id) (setRefValue nested id value v) := by
  cases value with
  | direct value =>
    cases value with
    | link link =>
      exact setTyped_achieves ends passes numeric fun target named => ⟨_, held, named⟩
    | none | litInt | litFloat | litStr => exact refuse_achieves
  | indexed ix =>
    refine Leaves.bind (selected_forwards evaluates held) fun entry forwards => ?_
    cases entry with
    | link link => exact setTyped_achieves ends passes numeric forwards
    | none | litInt | litFloat | litStr => exact refuse_achieves

theorem setRefInt_achieves {value : ValueRef P n} {v : Int64} (held : (description.node id).value? = some value) :
    Achieves description stack (after id) (setRefInt nested id value v) := by
  cases value with
  | direct value =>
    cases value with
    | link link =>
      exact Leaves.bind (Comparison.resolve_alike link) fun target named =>
        (called ends passes numeric ⟨_, held, named⟩).setIntValue v
    | litInt => exact ends.literal (ends.numeric numeric) held rfl numeric
    | none | litFloat | litStr => exact refuse_achieves
  | indexed ix =>
    refine Leaves.bind (selected_forwards evaluates held) fun entry forwards => ?_
    cases entry with
    | link link =>
      exact Leaves.bind (Comparison.resolve_alike link) fun target named =>
        (called ends passes numeric (forwards target named)).setIntValue v
    | none | litInt | litFloat | litStr => exact refuse_achieves

theorem setRefFloat_achieves {value : ValueRef P n} {v : P.Float} (held : (description.node id).value? = some value) :
    Achieves description stack (after id) (setRefFloat nested id value v) := by
  cases value with
  | direct value =>
    cases value with
    | link link =>
      exact Leaves.bind (Comparison.resolve_alike link) fun target named =>
        (called ends passes numeric ⟨_, held, named⟩).setFloatValue v
    | litFloat => exact ends.literal (ends.numeric numeric) held rfl numeric
    | none | litInt | litStr => exact refuse_achieves
  | indexed ix =>
    refine Leaves.bind (selected_forwards evaluates held) fun entry forwards => ?_
    cases entry with
    | link link =>
      exact Leaves.bind (Comparison.resolve_alike link) fun target named =>
        (called ends passes numeric (forwards target named)).setFloatValue v
    | none | litInt | litFloat | litStr => exact refuse_achieves

omit numeric

omit passes in
theorem register_achieves {common : RegisterCommon P n} {kind : RegKind} {bytes : List UInt8}
    (found : description.node id = .register common kind) :
    Achieves description stack (after id) (registerWrite port nested id bytes) :=
  ends.register evaluates (by rw [found]; rfl)

theorem converter_achieves {value : ValueRef P n} {formulaTo formulaFrom : String} {vars : List (String × Link n)}
    (known : (Comparison.unchanged description : Comparison P n σ).Known id
      (.converter value formulaTo formulaFrom vars)) (source : Value P.Float) :
    Achieves description stack (after id) (do
      let out ← evalTo nested id formulaTo vars source
      setRefValue nested id value out) := by
  have referred := evaluates.targets unchanged_steady known
  rw [Node.targets, List.forall_mem_append, List.forall_mem_append] at referred
  refine Leaves.bind (Comparison.evalFormula_alike unchanged_steady [("FROM", _)] referred.2.1) fun out _ => ?_
  have found := known_node known
  exact setRefValue_achieves ends passes evaluates (by rw [found]; rfl) (by rw [found]; rfl)

theorem setIntValueInner_achieves {v : Int64} :
    Achieves description stack (after id) (setIntValueInner port nested id v) := by
  refine Leaves.bind (Comparison.nodeAt_alike unchanged_steady) fun node known => ?_
  have found := known_node known
  cases node with
  | integer | boolean | enumeration | command =>
    exact setRefInt_achieves ends passes evaluates (by rw [found]; rfl) (by rw [found]; rfl)
  | register common kind =>
    cases kind with
    | int =>
      refine Leaves.bind ((unchanged_readable port).lengths evaluates known) fun length sized => ?_
      refine Leaves.bind (Comparison.registerBytes_alike (unchanged_readable port) evaluates sized) fun bytes _ => ?_
      exact register_achieves ends evaluates found
    | raw | float | text => exact refuse_achieves
  | converter value formulaTo formulaFrom vars => exact converter_achieves ends passes evaluates known _
  | category | float | stringFeat | swissKnife | port => exact refuse_achieves

theorem setFloatValueInner_achieves {v : P.Float} :
    Achieves description stack (after id) (setFloatValueInner port nested id v) := by
  refine Leaves.bind (Comparison.nodeAt_alike unchanged_steady) fun node known => ?_
  have found := known_node known
  cases node with
  | float => exact setRefFloat_achieves ends passes evaluates (by rw [found]; rfl) (by rw [found]; rfl)
  | integer => exact setIntValueInner_achieves ends passes evaluates
  | register common kind =>
    cases kind with
    | float =>
      refine Leaves.bind ((unchanged_readable port).lengths evaluates known) fun length sized => ?_
      refine Leaves.bind (Comparison.orFormula_alike unchanged_steady fun _ _ => trivial) fun bytes (_ : True) => ?_
      exact register_achieves ends evaluates found
    | raw | int | text => exact refuse_achieves
  | converter value formulaTo formulaFrom vars => exact converter_achieves ends passes evaluates known _
  | category | boolean | enumeration | stringFeat | command | swissKnife | port => exact refuse_achieves

theorem execute_achieves : Achieves description stack (after id) (execute nested id) := by
  refine Leaves.bind (Comparison.nodeAt_alike unchanged_steady) fun node known => ?_
  cases node with
  | command value commandValue =>
    have commanded := (List.forall_mem_append.mp (evaluates.targets unchanged_steady known)).2
    refine Leaves.bind (Comparison.boundOr_alike (Comparison.refInt_alike commanded)) fun v _ => ?_
    have found := known_node known
    exact setRefInt_achieves ends passes evaluates (by rw [found]; rfl) (by rw [found]; rfl)
  | category | integer | float | boolean | stringFeat | enumeration | register | converter | swissKnife | port =>
    exact refuse_achieves

end Values

theorem visiting_achieves {property : World P n σ → Prop} {body : Access P n σ A} (unvisited : ∀ w, property w → property (leave w))
    (inside : id ∉ stack → Achieves description (id :: stack) property body) :
    Achieves description stack property (visiting id body) := by
  intro w value w' between succeeded
  simp only [visiting, Stateful.bind_apply, enter, between.first] at succeeded
  by_cases stacked : id ∈ stack
  · simp only [stacked, if_true] at succeeded
    cases succeeded
  · simp only [stacked, if_false, leaving] at succeeded
    cases outcome : body { w with visit := id :: stack } with
    | mk result after =>
      rw [outcome] at succeeded
      cases succeeded
      exact unvisited _
        (inside stacked { w with visit := id :: stack } value after ⟨between.backing, rfl, rfl⟩ outcome)

section Calls

variable {root : Fin n} (ends : Ends description port served after) (unvisited : ∀ id w, after id w → after id (leave w))

include ends unvisited

theorem calls_end : ∀ {room : Nat} {stack : List (Fin n)} {id : Fin n},
    (Comparison.unchanged description : Comparison P n σ).Ready root stack room room id →
    CallsEnd description stack (after id) (calls port room) id := by
  intro room
  induction room with
  | zero => exact fun ready => absurd ready.fits (Nat.not_lt_zero _)
  | succ room ih =>
    intro stack id ready
    have evaluates : id ∉ stack → Evaluates description (id :: stack) (calls port room) id :=
      fun new target refers => Comparison.reads_alike (unchanged_readable port) (ready.push new refers)
    have passes : id ∉ stack → ∀ target, description.Forwards id target →
        CallsEnd description (id :: stack) (after target) (calls port room) target :=
      fun new target forwards => ih (ready.push new forwards.refers)
    exact
      { setIntValue := fun v => visiting_achieves (unvisited id) fun new =>
          setIntValueInner_achieves ends (passes new) (evaluates new)
        setFloatValue := fun v => visiting_achieves (unvisited id) fun new =>
          setFloatValueInner_achieves ends (passes new) (evaluates new) }

omit ends unvisited in
theorem setEnumEntry_achieves {entry : String} {property : World P n σ → Prop}
    (self : CallsEnd description stack property nested id) :
    Achieves description stack property (setEnumEntry nested id entry) := by
  refine Leaves.bind (Comparison.nodeAt_alike unchanged_steady) fun node _ => ?_
  cases node with
  | enumeration value entries =>
    simp only
    split
    · exact self.setIntValue _
    · exact refuse_achieves
  | category | integer | float | boolean | stringFeat | command | register | converter | swissKnife | port =>
    exact refuse_achieves

omit ends unvisited in
theorem setBoolValue_achieves {v : Bool} {property : World P n σ → Prop}
    (self : CallsEnd description stack property nested id) :
    Achieves description stack property (setBoolValue nested id v) := by
  refine Leaves.bind (Comparison.nodeAt_alike unchanged_steady) fun node _ => ?_
  cases node with
  | boolean => exact self.setIntValue _
  | category | integer | float | stringFeat | enumeration | command | register | converter | swissKnife | port =>
    exact self.setIntValue _

theorem setStringValue_achieves {text : String} : ∀ {room : Nat} {stack : List (Fin n)} {id : Fin n},
    (Comparison.unchanged description : Comparison P n σ).Ready root stack room room id → served id →
    Achieves description stack (after id) (setStringValue port text (room + 1) id) := by
  intro room
  induction room with
  | zero => exact fun ready => absurd ready.fits (Nat.not_lt_zero _)
  | succ room ih =>
    intro stack id ready isServed
    refine Leaves.bind (Comparison.nodeAt_alike unchanged_steady) fun node known => ?_
    have found := known_node known
    cases node with
    | stringFeat value =>
      cases value with
      | direct value =>
        cases value with
        | litStr => exact ends.literal isServed (by rw [found]; rfl) rfl (by rw [found]; rfl)
        | link link =>
          refine Leaves.bind (Comparison.resolve_alike link) fun target named =>
            visiting_achieves (unvisited id) fun new => ?_
          have forwards : description.Forwards id target := ⟨.direct (.link link), by rw [found]; rfl, named⟩
          have next := ends.strings isServed (by rw [found]; rfl) forwards
          exact (ih (ready.push new forwards.refers) next).weaken fun _ => ends.forward isServed forwards
        | none | litInt | litFloat => exact refuse_achieves
      | indexed => exact refuse_achieves
    | register common kind =>
      have evaluates := Comparison.calls_reading (unchanged_readable port) ready
      cases kind with
      | text =>
        refine Leaves.bind ((unchanged_readable port).lengths evaluates known) fun length _ => ?_
        exact register_achieves ends evaluates found
      | raw | int | float => exact refuse_achieves
    | enumeration => exact setEnumEntry_achieves (calls_end ends unvisited ready)
    | category | integer | float | boolean | command | converter | swissKnife | port => exact refuse_achieves

/-- What the ends of a write leave behind holds after every call that writes
and succeeds. -/
theorem perform_achieves {call : Call P n} (writes : call.written = some id) (isServed : served id) :
    Achieves description [] (after id) (perform port call) := by
  have begins : (Comparison.unchanged description : Comparison P n σ).Ready id [] (n + 1) (n + 1) id :=
    { nodup := List.nodup_nil
      fits := Nat.lt_succ_self n
      within := Nat.le_refl _
      acyclic := nofun
      path := nofun }
  have wider : (Comparison.unchanged description : Comparison P n σ).Ready id [] (n + 2) (n + 2) id :=
    { begins with fits := Nat.lt_succ_of_lt begins.fits, within := Nat.le_refl _ }
  have self : CallsEnd description [] (after id) (calls port (n + 2)) id := calls_end ends unvisited wider
  cases call <;> cases writes
  case setIntValue v => exact (self.setIntValue v).map
  case setFloatValue v => exact (self.setFloatValue v).map
  case setStringValue text => exact (setStringValue_achieves ends unvisited begins isServed).map
  case setBoolValue v => exact (setBoolValue_achieves self).map
  case setEnumEntry entry => exact (setEnumEntry_achieves self).map
  case execute =>
    refine (execute_achieves ends ?_ (Comparison.calls_reading (unchanged_readable port) wider)).map
    exact fun target forwards => calls_end ends unvisited (wider.along forwards.refers)

end Calls

end Leaving

end Telegenic.Genicam
