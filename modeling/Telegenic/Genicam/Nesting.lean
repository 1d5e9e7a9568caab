import Telegenic.Genicam.Coupling

/-! Nested evaluations, compared. The nodes under evaluation are distinct, so
there is room for a new one as long as some node is not among them; and where
references lead round no circle, the node about to be evaluated never is. -/

set_option autoImplicit false

namespace Telegenic.Genicam

open Library Relation

section Paths

variable {n : Nat} {refs : Fin n → Fin n → Prop} {root id target : Fin n} {stack : List (Fin n)}

/-- No node on a circle of references can be reached from the root. -/
def Acyclic (refs : Fin n → Fin n → Prop) (root : Fin n) : Prop :=
  ∀ id, ReflTransGen refs root id → ¬ TransGen refs id id

structure OnPath (refs : Fin n → Fin n → Prop) (root : Fin n) (stack : List (Fin n)) (id : Fin n) : Prop where
  reached : ReflTransGen refs root id
  through : ∀ above ∈ stack, TransGen refs above id

theorem OnPath.start : OnPath refs root [] root where
  reached := .refl
  through := nofun

theorem OnPath.along (path : OnPath refs root stack id) (refers : refs id target) : OnPath refs root stack target where
  reached := path.reached.tail refers
  through above stacked := (path.through above stacked).tail refers

theorem OnPath.push (path : OnPath refs root stack id) (refers : refs id target) :
    OnPath refs root (id :: stack) target where
  reached := path.reached.tail refers
  through := List.forall_mem_cons.mpr ⟨.single refers, (path.along refers).through⟩

theorem OnPath.fresh (path : OnPath refs root stack id) (acyclic : Acyclic refs root) : id ∉ stack :=
  fun stacked => acyclic id path.reached (path.through id stacked)

end Paths

theorem textBytes_length (text : String) (length : Nat) : (textBytes text length).length = length := by
  simp only [textBytes, List.length_append, List.length_replicate, List.length_take]
  omega

def Call.node {P : Platform} {n : Nat} : Call P n → Option (Fin n)
  | .intValue id | .setIntValue id _ | .floatValue id | .setFloatValue id _ => some id
  | .stringValue id | .setStringValue id _ | .boolValue id | .setBoolValue id _ => some id
  | .enumEntries id | .setEnumEntry id _ | .execute id => some id
  | .intBounds id | .intIncrement id | .floatBounds id | .accessMode id => some id
  | .invalidateCaches => none

def Call.written {P : Platform} {n : Nat} : Call P n → Option (Fin n)
  | .setIntValue id _ | .setFloatValue id _ | .setStringValue id _ => some id
  | .setEnumEntry id _ | .setBoolValue id _ | .execute id => some id
  | _ => none

theorem Call.written_node {P : Platform} {n : Nat} {call : Call P n} {id : Fin n} (writes : call.written = some id) :
    call.node = some id := by
  cases call <;> cases writes <;> rfl

namespace Comparison

variable {P : Platform} {n : Nat} {σ A : Type} {C : Comparison P n σ} {stack : List (Fin n)} {root id target : Fin n}
  {room more : Nat}

variable (C) in
structure Ready (root : Fin n) (stack : List (Fin n)) (room more : Nat) (id : Fin n) : Prop where
  nodup : stack.Nodup
  fits : n - stack.length < room
  within : room ≤ more
  acyclic : C.clean → Acyclic C.refs root
  path : C.clean → OnPath C.refs root stack id

theorem Ready.along (ready : C.Ready root stack room more id) (refers : C.refs id target) :
    C.Ready root stack room more target :=
  { ready with path := fun clean => (ready.path clean).along refers }

theorem Ready.push (ready : C.Ready root stack (room + 1) (more + 1) id) (new : id ∉ stack) (refers : C.refs id target) :
    C.Ready root (id :: stack) room more target where
  nodup := List.nodup_cons.mpr ⟨new, ready.nodup⟩
  fits := by
    have below : (id :: stack).length ≤ n := by
      simpa using (List.nodup_cons.mpr ⟨new, ready.nodup⟩).length_le_card
    have fits := ready.fits
    rw [List.length_cons] at below ⊢
    omega
  within := Nat.le_of_succ_le_succ ready.within
  acyclic := ready.acyclic
  path clean := (ready.path clean).push refers

theorem Ready.fresh (ready : C.Ready root stack room more id) (clean : C.clean) : id ∉ stack :=
  (ready.path clean).fresh (ready.acyclic clean)

section Visits

variable (R : C.Steady)

include R

theorem visiting_alike {known : A → Prop} {body body' : Access P n σ A} (fresh : C.clean → id ∉ stack)
    (inside : id ∉ stack → C.Alike (id :: stack) known body body') :
    C.Alike stack known (visiting id body) (visiting id body') := by
  intro s t between
  simp only [visiting, Stateful.bind_apply, enter, between.first, between.second]
  by_cases stacked : id ∈ stack
  · simp only [stacked, if_true, R.description between.backing]
    refine .error ⟨between.backing, rfl, rfl, fun clean => absurd stacked (fresh clean)⟩
  · simp only [stacked, if_false, leaving]
    have outcome := inside stacked { s with visit := id :: stack } { t with visit := id :: stack }
      ⟨between.backing, rfl, rfl⟩
    generalize body _ = left at outcome ⊢
    generalize body' _ = right at outcome ⊢
    cases outcome with
    | ok holds related => exact .ok holds ⟨related.backing, by simp [leave, related.first], by simp [leave, related.second]⟩
    | @error stop _ _ related =>
      -- Leaving an empty stack changes nothing.
      have popped : (stop.unwound (id :: stack)).tail = stop.unwound stack := by
        cases stop with
        | depth => rfl
        | error e => cases circular : e.isCircular <;> simp [Stop.unwound, circular]
      refine .error ⟨related.backing, ?_, ?_, related.tolerated⟩
      · exact (congrArg List.tail related.first).trans popped
      · exact (congrArg List.tail related.second).trans popped

theorem entryOf_alike {v : Int64} : C.Alike stack (fun _ => True) (entryOf id v) (entryOf id v) := by
  refine (nodeAt_alike R).bind fun node _ => ?_
  cases node with
  | enumeration value entries =>
    simp only
    split
    · exact .pure trivial
    · exact refuse_alike R fun _ => rfl
  | category | integer | float | boolean | stringFeat | command | register | converter | swissKnife | port =>
    exact refuse_alike R fun _ => rfl

theorem setEnumEntry_alike {first second : Calls P n σ} (self : C.CallsAlike stack first second id) {entry : String} :
    C.Alike stack (fun _ => True) (setEnumEntry first id entry) (setEnumEntry second id entry) := by
  refine (nodeAt_alike R).bind fun node _ => ?_
  cases node with
  | enumeration value entries =>
    simp only
    split
    · exact self.setIntValue _
    · exact refuse_alike R fun _ => rfl
  | category | integer | float | boolean | stringFeat | command | register | converter | swissKnife | port =>
    exact refuse_alike R fun _ => rfl

end Visits

section Reads

variable {port : PortIo σ} (R : C.Readable port)

include R

theorem reads_alike : ∀ {room more : Nat} {stack : List (Fin n)} {id : Fin n}, C.Ready root stack room more id →
    C.ReadsAlike stack (calls port room) (calls port more) id := by
  intro room
  induction room with
  | zero => exact fun ready => absurd ready.fits (Nat.not_lt_zero _)
  | succ room ih =>
    intro more stack id ready
    obtain ⟨more, rfl⟩ := Nat.exists_eq_add_of_le' (Nat.le_trans (Nat.succ_pos room) ready.within)
    have nested : id ∉ stack → C.Reading (id :: stack) (calls port room) (calls port more) id :=
      fun new target refers => ih (ready.push new refers)
    exact
      { intValue := visiting_alike R.toSteady ready.fresh fun new => intValueInner_alike R (nested new)
        floatValue := visiting_alike R.toSteady ready.fresh fun new => floatValueInner_alike R (nested new) }

theorem calls_reading (ready : C.Ready root stack room more id) : C.Reading stack (calls port room) (calls port more) id :=
  fun _ refers => reads_alike R (ready.along refers)

theorem stringValue_alike : ∀ {room more : Nat} {stack : List (Fin n)} {id : Fin n},
    C.Ready root stack room more id →
    C.Alike stack (fun _ => True) (stringValue port (room + 1) id) (stringValue port (more + 1) id) := by
  intro room
  induction room with
  | zero => exact fun ready => absurd ready.fits (Nat.not_lt_zero _)
  | succ room ih =>
    intro more stack id ready
    obtain ⟨more, rfl⟩ := Nat.exists_eq_add_of_le' (Nat.le_trans (Nat.succ_pos room) ready.within)
    refine (nodeAt_alike R.toSteady).bind fun node known => ?_
    cases node with
    | stringFeat value =>
      cases value with
      | direct value =>
        cases value with
        | litStr => exact .pure trivial
        | link link =>
          refine (resolve_alike link).bind fun target named => visiting_alike R.toSteady ready.fresh fun new => ?_
          exact ih (ready.push new (known.targets R.toSteady target named))
        | none | litInt | litFloat => exact refuse_alike R.toSteady fun _ => rfl
      | indexed => exact refuse_alike R.toSteady fun _ => rfl
    | register common kind =>
      cases kind with
      | text => exact (R.reads (calls_reading R ready)).map _
      | raw | int | float => exact refuse_alike R.toSteady fun _ => rfl
    | enumeration => exact (reads_alike R ready).intValue.bind fun v _ => entryOf_alike R.toSteady
    | category | integer | float | boolean | command | converter | swissKnife | port =>
      exact refuse_alike R.toSteady fun _ => rfl

end Reads

section Calls

variable {port : PortIo σ} (R : C.Respected port)

include R

theorem calls_alike : ∀ {room more : Nat} {stack : List (Fin n)} {id : Fin n}, C.Ready root stack room more id →
    C.CallsAlike stack (calls port room) (calls port more) id := by
  intro room
  induction room with
  | zero => exact fun ready => absurd ready.fits (Nat.not_lt_zero _)
  | succ room ih =>
    intro more stack id ready
    have reads := reads_alike R.toReadable ready
    obtain ⟨more, rfl⟩ := Nat.exists_eq_add_of_le' (Nat.le_trans (Nat.succ_pos room) ready.within)
    have nested : id ∉ stack → C.Nested (id :: stack) (calls port room) (calls port more) id :=
      fun new target refers => ih (ready.push new refers)
    exact
      { reads with
        setIntValue := fun v => visiting_alike R.toSteady ready.fresh fun new => setIntValueInner_alike R (nested new)
        setFloatValue := fun v =>
          visiting_alike R.toSteady ready.fresh fun new => setFloatValueInner_alike R (nested new) }

theorem calls_nested (ready : C.Ready root stack room more id) : C.Nested stack (calls port room) (calls port more) id :=
  fun _ refers => calls_alike R (ready.along refers)

theorem setStringValue_alike {text : String} : ∀ {room more : Nat} {stack : List (Fin n)} {id : Fin n},
    C.Ready root stack room more id →
    C.Alike stack (fun _ => True) (setStringValue port text (room + 1) id)
      (setStringValue port text (more + 1) id) := by
  intro room
  induction room with
  | zero => exact fun ready => absurd ready.fits (Nat.not_lt_zero _)
  | succ room ih =>
    intro more stack id ready
    obtain ⟨more, rfl⟩ := Nat.exists_eq_add_of_le' (Nat.le_trans (Nat.succ_pos room) ready.within)
    refine (nodeAt_alike R.toSteady).bind fun node known => ?_
    cases node with
    | stringFeat value =>
      cases value with
      | direct value =>
        cases value with
        | litStr => exact setLiteral_alike R.toSettable ⟨_, known, rfl⟩ rfl rfl
        | link link =>
          refine (resolve_alike link).bind fun target named => visiting_alike R.toSteady ready.fresh fun new => ?_
          exact ih (ready.push new (known.targets R.toSteady target named))
        | none | litInt | litFloat => exact refuse_alike R.toSteady fun _ => rfl
      | indexed => exact refuse_alike R.toSteady fun _ => rfl
    | register common kind =>
      have nested := calls_reading R.toReadable ready
      cases kind with
      | text =>
        refine (R.lengths nested known).bind fun length sized => R.writes nested (sized _ ?_)
        exact textBytes_length text length
      | raw | int | float => exact refuse_alike R.toSteady fun _ => rfl
    | enumeration => exact setEnumEntry_alike R.toSteady (calls_alike R ready)
    | category | integer | float | boolean | command | converter | swissKnife | port =>
      exact refuse_alike R.toSteady fun _ => rfl

end Calls

/-! ## Public calls -/

section Public

variable {first second : Calls P n σ}

theorem boundOr_alike {unbounded : A} {read read' : ValueRef P n → Access P n σ A} {bound : ValueRef P n}
    (reads : C.Alike stack (fun _ => True) (read bound) (read' bound)) :
    C.Alike stack (fun _ => True) (boundOr unbounded read bound) (boundOr unbounded read' bound) := by
  unfold boundOr
  split
  · exact .pure trivial
  · exact reads

theorem execute_alike (S : C.Settable) (nested : C.Nested stack first second id) :
    C.Alike stack (fun _ => True) (execute first id) (execute second id) := by
  refine (nodeAt_alike S.toSteady).bind fun node known => ?_
  have referred := nested.targets S.toSteady known
  cases node with
  | command =>
    obtain ⟨valued, commanded⟩ := List.forall_mem_append.mp referred
    exact (boundOr_alike (refInt_alike fun target named => (commanded target named).toReadsAlike)).bind fun v _ => setRefInt_alike S ⟨_, known, rfl⟩ valued
  | category | integer | float | boolean | stringFeat | enumeration | register | converter | swissKnife | port =>
    exact refuse_alike S.toSteady fun _ => rfl

variable (R : C.Steady)

include R

theorem intBounds_alike (nested : C.Reading stack first second id) :
    C.Alike stack (fun _ => True) (intBounds first id) (intBounds second id) := by
  refine (nodeAt_alike R).bind fun node known => ?_
  have referred := nested.targets R known
  cases node with
  | integer =>
    rw [Node.targets, List.forall_mem_append, List.forall_mem_append, List.forall_mem_append] at referred
    refine (boundOr_alike (refInt_alike referred.2.1)).bind fun lo _ => ?_
    exact (boundOr_alike (refInt_alike referred.2.2.1)).bind fun hi _ => .pure trivial
  | register common kind =>
    cases kind with
    | int => exact .pure trivial
    | raw | float | text => exact refuse_alike R fun _ => rfl
  | category | float | boolean | stringFeat | enumeration | command | converter | swissKnife | port =>
    exact refuse_alike R fun _ => rfl

theorem intIncrement_alike (nested : C.Reading stack first second id) :
    C.Alike stack (fun _ => True) (intIncrement first id) (intIncrement second id) := by
  refine (nodeAt_alike R).bind fun node known => ?_
  have referred := nested.targets R known
  cases node with
  | integer =>
    rw [Node.targets, List.forall_mem_append, List.forall_mem_append, List.forall_mem_append] at referred
    exact boundOr_alike (refInt_alike referred.2.2.2)
  | category | float | boolean | stringFeat | enumeration | command | register | converter | swissKnife | port =>
    exact refuse_alike R fun _ => rfl

theorem floatBounds_alike (nested : C.Reading stack first second id) :
    C.Alike stack (fun _ => True) (floatBounds first id) (floatBounds second id) := by
  refine (nodeAt_alike R).bind fun node known => ?_
  have referred := nested.targets R known
  cases node with
  | float =>
    rw [Node.targets, List.forall_mem_append, List.forall_mem_append] at referred
    refine (boundOr_alike (refFloat_alike referred.2.1)).bind fun lo _ => ?_
    exact (boundOr_alike (refFloat_alike referred.2.2)).bind fun hi _ => .pure trivial
  | category | integer | boolean | stringFeat | enumeration | command | register | converter | swissKnife | port =>
    exact refuse_alike R fun _ => rfl

theorem boolValue_alike (nested : C.Reading stack first second id) (self : C.ReadsAlike stack first second id) :
    C.Alike stack (fun _ => True) (boolValue first id) (boolValue second id) := by
  refine (nodeAt_alike R).bind fun node known => ?_
  cases node with
  | boolean => exact (refInt_alike (nested.targets R known)).map _
  | category | integer | float | stringFeat | enumeration | command | register | converter | swissKnife | port =>
    exact self.intValue.map _

theorem setBoolValue_alike (self : C.CallsAlike stack first second id) {v : Bool} :
    C.Alike stack (fun _ => True) (setBoolValue first id v) (setBoolValue second id v) := by
  refine (nodeAt_alike R).bind fun node known => ?_
  cases node with
  | boolean => exact self.setIntValue _
  | category | integer | float | stringFeat | enumeration | command | register | converter | swissKnife | port =>
    exact self.setIntValue _

theorem enumEntries_alike : C.Alike stack (fun _ => True) (enumEntries id) (enumEntries id) := by
  refine (nodeAt_alike R).bind fun node known => ?_
  cases node with
  | enumeration => exact .pure trivial
  | category | integer | float | boolean | stringFeat | command | register | converter | swissKnife | port =>
    exact refuse_alike R fun _ => rfl

theorem accessMode_alike : C.Alike stack (fun _ => True) (accessMode id) (accessMode id) :=
  Coupled.read fun _ _ between =>
    ⟨congrArg (Description.accessModeFrom · (n + 1) id) (R.description between.backing), trivial⟩

theorem invalidateCaches_alike : C.Alike stack (fun _ => True) invalidateCaches invalidateCaches :=
  Coupled.modify fun _ _ between => { between with backing := R.dropped between.backing }

end Public

theorem Ready.start (fits : n < room) (within : room ≤ more) (acyclic : C.clean → Acyclic C.refs id) :
    C.Ready id [] room more id where
  nodup := List.nodup_nil
  fits := fits
  within := within
  acyclic := acyclic
  path _ := .start

section Perform

variable {port : PortIo σ} {call : Call P n} (enough : n + 1 < room) (within : room ≤ more)
  (acyclic : C.clean → ∀ root, call.node = some root → Acyclic C.refs root)

include enough within acyclic

theorem performWithin_reads (R : C.Readable port) (reads : call.written = none) :
    C.Alike [] (fun _ => True) (performWithin port room call) (performWithin port more call) := by
  obtain ⟨room, rfl⟩ := Nat.exists_eq_add_of_le' (Nat.one_le_of_lt enough)
  obtain ⟨more, rfl⟩ := Nat.exists_eq_add_of_le' (Nat.le_trans (Nat.succ_pos room) within)
  have begins : ∀ id, call.node = some id → C.Ready id [] room more id := fun id about =>
    .start (Nat.lt_of_succ_lt_succ enough) (Nat.le_of_succ_le_succ within) fun clean => acyclic clean id about
  have wider : ∀ id, call.node = some id → C.Ready id [] (room + 1) (more + 1) id := fun id about =>
    .start (Nat.lt_of_succ_lt enough) within fun clean => acyclic clean id about
  cases call with
  | intValue id => exact (reads_alike R (wider id rfl)).intValue.map _
  | floatValue id => exact (reads_alike R (wider id rfl)).floatValue.map _
  | stringValue id => exact (stringValue_alike R (begins id rfl)).map _
  | boolValue id =>
    exact (boolValue_alike R.toSteady (calls_reading R (wider id rfl)) (reads_alike R (wider id rfl))).map _
  | enumEntries id => exact (enumEntries_alike R.toSteady).map _
  | intBounds id => exact (intBounds_alike R.toSteady (calls_reading R (wider id rfl))).map _
  | intIncrement id => exact (intIncrement_alike R.toSteady (calls_reading R (wider id rfl))).map _
  | floatBounds id => exact (floatBounds_alike R.toSteady (calls_reading R (wider id rfl))).map _
  | accessMode id => exact (accessMode_alike R.toSteady).map _
  | invalidateCaches => exact (invalidateCaches_alike R.toSteady).map _
  | setIntValue | setFloatValue | setStringValue | setBoolValue | setEnumEntry | execute => nomatch reads

theorem performWithin_alike (R : C.Respected port) :
    C.Alike [] (fun _ => True) (performWithin port room call) (performWithin port more call) := by
  cases about : call.written with
  | none => exact performWithin_reads enough within acyclic R.toReadable about
  | some id =>
    obtain ⟨room, rfl⟩ := Nat.exists_eq_add_of_le' (Nat.one_le_of_lt enough)
    obtain ⟨more, rfl⟩ := Nat.exists_eq_add_of_le' (Nat.le_trans (Nat.succ_pos room) within)
    have acyclic := fun clean => acyclic clean id (Call.written_node about)
    have begins : C.Ready id [] room more id :=
      .start (Nat.lt_of_succ_lt_succ enough) (Nat.le_of_succ_le_succ within) acyclic
    have wider : C.Ready id [] (room + 1) (more + 1) id := .start (Nat.lt_of_succ_lt enough) within acyclic
    cases call with
    | setIntValue target v =>
      cases about
      exact ((calls_alike R wider).setIntValue v).map _
    | setFloatValue target v =>
      cases about
      exact ((calls_alike R wider).setFloatValue v).map _
    | setStringValue target text =>
      cases about
      exact (setStringValue_alike R begins).map _
    | setBoolValue target v =>
      cases about
      exact (setBoolValue_alike R.toSteady (calls_alike R wider)).map _
    | setEnumEntry target entry =>
      cases about
      exact (setEnumEntry_alike R.toSteady (calls_alike R wider)).map _
    | execute target =>
      cases about
      exact (execute_alike R.toSettable (calls_nested R wider)).map _
    | intValue | floatValue | stringValue | boolValue | enumEntries | intBounds | intIncrement | floatBounds
    | accessMode | invalidateCaches => nomatch about

end Perform

end Comparison

end Telegenic.Genicam
