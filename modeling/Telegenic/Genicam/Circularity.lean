import Telegenic.Genicam.MockPort
import Telegenic.Genicam.Nesting

/-! Node access ends. An evaluation compared with itself, in more room: every
call finds the room it needs, whatever circles the references make, and ends
with no node under evaluation. Where the references from a node make no
circle, no call on it finds one. -/

set_option autoImplicit false

namespace Telegenic.Genicam

open Library

section Itself

variable {P : Platform} {n : Nat} {σ A : Type}

/-- The comparison of an evaluation with itself, along the references of the
description it began with. -/
def Comparison.itself (description : Description P n) (clean : Prop) : Comparison P n σ where
  backing s t := s = t ∧ description.Shaped s.description
  byName := description.byName
  refs := description.Refers
  fits _ _ := True
  clean := clean

/-- The comparison of an evaluation with itself while the description stays
one of those `kept`. -/
def Comparison.keeping (description : Description P n) (kept : Description P n → Prop) (clean : Prop) :
    Comparison P n σ where
  backing s t := s = t ∧ kept s.description
  byName := description.byName
  refs := description.Refers
  fits _ _ := True
  clean := clean

structure Keeps (description : Description P n) (kept : Description P n → Prop) : Prop where
  byName : ∀ {now}, kept now → now.byName = description.byName
  targets : ∀ {now}, kept now → ∀ id, ∀ target ∈ (now.node id).targets description.byName, description.Refers id target

variable {description : Description P n} {kept : Description P n → Prop} {clean : Prop} {stack : List (Fin n)}
  {first second : Calls P n σ} {id : Fin n}

theorem keeping_steady (keeps : Keeps description kept) :
    (Comparison.keeping description kept clean : Comparison P n σ).Steady where
  description := fun ⟨same, _⟩ => congrArg Backing.description same
  byName := fun ⟨_, now⟩ => keeps.byName now
  targets := fun ⟨_, now⟩ => keeps.targets now
  dropped := fun ⟨same, now⟩ => ⟨by rw [same], now⟩

theorem modify_keeping {change : Backing P n σ → Backing P n σ} (keeps : ∀ s, (change s).description = s.description) :
    (Comparison.keeping description kept clean).Alike stack (fun _ => True)
      (.modify fun w => { w with backing := change w.backing })
      (.modify fun w => { w with backing := change w.backing }) := by
  refine Coupled.modify fun s t between => ?_
  obtain ⟨same, now⟩ := between.backing
  exact { between with backing := ⟨congrArg change same, by rw [keeps]; exact now⟩ }

theorem onPort_keeping (access : σ → Except Control.CameraError A × σ) :
    (Comparison.keeping description kept clean : Comparison P n σ).Alike stack (fun _ => True) (onPort access)
      (onPort access) := by
  intro s t between
  obtain ⟨same, now⟩ := between.backing
  simp only [onPort, ← same]
  generalize access _ = outcome
  obtain ⟨result, after⟩ := outcome
  cases result with
  | ok value => exact .ok trivial ⟨⟨rfl, now⟩, between.first, between.second⟩
  | error error => exact .error ⟨⟨rfl, now⟩, between.first, between.second, fun _ => rfl⟩

theorem cached_keeping :
    (Comparison.keeping description kept clean : Comparison P n σ).Alike stack (fun _ => True)
      (.read fun w => w.backing.cached id) (.read fun w => w.backing.cached id) :=
  Coupled.read fun _ _ between => ⟨congrArg (Backing.cached · id) between.backing.1, trivial⟩

theorem Backing.remember_description (id : Fin n) (bytes : List UInt8) (s : Backing P n σ) :
    (s.remember id bytes).description = s.description := by
  unfold Backing.remember
  split <;> rfl

theorem keeping_readable (keeps : Keeps description kept) (port : PortIo σ) :
    (Comparison.keeping description kept clean : Comparison P n σ).Readable port where
  toSteady := keeping_steady keeps
  lengths := fun nested known =>
    (Comparison.registerLength_alike (keeping_steady keeps)
      (List.forall_mem_append.mp (nested.targets (keeping_steady keeps) known)).2).weaken fun _ _ _ _ => trivial
  reads := by
    intro stack first second id nested
    refine (Comparison.nodeAt_alike (keeping_steady keeps)).bind fun node known => ?_
    cases node with
    | register common kind =>
      simp only
      split
      · exact Comparison.refuse_alike (keeping_steady keeps) fun _ => rfl
      · refine cached_keeping.bind fun cached _ => ?_
        cases cached with
        | some bytes => exact .pure fun _ _ => trivial
        | none =>
          refine Comparison.Alike.bind (Comparison.registerAddress_alike (keeping_steady keeps) nested) fun place _ => ?_
          refine (onPort_keeping _).bind fun bytes _ => ?_
          exact (modify_keeping (Backing.remember_description id bytes)).bind fun _ _ => .pure fun _ _ => trivial
    | category | integer | float | boolean | stringFeat | enumeration | command | converter | swissKnife | port =>
      exact Comparison.refuse_alike (keeping_steady keeps) fun _ => rfl

theorem shaped_keeps : Keeps description description.Shaped where
  byName shaped := shaped.byName
  targets shaped id _ named := (shaped.node id).targets _ named

theorem itself_settable : (Comparison.itself description clean : Comparison P n σ).Settable where
  toSteady := keeping_steady shaped_keeps
  literal := by
    rintro s t id old literal ⟨node, ⟨_, _, ⟨_, known⟩, rfl⟩, held⟩ given plain ⟨rfl, shaped⟩
    obtain ⟨first, held, given⟩ := (known.node id).held held given
    exact ⟨rfl, shaped.setLiteral held given plain⟩

theorem itself_respected (port : PortIo σ) :
    (Comparison.itself description clean : Comparison P n σ).Respected port where
  toReadable := keeping_readable shaped_keeps port
  literal := itself_settable.literal
  writes := by
    intro stack first second id bytes nested _
    have steady : (Comparison.itself description clean : Comparison P n σ).Steady := itself_settable.toSteady
    refine (Comparison.nodeAt_alike steady).bind fun node known => ?_
    cases node with
    | register common kind =>
      simp only
      split
      · exact Comparison.refuse_alike steady fun _ => rfl
      · refine (Comparison.registerAddress_alike steady nested).bind fun place _ => ?_
        exact (onPort_keeping _).bind fun _ _ => modify_keeping fun _ => rfl
    | category | integer | float | boolean | stringFeat | enumeration | command | converter | swissKnife | port =>
      exact Comparison.refuse_alike steady fun _ => rfl

end Itself

/-! ## Runs of public calls -/

section Runs

variable {P : Platform} {n : Nat} {σ : Type} (port : PortIo σ)

def World.start (backing : Backing P n σ) : World P n σ := { backing, visit := [] }

/-- The state after a sequence of public calls, whatever each of them returned. -/
def performAll : List (Call P n) → World P n σ → World P n σ
  | [], w => w
  | call :: rest, w => performAll rest (perform port call w).2

/-- Between calls: no node is under evaluation, and the description is the one
the run began with but for the values of literals. -/
structure Idle (description : Description P n) (w : World P n σ) : Prop where
  visit : w.visit = []
  shaped : description.Shaped w.backing.description

theorem Idle.start (backing : Backing P n σ) : Idle backing.description (World.start backing) where
  visit := rfl
  shaped := .refl _

variable {description : Description P n} {w : World P n σ}

theorem Idle.agree (idle : Idle description w) (call : Call P n) (extra : Nat) (clean : Prop)
    (acyclic : clean → ∀ root, call.node = some root → Acyclic description.Refers root) :
    Agree ((Comparison.itself description clean).Between []) ((Comparison.itself description clean).Failed [])
      (fun _ => True) (perform port call w) (performWithin port (n + 2 + extra) call w) :=
  Comparison.performWithin_alike (Nat.lt_succ_self _) (Nat.le_add_right _ _) acyclic (itself_respected port) w w
    ⟨⟨rfl, idle.shaped⟩, idle.visit, idle.visit⟩

theorem Idle.after_call (idle : Idle description w) (call : Call P n) : Idle description (perform port call w).2 := by
  have outcome := idle.agree port call 0 False nofun
  generalize perform port call w = left at outcome ⊢
  generalize performWithin port _ call w = right at outcome
  cases outcome with
  | ok _ related => exact ⟨related.first, related.backing.2⟩
  | @error stop _ _ related =>
    refine ⟨related.first.trans ?_, related.backing.2⟩
    cases stop <;> simp [Stop.unwound]

theorem Idle.after_calls (calls : List (Call P n)) : ∀ {w : World P n σ}, Idle description w →
    Idle description (performAll port calls w) := by
  induction calls with
  | nil => exact fun idle => idle
  | cons call rest ih => exact fun idle => ih (idle.after_call port call)

theorem Idle.perform_ne_depth (idle : Idle description w) (call : Call P n) :
    (perform port call w).1 ≠ .error .depth := by
  have outcome := idle.agree port call 0 False nofun
  generalize perform port call w = left at outcome ⊢
  generalize performWithin port _ call w = right at outcome
  cases outcome with
  | ok => exact nofun
  | error related =>
    intro deep
    cases deep
    exact related.tolerated

theorem Idle.performWithin_eq (idle : Idle description w) (call : Call P n) (extra : Nat) :
    performWithin port (n + 2 + extra) call w = perform port call w := by
  have outcome := idle.agree port call extra False nofun
  generalize perform port call w = left at outcome ⊢
  generalize performWithin port _ call w = right at outcome ⊢
  cases outcome with
  | ok _ related => rw [World.ext related.backing.1 (related.first.trans related.second.symm)]
  | error related => rw [World.ext related.backing.1 (related.first.trans related.second.symm)]

theorem Idle.not_circular (idle : Idle description w) (call : Call P n) {root : Fin n} (about : call.node = some root)
    (acyclic : Acyclic description.Refers root) (name : String) :
    (perform port call w).1 ≠ .error (.error (.circular name)) := by
  have outcome := idle.agree port call 0 True fun _ root' about' => by
    cases about.symm.trans about'
    exact acyclic
  generalize perform port call w = left at outcome ⊢
  generalize performWithin port _ call w = right at outcome
  cases outcome with
  | ok => exact nofun
  | error related =>
    intro circular
    cases circular
    exact Bool.noConfusion (related.tolerated trivial)

/-- Every public call on a graph in use returns, with evaluations nested no
deeper than the number of nodes and two: in all the room beyond that it does
the same. -/
theorem node_access_terminates (port : PortIo σ) (backing : Backing P n σ) (calls : List (Call P n)) (call : Call P n) :
    ∃ result after, result ≠ .error .depth ∧
      ∀ extra, performWithin port (n + 2 + extra) call (performAll port calls (.start backing)) = (result, after) := by
  have idle := (Idle.start backing).after_calls port calls
  exact ⟨_, _, idle.perform_ne_depth port call, idle.performWithin_eq port call⟩

/-- After any public calls no node is under evaluation: the graph is as it was
built but for its values and caches, and a call on a node from which
references lead round no circle never finds one. -/
theorem circularity_exact (port : PortIo σ) (backing : Backing P n σ) (calls : List (Call P n)) :
    performAll port calls (.start backing) = .start (performAll port calls (.start backing)).backing ∧
      ∀ call root name, call.node = some root → Acyclic backing.description.Refers root →
        (perform port call (performAll port calls (.start backing))).1 ≠ .error (.error (.circular name)) := by
  have idle := (Idle.start backing).after_calls port calls
  exact ⟨World.ext rfl idle.visit, fun call root name about acyclic => idle.not_circular port call about acyclic name⟩

end Runs

def loopedGraph : Backing plainPlatform 3 (List UInt8) where
  description :=
    { name := fun id => ["Gain", "GainMax", "Loop"].getD id ""
      node := fun id =>
        [.integer (.direct (.link (.id 1))) (.direct .none) (.direct .none) (.direct .none),
          .integer (.direct (.litInt 9)) (.direct .none) (.direct .none) (.direct .none),
          .integer (.direct (.link (.id 2))) (.direct .none) (.direct .none) (.direct .none)].getD id .port
      byName := fun name => ["Gain", "GainMax", "Loop"].findFinIdx? (· == name)
      invalidates := fun _ => [] }
  cachable := fun _ => .writeAround
  cache := fun _ => none
  port := []

theorem loopedGraph_acyclic : Acyclic loopedGraph.description.Refers 0 := by
  have refers : ∀ id target, loopedGraph.description.Refers id target → id ≠ 2 → id = 0 ∧ target = 1 := by
    unfold Description.Refers
    decide
  have reached : ∀ id, Relation.ReflTransGen loopedGraph.description.Refers 0 id → id ≠ 2 := by
    intro id path
    induction path with
    | refl => decide
    | tail _ step ih => exact (refers _ _ step ih).2 ▸ by decide
  have onward : ∀ id target, id ≠ 2 → Relation.TransGen loopedGraph.description.Refers id target → id = 0 ∧ target = 1 := by
    intro id target start path
    induction path with
    | single step => exact refers _ _ step start
    | tail _ step ih =>
      rw [ih.2] at step
      exact absurd (refers _ _ step (by decide)).1 (by decide)
  intro id path circle
  obtain ⟨start, back⟩ := onward id id (reached id path) circle
  exact absurd (start.symm.trans back) (by decide)

/-- A failed call on the feature that refers to itself leaves no trace in a
later call. -/
theorem circularity_exact_loopedGraph :
    (perform mockPort (.intValue 0) (performAll mockPort [.intValue 2] (.start loopedGraph))).1 ≠
      .error (.error (.circular "Gain")) :=
  (circularity_exact mockPort loopedGraph [.intValue 2]).2 (.intValue 0) 0 "Gain" rfl loopedGraph_acyclic

end Telegenic.Genicam
