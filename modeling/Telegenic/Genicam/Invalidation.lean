import Telegenic.Genicam.Writes

/-! What a write drops. The map of invalidators is looked up under the
register that is written in the end, not under the node the call is about, so
a write to a node drops a register's cache if that register names the
registers the write can end at. -/

set_option autoImplicit false

namespace Telegenic.Genicam

open Library Relation

section Forwarding

variable {P : Platform} {n : Nat}

/-- Wherever a write to the node ends, it is at a register that invalidates the
dependent. -/
def Description.Settled (description : Description P n) (dependent id : Fin n) : Prop :=
  ∀ last, ReflTransGen description.Forwards id last →
    ((description.node last).isRegister → dependent ∈ description.invalidates last) ∧
      ∀ value, (description.node last).value? = some (.direct value) → ¬ value.isLiteral

variable {description : Description P n} {dependent id target : Fin n}

theorem Description.Settled.forward (settled : description.Settled dependent id)
    (forwards : description.Forwards id target) : description.Settled dependent target :=
  fun last reached => settled last (reached.head forwards)

theorem Description.Settled.fixed (settled : description.Settled dependent id) :
    ∀ value, (description.node id).value? = some (.direct value) → ¬ value.isLiteral :=
  (settled id .refl).2

theorem Description.Settled.shaped (settled : description.Settled dependent id) {now : Description P n}
    (shaped : description.Shaped now) : now.Settled dependent id := by
  have same : ∀ {last}, ReflTransGen description.Forwards id last → now.node last = description.node last :=
    fun reached => shaped.node_eq (settled _ reached).2
  have reaches : ∀ {last}, ReflTransGen now.Forwards id last → ReflTransGen description.Forwards id last := by
    intro last reached
    induction reached with
    | refl => exact .refl
    | tail _ forwards ih =>
      obtain ⟨value, held, named⟩ := forwards
      exact ih.tail ⟨value, same ih ▸ held, named⟩
  intro last reached
  rw [same (reaches reached), shaped.invalidates]
  exact settled last (reaches reached)

end Forwarding

section Leaving

variable {P : Platform} {n : Nat} {σ : Type} {description : Description P n} {dependent id target : Fin n}
  {stack : List (Fin n)} {nested : Calls P n σ} {port : PortIo σ}

theorem registerWrite_drops {bytes : List UInt8} (evaluates : Evaluates description stack nested id)
    (named : dependent ∈ description.invalidates id) :
    Achieves description stack (fun w => w.backing.cache dependent = none) (registerWrite port nested id bytes) := by
  refine Leaves.bind (Comparison.nodeAt_alike unchanged_steady) fun node known => ?_
  cases node with
  | register common kind =>
    simp only
    split
    · exact refuse_achieves
    · refine Leaves.bind (Comparison.registerAddress_alike unchanged_steady evaluates) fun place _ => ?_
      refine Leaves.bind (onPort_keeping _) fun _ _ => Leaves.modify fun w between => ?_
      -- The dependents' caches are dropped last.
      rw [Backing.afterWrite_cache, between.backing.2, if_pos named]
  | category | integer | float | boolean | stringFeat | enumeration | command | converter | swissKnife | port =>
    exact refuse_achieves

theorem ends_drop : Ends description port (fun _ => True) fun id w =>
    description.Settled dependent id → w.backing.cache dependent = none where
  register evaluates isRegister w value w' between succeeded settled :=
    registerWrite_drops evaluates ((settled _ .refl).1 isRegister) w value w' between succeeded
  literal _ held given _ _ _ _ _ _ settled := absurd given (settled.fixed _ held)
  forward _ forwards emptied settled := emptied (settled.forward forwards)
  numeric _ := trivial
  strings _ _ _ := trivial

end Leaving

/-! ## Calls that write -/

section Writes

variable {P : Platform} {n : Nat} {σ : Type}

end Writes

/-! ## Where the register named is not the one written -/

def featureGraph (named : Fin 3) : Backing plainPlatform 3 (List UInt8) where
  description :=
    { name := fun id => ["Gain", "GainReg", "StatusReg"].getD id ""
      node := fun id =>
        [.integer (.direct (.link (.id 1))) (.direct .none) (.direct .none) (.direct .none),
          plainRegister 0 4, plainRegister 4 4].getD id .port
      byName := fun name => ["Gain", "GainReg", "StatusReg"].findFinIdx? (· == name)
      invalidates := fun id => if id = named then [2] else [] }
  cachable := fun _ => .writeAround
  cache := fun _ => none
  port := List.replicate 8 0

theorem featureGraph_settled : (featureGraph 1).description.Settled 2 0 := by
  intro last reached
  have place : last = 0 ∨ last = 1 := by
    induction reached with
    | refl => exact .inl rfl
    | tail _ forwards ih =>
      obtain ⟨value, held, named⟩ := forwards
      obtain rfl | rfl := ih
      · cases held
        exact .inr (List.mem_singleton.mp named)
      · cases held
  obtain rfl | rfl := place
  · exact ⟨by rintro ⟨⟩, by rintro value held; cases held; rintro ⟨⟩⟩
  · exact ⟨fun _ => by decide, by rintro value ⟨⟩⟩

end Telegenic.Genicam
