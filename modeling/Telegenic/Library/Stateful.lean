import Mathlib.Tactic

/-! Computations on a state that may fail. What a computation did before it
failed stays done. Two such computations are compared through a relation
between their states: `Coupled` says that from related states both give the
same result and leave related states again. Compared with itself, a
computation keeps an invariant. `SameEffect` compares the states alone. -/

set_option autoImplicit false

namespace Telegenic.Library

/-- A computation that reads and changes the state and may fail. -/
def Stateful (State Error Value : Type) : Type := State → Except Error Value × State

namespace Stateful

variable {State Error Value Next : Type}

/-- Stop with an error. -/
def fail (error : Error) : Stateful State Error Value := fun s => (.error error, s)

/-- Look something up in the state. -/
def read (look : State → Value) : Stateful State Error Value := fun s => (.ok (look s), s)

/-- Change the state. -/
def modify (change : State → State) : Stateful State Error Unit := fun s => (.ok (), change s)

/-- Carry on with a result found elsewhere. -/
def ofExcept (result : Except Error Value) : Stateful State Error Value := fun s => (result, s)

/-- Clean up after a failure, and fail as before. -/
def inspectErr (first : Stateful State Error Value) (cleanUp : State → State) : Stateful State Error Value := fun s =>
  match first s with
  | (.ok value, s) => (.ok value, s)
  | (.error error, s) => (.error error, cleanUp s)

/-- Go on with `next` unless `first` failed. -/
protected def bind (first : Stateful State Error Value) (next : Value → Stateful State Error Next) :
    Stateful State Error Next := fun s =>
  match first s with
  | (.ok value, s) => next value s
  | (.error error, s) => (.error error, s)

instance : Monad (Stateful State Error) where
  pure value := fun s => (.ok value, s)
  bind := Stateful.bind

theorem pure_apply (value : Value) (s : State) : (pure value : Stateful State Error Value) s = (.ok value, s) := rfl

theorem bind_apply (first : Stateful State Error Value) (next : Value → Stateful State Error Next) (s : State) :
    (first >>= next) s =
      match first s with
      | (.ok value, s) => next value s
      | (.error error, s) => (.error error, s) := rfl

/-- What failed with a clean-up failed before it. -/
theorem inspectErr_error {first : Stateful State Error Value} {cleanUp : State → State} {s : State} {error : Error}
    (failed : (inspectErr first cleanUp s).1 = .error error) :
    inspectErr first cleanUp s = (.error error, cleanUp (first s).2) := by
  rcases ran : first s with ⟨result, later⟩
  simp only [inspectErr, ran] at failed ⊢
  cases result with
  | ok value => cases failed
  | error other =>
    cases failed
    rfl

theorem map_apply (change : Value → Next) (first : Stateful State Error Value) (s : State) :
    (change <$> first) s = (first >>= fun value => pure (change value)) s := rfl

theorem map_run (change : Value → Next) (first : Stateful State Error Value) (s : State) :
    (change <$> first) s = ((first s).1.map change, (first s).2) := by
  rw [map_apply, bind_apply]
  obtain ⟨result, after⟩ := first s
  cases result <;> rfl

/-- Computations that agree on what `change` keeps of their values agree on
whatever is made of that. -/
theorem map_congr {Last : Type} {change : Value → Next} {first second : Stateful State Error Value} {s : State}
    (same : (change <$> first) s = (change <$> second) s) (after : Next → Last) :
    ((fun value => after (change value)) <$> first) s = ((fun value => after (change value)) <$> second) s := by
  rw [map_run, map_run] at same ⊢
  obtain ⟨result, state⟩ := Prod.mk.inj same
  have split (outcome : Except Error Value) :
      outcome.map (fun value => after (change value)) = (outcome.map change).map after := by
    cases outcome <;> rfl
  rw [state, split, split, result]

end Stateful

/-! ## Computations of the same effect -/

section SameEffect

variable {State Error Value Next Value' Next' : Type}

/-- The same state after the same failure, or after values that may differ. -/
inductive Paired : Except Error Value × State → Except Error Value' × State → Prop where
  | ok (value : Value) (value' : Value') (s : State) : Paired (.ok value, s) (.ok value', s)
  | error (error : Error) (s : State) : Paired (.error error, s) (.error error, s)

def SameEffect (first : Stateful State Error Value) (second : Stateful State Error Value') : Prop :=
  ∀ s, Paired (first s) (second s)

namespace SameEffect

theorem refl (first : Stateful State Error Value) : SameEffect first first := by
  intro s
  obtain ⟨result, after⟩ := first s
  cases result with
  | ok value => exact .ok value value after
  | error error => exact .error error after

theorem bind {first : Stateful State Error Value} {second : Stateful State Error Value'}
    {rest : Value → Stateful State Error Next} {rest' : Value' → Stateful State Error Next'}
    (begins : SameEffect first second) (goesOn : ∀ value value', SameEffect (rest value) (rest' value')) :
    SameEffect (first >>= rest) (second >>= rest') := by
  intro s
  have outcome := begins s
  rw [Stateful.bind_apply, Stateful.bind_apply]
  generalize first s = left at outcome
  generalize second s = right at outcome
  cases outcome with
  | ok value value' after => exact goesOn value value' after
  | error error after => exact .error error after

/-- Both go on from the same value. -/
theorem bind_same {first : Stateful State Error Value} {rest : Value → Stateful State Error Next}
    {rest' : Value → Stateful State Error Next'} (goesOn : ∀ value, SameEffect (rest value) (rest' value)) :
    SameEffect (first >>= rest) (first >>= rest') := by
  intro s
  rw [Stateful.bind_apply, Stateful.bind_apply]
  obtain ⟨result, after⟩ := first s
  cases result with
  | ok value => exact goesOn value after
  | error error => exact .error error after

theorem map {first : Stateful State Error Value} {second : Stateful State Error Value'} (change : Value → Next)
    (change' : Value' → Next') (same : SameEffect first second) : SameEffect (change <$> first) (change' <$> second) :=
  same.bind fun _ _ s => .ok _ _ s

end SameEffect

end SameEffect

/-! ## Coupled computations -/

section Coupled

variable {State Error Value Next : Type}

/-- Two outcomes that agree: the same value, of which `known` holds, with the
states related by `between`, or the same error with the states related by
`failed`. -/
inductive Agree (between : State → State → Prop) (failed : Error → State → State → Prop) (known : Value → Prop) :
    Except Error Value × State → Except Error Value × State → Prop where
  | ok {value : Value} {s t : State} (holds : known value) (related : between s t) :
      Agree between failed known (.ok value, s) (.ok value, t)
  | error {error : Error} {s t : State} (related : failed error s t) :
      Agree between failed known (.error error, s) (.error error, t)

/-- From related states the two computations have agreeing outcomes. -/
def Coupled (between : State → State → Prop) (failed : Error → State → State → Prop) (known : Value → Prop)
    (first second : Stateful State Error Value) : Prop :=
  ∀ s t, between s t → Agree between failed known (first s) (second t)

variable {between : State → State → Prop} {failed : Error → State → State → Prop} {known : Value → Prop}
  {next : Next → Prop}

theorem Agree.weaken {wider : Value → Prop} {first second : Except Error Value × State}
    (agree : Agree between failed known first second) (weaker : ∀ value, known value → wider value) :
    Agree between failed wider first second := by
  cases agree with
  | ok holds related => exact .ok (weaker _ holds) related
  | error related => exact .error related

namespace Coupled

theorem pure {value : Value} (holds : known value) :
    Coupled between failed known (Pure.pure value) (Pure.pure value) :=
  fun _ _ related => .ok holds related

theorem fail {error : Error} (fails : ∀ s t, between s t → failed error s t) :
    Coupled between failed known (Stateful.fail error) (Stateful.fail error) :=
  fun s t related => .error (fails s t related)

theorem bind {first first' : Stateful State Error Value} {rest rest' : Value → Stateful State Error Next}
    (begins : Coupled between failed known first first')
    (goesOn : ∀ value, known value → Coupled between failed next (rest value) (rest' value)) :
    Coupled between failed next (first >>= rest) (first' >>= rest') := by
  intro s t related
  have outcome := begins s t related
  rw [Stateful.bind_apply, Stateful.bind_apply]
  generalize first s = left at outcome
  generalize first' t = right at outcome
  cases outcome with
  | ok holds related => exact goesOn _ holds _ _ related
  | error related => exact .error related

theorem map {change : Value → Next} {first first' : Stateful State Error Value}
    (begins : Coupled between failed known first first') (holds : ∀ value, known value → next (change value)) :
    Coupled between failed next (change <$> first) (change <$> first') :=
  bind begins fun value known => pure (holds value known)

/-- A lookup that related states answer alike; what they answer is known in
what follows. -/
theorem read {look : State → Value} (alike : ∀ s t, between s t → look s = look t ∧ known (look s)) :
    Coupled between failed known (Stateful.read look) (Stateful.read look) := by
  intro s t related
  obtain ⟨same, holds⟩ := alike s t related
  rw [Stateful.read, Stateful.read, ← same]
  exact .ok holds related

theorem modify {change change' : State → State} (keeps : ∀ s t, between s t → between (change s) (change' t)) :
    Coupled between failed (fun _ => True) (Stateful.modify change) (Stateful.modify change') :=
  fun s t related => .ok trivial (keeps s t related)

theorem weaken {wider : Value → Prop} {first second : Stateful State Error Value}
    (coupled : Coupled between failed known first second) (weaker : ∀ value, known value → wider value) :
    Coupled between failed wider first second :=
  fun s t related => (coupled s t related).weaken weaker

/-- What the first computation's values are known to be is known of both. -/
theorem strengthen {narrower : Value → Prop} {first second : Stateful State Error Value}
    (coupled : Coupled between failed known first second)
    (holds : ∀ s t value s', between s t → first s = (.ok value, s') → narrower value) :
    Coupled between failed narrower first second := by
  intro s t related
  have outcome := coupled s t related
  generalize left : first s = outcome' at outcome ⊢
  generalize second t = outcome'' at outcome ⊢
  cases outcome with
  | ok _ after => exact .ok (holds s t _ _ related left) after
  | error after => exact .error after

end Coupled

/-- Where the computation succeeds, it leaves a state with the property. -/
def Leaves (before after : State → Prop) (computation : Stateful State Error Value) : Prop :=
  ∀ s value s', before s → computation s = (.ok value, s') → after s'

namespace Leaves

variable {before after : State → Prop}

theorem weaken {wider : State → Prop} {computation : Stateful State Error Value} (leaves : Leaves before after computation)
    (holds : ∀ s, after s → wider s) : Leaves before wider computation :=
  fun s value s' begins succeeded => holds s' (leaves s value s' begins succeeded)

theorem modify {change : State → State} (makes : ∀ s, before s → after (change s)) :
    Leaves before after (Stateful.modify change : Stateful State Error Unit) := by
  intro s _ s' holds changed
  cases changed
  exact makes s holds

/-- The last computation decides; those before it only have to keep the
invariant. -/
theorem bind {first : Stateful State Error Value} {rest : Value → Stateful State Error Next}
    (begins : Coupled between failed known first first)
    (goesOn : ∀ value, known value → Leaves (fun s => between s s) after (rest value)) :
    Leaves (fun s => between s s) after (first >>= rest) := by
  intro s value s' holds succeeded
  rw [Stateful.bind_apply] at succeeded
  have outcome := begins s s holds
  generalize first s = middle at outcome succeeded
  cases outcome with
  | ok known related => exact goesOn _ known _ _ _ related succeeded
  | error => nomatch succeeded

theorem map {change : Value → Next} {first : Stateful State Error Value} (leaves : Leaves before after first) :
    Leaves before after (change <$> first) := by
  intro s value s' holds succeeded
  rw [Stateful.map_apply, Stateful.bind_apply] at succeeded
  cases outcome : first s with
  | mk result middle =>
    rw [outcome] at succeeded
    cases result with
    | error => nomatch succeeded
    | ok value =>
      cases succeeded
      exact leaves s value _ holds outcome

end Leaves

end Coupled

end Telegenic.Library
