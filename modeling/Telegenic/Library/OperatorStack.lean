import Mathlib.Data.List.Basic
import Mathlib.Tactic.Basic

/-! Operator-precedence parsing with a stack (the shunting yard). Operators wait
on a stack, with an empty entry for an open parenthesis, until one that binds
no tighter arrives; then they go to the output. Rules at the end give, for each
way of building a phrase, what reading it does to the stack and the output. -/

set_option autoImplicit false

namespace Telegenic.Library

variable {Op : Type} (binding : Op → Int × Bool)

/-- Operators wait with the last one first. -/
structure Yard (Op : Type) where
  stack : List (Option Op)
  output : List Op
  deriving DecidableEq, Repr

/-- The operator sends the one on top of the stack to the output. Bindings are
a precedence and whether operators of that precedence group to the right. -/
def releases (op top : Op) : Bool :=
  if (binding op).2 then (binding op).1 < (binding top).1 else (binding op).1 ≤ (binding top).1

def Yard.push (op : Op) : List (Option Op) → List Op → Yard Op
  | some top :: stack, output =>
      if releases binding op top then Yard.push op stack (output ++ [top])
      else ⟨some op :: some top :: stack, output⟩
  | stack, output => ⟨some op :: stack, output⟩

/-- The operators since the open parenthesis go to the output. -/
def Yard.close : List (Option Op) → List Op → Option (Yard Op)
  | some op :: stack, output => Yard.close stack (output ++ [op])
  | none :: stack, output => some ⟨stack, output⟩
  | [], _ => none

/-- All waiting operators go to the output. -/
def Yard.finish : List (Option Op) → List Op → Option (List Op)
  | some op :: stack, output => Yard.finish stack (output ++ [op])
  | none :: _, _ => none
  | [], output => some output

theorem Yard.close_append (waiting : List Op) (stack : List (Option Op)) :
    ∀ output, Yard.close (waiting.map some ++ none :: stack) output = some ⟨stack, output ++ waiting⟩ := by
  induction waiting with
  | nil =>
    intro output
    simp [Yard.close]
  | cons op waiting ih =>
    intro output
    rw [List.map_cons, List.cons_append, Yard.close, ih, List.append_assoc, List.singleton_append]

theorem Yard.finish_append (waiting : List Op) :
    ∀ output, Yard.finish (waiting.map some) output = some (output ++ waiting) := by
  induction waiting with
  | nil =>
    intro output
    simp [Yard.finish]
  | cons op waiting ih =>
    intro output
    rw [List.map_cons, Yard.finish, ih, List.append_assoc, List.singleton_append]

/-! ## What the yard holds -/

/-- Everything sent or waiting. -/
def Yard.ops (yard : Yard Op) : List Op := yard.output ++ yard.stack.filterMap id

def Yard.parentheses (yard : Yard Op) : Nat := yard.stack.countP Option.isNone

theorem Yard.push_ops (op : Op) :
    ∀ stack output, (Yard.push binding op stack output).ops.Perm (op :: (⟨stack, output⟩ : Yard Op).ops) := by
  intro stack
  induction stack with
  | nil =>
    intro output
    simp [Yard.push, Yard.ops]
  | cons top stack ih =>
    intro output
    cases top with
    | none =>
      simp only [Yard.push, Yard.ops, List.filterMap_cons, id]
      exact List.perm_middle
    | some top =>
      rw [Yard.push]
      split
      · refine (ih (output ++ [top])).trans ?_
        simp [Yard.ops]
      · exact List.perm_middle

theorem Yard.push_parentheses (op : Op) :
    ∀ stack output, (Yard.push binding op stack output).parentheses = (⟨stack, output⟩ : Yard Op).parentheses := by
  intro stack
  induction stack with
  | nil => exact fun _ => rfl
  | cons top stack ih =>
    intro output
    cases top with
    | none => rfl
    | some top =>
      rw [Yard.push]
      split
      · exact ih _
      · rfl

theorem Yard.close_holds {yard : Yard Op} :
    ∀ {stack output}, Yard.close stack output = some yard →
      yard.ops = (⟨stack, output⟩ : Yard Op).ops ∧
        yard.parentheses + 1 = (⟨stack, output⟩ : Yard Op).parentheses := by
  intro stack
  induction stack with
  | nil => exact fun closed => nomatch closed
  | cons top stack ih =>
    intro output closed
    cases top with
    | none =>
      cases closed
      simp [Yard.ops, Yard.parentheses]
    | some top =>
      obtain ⟨ops, parentheses⟩ := ih closed
      refine ⟨ops.trans ?_, parentheses⟩
      simp [Yard.ops]

theorem Yard.finish_holds {rpn : List Op} :
    ∀ {stack output}, Yard.finish stack output = some rpn →
      rpn = (⟨stack, output⟩ : Yard Op).ops ∧ (⟨stack, output⟩ : Yard Op).parentheses = 0 := by
  intro stack
  induction stack with
  | nil =>
    intro output finished
    cases finished
    simp [Yard.ops, Yard.parentheses]
  | cons top stack ih =>
    intro output finished
    cases top with
    | none => nomatch finished
    | some top =>
      obtain ⟨ops, parentheses⟩ := ih finished
      refine ⟨ops.trans ?_, parentheses⟩
      simp [Yard.ops]

/-! ## Phrases -/

/-- Operators of one precedence group the same way. -/
def Consistent : Prop :=
  ∀ a b, (binding a).1 = (binding b).1 → (binding a).2 = (binding b).2

/-- A phrase with this operator outermost needs no parentheses as the left
operand of `op`; a phrase with none never does. -/
def FitsLeft (op : Op) (outermost : Option Op) : Prop :=
  ∀ inner ∈ outermost,
    (binding op).1 < (binding inner).1 ∨ (binding op).1 = (binding inner).1 ∧ (binding op).2 = false

/-- The same for the right operand, or the only one of an operator before it. -/
def FitsRight (op : Op) (outermost : Option Op) : Prop :=
  ∀ inner ∈ outermost,
    (binding op).1 < (binding inner).1 ∨ (binding op).1 = (binding inner).1 ∧ (binding op).2 = true

/-- The operator on top of the stack waits until a phrase with this outermost
operator is complete. -/
def Waits (stack : List (Option Op)) (outermost : Option Op) : Prop :=
  ∀ top rest, stack = some top :: rest → ∀ op ∈ outermost, releases binding op top = false

/-- A phrase with post-order `items` was read: the operators of it that still
wait, none looser than its outermost one, are all that is missing. -/
structure Read (outermost : Option Op) (items : List Op) (before after : Yard Op) : Prop where
  waiting : ∃ waiting : List Op, after.stack = waiting.map some ++ before.stack ∧
    after.output ++ waiting = before.output ++ items ∧
    ∀ op ∈ waiting, ∃ outer ∈ outermost, (binding outer).1 ≤ (binding op).1

section Rules

variable {binding} {op : Op} {stack : List (Option Op)} {output items : List Op} {outermost : Option Op}

theorem Waits.nil : Waits binding [] outermost := nofun

theorem Waits.parenthesis : Waits binding (none :: stack) outermost := nofun

theorem Waits.whole : Waits binding stack none := fun _ _ _ _ held => nomatch held

theorem Waits.left (consistent : Consistent binding) (waits : Waits binding stack (some op))
    (fits : FitsLeft binding op outermost) : Waits binding stack outermost := by
  intro top rest found inner held
  have kept := waits top rest found op rfl
  have tighter := fits inner held
  have same := consistent op inner
  simp only [releases] at kept ⊢
  grind

theorem Waits.right (consistent : Consistent binding) (fits : FitsRight binding op outermost) :
    Waits binding (some op :: stack) outermost := by
  intro top rest found inner held
  cases found
  have tighter := fits inner held
  have same := consistent op inner
  simp only [releases]
  grind

/-- An operand or a phrase in parentheses leaves nothing waiting. -/
theorem Read.whole : Read binding none items ⟨stack, output⟩ ⟨stack, output ++ items⟩ where
  waiting := ⟨[], rfl, List.append_nil _, nofun⟩

/-- Reading a phrase in parentheses. -/
theorem Read.close {after : Yard Op} (read : Read binding outermost items ⟨none :: stack, output⟩ after) :
    Yard.close after.stack after.output = some ⟨stack, output ++ items⟩ := by
  obtain ⟨waiting, left, sent, _⟩ := read.waiting
  rw [left, Yard.close_append, sent]

theorem Read.finish {after : Yard Op} (read : Read binding outermost items ⟨[], []⟩ after) :
    Yard.finish after.stack after.output = some items := by
  obtain ⟨waiting, left, sent, _⟩ := read.waiting
  rw [left, List.append_nil, Yard.finish_append, sent, List.nil_append]

/-- An operator before its operand only joins the stack. -/
theorem Waits.push (waits : Waits binding stack (some op)) (output : List Op) :
    Yard.push binding op stack output = ⟨some op :: stack, output⟩ := by
  match stack, waits with
  | [], _ => rfl
  | none :: _, _ => rfl
  | some top :: rest, waits =>
    rw [Yard.push, waits top rest rfl op rfl]
    rfl

theorem Read.before {after : Yard Op} (read : Read binding outermost items ⟨some op :: stack, output⟩ after)
    (fits : FitsRight binding op outermost) : Read binding (some op) (items ++ [op]) ⟨stack, output⟩ after where
  waiting := by
    obtain ⟨waiting, left, sent, tighter⟩ := read.waiting
    refine ⟨waiting ++ [op], ?_, ?_, fun late held => ⟨op, rfl, ?_⟩⟩
    · rw [left, List.map_append, List.append_assoc]
      rfl
    · rw [← List.append_assoc, sent, List.append_assoc]
    · rcases List.mem_append.mp held with held | held
      · obtain ⟨outer, outermost, looser⟩ := tighter late held
        have := fits outer outermost
        omega
      · exact (List.mem_singleton.mp held) ▸ Int.le_refl _

/-- An operator after its left operand sends what waits of that to the output. -/
theorem Read.push {before after : Yard Op} (read : Read binding outermost items before after)
    (waits : Waits binding before.stack (some op)) (fits : FitsLeft binding op outermost) :
    Yard.push binding op after.stack after.output = ⟨some op :: before.stack, before.output ++ items⟩ := by
  obtain ⟨waiting, left, sent, tighter⟩ := read.waiting
  rw [left, ← sent]
  generalize after.output = output
  clear left sent
  induction waiting generalizing output with
  | nil => rw [List.map_nil, List.nil_append, List.append_nil, waits.push]
  | cons late waiting ih =>
    obtain ⟨outer, outermost, looser⟩ := tighter late List.mem_cons_self
    have released : releases binding op late = true := by
      have := fits outer outermost
      simp only [releases]
      grind
    rw [List.map_cons, List.cons_append, Yard.push, released, if_pos rfl,
      ih (fun op held => tighter op (List.mem_cons_of_mem _ held)), List.append_assoc, List.singleton_append]

/-- Reading the right operand after that completes the phrase. -/
theorem Read.between {right : List Op} {after : Yard Op}
    (read : Read binding outermost right ⟨some op :: stack, output ++ items⟩ after)
    (fits : FitsRight binding op outermost) :
    Read binding (some op) (items ++ right ++ [op]) ⟨stack, output⟩ after where
  waiting := by
    obtain ⟨waiting, left, sent, tighter⟩ := (read.before fits).waiting
    refine ⟨waiting, left, ?_, tighter⟩
    rw [sent]
    simp only [List.append_assoc]

end Rules

end Telegenic.Library
