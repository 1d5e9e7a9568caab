import Telegenic.Genicam.Formulas

/-! Nested conditionals in the grammar of C, where the middle operand stands
between `?` and `:` as if in parentheses. The parser takes `?` and `:` for two
operators that group to the right, and agrees with C where no middle operand is
a conditional of its own. -/

set_option autoImplicit false

namespace Telegenic.Genicam

open Library

variable {N : Numbers}

/-- A nesting of `?:` over operands. -/
inductive Conditional (N : Numbers) where
  | operand (t : Tree N)
  | cond (condition middle last : Conditional N)

def Conditional.tree : Conditional N → Tree N
  | .operand t => t
  | .cond condition middle last => .cond condition.tree middle.tree last.tree

/-- The texts of a nesting with the parentheses C needs: only a conditional that
is a condition itself. Operands are literals, names or in parentheses. -/
inductive CText : Conditional N → List Char → Prop where
  | operand {t : Tree N} {text : List Char} (renders : Renders t none text) : CText (.operand t) text
  | cond {t : Tree N} {middle last : Conditional N} {first second third : List Char} (condition : Renders t none first)
      (middleText : CText middle second) (lastText : CText last third) :
      CText (.cond (.operand t) middle last) (first ++ '?' :: (second ++ ':' :: third))
  | nested {c m l middle last : Conditional N} {first second third : List Char} (condition : CText (.cond c m l) first)
      (middleText : CText middle second) (lastText : CText last third) :
      CText (.cond (.cond c m l) middle last) ('(' :: (first ++ [')']) ++ '?' :: (second ++ ':' :: third))

def Conditional.PlainMiddles : Conditional N → Prop
  | .operand _ => True
  | .cond condition (.operand _) last => condition.PlainMiddles ∧ last.PlainMiddles
  | .cond _ (.cond ..) _ => False

theorem fitsRight_colon {outermost : Option (Op N)} (loose : ∀ op ∈ outermost, op = .ternary) :
    FitsRight Op.binding .ternaryColon outermost := by
  intro op held
  rw [loose op held]
  exact .inr ⟨rfl, rfl⟩

theorem CText.renders {nest : Conditional N} {text : List Char} (written : CText nest text) (plain : nest.PlainMiddles) :
    ∃ outermost, Renders nest.tree outermost text ∧ ∀ op ∈ outermost, op = .ternary := by
  induction written with
  | operand renders => exact ⟨none, renders, nofun⟩
  | cond condition middleText lastText _ lastIH =>
    cases middleText with
    | operand middle =>
      obtain ⟨outermost, last, loose⟩ := lastIH plain.2
      exact ⟨_, .cond condition middle last nofun nofun (fitsRight_colon loose), fun _ held => (Option.some.inj held).symm⟩
    | cond | nested => exact plain.elim
  | nested condition middleText lastText conditionIH _ lastIH =>
    cases middleText with
    | operand middle =>
      obtain ⟨_, condition, _⟩ := conditionIH plain.1
      obtain ⟨outermost, last, loose⟩ := lastIH plain.2
      exact ⟨_, .cond condition.group middle last nofun nofun (fitsRight_colon loose),
        fun _ held => (Option.some.inj held).symm⟩
    | cond | nested => exact plain.elim

def middleConditional : Conditional plainNumbers :=
  .cond (.operand (.int 1)) (.cond (.operand (.int 0)) (.operand (.int 1)) (.operand (.int 2))) (.operand (.int 3))

end Telegenic.Genicam
