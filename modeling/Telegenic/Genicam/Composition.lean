import Telegenic.Genicam.Converters

/-! Formulas over the values of other formulas: what the outer one gives when
an inner one enters it with the number `float_value` returns, and when reading
the inner one as an integer comes to the same. -/

set_option autoImplicit false

namespace Telegenic.Genicam

open Library

/-! ## By value -/

section ByValue

variable {P : Platform} {n : Nat} {σ : Type}

def Node.isFormula : Node P n → Bool
  | .converter .. | .swissKnife .. => true
  | _ => false

variable (floating : Fin n → Bool) (nested : Calls P n σ)

def composedRead (target : Fin n) : Access P n σ (Value P.Float) := do
  if floating target && (← nodeAt target).isFormula then return .float (← nested.floatValue target)
  else typedValue nested target

def composedVariable (id : Fin n) (vars : List (String × Link n)) (builtins : List (String × Value P.Float))
    (name : String) : Access P n σ (Value P.Float) :=
  match builtins.find? fun entry => entry.1 == name with
  | some (_, value) => pure value
  | none => do
      match ← (.read fun w => w.backing.description.variableLink vars name : Access P n σ _) with
      | none => refuse (.formula · s!"unbound variable '{name}'") id
      | some link =>
          let target ← resolve link
          composedRead floating nested target

def composedVariables (id : Fin n) (vars : List (String × Link n)) (builtins : List (String × Value P.Float)) :
    List String → Access P n σ (List (Value P.Float))
  | [] => pure []
  | name :: names => do
      let value ← composedVariable floating nested id vars builtins name
      let values ← composedVariables id vars builtins names
      pure (value :: values)

def composedFormula (id : Fin n) (formula : String) (vars : List (String × Link n))
    (builtins : List (String × Value P.Float)) : Access P n σ (Value P.Float) := do
  let expr ← orFormula id (P.parse formula)
  let values ← composedVariables floating nested id vars builtins (P.vars expr)
  orFormula id (P.eval expr values)

def composedRaw : Direct P n → Access P n σ (Value P.Float)
  | .link link => do
      let target ← resolve link
      composedRead floating nested target
  | other => .int <$> directInt nested other

def composedValue (id : Fin n) : Access P n σ (Value P.Float) := do
  match ← nodeAt id with
  | .converter value _ formulaFrom vars =>
      let entry ← chosenEntry nested value
      let raw ← composedRaw floating nested entry
      composedFormula floating nested id formulaFrom vars [("TO", raw)]
  | .swissKnife formula vars => composedFormula floating nested id formula vars []
  | _ => refuse .wrongType id

def formulaValue (id : Fin n) : Access P n σ (Value P.Float) := do
  match ← nodeAt id with
  | .converter value _ formulaFrom vars => evalConverter nested id value formulaFrom vars
  | .swissKnife formula vars => evalFormula nested id formula vars []
  | _ => refuse .wrongType id

variable {nested} {id : Fin n} {w : World P n σ} {port : PortIo σ}

theorem intValueInner_formula (port : PortIo σ) (isFormula : (w.backing.description.node id).isFormula = true) :
    intValueInner port nested id w = (Value.asI64 <$> formulaValue nested id) w := by
  simp only [intValueInner, formulaValue, Stateful.bind_apply, Stateful.map_apply, nodeAt, Stateful.read]
  cases node : w.backing.description.node id <;> rw [node] at isFormula <;> cases isFormula <;> rfl

theorem floatValueInner_formula (port : PortIo σ) (isFormula : (w.backing.description.node id).isFormula = true) :
    floatValueInner port nested id w = (Value.asF64 <$> formulaValue nested id) w := by
  simp only [floatValueInner, formulaValue, Stateful.bind_apply, Stateful.map_apply, nodeAt, Stateful.read]
  cases node : w.backing.description.node id <;> rw [node] at isFormula <;> cases isFormula <;> rfl

theorem visiting_congr {A : Type} (id : Fin n) (w : World P n σ) {body body' : Access P n σ A}
    (same : body { w with visit := id :: w.visit } = body' { w with visit := id :: w.visit }) :
    visiting id body w = visiting id body' w := by
  by_cases circular : id ∈ w.visit
  · simp only [visiting, Stateful.bind_apply, enter, if_pos circular]
  · rw [visiting_apply circular, visiting_apply circular, same]

theorem calls_formula (room : Nat) (target : Fin n) (w : World P n σ)
    (isFormula : (w.backing.description.node target).isFormula = true) :
    Paired ((calls port room).intValue target w) ((calls port room).floatValue target w) := by
  cases room with
  | zero => exact .error _ _
  | succ room =>
    show Paired (visiting target (intValueInner port (calls port room) target) w)
      (visiting target (floatValueInner port (calls port room) target) w)
    by_cases circular : target ∈ w.visit
    · simp only [visiting, Stateful.bind_apply, enter, if_pos circular]
      exact .error _ _
    · have outcome := (SameEffect.refl (formulaValue (calls port room) target)).map Value.asI64 Value.asF64
        { w with visit := target :: w.visit }
      rw [← intValueInner_formula port (w := { w with visit := target :: w.visit }) isFormula,
        ← floatValueInner_formula port (w := { w with visit := target :: w.visit }) isFormula] at outcome
      rw [visiting_apply circular, visiting_apply circular]
      generalize intValueInner port (calls port room) target { w with visit := target :: w.visit } = left at outcome
      generalize floatValueInner port (calls port room) target { w with visit := target :: w.visit } = right at outcome
      cases outcome with
      | ok value value' after => exact .ok value value' (leave after)
      | error error after => exact .error error (leave after)

section Effects

variable {floating}
  (formulas : ∀ (target : Fin n) (w : World P n σ), (w.backing.description.node target).isFormula = true →
    Paired (nested.intValue target w) (nested.floatValue target w))

include formulas

theorem composedRead_sameEffect (target : Fin n) :
    SameEffect (typedValue nested target) (composedRead floating nested target) := by
  intro w
  by_cases isFormula : (floating target && (w.backing.description.node target).isFormula) = true
  · have formula : (w.backing.description.node target).isFormula = true := (Bool.and_eq_true_iff.mp isFormula).2
    have whole : (w.backing.description.node target).isFloat = false := by
      cases node : w.backing.description.node target <;> rw [node] at formula <;> cases formula <;> rfl
    have composed : composedRead floating nested target w = (Value.float <$> nested.floatValue target) w := by
      simp only [composedRead, nodeAt, Stateful.bind_apply, Stateful.read, if_pos isFormula]
      rfl
    rw [composed, typedValue_int whole, Stateful.map_run, Stateful.map_run]
    have outcome := formulas target w formula
    generalize nested.intValue target w = left at outcome
    generalize nested.floatValue target w = right at outcome
    cases outcome with
    | ok value value' after => exact .ok _ _ after
    | error error after => exact .error error after
  · have composed : composedRead floating nested target w = typedValue nested target w := by
      simp only [composedRead, nodeAt, Stateful.bind_apply, Stateful.read, if_neg isFormula]
    rw [composed]
    exact SameEffect.refl _ w

theorem composedVariable_sameEffect (vars : List (String × Link n)) {builtins builtins' : List (String × Value P.Float)}
    (named : builtins.map Prod.fst = builtins'.map Prod.fst) (name : String) :
    SameEffect (variableValue nested id vars builtins name) (composedVariable floating nested id vars builtins' name) := by
  have found := congrArg (List.find? (· == name)) named
  rw [List.find?_map, List.find?_map] at found
  unfold variableValue composedVariable
  cases left : builtins.find? fun entry => entry.1 == name with
  | some entry =>
    cases right : builtins'.find? fun entry => entry.1 == name with
    | some entry' => exact fun s => .ok _ _ s
    | none => simp [left, right] at found
  | none =>
    cases right : builtins'.find? fun entry => entry.1 == name with
    | some entry' => simp [left, right] at found
    | none =>
      refine .bind_same fun link => ?_
      cases link with
      | none => exact .refl _
      | some link => exact .bind_same fun target => composedRead_sameEffect formulas target

theorem composedVariables_sameEffect (vars : List (String × Link n)) {builtins builtins' : List (String × Value P.Float)}
    (named : builtins.map Prod.fst = builtins'.map Prod.fst) (names : List String) :
    SameEffect (bindVariables nested id vars builtins names) (composedVariables floating nested id vars builtins' names) := by
  induction names with
  | nil => exact .refl _
  | cons name names ih =>
    refine (composedVariable_sameEffect formulas vars named name).bind fun _ _ => ?_
    exact ih.bind fun _ _ s => .ok _ _ s

theorem composedRaw_sameEffect (entry : Direct P n) :
    SameEffect (rawValue nested entry) (composedRaw floating nested entry) := by
  cases entry with
  | link link => exact .bind_same fun target => composedRead_sameEffect formulas target
  | litInt | litFloat | litStr | none => exact .refl _

end Effects

end ByValue

/-! ## Integers as floats -/

def Value.number : Value Rat → Rat
  | .int v => v.toInt
  | .float q => q

inductive Promoted : Value Rat → Value Rat → Prop where
  | same (a : Value Rat) : Promoted a a
  | float (a : Value Rat) : Promoted a (.float a.number)

theorem Promoted.number {a a' : Value Rat} (promoted : Promoted a a') : a'.number = a.number := by
  cases promoted <;> rfl

def BinaryOp.Exact : BinaryOp → Value Rat → Value Rat → Prop
  | .add, .int x, .int y => (x + y).toInt = x.toInt + y.toInt
  | .sub, .int x, .int y => (x - y).toInt = x.toInt - y.toInt
  | .mul, .int x, .int y => (x * y).toInt = x.toInt * y.toInt
  | .div, .int x, .int y => y ≠ 0 ∧ (x / y).toInt * y.toInt = x.toInt
  | _, _, _ => True

def NegExact : Value Rat → Prop
  | .int v => (-v).toInt = -v.toInt
  | .float _ => True

section Exact

variable {pi e : Rat} {powf : Rat → Rat → Rat} {call : FloatFunction → Rat → Rat}

def Op.Exact : Op (rationals pi e powf call) → List (Value Rat) → Prop
  | .binary op, b :: a :: _ => op.Exact a b
  | .unary .unaryMinus, a :: _ => NegExact a
  | .function .negFn, a :: _ => NegExact a
  | .function .abs, .int v :: _ => v.abs.toInt = |v.toInt|
  | _, _ => True

def ExactRun (names : List String) (vars : List (Value Rat)) : List (Op (rationals pi e powf call)) → List (Value Rat) → Prop
  | [], _ => True
  | op :: rpn, stack => op.Exact stack ∧ ∀ after, op.eval names vars stack = .ok after → ExactRun names vars rpn after

theorem asI64_number (a : Value Rat) : (rationals pi e powf call).asI64 a = saturate (roundHalfAway a.number) := by
  cases a with
  | int v => rw [Value.number, roundHalfAway_intCast, saturate_toInt]; rfl
  | float q => rfl

theorem asF64_number (a : Value Rat) : (rationals pi e powf call).asF64 a = a.number := by
  cases a <;> rfl

theorem compare_toInt (x y : Int64) : compare (x.toInt : Rat) y.toInt = compare x y := by
  rw [LinearOrder.compare_eq_compareOfLessAndEq]
  show _ = compareOfLessAndEq x y
  unfold compareOfLessAndEq
  simp only [Int.cast_lt, Int.cast_inj, Int64.lt_iff_toInt_lt, Int64.toInt_inj]

theorem truthy_number (a : Value Rat) : (rationals pi e powf call).truthy a = (compare a.number 0 != .eq) := by
  cases a with
  | int v =>
    show (v != 0) = _
    rw [Value.number, Bool.eq_iff_iff]
    simp only [bne_iff_ne, ne_eq, compare_eq_iff_eq, Int.cast_eq_zero, ← Int64.toInt_zero, Int64.toInt_inj]
  | float q =>
    show (some (compare q ((0 : Int64).toInt : Rat)) != some .eq) = _
    rw [Int64.toInt_zero, Int.cast_zero, Value.number]
    cases compare q 0 <;> rfl

theorem compareValues_number (f : Ordering → Bool) (a b : Value Rat) :
    compareValues (N := rationals pi e powf call) f a b = .ok (ofBool (f (compare a.number b.number))) := by
  cases a with
  | int x =>
    cases b with
    | int y => rw [Value.number, Value.number, compare_toInt]; rfl
    | float q => rfl
  | float p => cases b <;> rfl

def BinaryOp.isArithmetic : BinaryOp → Bool
  | .add | .sub | .mul | .div => true
  | _ => false

theorem applyBinary_blind {op : BinaryOp} (blind : op.isArithmetic = false) {a a' b b' : Value Rat}
    (first : a'.number = a.number) (second : b'.number = b.number) :
    applyBinary (N := rationals pi e powf call) op a' b' = applyBinary op a b := by
  cases op <;> cases blind <;>
    simp only [applyBinary, intBinop, truthy_number, asI64_number, asF64_number, compareValues_number, first, second]

theorem applyBinary_float {op : BinaryOp} (arithmetic : op.isArithmetic = true) (a : Value Rat) (q : Rat) :
    applyBinary (N := rationals pi e powf call) op a (.float q) = applyBinary op (.float a.number) (.float q) ∧
      applyBinary (N := rationals pi e powf call) op (.float q) a = applyBinary op (.float q) (.float a.number) := by
  cases op <;> cases arithmetic <;> cases a <;> exact ⟨rfl, rfl⟩

theorem applyBinary_exact {op : BinaryOp} (arithmetic : op.isArithmetic = true) {a b : Value Rat} (exact : op.Exact a b) :
    ∃ value, applyBinary (N := rationals pi e powf call) op a b = .ok value ∧
      applyBinary (N := rationals pi e powf call) op (.float a.number) (.float b.number) = .ok (.float value.number) := by
  cases op <;> cases arithmetic <;> cases a <;> cases b
  case add.refl.int.int x y =>
    have sum : (x + y).toInt = x.toInt + y.toInt := exact
    refine ⟨.int (x + y), rfl, ?_⟩
    simp only [Value.number, sum, Int.cast_add]
    rfl
  case sub.refl.int.int x y =>
    have difference : (x - y).toInt = x.toInt - y.toInt := exact
    refine ⟨.int (x - y), rfl, ?_⟩
    simp only [Value.number, difference, Int.cast_sub]
    rfl
  case mul.refl.int.int x y =>
    have product : (x * y).toInt = x.toInt * y.toInt := exact
    refine ⟨.int (x * y), rfl, ?_⟩
    simp only [Value.number, product, Int.cast_mul]
    rfl
  case div.refl.int.int x y =>
    obtain ⟨nonzero, quotient⟩ : y ≠ 0 ∧ (x / y).toInt * y.toInt = x.toInt := exact
    have divisor : (y.toInt : Rat) ≠ 0 := by
      rw [Int.cast_ne_zero, ← Int64.toInt_zero]
      exact fun same => nonzero (Int64.toInt_inj.mp same)
    refine ⟨.int (x / y), if_neg nonzero, ?_⟩
    have cancelled : (x.toInt : Rat) / y.toInt = (x / y).toInt := by
      rw [← quotient, Int.cast_mul, mul_div_cancel_right₀ _ divisor]
    simp only [Value.number, ← cancelled]
    rfl
  all_goals exact ⟨_, rfl, rfl⟩

inductive Related {A B : Type} (related : A → B → Prop) : Except String A → Except String B → Prop where
  | ok {a : A} {b : B} (holds : related a b) : Related related (.ok a) (.ok b)
  | error (message : String) : Related related (.error message) (.error message)

theorem Related.refl_promoted (result : Except String (Value Rat)) : Related Promoted result result := by
  cases result with
  | ok value => exact .ok (.same value)
  | error message => exact .error message

theorem applyBinary_promoted {op : BinaryOp} {a a' b b' : Value Rat} (exact : op.Exact a b) (first : Promoted a a')
    (second : Promoted b b') :
    Related Promoted (applyBinary (N := rationals pi e powf call) op a b) (applyBinary (N := rationals pi e powf call) op a' b') := by
  cases arithmetic : op.isArithmetic with
  | false =>
    rw [applyBinary_blind arithmetic first.number second.number]
    exact .refl_promoted _
  | true =>
    obtain ⟨value, computed, asFloat⟩ := @applyBinary_exact pi e powf call op arithmetic a b exact
    have promoted : Related Promoted (.ok value) (.ok (.float value.number)) := .ok (.float value)
    cases first with
    | same =>
      cases second with
      | same => exact .refl_promoted _
      | float =>
        rw [computed, (applyBinary_float arithmetic a b.number).1, asFloat]
        exact promoted
    | float =>
      cases second with
      | same =>
        rw [computed, (applyBinary_float arithmetic b a.number).2, asFloat]
        exact promoted
      | float =>
        rw [computed, asFloat]
        exact promoted

theorem negValue_promoted {a a' : Value Rat} (exact : NegExact a) (promoted : Promoted a a') :
    Promoted (negValue (N := rationals pi e powf call) a) (negValue (N := rationals pi e powf call) a') := by
  cases promoted with
  | same => exact .same _
  | float =>
    cases a with
    | float q => exact .same _
    | int v =>
      have negated : (-v).toInt = -v.toInt := exact
      have asFloat : negValue (N := rationals pi e powf call) (.float (v.toInt : Rat)) = .float (Value.int (-v)).number := by
        rw [Value.number, negated, Int.cast_neg]
        rfl
      rw [Value.number, asFloat]
      exact .float (.int (-v))

theorem signum_promoted (v : Int64) :
    applyFunction (N := rationals pi e powf call) .sgn (.float (v.toInt : Rat)) = .int (signum v) := by
  have ordered : compare (v.toInt : Rat) ((0 : Int64).toInt : Rat) = compareOfLessAndEq v 0 := compare_toInt v 0
  simp only [applyFunction, ordered]
  unfold signum compareOfLessAndEq
  by_cases negative : v < 0
  · have notPositive : ¬ 0 < v := by
      rw [Int64.lt_iff_toInt_lt, Int64.toInt_zero] at negative ⊢
      omega
    simp only [if_pos negative, if_neg notPositive]
  · by_cases zero : v = 0
    · subst zero
      rfl
    · have positive : 0 < v := by
        rw [← Int64.toInt_inj, Int64.toInt_zero] at zero
        rw [Int64.lt_iff_toInt_lt, Int64.toInt_zero] at negative ⊢
        omega
      simp only [if_neg negative, if_neg zero, if_pos positive]

theorem applyUnary_promoted {op : UnaryOp} {a a' : Value Rat} {stack : List (Value Rat)}
    (exact : Op.Exact (.unary op : Op (rationals pi e powf call)) (a :: stack)) (promoted : Promoted a a') :
    Promoted (applyUnary (N := rationals pi e powf call) op a) (applyUnary (N := rationals pi e powf call) op a') := by
  cases op with
  | unaryMinus => exact negValue_promoted exact promoted
  | unaryPlus => exact promoted
  | bitNot =>
    simp only [applyUnary, asI64_number, promoted.number]
    exact .same _

theorem applyFunction_promoted {f : FormulaFunction} {a a' : Value Rat} {stack : List (Value Rat)}
    (exact : Op.Exact (.function f : Op (rationals pi e powf call)) (a :: stack)) (promoted : Promoted a a') :
    Promoted (applyFunction (N := rationals pi e powf call) f a) (applyFunction (N := rationals pi e powf call) f a') := by
  cases f with
  | negFn => exact negValue_promoted exact promoted
  | float f =>
    simp only [applyFunction, asF64_number, promoted.number]
    exact .same _
  | sgn =>
    cases promoted with
    | same => exact .same _
    | float =>
      cases a with
      | float q => exact .same _
      | int v =>
        rw [Value.number, signum_promoted]
        exact .same _
  | abs =>
    cases promoted with
    | same => exact .same _
    | float =>
      cases a with
      | float q => exact .same _
      | int v =>
        have size : v.abs.toInt = |v.toInt| := exact
        have asFloat : applyFunction (N := rationals pi e powf call) .abs (.float (v.toInt : Rat)) =
            .float (Value.int v.abs).number := by
          rw [Value.number, size, Int.cast_abs]
          rfl
        rw [Value.number, asFloat]
        exact .float (.int v.abs)

variable {names : List String} {vars vars' : List (Value Rat)} {stack stack' : List (Value Rat)}

theorem getElem?_promoted (bound : List.Forall₂ Promoted vars vars') (index : Nat) :
    Option.Rel Promoted vars[index]? vars'[index]? := by
  induction bound generalizing index with
  | nil => exact .none
  | cons head rest ih =>
    cases index with
    | zero => exact .some head
    | succ index => exact ih index

theorem eval_promoted (names : List String) {op : Op (rationals pi e powf call)} (exact : op.Exact stack)
    (bound : List.Forall₂ Promoted vars vars') (same : List.Forall₂ Promoted stack stack') :
    Related (List.Forall₂ Promoted) (op.eval names vars stack) (op.eval names vars' stack') := by
  cases op with
  | constI v => exact .ok (.cons (.same _) same)
  | constF v => exact .ok (.cons (.same _) same)
  | ternaryColon => exact .ok same
  | var index =>
    have known := getElem?_promoted bound index
    simp only [Op.eval]
    generalize vars[index]? = left at known
    generalize vars'[index]? = right at known
    cases known with
    | none => exact .error _
    | some promoted => exact .ok (.cons promoted same)
  | ternary =>
    rcases same with _ | @⟨c, c', _, _, otherwise, _ | @⟨b, b', _, _, chosen, _ | @⟨a, a', _, _, condition, rest⟩⟩⟩
    · exact .error _
    · exact .error _
    · exact .error _
    · have truth : (rationals pi e powf call).truthy a' = (rationals pi e powf call).truthy a := by
        rw [truthy_number, truthy_number, condition.number]
      show Related _ (.ok ((if (rationals pi e powf call).truthy a then b else c) :: _))
        (.ok ((if (rationals pi e powf call).truthy a' then b' else c') :: _))
      rw [truth]
      split
      · exact .ok (.cons chosen rest)
      · exact .ok (.cons otherwise rest)
  | binary op =>
    rcases same with _ | @⟨b, b', _, _, second, _ | @⟨a, a', _, _, first, rest⟩⟩
    · exact .error _
    · exact .error _
    · have outcome := @applyBinary_promoted pi e powf call op a a' b b' exact first second
      show Related _ (applyBinary (N := rationals pi e powf call) op a b >>= fun value => .ok (value :: _))
        (applyBinary (N := rationals pi e powf call) op a' b' >>= fun value => .ok (value :: _))
      generalize applyBinary (N := rationals pi e powf call) op a b = left at outcome
      generalize applyBinary (N := rationals pi e powf call) op a' b' = right at outcome
      cases outcome with
      | ok promoted => exact .ok (.cons promoted rest)
      | error message => exact .error message
  | unary op =>
    cases same with
    | nil => exact .error _
    | cons top rest => exact .ok (.cons (applyUnary_promoted exact top) rest)
  | function f =>
    cases same with
    | nil => exact .error _
    | cons top rest => exact .ok (.cons (applyFunction_promoted exact top) rest)

theorem evalOps_promoted (bound : List.Forall₂ Promoted vars vars') (rpn : List (Op (rationals pi e powf call))) :
    ∀ {stack stack' : List (Value Rat)}, ExactRun names vars rpn stack → List.Forall₂ Promoted stack stack' →
      Related (List.Forall₂ Promoted) (evalOps names vars rpn stack) (evalOps names vars' rpn stack') := by
  induction rpn with
  | nil => exact fun _ same => .ok same
  | cons op rpn ih =>
    intro stack stack' ⟨exact, run⟩ same
    have outcome := eval_promoted names exact bound same
    show Related _ (op.eval names vars stack >>= evalOps names vars rpn) (op.eval names vars' stack' >>= evalOps names vars' rpn)
    cases first : op.eval names vars stack with
    | error message =>
      rw [first] at outcome
      generalize op.eval names vars' stack' = right at outcome
      cases outcome
      exact .error message
    | ok after =>
      rw [first] at outcome
      generalize op.eval names vars' stack' = right at outcome
      cases outcome with
      | ok related => exact ih (run after first) related

theorem Expr.eval_promoted (expr : Expr (rationals pi e powf call)) (bound : List.Forall₂ Promoted vars vars')
    (exact : ExactRun expr.variableNames vars expr.rpn []) : Related Promoted (expr.eval vars) (expr.eval vars') := by
  have outcome := evalOps_promoted bound expr.rpn exact .nil
  unfold Expr.eval
  generalize evalOps expr.variableNames vars expr.rpn [] = left at outcome
  generalize evalOps expr.variableNames vars' expr.rpn [] = right at outcome
  cases outcome with
  | error message => exact .error message
  | ok same =>
    match same with
    | .nil => exact .error _
    | .cons top .nil => exact .ok top
    | .cons _ (.cons _ _) => exact .error _

end Exact

/-! ## Composition -/

section Composition

variable {pi e : Rat} {powf : Rat → Rat → Rat} {call : FloatFunction → Rat → Rat} {storage : FloatStorage Rat}
  {lossyText : List UInt8 → String} {n : Nat} {σ : Type} (floating : Fin n → Bool)
  (nested : Calls ((rationals pi e powf call).platform storage lossyText) n σ) (id : Fin n)

/-- Every value enters the formula as the number it is, and the integer
operations of the formula are exact. -/
def ExactFormula (formula : String) (vars : List (String × Link n)) (builtins builtins' : List (String × Value Rat))
    (w : World ((rationals pi e powf call).platform storage lossyText) n σ) : Prop :=
  ∀ (expr : Expr (rationals pi e powf call)) (values values' : List (Value Rat))
    (after : World ((rationals pi e powf call).platform storage lossyText) n σ),
    Expr.parse formula.toList = .ok expr →
    bindVariables nested id vars builtins expr.variableNames w = (.ok values, after) →
    composedVariables floating nested id vars builtins' expr.variableNames w = (.ok values', after) →
    List.Forall₂ Promoted values values' ∧ ExactRun expr.variableNames values expr.rpn []

def ExactNode (w : World ((rationals pi e powf call).platform storage lossyText) n σ) : Prop :=
  match w.backing.description.node id with
  | .converter value _ formulaFrom vars =>
      ∀ entry raw raw' between before, chosenEntry nested value w = (.ok entry, between) →
        rawValue nested entry between = (.ok raw, before) → composedRaw floating nested entry between = (.ok raw', before) →
        ExactFormula floating nested id formulaFrom vars [("TO", raw)] [("TO", raw')] before
  | .swissKnife formula vars => ExactFormula floating nested id formula vars [] [] w
  | _ => True

variable {floating} {nested} {id} {w : World ((rationals pi e powf call).platform storage lossyText) n σ}
  (formulas : ∀ (target : Fin n) (w : World ((rationals pi e powf call).platform storage lossyText) n σ),
    (w.backing.description.node target).isFormula = true → Paired (nested.intValue target w) (nested.floatValue target w))

include formulas

theorem composedFormula_number {formula : String} {vars : List (String × Link n)}
    {builtins builtins' : List (String × Value Rat)} (named : builtins.map Prod.fst = builtins'.map Prod.fst)
    (exact : ExactFormula floating nested id formula vars builtins builtins' w) :
    (Value.number <$> evalFormula nested id formula vars builtins) w =
      (Value.number <$> composedFormula floating nested id formula vars builtins') w := by
  simp only [evalFormula, composedFormula, Stateful.map_apply, Stateful.bind_apply]
  cases parsed : Expr.parse (N := rationals pi e powf call) formula.toList with
  | error message => rfl
  | ok expr =>
    simp only [orFormula, Stateful.pure_apply]
    have outcome : Paired (bindVariables nested id vars builtins expr.variableNames w)
        (composedVariables floating nested id vars builtins' expr.variableNames w) :=
      composedVariables_sameEffect formulas vars named expr.variableNames w
    cases bound : bindVariables nested id vars builtins expr.variableNames w with
    | mk result after =>
      rw [bound] at outcome
      cases composed : composedVariables floating nested id vars builtins' expr.variableNames w with
      | mk result' after' =>
        rw [composed] at outcome
        cases outcome with
        | error error => rfl
        | ok values values' =>
          obtain ⟨promoted, run⟩ := exact expr values values' after parsed bound composed
          have evaluated := expr.eval_promoted promoted run
          simp only
          generalize expr.eval values = left at evaluated
          generalize expr.eval values' = right at evaluated
          cases evaluated with
          | error message => rfl
          | ok alike => simp only [Stateful.pure_apply, alike.number]

theorem composedValue_number (isFormula : (w.backing.description.node id).isFormula = true)
    (exact : ExactNode floating nested id w) :
    (Value.number <$> formulaValue nested id) w = (Value.number <$> composedValue floating nested id) w := by
  unfold ExactNode at exact
  cases node : w.backing.description.node id with
  | swissKnife formula vars =>
    rw [node] at exact
    simp only [formulaValue, composedValue, Stateful.map_apply, Stateful.bind_apply, nodeAt, Stateful.read, node]
    exact composedFormula_number formulas rfl exact
  | converter value formulaTo formulaFrom vars =>
    rw [node] at exact
    simp only [formulaValue, composedValue, evalConverter, Stateful.map_apply, Stateful.bind_apply, nodeAt, Stateful.read, node]
    cases chosen : chosenEntry nested value w with
    | mk result between =>
      cases result with
      | error error => rfl
      | ok entry =>
        simp only
        have outcome : Paired (rawValue nested entry between) (composedRaw floating nested entry between) :=
          composedRaw_sameEffect formulas entry between
        cases read : rawValue nested entry between with
        | mk result after =>
          rw [read] at outcome
          cases composed : composedRaw floating nested entry between with
          | mk result' after' =>
            rw [composed] at outcome
            cases outcome with
            | error error => rfl
            | ok raw raw' =>
              have exactly := exact entry raw raw' between after chosen read composed
              exact composedFormula_number formulas rfl exactly
  | category | integer | float | boolean | stringFeat | enumeration | command | register | port =>
    rw [node] at isFormula
    cases isFormula

end Composition

def knifeGraph (inner outer : String) : Description (plainNumbers.platform plainStorage fun _ => "") 2 where
  name id := ["Outer", "Inner"].getD id ""
  node id := [.swissKnife outer [("X", .id 1)], .swissKnife inner []].getD id .port
  byName name := ["Outer", "Inner"].findFinIdx? (· == name)
  invalidates _ := []

def Reply.float? {P : Platform} : Reply P → Option P.Float
  | .float v => some v
  | _ => none

theorem eq_of_float? {P : Platform} {outcome : Except Stop (Reply P)} {v : P.Float}
    (read : outcome.map Reply.float? = .ok (some v)) : outcome = .ok (.float v) := by
  obtain stop | reply := outcome
  · nomatch read
  · cases reply <;> cases read
    rfl

theorem renders_tripled : Renders (N := plainNumbers) (.binary .mul (.name "X") (.int 3)) (some (.binary .mul)) "X*3".toList :=
  .binary (.name (show IsWord ['X'] from ⟨⟨'X', rfl, .inl rfl⟩, List.all_eq_true.mp rfl⟩) (by decide +kernel) (by decide) (by decide))
    (renders_digit '3' rfl) nofun nofun

end Telegenic.Genicam
