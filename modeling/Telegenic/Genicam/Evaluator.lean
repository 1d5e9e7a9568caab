import Telegenic.Genicam.Node
import Telegenic.Library.OperatorStack

/-! The formula evaluator of SwissKnife and Converter nodes: tokenize, order
into postfix with an operator stack, evaluate against a list of variables.
Values are integers or floats; integer operations stay integral and any float
operand promotes. -/

set_option autoImplicit false

namespace Telegenic.Genicam

open Library

/-! ## Operators -/

inductive BinaryOp where
  | or | and | bitOr | bitXor | bitAnd
  | eq | ne | le | ge | lt | gt
  | shr | shl | sub | add | rem | div | mul | pow
  deriving DecidableEq, Repr

inductive UnaryOp where
  | unaryMinus | unaryPlus | bitNot
  deriving DecidableEq, Repr

/-- Functions that always compute on floats. -/
inductive FloatFunction where
  | sin | cos | tan | asin | acos | atan | exp | ln | lg | sqrt | trunc | round | floor | ceil
  deriving DecidableEq, Repr

inductive FormulaFunction where
  | sgn | negFn | abs
  | float (f : FloatFunction)
  deriving DecidableEq, Repr

/-- The floating-point numbers formulas compute with. -/
structure Numbers where
  Float : Type
  /-- `v as f64`. -/
  ofInt : Int64 → Float
  /-- `v.round() as i64`. -/
  round : Float → Int64
  /-- The number nearest to an integer times a power of ten. -/
  ofDecimal : Nat → Int → Float
  pi : Float
  e : Float
  neg : Float → Float
  abs : Float → Float
  add : Float → Float → Float
  sub : Float → Float → Float
  mul : Float → Float → Float
  div : Float → Float → Float
  powf : Float → Float → Float
  partialCmp : Float → Float → Option Ordering
  call : FloatFunction → Float → Float

variable {N : Numbers}

inductive Op (N : Numbers) where
  | constI (v : Int64)
  | constF (v : N.Float)
  | var (index : Nat)
  | ternaryColon
  | ternary
  | binary (op : BinaryOp)
  | unary (op : UnaryOp)
  | function (f : FormulaFunction)

def BinaryOp.binding : BinaryOp → Int × Bool
  | .or => (10, false)
  | .and => (20, false)
  | .bitOr => (40, false)
  | .bitXor => (50, false)
  | .bitAnd => (60, false)
  | .eq | .ne => (70, false)
  | .le | .ge | .lt | .gt => (80, false)
  | .shr | .shl => (90, false)
  | .sub | .add => (100, false)
  | .rem | .div | .mul => (110, false)
  | .pow => (120, true)

/-- Precedence, and whether the operator is right-associative. -/
def Op.binding : Op N → Int × Bool
  | .ternary | .ternaryColon => (5, true)
  | .binary op => op.binding
  | .unary _ => (130, true)
  | _ => (200, false)

/-- A compiled formula. `variableNames` is the name table; `eval` takes values in
the same order. -/
structure Expr (N : Numbers) where
  rpn : List (Op N)
  variableNames : List String

/-! ## Evaluation -/

def Numbers.asI64 (N : Numbers) : Value N.Float → Int64
  | .int v => v
  | .float v => N.round v

def Numbers.asF64 (N : Numbers) : Value N.Float → N.Float
  | .int v => N.ofInt v
  | .float v => v

def Numbers.truthy (N : Numbers) : Value N.Float → Bool
  | .int v => v != 0
  | .float v => N.partialCmp v (N.ofInt 0) != some .eq

def ofBool (b : Bool) : Value N.Float := .int (if b then 1 else 0)

def intBinop (f : Int64 → Int64 → Int64) (a b : Value N.Float) : Value N.Float := .int (f (N.asI64 a) (N.asI64 b))

def arith (intF : Int64 → Int64 → Int64) (floatF : N.Float → N.Float → N.Float) : Value N.Float → Value N.Float → Value N.Float
  | .int x, .int y => .int (intF x y)
  | a, b => .float (floatF (N.asF64 a) (N.asF64 b))

def compareValues (f : Ordering → Bool) : Value N.Float → Value N.Float → Except String (Value N.Float)
  | .int x, .int y => .ok (ofBool (f (compare x y)))
  | a, b =>
      match N.partialCmp (N.asF64 a) (N.asF64 b) with
      | some ordering => .ok (ofBool (f ordering))
      | none => .error "NaN in comparison"

def applyBinary : BinaryOp → Value N.Float → Value N.Float → Except String (Value N.Float)
  | .or, a, b => .ok (ofBool (N.truthy a || N.truthy b))
  | .and, a, b => .ok (ofBool (N.truthy a && N.truthy b))
  | .bitOr, a, b => .ok (intBinop (· ||| ·) a b)
  | .bitXor, a, b => .ok (intBinop (· ^^^ ·) a b)
  | .bitAnd, a, b => .ok (intBinop (· &&& ·) a b)
  | .shl, a, b => .ok (intBinop (· <<< ·) a b)
  | .shr, a, b => .ok (intBinop (· >>> ·) a b)
  | .rem, a, b => if N.asI64 b = 0 then .error "remainder by zero" else .ok (.int (N.asI64 a % N.asI64 b))
  | .eq, a, b => compareValues (· == .eq) a b
  | .ne, a, b => compareValues (· != .eq) a b
  | .le, a, b => compareValues (· != .gt) a b
  | .ge, a, b => compareValues (· != .lt) a b
  | .lt, a, b => compareValues (· == .lt) a b
  | .gt, a, b => compareValues (· == .gt) a b
  | .add, a, b => .ok (arith (· + ·) N.add a b)
  | .sub, a, b => .ok (arith (· - ·) N.sub a b)
  | .mul, a, b => .ok (arith (· * ·) N.mul a b)
  | .div, .int x, .int y => if y = 0 then .error "division by zero" else .ok (.int (x / y))
  | .div, a, b => .ok (.float (N.div (N.asF64 a) (N.asF64 b)))
  | .pow, a, b => .ok (.float (N.powf (N.asF64 a) (N.asF64 b)))

def negValue : Value N.Float → Value N.Float
  | .int v => .int (-v)
  | .float v => .float (N.neg v)

def applyUnary : UnaryOp → Value N.Float → Value N.Float
  | .unaryMinus, a => negValue a
  | .unaryPlus, a => a
  | .bitNot, a => .int (~~~ N.asI64 a)

def signum (v : Int64) : Int64 := if 0 < v then 1 else if v < 0 then -1 else 0

def applyFunction : FormulaFunction → Value N.Float → Value N.Float
  | .negFn, a => negValue a
  | .sgn, .int v => .int (signum v)
  | .sgn, .float v =>
      match N.partialCmp v (N.ofInt 0) with
      | some .gt => .int 1
      | some .lt => .int (-1)
      | _ => .int 0
  | .abs, .int v => .int v.abs
  | .abs, .float v => .float (N.abs v)
  | .float f, a => .float (N.call f (N.asF64 a))

def pop {V : Type} : List V → Except String (V × List V)
  | v :: stack => .ok (v, stack)
  | [] => .error "expression stack underflow"

def Op.eval (names : List String) (vars : List (Value N.Float)) (op : Op N) (stack : List (Value N.Float)) :
    Except String (List (Value N.Float)) :=
  match op with
  | .constI v => .ok (.int v :: stack)
  | .constF v => .ok (.float v :: stack)
  | .var index =>
      match vars[index]? with
      | some v => .ok (v :: stack)
      | none => .error ("variable '" ++ names.getD index "" ++ "' unbound")
  -- Its `?` does the work.
  | .ternaryColon => .ok stack
  | .ternary => do
      let (c, stack) ← pop stack
      let (b, stack) ← pop stack
      let (a, stack) ← pop stack
      .ok ((if N.truthy a then b else c) :: stack)
  | .binary op => do
      let (b, stack) ← pop stack
      let (a, stack) ← pop stack
      let value ← applyBinary op a b
      .ok (value :: stack)
  | .unary op => do
      let (a, stack) ← pop stack
      .ok (applyUnary op a :: stack)
  | .function f => do
      let (a, stack) ← pop stack
      .ok (applyFunction f a :: stack)

/-- The value stack after the operators, the last value first. -/
def evalOps (names : List String) (vars : List (Value N.Float)) :
    List (Op N) → List (Value N.Float) → Except String (List (Value N.Float))
  | [], stack => .ok stack
  | op :: rpn, stack => do evalOps names vars rpn (← op.eval names vars stack)

/-- Evaluate with `vars` matching the variables by index. -/
def Expr.eval (expr : Expr N) (vars : List (Value N.Float)) : Except String (Value N.Float) := do
  let stack ← evalOps expr.variableNames vars expr.rpn []
  if stack.length ≠ 1 then .error "malformed expression" else return (← pop stack).1

end Telegenic.Genicam
