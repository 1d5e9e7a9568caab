import Telegenic.Genicam.Parser

/-! Formulas over exact rational numbers, and the platform of a graph whose
formulas are evaluated this way. -/

set_option autoImplicit false

namespace Telegenic.Genicam

def roundHalfAway (q : Rat) : Int := if 0 ≤ q then (q + 1 / 2).floor else -(-q + 1 / 2).floor

def saturate (v : Int) : Int64 :=
  if v < -2 ^ 63 then Int64.minValue else if 2 ^ 63 ≤ v then Int64.maxValue else Int64.ofInt v

/-- Exact numbers; the constants, powers and functions may be anything. -/
abbrev rationals (pi e : Rat) (powf : Rat → Rat → Rat) (call : FloatFunction → Rat → Rat) : Numbers where
  Float := Rat
  ofInt v := v.toInt
  round q := saturate (roundHalfAway q)
  ofDecimal mantissa power := mantissa * 10 ^ power
  pi
  e
  neg q := -q
  abs q := |q|
  add := (· + ·)
  sub := (· - ·)
  mul := (· * ·)
  div := (· / ·)
  powf
  partialCmp p q := some (compare p q)
  call

abbrev plainNumbers : Numbers := rationals 3 2 (fun q _ => q) fun _ q => q

instance : DecidableEq plainNumbers.Float := inferInstanceAs (DecidableEq Rat)

structure FloatStorage (Float : Type) where
  ofSingle : BitVec 32 → Float
  toSingle : Float → BitVec 32
  ofDouble : BitVec 64 → Float
  toDouble : Float → BitVec 64
  lowest : Float
  highest : Float

def plainStorage : FloatStorage Rat where
  ofSingle raw := raw.toNat
  toSingle q := BitVec.ofInt 32 q.floor
  ofDouble raw := raw.toNat
  toDouble q := BitVec.ofInt 64 q.floor
  lowest := 0
  highest := 2 ^ 64

/-- The platform whose formulas the evaluator compiles and evaluates. -/
abbrev Numbers.platform (N : Numbers) (storage : FloatStorage N.Float) (lossyText : List UInt8 → String) : Platform where
  Float := N.Float
  Expr := Expr N
  ofInt := N.ofInt
  round := N.round
  ofSingle := storage.ofSingle
  toSingle := storage.toSingle
  ofDouble := storage.ofDouble
  toDouble := storage.toDouble
  lowest := storage.lowest
  highest := storage.highest
  lossyText := lossyText
  parse formula := Expr.parse formula.toList
  vars := Expr.variableNames
  eval := Expr.eval

end Telegenic.Genicam
