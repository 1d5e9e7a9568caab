import Telegenic.Genicam.Rationals

/-! Which token sequences are given a value. The parser itself checks only the
parentheses, and evaluation only that one value is left. -/

set_option autoImplicit false

namespace Telegenic.Genicam

open Library

variable {N : Numbers}

def lex : List Char → Except String (List (Token N))
  | [] => .ok []
  | c :: rest =>
      if isBlank c then lex rest
      else
        match _parsed : nextToken c rest with
        | .error e => .error e
        | .ok (token, after) => (lex after).map (token :: ·)
termination_by src => src.length
decreasing_by
  · exact Nat.lt_succ_self _
  · exact Nat.lt_succ_of_le (nextToken_length _parsed)

def Token.isOperand : Token N → Bool
  | .int _ | .float _ | .name _ => true
  | _ => false

def Token.isPrefixOp : Token N → Bool
  | .plus | .minus | .bitNot => true
  | _ => false

def Token.isBinary : Token N → Bool
  | .plus | .minus | .binary _ => true
  | _ => false

/-- The infix grammar. -/
inductive Sentence : List (Token N) → Prop where
  | operand {token : Token N} (operand : token.isOperand = true) : Sentence [token]
  | before {token : Token N} {s : List (Token N)} (op : token.isPrefixOp = true) (inner : Sentence s) :
      Sentence (token :: s)
  | between {token : Token N} {l r : List (Token N)} (op : token.isBinary = true) (left : Sentence l)
      (right : Sentence r) : Sentence (l ++ token :: r)
  | call {f : FormulaFunction} {s : List (Token N)} (inner : Sentence s) :
      Sentence (.function f :: .left :: (s ++ [.right]))
  | group {s : List (Token N)} (inner : Sentence s) : Sentence (.left :: (s ++ [.right]))
  | cond {c m l : List (Token N)} (condition : Sentence c) (middle : Sentence m) (last : Sentence l) :
      Sentence (c ++ .question :: (m ++ .colon :: l))

/-! ## Tokens in their places -/

inductive Place where
  | operand
  | operator
  | argument
  deriving DecidableEq, Repr

/-- Where the next token stands, if this one may stand here. `pending` counts,
for each open parenthesis, the `?` that have no `:` yet. -/
def Token.next : Token N → Place → List Nat → Option (Place × List Nat)
  | .int _, .operand, pending | .float _, .operand, pending | .name _, .operand, pending => some (.operator, pending)
  | .plus, .operand, pending | .minus, .operand, pending | .bitNot, .operand, pending => some (.operand, pending)
  | .function _, .operand, pending => some (.argument, pending)
  | .left, .operand, pending | .left, .argument, pending => some (.operand, 0 :: pending)
  | .plus, .operator, pending | .minus, .operator, pending | .binary _, .operator, pending => some (.operand, pending)
  | .question, .operator, q :: pending => some (.operand, (q + 1) :: pending)
  | .colon, .operator, (q + 1) :: pending => some (.operand, q :: pending)
  | .right, .operator, _ :: pending => some (.operator, pending)
  | _, _, _ => none

/-- Operands and operators alternate, a function's name is followed by a
parenthesis, and each `:` has a `?` before it in the same parentheses. -/
def placed : List (Token N) → Place → List Nat → Bool
  | [], place, _ => place = .operator
  | token :: tokens, place, pending =>
      match token.next place pending with
      | some (place, pending) => placed tokens place pending
      | none => false

/-! ## Counting values -/

def Op.weight : Op N → Int
  | .constI _ | .constF _ | .var _ => 1
  | .ternaryColon | .unary _ | .function _ => 0
  | .binary _ => -1
  | .ternary => -2

theorem Op.eval_length {names : List String} {vars : List (Value N.Float)} {op : Op N}
    {stack after : List (Value N.Float)} (evaluated : op.eval names vars stack = .ok after) :
    (after.length : Int) = stack.length + op.weight := by
  cases op with
  | constI | constF | ternaryColon =>
    cases evaluated
    simp [Op.weight]
  | var index =>
    simp only [Op.eval] at evaluated
    split at evaluated <;> cases evaluated
    simp [Op.weight]
  | ternary =>
    match stack with
    | [] | [_] | [_, _] => nomatch evaluated
    | c :: b :: a :: stack =>
      cases evaluated
      simp only [List.length_cons, Op.weight]
      omega
  | binary op =>
    match stack with
    | [] | [_] => nomatch evaluated
    | b :: a :: stack =>
      simp only [Op.eval, pop, bind, Except.bind] at evaluated
      split at evaluated <;> cases evaluated
      simp only [List.length_cons, Op.weight]
      omega
  | unary | function =>
    match stack with
    | [] => nomatch evaluated
    | a :: stack =>
      cases evaluated
      simp [Op.weight]

theorem evalOps_length {names : List String} {vars : List (Value N.Float)} {rpn : List (Op N)} :
    ∀ {stack after : List (Value N.Float)}, evalOps names vars rpn stack = .ok after →
      (after.length : Int) = stack.length + (rpn.map Op.weight).sum := by
  induction rpn with
  | nil =>
    intro stack after evaluated
    cases evaluated
    simp
  | cons op rpn ih =>
    intro stack after evaluated
    simp only [evalOps, bind, Except.bind] at evaluated
    split at evaluated
    · nomatch evaluated
    · rename_i first
      have := Op.eval_length first
      have := ih evaluated
      simp only [List.map_cons, List.sum_cons]
      omega

theorem eval_weight {expr : Expr N} {vars : List (Value N.Float)} {value : Value N.Float}
    (evaluated : expr.eval vars = .ok value) : (expr.rpn.map Op.weight).sum = 1 := by
  simp only [Expr.eval, bind, Except.bind] at evaluated
  split at evaluated
  · nomatch evaluated
  · rename_i stack ran
    split at evaluated
    · nomatch evaluated
    · rename_i single
      have := evalOps_length ran
      rw [List.length_nil] at this
      omega

/-! ## What reading a token does to the counts -/

def Token.weight : Token N → Bool → Int
  | .int _, _ | .float _, _ | .name _, _ => 1
  | .question, _ => -2
  | .binary _, _ => -1
  | .plus, prev | .minus, prev => if prev then -1 else 0
  | .function _, _ | .left, _ | .right, _ | .colon, _ | .bitNot, _ => 0

def Token.ends : Token N → Bool → Bool
  | .int _, _ | .float _, _ | .name _, _ | .right, _ => true
  | .function _, prev => prev
  | _, _ => false

def Token.opens : Token N → Nat
  | .left => 1
  | _ => 0

def Token.closes : Token N → Nat
  | .right => 1
  | _ => 0

def Reader.weight (reader : Reader N) : Int := (reader.yard.ops.map Op.weight).sum

theorem Reader.operand_weight (op : Op N) (reader : Reader N) :
    (reader.operand op).weight = reader.weight + op.weight := by
  simp only [Reader.weight, Reader.operand, Yard.ops, List.map_append, List.sum_append, List.map_cons, List.map_nil,
    List.sum_cons, List.sum_nil]
  omega

theorem Reader.pushOperator_weight (op : Op N) (reader : Reader N) :
    (reader.pushOperator op).weight = reader.weight + op.weight := by
  have same := ((Yard.push_ops Op.binding op reader.yard.stack reader.yard.output).map Op.weight).sum_eq
  rw [List.map_cons, List.sum_cons] at same
  exact same.trans (Int.add_comm _ _)

theorem Reader.step_counts {reader next : Reader N} {token : Token N} (stepped : reader.step token = .ok next) :
    next.weight = reader.weight + token.weight reader.prevWasOperand ∧
      next.prevWasOperand = token.ends reader.prevWasOperand ∧
      next.yard.parentheses + token.closes =
        reader.yard.parentheses + token.opens := by
  cases token with
  | int | float | name =>
    cases stepped
    exact ⟨Reader.operand_weight _ _, rfl, rfl⟩
  | function | question | colon | bitNot | binary =>
    cases stepped
    exact ⟨Reader.pushOperator_weight _ _, rfl, Yard.push_parentheses ..⟩
  | plus | minus =>
    cases stepped
    refine ⟨(Reader.pushOperator_weight _ _).trans ?_, rfl, Yard.push_parentheses ..⟩
    rw [Token.weight]
    split <;> rfl
  | left =>
    cases stepped
    refine ⟨?_, rfl, ?_⟩
    · simp [Reader.weight, Yard.ops, Token.weight]
    · simp [Yard.parentheses, Token.opens, Token.closes]
  | right =>
    simp only [Reader.step] at stepped
    split at stepped <;> cases stepped
    rename_i closed
    obtain ⟨ops, parentheses⟩ := Yard.close_holds closed
    refine ⟨?_, rfl, ?_⟩
    · exact (congrArg (fun ops => (ops.map Op.weight).sum) ops).trans (Int.add_zero _).symm
    · exact parentheses

def Reader.steps (reader : Reader N) : List (Token N) → Except String (Reader N)
  | [] => .ok reader
  | token :: tokens => do (← reader.step token).steps tokens

theorem parseFrom_lex {src : List Char} {final : Reader N} :
    ∀ {reader : Reader N}, parseFrom reader src = .ok final → ∃ tokens, lex src = .ok tokens ∧ reader.steps tokens = .ok final := by
  fun_induction lex (N := N) src with
  | case1 =>
    intro reader parsed
    rw [parseFrom] at parsed
    exact ⟨[], rfl, parsed⟩
  | case2 c rest blank ih =>
    intro reader parsed
    rw [parseFrom, if_pos blank] at parsed
    exact ih parsed
  | case3 c rest solid e failed =>
    intro reader parsed
    rw [parseFrom, if_neg solid] at parsed
    split at parsed
    · cases parsed
    · simp_all
  | case4 c rest solid token after next ih =>
    intro reader parsed
    rw [parseFrom, if_neg solid] at parsed
    split at parsed
    · cases parsed
    · rename_i next'
      rw [next] at next'
      cases next'
      split at parsed
      · cases parsed
      · rename_i stepped
        obtain ⟨tokens, lexed, ran⟩ := ih parsed
        refine ⟨token :: tokens, by rw [lexed]; rfl, ?_⟩
        rw [Reader.steps, stepped]
        exact ran

/-! ## From places to sentences -/

/-- What stands before the phrase that is being read: each `?` and parenthesis
still open. -/
inductive Context : List Nat → List (Token N) → Prop where
  | top : Context [0] []
  | question {q : Nat} {pending : List Nat} {ctx c : List (Token N)} (outer : Context (q :: pending) ctx)
      (condition : Sentence c) : Context ((q + 1) :: pending) (ctx ++ (c ++ [.question]))
  | group {pending : List Nat} {ctx lead : List (Token N)} (outer : Context pending ctx)
      (closes : ∀ s, Sentence s → Sentence (lead ++ .left :: (s ++ [.right]))) :
      Context (0 :: pending) (ctx ++ (lead ++ [.left]))

def Opened : Place → List Nat → List (Token N) → Prop
  | .operator, pending, tokens => ∃ ctx s, tokens = ctx ++ s ∧ Context pending ctx ∧ Sentence s
  | .operand, pending, tokens => ∃ ctx lead, tokens = ctx ++ lead ∧ Context pending ctx ∧
      ∀ s, Sentence s → Sentence (lead ++ s)
  | .argument, pending, tokens => ∃ ctx lead, tokens = ctx ++ lead ∧ Context pending ctx ∧
      ∀ s, Sentence s → Sentence (lead ++ .left :: (s ++ [.right]))

def Place.afterOperand (place : Place) : Bool := place = .operator

def Place.values (place : Place) : Int := if place = .operator then 1 else 0

theorem Context.ne_nil {ctx : List (Token N)} : ¬ Context [] ctx := nofun

section Steps

variable {token : Token N} {place place' : Place} {pending pending' : List Nat} {tokens : List (Token N)}

theorem Token.next_counts (stands : token.next place pending = some (place', pending')) :
    token.weight place.afterOperand + (pending'.sum : Int) - place'.values ≤ pending.sum - place.values ∧
      token.ends place.afterOperand = place'.afterOperand ∧
      pending'.length + token.closes = pending.length + token.opens := by
  unfold Token.next at stands
  split at stands <;> cases stands <;>
    (simp [Token.weight, Token.ends, Token.opens, Token.closes, Place.afterOperand, Place.values]; try omega)

theorem Opened.operand (opened : Opened .operand pending tokens) (operand : token.isOperand = true) :
    Opened .operator pending (tokens ++ [token]) := by
  obtain ⟨ctx, lead, rfl, context, completes⟩ := opened
  exact ⟨ctx, lead ++ [token], List.append_assoc .., context, completes _ (.operand operand)⟩

theorem Opened.before (opened : Opened .operand pending tokens) (op : token.isPrefixOp = true) :
    Opened .operand pending (tokens ++ [token]) := by
  obtain ⟨ctx, lead, rfl, context, completes⟩ := opened
  refine ⟨ctx, lead ++ [token], List.append_assoc .., context, fun s sentence => ?_⟩
  rw [List.append_assoc]
  exact completes _ (.before op sentence)

theorem Opened.function (opened : Opened .operand pending tokens) (f : FormulaFunction) :
    Opened .argument pending (tokens ++ [.function f]) := by
  obtain ⟨ctx, lead, rfl, context, completes⟩ := opened
  refine ⟨ctx, lead ++ [.function f], List.append_assoc .., context, fun s sentence => ?_⟩
  rw [List.append_assoc]
  exact completes _ (.call sentence)

theorem Opened.argument (opened : Opened .argument pending tokens) : Opened .operand (0 :: pending) (tokens ++ [.left]) := by
  obtain ⟨ctx, lead, rfl, context, closes⟩ := opened
  exact ⟨ctx ++ (lead ++ [.left]), [], by simp, .group context closes, fun s sentence => sentence⟩

theorem Opened.left (opened : Opened .operand pending tokens) : Opened .operand (0 :: pending) (tokens ++ [.left]) := by
  obtain ⟨ctx, lead, rfl, context, completes⟩ := opened
  exact Opened.argument ⟨ctx, lead, rfl, context, fun s sentence => completes _ (.group sentence)⟩

theorem Opened.between (opened : Opened .operator pending tokens) (op : token.isBinary = true) :
    Opened .operand pending (tokens ++ [token]) := by
  obtain ⟨ctx, left, rfl, context, sentence⟩ := opened
  refine ⟨ctx, left ++ [token], List.append_assoc .., context, fun right last => ?_⟩
  rw [List.append_assoc]
  exact .between op sentence last

theorem Opened.question {q : Nat} (opened : Opened .operator (q :: pending) tokens) :
    Opened .operand ((q + 1) :: pending) (tokens ++ [.question]) := by
  obtain ⟨ctx, condition, rfl, context, sentence⟩ := opened
  exact ⟨ctx ++ (condition ++ [.question]), [], by simp, .question context sentence, fun s sentence => sentence⟩

theorem Opened.colon {q : Nat} (opened : Opened .operator ((q + 1) :: pending) tokens) :
    Opened .operand (q :: pending) (tokens ++ [.colon]) := by
  obtain ⟨_, middle, rfl, context, sentence⟩ := opened
  cases context with
  | @question _ _ ctx c outer condition =>
    refine ⟨ctx, c ++ .question :: (middle ++ [.colon]), by simp, outer, fun s last => ?_⟩
    have whole := Sentence.cond condition sentence last
    simpa using whole

theorem Opened.right (opened : Opened .operator (0 :: pending) tokens) (nested : pending ≠ []) :
    Opened .operator pending (tokens ++ [.right]) := by
  obtain ⟨_, inner, rfl, context, sentence⟩ := opened
  cases context with
  | top => exact absurd rfl nested
  | @group _ ctx lead outer closes =>
    exact ⟨ctx, lead ++ .left :: (inner ++ [.right]), by simp, outer, closes inner sentence⟩

theorem Token.next_opened (stands : token.next place pending = some (place', pending')) (nested : pending' ≠ [])
    (complete : token.weight place.afterOperand + (pending'.sum : Int) - place'.values = pending.sum - place.values)
    (opened : Opened place pending tokens) : Opened place' pending' (tokens ++ [token]) := by
  unfold Token.next at stands
  split at stands <;> cases stands
  case h_1 | h_2 | h_3 => exact opened.operand rfl
  case h_4 | h_5 | h_6 => exact opened.before rfl
  case h_7 f => exact opened.function f
  case h_8 => exact opened.left
  case h_9 => exact opened.argument
  case h_10 | h_11 | h_12 => exact opened.between rfl
  case h_13 => exact opened.question
  case h_14 => exact opened.colon
  case h_15 q =>
    -- Closing over an open `?` would have left too few values.
    obtain rfl : q = 0 := by
      simp only [Token.weight, Place.values, List.sum_cons] at complete
      omega
    exact opened.right nested

theorem placed_sentence {final : Reader N} (closed : final.yard.parentheses = 0) :
    ∀ (rest : List (Token N)) {before : List (Token N)} {place : Place} {pending : List Nat} {reader : Reader N},
      placed rest place pending = true → reader.steps rest = .ok final →
      reader.prevWasOperand = place.afterOperand → reader.yard.parentheses + 1 = pending.length →
      final.weight ≤ 1 + (reader.weight + pending.sum - place.values) ∧
        (reader.weight + pending.sum = place.values → final.weight = 1 → Opened place pending before →
          Sentence (before ++ rest)) := by
  intro rest
  induction rest with
  | nil =>
    intro before place pending reader stands ran prev parentheses
    cases ran
    obtain rfl : place = .operator := of_decide_eq_true stands
    rw [closed] at parentheses
    obtain ⟨q, rfl⟩ := List.length_eq_one_iff.mp parentheses.symm
    refine ⟨?_, fun balanced one opened => ?_⟩
    · simp only [Place.values, List.sum_cons, List.sum_nil]
      omega
    · obtain rfl : q = 0 := by
        simp only [Place.values, List.sum_cons, List.sum_nil] at balanced
        omega
      obtain ⟨ctx, s, rfl, context, sentence⟩ := opened
      cases context with
      | top => rwa [List.append_nil]
      | group outer => exact absurd outer Context.ne_nil
  | cons token rest ih =>
    intro before place pending reader stands ran prev parentheses
    simp only [placed] at stands
    split at stands
    · rename_i place' pending' next
      simp only [Reader.steps, bind, Except.bind] at ran
      split at ran
      · nomatch ran
      · rename_i after stepped
        obtain ⟨weight, prev', parentheses'⟩ := Reader.step_counts stepped
        obtain ⟨fewer, ends, length⟩ := Token.next_counts next
        rw [prev] at weight prev'
        obtain ⟨atMost, completes⟩ := ih stands ran (prev'.trans ends) (by omega)
        refine ⟨by omega, fun balanced one opened => ?_⟩
        have complete : token.weight place.afterOperand + (pending'.sum : Int) - place'.values =
            pending.sum - place.values := by omega
        have nested : pending' ≠ [] := by
          rintro rfl
          simp only [List.length_nil] at length
          omega
        have whole := completes (by omega) one (Token.next_opened next nested complete opened)
        rwa [List.append_assoc] at whole
    · nomatch stands

end Steps

theorem Sentence.ends {tokens : List (Token N)} (sentence : Sentence tokens) :
    ∃ front token, tokens = front ++ [token] ∧ (token.isOperand = true ∨ token = .right) := by
  induction sentence with
  | @operand token operand => exact ⟨[], token, rfl, .inl operand⟩
  | @before token _ _ _ ih =>
    obtain ⟨front, last, rfl, ends⟩ := ih
    exact ⟨token :: front, last, rfl, ends⟩
  | @between token l _ _ _ _ _ ih =>
    obtain ⟨front, last, rfl, ends⟩ := ih
    exact ⟨l ++ token :: front, last, by simp, ends⟩
  | @call f s => exact ⟨.function f :: .left :: s, .right, rfl, .inr rfl⟩
  | @group s => exact ⟨.left :: s, .right, rfl, .inr rfl⟩
  | @cond c m _ _ _ _ _ _ ih =>
    obtain ⟨front, last, rfl, ends⟩ := ih
    exact ⟨c ++ .question :: (m ++ .colon :: front), last, by simp, ends⟩

end Telegenic.Genicam
