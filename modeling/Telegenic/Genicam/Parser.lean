import Telegenic.Genicam.Evaluator

/-! Compiling a formula: `Expr::parse` reads a token at a time and orders it with
the operator stack. -/

set_option autoImplicit false

namespace Telegenic.Genicam

open Library

variable {N : Numbers}

inductive Token (N : Numbers) where
  | int (v : Int64)
  | float (v : N.Float)
  | name (name : String)
  | function (f : FormulaFunction)
  | left
  | right
  | question
  | colon
  /-- A sign; what stands before it says whether it is unary. -/
  | plus
  | minus
  | bitNot
  | binary (op : BinaryOp)

/-! ## Tokens -/

/-- `u8::is_ascii_whitespace`. -/
def isBlank (c : Char) : Bool := c == ' ' || c == '\t' || c == '\n' || c == '\x0c' || c == '\r'

def isHexDigit (c : Char) : Bool := c.isDigit || 'a' ≤ c && c ≤ 'f' || 'A' ≤ c && c ≤ 'F'

def digitValue (c : Char) : Nat :=
  if c.isDigit then c.toNat - '0'.toNat
  else if 'a' ≤ c then c.toNat - 'a'.toNat + 10
  else c.toNat - 'A'.toNat + 10

def digitsValue (radix : Nat) (digits : List Char) : Nat :=
  digits.foldl (fun value c => radix * value + digitValue c) 0

/-- `i64::from_str_radix` on digits. -/
def readInt (radix : Nat) (digits : List Char) : Except String Int64 :=
  if digits.isEmpty then .error "cannot parse integer from empty string"
  else if digitsValue radix digits < 2 ^ 63 then .ok (Int64.ofNat (digitsValue radix digits))
  else .error "number too large to fit in target type"

def splitSign : List Char → Bool × List Char
  | '-' :: digits => (true, digits)
  | '+' :: digits => (false, digits)
  | digits => (false, digits)

/-- The power of ten after the mantissa of a float. -/
def readExponent : List Char → Option Int
  | [] => some 0
  | e :: text =>
      if e != 'e' && e != 'E' then none
      else
        let (negative, digits) := splitSign text
        if digits.isEmpty || !digits.all Char.isDigit then none
        else
          let value := Int.ofNat (digitsValue 10 digits)
          some (if negative then -value else value)

/-- The digits after a point, and what follows. -/
def splitFraction : List Char → List Char × List Char
  | '.' :: rest => (rest.takeWhile Char.isDigit, rest.dropWhile Char.isDigit)
  | rest => ([], rest)

/-- `f64::from_str` on digits, points and exponents. -/
def readFloat (text : List Char) : Except String N.Float :=
  let whole := text.takeWhile Char.isDigit
  let (fraction, rest) := splitFraction (text.dropWhile Char.isDigit)
  match readExponent rest with
  | some exponent =>
      if whole.isEmpty && fraction.isEmpty then .error "invalid float literal"
      else .ok (N.ofDecimal (digitsValue 10 (whole ++ fraction)) (exponent - fraction.length))
  | none => .error "invalid float literal"

/-- The text of a number, whether it is a float, and what follows. -/
def scanNumber : List Char → List Char × Bool × List Char
  | [] => ([], false, [])
  | c :: rest =>
      if c.isDigit then
        let (text, isFloat, rest) := scanNumber rest
        (c :: text, isFloat, rest)
      else if c == '.' then
        let (text, _, rest) := scanNumber rest
        (c :: text, true, rest)
      else
        match rest with
        | d :: tail =>
            if (c == 'e' || c == 'E') && (d.isDigit || d == '-' || d == '+') then
              let (text, _, rest) := scanNumber tail
              (c :: d :: text, true, rest)
            else ([], false, c :: d :: tail)
        | [] => ([], false, [c])

def parseDecimal (src : List Char) : Except String (Token N × List Char) :=
  let (text, isFloat, rest) := scanNumber src
  if isFloat then
    match readFloat text with
    | .ok value => .ok (.float value, rest)
    | .error e => .error ("bad float literal: " ++ e)
  else
    match readInt 10 text with
    | .ok value => .ok (.int value, rest)
    | .error e => .error ("bad int literal: " ++ e)

def parseHex (digits : List Char) : Except String (Token N × List Char) :=
  match readInt 16 (digits.takeWhile isHexDigit) with
  | .ok value => .ok (.int value, digits.dropWhile isHexDigit)
  | .error e => .error ("bad hex literal: " ++ e)

def parseNumber : List Char → Except String (Token N × List Char)
  | '0' :: 'x' :: d :: digits => parseHex (d :: digits)
  | '0' :: 'X' :: d :: digits => parseHex (d :: digits)
  | src => parseDecimal src

def functions : List (String × FormulaFunction) :=
  [("SIN", .float .sin), ("COS", .float .cos), ("SGN", .sgn), ("NEG", .negFn), ("ATAN", .float .atan),
    ("TAN", .float .tan), ("ABS", .abs), ("EXP", .float .exp), ("LN", .float .ln), ("LG", .float .lg),
    ("SQRT", .float .sqrt), ("TRUNC", .float .trunc), ("ROUND", .float .round), ("FLOOR", .float .floor),
    ("CEIL", .float .ceil), ("ASIN", .float .asin), ("ACOS", .float .acos)]

def functionNamed (word : List Char) : Option FormulaFunction :=
  functions.lookup (String.ofList (word.map Char.toUpper))

def isWordChar (c : Char) : Bool := c.isAlphanum || c == '_' || c == '.'

def wordToken (word : List Char) : Token N :=
  match functionNamed word with
  | some f => .function f
  | none =>
      if String.ofList word = "PI" then .float N.pi
      else if String.ofList word = "E" then .float N.e
      else .name (String.ofList word)

/-- `bytes[i] as char`: of a character that takes several bytes, the first. -/
def firstByte (c : Char) : Char := Char.ofNat ((String.utf8EncodeChar c).headD 0).toNat

def symbolToken : Char → List Char → Except String (Token N × List Char)
  | '(', rest => .ok (.left, rest)
  | ')', rest => .ok (.right, rest)
  | '|', '|' :: rest => .ok (.binary .or, rest)
  | '&', '&' :: rest => .ok (.binary .and, rest)
  | '<', '>' :: rest => .ok (.binary .ne, rest)
  | '<', '=' :: rest => .ok (.binary .le, rest)
  | '>', '=' :: rest => .ok (.binary .ge, rest)
  | '<', '<' :: rest => .ok (.binary .shl, rest)
  | '>', '>' :: rest => .ok (.binary .shr, rest)
  | '*', '*' :: rest => .ok (.binary .pow, rest)
  | '?', rest => .ok (.question, rest)
  | ':', rest => .ok (.colon, rest)
  | '|', rest => .ok (.binary .bitOr, rest)
  | '^', rest => .ok (.binary .bitXor, rest)
  | '&', rest => .ok (.binary .bitAnd, rest)
  | '=', rest => .ok (.binary .eq, rest)
  | '<', rest => .ok (.binary .lt, rest)
  | '>', rest => .ok (.binary .gt, rest)
  | '+', rest => .ok (.plus, rest)
  | '-', rest => .ok (.minus, rest)
  | '%', rest => .ok (.binary .rem, rest)
  | '/', rest => .ok (.binary .div, rest)
  | '*', rest => .ok (.binary .mul, rest)
  | '~', rest => .ok (.bitNot, rest)
  | other, _ => .error ("unexpected character '" ++ String.singleton (firstByte other) ++ "'")

/-- The token at a character that is not blank, and what follows it. -/
def nextToken (c : Char) (rest : List Char) : Except String (Token N × List Char) :=
  if c.isDigit || c == '.' && rest.head?.any Char.isDigit then parseNumber (c :: rest)
  else if c.isAlpha || c == '_' then
    .ok (wordToken (c :: rest.takeWhile isWordChar), rest.dropWhile isWordChar)
  else symbolToken c rest

theorem scanNumber_digit {c : Char} (digit : c.isDigit = true) (rest : List Char) :
    scanNumber (c :: rest) = (c :: (scanNumber rest).1, (scanNumber rest).2.1, (scanNumber rest).2.2) := by
  rw [scanNumber.eq_def]
  simp only [digit, if_true]

theorem scanNumber_point (rest : List Char) :
    scanNumber ('.' :: rest) = ('.' :: (scanNumber rest).1, true, (scanNumber rest).2.2) := by
  rw [scanNumber.eq_def]
  rfl

theorem scanNumber_length (src : List Char) : (scanNumber src).2.2.length ≤ src.length := by
  fun_induction scanNumber src <;> simp_all <;> omega

theorem parseDecimal_length {c : Char} {rest after : List Char} {token : Token N}
    (starts : c.isDigit = true ∨ c = '.') (parsed : parseDecimal (c :: rest) = .ok (token, after)) :
    after.length ≤ rest.length := by
  have scanned : (scanNumber (c :: rest)).2.2 = (scanNumber rest).2.2 := by
    rcases starts with digit | rfl
    · rw [scanNumber_digit digit]
    · rw [scanNumber_point]
  have ends : after = (scanNumber (c :: rest)).2.2 := by
    simp only [parseDecimal] at parsed
    split at parsed <;> split at parsed <;> cases parsed <;> rfl
  rw [ends, scanned]
  exact scanNumber_length rest

theorem parseHex_length {digits after : List Char} {token : Token N} (parsed : parseHex digits = .ok (token, after)) :
    after.length ≤ digits.length := by
  rw [parseHex] at parsed
  split at parsed <;> cases parsed
  exact (List.dropWhile_suffix _).length_le

theorem parseNumber_length {c : Char} {rest after : List Char} {token : Token N}
    (starts : c.isDigit = true ∨ c = '.') (parsed : parseNumber (c :: rest) = .ok (token, after)) :
    after.length ≤ rest.length := by
  unfold parseNumber at parsed
  split at parsed
  case h_1 | h_2 =>
    have := parseHex_length parsed
    simp_all
    omega
  case h_3 => exact parseDecimal_length starts parsed

theorem symbolToken_length {c : Char} {rest after : List Char} {token : Token N}
    (parsed : symbolToken c rest = .ok (token, after)) : after.length ≤ rest.length := by
  unfold symbolToken at parsed
  split at parsed <;> cases parsed <;> simp

theorem nextToken_length {c : Char} {rest after : List Char} {token : Token N}
    (parsed : nextToken c rest = .ok (token, after)) : after.length ≤ rest.length := by
  unfold nextToken at parsed
  split at parsed
  case isTrue number =>
    refine parseNumber_length ?_ parsed
    simp only [Bool.or_eq_true, Bool.and_eq_true, beq_iff_eq] at number
    exact number.imp_right And.left
  case isFalse =>
    split at parsed
    · cases parsed
      exact (List.dropWhile_suffix _).length_le
    · exact symbolToken_length parsed

/-! ## Ordering -/

/-- Where the parser is: the names met, the operators that wait and the output,
and whether the last token ended an operand. -/
structure Reader (N : Numbers) where
  names : List String
  yard : Yard (Op N)
  prevWasOperand : Bool

def Reader.start : Reader N := ⟨[], ⟨[], []⟩, false⟩

def Reader.operand (op : Op N) (reader : Reader N) : Reader N :=
  { reader with yard := ⟨reader.yard.stack, reader.yard.output ++ [op]⟩, prevWasOperand := true }

def Reader.pushOperator (op : Op N) (reader : Reader N) : Reader N :=
  { reader with yard := Yard.push Op.binding op reader.yard.stack reader.yard.output }

def Reader.operator (op : Op N) (reader : Reader N) : Reader N :=
  { reader.pushOperator op with prevWasOperand := false }

/-- A new name goes to the end of the table. -/
def noteName (names : List String) (name : String) : List String :=
  if name ∈ names then names else names ++ [name]

def unbalanced : String := "unbalanced parenthesis"

def Reader.step (reader : Reader N) : Token N → Except String (Reader N)
  | .int v => .ok (reader.operand (.constI v))
  | .float v => .ok (reader.operand (.constF v))
  | .name name =>
      let names := noteName reader.names name
      .ok { reader.operand (.var (names.idxOf name % 2 ^ 16)) with names }
  -- A function leaves `prev_was_operand` as it was.
  | .function f => .ok (reader.pushOperator (.function f))
  | .left => .ok { reader with yard := ⟨none :: reader.yard.stack, reader.yard.output⟩, prevWasOperand := false }
  | .right =>
      match Yard.close reader.yard.stack reader.yard.output with
      | some yard => .ok { reader with yard, prevWasOperand := true }
      | none => .error unbalanced
  | .question => .ok (reader.operator .ternary)
  | .colon => .ok (reader.operator .ternaryColon)
  | .plus => .ok (reader.operator (if reader.prevWasOperand then .binary .add else .unary .unaryPlus))
  | .minus => .ok (reader.operator (if reader.prevWasOperand then .binary .sub else .unary .unaryMinus))
  | .bitNot => .ok (reader.operator (.unary .bitNot))
  | .binary op => .ok (reader.operator (.binary op))

def parseFrom (reader : Reader N) : List Char → Except String (Reader N)
  | [] => .ok reader
  | c :: rest =>
      if isBlank c then parseFrom reader rest
      else
        match _parsed : nextToken c rest with
        | .error e => .error e
        | .ok (token, after) =>
            match reader.step token with
            | .error e => .error e
            | .ok reader => parseFrom reader after
termination_by src => src.length
decreasing_by
  · exact Nat.lt_succ_self _
  · exact Nat.lt_succ_of_le (nextToken_length _parsed)

/-- Compile a formula. Identifiers that are neither functions nor the constants
`E` and `PI` become variables. -/
def Expr.parse (src : List Char) : Except String (Expr N) := do
  let reader ← parseFrom Reader.start src
  match Yard.finish reader.yard.stack reader.yard.output with
  | some rpn => .ok ⟨rpn, reader.names⟩
  | none => .error unbalanced

end Telegenic.Genicam
