import Telegenic.Genicam.Formulas

/-! The integer literals of a description. The XML reader and the formula
parser read them each in their own way. -/

set_option autoImplicit false

namespace Telegenic.Genicam

open Library

variable {N : Numbers}

/-! ## The XML reader -/

/-- `u64::from_str_radix` with radix 16, which takes a plus sign. -/
def readHexU64 (text : List Char) : Option Nat :=
  let digits := match text with
    | '+' :: digits => digits
    | digits => digits
  if digits.isEmpty || !digits.all isHexDigit then none
  else if digitsValue 16 digits < 2 ^ 64 then some (digitsValue 16 digits)
  else none

/-- `i64::from_str`. -/
def readI64 (text : List Char) : Option Int64 :=
  let (negative, digits) := splitSign text
  if digits.isEmpty || !digits.all Char.isDigit then none
  else if negative then
    if digitsValue 10 digits ≤ 2 ^ 63 then some (-Int64.ofNat (digitsValue 10 digits)) else none
  else if digitsValue 10 digits < 2 ^ 63 then some (Int64.ofNat (digitsValue 10 digits))
  else none

/-- What follows `0x`. -/
def stripHexPrefix : List Char → Option (List Char)
  | '0' :: 'x' :: hex => some hex
  | '0' :: 'X' :: hex => some hex
  | _ => none

/-- GenICam integers: decimal or `0x` hex (signed decimal allowed). -/
def parseI64 (text : List Char) : Option Int64 :=
  match stripHexPrefix text with
  | some hex => (readHexU64 hex).map Int64.ofNat
  | none => readI64 text

/-! ## The formula parser -/

/-- The formula parser reads hex as a positive number without a sign, and a
negative number as the negation of a positive one. -/
def SameInFormula (text : List Char) (v : Int64) : Prop :=
  match stripHexPrefix text with
  | some hex => hex.head? ≠ some '+' ∧ 0 ≤ v
  | none => v ≠ Int64.minValue

instance (text : List Char) (v : Int64) : Decidable (SameInFormula text v) := by
  unfold SameInFormula
  cases stripHexPrefix text <;> infer_instance

theorem eq_of_stripHexPrefix {text hex : List Char} (stripped : stripHexPrefix text = some hex) :
    ∃ x, text = '0' :: x :: hex ∧ (x = 'x' ∨ x = 'X') := by
  unfold stripHexPrefix at stripped
  split at stripped
  · cases stripped
    exact ⟨'x', rfl, .inl rfl⟩
  · cases stripped
    exact ⟨'X', rfl, .inr rfl⟩
  · cases stripped

theorem parseFrom_error {c : Char} {rest : List Char} {reader : Reader N} {e : String} (solid : isBlank c = false)
    (failed : nextToken (N := N) c rest = .error e) : parseFrom reader (c :: rest) = .error e := by
  rw [parseFrom, solid, if_neg Bool.false_ne_true]
  split
  · rename_i error again
    rw [failed] at again
    cases again
    rfl
  · rename_i again
    rw [failed] at again
    cases again

theorem readInt_large {radix : Nat} {digits : List Char} (some : digits ≠ []) (large : 2 ^ 63 ≤ digitsValue radix digits) :
    readInt radix digits = .error "number too large to fit in target type" := by
  rw [readInt, List.isEmpty_eq_false_iff.mpr some, if_neg Bool.false_ne_true, if_neg (Nat.not_lt.mpr large)]

theorem Expr.parse_hex_error {x : Char} {hex : List Char} {e : String} (letter : x = 'x' ∨ x = 'X') (some : hex ≠ [])
    (failed : readInt 16 (hex.takeWhile isHexDigit) = .error e) :
    Expr.parse (N := N) ('0' :: x :: hex) = .error ("bad hex literal: " ++ e) := by
  obtain ⟨d, digits, rfl⟩ := List.exists_cons_of_ne_nil some
  have token : nextToken (N := N) '0' (x :: d :: digits) = .error ("bad hex literal: " ++ e) := by
    rw [nextToken_digit rfl]
    rcases letter with rfl | rfl <;> simp only [parseNumber, parseHex, failed]
  rw [Expr.parse, parseFrom_error rfl token]
  rfl

theorem readHexU64_plain {hex : List Char} {value : Nat} (plain : hex.head? ≠ some '+')
    (read : readHexU64 hex = some value) :
    hex ≠ [] ∧ (∀ c ∈ hex, isHexDigit c = true) ∧ value = digitsValue 16 hex ∧ value < 2 ^ 64 := by
  unfold readHexU64 at read
  simp only at read
  split at read
  · exact absurd rfl plain
  split at read
  · cases read
  rename_i digits
  split at read
  · rename_i small
    cases read
    simp only [Bool.or_eq_true, Bool.not_eq_true', not_or, List.isEmpty_iff, Bool.not_eq_false, List.all_eq_true] at digits
    exact ⟨digits.1, digits.2, rfl, small⟩
  · cases read

theorem zero_le_ofNat {value : Nat} (small : value < 2 ^ 64) : 0 ≤ Int64.ofNat value ↔ value < 2 ^ 63 := by
  rw [Int64.le_iff_toInt_le, Int64.toInt_ofNat']
  simp only [Int64.toInt_zero, Int.bmod_def, Int64.size]
  omega

theorem Renders.evaluates {t : Tree N} {outermost : Option (Op N)} {text : List Char} (renders : Renders t outermost text)
    (constant : t.names = []) :
    ∃ expr : Expr N, Expr.parse text = .ok expr ∧ expr.eval [] = t.value (assignment [] []) := by
  have few : t.names.toFinset.card ≤ 65536 := by simp [constant]
  refine ⟨_, renders.parse few, ?_⟩
  rw [t.eval_postOrder, constant]
  rfl

theorem hex_same {x : Char} {hex : List Char} {v : Int64} (letter : x = 'x' ∨ x = 'X')
    (accepted : (readHexU64 hex).map Int64.ofNat = some v) :
    (∃ expr : Expr N, Expr.parse ('0' :: x :: hex) = .ok expr ∧ expr.eval [] = .ok (.int v)) ↔
      hex.head? ≠ some '+' ∧ 0 ≤ v := by
  obtain ⟨value, read, rfl⟩ := Option.map_eq_some_iff.mp accepted
  constructor
  · rintro ⟨expr, parsed, _⟩
    have plain : hex.head? ≠ some '+' := by
      intro plus
      obtain ⟨digits, rfl⟩ := List.head?_eq_some_iff.mp plus
      rw [Expr.parse_hex_error letter (List.cons_ne_nil _ _) rfl] at parsed
      cases parsed
    obtain ⟨some, all, rfl, small⟩ := readHexU64_plain plain read
    refine ⟨plain, (zero_le_ofNat small).mpr (Nat.lt_of_not_le fun large => ?_)⟩
    have whole : (hex ++ []).takeWhile isHexDigit = hex := takeWhile_stop all nofun
    rw [List.append_nil] at whole
    rw [Expr.parse_hex_error letter some (whole.symm ▸ readInt_large some large)] at parsed
    cases parsed
  · rintro ⟨plain, positive⟩
    obtain ⟨some, all, rfl, small⟩ := readHexU64_plain plain read
    have spelled := IntText.hex letter some all ((zero_le_ofNat small).mp positive)
    exact (Renders.int (N := N) spelled).evaluates rfl

theorem readI64_cases {text : List Char} {v : Int64} (read : readI64 text = some v) :
    ∃ digits, digits ≠ [] ∧ AllDigits digits ∧
      (text = '-' :: digits ∧ digitsValue 10 digits ≤ 2 ^ 63 ∧ v = -Int64.ofNat (digitsValue 10 digits) ∨
        (text = '+' :: digits ∨ text = digits) ∧ digitsValue 10 digits < 2 ^ 63 ∧
          v = Int64.ofNat (digitsValue 10 digits)) := by
  have shape : ∃ negative digits, splitSign text = (negative, digits) ∧
      (negative = true ∧ text = '-' :: digits ∨ negative = false ∧ (text = '+' :: digits ∨ text = digits)) := by
    unfold splitSign
    split
    · exact ⟨true, _, rfl, .inl ⟨rfl, rfl⟩⟩
    · exact ⟨false, _, rfl, .inr ⟨rfl, .inl rfl⟩⟩
    · exact ⟨false, _, rfl, .inr ⟨rfl, .inr rfl⟩⟩
  obtain ⟨negative, digits, split, shape⟩ := shape
  simp only [readI64, split] at read
  split at read
  · cases read
  rename_i solid
  simp only [Bool.or_eq_true, Bool.not_eq_true', not_or, List.isEmpty_iff, Bool.not_eq_false, List.all_eq_true] at solid
  refine ⟨digits, solid.1, solid.2, ?_⟩
  rcases shape with ⟨rfl, isText⟩ | ⟨rfl, isText⟩
  · rw [if_pos rfl] at read
    split at read
    · rename_i small
      cases read
      exact .inl ⟨isText, small, rfl⟩
    · cases read
  · rw [if_neg Bool.false_ne_true] at read
    split at read
    · rename_i small
      cases read
      exact .inr ⟨isText, small, rfl⟩
    · cases read

theorem neg_ofNat_ne_minValue {value : Nat} (small : value < 2 ^ 63) : -Int64.ofNat value ≠ Int64.minValue := by
  intro same
  have toInt := congrArg Int64.toInt same
  rw [Int64.toInt_neg, Int64.toInt_ofNat_of_lt small] at toInt
  simp only [Int.bmod_def] at toInt
  have := Int64.toInt_minValue
  omega

theorem Expr.parse_minValue_error {digits : List Char} (some : digits ≠ []) (all : AllDigits digits)
    (large : 2 ^ 63 ≤ digitsValue 10 digits) :
    Expr.parse (N := N) ('-' :: digits) = .error ("bad int literal: " ++ "number too large to fit in target type") := by
  have minus := (UnaryOp.spells (N := N) .unaryMinus digits).parse
    (show (Reader.start (N := N)).step .minus = .ok (Reader.start.operator (.unary .unaryMinus)) from rfl)
  obtain ⟨c, tail, rfl⟩ := List.exists_cons_of_ne_nil some
  have digit := all c List.mem_cons_self
  have token : nextToken (N := N) c tail =
      .error ("bad int literal: " ++ "number too large to fit in target type") := by
    have decimal : nextToken (N := N) c (tail ++ []) = _ := nextToken_decimal all nofun
    rw [List.append_nil] at decimal
    have scanned := scanNumber_digits all []
    rw [List.append_nil] at scanned
    rw [decimal]
    simp only [parseDecimal, scanned, scanNumber, List.append_nil, readInt_large some large]
    rfl
  rw [Expr.parse]
  rw [List.singleton_append] at minus
  rw [show ('-' : Char) = UnaryOp.unaryMinus.symbol from rfl, minus,
    parseFrom_error (isBlank_of_isWordChar (isWordChar_of_isDigit digit)) token]
  rfl

theorem decimal_same {text : List Char} {v : Int64} (read : readI64 text = some v) :
    (∃ expr : Expr N, Expr.parse text = .ok expr ∧ expr.eval [] = .ok (.int v)) ↔ v ≠ Int64.minValue := by
  obtain ⟨digits, some, all, shape⟩ := readI64_cases read
  rcases shape with ⟨rfl, small, rfl⟩ | ⟨isText, small, rfl⟩
  · by_cases fits : digitsValue 10 digits < 2 ^ 63
    · refine iff_of_true ?_ (neg_ofNat_ne_minValue fits)
      have inner := Renders.int (N := N) (.decimal some all fits)
      have negated : Renders (.unary .unaryMinus _) _ ('-' :: digits) := .unary inner nofun
      exact negated.evaluates rfl
    · have least : digitsValue 10 digits = 2 ^ 63 := by omega
      refine iff_of_false ?_ ?_
      · rintro ⟨expr, parsed, _⟩
        rw [Expr.parse_minValue_error some all least.ge] at parsed
        cases parsed
      · rw [least]
        exact not_not.mpr (by decide)
  · have inner := Renders.int (N := N) (.decimal some all small)
    have positive : Int64.ofNat (digitsValue 10 digits) ≠ Int64.minValue := by
      intro same
      have below := (zero_le_ofNat (by omega)).mpr small
      rw [same] at below
      exact absurd below (by decide)
    refine iff_of_true ?_ positive
    rcases isText with rfl | rfl
    · have signed : Renders (.unary .unaryPlus _) _ ('+' :: digits) := .unary inner nofun
      exact signed.evaluates rfl
    · exact inner.evaluates rfl

/-- A literal that the XML reader accepts means the same in a formula exactly
when it is not the least integer in decimal, not negative in hex, and has no
sign after `0x`. -/
theorem literal_in_formula (text : List Char) (v : Int64) (accepted : parseI64 text = some v) :
    (∃ expr : Expr N, Expr.parse text = .ok expr ∧ expr.eval [] = .ok (.int v)) ↔ SameInFormula text v := by
  unfold parseI64 at accepted
  unfold SameInFormula
  cases stripped : stripHexPrefix text with
  | none =>
      rw [stripped] at accepted
      exact decimal_same accepted
  | some hex =>
      rw [stripped] at accepted
      obtain ⟨x, rfl, letter⟩ := eq_of_stripHexPrefix stripped
      exact hex_same letter accepted

/-- `-42` -/
theorem literal_in_formula_negative :
    parseI64 ['-', '4', '2'] = some (-42) ∧
      ∃ expr : Expr plainNumbers, Expr.parse ['-', '4', '2'] = .ok expr ∧ expr.eval [] = .ok (.int (-42)) :=
  ⟨by decide, (literal_in_formula ['-', '4', '2'] (-42) (by decide)).mpr (by decide)⟩

/-- `0x8000000000000000`, `-9223372036854775808` and `0x+1` are accepted in a
description, and no formula. -/
theorem literals_only_in_xml :
    ["0x8000000000000000", "-9223372036854775808", "0x+1"].map (fun text => parseI64 text.toList) =
        [some (-9223372036854775808), some (-9223372036854775808), some 1] ∧
      ["0x8000000000000000", "-9223372036854775808", "0x+1"].map
          (fun text => (Expr.parse (N := plainNumbers) text.toList).isOk) = [false, false, false] := by
  decide +kernel

end Telegenic.Genicam
