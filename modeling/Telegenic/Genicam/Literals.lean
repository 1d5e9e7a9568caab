import Mathlib
import Telegenic.Genicam.Parser

/-! How the words and numbers of a formula are spelled, and that the parser
reads each of them up to its end. -/

set_option autoImplicit false

namespace Telegenic.Genicam

open Library

variable {N : Numbers}

def AllDigits (digits : List Char) : Prop := ∀ c ∈ digits, c.isDigit = true

inductive IntText : Int64 → List Char → Prop where
  | decimal {digits : List Char} (some : digits ≠ []) (all : AllDigits digits)
      (small : digitsValue 10 digits < 2 ^ 63) : IntText (.ofNat (digitsValue 10 digits)) digits
  | hex {x : Char} {digits : List Char} (letter : x = 'x' ∨ x = 'X') (some : digits ≠ [])
      (all : ∀ c ∈ digits, isHexDigit c = true) (small : digitsValue 16 digits < 2 ^ 63) :
      IntText (.ofNat (digitsValue 16 digits)) ('0' :: x :: digits)

inductive ExponentText : Int → List Char → Prop where
  | missing : ExponentText 0 []
  | unsigned {e : Char} {digits : List Char} (letter : e = 'e' ∨ e = 'E') (some : digits ≠ [])
      (all : AllDigits digits) : ExponentText (digitsValue 10 digits) (e :: digits)
  | plus {e : Char} {digits : List Char} (letter : e = 'e' ∨ e = 'E') (some : digits ≠ [])
      (all : AllDigits digits) : ExponentText (digitsValue 10 digits) (e :: '+' :: digits)
  | minus {e : Char} {digits : List Char} (letter : e = 'e' ∨ e = 'E') (some : digits ≠ [])
      (all : AllDigits digits) : ExponentText (-digitsValue 10 digits) (e :: '-' :: digits)

inductive FloatText (N : Numbers) : N.Float → List Char → Prop where
  | point {whole fraction exponent : List Char} {power : Int} (some : whole ++ fraction ≠ [])
      (wholeDigits : AllDigits whole) (fractionDigits : AllDigits fraction) (spelled : ExponentText power exponent) :
      FloatText N (N.ofDecimal (digitsValue 10 (whole ++ fraction)) (power - fraction.length))
        (whole ++ '.' :: (fraction ++ exponent))
  | power {whole exponent : List Char} {power : Int} (some : whole ≠ []) (wholeDigits : AllDigits whole)
      (spelled : ExponentText power exponent) (present : exponent ≠ []) :
      FloatText N (N.ofDecimal (digitsValue 10 whole) power) (whole ++ exponent)

structure IsWord (word : List Char) : Prop where
  starts : ∃ c ∈ word.head?, c.isAlpha = true ∨ c = '_'
  all : ∀ c ∈ word, isWordChar c = true

def Stops (rest : List Char) : Prop := ∀ c ∈ rest.head?, isWordChar c = false

/-! ## Characters -/

theorem isWordChar_of_isDigit {c : Char} (digit : c.isDigit = true) : isWordChar c = true := by
  simp [isWordChar, Char.isAlphanum, digit]

theorem isWordChar_of_isHexDigit {c : Char} (digit : isHexDigit c = true) : isWordChar c = true := by
  simp only [isHexDigit, isWordChar, Char.isAlphanum, Char.isAlpha, Char.isUpper, Char.isLower, Char.isDigit,
    Bool.or_eq_true, Bool.and_eq_true, decide_eq_true_eq, Char.le_def, Char.reduceVal, UInt32.le_iff_toNat_le,
    UInt32.reduceToNat, ge_iff_le] at digit ⊢
  omega

theorem isDigit_of_isAlpha {c : Char} (alpha : c.isAlpha = true) : c.isDigit = false := by
  rw [Bool.eq_false_iff]
  intro digit
  simp only [Char.isAlpha, Char.isUpper, Char.isLower, Char.isDigit, Bool.or_eq_true, Bool.and_eq_true,
    decide_eq_true_eq, Char.reduceVal, UInt32.le_iff_toNat_le, UInt32.reduceToNat, ge_iff_le] at digit alpha
  omega

theorem takeWhile_stop {p : Char → Bool} {text rest : List Char} (all : ∀ c ∈ text, p c = true)
    (stops : ∀ c ∈ rest.head?, p c = false) : (text ++ rest).takeWhile p = text := by
  rw [List.takeWhile_append_of_pos all]
  cases rest with
  | nil => simp
  | cons c rest => simp [stops c rfl]

theorem dropWhile_stop {p : Char → Bool} {text rest : List Char} (all : ∀ c ∈ text, p c = true)
    (stops : ∀ c ∈ rest.head?, p c = false) : (text ++ rest).dropWhile p = rest := by
  rw [List.dropWhile_append_of_pos all]
  cases rest with
  | nil => rfl
  | cons c rest => simp [stops c rfl]

/-! ## Numbers -/

theorem scanNumber_stop {rest : List Char} (stops : Stops rest) : scanNumber rest = ([], false, rest) := by
  cases rest with
  | nil => rfl
  | cons c rest =>
    have plain := stops c rfl
    simp only [isWordChar, Char.isAlphanum, Bool.or_eq_false_iff, beq_eq_false_iff_ne] at plain
    have noE : (c == 'e' || c == 'E') = false := by
      rw [Bool.or_eq_false_iff, beq_eq_false_iff_ne, beq_eq_false_iff_ne]
      constructor <;> rintro rfl <;> exact absurd plain.1.1.1 (by decide)
    rw [scanNumber.eq_def]
    simp only [plain.1.1.2, beq_eq_false_iff_ne.mpr plain.2, noE, Bool.false_and]
    cases rest <;> rfl

theorem scanNumber_digits {digits : List Char} (all : AllDigits digits) (rest : List Char) :
    scanNumber (digits ++ rest) = (digits ++ (scanNumber rest).1, (scanNumber rest).2.1, (scanNumber rest).2.2) := by
  induction digits with
  | nil => rfl
  | cons c digits ih =>
    have split := List.forall_mem_cons.mp all
    rw [List.cons_append, scanNumber_digit split.1, ih split.2]
    rfl

theorem scanNumber_letter {e d : Char} (letter : e = 'e' ∨ e = 'E') (next : d.isDigit = true ∨ d = '-' ∨ d = '+')
    (rest : List Char) :
    scanNumber (e :: d :: rest) = (e :: d :: (scanNumber rest).1, true, (scanNumber rest).2.2) := by
  have follows : (d.isDigit || d == '-' || d == '+') = true := by
    simpa only [Bool.or_eq_true, beq_iff_eq, or_assoc] using next
  rw [scanNumber.eq_def]
  simp only [follows, Bool.and_true]
  rcases letter with rfl | rfl <;> rfl

theorem ExponentText.scan {power : Int} {exponent rest : List Char} (spelled : ExponentText power exponent)
    (stops : Stops rest) : scanNumber (exponent ++ rest) = (exponent, !exponent.isEmpty, rest) := by
  cases spelled with
  | missing => exact scanNumber_stop stops
  | unsigned letter some all =>
    obtain ⟨d, digits, rfl⟩ := List.exists_cons_of_ne_nil some
    have split := List.forall_mem_cons.mp all
    rw [List.cons_append, List.cons_append, scanNumber_letter letter (.inl split.1), scanNumber_digits split.2,
      scanNumber_stop stops, List.append_nil]
    rfl
  | plus letter some all =>
    rw [List.cons_append, List.cons_append, scanNumber_letter letter (.inr (.inr rfl)), scanNumber_digits all,
      scanNumber_stop stops, List.append_nil]
    rfl
  | minus letter some all =>
    rw [List.cons_append, List.cons_append, scanNumber_letter letter (.inr (.inl rfl)), scanNumber_digits all,
      scanNumber_stop stops, List.append_nil]
    rfl

theorem FloatText.scan {v : N.Float} {text rest : List Char} (spelled : FloatText N v text) (stops : Stops rest) :
    scanNumber (text ++ rest) = (text, true, rest) := by
  cases spelled with
  | point some wholeDigits fractionDigits spelled =>
    rw [List.append_assoc, scanNumber_digits wholeDigits, List.cons_append, scanNumber_point, List.append_assoc,
      scanNumber_digits fractionDigits, spelled.scan stops]
  | power some wholeDigits spelled present =>
    rw [List.append_assoc, scanNumber_digits wholeDigits, spelled.scan stops]
    simp only [List.isEmpty_eq_false_iff.mpr present, Bool.not_false]

theorem splitSign_digits {digits : List Char} (all : AllDigits digits) : splitSign digits = (false, digits) := by
  unfold splitSign
  split
  · exact absurd (all '-' List.mem_cons_self) (by decide)
  · exact absurd (all '+' List.mem_cons_self) (by decide)
  · rfl

theorem ExponentText.read {power : Int} {exponent : List Char} (spelled : ExponentText power exponent) :
    readExponent exponent = some power := by
  have notLetter : ∀ e : Char, e = 'e' ∨ e = 'E' → (e != 'e' && e != 'E') = false := by
    rintro e (rfl | rfl) <;> rfl
  cases spelled with
  | missing => rfl
  | unsigned letter some all =>
    simp only [readExponent, notLetter _ letter, splitSign_digits all, List.isEmpty_eq_false_iff.mpr some,
      List.all_eq_true.mpr all]
    rfl
  | plus letter some all =>
    simp only [readExponent, notLetter _ letter, splitSign, List.isEmpty_eq_false_iff.mpr some,
      List.all_eq_true.mpr all]
    rfl
  | minus letter some all =>
    simp only [readExponent, notLetter _ letter, splitSign, List.isEmpty_eq_false_iff.mpr some,
      List.all_eq_true.mpr all]
    rfl

theorem ExponentText.not_digit {power : Int} {exponent : List Char} (spelled : ExponentText power exponent) :
    ∀ c ∈ exponent.head?, c.isDigit = false := by
  have letters : ∀ e : Char, e = 'e' ∨ e = 'E' → ∀ c ∈ some e, c.isDigit = false := by
    rintro e (rfl | rfl) c ⟨⟩ <;> rfl
  cases spelled with
  | missing => nofun
  | unsigned letter | plus letter | minus letter => exact letters _ letter

theorem ExponentText.splitFraction {power : Int} {exponent : List Char} (spelled : ExponentText power exponent) :
    Genicam.splitFraction exponent = ([], exponent) := by
  unfold Genicam.splitFraction
  split
  · cases spelled with
    | unsigned letter | plus letter | minus letter => exact absurd letter (by decide)
  · rfl

theorem FloatText.read {v : N.Float} {text : List Char} (spelled : FloatText N v text) : readFloat text = .ok v := by
  cases spelled with
  | @point whole fraction exponent power some wholeDigits fractionDigits spelled =>
    have apart : ∀ c ∈ ('.' :: (fraction ++ exponent)).head?, c.isDigit = false := by
      rintro c ⟨⟩
      rfl
    have present : (whole.isEmpty && fraction.isEmpty) = false := by
      rw [Bool.and_eq_false_iff, List.isEmpty_eq_false_iff, List.isEmpty_eq_false_iff]
      by_contra! both
      exact some (by rw [both.1, both.2]; rfl)
    simp only [readFloat, takeWhile_stop wholeDigits apart, dropWhile_stop wholeDigits apart,
      splitFraction, takeWhile_stop fractionDigits spelled.not_digit, dropWhile_stop fractionDigits spelled.not_digit, spelled.read,
      present]
    rfl
  | @power whole exponent power some wholeDigits spelled present =>
    simp only [readFloat, takeWhile_stop wholeDigits spelled.not_digit, dropWhile_stop wholeDigits spelled.not_digit,
      spelled.splitFraction, spelled.read, List.isEmpty_eq_false_iff.mpr some, Bool.false_and, List.append_nil]
    simp

/-! ## Tokens -/

def Spells (token : Token N) (text rest : List Char) : Prop :=
  ∃ c tail, text = c :: tail ∧ isBlank c = false ∧ nextToken c (tail ++ rest) = .ok (token, rest)

theorem isBlank_of_isWordChar {c : Char} (word : isWordChar c = true) : isBlank c = false := by
  by_contra blank
  simp only [isBlank, Bool.not_eq_false, Bool.or_eq_true, beq_iff_eq] at blank
  rcases blank with (((rfl | rfl) | rfl) | rfl) | rfl <;> exact absurd word (by decide)

theorem nextToken_digit {c : Char} (digit : c.isDigit = true) (rest : List Char) :
    nextToken (N := N) c rest = parseNumber (c :: rest) := by
  rw [nextToken, digit, Bool.true_or, if_pos rfl]

theorem nextToken_point {c : Char} (digit : c.isDigit = true) (rest : List Char) :
    nextToken (N := N) '.' (c :: rest) = parseNumber ('.' :: c :: rest) := by
  rw [nextToken, List.head?_cons, Option.any_some, digit]
  rfl

theorem parseNumber_decimal {src : List Char} (plain : ∀ x tail, src = '0' :: x :: tail → x ≠ 'x' ∧ x ≠ 'X') :
    parseNumber (N := N) src = parseDecimal src := by
  unfold parseNumber
  split
  · exact absurd rfl (plain _ _ rfl).1
  · exact absurd rfl (plain _ _ rfl).2
  · rfl

theorem nextToken_decimal {c : Char} {digits rest : List Char} (all : AllDigits (c :: digits))
    (follows : ∀ c ∈ rest.head?, c ≠ 'x' ∧ c ≠ 'X') :
    nextToken (N := N) c (digits ++ rest) = parseDecimal (c :: (digits ++ rest)) := by
  rw [nextToken_digit (all c List.mem_cons_self)]
  refine parseNumber_decimal fun x tail shape => ?_
  cases digits with
  | nil =>
    cases shape
    exact follows x rfl
  | cons d digits =>
    cases shape
    have digit := all x (List.mem_cons_of_mem _ List.mem_cons_self)
    constructor <;> rintro rfl <;> exact absurd digit (by decide)

theorem Stops.not_hex {rest : List Char} (stops : Stops rest) : ∀ c ∈ rest.head?, c ≠ 'x' ∧ c ≠ 'X' := by
  intro c head
  have plain := stops c head
  constructor <;> rintro rfl <;> exact absurd plain (by decide)

theorem parseDecimal_float {v : N.Float} {text rest : List Char} (spelled : FloatText N v text) (stops : Stops rest) :
    parseDecimal (text ++ rest) = .ok (.float v, rest) := by
  simp only [parseDecimal, spelled.scan stops, spelled.read, if_true]

theorem IntText.spells {v : Int64} {text rest : List Char} (spelled : IntText v text) (stops : Stops rest) :
    Spells (N := N) (.int v) text rest := by
  cases spelled with
  | decimal some all small =>
    obtain ⟨c, digits, rfl⟩ := List.exists_cons_of_ne_nil some
    have digit := all c List.mem_cons_self
    refine ⟨c, digits, rfl, isBlank_of_isWordChar (isWordChar_of_isDigit digit), ?_⟩
    rw [nextToken_decimal all stops.not_hex, ← List.cons_append]
    simp only [parseDecimal, scanNumber_digits all, scanNumber_stop stops, List.append_nil, readInt, small, if_true]
    rfl
  | @hex x digits letter some all small =>
    have stopped : ∀ c ∈ rest.head?, isHexDigit c = false := by
      intro c head
      by_contra hexDigit
      exact absurd (isWordChar_of_isHexDigit (Bool.not_eq_false _ ▸ hexDigit)) (by rw [stops c head]; decide)
    have parsed : parseHex (N := N) (digits ++ rest) = .ok (.int (.ofNat (digitsValue 16 digits)), rest) := by
      simp only [parseHex, takeWhile_stop all stopped, dropWhile_stop all stopped, readInt, small, if_true,
        List.isEmpty_eq_false_iff.mpr some]
      rfl
    obtain ⟨d, digits, rfl⟩ := List.exists_cons_of_ne_nil some
    refine ⟨'0', x :: d :: digits, rfl, rfl, ?_⟩
    rw [nextToken_digit rfl, ← parsed]
    rcases letter with rfl | rfl <;> rfl

theorem FloatText.spells {v : N.Float} {text rest : List Char} (spelled : FloatText N v text) (stops : Stops rest) :
    Spells (.float v) text rest := by
  have parsed := parseDecimal_float spelled stops
  cases spelled with
  | @point whole fraction exponent power some wholeDigits fractionDigits spelled =>
    cases whole with
    | nil =>
      obtain ⟨c, fraction, rfl⟩ := List.exists_cons_of_ne_nil some
      refine ⟨'.', _, rfl, rfl, ?_⟩
      rw [List.cons_append, List.cons_append, nextToken_point (fractionDigits c List.mem_cons_self), ← parsed]
      rfl
    | cons c whole =>
      have digit := wholeDigits c List.mem_cons_self
      refine ⟨c, whole ++ '.' :: (fraction ++ exponent), rfl, isBlank_of_isWordChar (isWordChar_of_isDigit digit), ?_⟩
      rw [List.append_assoc, nextToken_decimal wholeDigits, ← parsed]
      · simp only [List.append_assoc, List.cons_append]
      · rintro c ⟨⟩
        decide
  | @power whole exponent power some wholeDigits spelled present =>
    obtain ⟨c, whole, rfl⟩ := List.exists_cons_of_ne_nil some
    have digit := wholeDigits c List.mem_cons_self
    refine ⟨c, whole ++ exponent, rfl, isBlank_of_isWordChar (isWordChar_of_isDigit digit), ?_⟩
    rw [List.append_assoc, nextToken_decimal wholeDigits, ← parsed]
    · simp only [List.append_assoc, List.cons_append]
    · have letters : ∀ e : Char, e = 'e' ∨ e = 'E' → ∀ c ∈ Option.some e, c ≠ 'x' ∧ c ≠ 'X' := by
        rintro e (rfl | rfl) c ⟨⟩ <;> decide
      cases spelled with
      | missing => exact absurd rfl present
      | unsigned letter | plus letter | minus letter => exact letters _ letter

theorem IsWord.spells {word rest : List Char} (isWord : IsWord word) (stops : Stops rest) :
    Spells (N := N) (wordToken word) word rest := by
  obtain ⟨c, head, starts⟩ := isWord.starts
  match word, isWord.all with
  | c :: word, all =>
    cases head
    refine ⟨c, word, rfl, isBlank_of_isWordChar (all c List.mem_cons_self), ?_⟩
    have tail : ∀ c ∈ word, isWordChar c = true := fun c held => all c (List.mem_cons_of_mem _ held)
    have notNumber : c.isDigit = false ∧ c ≠ '.' := by
      rcases starts with alpha | rfl
      · refine ⟨isDigit_of_isAlpha alpha, ?_⟩
        rintro rfl
        exact absurd alpha (by decide)
      · decide
    have letter : (c.isAlpha || c == '_') = true := by simpa only [Bool.or_eq_true, beq_iff_eq] using starts
    rw [nextToken, notNumber.1, beq_eq_false_iff_ne.mpr notNumber.2, Bool.false_and, Bool.or_false,
      if_neg Bool.false_ne_true, if_pos letter, takeWhile_stop tail stops, dropWhile_stop tail stops]

/-! ## First characters -/

theorem IntText.starts {v : Int64} {text : List Char} (spelled : IntText v text) :
    ∃ c tail, text = c :: tail ∧ isWordChar c = true := by
  cases spelled with
  | decimal some all =>
    obtain ⟨c, digits, rfl⟩ := List.exists_cons_of_ne_nil some
    exact ⟨c, digits, rfl, isWordChar_of_isDigit (all c List.mem_cons_self)⟩
  | hex => exact ⟨_, _, rfl, rfl⟩

theorem FloatText.starts {v : N.Float} {text : List Char} (spelled : FloatText N v text) :
    ∃ c tail, text = c :: tail ∧ isWordChar c = true := by
  cases spelled with
  | @point whole _ _ _ _ wholeDigits =>
    cases whole with
    | nil => exact ⟨_, _, rfl, rfl⟩
    | cons c whole => exact ⟨c, _, rfl, isWordChar_of_isDigit (wholeDigits c List.mem_cons_self)⟩
  | power some wholeDigits =>
    obtain ⟨c, whole, rfl⟩ := List.exists_cons_of_ne_nil some
    exact ⟨c, _, rfl, isWordChar_of_isDigit (wholeDigits c List.mem_cons_self)⟩

theorem IsWord.first {word : List Char} (isWord : IsWord word) : ∃ c tail, word = c :: tail ∧ isWordChar c = true := by
  obtain ⟨c, head, -⟩ := isWord.starts
  obtain ⟨tail, rfl⟩ := List.head?_eq_some_iff.mp head
  exact ⟨c, tail, rfl, isWord.all c List.mem_cons_self⟩

end Telegenic.Genicam
