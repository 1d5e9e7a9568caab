import Telegenic.Genicam.Literals
import Telegenic.Genicam.Rationals

/-! Formulas as trees, their texts, and that compiling a text gives the tree's
post-order and its value. -/

set_option autoImplicit false

namespace Telegenic.Genicam

open Library

variable {N : Numbers}

inductive Tree (N : Numbers) where
  | int (v : Int64)
  | float (v : N.Float)
  | pi
  | e
  | name (name : String)
  | call (f : FormulaFunction) (operand : Tree N)
  | unary (op : UnaryOp) (operand : Tree N)
  | binary (op : BinaryOp) (left right : Tree N)
  | cond (condition middle last : Tree N)

def Tree.names : Tree N → List String
  | .int _ | .float _ | .pi | .e => []
  | .name x => [x]
  | .call _ operand | .unary _ operand => operand.names
  | .binary _ left right => left.names ++ right.names
  | .cond condition middle last => condition.names ++ middle.names ++ last.names

def Tree.postOrder (index : String → Nat) : Tree N → List (Op N)
  | .int v => [.constI v]
  | .float v => [.constF v]
  | .pi => [.constF N.pi]
  | .e => [.constF N.e]
  | .name x => [.var (index x)]
  | .call f operand => operand.postOrder index ++ [.function f]
  | .unary op operand => operand.postOrder index ++ [.unary op]
  | .binary op left right => left.postOrder index ++ right.postOrder index ++ [.binary op]
  | .cond condition middle last =>
      condition.postOrder index ++ (middle.postOrder index ++ last.postOrder index ++ [.ternaryColon]) ++ [.ternary]

/-- The value from the leaves up, both branches of a condition included, or the
first error from the left. -/
def Tree.value (assigned : String → Except String (Value N.Float)) : Tree N → Except String (Value N.Float)
  | .int v => .ok (.int v)
  | .float v => .ok (.float v)
  | .pi => .ok (.float N.pi)
  | .e => .ok (.float N.e)
  | .name x => assigned x
  | .call f operand => do return applyFunction f (← operand.value assigned)
  | .unary op operand => do return applyUnary op (← operand.value assigned)
  | .binary op left right => do applyBinary op (← left.value assigned) (← right.value assigned)
  | .cond condition middle last => do
      let a ← condition.value assigned
      let b ← middle.value assigned
      let c ← last.value assigned
      return if N.truthy a then b else c

/-! ## Texts -/

def UnaryOp.symbol : UnaryOp → Char
  | .unaryMinus => '-'
  | .unaryPlus => '+'
  | .bitNot => '~'

def BinaryOp.symbol : BinaryOp → List Char
  | .or => ['|', '|']
  | .and => ['&', '&']
  | .bitOr => ['|']
  | .bitXor => ['^']
  | .bitAnd => ['&']
  | .eq => ['=']
  | .ne => ['<', '>']
  | .le => ['<', '=']
  | .ge => ['>', '=']
  | .lt => ['<']
  | .gt => ['>']
  | .shr => ['>', '>']
  | .shl => ['<', '<']
  | .sub => ['-']
  | .add => ['+']
  | .rem => ['%']
  | .div => ['/']
  | .mul => ['*']
  | .pow => ['*', '*']

/-- The texts of a tree whose parentheses suffice for the precedences, with its
outermost operator unless the text is whole. Blanks may stand around any part. -/
inductive Renders : Tree N → Option (Op N) → List Char → Prop where
  | int {v : Int64} {text : List Char} (spelled : IntText v text) : Renders (.int v) none text
  | float {v : N.Float} {text : List Char} (spelled : FloatText N v text) : Renders (.float v) none text
  | pi : Renders .pi none ['P', 'I']
  | e : Renders .e none ['E']
  | name {word : List Char} (isWord : IsWord word) (free : functionNamed word = none) (notPi : String.ofList word ≠ "PI")
      (notE : String.ofList word ≠ "E") : Renders (.name (String.ofList word)) none word
  | blankBefore {t : Tree N} {outermost : Option (Op N)} {text : List Char} {c : Char} (blank : isBlank c = true)
      (inner : Renders t outermost text) : Renders t outermost (c :: text)
  | blankAfter {t : Tree N} {outermost : Option (Op N)} {text : List Char} {c : Char} (blank : isBlank c = true)
      (inner : Renders t outermost text) : Renders t outermost (text ++ [c])
  | group {t : Tree N} {outermost : Option (Op N)} {text : List Char} (inner : Renders t outermost text) :
      Renders t none ('(' :: (text ++ [')']))
  | call {f : FormulaFunction} {word gap : List Char} {t : Tree N} {outermost : Option (Op N)} {text : List Char}
      (isWord : IsWord word) (named : functionNamed word = some f) (blanks : ∀ c ∈ gap, isBlank c = true)
      (inner : Renders t outermost text) :
      Renders (.call f t) (some (.function f)) (word ++ (gap ++ '(' :: (text ++ [')'])))
  | unary {op : UnaryOp} {t : Tree N} {outermost : Option (Op N)} {text : List Char}
      (inner : Renders t outermost text) (fits : FitsRight Op.binding (.unary op) outermost) :
      Renders (.unary op t) (some (.unary op)) (op.symbol :: text)
  | binary {op : BinaryOp} {l r : Tree N} {outermostLeft outermostRight : Option (Op N)} {before after : List Char}
      (left : Renders l outermostLeft before) (right : Renders r outermostRight after)
      (fitsLeft : FitsLeft Op.binding (.binary op) outermostLeft)
      (fitsRight : FitsRight Op.binding (.binary op) outermostRight) :
      Renders (.binary op l r) (some (.binary op)) (before ++ (op.symbol ++ after))
  -- Like `?` and `:` as operators that group to the right: a condition in the
  -- first or the middle operand is in parentheses.
  | cond {c m l : Tree N} {outermost₁ outermost₂ outermost₃ : Option (Op N)} {first second third : List Char}
      (condition : Renders c outermost₁ first) (middle : Renders m outermost₂ second) (last : Renders l outermost₃ third)
      (fitsFirst : FitsLeft Op.binding .ternary outermost₁) (fitsSecond : FitsLeft Op.binding .ternaryColon outermost₂)
      (fitsThird : FitsRight Op.binding .ternaryColon outermost₃) :
      Renders (.cond c m l) (some .ternary) (first ++ '?' :: (second ++ ':' :: third))

/-! ## The name table -/

def noteNames (table names : List String) : List String := names.foldl noteName table

def tableIndex (table : List String) (name : String) : Nat := table.idxOf name % 2 ^ 16

theorem noteNames_append (table first second : List String) :
    noteNames table (first ++ second) = noteNames (noteNames table first) second := List.foldl_append

theorem mem_noteName {table : List String} {name x : String} : x ∈ noteName table name ↔ x ∈ table ∨ x = name := by
  unfold noteName
  split
  case isTrue known =>
    refine ⟨.inl, ?_⟩
    rintro (held | rfl)
    · exact held
    · exact known
  case isFalse => rw [List.mem_append, List.mem_singleton]

theorem noteName_extends (table : List String) (name : String) : table <+: noteName table name := by
  unfold noteName
  split
  · exact List.prefix_rfl
  · exact List.prefix_append _ _

theorem noteName_nodup {table : List String} (distinct : table.Nodup) (name : String) : (noteName table name).Nodup := by
  unfold noteName
  split
  case isTrue => exact distinct
  case isFalse new =>
    rw [← List.concat_eq_append]
    exact distinct.concat new

theorem mem_noteNames {names : List String} {x : String} :
    ∀ {table : List String}, x ∈ noteNames table names ↔ x ∈ table ∨ x ∈ names := by
  induction names with
  | nil => simp [noteNames]
  | cons name names ih =>
    intro table
    rw [noteNames, List.foldl_cons, ← noteNames, ih, mem_noteName, List.mem_cons, or_assoc]

theorem noteNames_extends (names : List String) : ∀ table : List String, table <+: noteNames table names := by
  induction names with
  | nil => exact fun _ => List.prefix_rfl
  | cons name names ih => exact fun table => (noteName_extends table name).trans (ih _)

theorem noteNames_nodup (names : List String) :
    ∀ {table : List String}, table.Nodup → (noteNames table names).Nodup := by
  induction names with
  | nil => exact id
  | cons name names ih => exact fun distinct => ih (noteName_nodup distinct name)

theorem length_noteNames (names : List String) : (noteNames [] names).length = names.toFinset.card := by
  rw [← List.toFinset_card_of_nodup (noteNames_nodup names List.nodup_nil)]
  congr 1
  ext x
  simp [mem_noteNames]

theorem Tree.postOrder_congr {index index' : String → Nat} {t : Tree N} (same : ∀ x ∈ t.names, index x = index' x) :
    t.postOrder index = t.postOrder index' := by
  induction t with
  | int | float | pi | e => rfl
  | name x => rw [Tree.postOrder, Tree.postOrder, same x List.mem_cons_self]
  | call f operand ih | unary op operand ih => rw [Tree.postOrder, Tree.postOrder, ih same]
  | binary op left right leftIH rightIH =>
    rw [Tree.names, List.forall_mem_append] at same
    rw [Tree.postOrder, Tree.postOrder, leftIH same.1, rightIH same.2]
  | cond condition middle last conditionIH middleIH lastIH =>
    rw [Tree.names, List.forall_mem_append, List.forall_mem_append] at same
    rw [Tree.postOrder, Tree.postOrder, conditionIH same.1.1, middleIH same.1.2, lastIH same.2]

theorem Tree.postOrder_extend (t : Tree N) (table more : List String) :
    t.postOrder (tableIndex (noteNames table t.names)) =
      t.postOrder (tableIndex (noteNames (noteNames table t.names) more)) := by
  refine t.postOrder_congr fun x used => ?_
  have known : x ∈ noteNames table t.names := mem_noteNames.mpr (.inr used)
  rw [tableIndex, tableIndex, (noteNames_extends more _).idxOf_eq_of_mem known]

/-! ## Symbols -/

theorem Op.binding_right (op : Op N) :
    op.binding.2 = decide (op.binding.1 = 5 ∨ op.binding.1 = 120 ∨ op.binding.1 = 130) := by
  cases op with
  | binary op => cases op <;> rfl
  | _ => rfl

theorem binding_consistent : Consistent (Op.binding (N := N)) := by
  intro a b same
  rw [a.binding_right, b.binding_right, same]

def UnaryOp.token : UnaryOp → Token N
  | .unaryMinus => .minus
  | .unaryPlus => .plus
  | .bitNot => .bitNot

def BinaryOp.token : BinaryOp → Token N
  | .add => .plus
  | .sub => .minus
  | op => .binary op

def Begins (c : Char) : Prop := c ∉ ['|', '&', '<', '>', '=', '*']

instance (c : Char) : Decidable (Begins c) := inferInstanceAs (Decidable (_ ∉ _))

theorem begins_of_isWordChar {c : Char} (word : isWordChar c = true) : Begins c := by
  intro listed
  simp only [List.mem_cons, List.not_mem_nil, or_false] at listed
  rcases listed with rfl | rfl | rfl | rfl | rfl | rfl <;> exact absurd word (by decide)

theorem begins_of_isBlank {c : Char} (blank : isBlank c = true) : Begins c := by
  intro listed
  simp only [List.mem_cons, List.not_mem_nil, or_false] at listed
  rcases listed with rfl | rfl | rfl | rfl | rfl | rfl <;> exact absurd blank (by decide)

theorem BinaryOp.spells (op : BinaryOp) {c : Char} (begins : Begins c) (rest : List Char) :
    Spells (N := N) op.token op.symbol (c :: rest) := by
  simp only [Begins, List.mem_cons, List.not_mem_nil, or_false, not_or] at begins
  obtain ⟨notBar, notAnd, notLess, notGreater, notEqual, notStar⟩ := begins
  cases op <;> refine ⟨_, _, rfl, rfl, ?_⟩ <;> simp [nextToken, symbolToken, BinaryOp.token, *]

theorem UnaryOp.spells (op : UnaryOp) (rest : List Char) : Spells (N := N) op.token [op.symbol] rest := by
  cases op <;> exact ⟨_, _, rfl, rfl, rfl⟩

/-! ## Reading -/

theorem parseFrom_blank {c : Char} (blank : isBlank c = true) (reader : Reader N) (rest : List Char) :
    parseFrom reader (c :: rest) = parseFrom reader rest := by
  rw [parseFrom, if_pos blank]

theorem parseFrom_blanks {gap : List Char} (blanks : ∀ c ∈ gap, isBlank c = true) (reader : Reader N)
    (rest : List Char) : parseFrom reader (gap ++ rest) = parseFrom reader rest := by
  induction gap with
  | nil => rfl
  | cons c gap ih =>
    have split := List.forall_mem_cons.mp blanks
    rw [List.cons_append, parseFrom_blank split.1, ih split.2]

theorem Spells.parse {token : Token N} {text rest : List Char} (spells : Spells token text rest) {reader next : Reader N}
    (stepped : reader.step token = .ok next) : parseFrom reader (text ++ rest) = parseFrom next rest := by
  obtain ⟨c, tail, rfl, solid, read⟩ := spells
  rw [List.cons_append, parseFrom, solid, if_neg Bool.false_ne_true]
  split
  case h_1 failed =>
    rw [read] at failed
    cases failed
  case h_2 read' =>
    rw [read] at read'
    cases read'
    rw [stepped]

theorem stops_of_not {c : Char} (symbol : isWordChar c = false) (rest : List Char) : Stops (c :: rest) := by
  rintro _ ⟨⟩
  exact symbol

theorem stops_of_isBlank {c : Char} (blank : isBlank c = true) (rest : List Char) : Stops (c :: rest) := by
  refine stops_of_not ?_ rest
  by_contra word
  rw [isBlank_of_isWordChar (Bool.not_eq_false _ ▸ word)] at blank
  nomatch blank

theorem BinaryOp.stops (op : BinaryOp) (rest : List Char) : Stops (op.symbol ++ rest) := by
  cases op <;> exact stops_of_not rfl _

theorem Renders.begins {t : Tree N} {outermost : Option (Op N)} {text : List Char} (renders : Renders t outermost text) :
    ∃ c tail, text = c :: tail ∧ Begins c := by
  induction renders with
  | int spelled =>
    obtain ⟨c, tail, rfl, word⟩ := spelled.starts
    exact ⟨c, tail, rfl, begins_of_isWordChar word⟩
  | float spelled =>
    obtain ⟨c, tail, rfl, word⟩ := spelled.starts
    exact ⟨c, tail, rfl, begins_of_isWordChar word⟩
  | name isWord | call isWord =>
    obtain ⟨c, tail, rfl, word⟩ := isWord.first
    exact ⟨c, _, rfl, begins_of_isWordChar word⟩
  | pi | e => exact ⟨_, _, rfl, by decide⟩
  | blankBefore blank => exact ⟨_, _, rfl, begins_of_isBlank blank⟩
  | group => exact ⟨_, _, rfl, by decide⟩
  | @unary op => exact ⟨_, _, rfl, by cases op <;> decide⟩
  | blankAfter _ _ ih | binary _ _ _ _ ih | cond _ _ _ _ _ _ ih =>
    obtain ⟨c, tail, rfl, begins⟩ := ih
    exact ⟨c, _, rfl, begins⟩

theorem parse_group {names names' : List String} {stack : List (Option (Op N))} {output items : List (Op N)}
    {outermost : Option (Op N)} {yard : Yard (Op N)} {text rest : List Char} {prev : Bool}
    (parsed : parseFrom ⟨names, ⟨none :: stack, output⟩, false⟩ (text ++ ')' :: rest) =
      parseFrom ⟨names', yard, true⟩ (')' :: rest))
    (read : Read Op.binding outermost items ⟨none :: stack, output⟩ yard) :
    parseFrom ⟨names, ⟨stack, output⟩, prev⟩ ('(' :: (text ++ ')' :: rest)) =
      parseFrom ⟨names', ⟨stack, output ++ items⟩, true⟩ rest := by
  have opens : Spells (N := N) .left ['('] (text ++ ')' :: rest) := ⟨_, _, rfl, rfl, rfl⟩
  have closes : Spells (N := N) .right [')'] rest := ⟨_, _, rfl, rfl, rfl⟩
  have stepped : (⟨names', yard, true⟩ : Reader N).step .right = .ok ⟨names', ⟨stack, output ++ items⟩, true⟩ := by
    simp only [Reader.step, read.close]
  exact (opens.parse rfl).trans (parsed.trans (closes.parse stepped))

theorem parse_unary {op : UnaryOp} {names : List String} {stack : List (Option (Op N))} {output : List (Op N)}
    (waits : Waits Op.binding stack (some (.unary op))) (rest : List Char) :
    parseFrom ⟨names, ⟨stack, output⟩, false⟩ (op.symbol :: rest) =
      parseFrom ⟨names, ⟨some (.unary op) :: stack, output⟩, false⟩ rest := by
  refine (op.spells rest).parse ?_
  cases op <;>
    simp only [Reader.step, UnaryOp.token, Reader.operator, Reader.pushOperator, Bool.false_eq_true, if_false, waits.push]

theorem parse_operator (names : List String) {op : Op N} {before after : Yard (Op N)} {items : List (Op N)}
    {outermost : Option (Op N)} {token : Token N} {symbol rest : List Char}
    (read : Read Op.binding outermost items before after) (waits : Waits Op.binding before.stack (some op))
    (fits : FitsLeft Op.binding op outermost) (spells : Spells token symbol rest)
    (step : (⟨names, after, true⟩ : Reader N).step token = .ok (Reader.operator op ⟨names, after, true⟩)) :
    parseFrom ⟨names, after, true⟩ (symbol ++ rest) =
      parseFrom ⟨names, ⟨some op :: before.stack, before.output ++ items⟩, false⟩ rest := by
  refine spells.parse (step.trans ?_)
  simp only [Reader.operator, Reader.pushOperator, read.push waits fits]

theorem BinaryOp.step (op : BinaryOp) (names : List String) (yard : Yard (Op N)) :
    (⟨names, yard, true⟩ : Reader N).step op.token = .ok (Reader.operator (.binary op) ⟨names, yard, true⟩) := by
  cases op <;> rfl

theorem Renders.reads {t : Tree N} {outermost : Option (Op N)} {text : List Char} (renders : Renders t outermost text) :
    ∀ (names : List String) (stack : List (Option (Op N))) (output : List (Op N)) (rest : List Char), Stops rest →
      Waits Op.binding stack outermost →
      ∃ yard, parseFrom ⟨names, ⟨stack, output⟩, false⟩ (text ++ rest) =
          parseFrom ⟨noteNames names t.names, yard, true⟩ rest ∧
        Read Op.binding outermost (t.postOrder (tableIndex (noteNames names t.names))) ⟨stack, output⟩ yard := by
  induction renders with
  | int spelled =>
    intro names stack output rest stops _
    exact ⟨_, (spelled.spells stops).parse rfl, Read.whole⟩
  | float spelled =>
    intro names stack output rest stops _
    exact ⟨_, (spelled.spells stops).parse rfl, Read.whole⟩
  | pi =>
    intro names stack output rest stops _
    have spells : Spells (N := N) (.float N.pi) ['P', 'I'] rest :=
      IsWord.spells ⟨⟨'P', rfl, .inl rfl⟩, List.all_eq_true.mp rfl⟩ stops
    exact ⟨_, spells.parse rfl, Read.whole⟩
  | e =>
    intro names stack output rest stops _
    have spells : Spells (N := N) (.float N.e) ['E'] rest := IsWord.spells ⟨⟨'E', rfl, .inl rfl⟩, List.all_eq_true.mp rfl⟩ stops
    exact ⟨_, spells.parse rfl, Read.whole⟩
  | @name word isWord free notPi notE =>
    intro names stack output rest stops _
    have spells := isWord.spells (N := N) stops
    rw [wordToken, free] at spells
    simp only [if_neg notPi, if_neg notE] at spells
    exact ⟨_, spells.parse rfl, Read.whole⟩
  | blankBefore blank inner ih =>
    intro names stack output rest stops waits
    obtain ⟨yard, parsed, read⟩ := ih names stack output rest stops waits
    exact ⟨yard, (parseFrom_blank blank _ _).trans parsed, read⟩
  | blankAfter blank inner ih =>
    intro names stack output rest stops waits
    obtain ⟨yard, parsed, read⟩ := ih names stack output (_ :: rest) (stops_of_isBlank blank rest) waits
    refine ⟨yard, ?_, read⟩
    rw [List.append_assoc, List.singleton_append, parsed, parseFrom_blank blank]
  | group inner ih =>
    intro names stack output rest stops _
    obtain ⟨yard, parsed, read⟩ := ih names (none :: stack) output (')' :: rest) (stops_of_not rfl rest) Waits.parenthesis
    refine ⟨_, ?_, Read.whole⟩
    rw [List.cons_append, List.append_assoc, List.singleton_append, parse_group parsed read]
  | @call f word gap t _ text isWord named blanks inner ih =>
    intro names stack output rest stops waits
    obtain ⟨yard, parsed, read⟩ :=
      ih names (none :: some (.function f) :: stack) output (')' :: rest) (stops_of_not rfl rest) Waits.parenthesis
    have follows : Stops (gap ++ '(' :: (text ++ ')' :: rest)) := by
      cases gap with
      | nil => exact stops_of_not rfl _
      | cons c gap => exact stops_of_isBlank (blanks c List.mem_cons_self) _
    have spells := isWord.spells (N := N) follows
    rw [wordToken, named] at spells
    have stepped : (⟨names, ⟨stack, output⟩, false⟩ : Reader N).step (.function f) =
        .ok ⟨names, ⟨some (.function f) :: stack, output⟩, false⟩ := by
      simp only [Reader.step, Reader.pushOperator, waits.push]
    refine ⟨_, ?_, Read.whole.before nofun⟩
    calc
      _ = parseFrom ⟨names, ⟨stack, output⟩, false⟩ (word ++ (gap ++ '(' :: (text ++ ')' :: rest))) := by
        simp only [List.append_assoc, List.cons_append, List.nil_append]
      _ = parseFrom ⟨names, ⟨some (.function f) :: stack, output⟩, false⟩ ('(' :: (text ++ ')' :: rest)) := by
        rw [spells.parse stepped, parseFrom_blanks blanks]
      _ = _ := parse_group parsed read
  | @unary op t outermost text inner fits ih =>
    intro names stack output rest stops waits
    obtain ⟨yard, parsed, read⟩ :=
      ih names (some (.unary op) :: stack) output rest stops (.right binding_consistent fits)
    exact ⟨yard, (parse_unary waits _).trans parsed, read.before fits⟩
  | @binary op l r _ _ before after left right fitsLeft fitsRight leftIH rightIH =>
    intro names stack output rest stops waits
    obtain ⟨c, tail, rfl, begins⟩ := right.begins
    obtain ⟨yard, parsed, read⟩ :=
      leftIH names stack output (op.symbol ++ (c :: tail ++ rest)) (op.stops _) (waits.left binding_consistent fitsLeft)
    obtain ⟨yard', parsed', read'⟩ := rightIH (noteNames names l.names) (some (.binary op) :: stack) _ rest stops
      (.right binding_consistent fitsRight)
    refine ⟨yard', ?_, ?_⟩
    · rw [List.append_assoc, List.append_assoc, parsed, Tree.names, noteNames_append, ← parsed']
      exact parse_operator _ read waits fitsLeft (op.spells begins _) (op.step _ _)
    · rw [Tree.names, noteNames_append, Tree.postOrder, ← l.postOrder_extend]
      exact read'.between fitsRight
  | @cond c m l _ _ _ first second third condition middle last fitsFirst fitsSecond fitsThird conditionIH middleIH lastIH =>
    intro names stack output rest stops waits
    have colonFits : FitsRight Op.binding (.ternary : Op N) (some .ternaryColon) := by
      rintro _ ⟨⟩
      exact .inr ⟨rfl, rfl⟩
    have colonWaits : Waits Op.binding (some (.ternary : Op N) :: stack) (some .ternaryColon) :=
      .right binding_consistent colonFits
    obtain ⟨yard₁, parsed₁, read₁⟩ := conditionIH names stack output ('?' :: (second ++ ':' :: (third ++ rest)))
      (stops_of_not rfl _) (waits.left binding_consistent fitsFirst)
    obtain ⟨yard₂, parsed₂, read₂⟩ := middleIH (noteNames names c.names) (some .ternary :: stack) _
      (':' :: (third ++ rest)) (stops_of_not rfl _) (colonWaits.left binding_consistent fitsSecond)
    obtain ⟨yard₃, parsed₃, read₃⟩ := lastIH (noteNames (noteNames names c.names) m.names)
      (some .ternaryColon :: some .ternary :: stack) _ rest stops (.right binding_consistent fitsThird)
    have question : Spells (N := N) .question ['?'] (second ++ ':' :: (third ++ rest)) := ⟨_, _, rfl, rfl, rfl⟩
    have colon : Spells (N := N) .colon [':'] (third ++ rest) := ⟨_, _, rfl, rfl, rfl⟩
    have past₁ := parse_operator (noteNames names c.names) read₁ waits fitsFirst question rfl
    have past₂ := parse_operator (noteNames (noteNames names c.names) m.names) read₂ colonWaits fitsSecond colon rfl
    refine ⟨yard₃, ?_, ?_⟩
    · calc
        _ = parseFrom ⟨names, ⟨stack, output⟩, false⟩ (first ++ '?' :: (second ++ ':' :: (third ++ rest))) := by
          simp only [List.append_assoc, List.cons_append]
        _ = _ := parsed₁.trans (past₁.trans (parsed₂.trans (past₂.trans parsed₃)))
        _ = _ := by rw [Tree.names, noteNames_append, noteNames_append]
    · have conditionItems := c.postOrder_extend names (m.names ++ l.names)
      have middleItems := m.postOrder_extend (noteNames names c.names) l.names
      rw [noteNames_append] at conditionItems
      rw [Tree.names, noteNames_append, noteNames_append, Tree.postOrder, ← conditionItems, ← middleItems]
      exact (read₃.between fitsThird).between colonFits

/-! ## Values -/

def assignment (names : List String) (vars : List (Value N.Float)) (name : String) : Except String (Value N.Float) :=
  match vars[names.idxOf name]? with
  | some v => .ok v
  | none => .error ("variable '" ++ name ++ "' unbound")

theorem evalOps_append (names : List String) (vars : List (Value N.Float)) (first second : List (Op N)) :
    ∀ stack, evalOps names vars (first ++ second) stack =
      (evalOps names vars first stack).bind (evalOps names vars second) := by
  induction first with
  | nil => exact fun _ => rfl
  | cons op first ih =>
    intro stack
    simp only [List.cons_append, evalOps, bind]
    cases op.eval names vars stack with
    | error => rfl
    | ok stack => exact ih stack

theorem Tree.evalOps_postOrder {names : List String} (vars : List (Value N.Float)) {t : Tree N}
    (known : ∀ x ∈ t.names, x ∈ names) :
    ∀ stack, evalOps names vars (t.postOrder names.idxOf) stack =
      (t.value (assignment names vars)).map (· :: stack) := by
  induction t with
  | int | float | pi | e => exact fun _ => rfl
  | name x =>
    intro stack
    have listed : names[names.idxOf x]? = some x := List.getElem?_idxOf (known x List.mem_cons_self)
    simp only [Tree.postOrder, evalOps, Op.eval, Tree.value, assignment, List.getD_eq_getElem?_getD, listed]
    cases vars[names.idxOf x]? <;> rfl
  | call f operand ih | unary f operand ih =>
    intro stack
    rw [Tree.postOrder, evalOps_append, ih known, Tree.value]
    cases operand.value (assignment names vars) <;> rfl
  | binary op left right leftIH rightIH =>
    intro stack
    rw [Tree.names, List.forall_mem_append] at known
    rw [Tree.postOrder, evalOps_append, evalOps_append, leftIH known.1, Tree.value]
    cases left.value (assignment names vars) with
    | error => rfl
    | ok a =>
      simp only [Except.map, Except.bind, bind, rightIH known.2]
      cases right.value (assignment names vars) with
      | error => rfl
      | ok b =>
        simp only [Except.bind, evalOps, Op.eval, pop, bind]
        cases applyBinary op a b <;> rfl
  | cond condition middle last conditionIH middleIH lastIH =>
    intro stack
    rw [Tree.names, List.forall_mem_append, List.forall_mem_append] at known
    rw [Tree.postOrder, evalOps_append, evalOps_append, conditionIH known.1.1, Tree.value]
    cases condition.value (assignment names vars) with
    | error => rfl
    | ok a =>
      simp only [Except.map, Except.bind, bind, evalOps_append, middleIH known.1.2]
      cases middle.value (assignment names vars) with
      | error => rfl
      | ok b =>
        simp only [Except.map, lastIH known.2]
        cases last.value (assignment names vars) <;> rfl

theorem Tree.eval_postOrder (t : Tree N) (vars : List (Value N.Float)) :
    (⟨t.postOrder (noteNames [] t.names).idxOf, noteNames [] t.names⟩ : Expr N).eval vars =
      t.value (assignment (noteNames [] t.names) vars) := by
  rw [Expr.eval, t.evalOps_postOrder vars fun x used => mem_noteNames.mpr (.inr used)]
  cases t.value (assignment (noteNames [] t.names) vars) <;> rfl

theorem Renders.parse {t : Tree N} {outermost : Option (Op N)} {text : List Char} (renders : Renders t outermost text)
    (few : t.names.toFinset.card ≤ 65536) :
    Expr.parse text = .ok ⟨t.postOrder (noteNames [] t.names).idxOf, noteNames [] t.names⟩ := by
  obtain ⟨yard, parsed, read⟩ := renders.reads [] [] [] [] nofun Waits.nil
  have ordered : t.postOrder (tableIndex (noteNames [] t.names)) = t.postOrder (noteNames [] t.names).idxOf := by
    refine t.postOrder_congr fun x used => Nat.mod_eq_of_lt ?_
    have known : x ∈ noteNames [] t.names := mem_noteNames.mpr (.inr used)
    exact Nat.lt_of_lt_of_le (List.idxOf_lt_length_iff.mpr known) (length_noteNames t.names ▸ few)
  rw [ordered] at read
  rw [List.append_nil, parseFrom] at parsed
  simp only [Expr.parse, Reader.start, parsed, bind, Except.bind, read.finish]

/-- Compiling any text of a tree gives its post-order, and evaluating that gives
the tree's value or the first error in it. -/
theorem formula_follows_precedence (t : Tree N) (outermost : Option (Op N)) (text : List Char)
    (renders : Renders t outermost text) (few : t.names.toFinset.card ≤ 65536) :
    ∃ expr : Expr N, Expr.parse text = .ok expr ∧ expr.variableNames.Nodup ∧
      (∀ x, x ∈ expr.variableNames ↔ x ∈ t.names) ∧ expr.rpn = t.postOrder expr.variableNames.idxOf ∧
      ∀ vars, expr.eval vars = t.value (assignment expr.variableNames vars) := by
  refine ⟨_, renders.parse few, noteNames_nodup _ List.nodup_nil, fun x => ?_, rfl, t.eval_postOrder⟩
  rw [mem_noteNames, or_iff_right List.not_mem_nil]

theorem renders_digit (c : Char) (digit : c.isDigit = true) :
    Renders (N := N) (.int (.ofNat (digitsValue 10 [c]))) none [c] := by
  refine .int (.decimal (List.cons_ne_nil c []) ?_ ?_)
  · intro _ held
    rw [List.mem_singleton.mp held]
    exact digit
  · simp only [digitsValue, List.foldl_cons, List.foldl_nil, digitValue, digit, if_true]
    simp only [Char.isDigit, Bool.and_eq_true, decide_eq_true_eq, UInt32.le_iff_toNat_le, ge_iff_le] at digit
    have small : c.toNat ≤ 57 := digit.2
    show 10 * 0 + (c.toNat - 48) < 2 ^ 63
    omega

/-- `1+2*x`. -/
theorem formula_follows_precedence_product :
    ∃ expr : Expr plainNumbers,
      Expr.parse ['1', '+', '2', '*', 'x'] = .ok expr ∧ expr.variableNames.Nodup ∧
        (∀ x, x ∈ expr.variableNames ↔ x ∈ ["x"]) ∧
        expr.rpn = [.constI 1, .constI 2, .var (expr.variableNames.idxOf "x"), .binary .mul, .binary .add] ∧
        ∀ vars, expr.eval vars =
          (Tree.binary .add (.int 1) (.binary .mul (.int 2) (.name "x"))).value (assignment expr.variableNames vars) :=
  formula_follows_precedence (.binary .add (.int 1) (.binary .mul (.int 2) (.name "x"))) _ _
    (.binary (renders_digit '1' rfl) (.binary (renders_digit '2' rfl)
        (.name (show IsWord ['x'] from ⟨⟨'x', rfl, .inl rfl⟩, List.all_eq_true.mp rfl⟩) (by decide +kernel) (by decide) (by decide))
        nofun nofun)
      nofun (by rintro _ ⟨⟩; exact .inl (by decide)))
    (by decide)

end Telegenic.Genicam
