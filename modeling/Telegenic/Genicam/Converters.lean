import Telegenic.Genicam.ChainCalls
import Telegenic.Genicam.Formulas

/-! Converters over the formula evaluator: what a value becomes on its way from
a register and back. -/

set_option autoImplicit false

namespace Telegenic.Genicam

open Library

/-! ## Exact numbers -/

theorem floor_add_half (z : Int) : ((z : ℚ) + 1 / 2).floor = z := by
  show ⌊(z : ℚ) + 1 / 2⌋ = z
  rw [Int.floor_eq_iff]
  constructor <;> norm_num

theorem roundHalfAway_intCast (z : Int) : roundHalfAway z = z := by
  unfold roundHalfAway
  split
  · exact floor_add_half z
  · rw [← Int.cast_neg, floor_add_half, Int.neg_neg]

theorem saturate_toInt (v : Int64) : saturate v.toInt = v := by
  have low : ¬ v.toInt < -2 ^ 63 := Int.not_lt.mpr v.le_toInt
  have high : ¬ 2 ^ 63 ≤ v.toInt := Int.not_le.mpr v.toInt_lt
  rw [saturate, if_neg low, if_neg high, Int64.ofInt_toInt]

theorem toInt_div_mul {r k : Int64} (positive : 1 ≤ k.toInt) (divides : k.toInt ∣ r.toInt) :
    (r / k).toInt * k.toInt = r.toInt := by
  have notMinusOne : k ≠ -1 := by
    rintro rfl
    exact absurd positive (by decide)
  rw [Int64.toInt_div_of_ne_right r k notMinusOne, Int.tdiv_mul_cancel divides]

/-! ## Formulas and converters -/

section Formulas

variable {N : Numbers} {storage : FloatStorage N.Float} {lossyText : List UInt8 → String} {n : Nat} {σ : Type}

variable (nested : Calls (N.platform storage lossyText) n σ) (id : Fin n) (w : World (N.platform storage lossyText) n σ)

theorem evalFormula_rendered {formula : String} {t : Tree N} {outermost : Option (Op N)}
    (renders : Renders t outermost formula.toList) (few : t.names.toFinset.card ≤ 65536) (vars : List (String × Link n))
    (builtins : List (String × Value N.Float)) :
    evalFormula nested id formula vars builtins w =
      (bindVariables nested id vars builtins (noteNames [] t.names) >>= fun values =>
        orFormula id (t.value (assignment (noteNames [] t.names) values))) w := by
  have parsed : (N.platform storage lossyText).parse formula = _ := renders.parse few
  have evaluated : ∀ values, (N.platform storage lossyText).eval
      ⟨t.postOrder (noteNames [] t.names).idxOf, noteNames [] t.names⟩ values =
        t.value (assignment (noteNames [] t.names) values) := t.eval_postOrder
  simp only [← evaluated]
  unfold evalFormula
  rw [parsed]
  rfl

theorem evalFormula_builtin {formula name : String} {op : BinaryOp} {k : Int64} {outermost : Option (Op N)}
    (renders : Renders (.binary op (.name name) (.int k)) outermost formula.toList) (vars : List (String × Link n))
    (value : Value N.Float) :
    evalFormula nested id formula vars [(name, value)] w = orFormula id (applyBinary op value (.int k)) w := by
  have few : (Tree.binary (N := N) op (.name name) (.int k)).names.toFinset.card ≤ 65536 := by simp [Tree.names]
  have bound : bindVariables nested id vars [(name, value)] [name] w = (.ok [value], w) := by
    simp only [bindVariables, variableValue, List.find?_cons_of_pos, beq_self_eq_true, Stateful.bind_apply,
      Stateful.pure_apply]
  have names : noteNames [] (Tree.binary (N := N) op (.name name) (.int k)).names = [name] := by
    simp [Tree.names, noteNames, noteName]
  have result : (Tree.binary (N := N) op (.name name) (.int k)).value (assignment [name] [value]) =
      applyBinary op value (.int k) := by
    simp [Tree.value, assignment, bind, Except.bind]
  rw [evalFormula_rendered nested id w renders few, names, Stateful.bind_apply, bound]
  simp only [result]

end Formulas

section Converter

variable {P : Platform} {n : Nat} {σ : Type} {nested : Calls P n σ} {id : Fin n} {w : World P n σ}

theorem typedValue_int {target : Fin n} (whole : (w.backing.description.node target).isFloat = false) :
    typedValue nested target w = (Value.int <$> nested.intValue target) w := by
  simp only [typedValue, nodeAt, Stateful.bind_apply, Stateful.read, whole]
  rfl

theorem floatValueInner_converter {port : PortIo σ} {target : Fin n} {formulaTo formulaFrom : String}
    {vars : List (String × Link n)}
    (found : w.backing.description.node id = .converter (.direct (.link (.id target))) formulaTo formulaFrom vars) :
    floatValueInner port nested id w =
      (Value.asF64 <$> do
        let raw ← typedValue nested target
        evalFormula nested id formulaFrom vars [("TO", raw)]) w := by
  simp only [floatValueInner, nodeAt, Stateful.bind_apply, Stateful.read, found]
  rfl

theorem setFloatValueInner_converter {port : PortIo σ} {target : Fin n} {formulaTo formulaFrom : String}
    {vars : List (String × Link n)} {v : P.Float}
    (found : w.backing.description.node id = .converter (.direct (.link (.id target))) formulaTo formulaFrom vars) :
    setFloatValueInner port nested id v w =
      (do
        let out ← evalFormula nested id formulaTo vars [("FROM", .float v)]
        setTyped nested (.id target) out) w := by
  simp only [setFloatValueInner, nodeAt, Stateful.bind_apply, Stateful.read, found]
  rfl

theorem setTyped_int {target : Fin n} {v : Value P.Float}
    (whole : (w.backing.description.node target).isFloat = false) :
    setTyped nested (.id target) v w = nested.setIntValue target v.asI64 w := by
  simp only [setTyped, resolve, nodeAt, Stateful.bind_apply, Stateful.pure_apply, Stateful.read, whole]
  rfl

end Converter

/-! ## A scaled register -/

section Scaled

variable {pi e : Rat} {powf : Rat → Rat → Rat} {call : FloatFunction → Rat → Rat} {storage : FloatStorage Rat}
  {lossyText : List UInt8 → String} {n : Nat}

/-- A Converter with `FROM * k` towards the node it converts and `TO / k` from
there. -/
structure ScaleConverter (description : Description ((rationals pi e powf call).platform storage lossyText) n)
    (id target : Fin n) (k : Int64) where
  formulaTo : String
  formulaFrom : String
  vars : List (String × Link n)
  found : description.node id = .converter (.direct (.link (.id target))) formulaTo formulaFrom vars
  outermostTo : Option (Op (rationals pi e powf call))
  outermostFrom : Option (Op (rationals pi e powf call))
  multiplies : Renders (.binary .mul (.name "FROM") (.int k)) outermostTo formulaTo.toList
  divides : Renders (.binary .div (.name "TO") (.int k)) outermostFrom formulaFrom.toList

variable {description : Description ((rationals pi e powf call).platform storage lossyText) n} {id last : Fin n} {k : Int64}
  (converter : ScaleConverter description id last k) (register : IntRegister description last) {size : Nat}
  {w : World ((rationals pi e powf call).platform storage lossyText) n (List UInt8)}

include register in
theorem IntRegister.isFloat_eq_false (known : w.backing.description = description) :
    (w.backing.description.node last).isFloat = false := by
  rw [known, register.found]
  rfl

include converter in
theorem ScaleConverter.unvisited (rests : register.Rests size w) : id ∉ w.visit ∧ last ∉ id :: w.visit := by
  rw [rests.visit, List.mem_singleton]
  refine ⟨List.not_mem_nil, ?_⟩
  rintro rfl
  nomatch converter.found.symm.trans register.found

include converter in
theorem ScaleConverter.floatValue (rests : register.Rests size w) {r : Int64} (reply : register.reply w.backing = .ok r)
    (positive : 1 ≤ k.toInt) :
    perform mockPort (.floatValue id) w =
      (.ok (.float ((r / k).toInt : Rat)), { w with backing := w.backing.warmed last register.address register.length }) := by
  obtain ⟨fresh, below⟩ := converter.unvisited register rests
  have known := rests.sound.description
  have nonzero : k ≠ 0 := by
    rintro rfl
    exact absurd positive (by decide)
  have found := (congrFun (congrArg Description.node known) id).trans converter.found
  have whole := register.isFloat_eq_false known
  have raw := register.intValue { w with visit := id :: w.visit } known n below
  have quotient : applyBinary (N := rationals pi e powf call) .div (.int r) (.int k) = .ok (.int (r / k)) :=
    if_neg nonzero
  rw [perform_floatValue, visiting_apply fresh,
    floatValueInner_converter (w := { w with visit := id :: w.visit }) found, Stateful.map_run,
    Stateful.bind_apply, typedValue_int (w := { w with visit := id :: w.visit }) whole, Stateful.map_run, raw, reply]
  simp only [Except.map, evalFormula_builtin _ id _ converter.divides, quotient]
  rfl

include converter in
theorem ScaleConverter.setFloatValue (rests : register.Rests size w) {r : Int64} {x : Rat} (product : x * k.toInt = r.toInt) :
    perform mockPort (.setFloatValue id x) w =
      ((register.assign r w.backing).1.map fun _ => .done, { w with backing := (register.assign r w.backing).2 }) := by
  obtain ⟨fresh, below⟩ := converter.unvisited register rests
  have known := rests.sound.description
  have found := (congrFun (congrArg Description.node known) id).trans converter.found
  have whole := register.isFloat_eq_false known
  have scaled : applyBinary (N := rationals pi e powf call) .mul (.float x) (.int k) = .ok (.float (x * k.toInt)) := rfl
  have rounded : saturate (roundHalfAway (x * k.toInt)) = r := by rw [product, roundHalfAway_intCast, saturate_toInt]
  have written := register.setIntValue { w with visit := id :: w.visit } known n below r
  rw [perform_setFloatValue, visiting_apply fresh,
    setFloatValueInner_converter (w := { w with visit := id :: w.visit }) found, Stateful.bind_apply,
    evalFormula_builtin _ id _ converter.multiplies, scaled]
  simp only [orFormula, Stateful.pure_apply]
  rw [setTyped_int (w := { w with visit := id :: w.visit }) whole, Value.asI64]
  simp only [rounded]
  rw [written]
  rfl

end Scaled

def tenfoldGraph : Description (plainNumbers.platform plainStorage fun _ => "") 2 where
  name id := ["Gain", "GainReg"].getD id ""
  node id :=
    [.converter (.direct (.link (.id 1))) "FROM * 10" "TO / 10" [],
      .register { addressTerms := [.direct (.litInt 0)], length := .direct (.litInt 4), access := .RW }
        (.int .unsigned .little none none)].getD id .port
  byName name := ["Gain", "GainReg"].findFinIdx? (· == name)
  invalidates _ := []

theorem renders_ten : Renders (N := plainNumbers) (.int 10) none [' ', '1', '0'] :=
  .blankBefore rfl (.int (show IntText (.ofNat (digitsValue 10 ['1', '0'])) _ from
    .decimal (by decide) (List.all_eq_true.mp rfl) (by decide)))

def tenfold : ScaleConverter tenfoldGraph 0 1 10 where
  formulaTo := "FROM * 10"
  formulaFrom := "TO / 10"
  vars := []
  found := rfl
  outermostTo := some (.binary .mul)
  outermostFrom := some (.binary .div)
  multiplies := .binary (.blankAfter (c := ' ') rfl (.name (show IsWord ['F', 'R', 'O', 'M'] from
    ⟨⟨'F', rfl, .inl rfl⟩, List.all_eq_true.mp rfl⟩) (by decide +kernel) (by decide) (by decide))) renders_ten nofun nofun
  divides := .binary (.blankAfter (c := ' ') rfl (.name (show IsWord ['T', 'O'] from
    ⟨⟨'T', rfl, .inl rfl⟩, List.all_eq_true.mp rfl⟩) (by decide +kernel) (by decide) (by decide))) renders_ten nofun nofun

def tenfoldRegister : IntRegister tenfoldGraph 1 where
  common := { addressTerms := [.direct (.litInt 0)], length := .direct (.litInt 4), access := .RW }
  sign := .unsigned
  endianness := .little
  lsb := none
  msb := none
  address := 0
  length := 4
  found := rfl
  plain := ⟨fun term listed => by rw [List.mem_singleton.mp listed]; rfl, rfl⟩
  access := rfl
  placed := rfl

theorem tenfoldRegister_rests (memory : List UInt8) :
    tenfoldRegister.Rests memory.length (tenfoldGraph.build (fun _ => .writeThrough) memory) :=
  .build _ _

end Telegenic.Genicam
