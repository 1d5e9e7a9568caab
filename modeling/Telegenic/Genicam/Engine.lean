import Telegenic.Genicam.Node

/-! The evaluation engine that chases value links down to register reads and
writes. Evaluating a node evaluates the nodes it refers to; the functions here
take those nested evaluations as a parameter, and `calls` ties the knot with a
bound on the nesting. -/

set_option autoImplicit false

namespace Telegenic.Genicam

open Library

/-- Largest register a description may size from a device-read length. -/
def maxRegisterLength : Nat := 16 * 2 ^ 20

section Graph

variable {P : Platform} {n : Nat} {σ A : Type}

def nodeAt (id : Fin n) : Access P n σ (Node P n) := .read fun w => w.backing.description.node id

def nameOf (id : Fin n) : Access P n σ String := .read fun w => w.backing.description.name id

/-- Stop with an error about the node. -/
def refuse (error : String → GenicamError) (id : Fin n) : Access P n σ A := do
  .fail (.error (error (← nameOf id)))

/-- A formula's or a register's text error becomes an error of its node. -/
def orFormula (id : Fin n) : Except String A → Access P n σ A
  | .ok value => pure value
  | .error message => refuse (.formula · message) id

def enter (id : Fin n) : Access P n σ Unit := fun w =>
  if id ∈ w.visit then
    (.error (.error (.circular (w.backing.description.name id))), { w with visit := [] })
  else (.ok (), { w with visit := id :: w.visit })

def leave (w : World P n σ) : World P n σ := { w with visit := w.visit.tail }

/-- Run `body` and leave the node, whether it failed or not. -/
def leaving (body : Access P n σ A) : Access P n σ A := fun w => ((body w).1, leave (body w).2)

def visiting (id : Fin n) (body : Access P n σ A) : Access P n σ A := do
  enter id
  leaving body

def resolve : Link n → Access P n σ (Fin n)
  | .id id => pure id
  | .name name => .fail (.error (.dangling name))

/-- Set the literal a node's value is. -/
def setLiteral (id : Fin n) (literal : Direct P n) : Access P n σ Unit :=
  .modify fun w =>
    { w with backing := { w.backing with description := w.backing.description.setLiteral id literal } }

/-- An access to the port. -/
def onPort (access : σ → Except Control.CameraError A × σ) : Access P n σ A := fun w =>
  let (result, s) := access w.backing.port
  (result.mapError fun error => .error (.camera error), { w with backing := { w.backing with port := s } })

/-- The bytes a read of the register is answered with without the device. -/
def Backing.cached (backing : Backing P n σ) (id : Fin n) : Option (List UInt8) :=
  if backing.cachable id = .noCache then none else backing.cache id

/-- Keep what a read of the register fetched. -/
def Backing.remember (id : Fin n) (bytes : List UInt8) (backing : Backing P n σ) : Backing P n σ :=
  if backing.cachable id = .noCache then backing
  else { backing with cache := Function.update backing.cache id (some bytes) }

/-- The caches after a write of the register: its own follows its policy, then
those of its dependents are dropped. -/
def Backing.afterWrite (id : Fin n) (bytes : List UInt8) (backing : Backing P n σ) : Backing P n σ :=
  let own := match backing.cachable id with
    | .writeThrough => some bytes
    | .writeAround | .noCache => none
  let dropped := (backing.description.invalidates id).foldl (fun cache dep => Function.update cache dep none)
    (Function.update backing.cache id own)
  { backing with cache := dropped }

theorem foldl_update_none (deps : List (Fin n)) (id : Fin n) : ∀ (cache : Fin n → Option (List UInt8)),
    (deps.foldl (fun cache dep => Function.update cache dep none) cache) id =
      if id ∈ deps then none else cache id := by
  induction deps with
  | nil => exact fun cache => (if_neg List.not_mem_nil).symm
  | cons dep deps ih =>
    intro cache
    rw [List.foldl_cons, ih]
    by_cases listed : id ∈ deps
    · simp [listed]
    · by_cases same : id = dep
      · simp [same]
      · simp [listed, same]

theorem Backing.afterWrite_cache (backing : Backing P n σ) (written id : Fin n) (bytes : List UInt8) :
    (backing.afterWrite written bytes).cache id =
      if id ∈ backing.description.invalidates written then none
      else if id = written then (if backing.cachable id = .writeThrough then some bytes else none)
      else backing.cache id := by
  simp only [Backing.afterWrite, foldl_update_none]
  congr 1
  by_cases same : id = written
  · subst same
    rw [Function.update_self, if_pos rfl]
    cases backing.cachable id <;> rfl
  · rw [Function.update_of_ne same, if_neg same]

end Graph

/-! ## One node, given the nodes it refers to -/

/-- The evaluations a node may ask of the nodes it refers to. -/
structure Calls (P : Platform) (n : Nat) (σ : Type) where
  intValue : Fin n → Access P n σ Int64
  setIntValue : Fin n → Int64 → Access P n σ Unit
  floatValue : Fin n → Access P n σ P.Float
  setFloatValue : Fin n → P.Float → Access P n σ Unit

section Inner

variable {P : Platform} {n : Nat} {σ : Type} (port : PortIo σ) (calls : Calls P n σ)

/-- The entry the index node's current value selects. -/
def selected (ix : Indexed P n) : Access P n σ (Direct P n) := do
  let index ← resolve ix.index
  let place ← calls.intValue index
  pure (ix.pick place)

/-- A literal or link is the only kind of value that can be read. -/
def noValue {A : Type} : Access P n σ A := .fail (.error (.wrongType "<value reference>"))

def directInt : Direct P n → Access P n σ Int64
  | .litInt v => pure v
  | .litFloat v => pure (P.round v)
  | .link link => do
      let id ← resolve link
      calls.intValue id
  | .none | .litStr _ => noValue

def refInt : ValueRef P n → Access P n σ Int64
  | .direct direct => directInt calls direct
  | .indexed ix => do
      let entry ← selected calls ix
      directInt calls entry

def directFloat : Direct P n → Access P n σ P.Float
  | .litInt v => pure (P.ofInt v)
  | .litFloat v => pure v
  | .link link => do
      let id ← resolve link
      calls.floatValue id
  | .none | .litStr _ => noValue

def refFloat : ValueRef P n → Access P n σ P.Float
  | .direct direct => directFloat calls direct
  | .indexed ix => do
      let entry ← selected calls ix
      directFloat calls entry

/-- The node's value in the type it is read in. -/
def typedValue (target : Fin n) : Access P n σ (Value P.Float) := do
  if (← nodeAt target).isFloat then return .float (← calls.floatValue target)
  else return .int (← calls.intValue target)

/-- The value of a formula's variable: a built-in one, or the node the
description has for it. -/
def variableValue (id : Fin n) (vars : List (String × Link n)) (builtins : List (String × Value P.Float))
    (name : String) : Access P n σ (Value P.Float) :=
  match builtins.find? fun entry => entry.1 == name with
  | some (_, value) => pure value
  | none => do
      match ← (.read fun w => w.backing.description.variableLink vars name : Access P n σ _) with
      | none => refuse (.formula · s!"unbound variable '{name}'") id
      | some link =>
          let target ← resolve link
          typedValue calls target

def bindVariables (id : Fin n) (vars : List (String × Link n)) (builtins : List (String × Value P.Float)) :
    List String → Access P n σ (List (Value P.Float))
  | [] => pure []
  | name :: names => do
      let value ← variableValue calls id vars builtins name
      let values ← bindVariables id vars builtins names
      pure (value :: values)

/-- The formula is parsed each time; the source keeps the parsed expression
beside its text. -/
def evalFormula (id : Fin n) (formula : String) (vars : List (String × Link n))
    (builtins : List (String × Value P.Float)) : Access P n σ (Value P.Float) := do
  let expr ← orFormula id (P.parse formula)
  let values ← bindVariables calls id vars builtins (P.vars expr)
  orFormula id (P.eval expr values)

def chosenEntry : ValueRef P n → Access P n σ (Direct P n)
  | .indexed ix => selected calls ix
  | .direct value => pure value

def rawValue : Direct P n → Access P n σ (Value P.Float)
  | .link link => do
      let target ← resolve link
      typedValue calls target
  | other => .int <$> directInt calls other

/-- FROM direction: TO is the raw value, the result the user value. -/
def evalConverter (id : Fin n) (value : ValueRef P n) (formula : String) (vars : List (String × Link n)) :
    Access P n σ (Value P.Float) := do
  let entry ← chosenEntry calls value
  let raw ← rawValue calls entry
  evalFormula calls id formula vars [("TO", raw)]

def evalTo (id : Fin n) (formula : String) (vars : List (String × Link n)) (source : Value P.Float) :
    Access P n σ (Value P.Float) :=
  evalFormula calls id formula vars [("FROM", source)]

/-- A register's length in bytes, 4 when the description gives none. -/
def registerLength (id : Fin n) (length : ValueRef P n) : Access P n σ Nat :=
  if length.isNone then pure 4
  else do
    let value ← refInt calls length
    if 0 ≤ value.toInt ∧ value.toInt ≤ maxRegisterLength then pure value.toInt.toNat
    else refuse (.outOfRange · value 0 (Int64.ofNat maxRegisterLength)) id

/-- `address.wrapping_add` over the terms. -/
def sumTerms : Int64 → List (ValueRef P n) → Access P n σ Int64
  | address, [] => pure address
  | address, term :: terms => do
      let value ← refInt calls term
      sumTerms (address + value) terms

def registerAddress (id : Fin n) : Access P n σ (Nat × Nat) := do
  match ← nodeAt id with
  | .register common _ =>
      let address ← sumTerms calls 0 common.addressTerms
      let length ← registerLength calls id common.length
      pure (address.toBitVec.toNat, length)
  | _ => refuse .wrongType id

/-- Read the register from the device. -/
def registerFetch (id : Fin n) : Access P n σ (List UInt8) := do
  let (address, length) ← registerAddress calls id
  let bytes ← onPort (port.read address length)
  .modify fun w => { w with backing := w.backing.remember id bytes }
  pure bytes

def registerRead (id : Fin n) : Access P n σ (List UInt8) := do
  match ← nodeAt id with
  | .register common _ =>
      if common.access = .WO then refuse .access id
      else
        match ← (.read fun w => w.backing.cached id : Access P n σ _) with
        | some bytes => pure bytes
        | none => registerFetch port calls id
  | _ => refuse .wrongType id

def registerWrite (id : Fin n) (bytes : List UInt8) : Access P n σ Unit := do
  match ← nodeAt id with
  | .register common _ =>
      if common.access = .RO then refuse .access id
      else
        let (address, _) ← registerAddress calls id
        onPort (port.write address bytes)
        .modify fun w => { w with backing := w.backing.afterWrite id bytes }
  | _ => refuse .wrongType id

def extractFloat (bytes : List UInt8) (endianness : Endianness) : Except String P.Float :=
  match bytes.length with
  | 4 => .ok (P.ofSingle ((loadU64 bytes endianness).setWidth 32))
  | 8 => .ok (P.ofDouble (loadU64 bytes endianness))
  | other => .error s!"unsupported float register length {other}"

def encodeFloat (v : P.Float) (length : Nat) (endianness : Endianness) : Except String (List UInt8) :=
  match length with
  | 4 => .ok (storeU64 ((P.toSingle v).setWidth 64) 4 endianness)
  | 8 => .ok (storeU64 (P.toDouble v) 8 endianness)
  | other => .error s!"unsupported float register length {other}"

def intValueInner (id : Fin n) : Access P n σ Int64 := do
  match ← nodeAt id with
  | .integer value .. | .boolean value .. | .enumeration value .. => refInt calls value
  | .register _ (.int sign endianness lsb msb) =>
      let bytes ← registerRead port calls id
      orFormula id (extractInt bytes sign endianness lsb msb)
  | .converter value _ formulaFrom vars => Value.asI64 <$> evalConverter calls id value formulaFrom vars
  | .swissKnife formula vars => Value.asI64 <$> evalFormula calls id formula vars []
  | .float value .. => P.round <$> refFloat calls value
  | _ => refuse .wrongType id

def setRefInt (id : Fin n) (value : ValueRef P n) (v : Int64) : Access P n σ Unit :=
  match value with
  | .direct (.link link) => do
      let target ← resolve link
      calls.setIntValue target v
  | .direct (.litInt _) => setLiteral id (.litInt v)
  | .indexed ix => do
      match ← selected calls ix with
      | .link link =>
          let target ← resolve link
          calls.setIntValue target v
      | _ => refuse .access id
  | _ => refuse .access id

/-- A write through a link takes the type the target is written in. -/
def setTyped (link : Link n) (v : Value P.Float) : Access P n σ Unit := do
  let target ← resolve link
  if (← nodeAt target).isFloat then calls.setFloatValue target v.asF64
  else calls.setIntValue target v.asI64

def setRefValue (id : Fin n) (value : ValueRef P n) (v : Value P.Float) : Access P n σ Unit :=
  match value with
  | .direct (.link link) => setTyped calls link v
  | .indexed ix => do
      match ← selected calls ix with
      | .link link => setTyped calls link v
      | _ => refuse .access id
  | _ => refuse .access id

/-- What a write of `v` puts into the register. -/
def registerBytes (id : Fin n) (v : Int64) (length : Nat) (endianness : Endianness) (lsb msb : Option Nat) :
    Access P n σ (List UInt8) :=
  if lsb.isSome ∨ msb.isSome then do
    -- Masked field: read-modify-write the whole register.
    let current ← registerRead port calls id
    orFormula id (insertInt current v endianness lsb msb)
  else orFormula id (encodeInt v length endianness)

def setIntValueInner (id : Fin n) (v : Int64) : Access P n σ Unit := do
  match ← nodeAt id with
  | .integer value .. | .boolean value .. | .enumeration value .. | .command value .. => setRefInt calls id value v
  | .register common (.int _ endianness lsb msb) =>
      let length ← registerLength calls id common.length
      let bytes ← registerBytes port calls id v length endianness lsb msb
      registerWrite port calls id bytes
  | .converter value formulaTo _ vars =>
      let out ← evalTo calls id formulaTo vars (.int v)
      setRefValue calls id value out
  | _ => refuse .wrongType id

def floatValueInner (id : Fin n) : Access P n σ P.Float := do
  match ← nodeAt id with
  | .float value .. => refFloat calls value
  | .integer value .. => P.ofInt <$> refInt calls value
  | .register _ (.float endianness) =>
      let bytes ← registerRead port calls id
      orFormula id (extractFloat bytes endianness)
  | .converter value _ formulaFrom vars => Value.asF64 <$> evalConverter calls id value formulaFrom vars
  | .swissKnife formula vars => Value.asF64 <$> evalFormula calls id formula vars []
  | _ => refuse .wrongType id

def setRefFloat (id : Fin n) (value : ValueRef P n) (v : P.Float) : Access P n σ Unit :=
  match value with
  | .direct (.link link) => do
      let target ← resolve link
      calls.setFloatValue target v
  | .direct (.litFloat _) => setLiteral id (.litFloat v)
  | .indexed ix => do
      match ← selected calls ix with
      | .link link =>
          let target ← resolve link
          calls.setFloatValue target v
      | _ => refuse .access id
  | _ => refuse .access id

def setFloatValueInner (id : Fin n) (v : P.Float) : Access P n σ Unit := do
  match ← nodeAt id with
  | .float value .. => setRefFloat calls id value v
  | .integer .. => setIntValueInner port calls id (P.round v)
  | .register common (.float endianness) =>
      let length ← registerLength calls id common.length
      let bytes ← orFormula id (encodeFloat v length endianness)
      registerWrite port calls id bytes
  | .converter value formulaTo _ vars =>
      let out ← evalTo calls id formulaTo vars (.float v)
      setRefValue calls id value out
  | _ => refuse .wrongType id

end Inner

/-! ## Nested evaluation -/

section Nested

variable {P : Platform} {n : Nat} {σ : Type} (port : PortIo σ)

/-- Evaluations nested at most `room` deep. -/
def calls : Nat → Calls P n σ
  | 0 =>
    { intValue := fun _ => .fail .depth
      setIntValue := fun _ _ => .fail .depth
      floatValue := fun _ => .fail .depth
      setFloatValue := fun _ _ => .fail .depth }
  | room + 1 =>
    { intValue := fun id => visiting id (intValueInner port (calls room) id)
      setIntValue := fun id v => visiting id (setIntValueInner port (calls room) id v)
      floatValue := fun id => visiting id (floatValueInner port (calls room) id)
      setFloatValue := fun id v => visiting id (setFloatValueInner port (calls room) id v) }

/-- The text up to the first zero byte. -/
def Platform.registerText (P : Platform) (bytes : List UInt8) : String := P.lossyText (bytes.takeWhile (· ≠ 0))

/-- The text's bytes cut or padded with zeros to the length. -/
def textBytes (text : String) (length : Nat) : List UInt8 :=
  let bytes := text.toUTF8.toList.take length
  bytes ++ List.replicate (length - bytes.length) 0

def entryOf (id : Fin n) (v : Int64) : Access P n σ String := do
  match ← nodeAt id with
  | .enumeration _ entries =>
      match entries.find? fun entry => entry.2 == v with
      | some (name, _) => pure name
      | none => refuse (.noSuchEntry · s!"value {v}") id
  | _ => refuse .wrongType id

def stringValue : Nat → Fin n → Access P n σ String
  | 0, _ => .fail .depth
  | room + 1, id => do
      match ← nodeAt id with
      | .stringFeat (.direct (.litStr text)) => pure text
      | .stringFeat (.direct (.link link)) =>
          let target ← resolve link
          visiting id (stringValue room target)
      | .register _ .text => P.registerText <$> registerRead port (calls port room) id
      | .enumeration .. =>
          let v ← (calls port room).intValue id
          entryOf id v
      | _ => refuse .wrongType id

def setEnumEntry (nested : Calls P n σ) (id : Fin n) (entry : String) : Access P n σ Unit := do
  match ← nodeAt id with
  | .enumeration _ entries =>
      match entries.find? fun known => known.1 == entry with
      | some (_, v) => nested.setIntValue id v
      | none => refuse (.noSuchEntry · entry) id
  | _ => refuse .wrongType id

def setStringValue (text : String) : Nat → Fin n → Access P n σ Unit
  | 0, _ => .fail .depth
  | room + 1, id => do
      match ← nodeAt id with
      | .stringFeat (.direct (.litStr _)) => setLiteral id (.litStr text)
      | .stringFeat (.direct (.link link)) =>
          let target ← resolve link
          visiting id (setStringValue text room target)
      | .stringFeat _ => refuse .access id
      | .register common .text =>
          let length ← registerLength (calls port room) id common.length
          registerWrite port (calls port room) id (textBytes text length)
      | .enumeration .. => setEnumEntry (calls port room) id text
      | _ => refuse .wrongType id

end Nested

/-! ## Public calls -/

section Public

variable {P : Platform} {n : Nat} {σ : Type} (nested : Calls P n σ)

/-- A bound, or the type's own where the description gives none. -/
def boundOr {A : Type} (unbounded : A) (read : ValueRef P n → Access P n σ A) (bound : ValueRef P n) :
    Access P n σ A :=
  if bound.isNone then pure unbounded else read bound

def execute (id : Fin n) : Access P n σ Unit := do
  match ← nodeAt id with
  | .command value commandValue =>
      let v ← boundOr 1 (refInt nested) commandValue
      setRefInt nested id value v
  | _ => refuse .wrongType id

def intBounds (id : Fin n) : Access P n σ (Int64 × Int64) := do
  match ← nodeAt id with
  | .integer _ min max _ =>
      let lo ← boundOr Int64.minValue (refInt nested) min
      let hi ← boundOr Int64.maxValue (refInt nested) max
      pure (lo, hi)
  | .register _ (.int ..) => pure (Int64.minValue, Int64.maxValue)
  | _ => refuse .wrongType id

def intIncrement (id : Fin n) : Access P n σ Int64 := do
  match ← nodeAt id with
  | .integer _ _ _ inc => boundOr 1 (refInt nested) inc
  | _ => refuse .wrongType id

def floatBounds (id : Fin n) : Access P n σ (P.Float × P.Float) := do
  match ← nodeAt id with
  | .float _ min max =>
      let lo ← boundOr P.lowest (refFloat nested) min
      let hi ← boundOr P.highest (refFloat nested) max
      pure (lo, hi)
  | _ => refuse .wrongType id

def boolValue (id : Fin n) : Access P n σ Bool := do
  match ← nodeAt id with
  | .boolean value onValue _ => (· == onValue) <$> refInt nested value
  | _ => (· != 0) <$> nested.intValue id

def setBoolValue (id : Fin n) (v : Bool) : Access P n σ Unit := do
  match ← nodeAt id with
  | .boolean _ onValue offValue => nested.setIntValue id (if v then onValue else offValue)
  | _ => nested.setIntValue id (if v then 1 else 0)

def enumEntries (id : Fin n) : Access P n σ (List String) := do
  match ← nodeAt id with
  | .enumeration _ entries => pure (entries.map (·.1))
  | _ => refuse .wrongType id

/-- The entry an indexed value selects when its index is a constant, else its
default. -/
def Description.staticEntry (description : Description P n) : ValueRef P n → Direct P n
  | .direct direct => direct
  | .indexed ix =>
      match ix.index with
      | .id index =>
          match description.node index with
          | .integer (.direct (.litInt place)) .. => ix.pick place
          | _ => ix.default
      | .name _ => ix.default

/-- The access mode of the node a value chain ends at; a chain that loops back
on itself is read-only. -/
def Description.accessModeFrom (description : Description P n) : Nat → Fin n → AccessMode
  | 0, _ => .RO
  | steps + 1, id =>
      match description.node id with
      | .register common _ => common.access
      | .swissKnife .. => .RO
      | .integer value .. | .float value .. | .boolean value .. | .enumeration value .. | .converter value .. =>
          match description.staticEntry value with
          | .link (.id next) => description.accessModeFrom steps next
          | .litInt _ | .litFloat _ => .RW
          | _ => .RO
      | .command .. => .WO
      | _ => .RO

def accessMode (id : Fin n) : Access P n σ AccessMode :=
  .read fun w => w.backing.description.accessModeFrom (n + 1) id

def invalidateCaches : Access P n σ Unit :=
  .modify fun w => { w with backing := { w.backing with cache := fun _ => none } }

/-- A public call with its arguments. -/
inductive Call (P : Platform) (n : Nat) where
  | intValue (id : Fin n)
  | setIntValue (id : Fin n) (v : Int64)
  | floatValue (id : Fin n)
  | setFloatValue (id : Fin n) (v : P.Float)
  | stringValue (id : Fin n)
  | setStringValue (id : Fin n) (text : String)
  | boolValue (id : Fin n)
  | setBoolValue (id : Fin n) (v : Bool)
  | enumEntries (id : Fin n)
  | setEnumEntry (id : Fin n) (entry : String)
  | execute (id : Fin n)
  | intBounds (id : Fin n)
  | intIncrement (id : Fin n)
  | floatBounds (id : Fin n)
  | accessMode (id : Fin n)
  | invalidateCaches

/-- What a public call returns. -/
inductive Reply (P : Platform) where
  | int (v : Int64)
  | float (v : P.Float)
  | text (text : String)
  | bool (v : Bool)
  | entries (names : List String)
  | intBounds (bounds : Int64 × Int64)
  | floatBounds (bounds : P.Float × P.Float)
  | access (mode : AccessMode)
  | done

/-- The call, with evaluations nested at most `room` deep. -/
def performWithin (port : PortIo σ) (room : Nat) : Call P n → Access P n σ (Reply P)
  | .intValue id => .int <$> (calls port room).intValue id
  | .setIntValue id v => (fun _ => .done) <$> (calls port room).setIntValue id v
  | .floatValue id => .float <$> (calls port room).floatValue id
  | .setFloatValue id v => (fun _ => .done) <$> (calls port room).setFloatValue id v
  | .stringValue id => .text <$> stringValue port room id
  | .setStringValue id text => (fun _ => .done) <$> setStringValue port text room id
  | .boolValue id => .bool <$> boolValue (calls port room) id
  | .setBoolValue id v => (fun _ => .done) <$> setBoolValue (calls port room) id v
  | .enumEntries id => .entries <$> enumEntries id
  | .setEnumEntry id entry => (fun _ => .done) <$> setEnumEntry (calls port room) id entry
  | .execute id => (fun _ => .done) <$> execute (calls port room) id
  | .intBounds id => .intBounds <$> intBounds (calls port room) id
  | .intIncrement id => .int <$> intIncrement (calls port room) id
  | .floatBounds id => .floatBounds <$> floatBounds (calls port room) id
  | .accessMode id => .access <$> accessMode id
  | .invalidateCaches => (fun _ => .done) <$> invalidateCaches

/-- The call with the room every graph of `n` nodes can do with. -/
def perform (port : PortIo σ) (call : Call P n) : Access P n σ (Reply P) := performWithin port (n + 2) call

theorem perform_intValue (port : PortIo σ) (id : Fin n) (w : World P n σ) :
    perform port (.intValue id) w =
      ((visiting id (intValueInner port (calls port (n + 1)) id) w).1.map .int,
        (visiting id (intValueInner port (calls port (n + 1)) id) w).2) :=
  Stateful.map_run ..

theorem perform_setIntValue (port : PortIo σ) (id : Fin n) (v : Int64) (w : World P n σ) :
    perform port (.setIntValue id v) w =
      ((visiting id (setIntValueInner port (calls port (n + 1)) id v) w).1.map fun _ => .done,
        (visiting id (setIntValueInner port (calls port (n + 1)) id v) w).2) :=
  Stateful.map_run ..

theorem perform_floatValue (port : PortIo σ) (id : Fin n) (w : World P n σ) :
    perform port (.floatValue id) w =
      ((visiting id (floatValueInner port (calls port (n + 1)) id) w).1.map .float,
        (visiting id (floatValueInner port (calls port (n + 1)) id) w).2) :=
  Stateful.map_run ..

theorem perform_setFloatValue (port : PortIo σ) (id : Fin n) (v : P.Float) (w : World P n σ) :
    perform port (.setFloatValue id v) w =
      ((visiting id (setFloatValueInner port (calls port (n + 1)) id v) w).1.map fun _ => .done,
        (visiting id (setFloatValueInner port (calls port (n + 1)) id v) w).2) :=
  Stateful.map_run ..

end Public

end Telegenic.Genicam
