import Telegenic.Control.Runner
import Telegenic.Genicam.Registers
import Telegenic.Library.Stateful

/-! The GenICam node graph: typed nodes that refer to each other by links, the
device port their registers lie behind, and the state calls on the graph act
on. A graph has a fixed number of nodes and a node is named by its place, so
that every link that is resolved leads to a node. -/

set_option autoImplicit false

namespace Telegenic.Genicam

open Library

/-- What a formula computes with. -/
inductive Value (Float : Type) where
  | int (v : Int64)
  | float (v : Float)
  deriving DecidableEq, Repr

/-- The floating-point numbers and the formula language the graph is evaluated
over. -/
structure Platform where
  Float : Type
  Expr : Type
  /-- `v as f64`. -/
  ofInt : Int64 → Float
  /-- `v.round() as i64`. -/
  round : Float → Int64
  /-- `f64::from(f32::from_bits(raw))` and `(v as f32).to_bits()`. -/
  ofSingle : BitVec 32 → Float
  toSingle : Float → BitVec 32
  /-- `f64::from_bits(raw)` and `v.to_bits()`. -/
  ofDouble : BitVec 64 → Float
  toDouble : Float → BitVec 64
  /-- `f64::MIN` and `f64::MAX`. -/
  lowest : Float
  highest : Float
  /-- `String::from_utf8_lossy`. -/
  lossyText : List UInt8 → String
  parse : String → Except String Expr
  vars : Expr → List String
  eval : Expr → List (Value Float) → Except String (Value Float)

variable (P : Platform) (n : Nat)

/-- A reference to another node; a name is one the description does not have. -/
inductive Link where
  | name (text : String)
  | id (node : Fin n)
  deriving DecidableEq, Repr

/-- A value given in place or by a link. -/
inductive Direct where
  | none
  | litInt (v : Int64)
  | litFloat (v : P.Float)
  | litStr (text : String)
  | link (link : Link n)

/-- A value chosen by the index node: the entry with its value, else the
default. -/
structure Indexed where
  index : Link n
  entries : List (Int64 × Direct P n)
  default : Direct P n

/-- The entries of an indexed value are never indexed themselves: the XML
builder makes them from texts and links only. -/
inductive ValueRef where
  | direct (direct : Direct P n)
  | indexed (indexed : Indexed P n)

inductive AccessMode where
  | RO
  | WO
  | RW
  deriving DecidableEq, Repr

inductive Cachable where
  | noCache
  | writeThrough
  | writeAround
  deriving DecidableEq, Repr

structure RegisterCommon where
  /-- Summed to form the register address. -/
  addressTerms : List (ValueRef P n)
  length : ValueRef P n
  access : AccessMode

inductive RegKind where
  | raw
  | int (sign : Sign) (endianness : Endianness) (lsb msb : Option Nat)
  | float (endianness : Endianness)
  | text
  deriving DecidableEq, Repr

inductive Node where
  | category (features : List (Link n))
  | integer (value min max inc : ValueRef P n)
  | float (value min max : ValueRef P n)
  | boolean (value : ValueRef P n) (onValue offValue : Int64)
  | stringFeat (value : ValueRef P n)
  | enumeration (value : ValueRef P n) (entries : List (String × Int64))
  | command (value commandValue : ValueRef P n)
  | register (common : RegisterCommon P n) (kind : RegKind)
  | converter (value : ValueRef P n) (formulaTo formulaFrom : String) (vars : List (String × Link n))
  | swissKnife (formula : String) (vars : List (String × Link n))
  | port

inductive GenicamError where
  | wrongType (name : String)
  | access (name : String)
  | dangling (name : String)
  | circular (name : String)
  | formula (name message : String)
  | noSuchEntry (name entry : String)
  | outOfRange (name : String) (value min max : Int64)
  | camera (error : Control.CameraError)
  deriving DecidableEq

/-- What the XML says, with the values of literals as calls have set them. -/
structure Description where
  name : Fin n → String
  node : Fin n → Node P n
  byName : String → Option (Fin n)
  /-- Writing the register drops the caches of the listed nodes. -/
  invalidates : Fin n → List (Fin n)

variable {P n}

def Indexed.pick (ix : Indexed P n) (index : Int64) : Direct P n :=
  match ix.entries.find? fun entry => entry.1 == index with
  | some (_, entry) => entry
  | none => ix.default

def ValueRef.isNone : ValueRef P n → Bool
  | .direct .none => true
  | _ => false

def Node.isRegister : Node P n → Bool
  | .register .. => true
  | _ => false

/-- Float features and float registers are read and written as floats, all
other nodes as integers. -/
def Node.isFloat : Node P n → Bool
  | .float .. | .register _ (.float _) => true
  | _ => false

def Value.asI64 : Value P.Float → Int64
  | .int v => v
  | .float v => P.round v

def Value.asF64 : Value P.Float → P.Float
  | .int v => P.ofInt v
  | .float v => v

/-- A value given in place. -/
def Direct.isLiteral : Direct P n → Bool
  | .litInt _ | .litFloat _ | .litStr _ => true
  | .none | .link _ => false

/-- What a feature's value is; a write to the feature goes there. -/
def Node.value? : Node P n → Option (ValueRef P n)
  | .integer value .. | .float value .. | .boolean value .. => some value
  | .stringFeat value | .enumeration value _ | .command value _ | .converter value .. => some value
  | .category _ | .register .. | .swissKnife .. | .port => none

/-- A literal value is a writable dummy in the graph. -/
def Node.setLiteral (literal : Direct P n) : Node P n → Node P n
  | .integer _ min max inc => .integer (.direct literal) min max inc
  | .float _ min max => .float (.direct literal) min max
  | .boolean _ onValue offValue => .boolean (.direct literal) onValue offValue
  | .stringFeat _ => .stringFeat (.direct literal)
  | .enumeration _ entries => .enumeration (.direct literal) entries
  | .command _ commandValue => .command (.direct literal) commandValue
  | other => other

def Description.setLiteral (description : Description P n) (id : Fin n) (literal : Direct P n) : Description P n :=
  { description with node := Function.update description.node id ((description.node id).setLiteral literal) }

/-- The link a formula's variable stands for. GenICam also allows referencing
nodes directly by name. -/
def Description.variableLink (description : Description P n) (vars : List (String × Link n)) (name : String) :
    Option (Link n) :=
  match vars.find? fun entry => entry.1 == name with
  | some (_, link) => some link
  | none => (description.byName name).map .id

/-! ## The port and the state -/

/-- Device memory access. A read fills a buffer of the length asked for. -/
structure PortIo (σ : Type) where
  read : (address length : Nat) → σ → Except Control.CameraError (List UInt8) × σ
  write : (address : Nat) → (data : List UInt8) → σ → Except Control.CameraError Unit × σ
  read_length : ∀ address length s bytes s', read address length s = (.ok bytes, s') → bytes.length = length

/-- Everything a call acts on but the visit stack. The cache policy and the
cached bytes are those of the register nodes. -/
structure Backing (P : Platform) (n : Nat) (σ : Type) where
  description : Description P n
  cachable : Fin n → Cachable
  cache : Fin n → Option (List UInt8)
  port : σ

@[ext]
structure World (P : Platform) (n : Nat) (σ : Type) where
  backing : Backing P n σ
  /-- The nodes under evaluation, the innermost first. -/
  visit : List (Fin n)

/-- What stops a call: an error, or node evaluations nested deeper than the
evaluation was given room for. -/
inductive Stop where
  | error (error : GenicamError)
  | depth
  deriving DecidableEq

/-- A call on the graph. -/
abbrev Access (P : Platform) (n : Nat) (σ A : Type) : Type := Stateful (World P n σ) Stop A

end Telegenic.Genicam
