import Mathlib.Tactic

/-! How integers and floating-point numbers lie in a register's bytes, and
the bit fields of masked registers. -/

set_option autoImplicit false

namespace Telegenic.Genicam

inductive Endianness where
  | little
  | big
  deriving DecidableEq, Repr

inductive Sign where
  | signed
  | unsigned
  deriving DecidableEq, Repr

/-- `(value << 8) | u64::from(b)`. -/
def shiftIn (value : BitVec 64) (byte : UInt8) : BitVec 64 := (value <<< 8) ||| byte.toBitVec.setWidth 64

/-- The register bytes as one 64-bit number. -/
def loadU64 (bytes : List UInt8) : Endianness → BitVec 64
  | .big => bytes.foldl shiftIn 0
  | .little => bytes.reverse.foldl shiftIn 0

/-- `value.to_le_bytes()`. -/
def leBytes (value : BitVec 64) : List UInt8 :=
  (List.range 8).map fun place => UInt8.ofBitVec ((value >>> (8 * place)).setWidth 8)

def storeU64 (value : BitVec 64) (length : Nat) : Endianness → List UInt8
  | .little => (leBytes value).take length
  | .big => ((leBytes value).take length).reverse

/-- The bits a masked register's LSB and MSB name. Big-endian registers number
their bits from the most significant end. -/
def numberedBits (bits : Nat) : Option Nat → Option Nat → Endianness → Option (Nat × Nat)
  | none, none, _ => some (0, bits - 1)
  | lsb, msb, .little => some (lsb.getD 0, msb.getD (lsb.getD 0))
  | lsb, msb, .big =>
      let l := (lsb.or msb).getD 0
      let m := (msb.or lsb).getD 0
      -- checked_sub on both ends
      if l ≤ bits - 1 ∧ m ≤ bits - 1 then some (bits - 1 - l, bits - 1 - m) else none

/-- The `(lsb, msb)` bit positions, counted from the least significant bit of
the loaded value, that LSB and MSB select in a register of `bits` bits; none
when the range does not fit. -/
def bitRange (bits : Nat) (registerLsb registerMsb : Option Nat) (endianness : Endianness) : Option (Nat × Nat) :=
  match numberedBits bits registerLsb registerMsb endianness with
  | none => none
  | some (lsb, msb) => if lsb ≤ msb ∧ msb < bits then some (lsb, msb) else none

/-- Ones at the bits `lsb..=msb`. -/
def fieldMask (lsb msb : Nat) : BitVec 64 :=
  let width := msb - lsb + 1
  if 64 ≤ width then BitVec.allOnes 64 else ((1#64 <<< width) - 1) <<< lsb

/-- The `{:?}` text of an optional bit number. -/
def debugBit : Option Nat → String
  | none => "None"
  | some bit => s!"Some({bit})"

/-- A register of so many bytes holds no integer. -/
def lengthMessage (length : Nat) : String := s!"unsupported integer register length {length}"

def rangeMessage (registerLsb registerMsb : Option Nat) (length : Nat) : String :=
  let lsb := debugBit registerLsb
  let msb := debugBit registerMsb
  s!"bad bit range {lsb}..{msb} for {length} bytes"

/-- The field's bits as a number, sign-extended where the register is signed. -/
def fieldValue (value : BitVec 64) (sign : Sign) (lsb msb : Nat) : BitVec 64 :=
  let width := msb - lsb + 1
  let mask := fieldMask lsb msb
  let value := (value &&& mask) >>> lsb
  if sign = .signed ∧ width < 64 ∧ value &&& (1#64 <<< (width - 1)) ≠ 0 then
    value ||| (BitVec.allOnes 64 ^^^ (mask >>> lsb))
  else value

/-- Load the register bytes and extract the (optionally masked) integer. -/
def extractInt (bytes : List UInt8) (sign : Sign) (endianness : Endianness) (registerLsb registerMsb : Option Nat) :
    Except String Int64 :=
  let length := bytes.length
  if length = 0 ∨ 8 < length then .error (lengthMessage length)
  else
    match bitRange (8 * length) registerLsb registerMsb endianness with
    | none => .error (rangeMessage registerLsb registerMsb length)
    | some (lsb, msb) => .ok (Int64.ofBitVec (fieldValue (loadU64 bytes endianness) sign lsb msb))

/-- The register bytes with `v` in the (optionally masked) field. -/
def insertInt (current : List UInt8) (v : Int64) (endianness : Endianness) (registerLsb registerMsb : Option Nat) :
    Except String (List UInt8) :=
  let length := current.length
  if length = 0 ∨ 8 < length then .error (lengthMessage length)
  else
    match bitRange (8 * length) registerLsb registerMsb endianness with
    | none => .error (rangeMessage registerLsb registerMsb length)
    | some (lsb, msb) =>
        let mask := fieldMask lsb msb
        let value := (loadU64 current endianness &&& ~~~mask) ||| ((v.toBitVec <<< lsb) &&& mask)
        .ok (storeU64 value length endianness)

def encodeInt (v : Int64) (length : Nat) (endianness : Endianness) : Except String (List UInt8) :=
  if length = 0 ∨ 8 < length then .error (lengthMessage length)
  else .ok (storeU64 v.toBitVec length endianness)

/-! ## Lengths -/

theorem leBytes_length (value : BitVec 64) : (leBytes value).length = 8 := by
  rw [leBytes, List.length_map, List.length_range]

theorem storeU64_length (value : BitVec 64) {length : Nat} (fits : length ≤ 8) (endianness : Endianness) :
    (storeU64 value length endianness).length = length := by
  have taken : ((leBytes value).take length).length = length := by
    rw [List.length_take, leBytes_length, Nat.min_eq_left fits]
  cases endianness with
  | little => exact taken
  | big => rw [storeU64, List.length_reverse, taken]

theorem encodeInt_length {v : Int64} {length : Nat} {endianness : Endianness} {bytes : List UInt8}
    (encoded : encodeInt v length endianness = .ok bytes) : bytes.length = length := by
  unfold encodeInt at encoded
  split at encoded
  · nomatch encoded
  · rename_i sized
    cases encoded
    exact storeU64_length _ (by omega) endianness

theorem insertInt_length {current : List UInt8} {v : Int64} {endianness : Endianness} {lsb msb : Option Nat}
    {bytes : List UInt8} (inserted : insertInt current v endianness lsb msb = .ok bytes) :
    bytes.length = current.length := by
  simp only [insertInt] at inserted
  split at inserted
  · nomatch inserted
  · rename_i sized
    split at inserted
    · nomatch inserted
    · cases inserted
      exact storeU64_length _ (by omega) endianness

end Telegenic.Genicam
