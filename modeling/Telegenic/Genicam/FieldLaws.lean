import Telegenic.Genicam.Fields

/-! The laws of bit fields: which selections there are, that what is inserted
is extracted and nothing else changes, and that no operation on the way leaves
its range. -/

set_option autoImplicit false

namespace Telegenic.Genicam

open Library

/-! ## Selections -/

/-- The bit numbers that LSB and MSB select. One alone selects a single bit, but
a lone MSB of a little-endian register selects from bit 0, and none selects the
whole register. -/
def selection (bits : Nat) : Option Nat → Option Nat → Endianness → Nat × Nat
  | some lsb, some msb, _ => (lsb, msb)
  | some lsb, none, _ => (lsb, lsb)
  | none, some msb, .little => (0, msb)
  | none, some msb, .big => (msb, msb)
  | none, none, .little => (0, bits - 1)
  | none, none, .big => (bits - 1, 0)

def flipped (bits : Nat) : Endianness → Nat → Int
  | .little, bit => bit
  | .big, bit => bits - 1 - bit

/-- LSB and MSB select the bits `low..=high` of a register of `length` bytes. -/
structure Selects (length : Nat) (endianness : Endianness) (registerLsb registerMsb : Option Nat) (low high : Nat) :
    Prop where
  lsb : (low : Int) = flipped (8 * length) endianness (selection (8 * length) registerLsb registerMsb endianness).1
  msb : (high : Int) = flipped (8 * length) endianness (selection (8 * length) registerLsb registerMsb endianness).2
  ordered : low ≤ high
  inside : high < 8 * length

section Selections

variable {length low high : Nat} {registerLsb registerMsb : Option Nat} {endianness : Endianness}

theorem checkedSubs_iff {bits l m : Nat} (positive : 1 ≤ bits) :
    (if l ≤ bits - 1 ∧ m ≤ bits - 1 then some (bits - 1 - l, bits - 1 - m) else none) = some (low, high) ↔
      (low : Int) = bits - 1 - l ∧ (high : Int) = bits - 1 - m := by
  by_cases inside : l ≤ bits - 1 ∧ m ≤ bits - 1
  · rw [if_pos inside, Option.some.injEq, Prod.mk.injEq]
    omega
  · rw [if_neg inside]
    exact iff_of_false nofun (by omega)

theorem numberedBits_iff (positive : 1 ≤ length) :
    numberedBits (8 * length) registerLsb registerMsb endianness = some (low, high) ↔
      (low : Int) = flipped (8 * length) endianness (selection (8 * length) registerLsb registerMsb endianness).1 ∧
      (high : Int) = flipped (8 * length) endianness (selection (8 * length) registerLsb registerMsb endianness).2 := by
  cases endianness with
  | little =>
    cases registerLsb <;> cases registerMsb <;>
      simp only [numberedBits, selection, flipped, Option.getD_none, Option.getD_some, Option.some.injEq, Prod.mk.injEq] <;>
      omega
  | big =>
    cases registerLsb with
    | none =>
      cases registerMsb with
      | none =>
        simp only [numberedBits, selection, flipped, Option.some.injEq, Prod.mk.injEq]
        omega
      | some msb => exact checkedSubs_iff (by omega)
    | some lsb => cases registerMsb <;> exact checkedSubs_iff (by omega)

theorem bitRange_iff (positive : 1 ≤ length) :
    bitRange (8 * length) registerLsb registerMsb endianness = some (low, high) ↔
      Selects length endianness registerLsb registerMsb low high := by
  constructor
  · intro ranged
    obtain ⟨ordered, inside⟩ := bitRange_bounds ranged
    have numbered : numberedBits (8 * length) registerLsb registerMsb endianness = some (low, high) := by
      unfold bitRange at ranged
      split at ranged
      · nomatch ranged
      · split at ranged
        · cases ranged
          assumption
        · nomatch ranged
    obtain ⟨lsb, msb⟩ := (numberedBits_iff positive).mp numbered
    exact ⟨lsb, msb, ordered, inside⟩
  · intro selects
    have numbered := (numberedBits_iff positive).mpr ⟨selects.lsb, selects.msb⟩
    rw [bitRange, numbered]
    exact if_pos ⟨selects.ordered, selects.inside⟩

end Selections

/-! ## Inserting and extracting -/

section Laws

variable {current bytes other : List UInt8} {v : Int64} {sign : Sign} {endianness : Endianness}
  {registerLsb registerMsb : Option Nat} {low high : Nat}

theorem bitAt_ext (sized : bytes.length = other.length)
    (same : ∀ p < 8 * bytes.length, bitAt bytes p = bitAt other p) : bytes = other := by
  refine List.ext_getElem sized fun i inBytes inOther => ?_
  refine UInt8.toBitVec_inj.mp (BitVec.eq_of_getLsbD_eq fun k below => ?_)
  have quotient : (8 * i + k) / 8 = i := by omega
  have remainder : (8 * i + k) % 8 = k := by omega
  have bit := same (8 * i + k) (by omega)
  rwa [bitAt, bitAt, quotient, remainder, List.getElem?_eq_getElem inBytes, List.getElem?_eq_getElem inOther] at bit

theorem loadU64_ext (endianness : Endianness) (sized : bytes.length = other.length) (fits : bytes.length ≤ 8)
    (same : ∀ k < 8 * bytes.length, (loadU64 bytes endianness).getLsbD k = (loadU64 other endianness).getLsbD k) :
    bytes = other := by
  refine bitAt_ext sized fun p inside => ?_
  have placed := position_lt endianness inside
  have bit := same _ placed
  rw [loadU64_getLsbD bytes endianness (by omega) placed, loadU64_getLsbD other endianness (by omega) (sized ▸ placed),
    ← sized, position_position endianness inside] at bit
  exact bit

theorem extractInt_selected (sized : 1 ≤ current.length ∧ current.length ≤ 8)
    (selects : Selects current.length endianness registerLsb registerMsb low high) :
    extractInt current sign endianness registerLsb registerMsb =
      .ok (.ofBitVec (fieldValue (loadU64 current endianness) sign low high)) := by
  simp only [extractInt, (bitRange_iff sized.1).mpr selects]
  exact if_neg (by omega)

theorem extractInt_ok_iff (sized : 1 ≤ current.length ∧ current.length ≤ 8) :
    (∃ v, extractInt current sign endianness registerLsb registerMsb = .ok v) ↔
      ∃ low high, Selects current.length endianness registerLsb registerMsb low high := by
  constructor
  · rintro ⟨v, extracted⟩
    simp only [extractInt] at extracted
    split at extracted
    · nomatch extracted
    · split at extracted
      · nomatch extracted
      · rename_i low high ranged
        exact ⟨low, high, (bitRange_iff sized.1).mp ranged⟩
  · rintro ⟨low, high, selects⟩
    exact ⟨_, extractInt_selected sized selects⟩

theorem insertInt_ok_iff (sized : 1 ≤ current.length ∧ current.length ≤ 8) (v : Int64) :
    (∃ bytes, insertInt current v endianness registerLsb registerMsb = .ok bytes) ↔
      ∃ low high, Selects current.length endianness registerLsb registerMsb low high := by
  constructor
  · rintro ⟨bytes, inserted⟩
    simp only [insertInt] at inserted
    split at inserted
    · cases inserted
    · split at inserted
      · cases inserted
      · rename_i low high ranged
        exact ⟨low, high, (bitRange_iff sized.1).mp ranged⟩
  · rintro ⟨low, high, selects⟩
    exact insertInt_ok sized ((bitRange_iff sized.1).mpr selects) v

theorem insertInt_selected (sized : 1 ≤ current.length ∧ current.length ≤ 8)
    (selects : Selects current.length endianness registerLsb registerMsb low high) (v : Int64) :
    ∃ bytes, insertInt current v endianness registerLsb registerMsb = .ok bytes ∧ bytes.length = current.length ∧
      ∀ k < 8 * current.length, (loadU64 bytes endianness).getLsbD k =
        if low ≤ k ∧ k ≤ high then v.toBitVec.getLsbD (k - low) else (loadU64 current endianness).getLsbD k := by
  have ranged := (bitRange_iff sized.1).mpr selects
  obtain ⟨bytes, inserted⟩ := insertInt_ok sized ranged v
  exact ⟨bytes, inserted, insertInt_length inserted, fun k inside => insertInt_spec inserted ranged inside⟩

theorem extractInt_insertInt (sized : 1 ≤ current.length ∧ current.length ≤ 8)
    (selects : Selects current.length endianness registerLsb registerMsb low high)
    (represents : Represents sign (high - low + 1) v)
    (inserted : insertInt current v endianness registerLsb registerMsb = .ok bytes) :
    extractInt bytes sign endianness registerLsb registerMsb = .ok v := by
  obtain ⟨_, again, length, bits⟩ := insertInt_selected sized selects v
  cases inserted.symm.trans again
  have inside := selects.inside
  rw [← length] at selects sized
  have held : fieldValue (loadU64 bytes endianness) sign low high = v.toBitVec := by
    refine fieldValue_of_extends selects.ordered (by omega) (represents.extends (Nat.le_add_left ..)) ?_
    intro k above below
    rw [bits k (by omega), if_pos ⟨above, below⟩]
  rw [extractInt_selected sized selects, held]
  rfl

theorem insertInt_extractInt (sized : 1 ≤ current.length ∧ current.length ≤ 8)
    (extracted : extractInt current sign endianness registerLsb registerMsb = .ok v) :
    insertInt current v endianness registerLsb registerMsb = .ok current := by
  obtain ⟨low, high, selects⟩ := (extractInt_ok_iff sized).mp ⟨v, extracted⟩
  obtain ⟨bytes, inserted, length, bits⟩ := insertInt_selected sized selects v
  have inside := selects.inside
  cases (extractInt_selected sized selects).symm.trans extracted
  have same : bytes = current := by
    refine loadU64_ext endianness length (by omega) fun k below => ?_
    rw [bits k (by omega)]
    split
    · have place : low + (k - low) = k := by omega
      rw [Int64.toBitVec_ofBitVec, fieldValue_getLsbD selects.ordered (by omega) (by omega), if_pos (by omega), place]
    · rfl
  rw [inserted, same]

theorem insertInt_comm {otherLsb otherMsb : Option Nat} {otherLow otherHigh : Nat}
    (sized : 1 ≤ current.length ∧ current.length ≤ 8)
    (selects : Selects current.length endianness registerLsb registerMsb low high)
    (selectsOther : Selects current.length endianness otherLsb otherMsb otherLow otherHigh)
    (disjoint : high < otherLow ∨ otherHigh < low) (v w : Int64) :
    ∃ first second both, insertInt current v endianness registerLsb registerMsb = .ok first ∧
      insertInt current w endianness otherLsb otherMsb = .ok second ∧
      insertInt first w endianness otherLsb otherMsb = .ok both ∧
      insertInt second v endianness registerLsb registerMsb = .ok both := by
  obtain ⟨first, insertedFirst, lengthFirst, bitsFirst⟩ := insertInt_selected sized selects v
  obtain ⟨second, insertedSecond, lengthSecond, bitsSecond⟩ := insertInt_selected sized selectsOther w
  obtain ⟨one, insertedOne, lengthOne, bitsOne⟩ :=
    insertInt_selected (lengthFirst.symm ▸ sized) (lengthFirst.symm ▸ selectsOther) w
  obtain ⟨two, insertedTwo, lengthTwo, bitsTwo⟩ :=
    insertInt_selected (lengthSecond.symm ▸ sized) (lengthSecond.symm ▸ selects) v
  have same : one = two := by
    refine loadU64_ext endianness (by omega) (by omega) fun k below => ?_
    rw [bitsOne k (by omega), bitsTwo k (by omega), bitsFirst k (by omega), bitsSecond k (by omega)]
    by_cases inFirst : low ≤ k ∧ k ≤ high
    · rw [if_pos inFirst, if_pos inFirst, if_neg (by omega)]
    · rw [if_neg inFirst, if_neg inFirst]
  exact ⟨first, second, one, insertedFirst, insertedSecond, insertedOne, same ▸ insertedTwo⟩

theorem encodeInt_eq_insertInt (sized : 1 ≤ current.length ∧ current.length ≤ 8) (v : Int64) :
    encodeInt v current.length endianness = insertInt current v endianness none none := by
  have whole : Selects current.length endianness none none 0 (8 * current.length - 1) :=
    (bitRange_iff sized.1).mp (if_pos ⟨Nat.zero_le _, by omega⟩)
  obtain ⟨bytes, inserted, length, bits⟩ := insertInt_selected sized whole v
  have stored := storeU64_length v.toBitVec sized.2 endianness
  have same : storeU64 v.toBitVec current.length endianness = bytes := by
    refine loadU64_ext endianness (stored.trans length.symm) (by omega) fun k below => ?_
    rw [stored] at below
    rw [bits k below, if_pos (by omega), loadU64_storeU64 v.toBitVec endianness sized.2 below, Nat.sub_zero]
  rw [inserted, encodeInt, if_neg (by omega), same]

end Laws

/-! ## Checked operations -/

def numberedBitsChecked (bits : Nat) : Option Nat → Option Nat → Endianness → Checked (Option (Nat × Nat))
  | none, none, _ => do
      let top ← Checked.sub bits 1
      return some (0, top)
  | lsb, msb, .little => .ok (some (lsb.getD 0, msb.getD (lsb.getD 0)))
  | lsb, msb, .big => do
      let l := (lsb.or msb).getD 0
      let m := (msb.or lsb).getD 0
      let top ← Checked.sub bits 1
      return if l ≤ top ∧ m ≤ top then some (top - l, top - m) else none

def bitRangeChecked (bits : Nat) (registerLsb registerMsb : Option Nat) (endianness : Endianness) :
    Checked (Option (Nat × Nat)) := do
  match ← numberedBitsChecked bits registerLsb registerMsb endianness with
  | none => return none
  | some (lsb, msb) => return if lsb ≤ msb ∧ msb < bits then some (lsb, msb) else none

def fieldMaskChecked (lsb msb : Nat) : Checked (Nat × BitVec 64) := do
  let span ← Checked.sub msb lsb
  let width := span + 1
  if 64 ≤ width then
    return (width, BitVec.allOnes 64)
  else
    let ones ← Checked.subWord (← Checked.shiftLeft 1#64 width) 1
    return (width, ← Checked.shiftLeft ones lsb)

def storeU64Checked (value : BitVec 64) (length : Nat) : Endianness → Checked (List UInt8)
  | .little => Checked.takeTo (leBytes value) length
  | .big => do
      let out ← Checked.takeTo (leBytes value) length
      return out.reverse

def isNegativeChecked (sign : Sign) (width : Nat) (value : BitVec 64) : Checked Bool :=
  if sign = .signed ∧ width < 64 then do
    let signBit ← Checked.shiftLeft 1#64 (← Checked.sub width 1)
    return value &&& signBit ≠ 0
  else
    return false

def extractIntChecked (bytes : List UInt8) (sign : Sign) (endianness : Endianness) (registerLsb registerMsb : Option Nat) :
    Checked (Except String Int64) := do
  let length := bytes.length
  if length = 0 ∨ 8 < length then
    return .error (lengthMessage length)
  else
    match ← bitRangeChecked (8 * length) registerLsb registerMsb endianness with
    | none => return .error (rangeMessage registerLsb registerMsb length)
    | some (lsb, msb) =>
        let (width, mask) ← fieldMaskChecked lsb msb
        let value ← Checked.shiftRight (loadU64 bytes endianness &&& mask) lsb
        if ← isNegativeChecked sign width value then
          let shifted ← Checked.shiftRight mask lsb
          return .ok (.ofBitVec (value ||| (BitVec.allOnes 64 ^^^ shifted)))
        else
          return .ok (.ofBitVec value)

def insertIntChecked (current : List UInt8) (v : Int64) (endianness : Endianness) (registerLsb registerMsb : Option Nat) :
    Checked (Except String (List UInt8)) := do
  let length := current.length
  if length = 0 ∨ 8 < length then
    return .error (lengthMessage length)
  else
    match ← bitRangeChecked (8 * length) registerLsb registerMsb endianness with
    | none => return .error (rangeMessage registerLsb registerMsb length)
    | some (lsb, msb) =>
        let (_, mask) ← fieldMaskChecked lsb msb
        let shifted ← Checked.shiftLeft v.toBitVec lsb
        return .ok (← storeU64Checked ((loadU64 current endianness &&& ~~~mask) ||| (shifted &&& mask)) length endianness)

def encodeIntChecked (v : Int64) (length : Nat) (endianness : Endianness) : Checked (Except String (List UInt8)) := do
  if length = 0 ∨ 8 < length then
    return .error (lengthMessage length)
  else
    return .ok (← storeU64Checked v.toBitVec length endianness)

section CheckedOperations

variable {bytes : List UInt8} {v : Int64} {sign : Sign} {endianness : Endianness} {registerLsb registerMsb : Option Nat}
  {length lsb msb : Nat}

theorem numberedBitsChecked_ok (positive : 1 ≤ length) :
    numberedBitsChecked (8 * length) registerLsb registerMsb endianness =
      .ok (numberedBits (8 * length) registerLsb registerMsb endianness) := by
  have top : Checked.sub (8 * length) 1 = .ok (8 * length - 1) := Checked.sub_ok (by omega)
  unfold numberedBitsChecked
  rw [top]
  cases registerLsb <;> cases registerMsb <;> cases endianness <;> rfl

theorem bitRangeChecked_ok (positive : 1 ≤ length) :
    bitRangeChecked (8 * length) registerLsb registerMsb endianness =
      .ok (bitRange (8 * length) registerLsb registerMsb endianness) := by
  rw [bitRangeChecked, numberedBitsChecked_ok positive, Checked.ok_bind, bitRange]
  cases numberedBits (8 * length) registerLsb registerMsb endianness <;> rfl

theorem fieldMaskChecked_ok (ordered : lsb ≤ msb) (inside : msb < 64) :
    fieldMaskChecked lsb msb = .ok (msb - lsb + 1, fieldMask lsb msb) := by
  unfold fieldMaskChecked fieldMask
  rw [Checked.sub_ok ordered, Checked.ok_bind]
  by_cases whole : 64 ≤ msb - lsb + 1
  · simp only [whole, if_true]
    rfl
  · have positive : (1 : BitVec 64) ≤ 1#64 <<< (msb - lsb + 1) := by
      have small : 2 ^ (msb - lsb + 1) < 2 ^ 64 := Nat.pow_lt_pow_right (by decide) (by omega)
      rw [BitVec.le_def, BitVec.toNat_shiftLeft, Nat.shiftLeft_eq, BitVec.toNat_one (by decide), Nat.one_mul,
        Nat.mod_eq_of_lt small]
      exact Nat.one_le_two_pow
    simp only [whole, if_false, Checked.shiftLeft_ok (show msb - lsb + 1 < 64 by omega), Checked.subWord_ok positive,
      Checked.shiftLeft_ok (show lsb < 64 by omega), Checked.ok_bind]
    rfl

theorem storeU64Checked_ok (value : BitVec 64) (fits : length ≤ 8) :
    storeU64Checked value length endianness = .ok (storeU64 value length endianness) := by
  have taken : Checked.takeTo (leBytes value) length = .ok ((leBytes value).take length) :=
    Checked.takeTo_ok (by rw [leBytes_length]; exact fits)
  cases endianness with
  | little => exact taken
  | big => rw [storeU64Checked, taken, Checked.ok_bind]; rfl

theorem isNegativeChecked_ok (positive : 1 ≤ length) (value : BitVec 64) :
    isNegativeChecked sign length value =
      .ok (decide (sign = .signed ∧ length < 64 ∧ value &&& (1#64 <<< (length - 1)) ≠ 0)) := by
  unfold isNegativeChecked
  by_cases narrow : sign = .signed ∧ length < 64
  · rw [if_pos narrow, Checked.sub_ok positive, Checked.ok_bind, Checked.shiftLeft_ok (by omega), Checked.ok_bind]
    simp [narrow]
  · rw [if_neg narrow, decide_eq_false fun ⟨signed, small, _⟩ => narrow ⟨signed, small⟩]
    rfl

theorem extractIntChecked_ok (bytes : List UInt8) (sign : Sign) (endianness : Endianness) (registerLsb registerMsb : Option Nat) :
    extractIntChecked bytes sign endianness registerLsb registerMsb =
      .ok (extractInt bytes sign endianness registerLsb registerMsb) := by
  unfold extractIntChecked extractInt
  by_cases unsupported : bytes.length = 0 ∨ 8 < bytes.length
  · simp only [unsupported, if_true]
    rfl
  simp only [unsupported, if_false, bitRangeChecked_ok (show 1 ≤ bytes.length by omega), Checked.ok_bind]
  cases ranged : bitRange (8 * bytes.length) registerLsb registerMsb endianness with
  | none => rfl
  | some range =>
    obtain ⟨ordered, inside⟩ := bitRange_bounds ranged
    simp only [fieldMaskChecked_ok ordered (show range.2 < 64 by omega), Checked.ok_bind,
      Checked.shiftRight_ok (show range.1 < 64 by omega), isNegativeChecked_ok (Nat.le_add_left ..), fieldValue,
      decide_eq_true_eq]
    split <;> rfl

theorem insertIntChecked_ok (current : List UInt8) (v : Int64) (endianness : Endianness)
    (registerLsb registerMsb : Option Nat) : insertIntChecked current v endianness registerLsb registerMsb =
      .ok (insertInt current v endianness registerLsb registerMsb) := by
  unfold insertIntChecked insertInt
  by_cases unsupported : current.length = 0 ∨ 8 < current.length
  · simp only [unsupported, if_true]
    rfl
  simp only [unsupported, if_false, bitRangeChecked_ok (show 1 ≤ current.length by omega), Checked.ok_bind]
  cases ranged : bitRange (8 * current.length) registerLsb registerMsb endianness with
  | none => rfl
  | some range =>
    obtain ⟨ordered, inside⟩ := bitRange_bounds ranged
    simp only [fieldMaskChecked_ok ordered (show range.2 < 64 by omega), Checked.ok_bind,
      Checked.shiftLeft_ok (show range.1 < 64 by omega), storeU64Checked_ok _ (show current.length ≤ 8 by omega)]
    rfl

theorem encodeIntChecked_ok (v : Int64) (length : Nat) (endianness : Endianness) :
    encodeIntChecked v length endianness = .ok (encodeInt v length endianness) := by
  unfold encodeIntChecked encodeInt
  split
  · rfl
  · rw [storeU64Checked_ok _ (by omega)]
    rfl

end CheckedOperations

/-- Bit fields of registers of one to eight bytes. A field is extracted and
inserted exactly where LSB and MSB select bits of the register; what is inserted
is extracted again and no other bit changes; insertions into disjoint fields
commute; what is extracted may be inserted; a whole register is encoded as it is
inserted; and no operation on the way leaves its range. -/
theorem bit_fields_inverse_and_local (current : List UInt8) (sized : 1 ≤ current.length ∧ current.length ≤ 8)
    (sign : Sign) (endianness : Endianness) (registerLsb registerMsb : Option Nat) :
    ((∃ v, extractInt current sign endianness registerLsb registerMsb = .ok v) ↔
      ∃ low high, Selects current.length endianness registerLsb registerMsb low high) ∧
    (∀ v, (∃ bytes, insertInt current v endianness registerLsb registerMsb = .ok bytes) ↔
      ∃ low high, Selects current.length endianness registerLsb registerMsb low high) ∧
    (∀ low high v bytes, Selects current.length endianness registerLsb registerMsb low high →
      insertInt current v endianness registerLsb registerMsb = .ok bytes →
      (Represents sign (high - low + 1) v → extractInt bytes sign endianness registerLsb registerMsb = .ok v) ∧
      bytes.length = current.length ∧
      ∀ k < 8 * current.length, ¬ (low ≤ k ∧ k ≤ high) →
        bitAt bytes (position current.length endianness k) = bitAt current (position current.length endianness k)) ∧
    (∀ otherLsb otherMsb low high otherLow otherHigh v w,
      Selects current.length endianness registerLsb registerMsb low high →
      Selects current.length endianness otherLsb otherMsb otherLow otherHigh → (high < otherLow ∨ otherHigh < low) →
      ∃ first second both, insertInt current v endianness registerLsb registerMsb = .ok first ∧
        insertInt current w endianness otherLsb otherMsb = .ok second ∧
        insertInt first w endianness otherLsb otherMsb = .ok both ∧
        insertInt second v endianness registerLsb registerMsb = .ok both) ∧
    (∀ v, extractInt current sign endianness registerLsb registerMsb = .ok v →
      insertInt current v endianness registerLsb registerMsb = .ok current) ∧
    (∀ v, encodeInt v current.length endianness = insertInt current v endianness none none) ∧
    extractIntChecked current sign endianness registerLsb registerMsb =
      .ok (extractInt current sign endianness registerLsb registerMsb) ∧
    ∀ v, insertIntChecked current v endianness registerLsb registerMsb =
        .ok (insertInt current v endianness registerLsb registerMsb) ∧
      encodeIntChecked v current.length endianness = .ok (encodeInt v current.length endianness) := by
  refine ⟨extractInt_ok_iff sized, insertInt_ok_iff sized, ?_, ?_, fun v => insertInt_extractInt sized,
    encodeInt_eq_insertInt sized, extractIntChecked_ok .., fun v => ⟨insertIntChecked_ok .., encodeIntChecked_ok ..⟩⟩
  · intro low high v bytes selects inserted
    refine ⟨fun represents => extractInt_insertInt sized selects represents inserted, insertInt_length inserted, ?_⟩
    intro k inside outside
    rw [insertInt_bitAt rfl inserted ((bitRange_iff sized.1).mpr selects) inside, if_neg outside]
  · intro otherLsb otherMsb low high otherLow otherHigh v w selects selectsOther disjoint
    exact insertInt_comm sized selects selectsOther disjoint v w

/-- Bits 4 to 11 of a big-endian register, which numbers them 11 to 4. -/
theorem bit_fields_inverse_and_local_big : ∃ bytes, insertInt [0x12, 0x34] (-3) .big (some 11) (some 4) = .ok bytes ∧
    extractInt bytes .signed .big (some 11) (some 4) = .ok (-3) := by
  obtain ⟨_, inserts, inverse, _⟩ :=
    bit_fields_inverse_and_local [0x12, 0x34] (by decide) .signed .big (some 11) (some 4)
  have selects : Selects 2 .big (some 11) (some 4) 4 11 := ⟨by decide, by decide, by decide, by decide⟩
  obtain ⟨bytes, inserted⟩ := (inserts (-3)).mpr ⟨4, 11, selects⟩
  exact ⟨bytes, inserted, (inverse 4 11 (-3) bytes selects inserted).1 ⟨by decide, by decide⟩⟩

end Telegenic.Genicam
