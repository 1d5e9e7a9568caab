import Telegenic.Genicam.Registers
import Telegenic.Library.Memory

/-! Register fields bit by bit. A bit of the loaded value is a bit of one of
the register's bytes; a write changes exactly the bits of its field. -/

set_option autoImplicit false

namespace Telegenic.Genicam

open Library

/-! ## Bytes and bits -/

def bitAt (bytes : List UInt8) (position : Nat) : Bool :=
  ((bytes[position / 8]?).getD 0).toBitVec.getLsbD (position % 8)

/-- Where bit `k` of the loaded value lies in a register of `length` bytes. -/
def position (length : Nat) : Endianness → Nat → Nat
  | .little, k => k
  | .big, k => 8 * (length - 1 - k / 8) + k % 8

theorem position_lt {length k : Nat} (endianness : Endianness) (inside : k < 8 * length) :
    position length endianness k < 8 * length := by
  cases endianness with
  | little => exact inside
  | big =>
    simp only [position]
    omega

theorem position_position {length k : Nat} (endianness : Endianness) (inside : k < 8 * length) :
    position length endianness (position length endianness k) = k := by
  cases endianness with
  | little => rfl
  | big =>
    simp only [position]
    omega

theorem getLsbD_foldl_shiftIn (bytes : List UInt8) : ∀ (k : Nat), k < 64 →
    (bytes.foldl shiftIn 0).getLsbD k = bitAt bytes.reverse k := by
  induction bytes using List.reverseRecOn with
  | nil =>
    intro k _
    simp [bitAt]
  | append_singleton bytes byte ih =>
    intro k below
    rw [List.foldl_append, List.foldl_cons, List.foldl_nil, shiftIn, BitVec.getLsbD_or, BitVec.getLsbD_shiftLeft,
      BitVec.getLsbD_setWidth, List.reverse_append, List.reverse_singleton, List.singleton_append]
    by_cases first : k < 8
    · simp [bitAt, first, below, Nat.div_eq_of_lt first, Nat.mod_eq_of_lt first]
    · have quotient : k / 8 = (k - 8) / 8 + 1 := by omega
      have remainder : k % 8 = (k - 8) % 8 := by omega
      have beyond : byte.toBitVec.getLsbD k = false := BitVec.getLsbD_of_ge _ k (Nat.le_of_not_lt first)
      rw [ih (k - 8) (by omega), beyond]
      simp [bitAt, first, below, quotient, remainder]

theorem loadU64_getLsbD (bytes : List UInt8) (endianness : Endianness) {k : Nat} (below : k < 64)
    (inside : k < 8 * bytes.length) :
    (loadU64 bytes endianness).getLsbD k = bitAt bytes (position bytes.length endianness k) := by
  cases endianness with
  | little =>
    rw [loadU64, getLsbD_foldl_shiftIn _ _ below, List.reverse_reverse, position]
  | big =>
    have quotient : position bytes.length .big k / 8 = bytes.length - 1 - k / 8 := by
      simp only [position]
      omega
    have remainder : position bytes.length .big k % 8 = k % 8 := by
      simp only [position]
      omega
    rw [loadU64, getLsbD_foldl_shiftIn _ _ below, bitAt, bitAt, quotient, remainder, List.getElem?_reverse (by omega)]

theorem bitAt_leBytes (value : BitVec 64) (k : Nat) : bitAt (leBytes value) k = value.getLsbD k := by
  by_cases inside : k / 8 < 8
  · have place : 8 * (k / 8) + k % 8 = k := Nat.div_add_mod k 8
    rw [bitAt, leBytes, List.getElem?_map, List.getElem?_range inside]
    simp [place, Nat.mod_lt k (show 0 < 8 by decide)]
  · rw [bitAt, List.getElem?_eq_none (by rw [leBytes_length]; omega), BitVec.getLsbD_of_ge value k (by omega)]
    simp

theorem bitAt_storeU64 (value : BitVec 64) {length k : Nat} (endianness : Endianness) (fits : length ≤ 8)
    (inside : k < 8 * length) :
    bitAt (storeU64 value length endianness) (position length endianness k) = value.getLsbD k := by
  have taken : ((leBytes value).take length).length = length := by
    rw [List.length_take, leBytes_length, Nat.min_eq_left fits]
  rw [← bitAt_leBytes]
  cases endianness with
  | little =>
    rw [storeU64, position, bitAt, bitAt, List.getElem?_take_of_lt (by omega)]
  | big =>
    have quotient : position length .big k / 8 = length - 1 - k / 8 := by
      simp only [position]
      omega
    have remainder : position length .big k % 8 = k % 8 := by
      simp only [position]
      omega
    rw [storeU64, bitAt, bitAt, quotient, remainder, List.getElem?_reverse (by omega), taken,
      show length - 1 - (length - 1 - k / 8) = k / 8 by omega, List.getElem?_take_of_lt (by omega)]

theorem loadU64_storeU64 (value : BitVec 64) {length k : Nat} (endianness : Endianness) (fits : length ≤ 8)
    (inside : k < 8 * length) : (loadU64 (storeU64 value length endianness) endianness).getLsbD k = value.getLsbD k := by
  have sized := storeU64_length value fits endianness
  rw [loadU64_getLsbD _ _ (by omega) (by omega), sized, bitAt_storeU64 value endianness fits inside]

/-! ## Fields -/

theorem bitRange_bounds {bits lsb msb : Nat} {registerLsb registerMsb : Option Nat} {endianness : Endianness}
    (ranged : bitRange bits registerLsb registerMsb endianness = some (lsb, msb)) : lsb ≤ msb ∧ msb < bits := by
  unfold bitRange at ranged
  split at ranged
  case h_1 => nomatch ranged
  case h_2 =>
    split at ranged
    case isTrue bounds =>
      cases ranged
      exact bounds
    case isFalse => nomatch ranged

theorem fieldMask_getLsbD {lsb msb k : Nat} (ordered : lsb ≤ msb) (inside : msb < 64) (below : k < 64) :
    (fieldMask lsb msb).getLsbD k = decide (lsb ≤ k ∧ k ≤ msb) := by
  simp only [fieldMask]
  split
  case isTrue whole =>
    rw [BitVec.getLsbD_allOnes]
    simp only [below, decide_true]
    exact (decide_eq_true (by omega)).symm
  case isFalse narrow =>
    have ones : ((1#64 <<< (msb - lsb + 1)) - 1).toNat = 2 ^ (msb - lsb + 1) - 1 := by
      have small : 2 ^ (msb - lsb + 1) < 2 ^ 64 := Nat.pow_lt_pow_right (by decide) (by omega)
      have positive : 1 ≤ 2 ^ (msb - lsb + 1) := Nat.one_le_two_pow
      have shifted : (1#64 <<< (msb - lsb + 1)).toNat = 2 ^ (msb - lsb + 1) := by
        rw [BitVec.toNat_shiftLeft, Nat.shiftLeft_eq, show (1#64).toNat = 1 from rfl, Nat.one_mul, Nat.mod_eq_of_lt small]
      rw [BitVec.toNat_sub_of_le (by rw [BitVec.le_def, shifted]; exact positive), shifted]
      rfl
    rw [BitVec.getLsbD_shiftLeft, BitVec.getLsbD, ones, Nat.testBit_two_pow_sub_one]
    by_cases start : k < lsb
    · simp [start, below, Nat.not_le.mpr start]
    · simp only [below, start, decide_true, decide_false, Bool.not_false, Bool.true_and, decide_eq_decide]
      omega

theorem insert_getLsbD {lsb msb k : Nat} (ordered : lsb ≤ msb) (inside : msb < 64) (below : k < 64) (value v : BitVec 64) :
    ((value &&& ~~~fieldMask lsb msb) ||| ((v <<< lsb) &&& fieldMask lsb msb)).getLsbD k =
      if lsb ≤ k ∧ k ≤ msb then v.getLsbD (k - lsb) else value.getLsbD k := by
  rw [BitVec.getLsbD_or, BitVec.getLsbD_and, BitVec.getLsbD_and, BitVec.getLsbD_not, BitVec.getLsbD_shiftLeft,
    fieldMask_getLsbD ordered inside below]
  by_cases within : lsb ≤ k ∧ k ≤ msb
  · simp [within, below, Nat.not_lt.mpr within.1]
  · simp [within, below]

theorem insertInt_spec {current bytes : List UInt8} {v : Int64} {endianness : Endianness}
    {registerLsb registerMsb : Option Nat} {lsb msb : Nat}
    (inserted : insertInt current v endianness registerLsb registerMsb = .ok bytes)
    (ranged : bitRange (8 * current.length) registerLsb registerMsb endianness = some (lsb, msb)) {k : Nat}
    (inside : k < 8 * current.length) :
    (loadU64 bytes endianness).getLsbD k =
      if lsb ≤ k ∧ k ≤ msb then v.toBitVec.getLsbD (k - lsb) else (loadU64 current endianness).getLsbD k := by
  obtain ⟨ordered, within⟩ := bitRange_bounds ranged
  simp only [insertInt, ranged] at inserted
  split at inserted
  case isTrue => cases inserted
  case isFalse sized =>
    cases inserted
    rw [loadU64_storeU64 _ endianness (by omega) inside, insert_getLsbD ordered (by omega) (by omega)]

theorem insertInt_ok {current : List UInt8} {endianness : Endianness} {registerLsb registerMsb : Option Nat} {lsb msb : Nat}
    (sized : 1 ≤ current.length ∧ current.length ≤ 8)
    (ranged : bitRange (8 * current.length) registerLsb registerMsb endianness = some (lsb, msb)) (v : Int64) :
    ∃ bytes, insertInt current v endianness registerLsb registerMsb = .ok bytes := by
  simp only [insertInt, ranged]
  rw [if_neg (by omega)]
  exact ⟨_, rfl⟩

theorem insertInt_bitAt {current bytes : List UInt8} {v : Int64} {endianness : Endianness}
    {registerLsb registerMsb : Option Nat} {lsb msb length : Nat} (sized : current.length = length)
    (inserted : insertInt current v endianness registerLsb registerMsb = .ok bytes)
    (ranged : bitRange (8 * length) registerLsb registerMsb endianness = some (lsb, msb)) {k : Nat}
    (inside : k < 8 * length) :
    bitAt bytes (position length endianness k) =
      if lsb ≤ k ∧ k ≤ msb then v.toBitVec.getLsbD (k - lsb) else bitAt current (position length endianness k) := by
  subst sized
  have kept := insertInt_length inserted
  have short : current.length ≤ 8 := by
    simp only [insertInt] at inserted
    split at inserted
    · cases inserted
    · omega
  have set := insertInt_spec inserted ranged inside
  rwa [loadU64_getLsbD _ _ (by omega) (by omega), loadU64_getLsbD _ _ (by omega) inside, kept] at set

/-! ## Memory -/

theorem bitAt_load? {memory bytes : List UInt8} {address length p : Nat}
    (loaded : load? memory address length = some bytes) (inside : p < 8 * length) :
    bitAt bytes p = bitAt memory (8 * address + p) := by
  have quotient : (8 * address + p) / 8 = address + p / 8 := by omega
  have remainder : (8 * address + p) % 8 = p % 8 := by omega
  rw [bitAt, bitAt, quotient, remainder, getElem?_of_load? loaded (by omega)]

theorem bitAt_store? {memory data after : List UInt8} {address p : Nat}
    (stored : store? memory address data = some after) (inside : p < 8 * data.length) :
    bitAt after (8 * address + p) = bitAt data p :=
  (bitAt_load? (load?_store? stored) inside).symm

/-! ## Values -/

def Represents (sign : Sign) (width : Nat) (v : Int64) : Prop :=
  match sign with
  | .unsigned => 0 ≤ v.toInt ∧ v.toInt < 2 ^ width
  | .signed => -2 ^ (width - 1) ≤ v.toInt ∧ v.toInt < 2 ^ (width - 1)

theorem getLsbD_of_small {x : BitVec 64} {width k : Nat} (small : x.toNat < 2 ^ width) (beyond : width ≤ k) :
    x.getLsbD k = false :=
  Nat.testBit_lt_two_pow (Nat.lt_of_lt_of_le small (Nat.pow_le_pow_right (by decide) beyond))

theorem getLsbD_of_large {x : BitVec 64} {width k : Nat} (large : 2 ^ 64 - 2 ^ width ≤ x.toNat) (beyond : width ≤ k)
    (below : k < 64) : x.getLsbD k = true := by
  have small : (~~~x).toNat < 2 ^ width := by
    have bound := x.isLt
    have positive : 0 < 2 ^ width := Nat.two_pow_pos width
    rw [BitVec.toNat_not]
    omega
  have cleared := getLsbD_of_small small beyond
  rw [BitVec.getLsbD_not] at cleared
  simpa [below] using cleared

theorem Represents.beyond {sign : Sign} {width k : Nat} {v : Int64} (represents : Represents sign width v)
    (positive : 1 ≤ width) (narrow : width ≤ k) (below : k < 64) :
    v.toBitVec.getLsbD k = (decide (sign = .signed) && v.toBitVec.getLsbD (width - 1)) := by
  have number : v.toInt = if 2 * v.toBitVec.toNat < 2 ^ 64 then (v.toBitVec.toNat : Int) else v.toBitVec.toNat - 2 ^ 64 :=
    BitVec.toInt_eq_toNat_cond v.toBitVec
  have bound := v.toBitVec.isLt
  cases sign with
  | unsigned =>
    obtain ⟨low, high⟩ := represents
    rw [number] at low high
    have small : v.toBitVec.toNat < 2 ^ width := by
      split at low
      · rw [if_pos (by assumption)] at high
        exact_mod_cast high
      · omega
    rw [getLsbD_of_small small narrow]
    rfl
  | signed =>
    obtain ⟨low, high⟩ := represents
    rw [number] at low high
    simp only [decide_true, Bool.true_and]
    by_cases nonnegative : 2 * v.toBitVec.toNat < 2 ^ 64
    · rw [if_pos nonnegative] at high
      have small : v.toBitVec.toNat < 2 ^ (width - 1) := by exact_mod_cast high
      rw [getLsbD_of_small small (by omega), getLsbD_of_small small (Nat.le_refl _)]
    · rw [if_neg nonnegative] at low
      have large : 2 ^ 64 - 2 ^ (width - 1) ≤ v.toBitVec.toNat := by
        have shifted : (2 : Int) ^ 64 - 2 ^ (width - 1) ≤ v.toBitVec.toNat := by omega
        have power : ((2 ^ (width - 1) : Nat) : Int) = 2 ^ (width - 1) := by norm_cast
        omega
      rw [getLsbD_of_large large (by omega) below, getLsbD_of_large large (Nat.le_refl _) (by omega)]

theorem mask_shifted {lsb msb k : Nat} (ordered : lsb ≤ msb) (inside : msb < 64) :
    (fieldMask lsb msb >>> lsb).getLsbD k = decide (k < msb - lsb + 1) := by
  rw [BitVec.getLsbD_ushiftRight]
  by_cases below : lsb + k < 64
  · rw [fieldMask_getLsbD ordered inside below, decide_eq_decide]
    omega
  · rw [BitVec.getLsbD_of_ge _ _ (Nat.le_of_not_lt below), eq_comm, decide_eq_false_iff_not]
    omega

theorem masked_shifted {lsb msb k : Nat} (ordered : lsb ≤ msb) (inside : msb < 64) (value : BitVec 64) :
    ((value &&& fieldMask lsb msb) >>> lsb).getLsbD k = (value.getLsbD (lsb + k) && decide (k < msb - lsb + 1)) := by
  rw [← mask_shifted ordered inside, BitVec.getLsbD_ushiftRight, BitVec.getLsbD_ushiftRight, BitVec.getLsbD_and]

theorem and_bit_ne_zero {x : BitVec 64} {k : Nat} (below : k < 64) : x &&& (1#64 <<< k) ≠ 0 ↔ x.getLsbD k = true := by
  rw [← BitVec.twoPow_eq, BitVec.and_twoPow]
  cases x.getLsbD k with
  | false => simp
  | true =>
    simp only [if_true, iff_true, ne_eq]
    intro zero
    have bit := congrArg (BitVec.getLsbD · k) zero
    simp [below] at bit

theorem fieldValue_getLsbD {lsb msb k : Nat} (ordered : lsb ≤ msb) (inside : msb < 64) (below : k < 64)
    (value : BitVec 64) (sign : Sign) :
    (fieldValue value sign lsb msb).getLsbD k =
      if k < msb - lsb + 1 then value.getLsbD (lsb + k) else decide (sign = .signed) && value.getLsbD msb := by
  have top : lsb + (msb - lsb + 1 - 1) = msb := by omega
  simp only [fieldValue]
  by_cases within : k < msb - lsb + 1
  · rw [if_pos within]
    split
    · rw [BitVec.getLsbD_or, BitVec.getLsbD_xor, masked_shifted ordered inside, mask_shifted ordered inside,
        BitVec.getLsbD_allOnes]
      simp [within, below]
    · rw [masked_shifted ordered inside]
      simp [within]
  · have sign_bit : (value &&& fieldMask lsb msb) >>> lsb &&& 1#64 <<< (msb - lsb + 1 - 1) ≠ 0 ↔ value.getLsbD msb = true := by
      rw [and_bit_ne_zero (by omega), masked_shifted ordered inside, top]
      simp
    rw [if_neg within]
    split
    case isTrue extended =>
      obtain ⟨signed, _, negative⟩ := extended
      rw [BitVec.getLsbD_or, BitVec.getLsbD_xor, masked_shifted ordered inside, mask_shifted ordered inside,
        BitVec.getLsbD_allOnes, sign_bit.mp negative]
      simp [within, below, signed]
    case isFalse plain =>
      rw [masked_shifted ordered inside]
      simp only [within, decide_false, Bool.and_false]
      by_cases signed : sign = .signed
      · have zero : value.getLsbD msb = false := by
          by_contra set
          exact plain ⟨signed, by omega, sign_bit.mpr (Bool.eq_true_of_not_eq_false set)⟩
        simp [zero]
      · simp [signed]

def Extends (sign : Sign) (width : Nat) (v : Int64) : Prop :=
  ∀ k, width ≤ k → k < 64 → v.toBitVec.getLsbD k = (decide (sign = .signed) && v.toBitVec.getLsbD (width - 1))

theorem Represents.extends {sign : Sign} {width : Nat} {v : Int64} (represents : Represents sign width v)
    (positive : 1 ≤ width) : Extends sign width v :=
  fun _ narrow below => represents.beyond positive narrow below

theorem fieldValue_extends {lsb msb : Nat} (ordered : lsb ≤ msb) (inside : msb < 64) (value : BitVec 64) (sign : Sign) :
    Extends sign (msb - lsb + 1) (.ofBitVec (fieldValue value sign lsb msb)) := by
  intro k narrow below
  have top : lsb + (msb - lsb) = msb := by omega
  rw [Int64.toBitVec_ofBitVec, fieldValue_getLsbD ordered inside below, if_neg (Nat.not_lt.mpr narrow), Nat.add_sub_cancel,
    fieldValue_getLsbD ordered inside (by omega), if_pos (Nat.lt_succ_self _), top]

theorem fieldValue_of_extends {lsb msb : Nat} {value : BitVec 64} {sign : Sign} {v : Int64} (ordered : lsb ≤ msb)
    (inside : msb < 64) (room : Extends sign (msb - lsb + 1) v)
    (held : ∀ k, lsb ≤ k → k ≤ msb → value.getLsbD k = v.toBitVec.getLsbD (k - lsb)) :
    fieldValue value sign lsb msb = v.toBitVec := by
  apply BitVec.eq_of_getLsbD_eq
  intro k below
  rw [fieldValue_getLsbD ordered inside below]
  split
  case isTrue within => rw [held (lsb + k) (by omega) (by omega), Nat.add_sub_cancel_left]
  case isFalse outside =>
    rw [room k (Nat.le_of_not_lt outside) below, held msb ordered (Nat.le_refl _), Nat.add_sub_cancel]

end Telegenic.Genicam
