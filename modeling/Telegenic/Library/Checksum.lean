import Mathlib.Tactic

/-! Shift registers with feedback, as cyclic redundancy checks use them: no
change that lies within the width of the register leaves the remainder alone. -/

set_option autoImplicit false

namespace Telegenic.Library.Feedback

variable {width : Nat} (poly : BitVec width)

/-- One shift towards the low end; a bit that falls out is fed back. -/
def shift (state : BitVec width) : BitVec width :=
  state >>> 1 ^^^ bif state.getLsbD 0 then poly else .ofNat width 0

/-- Takes in a symbol of `size` bits. -/
def absorb (size : Nat) (state symbol : BitVec width) : BitVec width :=
  (shift poly)^[size] (state ^^^ symbol)

variable {poly}

theorem shift_xor (first second : BitVec width) :
    shift poly (first ^^^ second) = shift poly first ^^^ shift poly second := by
  refine BitVec.eq_of_getLsbD_eq fun i _ => ?_
  simp only [shift, BitVec.getLsbD_xor, BitVec.getLsbD_ushiftRight]
  cases first.getLsbD 0 <;> cases second.getLsbD 0 <;> simp [Bool.xor_comm, Bool.xor_left_comm]

theorem shifts_xor (count : Nat) (first second : BitVec width) :
    (shift poly)^[count] (first ^^^ second) = (shift poly)^[count] first ^^^ (shift poly)^[count] second :=
  Function.Semiconj₂.iterate shift_xor count first second

variable (feeds : poly.msb = true)
include feeds

/-- What is fed back sets the highest bit, so nothing fell out of a small
result. -/
theorem toNat_of_shift_lt {state : BitVec width} {bits : Nat} (within : bits < width)
    (small : (shift poly state).toNat < 2 ^ bits) : state.toNat = 2 * (shift poly state).toNat := by
  have half : (state >>> 1).toNat = state.toNat / 2 := by
    rw [BitVec.toNat_ushiftRight, Nat.shiftRight_one]
  cases fell : state.getLsbD 0 with
  | true =>
    have high : (shift poly state).msb = true := by
      have low : (state >>> 1).msb = false := by
        rw [BitVec.msb_eq_decide, half, decide_eq_false_iff_not, Nat.not_le, Nat.div_lt_iff_lt_mul two_pos,
          ← Nat.pow_succ, Nat.succ_eq_add_one, Nat.sub_add_cancel (Nat.zero_lt_of_lt within)]
        exact state.isLt
      rw [shift, fell, cond_true, BitVec.msb_xor, low, feeds]
      rfl
    rw [BitVec.msb_eq_decide, decide_eq_true_iff] at high
    have := Nat.pow_le_pow_right two_pos (Nat.le_sub_one_of_lt within)
    omega
  | false =>
    have even : state.toNat % 2 = 0 := by
      rw [BitVec.getLsbD, Nat.testBit_zero, decide_eq_false_iff_not] at fell
      omega
    rw [shift, fell, cond_false, BitVec.xor_zero, half]
    omega

theorem toNat_of_shifts_lt (count : Nat) : ∀ {state : BitVec width} {bits : Nat}, bits + count ≤ width →
    ((shift poly)^[count] state).toNat < 2 ^ bits → state.toNat = 2 ^ count * ((shift poly)^[count] state).toNat := by
  induction count with
  | zero => exact fun _ _ => (Nat.one_mul _).symm
  | succ count ih =>
    intro state bits within small
    rw [Function.iterate_succ_apply] at small ⊢
    have rest := ih (by omega) small
    have bound : (shift poly state).toNat < 2 ^ (count + bits) := by
      rw [rest, Nat.pow_add]
      exact Nat.mul_lt_mul_of_pos_left small (Nat.two_pow_pos _)
    rw [toNat_of_shift_lt feeds (by omega) bound, rest, Nat.pow_succ']
    ring

/-- Symbols that fit into the register together decide, with the state before
them, the state behind them. -/
theorem eq_of_absorb {size : Nat} {symbols others : List (BitVec width)}
    (sized : List.Forall₂ (fun symbol other => symbol.toNat < 2 ^ size ∧ other.toNat < 2 ^ size) symbols others) :
    ∀ {state other : BitVec width}, symbols.length * size ≤ width →
      symbols.foldl (absorb poly size) state = others.foldl (absorb poly size) other →
      (state ^^^ other).toNat < 2 ^ (symbols.length * size) ∧ (state = other → symbols = others) := by
  induction sized with
  | nil =>
    intro state other _ same
    simp [show state = other from same]
  | @cons symbol changed symbols others sized _ ih =>
    intro state other within same
    rw [List.length_cons, Nat.succ_mul] at within ⊢
    obtain ⟨close, rest⟩ := ih (by omega) same
    have parted : state ^^^ symbol ^^^ (other ^^^ changed) = state ^^^ other ^^^ (symbol ^^^ changed) := by
      ac_rfl
    rw [absorb, absorb, ← shifts_xor, parted] at close
    have whole := toNat_of_shifts_lt feeds size within close
    have bound : (symbol ^^^ changed).toNat < 2 ^ size := by
      rw [BitVec.toNat_xor]
      exact Nat.xor_lt_two_pow sized.1 sized.2
    refine ⟨?_, fun isSame => ?_⟩
    · have total : (state ^^^ other ^^^ (symbol ^^^ changed)).toNat < 2 ^ (symbols.length * size + size) := by
        rw [whole, Nat.add_comm, Nat.pow_add]
        exact Nat.mul_lt_mul_of_pos_left close (Nat.two_pow_pos _)
      have back := Nat.xor_lt_two_pow total (bound.trans_le (Nat.pow_le_pow_right two_pos (Nat.le_add_left _ _)))
      rwa [← BitVec.toNat_xor, BitVec.xor_assoc (state ^^^ other), BitVec.xor_self, BitVec.xor_zero] at back
    · rw [isSame, BitVec.xor_self, BitVec.zero_xor] at whole
      have none := Nat.eq_zero_of_dvd_of_lt ⟨_, whole⟩ bound
      have isSymbol : symbol = changed := BitVec.xor_eq_zero_iff.mp (BitVec.eq_of_toNat_eq none)
      rw [isSymbol, rest (by rw [isSame, isSymbol])]

/-- No later symbols hide a difference. -/
theorem absorbs_injective {size : Nat} (within : size ≤ width) (symbols : List (BitVec width)) :
    ∀ {state other : BitVec width}, symbols.foldl (absorb poly size) state = symbols.foldl (absorb poly size) other →
      state = other := by
  induction symbols with
  | nil => exact fun same => same
  | cons symbol symbols ih =>
    intro state other same
    have close : ((shift poly)^[size] (state ^^^ symbol ^^^ (other ^^^ symbol))).toNat = 0 := by
      rw [shifts_xor]
      exact congrArg BitVec.toNat (BitVec.xor_eq_zero_iff.mpr (ih same))
    have none := toNat_of_shifts_lt feeds size (by omega : 0 + size ≤ width) (by rw [close]; decide)
    rw [close] at none
    exact (BitVec.xor_left_inj symbol).mp (BitVec.xor_eq_zero_iff.mp (BitVec.eq_of_toNat_eq none))

end Telegenic.Library.Feedback
