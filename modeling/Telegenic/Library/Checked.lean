/-! Bounds-checked operations. A computation that indexes, slices, subtracts,
divides or shifts outside its operands' range stops with the fault it ran into, and
otherwise has the value of the unchecked operation. -/

set_option autoImplicit false

namespace Telegenic.Library

/-- What stopped a checked computation. -/
inductive Fault where
  | index
  | slice
  | underflow
  | divideByZero
  | shift
  deriving DecidableEq, Repr

/-- `target` with the bytes from `offset` on replaced by `source`. -/
def overwrite {Value : Type} (target : List Value) (offset : Nat) (source : List Value) : List Value :=
  target.take offset ++ source ++ target.drop (offset + source.length)

section Overwrite

variable {Value : Type} {target source : List Value} {offset : Nat}

theorem overwrite_length (fits : offset + source.length ≤ target.length) :
    (overwrite target offset source).length = target.length := by
  simp only [overwrite, List.length_append, List.length_take, List.length_drop]
  omega

theorem getElem?_overwrite_inside (fits : offset + source.length ≤ target.length) {index : Nat}
    (inside : index < source.length) :
    (overwrite target offset source)[offset + index]? = source[index]? := by
  have taken : (target.take offset).length = offset := by
    simp only [List.length_take]
    omega
  rw [overwrite, List.append_assoc, List.getElem?_append_right (by omega), taken,
    Nat.add_sub_cancel_left, List.getElem?_append_left inside]

theorem getElem?_overwrite_outside (fits : offset + source.length ≤ target.length) {index : Nat}
    (outside : index < offset ∨ offset + source.length ≤ index) :
    (overwrite target offset source)[index]? = target[index]? := by
  have taken : (target.take offset).length = offset := by
    simp only [List.length_take]
    omega
  rw [overwrite, List.append_assoc]
  rcases outside with before | after
  · rw [List.getElem?_append_left (by omega), List.getElem?_take_of_lt before]
  · rw [List.getElem?_append_right (by omega), taken, List.getElem?_append_right (by omega),
      List.getElem?_drop]
    congr 1
    omega

end Overwrite

/-- A computation that may stop with a fault. -/
abbrev Checked (Value : Type) := Except Fault Value

namespace Checked

variable {Value : Type}

/-- `values[position]`. -/
def get (values : List Value) (position : Nat) : Checked Value :=
  match values[position]? with
  | some value => .ok value
  | none => .error .index

/-- `left - right` on unsigned integers. -/
def sub (left right : Nat) : Checked Nat :=
  if right ≤ left then .ok (left - right) else .error .underflow

/-- `total.div_ceil(block)`. -/
def divCeil (total block : Nat) : Checked Nat :=
  if block = 0 then .error .divideByZero else .ok ((total + block - 1) / block)

/-- `target[offset..offset + source.len()].copy_from_slice(source)`. -/
def copyAt (target : List Value) (offset : Nat) (source : List Value) : Checked (List Value) :=
  if offset + source.length ≤ target.length then .ok (overwrite target offset source) else .error .slice

/-- `&source[..count]`. -/
def takeTo (source : List Value) (count : Nat) : Checked (List Value) :=
  if count ≤ source.length then .ok (source.take count) else .error .slice

/-- `&source[start..stop]`. -/
def slice (source : List Value) (start stop : Nat) : Checked (List Value) :=
  if start ≤ stop ∧ stop ≤ source.length then .ok ((source.drop start).take (stop - start)) else .error .slice

/-- `word << amount`. -/
def shiftLeft {width : Nat} (word : BitVec width) (amount : Nat) : Checked (BitVec width) :=
  if amount < width then .ok (word <<< amount) else .error .shift

/-- `word >> amount`. -/
def shiftRight {width : Nat} (word : BitVec width) (amount : Nat) : Checked (BitVec width) :=
  if amount < width then .ok (word >>> amount) else .error .shift

/-- `left - right` on words. -/
def subWord {width : Nat} (left right : BitVec width) : Checked (BitVec width) :=
  if right ≤ left then .ok (left - right) else .error .underflow

@[simp] theorem ok_bind {Result : Type} (value : Value) (next : Value → Checked Result) :
    (Except.ok value >>= next) = next value := rfl

/-- A sequence that succeeds succeeds in both parts. -/
theorem bind_eq_ok {Result : Type} {first : Checked Value} {next : Value → Checked Result} {result : Result}
    (succeeds : (first >>= next) = .ok result) : ∃ value, first = .ok value ∧ next value = .ok result := by
  cases first with
  | ok value => exact ⟨value, rfl, succeeds⟩
  | error fault => cases succeeds

@[simp] theorem pure_eq (value : Value) : (pure value : Checked Value) = .ok value := rfl

theorem get_ok {values : List Value} {position : Nat} {value : Value}
    (found : values[position]? = some value) : get values position = .ok value := by
  simp [get, found]

theorem get_lt {values : List Value} {position : Nat} (inside : position < values.length) :
    get values position = .ok values[position] := by
  simp [get, inside]

theorem sub_ok {left right : Nat} (enough : right ≤ left) : sub left right = .ok (left - right) := by
  simp [sub, enough]

theorem sub_eq_ok {left right difference : Nat} (succeeds : sub left right = .ok difference) :
    right ≤ left ∧ difference = left - right := by
  unfold sub at succeeds
  split at succeeds
  · cases succeeds
    exact ⟨by assumption, rfl⟩
  · cases succeeds

theorem shiftLeft_ok {width amount : Nat} (inside : amount < width) (word : BitVec width) :
    shiftLeft word amount = .ok (word <<< amount) := by
  simp [shiftLeft, inside]

theorem shiftRight_ok {width amount : Nat} (inside : amount < width) (word : BitVec width) :
    shiftRight word amount = .ok (word >>> amount) := by
  simp [shiftRight, inside]

theorem subWord_ok {width : Nat} {left right : BitVec width} (enough : right ≤ left) :
    subWord left right = .ok (left - right) := by
  simp [subWord, enough]

theorem divCeil_ok {total block : Nat} (positive : 0 < block) :
    divCeil total block = .ok ((total + block - 1) / block) := by
  simp [divCeil, Nat.pos_iff_ne_zero.mp positive]

theorem copyAt_ok {target source : List Value} {offset : Nat}
    (fits : offset + source.length ≤ target.length) :
    copyAt target offset source = .ok (overwrite target offset source) := by
  simp [copyAt, fits]

theorem takeTo_ok {source : List Value} {count : Nat} (enough : count ≤ source.length) :
    takeTo source count = .ok (source.take count) := by
  simp [takeTo, enough]

theorem slice_ok {source : List Value} {start stop : Nat} (ordered : start ≤ stop) (enough : stop ≤ source.length) :
    slice source start stop = .ok ((source.drop start).take (stop - start)) := by
  simp [slice, ordered, enough]

theorem chunk_ok {source : List Value} {start count : Nat} (within : start ≤ source.length)
    (enough : count ≤ source.length - start) :
    slice source start (start + count) = .ok ((source.drop start).take count) := by
  rw [slice_ok (Nat.le_add_right ..) (by omega), Nat.add_sub_cancel_left]

end Checked

end Telegenic.Library
