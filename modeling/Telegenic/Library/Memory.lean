import Telegenic.Library.Bytes
import Telegenic.Library.Checked

/-! A flat byte memory: loads and stores of ranges, refused where they leave
it. -/

set_option autoImplicit false

namespace Telegenic.Library

/-- The `length` bytes from `address` on. -/
def load? (memory : List UInt8) (address length : Nat) : Option (List UInt8) :=
  slice? memory address (address + length)

/-- The memory with `data` from `address` on. -/
def store? (memory : List UInt8) (address : Nat) (data : List UInt8) : Option (List UInt8) :=
  if address + data.length ≤ memory.length then some (overwrite memory address data) else none

section Memory

variable {memory after data bytes : List UInt8} {address other length : Nat}

theorem load?_eq_some (inside : address + length ≤ memory.length) :
    load? memory address length = some ((memory.drop address).take length) := by
  rw [load?, slice?, if_pos ⟨Nat.le_add_right _ _, inside⟩, Nat.add_sub_cancel_left]

theorem load?_eq_none (outside : memory.length < address + length) : load? memory address length = none := by
  rw [load?, slice?, if_neg fun both => Nat.not_lt.mpr both.2 outside]

theorem load?_inside (loaded : load? memory address length = some bytes) : address + length ≤ memory.length := by
  by_contra outside
  rw [load?_eq_none (Nat.lt_of_not_le outside)] at loaded
  nomatch loaded

theorem load?_length (loaded : load? memory address length = some bytes) : bytes.length = length := by
  have inside := load?_inside loaded
  rw [load?_eq_some inside] at loaded
  cases loaded
  rw [List.length_take, List.length_drop]
  omega

theorem getElem?_of_load? (loaded : load? memory address length = some bytes) {index : Nat} (within : index < length) :
    bytes[index]? = memory[address + index]? := by
  rw [load?_eq_some (load?_inside loaded)] at loaded
  cases loaded
  rw [List.getElem?_take_of_lt within, List.getElem?_drop]

theorem store?_eq_some (inside : address + data.length ≤ memory.length) :
    store? memory address data = some (overwrite memory address data) :=
  if_pos inside

theorem store?_inside (stored : store? memory address data = some after) : address + data.length ≤ memory.length := by
  unfold store? at stored
  split at stored
  · assumption
  · nomatch stored

theorem store?_overwrite (stored : store? memory address data = some after) : after = overwrite memory address data := by
  rw [store?_eq_some (store?_inside stored)] at stored
  exact (Option.some.inj stored).symm

theorem store?_length (stored : store? memory address data = some after) : after.length = memory.length := by
  rw [store?_overwrite stored, overwrite_length (store?_inside stored)]

/-- What lies outside the stored range stays. -/
theorem store?_outside (stored : store? memory address data = some after) {index : Nat}
    (outside : index < address ∨ address + data.length ≤ index) : after[index]? = memory[index]? := by
  rw [store?_overwrite stored, getElem?_overwrite_outside (store?_inside stored) outside]

/-- A stored range loads as it was stored. -/
theorem load?_store? (stored : store? memory address data = some after) :
    load? after address data.length = some data := by
  have inside := store?_inside stored
  rw [load?_eq_some (by rw [store?_length stored]; exact inside), store?_overwrite stored]
  refine congrArg some (List.ext_getElem? fun index => ?_)
  by_cases within : index < data.length
  · rw [List.getElem?_take_of_lt within, List.getElem?_drop, getElem?_overwrite_inside inside within]
  · rw [List.getElem?_take_eq_none (Nat.le_of_not_lt within), List.getElem?_eq_none (Nat.le_of_not_lt within)]

/-- Ranges apart from the stored one load as before. -/
theorem load?_store?_apart (stored : store? memory address data = some after)
    (apart : other + length ≤ address ∨ address + data.length ≤ other) :
    load? after other length = load? memory other length := by
  by_cases inside : other + length ≤ memory.length
  · rw [load?_eq_some inside, load?_eq_some (by rw [store?_length stored]; exact inside)]
    refine congrArg some (List.ext_getElem? fun index => ?_)
    by_cases within : index < length
    · rw [List.getElem?_take_of_lt within, List.getElem?_take_of_lt within, List.getElem?_drop, List.getElem?_drop]
      exact store?_outside stored (by omega)
    · rw [List.getElem?_take_eq_none (Nat.le_of_not_lt within), List.getElem?_take_eq_none (Nat.le_of_not_lt within)]
  · rw [load?_eq_none (Nat.lt_of_not_le inside),
      load?_eq_none (by rw [store?_length stored]; exact Nat.lt_of_not_le inside)]

end Memory

end Telegenic.Library
