import Mathlib.Tactic

/-! Big-endian numbers in byte strings and the partial slices wire formats
are read through. -/

set_option autoImplicit false

namespace Telegenic.Library

/-- The number a byte string spells, most significant byte first. -/
def beNat (bytes : List UInt8) : Nat :=
  bytes.foldl (fun value byte => value * 256 + byte.toNat) 0

/-- The `width` low bytes of `value`, most significant byte first. -/
def beBytes : Nat → Nat → List UInt8
  | 0, _ => []
  | width + 1, value => UInt8.ofNat (value / 256 ^ width) :: beBytes width value

/-- `bytes.get(start..stop)`. -/
def slice? (bytes : List UInt8) (start stop : Nat) : Option (List UInt8) :=
  if start ≤ stop ∧ stop ≤ bytes.length then some ((bytes.drop start).take (stop - start)) else none

/-- `bytes.get(start..)`. -/
def dropFrom? (bytes : List UInt8) (start : Nat) : Option (List UInt8) :=
  if start ≤ bytes.length then some (bytes.drop start) else none

/-- The big-endian number of `width` bytes at `start`, when they are there. -/
def beAt? (bytes : List UInt8) (start width : Nat) : Option Nat :=
  (slice? bytes start (start + width)).map beNat

theorem beBytes_length (width value : Nat) : (beBytes width value).length = width := by
  induction width with
  | zero => rfl
  | succ width ih => rw [beBytes, List.length_cons, ih]

theorem foldl_beNat (bytes : List UInt8) : ∀ (start : Nat),
    bytes.foldl (fun value byte => value * 256 + byte.toNat) start = start * 256 ^ bytes.length + beNat bytes := by
  induction bytes with
  | nil => exact fun start => (Nat.mul_one start).symm
  | cons byte rest ih =>
    intro start
    rw [beNat, List.foldl_cons, List.foldl_cons, ih, ih (0 * 256 + byte.toNat), List.length_cons, Nat.pow_succ]
    ring

theorem beNat_cons (byte : UInt8) (rest : List UInt8) :
    beNat (byte :: rest) = byte.toNat * 256 ^ rest.length + beNat rest := by
  rw [beNat, List.foldl_cons, foldl_beNat, Nat.zero_mul, Nat.zero_add]

/-- Reading back gives the number, reduced to the width. -/
theorem beNat_beBytes (width value : Nat) : beNat (beBytes width value) = value % 256 ^ width := by
  induction width with
  | zero => exact (Nat.mod_one value).symm
  | succ width ih =>
    have digit : value % 256 ^ (width + 1) = value % 256 ^ width + 256 ^ width * (value / 256 ^ width % 256) :=
      Nat.mod_mul
    rw [beBytes, beNat_cons, beBytes_length, ih, UInt8.toNat_ofNat', digit, Nat.add_comm, Nat.mul_comm]

theorem beNat_lt (bytes : List UInt8) : beNat bytes < 256 ^ bytes.length := by
  induction bytes with
  | nil => exact Nat.one_pos
  | cons byte rest ih =>
    have digit : byte.toNat + 1 ≤ 256 := byte.toNat_lt
    rw [beNat_cons, List.length_cons, Nat.pow_succ']
    calc
      byte.toNat * 256 ^ rest.length + beNat rest < (byte.toNat + 1) * 256 ^ rest.length := by
        rw [Nat.succ_mul]
        omega
      _ ≤ 256 * 256 ^ rest.length := Nat.mul_le_mul_right _ digit

theorem slice?_append {front field rest : List UInt8} {start stop : Nat} (starts : front.length = start)
    (stops : start + field.length = stop) : slice? (front ++ (field ++ rest)) start stop = some field := by
  subst starts stops
  rw [slice?, if_pos ⟨Nat.le_add_right .., by simp⟩, List.drop_left', Nat.add_sub_cancel_left, List.take_left']
  · rfl
  · rfl

theorem beAt?_append (front rest : List UInt8) {start width value : Nat} (starts : front.length = start) :
    beAt? (front ++ (beBytes width value ++ rest)) start width = some (value % 256 ^ width) := by
  rw [beAt?, slice?_append starts (congrArg (start + ·) (beBytes_length width value)), Option.map_some, beNat_beBytes]

theorem slice?_le {bytes field : List UInt8} {start stop : Nat} (read : slice? bytes start stop = some field) :
    start ≤ stop ∧ stop ≤ bytes.length := by
  unfold slice? at read
  split at read
  · assumption
  · cases read

theorem beAt?_le {bytes : List UInt8} {start width value : Nat} (read : beAt? bytes start width = some value) :
    start + width ≤ bytes.length := by
  obtain ⟨_, sliced, _⟩ := Option.map_eq_some_iff.mp read
  exact (slice?_le sliced).2

theorem beAt?_lt {bytes : List UInt8} {start width value : Nat} (read : beAt? bytes start width = some value) :
    value < 256 ^ width := by
  have inside := beAt?_le read
  rw [beAt?, slice?, if_pos ⟨Nat.le_add_right .., inside⟩, Option.map_some, Option.some.injEq, Nat.add_sub_cancel_left] at read
  have bound := beNat_lt ((bytes.drop start).take width)
  rwa [read, List.length_take, List.length_drop, Nat.min_eq_left (by omega)] at bound

theorem beAt?_of_take {bytes : List UInt8} {count start width value : Nat}
    (read : beAt? (bytes.take count) start width = some value) : beAt? bytes start width = some value := by
  have inside := beAt?_le read
  rw [List.length_take] at inside
  rw [beAt?, slice?, if_pos ⟨Nat.le_add_right .., by rw [List.length_take]; omega⟩, List.drop_take, List.take_take,
    Nat.min_eq_left (by omega)] at read
  rw [beAt?, slice?, if_pos ⟨Nat.le_add_right .., by omega⟩]
  exact read

/-- The parser takes exactly the datagram: whatever follows it is left alone,
and nothing is accepted that ends before. -/
structure Delimits {Value : Type} (parse : List UInt8 → Option Value) (datagram : List UInt8) (value : Value) : Prop where
  appended : ∀ extra, parse (datagram ++ extra) = some value
  cut : ∀ count < datagram.length, parse (datagram.take count) = none

/-- A parser that accepts as much as a length field says delimits what carries
its own length. -/
theorem Delimits.of_length {Value : Type} {parse : List UInt8 → Option Value} {datagram : List UInt8} {value : Value}
    {start width length : Nat}
    (sized : ∀ {bytes value}, parse bytes = some value → ∃ field, beAt? bytes start width = some field ∧ length + field ≤ bytes.length)
    (field : beAt? datagram start width = some (datagram.length - length))
    (appended : ∀ extra, parse (datagram ++ extra) = some value) : Delimits parse datagram value where
  appended := appended
  cut count short := by
    refine Option.eq_none_iff_forall_ne_some.mpr fun _ parsed => ?_
    obtain ⟨claimed, read, fits⟩ := sized parsed
    cases (beAt?_of_take read).symm.trans field
    rw [List.length_take] at fits
    omega

end Telegenic.Library
