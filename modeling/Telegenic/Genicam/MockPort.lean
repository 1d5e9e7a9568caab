import Telegenic.Genicam.Engine
import Telegenic.Library.Memory

/-! A port that is plain memory. -/

set_option autoImplicit false

namespace Telegenic.Genicam

open Library

-- Sizes of small graphs.
instance two_neZero : NeZero 2 := ⟨two_ne_zero⟩

instance three_neZero : NeZero 3 := ⟨three_ne_zero⟩

instance four_neZero : NeZero 4 := ⟨four_ne_zero⟩

/-- The `{:#x}` text of an address. -/
def hexText (address : Nat) : String := "0x" ++ String.ofList (Nat.toDigits 16 address)

def mockReadError (address : Nat) : Control.CameraError :=
  .protocol ("mock read out of range " ++ hexText address)

def mockWriteError (address : Nat) : Control.CameraError :=
  .protocol ("mock write out of range " ++ hexText address)

/-- A flat in-memory port: a byte array addressed from 0. -/
def mockPort : PortIo (List UInt8) where
  read address length memory :=
    match load? memory address length with
    | some bytes => (.ok bytes, memory)
    | none => (.error (mockReadError address), memory)
  write address data memory :=
    match store? memory address data with
    | some after => (.ok (), after)
    | none => (.error (mockWriteError address), memory)
  read_length := by
    intro address length memory bytes after answered
    split at answered
    case h_1 loaded =>
      cases answered
      exact load?_length loaded
    case h_2 => nomatch answered

theorem mockPort_read (address length : Nat) (memory : List UInt8) :
    mockPort.read address length memory =
      ((load? memory address length).elim (.error (mockReadError address)) .ok, memory) := by
  simp only [mockPort]
  cases load? memory address length <;> rfl

theorem mockPort_write_some {address : Nat} {data memory after : List UInt8}
    (stored : store? memory address data = some after) : mockPort.write address data memory = (.ok (), after) := by
  simp only [mockPort, stored]

theorem mockPort_write_none {address : Nat} {data memory : List UInt8} (refused : store? memory address data = none) :
    mockPort.write address data memory = (.error (mockWriteError address), memory) := by
  simp only [mockPort, refused]

/-- A platform for small graphs: floats are integers and a formula is the name
of a variable. -/
def plainPlatform : Platform where
  Float := Int64
  Expr := String
  ofInt v := v
  round v := v
  ofSingle raw := Int64.ofBitVec (raw.setWidth 64)
  toSingle v := v.toBitVec.setWidth 32
  ofDouble := Int64.ofBitVec
  toDouble := Int64.toBitVec
  lowest := Int64.minValue
  highest := Int64.maxValue
  lossyText bytes := String.ofList (bytes.map fun byte => Char.ofNat byte.toNat)
  parse := .ok
  vars name := [name]
  eval
    | _, value :: _ => .ok value
    | name, [] => .error name

/-- A register at a literal address that reads and writes little-endian
integers. -/
def plainRegister (address length : Int64) {n : Nat} : Node plainPlatform n :=
  .register { addressTerms := [.direct (.litInt address)], length := .direct (.litInt length), access := .RW }
    (.int .unsigned .little none none)

end Telegenic.Genicam
