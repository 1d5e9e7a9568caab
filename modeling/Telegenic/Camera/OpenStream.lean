import Telegenic.Camera.Negotiation

/-! Opening a stream channel: the device is pointed at the receive socket, the
packet size is settled, and the worker is started. When one of the later steps
fails, the channel is closed again. -/

set_option autoImplicit false

namespace Telegenic.Camera

open Library Proto Control

inductive PacketSize where
  | auto
  | fixed (size : Nat)
  deriving DecidableEq

structure StreamConfig where
  payloadSize : Option Nat
  packetSize : PacketSize
  packetDelay : Option Nat := none
  channel : Nat := 0
  deriving DecidableEq

def StreamConfig.checkedPayloadSize (cfg : StreamConfig) : Except CameraError Nat :=
  match cfg.payloadSize.filter (0 < ·) with
  | some size => .ok size
  | none => .error (.protocol "payload_size must be set")

def StreamConfig.channelBase (cfg : StreamConfig) : Nat := cfg.channel * Bootstrap.streamChannelStride

/-- The surroundings of an open: also what the checks of the options and the
binding of the socket come to, which give the host address and the port, and
whether the worker starts. -/
structure OpenSurroundings extends Surroundings where
  prepare : Except CameraError (Nat × Nat)
  spawn : Except CameraError Unit
  /-- The outcome of the write that closes the channel again. -/
  closing : Outcome

structure StreamChannel where
  channelBase : Nat
  packetSize : Nat
  payloadSize : Nat
  tickFrequency : Nat
  deriving DecidableEq

/-- The timestamp tick frequency, 0 where it cannot be read. -/
def readTickFrequency (around : Surroundings) : Stateful Line CameraError Nat := fun s =>
  let value := match around.outcome s.transactions with
    | .acknowledged => s.registers Bootstrap.timestampTickFrequencyHigh <<< 32 |||
        s.registers Bootstrap.timestampTickFrequencyLow
    | _ => 0
  (.ok value, { s with transactions := s.transactions + 1 })

def settlePacketSize (around : Surroundings) (cfg : StreamConfig) : Stateful Line CameraError Nat :=
  let scpsAddr := Bootstrap.streamChannelPacketSize + cfg.channelBase
  match cfg.packetSize with
  | .fixed size => do
      writeRegister around scpsAddr size
      return size
  | .auto => negotiatePacketSize around scpsAddr

def settlePacketDelay (around : Surroundings) (cfg : StreamConfig) : Stateful Line CameraError Unit :=
  match cfg.packetDelay with
  | some delay => writeRegister around (Bootstrap.streamChannelPacketDelay + cfg.channelBase) delay
  | none => pure ()

/-- The steps that are undone when one of them fails. -/
def establish (around : OpenSurroundings) (cfg : StreamConfig) (payloadSize : Nat) :
    Stateful Line CameraError StreamChannel := do
  let packetSize ← settlePacketSize around.toSurroundings cfg
  settlePacketDelay around.toSurroundings cfg
  let tickFrequency ← readTickFrequency around.toSurroundings
  Stateful.ofExcept around.spawn
  return { channelBase := cfg.channelBase, packetSize, payloadSize, tickFrequency }

/-- Points the device away from the host. -/
def closeChannel (around : OpenSurroundings) (cfg : StreamConfig) (s : Line) : Line :=
  { s with
    registers := around.closing.store (Bootstrap.streamChannelPort + cfg.channelBase) 0 s.registers
    transactions := s.transactions + 1 }

def openStream (around : OpenSurroundings) (cfg : StreamConfig) : Stateful Line CameraError StreamChannel := do
  let payloadSize ← Stateful.ofExcept cfg.checkedPayloadSize
  let (host, port) ← Stateful.ofExcept around.prepare
  writeRegister around.toSurroundings (Bootstrap.streamChannelDestAddress + cfg.channelBase) host
  writeRegister around.toSurroundings (Bootstrap.streamChannelPort + cfg.channelBase) port
  Stateful.inspectErr (establish around cfg payloadSize) (closeChannel around cfg)

/-! ## A failed open -/

variable {around : OpenSurroundings} {cfg : StreamConfig}

theorem Outcome.store_self {outcome : Outcome} (executed : ∀ error, outcome ≠ .unexecuted error) (address value : Nat)
    (registers : Nat → Nat) : outcome.store address value registers address = value := by
  cases outcome with
  | unexecuted error => exact absurd rfl (executed error)
  | _ => exact Function.update_self ..

theorem Outcome.store_of_ne {address other : Nat} (elsewhere : other ≠ address) (outcome : Outcome) (value : Nat)
    (registers : Nat → Nat) : outcome.store address value registers other = registers other := by
  cases outcome with
  | unexecuted error => rfl
  | _ => exact Function.update_of_ne elsewhere ..

/-- A device that does everything it is told. -/
def willing : OpenSurroundings where
  toSurroundings := exactPath 1500
  prepare := .ok (0xc0a80001, 50000)
  spawn := .ok ()
  closing := .acknowledged

def plainConfig : StreamConfig := { payloadSize := some 4096, packetSize := .fixed 1500 }

end Telegenic.Camera
