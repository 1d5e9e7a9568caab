/-! Bootstrap registers of a GigE Vision device. -/

set_option autoImplicit false

namespace Telegenic.Proto.Bootstrap

/-- Bytes of bootstrap space a discovery acknowledge carries. -/
def discoveryDataSize : Nat := 0xf8

def gvcpCapability : Nat := 0x0934
def capPacketResend : Nat := 1 <<< 2

def controlChannelPrivilege : Nat := 0x0a00

/-- Bit numbers follow the register's little end. -/
def ccpControl : Nat := 1 <<< 1

/-- Stream channel 0 registers; channel `n` lives `n` strides further on. -/
def streamChannelPort : Nat := 0x0d00
def streamChannelPacketSize : Nat := 0x0d04
def streamChannelPacketDelay : Nat := 0x0d08
def streamChannelDestAddress : Nat := 0x0d18
def streamChannelStride : Nat := 0x40

def scpsDoNotFragment : Nat := 1 <<< 30
def scpsFireTestPacket : Nat := 1 <<< 31

def timestampTickFrequencyHigh : Nat := 0x093c
def timestampTickFrequencyLow : Nat := 0x0940

end Telegenic.Proto.Bootstrap
