/-! What can be wrong with a stretch of the stream or with the payload of a
hardware packet, and how it is reported. -/

namespace SingleWire

/-- A sync packet has at least 47 zero bits, so five zero bytes before its `0x80`. -/
def syncMinimum : Nat := 5

def binaryDigits (byte : UInt8) : String :=
  String.ofList ((List.range 8).reverse.map fun position => if byte.toNat.testBit position then '1' else '0')

def hexDigits (byte : UInt8) : String :=
  String.ofList [Nat.digitChar (byte.toNat / 16), Nat.digitChar (byte.toNat % 16)]

/-- Why some bytes are no packet, or a hardware payload is no event. -/
inductive Malformation where
  | reservedHeader (header : UInt8)
  /-- A run of zeros that is too short or ends in the wrong byte. -/
  | brokenSync (zeros : Nat) (terminator : UInt8)
  | unknownDiscriminator (discriminator : UInt8) (size : Nat)
  | hardwarePayload (discriminator : UInt8) (payload : List UInt8)
  | exceptionAction (exception : UInt16) (function : UInt8)
  | sampleSize (payload : List UInt8)
deriving DecidableEq

def Malformation.message : Malformation → String
  | reservedHeader header => s!"Header is invalid and cannot be decoded: 0b{binaryDigits header}"
  | brokenSync zeros terminator =>
    s!"Synchronization packet is invalid: {zeros} zero bytes terminated by 0x{hexDigits terminator} "
      ++ s!"(expected at least {syncMinimum} zero bytes terminated by 0x80)"
  | unknownDiscriminator discriminator _ =>
    s!"Hardware source packet discriminator ID is invalid: {discriminator.toNat}"
  | hardwarePayload discriminator payload =>
    s!"Hardware source packet type discriminator ID ({discriminator.toNat}) "
      ++ s!"or payload length ({payload.length}) is invalid"
  | exceptionAction exception function =>
    s!"IRQ number {exception.toNat} and/or action {function.toNat} is invalid"
  | sampleSize payload => s!"Payload length of PC sample is invalid: {payload.length}"

/-- Malformed bytes that were skipped, with their position in the stream. -/
structure Fault where
  offset : Nat
  bytes : List UInt8
  cause : Malformation
deriving DecidableEq

def Fault.message (fault : Fault) : String :=
  s!"{fault.cause.message} (at stream offset {fault.offset})"

end SingleWire
