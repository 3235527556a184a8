import SingleWire.Packet
import SingleWire.Continuation.Groups

/-! The forms that a packet may have on the wire. A value may be sent in any number of
groups that it fits into, and a small page number either in the header or with a tail. -/

namespace SingleWire.Wire

open Continuation (groups Fits)

def relationBits : TimestampRelation → Nat
  | .sync => 0
  | .unknownDelay => 1
  | .associatedEventDelay => 2
  | .unknownAssociatedEventDelay => 3

def unitBit : TraceUnit → Nat
  | .instrumentation => 0
  | .watchpoint => 1

def sizeBits : PayloadSize → Nat
  | .one => 1
  | .two => 2
  | .four => 3

def extensionHeader (unit : TraceUnit) (page more : Nat) : UInt8 :=
  (128 * more + 16 * (page % 8) + 8 + 4 * unitBit unit).toUInt8

/-- The value of a full tail with the two flags above the 26 bits of the timestamp. -/
def flagged (ticks : Nat) (wrapped clockChanged : Bool) : Nat :=
  ticks + (clockChanged.toNat <<< 26) + (wrapped.toNat <<< 27)

/-- `Form width packet bytes` says that a chip with counters of this width may send the
packet as these bytes. -/
inductive Form (width : TimestampWidth) : Packet → List UInt8 → Prop where
  | sync (zeros : Nat) (enough : 5 ≤ zeros) : Form width (.sync zeros) (List.replicate zeros 0 ++ [0x80])
  | overflow : Form width .overflow [0x70]
  | shortTimestamp (ticks : UInt32) (least : 1 ≤ ticks) (most : ticks ≤ 6) :
    Form width (.localTimestamp .short ticks .sync) [(16 * ticks.toNat).toUInt8]
  | longTimestamp (ticks : UInt32) (relation : TimestampRelation) (count : Nat) (fits : Fits 4 count ticks.toNat) :
    Form width (.localTimestamp .long ticks relation)
      ((0xC0 + 16 * relationBits relation).toUInt8 :: groups count ticks.toNat)
  | compressedLow (ticks : UInt32) (count : Nat) (short : count < 4) (fits : Fits 4 count ticks.toNat) :
    Form width (.globalLow ticks false false) (0x94 :: groups count ticks.toNat)
  | fullLow (ticks : UInt32) (wrapped clockChanged : Bool) (small : ticks.toNat < 1 <<< 26) :
    Form width (.globalLow ticks wrapped clockChanged) (0x94 :: groups 4 (flagged ticks.toNat wrapped clockChanged))
  | high (ticks : UInt64) (count : Nat) (small : ticks.toNat < 1 <<< (width.bits - 26))
      (fits : Fits width.highTailCap count ticks.toNat) :
    Form width (.globalHigh ticks) (0xB4 :: groups count ticks.toNat)
  | headerPage (unit : TraceUnit) (page : UInt32) (small : page < 8) :
    Form width (.extension unit page) [extensionHeader unit page.toNat 0]
  | tailPage (unit : TraceUnit) (page : UInt32) (count : Nat) (fits : Fits 4 count (page.toNat / 8)) :
    Form width (.extension unit page) (extensionHeader unit page.toNat 1 :: groups count (page.toNat / 8))
  | stimulus (port : UInt8) (size : PayloadSize) (payload : List UInt8) (known : port < 32)
      (sized : payload.length = size.bytes) :
    Form width (.stimulus port size payload) ((8 * port.toNat + sizeBits size).toUInt8 :: payload)
  | hardware (discriminator : UInt8) (size : PayloadSize) (payload : List UInt8) (known : discriminator < 32)
      (sized : payload.length = size.bytes) :
    Form width (.hardware discriminator size payload) ((8 * discriminator.toNat + 4 + sizeBits size).toUInt8 :: payload)

inductive Stream (width : TimestampWidth) : List Packet → List UInt8 → Prop where
  | nil : Stream width [] []
  | cons {packet : Packet} {packets : List Packet} {bytes rest : List UInt8} (first : Form width packet bytes)
      (later : Stream width packets rest) : Stream width (packet :: packets) (bytes ++ rest)

/-- The packets that a chip with counters of this width can send. -/
def Sendable (width : TimestampWidth) : Packet → Prop
  | .sync zeros => 5 ≤ zeros
  | .overflow => True
  | .localTimestamp .short ticks relation => 1 ≤ ticks ∧ ticks ≤ 6 ∧ relation = .sync
  | .localTimestamp .long ticks _ => ticks.toNat < 1 <<< 29
  | .globalLow ticks _ _ => ticks.toNat < 1 <<< 26
  | .globalHigh ticks => ticks.toNat < 1 <<< (width.bits - 26)
  | .extension _ _ => True
  | .stimulus port size payload => port < 32 ∧ payload.length = size.bytes
  | .hardware discriminator size payload => discriminator < 32 ∧ payload.length = size.bytes

end SingleWire.Wire
