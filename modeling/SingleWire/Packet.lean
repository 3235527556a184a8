/-! The packets of the trace protocol that a debug probe receives over the single
wire output pin of a microcontroller. The instrumentation unit writes what the
software sends to its stimulus ports; the watchpoint unit adds hardware events;
timestamps, overflows and synchronization packets are interleaved with both. -/

namespace SingleWire

/-- How many payload bytes follow the header of a source packet. -/
inductive PayloadSize where
  | one
  | two
  | four
deriving DecidableEq

namespace PayloadSize

def bytes : PayloadSize → Nat
  | one => 1
  | two => 2
  | four => 4

/-- The two lowest bits of a source header give the size; zero is reserved. -/
def ofBits? (bits : UInt8) : Option PayloadSize :=
  if bits = 1 then some one
  else if bits = 2 then some two
  else if bits = 3 then some four
  else none

end PayloadSize

/-- A short local timestamp is a header alone, a long one has a tail. -/
inductive TimestampFormat where
  | short
  | long
deriving DecidableEq

/-- When a local timestamp was generated, and whether its packet was delayed. -/
inductive TimestampRelation where
  | sync
  | unknownDelay
  | associatedEventDelay
  | unknownAssociatedEventDelay
deriving DecidableEq

namespace TimestampRelation

/-- Only the two lowest bits count. -/
def ofBits (bits : UInt8) : TimestampRelation :=
  let low := bits &&& 3
  if low = 0 then sync
  else if low = 1 then unknownDelay
  else if low = 2 then associatedEventDelay
  else unknownAssociatedEventDelay

end TimestampRelation

/-- The unit whose pages an extension packet selects. -/
inductive TraceUnit where
  | instrumentation
  | watchpoint
deriving DecidableEq

/-- The width of the global timestamp counter, which the chip designer chooses. -/
inductive TimestampWidth where
  | bits48
  | bits64
deriving DecidableEq

namespace TimestampWidth

def bits : TimestampWidth → Nat
  | bits48 => 48
  | bits64 => 64

/-- The most bytes that the tail of a high half may have. -/
def highTailCap : TimestampWidth → Nat
  | bits48 => 4
  | bits64 => 6

/-- The bits of a tail that belong to the high half of the timestamp. The low half holds 26. -/
def highMask : TimestampWidth → UInt64
  | bits48 => 0x3FFFFF
  | bits64 => 0x3FFFFFFFFF

end TimestampWidth

/-- What a decoder has to know about the chip at the other end of the wire. -/
structure Options where
  timestampWidth : TimestampWidth := .bits48
deriving DecidableEq

/-- Payload bytes come least significant first. -/
inductive Packet where
  /-- A run of zero bytes ended by `0x80`, which aligns the receiver. -/
  | sync (zeros : Nat)
  /-- Packets were lost because an output buffer was full. -/
  | overflow
  /-- Time since the last local timestamp. -/
  | localTimestamp (format : TimestampFormat) (ticks : UInt32) (relation : TimestampRelation)
  /-- The low half of a global timestamp. The first flag says that the high half has changed,
  the second that the clock has. -/
  | globalLow (ticks : UInt32) (wrapped : Bool) (clockChanged : Bool)
  /-- The high half of a global timestamp. -/
  | globalHigh (ticks : UInt64)
  /-- Selects the page of the ports or discriminators in later source packets. -/
  | extension (unit : TraceUnit) (page : UInt32)
  /-- What the software wrote to a stimulus port. -/
  | stimulus (port : UInt8) (size : PayloadSize) (payload : List UInt8)
  /-- A packet of the watchpoint unit; the discriminator gives its type. -/
  | hardware (discriminator : UInt8) (size : PayloadSize) (payload : List UInt8)
deriving DecidableEq

/-- The number that bytes spell in 32 bits, least significant byte first. Bytes
beyond the fourth are shifted out. -/
def wordOfBytes : List UInt8 → UInt32
  | [] => 0
  | byte :: rest => (wordOfBytes rest <<< 8) ||| byte.toUInt32

/-- What holds of the byte of each number below 256 holds of every byte. -/
theorem forall_byte {claim : UInt8 → Prop} (all : ∀ number : Fin 256, claim (UInt8.ofNat number)) (byte : UInt8) :
    claim byte := by
  have same := all ⟨byte.toNat, byte.toNat_lt⟩
  rwa [UInt8.ofNat_toNat] at same

/-- The payload of a source packet read as a number; other packets have none. -/
def Packet.payloadValue : Packet → Option UInt32
  | .stimulus _ _ payload | .hardware _ _ payload => some (wordOfBytes payload)
  | _ => none

def Packet.payloadSize : Packet → Option PayloadSize
  | .stimulus _ size _ | .hardware _ size _ => some size
  | _ => none

end SingleWire
