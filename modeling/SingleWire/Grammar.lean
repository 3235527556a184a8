import SingleWire.Packet
import SingleWire.Fault
import SingleWire.Continuation.Groups

/-! The packet grammar over a whole stream at hand, in plain arithmetic on bytes. It
says what a decoder has to find in a stream, and keeps nothing between two frames. -/

namespace SingleWire.Grammar

open Continuation (split? sum)

/-- A packet or a malformation, with the number of bytes that it takes. -/
structure Frame where
  content : Except Malformation Packet
  length : Nat

/-- A run of `zeros` zero bytes and what follows it. -/
def zeroRun (zeros : Nat) : List UInt8 → Option Frame
  | [] => none
  | terminator :: _ =>
    if 5 ≤ zeros ∧ terminator = 0x80 then some ⟨.ok (.sync zeros), zeros + 1⟩
    else some ⟨.error (.brokenSync zeros terminator), zeros + 1⟩

/-- A header and the continuation field that follows it. -/
def tail (cap : Nat) (rest : List UInt8) (packet : List UInt8 → Nat → Packet) : Option Frame :=
  (split? cap rest).map fun (field, _) => ⟨.ok (packet field (sum cap field)), 1 + field.length⟩

/-- A header and a payload of known size. -/
def payload (size : PayloadSize) (rest : List UInt8) (packet : PayloadSize → List UInt8 → Packet) : Option Frame :=
  if rest.length < size.bytes then none
  else some ⟨.ok (packet size (rest.take size.bytes)), 1 + size.bytes⟩

def relation : Nat → TimestampRelation
  | 0 => .sync
  | 1 => .unknownDelay
  | 2 => .associatedEventDelay
  | _ => .unknownAssociatedEventDelay

def traceUnit (bit : Nat) : TraceUnit := if bit = 0 then .instrumentation else .watchpoint

/-- The packet of a low timestamp half. Its two flags lie above the 26 bits of a full tail. -/
def lowPacket (field : List UInt8) (value : Nat) : Packet :=
  if field.length < 4 then .globalLow value.toUInt32 false false
  else .globalLow (value % (1 <<< 26)).toUInt32 (value.testBit 27) (value.testBit 26)

/-- A source packet, by the two lowest bits of its header. -/
def source (header : Nat) (rest : List UInt8) : Option Frame :=
  let packet (size : PayloadSize) (bytes : List UInt8) : Packet :=
    if header / 4 % 2 = 0 then .stimulus (header / 8).toUInt8 size bytes else .hardware (header / 8).toUInt8 size bytes
  match header % 4 with
  | 1 => payload .one rest packet
  | 2 => payload .two rest packet
  | 3 => payload .four rest packet
  | _ => some ⟨.error (.reservedHeader header.toUInt8), 1⟩

/-- The frame at the start of some bytes; nothing if they end inside it. -/
def frame? (width : TimestampWidth) : List UInt8 → Option Frame
  | [] => none
  | byte :: rest =>
    let header := byte.toNat
    if header = 0x00 then zeroRun (1 + (rest.takeWhile (· = 0)).length) (rest.dropWhile (· = 0))
    else if header = 0x70 then some ⟨.ok .overflow, 1⟩
    else if header % 16 = 0 ∧ header < 0x70 then
      some ⟨.ok (.localTimestamp .short (header / 16).toUInt32 .sync), 1⟩
    else if header % 16 = 0 ∧ 0xC0 ≤ header then
      tail 4 rest fun _ value => .localTimestamp .long value.toUInt32 (relation (header / 16 % 4))
    else if header = 0x94 then tail 4 rest lowPacket
    else if header = 0xB4 then
      tail width.highTailCap rest fun _ value => .globalHigh (value % (1 <<< (width.bits - 26))).toUInt64
    else if header % 4 = 0 ∧ header / 8 % 2 = 1 then
      let page := header / 16 % 8
      let unit := traceUnit (header / 4 % 2)
      if header < 0x80 then some ⟨.ok (.extension unit page.toUInt32), 1⟩
      else tail 4 rest fun _ value => .extension unit (8 * value + page).toUInt32
    else source header rest

/-- The frames of a stream one after another, and the bytes that hold no complete frame.
The fuel bounds the number of frames. -/
def framesWithin (width : TimestampWidth) : (fuel : Nat) → List UInt8 → List Frame × List UInt8
  | 0, bytes => ([], bytes)
  | fuel + 1, bytes =>
    match frame? width bytes with
    | none => ([], bytes)
    | some frame =>
      let (frames, rest) := framesWithin width fuel (bytes.drop frame.length)
      (frame :: frames, rest)

/-- All frames of a stream. There are no more of them than bytes. -/
def frames (width : TimestampWidth) (bytes : List UInt8) : List Frame × List UInt8 :=
  framesWithin width bytes.length bytes

/-- The packets and faults of consecutive frames of a stream from position `offset` on. -/
def items (offset : Nat) (bytes : List UInt8) : List Frame → List (Except Fault Packet)
  | [] => []
  | frame :: rest =>
    let item := frame.content.mapError fun cause => { offset, bytes := bytes.take frame.length, cause }
    item :: items (offset + frame.length) (bytes.drop frame.length) rest

end SingleWire.Grammar
