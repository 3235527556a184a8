import SingleWire.Packet

/-! The first byte of a packet. It is either a whole packet or tells the shape of
what follows: a run of zeros, a payload of known size, or a tail that ends at the
first byte with a clear top bit. -/

namespace SingleWire

/-- The two families of packets with a payload of known size. -/
inductive SourceKind where
  | stimulus (port : UInt8)
  | hardware (discriminator : UInt8)
deriving DecidableEq

def SourceKind.packet (kind : SourceKind) (size : PayloadSize) (payload : List UInt8) : Packet :=
  match kind with
  | stimulus port => .stimulus port size payload
  | hardware discriminator => .hardware discriminator size payload

/-- The packets that carry a continuation field as their tail. -/
inductive TailKind where
  | localTimestamp (relation : TimestampRelation)
  | globalLow
  | globalHigh
  /-- The header holds the three lowest bits of the page. -/
  | extension (unit : TraceUnit) (lowPage : UInt8)
deriving DecidableEq

namespace TailKind

/-- The most bytes that the tail may have. -/
def cap (width : TimestampWidth) : TailKind → UInt64
  | globalHigh => UInt64.ofNat width.highTailCap
  | _ => 4

/-- The packet made of a tail with the given value, length and last byte. Only a full
tail of the low half of a timestamp has room for its two flags. -/
def packet (width : TimestampWidth) (kind : TailKind) (value length : UInt64) (last : UInt8) : Packet :=
  match kind with
  | localTimestamp relation => .localTimestamp .long value.toUInt32 relation
  | globalLow =>
    if length = 4 then
      .globalLow (value &&& 0x3FFFFFF).toUInt32 (last &&& 0x40 != 0) (last &&& 0x20 != 0)
    else .globalLow value.toUInt32 false false
  | globalHigh => .globalHigh (value &&& width.highMask)
  | extension unit lowPage => .extension unit ((value <<< 3).toUInt32 ||| lowPage.toUInt32)

end TailKind

/-- What a header says about its packet. -/
inductive Header where
  | zeroRun
  | whole (packet : Packet)
  | payload (kind : SourceKind) (size : PayloadSize)
  | tail (kind : TailKind)
deriving DecidableEq

namespace Header

/-- A header with low bits `1s00` and top bit `more`: three page bits lie between. -/
def extension (byte : UInt8) : Header :=
  let unit : TraceUnit := if byte &&& 0x04 = 0 then .instrumentation else .watchpoint
  let lowPage := (byte >>> 4) &&& 7
  if byte < 0x80 then .whole (.extension unit lowPage.toUInt32) else .tail (.extension unit lowPage)

/-- The upper five bits of a source header are its port or discriminator. -/
def source? (byte : UInt8) : Option Header :=
  let kind : SourceKind := if byte &&& 0x04 = 0 then .stimulus (byte >>> 3) else .hardware (byte >>> 3)
  (PayloadSize.ofBits? (byte &&& 3)).map (.payload kind)

/-- Reserved headers have no meaning. The patterns overlap, and the first that
matches decides. -/
def ofByte? (byte : UInt8) : Option Header :=
  if byte = 0x00 then some .zeroRun
  else if byte = 0x70 then some (.whole .overflow)
  else if byte &&& 0xCF = 0xC0 then some (.tail (.localTimestamp (.ofBits (byte >>> 4))))
  else if byte &&& 0x8F = 0x00 then some (.whole (.localTimestamp .short (byte >>> 4).toUInt32 .sync))
  else if byte = 0x94 then some (.tail .globalLow)
  else if byte = 0xB4 then some (.tail .globalHigh)
  else if byte &&& 0x0B = 0x08 then some (extension byte)
  else source? byte

end Header

end SingleWire
