import SingleWire.Packet
import SingleWire.Form.Term

/-! How packets and decoder options are shown and saved. -/

namespace SingleWire

namespace PayloadSize

def all : List PayloadSize := [one, two, four]

def name : PayloadSize → String
  | one => "One"
  | two => "Two"
  | four => "Four"

def ofTree? (tree : Tree) : Option PayloadSize := tree.choice? all name

end PayloadSize

namespace TimestampFormat

def all : List TimestampFormat := [short, long]

def name : TimestampFormat → String
  | short => "Short"
  | long => "Long"

def ofTree? (tree : Tree) : Option TimestampFormat := tree.choice? all name

end TimestampFormat

namespace TimestampRelation

def all : List TimestampRelation := [sync, unknownDelay, associatedEventDelay, unknownAssociatedEventDelay]

def name : TimestampRelation → String
  | sync => "Sync"
  | unknownDelay => "UnknownDelay"
  | associatedEventDelay => "AssocEventDelay"
  | unknownAssociatedEventDelay => "UnknownAssocEventDelay"

def ofTree? (tree : Tree) : Option TimestampRelation := tree.choice? all name

end TimestampRelation

namespace TraceUnit

def all : List TraceUnit := [instrumentation, watchpoint]

def name : TraceUnit → String
  | instrumentation => "Itm"
  | watchpoint => "Dwt"

def ofTree? (tree : Tree) : Option TraceUnit := tree.choice? all name

end TraceUnit

namespace TimestampWidth

def all : List TimestampWidth := [bits48, bits64]

def name : TimestampWidth → String
  | bits48 => "Bits48"
  | bits64 => "Bits64"

def ofTree? (tree : Tree) : Option TimestampWidth := tree.choice? all name

end TimestampWidth

namespace Options

def term (options : Options) : Term :=
  .record "DecoderOptions" [("gts_width", .choice options.timestampWidth.name)]

def ofTree? (tree : Tree) : Option Options := do
  let timestampWidth ← TimestampWidth.ofTree? (← (tree.labelled ["gts_width"]).get? "gts_width")
  return { timestampWidth }

end Options

namespace Packet

def term : Packet → Term
  | .sync zeros => .variant "Sync" [("zeros", .number zeros)]
  | .overflow => .choice "Overflow"
  | .localTimestamp format ticks relation =>
    .variant "LocalTimestamp"
      [("format", .choice format.name), ("ts", .number ticks.toNat), ("data_relation", .choice relation.name)]
  | .globalLow ticks wrapped clockChanged =>
    .variant "GlobalTimestamp1" [("ts", .number ticks.toNat), ("wrap", .flag wrapped), ("clkch", .flag clockChanged)]
  | .globalHigh ticks => .variant "GlobalTimestamp2" [("ts", .number ticks.toNat)]
  | .extension unit page => .variant "Extension" [("source", .choice unit.name), ("page", .number page.toNat)]
  | .stimulus port size payload =>
    .variant "Instrumentation" [("port", .number port.toNat), ("size", .choice size.name), ("payload", .bytes payload)]
  | .hardware discriminator size payload =>
    .variant "HardwareSource"
      [("disc_id", .number discriminator.toNat), ("size", .choice size.name), ("payload", .bytes payload)]

def text (packet : Packet) : String := packet.term.text

/-- The packet of the variant with the given name and contents. -/
def ofVariant? (name : String) (contents : Tree) : Option Packet :=
  match name with
  | "Sync" => return .sync (← (← contents.get? "zeros").count?)
  | "LocalTimestamp" =>
    return .localTimestamp (← TimestampFormat.ofTree? (← contents.get? "format"))
      (← (← contents.get? "ts").word32?) (← TimestampRelation.ofTree? (← contents.get? "data_relation"))
  | "GlobalTimestamp1" =>
    return .globalLow (← (← contents.get? "ts").word32?) (← (← contents.get? "wrap").flag?)
      (← (← contents.get? "clkch").flag?)
  | "GlobalTimestamp2" => return .globalHigh (← (← contents.get? "ts").word64?)
  | "Extension" =>
    return .extension (← TraceUnit.ofTree? (← contents.get? "source")) (← (← contents.get? "page").word32?)
  | "Instrumentation" =>
    return .stimulus (← (← contents.get? "port").byte?) (← PayloadSize.ofTree? (← contents.get? "size"))
      (← (← contents.get? "payload").bytes?)
  | "HardwareSource" =>
    return .hardware (← (← contents.get? "disc_id").byte?) (← PayloadSize.ofTree? (← contents.get? "size"))
      (← (← contents.get? "payload").bytes?)
  | _ => none

def ofTree? (tree : Tree) : Option Packet :=
  match tree.choice? [Packet.overflow] fun _ => "Overflow" with
  | some packet => some packet
  | none => tree.variant?.bind fun (name, contents) => ofVariant? name contents

end Packet

end SingleWire
