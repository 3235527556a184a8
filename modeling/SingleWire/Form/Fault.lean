import SingleWire.Fault
import SingleWire.Form.Term

/-! How malformations and faults are shown and saved. -/

namespace SingleWire

namespace Malformation

def term : Malformation → Term
  | reservedHeader header => .wrapped "InvalidHeader" (.number header.toNat)
  | brokenSync zeros terminator =>
    .variant "InvalidSync" [("zeros", .number zeros), ("terminator", .number terminator.toNat)]
  | unknownDiscriminator discriminator size =>
    .variant "InvalidHardwareDisc" [("disc_id", .number discriminator.toNat), ("size", .number size)]
  | hardwarePayload discriminator payload =>
    .variant "InvalidHardwarePacket" [("disc_id", .number discriminator.toNat), ("payload", .bytes payload)]
  | exceptionAction exception function =>
    .variant "InvalidExceptionTrace" [("exception", .number exception.toNat), ("function", .number function.toNat)]
  | sampleSize payload => .variant "InvalidPCSampleSize" [("payload", .bytes payload)]

def text (malformation : Malformation) : String := malformation.term.text

/-- The malformation of the variant with the given name and contents. -/
def ofVariant? (name : String) (contents : Tree) : Option Malformation :=
  match name with
  | "InvalidHeader" => return .reservedHeader (← contents.byte?)
  | "InvalidSync" =>
    return .brokenSync (← (← contents.get? "zeros").count?) (← (← contents.get? "terminator").byte?)
  | "InvalidHardwareDisc" =>
    return .unknownDiscriminator (← (← contents.get? "disc_id").byte?) (← (← contents.get? "size").count?)
  | "InvalidHardwarePacket" =>
    return .hardwarePayload (← (← contents.get? "disc_id").byte?) (← (← contents.get? "payload").bytes?)
  | "InvalidExceptionTrace" =>
    return .exceptionAction (← (← contents.get? "exception").word16?) (← (← contents.get? "function").byte?)
  | "InvalidPCSampleSize" => return .sampleSize (← (← contents.get? "payload").bytes?)
  | _ => none

def ofTree? (tree : Tree) : Option Malformation :=
  tree.variant?.bind fun (name, contents) => ofVariant? name contents

end Malformation

namespace Fault

def term (fault : Fault) : Term :=
  .record "DecodeFault"
    [("offset", .number fault.offset), ("bytes", .bytes fault.bytes), ("packet", fault.cause.term)]

def text (fault : Fault) : String := fault.term.text

def ofTree? (tree : Tree) : Option Fault := do
  let fields := tree.labelled ["offset", "bytes", "packet"]
  let offset ← (← fields.get? "offset").count?
  let bytes ← (← fields.get? "bytes").bytes?
  let cause ← Malformation.ofTree? (← fields.get? "packet")
  return { offset, bytes, cause }

end Fault

end SingleWire
