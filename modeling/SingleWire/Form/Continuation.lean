import SingleWire.Continuation.Field
import SingleWire.Form.Term

/-! How continuation fields and their readings are shown and saved. -/

namespace SingleWire.Continuation

namespace Field

def term (field : Field) : Term :=
  .record "Field"
    [("value", .number field.value.toNat), ("len", .number field.length.toNat),
      ("max_len", .number field.cap.toNat), ("complete", .flag field.complete)]

/-- Any saved field is taken as it is. -/
def ofTree? (tree : Tree) : Option Field := do
  let fields := tree.labelled ["value", "len", "max_len", "complete"]
  let value ← (← fields.get? "value").word64?
  let length ← (← fields.get? "len").word64?
  let cap ← (← fields.get? "max_len").word64?
  let complete ← (← fields.get? "complete").flag?
  return { value, length, cap, complete }

end Field

namespace Reading

def term : Reading → Term
  | .complete value length => .variant "Complete" [("value", .number value.toNat), ("len", .number length.toNat)]
  | .incomplete => .choice "Incomplete"

def ofTree? (tree : Tree) : Option Reading :=
  match tree.choice? [Reading.incomplete] fun _ => "Incomplete" with
  | some reading => some reading
  | none => tree.variant?.bind fun (name, contents) =>
    match name with
    | "Complete" => return .complete (← (← contents.get? "value").word64?) (← (← contents.get? "len").word64?)
    | _ => none

end Reading

end SingleWire.Continuation
