import SingleWire.Watchpoint
import SingleWire.Form.Term

/-! How watchpoint events are shown and saved. -/

namespace SingleWire

namespace ExceptionAction

def all : List ExceptionAction := [entered, exited, returned]

def name : ExceptionAction → String
  | entered => "Entered"
  | exited => "Exited"
  | returned => "Returned"

def ofTree? (tree : Tree) : Option ExceptionAction := tree.choice? all name

end ExceptionAction

namespace MemoryAccess

def all : List MemoryAccess := [read, write]

def name : MemoryAccess → String
  | read => "Read"
  | write => "Write"

def ofTree? (tree : Tree) : Option MemoryAccess := tree.choice? all name

end MemoryAccess

namespace WatchpointEvent

def term : WatchpointEvent → Term
  | .counterWrap cycles folded loadStore sleep exception perInstruction =>
    .variant "EventCounterWrap"
      [("cyc", .flag cycles), ("fold", .flag folded), ("lsu", .flag loadStore),
        ("sleep", .flag sleep), ("exc", .flag exception), ("cpi", .flag perInstruction)]
  | .exceptionTrace exception action =>
    .variant "ExceptionTrace" [("exception", .number exception.toNat), ("action", .choice action.name)]
  | .counterSample counter => .variant "PCSample" [("pc", .optional (counter.map (·.toNat)))]
  | .accessCounter comparator counter =>
    .variant "DataTracePC" [("comparator", .number comparator.toNat), ("pc", .number counter.toNat)]
  | .accessAddress comparator address =>
    .variant "DataTraceAddress" [("comparator", .number comparator.toNat), ("address", .number address.toNat)]
  | .accessValue comparator access value =>
    .variant "DataTraceValue"
      [("comparator", .number comparator.toNat), ("access_type", .choice access.name), ("value", .bytes value)]

def text (event : WatchpointEvent) : String := event.term.text

/-- A program counter that may be missing. -/
def optionalCounter? : Option Tree → Option (Option UInt32)
  | none | some .null => some none
  | some tree => tree.word32?.map some

/-- The event of the variant with the given name and contents. -/
def ofVariant? (name : String) (contents : Tree) : Option WatchpointEvent :=
  match name with
  | "EventCounterWrap" =>
    return .counterWrap (← (← contents.get? "cyc").flag?) (← (← contents.get? "fold").flag?)
      (← (← contents.get? "lsu").flag?) (← (← contents.get? "sleep").flag?)
      (← (← contents.get? "exc").flag?) (← (← contents.get? "cpi").flag?)
  | "ExceptionTrace" =>
    return .exceptionTrace (← (← contents.get? "exception").word16?)
      (← ExceptionAction.ofTree? (← contents.get? "action"))
  | "PCSample" =>
    match contents with
    | .record _ => return .counterSample (← optionalCounter? (contents.get? "pc"))
    | _ => none
  | "DataTracePC" =>
    return .accessCounter (← (← contents.get? "comparator").byte?) (← (← contents.get? "pc").word32?)
  | "DataTraceAddress" =>
    return .accessAddress (← (← contents.get? "comparator").byte?) (← (← contents.get? "address").word16?)
  | "DataTraceValue" =>
    return .accessValue (← (← contents.get? "comparator").byte?)
      (← MemoryAccess.ofTree? (← contents.get? "access_type")) (← (← contents.get? "value").bytes?)
  | _ => none

def ofTree? (tree : Tree) : Option WatchpointEvent :=
  tree.variant?.bind fun (name, contents) => ofVariant? name contents

end WatchpointEvent

end SingleWire
