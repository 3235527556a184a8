import SingleWire.Fault
import SingleWire.ByteSource

/-! The two reasons for which a decoder reports an error. -/

namespace SingleWire

/-- Why a decoder gives no packet although it is not waiting for bytes. -/
inductive DecodeError where
  | malformed (fault : Fault)
  | source (failure : Failure)
deriving DecidableEq

namespace DecodeError

def message : DecodeError → String
  | malformed fault => s!"A malformed packet was encountered: {fault.message}"
  | source failure => s!"Byte source failed: {failure.message}"

/-- The errors behind this one, outermost first. -/
def causes : DecodeError → List String
  | malformed fault => [fault.message, fault.cause.message]
  | source failure => [failure.message]

end DecodeError

end SingleWire
