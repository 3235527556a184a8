/-! Where bytes come from. A source is asked for the next bytes and answers with
some, with none for now, with the end of the stream, or with a failure. -/

namespace SingleWire

/-- The kinds of failure that a source of bytes reports. Readers are asked again
after an interruption, and a read that would block has nothing to give yet. -/
inductive FailureKind where
  | interrupted
  | wouldBlock
  | other (name : String)
deriving DecidableEq

structure Failure where
  kind : FailureKind
  message : String
deriving DecidableEq

/-- What a source gives when asked for more bytes. -/
inductive Pulled where
  | data (bytes : List UInt8)
  /-- Nothing now, perhaps more later. -/
  | pending
  /-- Nothing now or later. -/
  | exhausted
deriving DecidableEq

/-- What an answer takes from the supply of its source: its bytes, and one for a failure. -/
def Pulled.cost : Except Failure Pulled → Nat
  | .ok (.data bytes) => bytes.length
  | .ok _ => 0
  | .error _ => 1

/-- A producer of bytes whose supply of bytes and failures is finite. It may stay
pending or exhausted for ever. -/
class ByteSource (σ : Type) where
  pull : σ → Except Failure Pulled × σ
  /-- A bound on the bytes and failures still to come. -/
  supply : σ → Nat
  supply_pull (source : σ) : supply (pull source).2 + Pulled.cost (pull source).1 ≤ supply source

end SingleWire
