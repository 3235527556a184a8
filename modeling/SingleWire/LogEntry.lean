import SingleWire.Packet
import SingleWire.Fault
import SingleWire.ByteSource

/-! What a decoder notes down while it works. -/

namespace SingleWire

inductive LogLevel where
  | trace
  | debug
  | warn
deriving DecidableEq

inductive LogEntry where
  /-- The source gave so many bytes. -/
  | pulled (count : Nat)
  /-- The source ended when so many bytes had been received in all. -/
  | exhausted (total : Nat)
  | failed (failure : Failure)
  | decoded (packet : Packet)
  | skipped (fault : Fault)
deriving DecidableEq

namespace LogEntry

def level : LogEntry → LogLevel
  | pulled _ | decoded _ => .trace
  | exhausted _ | skipped _ => .debug
  | failed _ => .warn

def ofItem : Except Fault Packet → LogEntry
  | .ok packet => decoded packet
  | .error fault => skipped fault

end LogEntry

end SingleWire
