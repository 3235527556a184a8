import SingleWire.LogEntry
import SingleWire.Form.Packet

/-! The text of a decoder's log. -/

namespace SingleWire

def LogLevel.name : LogLevel → String
  | trace => "TRACE"
  | debug => "DEBUG"
  | warn => "WARN"

def LogEntry.message : LogEntry → String
  | pulled count => s!"pulled {count} bytes from source"
  | exhausted total => s!"byte source exhausted after {total} bytes"
  | failed failure => s!"byte source failed: {failure.message}"
  | decoded packet => s!"decoded {packet.text}"
  | skipped fault => s!"skipping malformed bytes: {fault.message}"

end SingleWire
