import SingleWire.CommandLine.Printable

/-! The name of a file between double quotes, with marks for the characters that
would not be seen or would end the quotation. -/

namespace SingleWire.CommandLine

def quotedChar (c : Char) : String :=
  match c with
  | '\x00' => "\\0"
  | '\t' => "\\t"
  | '\n' => "\\n"
  | '\r' => "\\r"
  | '"' => "\\\""
  | '\\' => "\\\\"
  | c => if isPrintable c then c.toString else "\\u\x7b" ++ String.ofList (Nat.toDigits 16 c.toNat) ++ "\x7d"

def quoted (name : String) : String := "\"" ++ String.join (name.toList.map quotedChar) ++ "\""

end SingleWire.CommandLine
