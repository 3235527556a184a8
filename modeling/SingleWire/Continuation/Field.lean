/-! Integers of variable length. A field is a sequence of groups of seven bits,
least significant group first, one group to a byte. The top bit of a byte says
that another byte follows. Every field has a cap on its length: the byte at the
cap ends the field whatever its top bit is, and gives all its eight bits. Bits
from the 64th on are dropped. -/

namespace SingleWire.Continuation

/-- A field whose bytes may arrive in pieces. Any values of the four parts can be
restored from a saved field, so none of them is assumed to agree with the others. -/
structure Field where
  value : UInt64
  length : UInt64
  cap : UInt64
  complete : Bool
deriving DecidableEq

/-- The sum of two words, unless it leaves the word. -/
def add? (first second : UInt64) : Option UInt64 :=
  if first.toNat + second.toNat < UInt64.size then some (first + second) else none

/-- The product of two words, unless it leaves the word. -/
def mul? (first second : UInt64) : Option UInt64 :=
  if first.toNat * second.toNat < UInt64.size then some (first * second) else none

/-- Overwrites `width` bits of `value` from bit `start` on with the low bits of a byte. -/
def overwrite (value start width : UInt64) (byte : UInt8) : UInt64 :=
  let mask := ((1 <<< width) - 1) <<< start
  (value &&& ~~~mask) ||| ((byte.toUInt64 <<< start) &&& mask)

namespace Field

/-- An empty field. A cap of zero counts as one. -/
def new (cap : UInt64) : Field :=
  { value := 0, length := 0, cap := if cap = 0 then 1 else cap, complete := false }

def isEmpty (field : Field) : Bool := field.length == 0

/-- Adds a byte. Its place is counted in words; where a count leaves its word the program
stops, and nothing is returned. -/
def push (field : Field) (byte : UInt8) : Option Field := do
  let length ← add? field.length 1
  let last := length == field.cap
  let start ← mul? 7 field.length
  let reach ← add? start (if last then 8 else 7)
  let stop := min reach 64
  let value := if start < stop then overwrite field.value start (stop - start) byte else field.value
  return { field with value, length, complete := last || byte < 0x80 }

/-- Adds bytes up to the end of the field and ignores those after it. -/
def resume (field : Field) : List UInt8 → Option Field
  | [] => some field
  | byte :: rest => if field.complete then some field else (field.push byte).bind (·.resume rest)

def ended? (field : Field) : Option UInt64 :=
  if field.complete then some field.length else none

end Field

/-- What a field at the start of some bytes comes to. -/
inductive Reading where
  | complete (value : UInt64) (length : UInt64)
  /-- The bytes end inside the field. -/
  | incomplete
deriving DecidableEq

/-- Reads the field at the start of `bytes`. -/
def read (cap : UInt64) (bytes : List UInt8) : Option Reading := do
  let field ← (Field.new cap).resume bytes
  return match field.ended? with
    | some length => .complete field.value length
    | none => .incomplete

end SingleWire.Continuation
