/-! Continuation fields as numbers. A complete field is a list of bytes that ends at
the first byte with a clear top bit or at the cap; its value is the sum of its groups,
each worth 128 times the one before. -/

namespace SingleWire.Continuation

/-- Splits off the field at the start of some bytes; nothing if they end inside it. -/
def split? (cap : Nat) : List UInt8 → Option (List UInt8 × List UInt8)
  | [] => none
  | byte :: rest =>
    if cap ≤ 1 ∨ byte.toNat < 128 then some ([byte], rest)
    else (split? (cap - 1) rest).map fun (field, rest) => (byte :: field, rest)

/-- The sum of the groups. The byte at the cap counts in full. -/
def sum (cap : Nat) : List UInt8 → Nat
  | [] => 0
  | byte :: rest => (if cap ≤ 1 then byte.toNat else byte.toNat % 128) + 128 * sum (cap - 1) rest

/-- A number as a field of exactly `count` bytes. -/
def groups : (count : Nat) → (value : Nat) → List UInt8
  | 0, _ => []
  | 1, value => [value.toUInt8]
  | count + 2, value => (128 + value % 128).toUInt8 :: groups (count + 1) (value / 128)

/-- Whether a number has a field of exactly `count` bytes. -/
def Fits (cap count value : Nat) : Prop :=
  0 < count ∧ (count < cap ∧ value < 1 <<< (7 * count) ∨ count = cap ∧ value < 1 <<< (7 * count + 1))

end SingleWire.Continuation
