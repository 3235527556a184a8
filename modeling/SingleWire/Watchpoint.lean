import SingleWire.Packet
import SingleWire.Fault

/-! Events of the watchpoint unit. The discriminator of a hardware packet gives the
kind of its event, and for data traces the comparator and the direction as well; the
payload gives the rest. -/

namespace SingleWire

/-- What the processor did with an exception. -/
inductive ExceptionAction where
  | entered
  | exited
  | returned
deriving DecidableEq

inductive MemoryAccess where
  | read
  | write
deriving DecidableEq

inductive WatchpointEvent where
  /-- Event counters that have wrapped: cycles, folded instructions, load and store,
  sleep, exception overhead, and cycles per instruction. -/
  | counterWrap (cycles folded loadStore sleep exception perInstruction : Bool)
  | exceptionTrace (exception : UInt16) (action : ExceptionAction)
  /-- A sampled program counter, or none while the processor sleeps. -/
  | counterSample (counter : Option UInt32)
  /-- The program counter at the access that a comparator matched. -/
  | accessCounter (comparator : UInt8) (counter : UInt32)
  /-- The low half of the address that a comparator matched. -/
  | accessAddress (comparator : UInt8) (address : UInt16)
  /-- The data of the access that a comparator matched. -/
  | accessValue (comparator : UInt8) (access : MemoryAccess) (value : List UInt8)
deriving DecidableEq

namespace ExceptionAction

/-- Bits 5 and 4 of the second byte of an exception trace. -/
def ofFunction? (function : UInt8) : Option ExceptionAction :=
  if function = 1 then some entered
  else if function = 2 then some exited
  else if function = 3 then some returned
  else none

def function : ExceptionAction → UInt8
  | entered => 1
  | exited => 2
  | returned => 3

end ExceptionAction

namespace WatchpointEvent

/-- One byte with a flag in each of its six low bits. -/
def ofCounterFlags (flags : UInt8) : WatchpointEvent :=
  .counterWrap (flags &&& 0x20 != 0) (flags &&& 0x10 != 0) (flags &&& 0x08 != 0)
    (flags &&& 0x04 != 0) (flags &&& 0x02 != 0) (flags &&& 0x01 != 0)

/-- An exception number of nine bits and an action. -/
def ofExceptionBytes (low high : UInt8) : Except Malformation WatchpointEvent :=
  let exception := ((high &&& 1).toUInt16 <<< 8) ||| low.toUInt16
  let function := (high >>> 4) &&& 3
  match ExceptionAction.ofFunction? function with
  | some action => .ok (.exceptionTrace exception action)
  | none => .error (.exceptionAction exception function)

/-- Discriminators from 8 to 23 are made of a type of two bits, a comparator of two
bits and a direction. -/
def ofDataTrace (discriminator : UInt8) (payload : List UInt8) : Except Malformation WatchpointEvent :=
  let comparator := (discriminator >>> 1) &&& 3
  let upper := discriminator &&& 1 != 0
  if discriminator < 16 then
    match upper, payload with
    | false, [_, _, _, _] => .ok (.accessCounter comparator (wordOfBytes payload))
    | true, [low, high] => .ok (.accessAddress comparator ((high.toUInt16 <<< 8) ||| low.toUInt16))
    | _, _ => .error (.hardwarePayload discriminator payload)
  else .ok (.accessValue comparator (if upper then .write else .read) payload)

def decode (discriminator : UInt8) (payload : List UInt8) : Except Malformation WatchpointEvent :=
  if discriminator = 0 then
    match payload with
    | [flags] => .ok (ofCounterFlags flags)
    | _ => .error (.hardwarePayload discriminator payload)
  else if discriminator = 1 then
    match payload with
    | [low, high] => ofExceptionBytes low high
    | _ => .error (.hardwarePayload discriminator payload)
  else if discriminator = 2 then
    match payload with
    | [0] => .ok (.counterSample none)
    | [_, _, _, _] => .ok (.counterSample (some (wordOfBytes payload)))
    | _ => .error (.sampleSize payload)
  else if 8 ≤ discriminator ∧ discriminator ≤ 23 then ofDataTrace discriminator payload
  else .error (.unknownDiscriminator discriminator payload.length)

/-- The lowest bytes of a number, least significant first. -/
def lowBytes : (count : Nat) → (value : Nat) → List UInt8
  | 0, _ => []
  | count + 1, value => value.toUInt8 :: lowBytes count (value / 256)

/-- Comparators have two bits and exceptions nine. -/
def Encodable : WatchpointEvent → Prop
  | .exceptionTrace exception _ => exception < 512
  | .accessCounter comparator _ | .accessAddress comparator _ | .accessValue comparator _ _ => comparator < 4
  | _ => True

/-- The discriminator and the payload of the hardware packet that carries an event. -/
def encode : WatchpointEvent → UInt8 × List UInt8
  | .counterWrap cycles folded loadStore sleep exception perInstruction =>
    (0, [(32 * cycles.toNat + 16 * folded.toNat + 8 * loadStore.toNat + 4 * sleep.toNat + 2 * exception.toNat
      + perInstruction.toNat).toUInt8])
  | .exceptionTrace exception action =>
    (1, lowBytes 2 ((action.function.toNat <<< 12) + exception.toNat))
  | .counterSample none => (2, [0])
  | .counterSample (some counter) => (2, lowBytes 4 counter.toNat)
  | .accessCounter comparator counter => (8 + 2 * comparator, lowBytes 4 counter.toNat)
  | .accessAddress comparator address => (9 + 2 * comparator, lowBytes 2 address.toNat)
  | .accessValue comparator .read value => (16 + 2 * comparator, value)
  | .accessValue comparator .write value => (17 + 2 * comparator, value)

end WatchpointEvent

/-- The event in a hardware packet; other packets hold none. -/
def Packet.event : Packet → Option (Except Malformation WatchpointEvent)
  | .hardware discriminator _ payload => some (WatchpointEvent.decode discriminator payload)
  | _ => none

end SingleWire
