import SingleWire.Proofs.WatchpointFormat
import SingleWire.Proofs.WellFormed
import Mathlib.Data.Nat.Digits.Lemmas

/-! A payload as a number. Its bytes are the digits of the number in base 256, and the words that
an event of the watchpoint unit holds are numbers of that kind. -/

namespace SingleWire

def Packet.payload? : Packet → Option (List UInt8)
  | .stimulus _ _ payload | .hardware _ _ payload => some payload
  | _ => none

/-- A program counter or an address that an event holds. -/
def WatchpointEvent.word? : WatchpointEvent → Option UInt32
  | .counterSample counter => counter
  | .accessCounter _ counter => some counter
  | .accessAddress _ address => some address.toUInt32
  | _ => none

/-- The bytes of a payload in base 256. The word has room for four. -/
def payloadSum (payload : List UInt8) : Nat :=
  ((payload.take 4).mapIdx fun place byte => byte.toNat * 256 ^ place).sum

private theorem digits_small (payload : List UInt8) : ∀ digit ∈ payload.map UInt8.toNat, digit < 256 := by
  intro digit member
  obtain ⟨byte, -, rfl⟩ := List.mem_map.mp member
  exact byte.toNat_lt

private theorem toNat_wordOfBytes_mod (payload : List UInt8) :
    (wordOfBytes payload).toNat = Nat.ofDigits 256 (payload.map UInt8.toNat) % 2 ^ 32 := by
  induction payload with
  | nil => rfl
  | cons byte rest ih =>
    rw [toNat_wordOfBytes_cons, ih, List.map_cons, Nat.ofDigits_cons]
    omega

theorem toNat_wordOfBytes (payload : List UInt8) :
    (wordOfBytes payload).toNat = Nat.ofDigits 256 ((payload.take 4).map UInt8.toNat) := by
  rw [toNat_wordOfBytes_mod, show 2 ^ 32 = 256 ^ 4 from rfl,
    Nat.ofDigits_mod_pow_eq_ofDigits_take 4 (by decide) _ (digits_small payload), List.map_take]

theorem toNat_wordOfBytes_eq_sum (payload : List UInt8) : (wordOfBytes payload).toNat = payloadSum payload := by
  rw [toNat_wordOfBytes, Nat.ofDigits_eq_sum_mapIdx, payloadSum, List.mapIdx_eq_zipIdx_map, List.mapIdx_eq_zipIdx_map,
    List.zipIdx_map, List.map_map]
  rfl

variable {payload other : List UInt8}

theorem toNat_wordOfBytes_lt (short : payload.length ≤ 4) : (wordOfBytes payload).toNat < 2 ^ (8 * payload.length) := by
  have bound := Nat.ofDigits_lt_base_pow_length (by decide) (digits_small payload)
  rw [List.length_map] at bound
  rw [toNat_wordOfBytes, List.take_of_length_le short, Nat.pow_mul]
  exact bound

theorem wordOfBytes_inj (short : payload.length ≤ 4) (sized : payload.length = other.length)
    (same : wordOfBytes payload = wordOfBytes other) : payload = other := by
  have digits := congrArg UInt32.toNat same
  rw [toNat_wordOfBytes, toNat_wordOfBytes, List.take_of_length_le short, List.take_of_length_le (sized ▸ short)] at digits
  have lengths : (payload.map UInt8.toNat).length = (other.map UInt8.toNat).length := by
    rw [List.length_map, List.length_map, sized]
  have equal := Nat.ofDigits_inj_of_len_eq (by decide) lengths (digits_small payload) (digits_small other) digits
  exact (List.map_inj_right fun _ _ => UInt8.toNat_inj.mp).mp equal

namespace WatchpointEvent

private theorem wordOfBytes_halfword (low high : UInt8) :
    wordOfBytes [low, high] = ((high.toUInt16 <<< 8) ||| low.toUInt16).toUInt32 := by
  have bound := low.toNat_lt
  have above := high.toNat_lt
  apply UInt32.toNat_inj.mp
  rw [UInt16.toNat_toUInt32, toNat_halfword, toNat_wordOfBytes_cons, toNat_wordOfBytes_cons, toNat_wordOfBytes_nil]
  omega

private theorem word?_of_exception {low high : UInt8} {event : WatchpointEvent}
    (read : ofExceptionBytes low high = .ok event) : event.word? = none := by
  unfold ofExceptionBytes at read
  simp only at read
  split at read
  · cases read
    rfl
  · cases read

private theorem word?_of_dataTrace {discriminator : UInt8} {event : WatchpointEvent} {word : UInt32}
    (read : ofDataTrace discriminator payload = .ok event) (held : event.word? = some word) : wordOfBytes payload = word := by
  unfold ofDataTrace at read
  simp only at read
  split at read
  · split at read
    next =>
      cases read
      exact Option.some.inj held
    next low high _ =>
      cases read
      exact (wordOfBytes_halfword low high).trans (Option.some.inj held)
    next => cases read
  · cases read
    cases held

/-- An event holds the number of its payload, in whichever of its formats it holds one. -/
theorem wordOfBytes_of_decode {discriminator : UInt8} {event : WatchpointEvent} {word : UInt32}
    (read : decode discriminator payload = .ok event) (held : event.word? = some word) : wordOfBytes payload = word := by
  unfold decode at read
  split at read
  · split at read
    · cases read
      cases held
    · cases read
  split at read
  · split at read
    · rw [word?_of_exception read] at held
      cases held
    · cases read
  split at read
  · split at read
    · cases read
      cases held
    · cases read
      exact Option.some.inj held
    · cases read
  split at read
  · exact word?_of_dataTrace read held
  · cases read

end WatchpointEvent

namespace Decoder
open Grammar Event

variable {σ : Type} [ByteSource σ]

theorem sendable_of_yielded (options : Options) (source : Option σ) (operations : List Operation) {packet : Packet}
    (returned : .ok packet ∈ yielded ((source.elim (new options) (withSource · options) : Decoder σ).history operations)) :
    Wire.Sendable options.timestampWidth packet := by
  obtain ⟨placed, items⟩ := tiled_history options source operations
  have sound := sound_blocks placed.settled 0 []
  rw [← whole, ← items] at sound
  obtain ⟨index, inside, same⟩ := List.mem_iff_getElem.mp returned
  have known := sound.get (sound.length_eq ▸ inside) inside
  rw [List.get_eq_getElem, List.get_eq_getElem, same] at known
  exact known.1

private theorem sized_of_sendable {width : TimestampWidth} {packet : Packet} (sendable : Wire.Sendable width packet)
    {size : PayloadSize} (sized : packet.payloadSize = some size) :
    ∃ payload, packet.payload? = some payload ∧ packet.payloadValue = some (wordOfBytes payload) ∧
      payload.length = size.bytes := by
  cases packet with
  | stimulus port _ payload | hardware discriminator _ payload =>
    cases sized
    exact ⟨payload, rfl, rfl, sendable.2⟩
  | sync | overflow | localTimestamp | globalLow | globalHigh | extension => cases sized

/-- The value of a payload is the number that its first four bytes spell. What a decoder returns
has no more bytes than that, so there the value tells the payload, also of packets of different
runs. The numbers in an event are the value of its payload. -/
theorem payloadValue_eq_sum (options otherOptions : Options) (source otherSource : Option σ)
    (operations otherOperations : List Operation) :
    let start : Decoder σ := source.elim (new options) (withSource · options)
    let otherStart : Decoder σ := otherSource.elim (new otherOptions) (withSource · otherOptions)
    let returned := yielded (start.history operations)
    let others := yielded (otherStart.history otherOperations)
    (∀ packet : Packet, packet.payloadValue.map UInt32.toNat = packet.payload?.map payloadSum) ∧
    (∀ packet size value, .ok packet ∈ returned → packet.payloadSize = some size → packet.payloadValue = some value →
      value.toNat < 2 ^ (8 * size.bytes)) ∧
    (∀ first second size, .ok first ∈ returned → .ok second ∈ others → first.payloadSize = some size →
      second.payloadSize = some size → first.payloadValue = second.payloadValue → first.payload? = second.payload?) ∧
    (∀ (packet : Packet) event word, packet.event = some (.ok event) → event.word? = some word →
      packet.payloadValue = some word) ∧
    ∀ packet : Packet, packet.event.isSome ↔ ∃ discriminator size payload, packet = .hardware discriminator size payload := by
  intro start otherStart returned others
  have short (size : PayloadSize) : size.bytes ≤ 4 := by cases size <;> decide
  refine ⟨?_, ?_, ?_, ?_, ?_⟩
  · intro packet
    cases packet with
    | stimulus port size payload | hardware discriminator size payload =>
      exact congrArg some (toNat_wordOfBytes_eq_sum payload)
    | sync | overflow | localTimestamp | globalLow | globalHigh | extension => rfl
  · intro packet size value member sized valued
    obtain ⟨payload, -, given, length⟩ := sized_of_sendable (sendable_of_yielded options source operations member) sized
    cases valued.symm.trans given
    rw [← length]
    exact toNat_wordOfBytes_lt (length ▸ short size)
  · intro first second size firstMember secondMember sized otherSized values
    have sendable := sendable_of_yielded options source operations firstMember
    have otherSendable := sendable_of_yielded otherOptions otherSource otherOperations secondMember
    obtain ⟨payload, whole, given, length⟩ := sized_of_sendable sendable sized
    obtain ⟨other, otherWhole, otherGiven, otherLength⟩ := sized_of_sendable otherSendable otherSized
    rw [given, otherGiven] at values
    have same := wordOfBytes_inj (length ▸ short size) (length.trans otherLength.symm) (Option.some.inj values)
    rw [whole, otherWhole, same]
  · intro packet event word read held
    cases packet with
    | hardware discriminator size payload =>
      exact congrArg some (WatchpointEvent.wordOfBytes_of_decode (Option.some.inj read) held)
    | sync | overflow | localTimestamp | globalLow | globalHigh | extension | stimulus => cases read
  · intro packet
    cases packet with
    | hardware discriminator size payload => exact ⟨fun _ => ⟨discriminator, size, payload, rfl⟩, fun _ => rfl⟩
    | sync | overflow | localTimestamp | globalLow | globalHigh | extension | stimulus => simp [Packet.event]

end Decoder

end SingleWire
