import SingleWire.Header
import SingleWire.Grammar
import SingleWire.Proofs.FieldGroups

/-! Headers and tails are read with masks and shifts of words; the grammar speaks of
their bits in plain arithmetic. Both find the same packets. -/

namespace SingleWire.Grammar
open Continuation

def tailPacket (width : TimestampWidth) : TailKind → List UInt8 → Nat → Packet
  | .localTimestamp relation, _, value => .localTimestamp .long value.toUInt32 relation
  | .globalLow, field, value => lowPacket field value
  | .globalHigh, _, value => .globalHigh (value % (1 <<< (width.bits - 26))).toUInt64
  | .extension unit lowPage, _, value => .extension unit (8 * value + lowPage.toNat).toUInt32

/-- The frame of a header with the bytes that follow it. -/
def frameOf (width : TimestampWidth) (byte : UInt8) (rest : List UInt8) : Option Header → Option Frame
  | none => some ⟨.error (.reservedHeader byte), 1⟩
  | some .zeroRun => zeroRun (1 + (rest.takeWhile (· = 0)).length) (rest.dropWhile (· = 0))
  | some (.whole packet) => some ⟨.ok packet, 1⟩
  | some (.payload kind size) => payload size rest kind.packet
  | some (.tail kind) => tail (kind.cap width).toNat rest (tailPacket width kind)

def sourceKind (header : Nat) : SourceKind :=
  if header / 4 % 2 = 0 then .stimulus (header / 8).toUInt8 else .hardware (header / 8).toUInt8

def sourceHeader? (header : Nat) : Option Header :=
  match header % 4 with
  | 1 => some (.payload (sourceKind header) .one)
  | 2 => some (.payload (sourceKind header) .two)
  | 3 => some (.payload (sourceKind header) .four)
  | _ => none

/-- What a header says, in plain arithmetic. -/
def header? (header : Nat) : Option Header :=
  if header = 0x00 then some .zeroRun
  else if header = 0x70 then some (.whole .overflow)
  else if header % 16 = 0 ∧ header < 0x70 then some (.whole (.localTimestamp .short (header / 16).toUInt32 .sync))
  else if header % 16 = 0 ∧ 0xC0 ≤ header then some (.tail (.localTimestamp (relation (header / 16 % 4))))
  else if header = 0x94 then some (.tail .globalLow)
  else if header = 0xB4 then some (.tail .globalHigh)
  else if header % 4 = 0 ∧ header / 8 % 2 = 1 then
    let unit := traceUnit (header / 4 % 2)
    if header < 0x80 then some (.whole (.extension unit (header / 16 % 8).toUInt32))
    else some (.tail (.extension unit (header / 16 % 8).toUInt8))
  else sourceHeader? header

private theorem header?_toNat (byte : UInt8) : header? byte.toNat = Header.ofByte? byte := by
  revert byte
  apply forall_byte
  decide +kernel

theorem zero_of_zeroRun {byte : UInt8} (named : Header.ofByte? byte = some .zeroRun) : byte = 0 := by
  revert byte
  apply forall_byte
  decide +kernel

private theorem source_eq_frameOf (width : TimestampWidth) (byte : UInt8) (rest : List UInt8) :
    source byte.toNat rest = frameOf width byte rest (sourceHeader? byte.toNat) := by
  have packet : (fun (size : PayloadSize) (bytes : List UInt8) =>
      if byte.toNat / 4 % 2 = 0 then Packet.stimulus (byte.toNat / 8).toUInt8 size bytes
      else .hardware (byte.toNat / 8).toUInt8 size bytes) = (sourceKind byte.toNat).packet := by
    unfold sourceKind
    split <;> rfl
  simp only [source, sourceHeader?, packet]
  generalize byte.toNat % 4 = bits
  split
  all_goals simp only [frameOf, Nat.toUInt8_eq, UInt8.ofNat_toNat]

/-- The table of headers reads a byte as the grammar does. -/
theorem frame?_cons (width : TimestampWidth) (byte : UInt8) (rest : List UInt8) :
    frame? width (byte :: rest) = frameOf width byte rest (Header.ofByte? byte) := by
  have page : ((byte.toNat / 16 % 8).toUInt8).toNat = byte.toNat / 16 % 8 := Nat.mod_eq_of_lt (by omega)
  have high : (TailKind.cap width .globalHigh).toNat = width.highTailCap := by cases width <;> rfl
  rw [← header?_toNat, frame?, header?]
  simp only [apply_ite (frameOf width byte rest)]
  refine if_congr Iff.rfl rfl (if_congr Iff.rfl rfl (if_congr Iff.rfl rfl (if_congr Iff.rfl rfl
    (if_congr Iff.rfl rfl (if_congr Iff.rfl ?_ (if_congr Iff.rfl (if_congr Iff.rfl rfl ?_) ?_))))))
  · rw [frameOf, high]
    rfl
  · refine congrArg (tail 4 rest) (funext fun _ => funext fun value => ?_)
    rw [tailPacket, page]
  · exact source_eq_frameOf width byte rest

private theorem flags (byte : UInt8) :
    (byte &&& 0x40 != 0) = byte.toNat.testBit 6 ∧ (byte &&& 0x20 != 0) = byte.toNat.testBit 5 := by
  revert byte
  apply forall_byte
  decide +kernel

private theorem toUInt32_eq {value : UInt64} {number : Nat} (same : value.toNat = number) : value.toUInt32 = number.toUInt32 := by
  apply UInt32.toNat_inj.mp
  rw [UInt64.toNat_toUInt32, same]
  rfl

private theorem lowPacket_eq {field : List UInt8} {number length : UInt64} (last : UInt8) (within : field.length ≤ 4)
    (counted : length.toNat = field.length) (total : number.toNat = sum 4 field) (ending : field.getLast? = some last) :
    (if length = 4 then .globalLow (number &&& 0x3FFFFFF).toUInt32 (last &&& 0x40 != 0) (last &&& 0x20 != 0)
      else .globalLow number.toUInt32 false false) = lowPacket field (sum 4 field) := by
  have full : length = 4 ↔ ¬ field.length < 4 := by
    rw [← UInt64.toNat_inj, counted]
    show _ = 4 ↔ _
    omega
  simp only [lowPacket]
  by_cases short : field.length < 4
  · rw [if_neg (full.not_left.mpr short), if_pos short, toUInt32_eq total]
  · obtain ⟨front, rfl⟩ : ∃ front, field = front ++ [last] := List.getLast?_eq_some_iff.mp ending
    rw [List.length_append, List.length_singleton] at within short
    have three : front.length = 3 := by omega
    have value := sum_concat 4 front last
    have bound := (sum_lt 4 front).1 (by omega)
    rw [three] at value bound
    rw [if_pos (by omega), Nat.add_comm] at value
    have bits (index : Nat) : (sum 4 (front ++ [last])).testBit (21 + index) = last.toNat.testBit index := by
      rw [value, Nat.testBit_two_pow_mul_add _ bound, if_neg (by omega), Nat.add_sub_cancel_left]
    have low : (number &&& 0x3FFFFFF : UInt64).toNat = sum 4 (front ++ [last]) % 1 <<< 26 := by
      rw [UInt64.toNat_and, total]
      exact Nat.and_two_pow_sub_one_eq_mod _ 26
    rw [if_pos (full.mpr (by simp [three])), if_neg (by simp [three]), toUInt32_eq low, (flags last).1, (flags last).2,
      ← bits 6, ← bits 5]

theorem lowPage_lt {byte : UInt8} {unit : TraceUnit} {lowPage : UInt8}
    (named : Header.ofByte? byte = some (.tail (.extension unit lowPage))) : lowPage.toNat < 8 := by
  unfold Header.ofByte? at named
  repeat' split at named
  all_goals try cases named
  · unfold Header.extension at named
    simp only at named
    split at named
    · cases named
    · cases named
      rw [UInt8.toNat_and]
      exact Nat.lt_succ_of_le Nat.and_le_right
  · unfold Header.source? at named
    obtain ⟨size, _, impossible⟩ := Option.map_eq_some_iff.mp named
    cases impossible

theorem packet_eq_tailPacket (width : TimestampWidth) {byte : UInt8} {kind : TailKind}
    (named : Header.ofByte? byte = some (.tail kind)) {field : List UInt8} {value length : UInt64} (last : UInt8)
    (within : field.length ≤ (kind.cap width).toNat) (counted : length.toNat = field.length)
    (total : value.toNat = sum (kind.cap width).toNat field) (ending : field.getLast? = some last) :
    kind.packet width value length last = tailPacket width kind field (sum (kind.cap width).toNat field) := by
  cases kind with
  | localTimestamp relation => rw [TailKind.packet, tailPacket, toUInt32_eq total]
  | globalLow => exact lowPacket_eq last within counted total ending
  | globalHigh =>
    have mask : (value &&& width.highMask).toNat = value.toNat % 1 <<< (width.bits - 26) := by
      rw [UInt64.toNat_and]
      cases width
      · exact Nat.and_two_pow_sub_one_eq_mod value.toNat 22
      · exact Nat.and_two_pow_sub_one_eq_mod value.toNat 38
    rw [TailKind.packet, tailPacket, ← total, ← mask]
    congr 1
    exact (UInt64.ofNat_toNat).symm
  | extension unit lowPage =>
    have small := lowPage_lt named
    rw [TailKind.packet, tailPacket, ← total]
    congr 1
    apply UInt32.toNat_inj.mp
    have shifted : (value <<< 3).toUInt32.toNat = 2 ^ 3 * (value.toNat % 2 ^ 29) := by
      rw [UInt64.toNat_toUInt32, UInt64.toNat_shiftLeft, show (3 : UInt64).toNat % 64 = 3 from rfl, Nat.shiftLeft_eq]
      omega
    have whole : (8 * value.toNat + lowPage.toNat).toUInt32.toNat = (8 * value.toNat + lowPage.toNat) % 2 ^ 32 := rfl
    rw [UInt32.toNat_or, UInt8.toNat_toUInt32, shifted, ← Nat.two_pow_add_eq_or_of_lt small, whole]
    omega

end SingleWire.Grammar
