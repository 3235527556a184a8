import SingleWire.Wire
import SingleWire.Script
import SingleWire.Proofs.DecoderGrammar

/-! Packets are read back from the wire, whichever of its forms each of them has been
sent in. A form tells where it ends, so that no packet runs into the next. -/

namespace SingleWire.Wire
open Continuation Grammar

variable {width : TimestampWidth} {packet : Packet} {bytes : List UInt8}

private theorem ofByte?_short {ticks : UInt32} (least : 1 ≤ ticks) (most : ticks ≤ 6) :
    Header.ofByte? (16 * ticks.toNat).toUInt8 = some (.whole (.localTimestamp .short ticks .sync)) := by
  have all : ∀ number : Fin 7, 1 ≤ number.val → Header.ofByte? (16 * number.val).toUInt8 =
      some (.whole (.localTimestamp .short (UInt32.ofNat number.val) .sync)) := by decide
  have named := all ⟨ticks.toNat, Nat.lt_succ_of_le (UInt32.le_iff_toNat_le.mp most)⟩ (UInt32.le_iff_toNat_le.mp least)
  rwa [UInt32.ofNat_toNat] at named

private theorem ofByte?_extension (unit : TraceUnit) (page : Nat) :
    Header.ofByte? (extensionHeader unit page 0) = some (.whole (.extension unit (page % 8).toUInt32)) ∧
    Header.ofByte? (extensionHeader unit page 1) = some (.tail (.extension unit (page % 8).toUInt8)) := by
  have all : ∀ low : Fin 8,
      Header.ofByte? (128 * 0 + 16 * low.val + 8 + 4 * unitBit unit).toUInt8 = some (.whole (.extension unit low.val.toUInt32)) ∧
      Header.ofByte? (128 * 1 + 16 * low.val + 8 + 4 * unitBit unit).toUInt8 = some (.tail (.extension unit low.val.toUInt8)) := by
    cases unit <;> decide
  exact all ⟨page % 8, Nat.mod_lt _ (by omega)⟩

private theorem ofByte?_source {number : UInt8} (known : number < 32) (size : PayloadSize) :
    Header.ofByte? (8 * number.toNat + sizeBits size).toUInt8 = some (.payload (.stimulus number) size) ∧
    Header.ofByte? (8 * number.toNat + 4 + sizeBits size).toUInt8 = some (.payload (.hardware number) size) := by
  have all : ∀ number : Fin 32,
      Header.ofByte? (8 * number.val + sizeBits size).toUInt8 = some (.payload (.stimulus (UInt8.ofNat number.val)) size) ∧
      Header.ofByte? (8 * number.val + 4 + sizeBits size).toUInt8 = some (.payload (.hardware (UInt8.ofNat number.val)) size) := by
    cases size <;> decide
  have named := all ⟨number.toNat, UInt8.lt_iff_toNat_lt.mp known⟩
  rwa [UInt8.ofNat_toNat] at named

private theorem frame?_tail {byte : UInt8} {kind : TailKind} (named : Header.ofByte? byte = some (.tail kind))
    {count value : Nat} (fits : Fits (kind.cap width).toNat count value) (rest : List UInt8) :
    frame? width (byte :: groups count value ++ rest) =
      some ⟨.ok (tailPacket width kind (groups count value) value), (byte :: groups count value).length⟩ := by
  obtain ⟨ended, total⟩ := split?_groups fits rest
  rw [List.cons_append, frame?_cons, named, frameOf, tail, ended, List.length_cons, Nat.add_comm _ 1]
  simp only [Option.map_some, total]

private theorem frame?_payload {byte : UInt8} {kind : SourceKind} {size : PayloadSize}
    (named : Header.ofByte? byte = some (.payload kind size)) {bytes : List UInt8} (sized : bytes.length = size.bytes)
    (rest : List UInt8) :
    frame? width (byte :: bytes ++ rest) = some ⟨.ok (kind.packet size bytes), (byte :: bytes).length⟩ := by
  have enough : ¬ (bytes ++ rest).length < size.bytes := by
    rw [List.length_append]
    omega
  rw [List.cons_append, frame?_cons, named, frameOf, payload, if_neg enough, List.take_left' sized, List.length_cons, sized,
    Nat.add_comm]

private theorem flagged_eq (ticks : Nat) (wrapped clockChanged : Bool) :
    flagged ticks wrapped clockChanged = ticks + clockChanged.toNat * 2 ^ 26 + wrapped.toNat * 2 ^ 27 := by
  unfold flagged
  rw [Nat.shiftLeft_eq, Nat.shiftLeft_eq]

/-- The flags of a full tail lie above the bits of its timestamp. -/
private theorem lowPacket_of_flags {ticks : UInt32} {wrapped clockChanged : Bool} {number : Nat}
    (small : ticks.toNat < 2 ^ 26) (value : number = ticks.toNat + clockChanged.toNat * 2 ^ 26 + wrapped.toNat * 2 ^ 27) :
    Fits 4 4 number ∧ lowPacket (groups 4 number) number = .globalLow ticks wrapped clockChanged := by
  have changed := Bool.toNat_le clockChanged
  have turned := Bool.toNat_le wrapped
  have fits : Fits 4 4 number := by
    rw [fits_iff]
    omega
  have low : (number % 1 <<< 26).toUInt32 = ticks := by
    rw [Nat.shiftLeft_eq, show number % (1 * 2 ^ 26) = ticks.toNat by omega, Nat.toUInt32_eq, UInt32.ofNat_toNat]
  have high : number.testBit 27 = wrapped := by
    rw [Nat.testBit_eq_decide_div_mod_eq, show number / 2 ^ 27 % 2 = wrapped.toNat by omega]
    cases wrapped <;> rfl
  have middle : number.testBit 26 = clockChanged := by
    rw [Nat.testBit_eq_decide_div_mod_eq, show number / 2 ^ 26 % 2 = clockChanged.toNat by omega]
    cases clockChanged <;> rfl
  refine ⟨fits, ?_⟩
  rw [lowPacket, length_groups, if_neg (Nat.lt_irrefl 4), low, high, middle]

theorem Form.frame? (form : Form width packet bytes) (rest : List UInt8) :
    frame? width (bytes ++ rest) = some ⟨.ok packet, bytes.length⟩ := by
  cases form with
  | sync zeros enough =>
    rw [List.append_assoc, List.singleton_append, frame?_sync width enough, List.length_append, List.length_replicate,
      List.length_singleton]
  | overflow => rfl
  | shortTimestamp ticks least most =>
    rw [List.singleton_append, frame?_cons, ofByte?_short least most]
    rfl
  | longTimestamp ticks relation count fits =>
    have named : Header.ofByte? (0xC0 + 16 * relationBits relation).toUInt8 = some (.tail (.localTimestamp relation)) := by
      cases relation <;> rfl
    rw [frame?_tail named fits, tailPacket, Nat.toUInt32_eq, UInt32.ofNat_toNat]
  | compressedLow ticks count short fits =>
    have named : Header.ofByte? 0x94 = some (.tail .globalLow) := rfl
    rw [frame?_tail named fits, tailPacket, lowPacket, length_groups, if_pos short, Nat.toUInt32_eq, UInt32.ofNat_toNat]
  | fullLow ticks wrapped clockChanged small =>
    have named : Header.ofByte? 0x94 = some (.tail .globalLow) := rfl
    rw [Nat.shiftLeft_eq, Nat.one_mul] at small
    obtain ⟨fits, same⟩ := lowPacket_of_flags small (flagged_eq ticks.toNat wrapped clockChanged)
    rw [frame?_tail named fits, tailPacket, same]
  | high ticks count small fits =>
    have named : Header.ofByte? 0xB4 = some (.tail .globalHigh) := rfl
    have cap : (TailKind.cap width .globalHigh).toNat = width.highTailCap := by cases width <;> rfl
    rw [← cap] at fits
    rw [frame?_tail named fits, tailPacket, Nat.mod_eq_of_lt small, Nat.toUInt64_eq, UInt64.ofNat_toNat]
  | headerPage unit page small =>
    have low : page.toNat % 8 = page.toNat := Nat.mod_eq_of_lt (UInt32.lt_iff_toNat_lt.mp small)
    rw [List.singleton_append, frame?_cons, (ofByte?_extension unit page.toNat).1, low, Nat.toUInt32_eq, UInt32.ofNat_toNat]
    rfl
  | tailPage unit page count fits =>
    have low : ((page.toNat % 8).toUInt8).toNat = page.toNat % 8 := Nat.mod_eq_of_lt (by omega)
    rw [frame?_tail (ofByte?_extension unit page.toNat).2 fits, tailPacket, low, Nat.div_add_mod, Nat.toUInt32_eq,
      UInt32.ofNat_toNat]
  | stimulus port size payload known sized => exact frame?_payload (ofByte?_source known size).1 sized rest
  | hardware discriminator size payload known sized => exact frame?_payload (ofByte?_source known size).2 sized rest

theorem Form.sendable (form : Form width packet bytes) : Sendable width packet := by
  cases form with
  | sync zeros enough => exact enough
  | overflow => trivial
  | shortTimestamp ticks least most => exact ⟨least, most, rfl⟩
  | longTimestamp ticks relation count fits =>
    unfold Sendable
    rw [Nat.shiftLeft_eq, Nat.one_mul]
    exact lt_of_fits fits
  | compressedLow ticks count short fits =>
    unfold Sendable
    have bound : ticks.toNat < 2 ^ (7 * count) := by
      rcases (fits_iff.mp fits).2 with ⟨_, bound⟩ | ⟨full, _⟩
      · exact bound
      · omega
    have room : 2 ^ (7 * count) ≤ 2 ^ 26 := Nat.pow_le_pow_right Nat.two_pos (by omega)
    rw [Nat.shiftLeft_eq, Nat.one_mul]
    exact Nat.lt_of_lt_of_le bound room
  | fullLow ticks wrapped clockChanged small => exact small
  | high ticks count small fits => exact small
  | headerPage unit page small => trivial
  | tailPage unit page count fits => trivial
  | stimulus port size payload known sized => exact ⟨known, sized⟩
  | hardware discriminator size payload known sized => exact ⟨known, sized⟩

theorem form_of_sendable (sendable : Sendable width packet) : ∃ bytes, Form width packet bytes := by
  cases packet with
  | sync zeros => exact ⟨_, .sync zeros sendable⟩
  | overflow => exact ⟨_, .overflow⟩
  | localTimestamp format ticks relation =>
    cases format with
    | short =>
      obtain ⟨least, most, rfl⟩ := sendable
      exact ⟨_, .shortTimestamp ticks least most⟩
    | long =>
      unfold Sendable at sendable
      rw [Nat.shiftLeft_eq, Nat.one_mul] at sendable
      exact ⟨_, .longTimestamp ticks relation 4 (fits_cap (by omega) sendable)⟩
  | globalLow ticks wrapped clockChanged => exact ⟨_, .fullLow ticks wrapped clockChanged sendable⟩
  | globalHigh ticks =>
    have positive : 0 < width.highTailCap := by cases width <;> exact Nat.succ_pos _
    have room : width.bits - 26 ≤ 7 * width.highTailCap + 1 := by cases width <;> decide
    have fits : Fits width.highTailCap width.highTailCap ticks.toNat := by
      have bound : ticks.toNat < 1 <<< (width.bits - 26) := sendable
      rw [Nat.shiftLeft_eq, Nat.one_mul] at bound
      exact fits_cap positive (Nat.lt_of_lt_of_le bound (Nat.pow_le_pow_right Nat.two_pos room))
    exact ⟨_, .high ticks width.highTailCap sendable fits⟩
  | extension unit page =>
    have small : page.toNat / 8 < 2 ^ 29 := by
      have bound := page.toNat_lt
      omega
    exact ⟨_, .tailPage unit page 4 (fits_cap (by omega) small)⟩
  | stimulus port size payload => exact ⟨_, .stimulus port size payload sendable.1 sendable.2⟩
  | hardware discriminator size payload => exact ⟨_, .hardware discriminator size payload sendable.1 sendable.2⟩

theorem sendable_iff_form : Sendable width packet ↔ ∃ bytes, Form width packet bytes :=
  ⟨form_of_sendable, fun ⟨_, form⟩ => form.sendable⟩

theorem stream_of_sendable {packets : List Packet} (sendable : ∀ packet ∈ packets, Sendable width packet) :
    ∃ bytes, Stream width packets bytes := by
  induction packets with
  | nil => exact ⟨[], .nil⟩
  | cons packet packets ih =>
    obtain ⟨bytes, first⟩ := form_of_sendable (sendable packet List.mem_cons_self)
    obtain ⟨rest, later⟩ := ih fun other member => sendable other (List.mem_cons_of_mem _ member)
    exact ⟨bytes ++ rest, .cons first later⟩

theorem Stream.parse {packets : List Packet} (stream : Stream width packets bytes) (offset : Nat) :
    parse width offset bytes = packets.map .ok ∧ leftover width bytes = [] := by
  induction stream generalizing offset with
  | nil => exact ⟨rfl, rfl⟩
  | @cons packet packets bytes rest first later ih =>
    have found := first.frame? rest
    obtain ⟨items, left⟩ := ih (offset + bytes.length)
    rw [parse_of_some found, leftover_of_some found, List.drop_left, items, left]
    exact ⟨rfl, rfl⟩

/-- What can be sent has forms, and is read back from all of them. -/
theorem singles_feed_stream {σ : Type} [ByteSource σ] (options : Options) (packets : List Packet)
    (sendable : ∀ packet ∈ packets, Sendable options.timestampWidth packet) :
    (∃ bytes, Stream options.timestampWidth packets bytes) ∧
    ∀ bytes, Stream options.timestampWidth packets bytes →
      let run := ((Decoder.new options : Decoder σ).feed bytes).singles
      run.deliveries = packets.map .ok ∧ run.decoder.buffered = 0 ∧ run.decoder.offset = bytes.length := by
  refine ⟨stream_of_sendable sendable, ?_⟩
  intro bytes stream run
  obtain ⟨items, left⟩ := stream.parse 0
  have decoded : Decoder.Decoded options bytes run := Decoder.decoded_feed options bytes
  have empty : run.decoder.pending = [] := decoded.pending.trans left
  refine ⟨?_, ?_, ?_⟩
  · rw [decoded.deliveries, items, List.map_map]
    rfl
  · rw [← Decoder.length_pending, empty]
    rfl
  · rw [← decoded.offset, empty]
    rfl

/-- Full tails, flags, and groups that are nothing but padding. -/
theorem singles_feed_stream_full_and_padded :
    let packets : List Packet := [.sync 6, .globalLow 0x3FFFFFF true true, .globalHigh 1, .extension .watchpoint 0xFFFFFFFF,
      .stimulus 31 .two [0, 0x80], .localTimestamp .long 0x1FFFFFFF .associatedEventDelay]
    let bytes : List UInt8 := [0, 0, 0, 0, 0, 0, 0x80, 0x94, 0xFF, 0xFF, 0xFF, 0x7F, 0xB4, 0x81, 0x80, 0x80, 0x00,
      0xFC, 0xFF, 0xFF, 0xFF, 0xFF, 0xFA, 0x00, 0x80, 0xE0, 0xFF, 0xFF, 0xFF, 0xFF]
    (∀ packet ∈ packets, Sendable .bits48 packet) ∧ Stream .bits48 packets bytes ∧
    let run := ((Decoder.new {} : Decoder Script).feed bytes).singles
    run.deliveries = packets.map .ok ∧ run.decoder.buffered = 0 ∧ run.decoder.offset = 30 := by
  intro packets bytes
  have sendable : ∀ packet ∈ packets, Sendable .bits48 packet := by
    simp [packets, Sendable, TimestampWidth.bits, PayloadSize.bytes]
  have stream : Stream .bits48 packets bytes :=
    .cons (.sync 6 (by decide)) (.cons (.fullLow 0x3FFFFFF true true (by decide))
      (.cons (.high 1 4 (by decide) (by decide)) (.cons (.tailPage .watchpoint 0xFFFFFFFF 4 (by decide))
        (.cons (.stimulus 31 .two [0, 0x80] (by decide) rfl)
          (.cons (.longTimestamp 0x1FFFFFFF .associatedEventDelay 4 (by decide)) .nil)))))
  exact ⟨sendable, stream, (singles_feed_stream {} packets sendable).2 bytes stream⟩

end SingleWire.Wire
