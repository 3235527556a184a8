import SingleWire.Proofs.Realignment
import SingleWire.Proofs.Tiling

/-! Nothing that a decoder has read changes what it finds behind the end of a packet or a
fault. Bytes put in there that are a fault of their own only move what follows. -/

namespace SingleWire

namespace Grammar

/-- The headers that no packet has. -/
def Reserved (header : UInt8) : Prop :=
  header.toNat % 16 = 4 ∧ header ≠ 0x94 ∧ header ≠ 0xB4 ∨ header.toNat % 16 = 0 ∧ header.toNat / 64 = 2

instance (header : UInt8) : Decidable (Reserved header) :=
  inferInstanceAs (Decidable (header.toNat % 16 = 4 ∧ header ≠ 0x94 ∧ header ≠ 0xB4 ∨
    header.toNat % 16 = 0 ∧ header.toNat / 64 = 2))

/-- The least bytes that are malformed whatever follows them. -/
inductive Malformed : List UInt8 → Malformation → Prop where
  | header {header : UInt8} (reserved : Reserved header) : Malformed [header] (.reservedHeader header)
  | run {zeros : Nat} {terminator : UInt8} (least : 1 ≤ zeros) (ending : terminator ≠ 0)
      (broken : ¬ (5 ≤ zeros ∧ terminator = 0x80)) :
    Malformed (List.replicate zeros 0 ++ [terminator]) (.brokenSync zeros terminator)

theorem ofByte?_eq_none_iff (header : UInt8) : Header.ofByte? header = none ↔ Reserved header := by
  revert header
  apply forall_byte
  decide +kernel

variable {width : TimestampWidth} {unit : List UInt8} {cause : Malformation}

theorem frame?_of_malformed (malformed : Malformed unit cause) (more : List UInt8) :
    frame? width (unit ++ more) = some ⟨.error cause, unit.length⟩ := by
  cases malformed with
  | header reserved =>
    rw [List.singleton_append, frame?_cons, (ofByte?_eq_none_iff _).mpr reserved]
    rfl
  | @run zeros terminator least ending broken =>
    obtain ⟨others, rfl⟩ := Nat.exists_eq_add_of_le' least
    rw [List.append_assoc, List.singleton_append, frame?_zeros width others ending, zeroRun, if_neg broken,
      List.length_append, List.length_replicate, List.length_singleton]

private theorem parse_of_malformed (malformed : Malformed unit cause) (offset : Nat) :
    leftover width unit = [] ∧ parse width offset unit = [.error { offset, bytes := unit, cause }] := by
  have found : frame? width (unit ++ []) = _ := frame?_of_malformed malformed []
  rw [List.append_nil] at found
  refine ⟨?_, ?_⟩
  · rw [leftover_of_some found, List.drop_length]
    rfl
  · rw [parse_of_some found, List.drop_length, Frame.item, List.take_length]
    rfl

end Grammar

namespace Decoder
open Grammar

variable {options : Options} {first : List UInt8}

private theorem delivered_shift (distance : Nat) (items : List (Except Fault Packet)) :
    (items.map (Except.mapError (Fault.shift distance))).map delivered =
      (items.map delivered).map (Except.mapError (DecodeError.shift distance)) := by
  rw [List.map_map, List.map_map]
  apply List.map_congr_left
  intro item _
  cases item with
  | ok packet => rfl
  | error fault => rfl

private theorem shift_shift (near far : Nat) (items : List (Except DecodeError Packet)) :
    (items.map (Except.mapError (DecodeError.shift near))).map (Except.mapError (DecodeError.shift far)) =
      items.map (Except.mapError (DecodeError.shift (near + far))) := by
  rw [List.map_map]
  apply List.map_congr_left
  intro item _
  rcases item with (fault | failure) | packet
  · simp [Except.mapError, DecodeError.shift, Fault.shift, Nat.add_assoc]
  · rfl
  · rfl

theorem whole_append_of_settled (settled : leftover options.timestampWidth first = []) (second : List UInt8) :
    whole options (first ++ second) =
      whole options first ++ (whole options second).map (Except.mapError (DecodeError.shift first.length)) := by
  rw [whole, parse_append_of_settled settled, List.map_append, delivered_shift]
  rfl

variable {σ : Type} [ByteSource σ] {decoder : Decoder σ}

theorem deliveries_take (decoder : Decoder σ) (limit : Nat) :
    (decoder.take limit).deliveries = decoder.singles.deliveries.take limit := by
  induction limit generalizing decoder with
  | zero => rfl
  | succ limit ih =>
    cases given : decoder.pull.delivery with
    | none =>
      rw [singles_of_none given, List.take_nil]
      simp only [take, given]
    | some delivery =>
      rw [singles_of_some given, List.take_succ_cons, ← ih]
      simp only [take, given]

theorem placed_take {stream : List UInt8} (placed : Placed options stream decoder) (unsupplied : decoder.Unsupplied)
    (limit : Nat) : Placed options stream (decoder.take limit).decoder ∧
      whole options (stream.take (decoder.take limit).decoder.offset) =
        whole options (stream.take decoder.offset) ++ (decoder.take limit).deliveries := by
  induction limit generalizing decoder with
  | zero => exact ⟨placed, (List.append_nil _).symm⟩
  | succ limit ih =>
    cases found : frame? decoder.width decoder.pending with
    | none =>
      obtain ⟨started, kept, pulled⟩ := pull_of_unsupplied unsupplied placed.coherent found
      simp only [take, pulled]
      refine ⟨?_, (List.append_nil _).symm⟩
      have same := placed.arrive kept rfl rfl (List.append_nil _).symm
      rwa [List.append_nil] at same
    | some frame =>
      have quiet : (decoder.after frame).Unsupplied := unsupplied
      obtain ⟨later, items⟩ := ih (placed.deliver found) quiet
      simp only [take, pull_of_some placed.coherent found]
      refine ⟨later, ?_⟩
      rw [items, placed.whole_after found, List.append_assoc]
      rfl

/-- A malformed unit behind settled bytes is one fault, and what follows it only moves. -/
private theorem whole_insert {unit : List UInt8} {cause : Malformation} (settled : leftover options.timestampWidth first = [])
    (malformed : Malformed unit cause) (second : List UInt8) :
    leftover options.timestampWidth (first ++ unit ++ second) = leftover options.timestampWidth second ∧
    whole options (first ++ unit ++ second) = whole options first ++
      .error (.malformed { offset := first.length, bytes := unit, cause }) ::
        (whole options second).map (Except.mapError (DecodeError.shift (first.length + unit.length))) := by
  obtain ⟨ended, fault⟩ := @parse_of_malformed options.timestampWidth unit cause malformed 0
  have spent : leftover options.timestampWidth (first ++ unit) = [] := by
    rw [leftover_append, settled, List.nil_append, ended]
  refine ⟨?_, ?_⟩
  · rw [leftover_append, spent, List.nil_append]
  · rw [whole_append_of_settled spent, whole_append_of_settled settled, whole, whole, fault, List.length_append,
      List.append_assoc]
    simp [Except.mapError, DecodeError.shift, Fault.shift, delivered]

/-- What is decoded behind the end of an item does not depend on what is before it, and a
malformed unit that is put in there is one fault more. -/
theorem singles_append_and_insert (options : Options) :
    let start : Decoder σ := new options
    let decode (bytes : List UInt8) : Run σ := (start.feed bytes).singles
    (∀ first second : List UInt8, (decode first).decoder.buffered = 0 →
      (decode (first ++ second)).deliveries =
        (decode first).deliveries ++ (decode second).deliveries.map (Except.mapError (DecodeError.shift first.length)) ∧
      (decode (first ++ second)).decoder.pending = (decode second).decoder.pending) ∧
    (∀ (stream : List UInt8) (count : Nat) (unit : List UInt8) (cause : Malformation), Malformed unit cause →
      let boundary := ((start.feed stream).take count).decoder.offset
      let inserted := decode (stream.take boundary ++ unit ++ stream.drop boundary)
      inserted.deliveries = (decode stream).deliveries.take count ++
        .error (.malformed { offset := boundary, bytes := unit, cause }) ::
          ((decode stream).deliveries.drop count).map (Except.mapError (DecodeError.shift unit.length)) ∧
      inserted.decoder.pending = (decode stream).decoder.pending) := by
  intro start decode
  have decoded (bytes : List UInt8) : Decoded options bytes (decode bytes) := decoded_feed options bytes
  refine ⟨?_, ?_⟩
  · intro first second empty
    have settled : leftover options.timestampWidth first = [] := by
      rw [← (decoded first).pending]
      apply List.eq_nil_of_length_eq_zero
      rw [length_pending, empty]
    refine ⟨?_, ?_⟩
    · rw [(decoded _).deliveries, (decoded _).deliveries, (decoded _).deliveries]
      exact whole_append_of_settled settled second
    · rw [(decoded _).pending, (decoded _).pending, leftover_append, settled, List.nil_append]
  · intro stream count unit cause malformed boundary inserted
    have fed : Placed options stream (start.feed stream) :=
      (placed_start options none).arrive (Framer.Coherent.feed (coherent_new options) stream) rfl rfl (pending_feed start stream)
    obtain ⟨placed, earlier⟩ := placed_take fed (.inr rfl) count
    have items (bytes : List UInt8) : (decode bytes).deliveries = whole options bytes := (decoded bytes).deliveries
    have front : whole options (stream.take boundary) = (decode stream).deliveries.take count :=
      earlier.trans (deliveries_take _ count)
    have inside : (stream.take boundary).length = boundary := List.length_take_of_le placed.inside
    -- The items behind the boundary are those of the bytes behind it.
    have back : (decode stream).deliveries.drop count =
        (whole options (stream.drop boundary)).map (Except.mapError (DecodeError.shift boundary)) := by
      have both := whole_append_of_settled placed.settled (stream.drop boundary)
      rw [List.take_append_drop, front, ← items, inside] at both
      exact List.append_cancel_left ((List.take_append_drop count _).trans both)
    obtain ⟨left, whole⟩ := whole_insert placed.settled malformed (stream.drop boundary)
    refine ⟨?_, ?_⟩
    · rw [items, whole, front, back, shift_shift, inside]
    · have same := leftover_append options.timestampWidth (stream.take boundary) (stream.drop boundary)
      rw [List.take_append_drop, placed.settled, List.nil_append] at same
      rw [(decoded _).pending, (decoded _).pending, left, same]

/-- Two zeros and `0x7F` are put in behind the first of two packets. A fault and the start
of a third packet follow. -/
theorem singles_append_and_insert_run :
    let start : Decoder Script := new {}
    let decode (bytes : List UInt8) : Run Script := (start.feed bytes).singles
    let first : List UInt8 := [0x01, 0x2A]
    let second : List UInt8 := [0x70, 0x04, 0x03, 0x2A]
    let unit : List UInt8 := [0, 0, 0x7F]
    let boundary := ((start.feed (first ++ second)).take 1).decoder.offset
    let inserted := decode ((first ++ second).take boundary ++ unit ++ (first ++ second).drop boundary)
    (decode first).decoder.buffered = 0 ∧
    (decode (first ++ second)).deliveries =
      (decode first).deliveries ++ (decode second).deliveries.map (Except.mapError (DecodeError.shift 2)) ∧
    (decode (first ++ second)).decoder.pending = (decode second).decoder.pending ∧
    Malformed unit (.brokenSync 2 0x7F) ∧
    inserted.deliveries = (decode (first ++ second)).deliveries.take 1 ++
      .error (.malformed { offset := boundary, bytes := unit, cause := .brokenSync 2 0x7F }) ::
        ((decode (first ++ second)).deliveries.drop 1).map (Except.mapError (DecodeError.shift 3)) ∧
    inserted.decoder.pending = (decode (first ++ second)).decoder.pending := by
  intro start decode first second unit boundary inserted
  have empty : (decode first).decoder.buffered = 0 := by
    have decoded : Decoded {} first (decode first) := decoded_feed {} first
    rw [← length_pending, decoded.pending]
    rfl
  have broken : Malformed unit (.brokenSync 2 0x7F) := @Malformed.run 2 0x7F (by decide) (by decide) (by decide)
  obtain ⟨append, insert⟩ := @singles_append_and_insert Script _ {}
  obtain ⟨items, left⟩ := append first second empty
  obtain ⟨fault, same⟩ := insert (first ++ second) 1 unit _ broken
  exact ⟨empty, items, left, broken, fault, same⟩

end Decoder

end SingleWire
