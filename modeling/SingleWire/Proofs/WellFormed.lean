import SingleWire.Wire
import SingleWire.Proofs.Boundaries
import Mathlib.Data.List.Forall2

/-! What a decoder returns is well formed, whatever comes over the wire. A packet is one
that a chip could have sent, and its numbers are those of its bytes in full. A fault holds
bytes that are malformed. -/

namespace SingleWire

namespace Continuation

/-- The bytes are read as one field of at most four bytes, and their groups sum up to `value`. -/
def Spells (bytes : List UInt8) (value : Nat) : Prop :=
  ∃ number length : UInt64, read 4 bytes = some (.complete number length) ∧
    length.toNat = bytes.length ∧ number.toNat = value ∧ sum 4 bytes = value

theorem spells_of_split? {field : List UInt8} (ended : split? 4 field = some (field, [])) : Spells field (sum 4 field) := by
  have four : (4 : UInt64).toNat = 4 := rfl
  obtain ⟨after, resumed, length, value⟩ := @Field.resume_ended 4 field field [] (by decide) (by decide) ended
  obtain ⟨count, complete, counted⟩ := Option.map_eq_some_iff.mp length
  refine ⟨after.value, count, ?_, counted, value, rfl⟩
  simp only [read, resumed, Option.bind_eq_bind, Option.bind_some, Option.pure_def, complete]

end Continuation

namespace Grammar
open Continuation Decoder Event

/-- A packet keeps every bit of the number that follows its header. Of the low half of a
timestamp this holds as long as its tail has no room for the flags. -/
def Lossless (bytes : List UInt8) : Packet → Prop
  | .localTimestamp .long ticks _ => Spells bytes.tail ticks.toNat
  | .globalLow ticks wrapped clockChanged =>
    bytes.tail.length < 4 →
      Spells bytes.tail ticks.toNat ∧ ticks.toNat < 1 <<< 21 ∧ wrapped = false ∧ clockChanged = false
  | .extension _ page =>
    let low := (bytes.headD 0).toNat / 16 % 8
    if bytes.tail = [] then page.toNat = low
    else ∃ value, Spells bytes.tail value ∧ value < 1 <<< 29 ∧ page.toNat = 8 * value + low
  | _ => True

/-- What a packet or a fault that is returned tells of the bytes that it takes. -/
def Sound (width : TimestampWidth) (bytes : List UInt8) : Except DecodeError Packet → Prop
  | .ok packet => Wire.Sendable width packet ∧ Lossless bytes packet
  | .error (.malformed fault) => fault.bytes = bytes ∧ Malformed bytes fault.cause
  | .error (.source _) => False

private def headed (byte : UInt8) : Header → Bool
  | .whole (.localTimestamp .short ticks relation) => 1 ≤ ticks ∧ ticks ≤ 6 ∧ relation = .sync
  | .whole (.extension _ page) => page.toNat = byte.toNat / 16 % 8
  | .whole packet => packet = .overflow
  | .payload (.stimulus number) _ | .payload (.hardware number) _ => number < 32
  | .tail (.extension _ lowPage) => lowPage.toNat = byte.toNat / 16 % 8
  | .tail _ | .zeroRun => true

private theorem headed_ofByte? {byte : UInt8} {header : Header} (named : Header.ofByte? byte = some header) :
    headed byte header = true := by
  have all : ∀ byte, (Header.ofByte? byte).all (headed byte) = true := by
    apply forall_byte
    decide +kernel
  have known := all byte
  rwa [named] at known

variable {width : TimestampWidth} {byte : UInt8} {rest : List UInt8} {frame : Frame}

private theorem sound_zeroRun (found : zeroRun (1 + (rest.takeWhile (· = 0)).length) (rest.dropWhile (· = 0)) = some frame)
    (offset : Nat) : Sound width ((0 :: rest).take frame.length) (delivered (frame.item offset (0 :: rest))) := by
  have named : Header.ofByte? 0 = some .zeroRun := rfl
  have whole : frame? width (0 :: rest) = some frame := by rw [frame?_cons, named, frameOf, found]
  obtain ⟨zeros, terminator, left, ending, same, front⟩ := zeroRun_split found
  rw [same, ← List.cons_append, ← List.replicate_succ, frame?_zeros width zeros ending, zeroRun] at whole
  split at whole
  next enough =>
    cases whole
    exact ⟨enough.1, trivial⟩
  next broken =>
    cases whole
    refine ⟨rfl, ?_⟩
    rw [front]
    exact .run (Nat.succ_le_succ (Nat.zero_le zeros)) ending broken

private theorem sound_whole {packet : Packet} (named : Header.ofByte? byte = some (.whole packet)) :
    Sound width [byte] (.ok packet) := by
  have known := headed_ofByte? named
  cases packet with
  | localTimestamp format ticks relation =>
    cases format with
    | short =>
      simp only [headed, decide_eq_true_eq] at known
      exact ⟨known, trivial⟩
    | long => simp [headed] at known
  | extension unit page =>
    simp only [headed, decide_eq_true_eq] at known
    exact ⟨trivial, known⟩
  | overflow => exact ⟨trivial, trivial⟩
  | sync | globalLow | globalHigh | stimulus | hardware => simp [headed] at known

private theorem sound_payload {kind : SourceKind} {size : PayloadSize}
    (named : Header.ofByte? byte = some (.payload kind size)) (found : payload size rest kind.packet = some frame)
    (offset : Nat) (bytes taken : List UInt8) : Sound width taken (delivered (frame.item offset bytes)) := by
  have known := headed_ofByte? named
  unfold payload at found
  split at found
  · cases found
  next enough =>
    cases found
    have sized : (rest.take size.bytes).length = size.bytes := List.length_take_of_le (Nat.not_lt.mp enough)
    cases kind with
    | stimulus port => exact ⟨⟨by simpa [headed] using known, sized⟩, trivial⟩
    | hardware discriminator => exact ⟨⟨by simpa [headed] using known, sized⟩, trivial⟩

private theorem toNat_toUInt32 {number : Nat} (small : number < 2 ^ 32) : number.toUInt32.toNat = number :=
  Nat.mod_eq_of_lt small

private theorem sound_low {field : List UInt8} (ended : split? 4 field = some (field, [])) :
    Sound width (byte :: field) (.ok (lowPacket field (sum 4 field))) := by
  unfold lowPacket
  split
  next short =>
    have bound : sum 4 field < 2 ^ 21 :=
      Nat.lt_of_lt_of_le ((sum_lt 4 field).1 short) (Nat.pow_le_pow_right Nat.two_pos (by omega))
    have same : (sum 4 field).toUInt32.toNat = sum 4 field := toNat_toUInt32 (by omega)
    refine ⟨?_, fun _ => ⟨?_, ?_, rfl, rfl⟩⟩
    · show (sum 4 field).toUInt32.toNat < 1 <<< 26
      rw [same]
      exact Nat.lt_trans bound (by decide)
    · rw [same]
      exact spells_of_split? ended
    · rw [same]
      exact bound
  next full =>
    have bound : sum 4 field % (1 <<< 26) < 1 <<< 26 := Nat.mod_lt _ (by decide)
    refine ⟨?_, fun short => absurd short full⟩
    show (sum 4 field % (1 <<< 26)).toUInt32.toNat < 1 <<< 26
    rw [toNat_toUInt32 (Nat.lt_trans bound (by decide))]
    exact bound

private theorem sound_high (field : List UInt8) (value : Nat) :
    Sound width (byte :: field) (.ok (.globalHigh (value % (1 <<< (width.bits - 26))).toUInt64)) := by
  have bound : value % (1 <<< (width.bits - 26)) < 1 <<< (width.bits - 26) := Nat.mod_lt _ (by cases width <;> decide)
  have most : 1 <<< (width.bits - 26) < 2 ^ 64 := by cases width <;> decide
  refine ⟨?_, trivial⟩
  show (value % (1 <<< (width.bits - 26))).toUInt64.toNat < 1 <<< (width.bits - 26)
  rw [Nat.toUInt64_eq, UInt64.toNat_ofNat_of_lt' (Nat.lt_trans bound most)]
  exact bound

private theorem sound_tail {kind : TailKind} (named : Header.ofByte? byte = some (.tail kind)) {field : List UInt8}
    (ended : split? (kind.cap width).toNat field = some (field, [])) :
    Sound width (byte :: field) (.ok (tailPacket width kind field (sum (kind.cap width).toNat field))) := by
  have length := length_split? (cap_pos width kind) ended
  have total := (sum_lt (kind.cap width).toNat field).2 length.2
  -- All kinds but the high half of a timestamp have room for four bytes, and so for 29 bits.
  have small (four : (kind.cap width).toNat = 4) : sum (kind.cap width).toNat field < 2 ^ 29 := by
    rw [four] at length
    exact Nat.lt_of_lt_of_le total (Nat.pow_le_pow_right Nat.two_pos (by omega))
  cases kind with
  | localTimestamp relation =>
    have bound := small rfl
    have same : (sum 4 field).toUInt32.toNat = sum 4 field := toNat_toUInt32 (Nat.lt_trans bound (by decide))
    refine ⟨?_, ?_⟩
    · show (sum 4 field).toUInt32.toNat < 1 <<< 29
      rw [same]
      exact bound
    · show Spells field (sum 4 field).toUInt32.toNat
      rw [same]
      exact spells_of_split? ended
  | globalLow => exact sound_low ended
  | globalHigh => exact sound_high field _
  | extension unit lowPage =>
    have bound : sum 4 field < 2 ^ 29 := small rfl
    have low : lowPage.toNat = byte.toNat / 16 % 8 := by simpa [headed] using headed_ofByte? named
    have same : (8 * sum 4 field + lowPage.toNat).toUInt32.toNat = 8 * sum 4 field + lowPage.toNat :=
      toNat_toUInt32 (by omega)
    refine ⟨trivial, ?_⟩
    show if field = [] then _ else _
    rw [if_neg (List.ne_nil_of_length_pos length.1)]
    exact ⟨_, spells_of_split? ended, bound, same.trans (congrArg _ low)⟩

/-- The item of a frame is sound for the bytes of the frame. -/
theorem sound_frame {bytes : List UInt8} (found : frame? width bytes = some frame) (offset : Nat) :
    Sound width (bytes.take frame.length) (delivered (frame.item offset bytes)) := by
  cases bytes with
  | nil => cases found
  | cons byte rest =>
    rw [frame?_cons] at found
    cases named : Header.ofByte? byte with
    | none =>
      rw [named] at found
      cases found
      exact ⟨rfl, .header ((ofByte?_eq_none_iff byte).mp named)⟩
    | some header =>
      rw [named] at found
      cases header with
      | zeroRun =>
        cases zero_of_zeroRun named
        exact sound_zeroRun found offset
      | whole packet =>
        cases found
        exact sound_whole named
      | payload kind size => exact sound_payload named found offset _ _
      | tail kind =>
        obtain ⟨⟨field, left⟩, ended, rfl⟩ := Option.map_eq_some_iff.mp found
        have block : (byte :: rest).take (1 + field.length) = byte :: field := by
          rw [(split?_eq_some ended).1, Nat.add_comm, List.take_succ_cons, List.take_left' rfl]
        simp only [block]
        exact sound_tail named (split?_field ended)

theorem sound_blocks {stream : List UInt8} (settled : leftover width stream = []) (offset : Nat) (more : List UInt8) :
    List.Forall₂ (Sound width) (blocks width (stream ++ more) ((parse width offset stream).map delivered))
      ((parse width offset stream).map delivered) := by
  induction stream using frame_induction width generalizing offset with
  | waiting stream waiting =>
    rw [parse_of_none waiting]
    exact .nil
  | found stream frame found ih =>
    have bound := (length_frame? found).2
    rw [leftover_of_some found] at settled
    have length := wireLength_frame (frame?_append found more) offset stream
    rw [parse_of_some found, List.map_cons, blocks]
    simp only [length]
    rw [List.take_append_of_le_length bound, List.drop_append_of_le_length bound]
    exact .cons (sound_frame found offset) (ih settled _)

end Grammar

namespace Decoder
open Grammar Event

/-- All that is returned in the course of any operations is sound for the bytes that it
has taken from the stream. The two halves of a timestamp together fit its width. -/
theorem yielded_sound {σ : Type} [ByteSource σ] (options : Options) (source : Option σ) (operations : List Operation) :
    let start : Decoder σ := source.elim (new options) (withSource · options)
    let past := start.history operations
    let taken := blocks options.timestampWidth (received past) (yielded past)
    taken.flatten = (received past).take (start.perform operations).offset ∧
    List.Forall₂ (Sound options.timestampWidth) taken (yielded past) ∧
    ∀ high low wrapped clockChanged,
      .ok (.globalHigh high) ∈ yielded past → .ok (.globalLow low wrapped clockChanged) ∈ yielded past →
      (high.toNat <<< 26) + low.toNat < 1 <<< options.timestampWidth.bits := by
  intro start past taken
  obtain ⟨placed, items⟩ := tiled_history options source operations
  have filled := flatten_blocks placed.settled 0 ((received past).drop (start.perform operations).offset)
  have sound := sound_blocks placed.settled 0 ((received past).drop (start.perform operations).offset)
  rw [List.take_append_drop, ← whole, ← items] at filled sound
  refine ⟨filled, sound, ?_⟩
  intro high low wrapped clockChanged highYielded lowYielded
  have sendable {packet : Packet} (member : .ok packet ∈ yielded past) : Wire.Sendable options.timestampWidth packet := by
    obtain ⟨index, inside, same⟩ := List.mem_iff_getElem.mp member
    have known := sound.get (sound.length_eq ▸ inside) inside
    rw [List.get_eq_getElem, List.get_eq_getElem, same] at known
    exact known.1
  have highBound : high.toNat < 1 <<< (options.timestampWidth.bits - 26) := sendable highYielded
  have lowBound : low.toNat < 1 <<< 26 := sendable lowYielded
  generalize options.timestampWidth = width at highBound ⊢
  have above : 1 <<< width.bits = 1 <<< (width.bits - 26) * 2 ^ 26 := by cases width <;> rfl
  rw [above, Nat.shiftLeft_eq]
  omega

end Decoder

end SingleWire
