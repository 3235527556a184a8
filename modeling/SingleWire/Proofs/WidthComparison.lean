import SingleWire.Proofs.Boundaries

/-! The width of the timestamp counter counts for the high half of a timestamp only. Two decoders
that differ in it cut a stream abreast up to the first high half whose fourth tail byte promises
another one. -/

namespace SingleWire

/-- What a counter of 48 bits keeps of a packet: the lowest 22 bits of a high half. -/
def Packet.narrowed : Packet → Packet
  | .globalHigh ticks => .globalHigh (ticks.toNat % (1 <<< 22)).toUInt64
  | packet => packet

namespace Continuation

/-- The first `count` bytes are there, and each promises another one. -/
def Marked (count : Nat) (bytes : List UInt8) : Prop :=
  count ≤ bytes.length ∧ ∀ byte ∈ bytes.take count, 128 ≤ byte.toNat

instance (count : Nat) (bytes : List UInt8) : Decidable (Marked count bytes) :=
  @instDecidableAnd _ _ (Nat.decLe _ _) (List.decidableBAll _ _)

theorem marked_cons {count : Nat} {byte : UInt8} {bytes : List UInt8} :
    Marked (count + 1) (byte :: bytes) ↔ 128 ≤ byte.toNat ∧ Marked count bytes := by
  simp only [Marked, List.length_cons, List.take_succ_cons, List.mem_cons, forall_eq_or_imp, Nat.add_le_add_iff_right]
  exact and_left_comm

theorem split?_of_full {cap : Nat} {bytes : List UInt8} (positive : 0 < cap) (marked : Marked cap bytes) :
    split? cap bytes = some (bytes.take cap, bytes.drop cap) := by
  obtain ⟨cap, rfl⟩ := Nat.exists_eq_add_one_of_ne_zero (Nat.ne_of_gt positive)
  induction cap generalizing bytes with
  | zero =>
    cases bytes with
    | nil => exact absurd marked.1 (by decide)
    | cons byte bytes => rw [split?, if_pos (.inl (Nat.le_refl 1)), List.take_one, List.drop_one]; rfl
  | succ cap ih =>
    cases bytes with
    | nil => exact absurd marked.1 (by simp)
    | cons byte bytes =>
      obtain ⟨more, marked⟩ := marked_cons.mp marked
      rw [split?, if_neg (by omega), Nat.add_sub_cancel, ih (Nat.succ_pos cap) marked]
      rfl

theorem split?_of_wider {cap wider : Nat} {bytes : List UInt8} (positive : 0 < cap) (wide : cap ≤ wider)
    (unmarked : ¬ Marked cap bytes) :
    split? cap bytes = split? wider bytes ∧
    ∀ field rest, split? wider bytes = some (field, rest) → sum cap field = sum wider field := by
  induction bytes generalizing cap wider with
  | nil => exact ⟨rfl, by simp [split?]⟩
  | cons byte bytes ih =>
    obtain ⟨cap, rfl⟩ := Nat.exists_eq_add_one_of_ne_zero (Nat.ne_of_gt positive)
    by_cases clear : byte.toNat < 128
    · rw [split?, split?, if_pos (.inr clear), if_pos (.inr clear)]
      refine ⟨rfl, ?_⟩
      intro field rest found
      cases found
      simp only [sum, Nat.mod_eq_of_lt clear, ite_self]
    · have later : ¬ Marked cap bytes := fun marked => unmarked (marked_cons.mpr ⟨Nat.le_of_not_lt clear, marked⟩)
      have room : 0 < cap := by
        apply Nat.pos_of_ne_zero
        intro none
        subst none
        exact later ⟨Nat.zero_le _, by simp⟩
      obtain ⟨same, value⟩ := @ih cap (wider - 1) room (by omega) later
      rw [split?, split?, if_neg (by omega), if_neg (by omega), Nat.add_sub_cancel, same]
      refine ⟨rfl, ?_⟩
      intro field rest found
      obtain ⟨⟨group, left⟩, ended, whole⟩ := Option.map_eq_some_iff.mp found
      cases whole
      rw [sum, sum, if_neg (by omega), if_neg (by omega), Nat.add_sub_cancel, value group _ ended]

end Continuation

namespace Grammar
open Continuation

/-- The high half of a timestamp with four tail bytes that all promise another one. -/
def Overlong (bytes : List UInt8) : Prop := bytes.head? = some 0xB4 ∧ Marked 4 bytes.tail

instance (bytes : List UInt8) : Decidable (Overlong bytes) :=
  inferInstanceAs (Decidable (bytes.head? = some 0xB4 ∧ Marked 4 bytes.tail))

def Frame.narrowed (frame : Frame) : Frame := { frame with content := frame.content.map Packet.narrowed }

/-- What the width has to do with a header: the width of no whole packet matters, and only
one header starts a high half. -/
private def widthFree (byte : UInt8) : Header → Bool
  | .whole packet => packet.narrowed = packet
  | .tail .globalHigh => byte = 0xB4
  | _ => true

private theorem widthFree_ofByte? {byte : UInt8} {header : Header} (named : Header.ofByte? byte = some header) :
    widthFree byte header = true := by
  have all : ∀ byte, (Header.ofByte? byte).all (widthFree byte) = true := by
    apply forall_byte
    decide +kernel
  have known := all byte
  rwa [named] at known

variable {bytes rest : List UInt8}

private theorem tailPacket_narrowed (kind : TailKind) (field : List UInt8) (value : Nat) :
    (tailPacket .bits64 kind field value).narrowed = tailPacket .bits48 kind field value := by
  cases kind with
  | globalHigh =>
    have high : (value % (1 <<< 38)).toUInt64.toNat = value % 2 ^ 38 % 2 ^ 64 := rfl
    have low : value % 2 ^ 38 % 2 ^ 64 % 2 ^ 22 = value % 2 ^ 22 := by omega
    rw [tailPacket, TimestampWidth.bits, Packet.narrowed, high]
    exact congrArg (fun number => Packet.globalHigh number.toUInt64) low
  | globalLow =>
    simp only [tailPacket, lowPacket]
    split <;> rfl
  | localTimestamp | extension => rfl

private theorem tail_narrowed {kind : TailKind} (fits : kind = .globalHigh → ¬ Marked 4 rest) :
    tail (kind.cap .bits48).toNat rest (tailPacket .bits48 kind) =
      (tail (kind.cap .bits64).toNat rest (tailPacket .bits64 kind)).map Frame.narrowed := by
  have narrowed : (tail (kind.cap .bits64).toNat rest (tailPacket .bits64 kind)).map Frame.narrowed =
      tail (kind.cap .bits64).toNat rest (tailPacket .bits48 kind) := by
    have packet := funext fun field => funext fun value => tailPacket_narrowed kind field value
    rw [tail, tail, Option.map_map, ← packet]
    rfl
  rw [narrowed]
  cases kind with
  | globalHigh =>
    obtain ⟨same, value⟩ := split?_of_wider (by decide) (by decide : 4 ≤ 6) (fits rfl)
    show tail 4 rest _ = tail 6 rest _
    rw [tail, tail, same]
    apply Option.map_congr
    rintro ⟨field, left⟩ ended
    simp only [value field left ended]
  | localTimestamp | globalLow | extension => rfl

/-- Other frames than an overlong high half are the same but for the bits that a narrow
counter does not keep. -/
theorem frame?_narrowed (fits : ¬ Overlong bytes) : frame? .bits48 bytes = (frame? .bits64 bytes).map Frame.narrowed := by
  cases bytes with
  | nil => rfl
  | cons byte rest =>
    rw [frame?_cons, frame?_cons]
    cases named : Header.ofByte? byte with
    | none => rfl
    | some header =>
      have free := widthFree_ofByte? named
      cases header with
      | zeroRun =>
        simp only [frameOf]
        cases rest.dropWhile (· = 0) with
        | nil => rfl
        | cons terminator left =>
          simp only [zeroRun]
          split <;> rfl
      | whole packet =>
        have same : packet.narrowed = packet := of_decide_eq_true free
        simp only [frameOf, Option.map_some, Frame.narrowed, Except.map, same]
      | payload kind size =>
        simp only [frameOf, payload]
        split
        · rfl
        · cases kind <;> rfl
      | tail kind =>
        apply tail_narrowed
        intro high marked
        subst high
        cases of_decide_eq_true free
        exact fits ⟨rfl, marked⟩

private theorem overlong_cons (overlong : Overlong bytes) :
    ∃ rest, bytes = 0xB4 :: rest ∧ Marked 4 rest ∧
      ∀ width : TimestampWidth, frame? width bytes = tail width.highTailCap rest (tailPacket width .globalHigh) := by
  obtain ⟨header, marked⟩ := overlong
  cases bytes with
  | nil => cases header
  | cons byte rest =>
    cases header
    refine ⟨rest, rfl, marked, ?_⟩
    intro width
    have named : Header.ofByte? 0xB4 = some (.tail .globalHigh) := rfl
    rw [frame?_cons, named]
    cases width <;> rfl

theorem frame?_overlong_narrow (overlong : Overlong bytes) :
    ∃ ticks, frame? .bits48 bytes = some ⟨.ok (.globalHigh ticks), 5⟩ := by
  obtain ⟨rest, -, marked, frame⟩ := overlong_cons overlong
  have ended : split? TimestampWidth.bits48.highTailCap rest = _ := split?_of_full (by decide) marked
  have count : (rest.take TimestampWidth.bits48.highTailCap).length = 4 := List.length_take_of_le marked.1
  refine ⟨(sum 4 (rest.take 4) % (1 <<< 22)).toUInt64, ?_⟩
  rw [frame, tail, ended]
  simp only [Option.map_some, count]
  rfl

theorem frame?_overlong_wide (overlong : Overlong bytes) :
    frame? .bits64 bytes = none ∨
    ∃ ticks length, frame? .bits64 bytes = some ⟨.ok (.globalHigh ticks), length⟩ ∧ 6 ≤ length := by
  obtain ⟨rest, -, marked, frame⟩ := overlong_cons overlong
  have count : (rest.take 4).length = 4 := List.length_take_of_le marked.1
  have short : (rest.take 4).length < TimestampWidth.bits64.highTailCap := Nat.lt_of_le_of_lt (Nat.le_of_eq count) (by decide)
  have parts := split?_of_marked marked.2 short (rest.drop 4)
  rw [List.take_append_drop, count] at parts
  rw [frame, tail, parts]
  cases later : split? (TimestampWidth.bits64.highTailCap - 4) (rest.drop 4) with
  | none => exact .inl rfl
  | some parts =>
    obtain ⟨field, left⟩ := parts
    have more := (length_split? (by decide) later).1
    refine .inr ⟨_, _, rfl, ?_⟩
    rw [List.length_append, count]
    omega

/-- How many bytes the first frames of a stream take. -/
def extent (width : TimestampWidth) : (count : Nat) → List UInt8 → Nat
  | 0, _ => 0
  | count + 1, bytes =>
    match frame? width bytes with
    | none => 0
    | some frame => frame.length + extent width count (bytes.drop frame.length)

variable {width : TimestampWidth} {frame : Frame}

theorem extent_of_none (waiting : frame? width bytes = none) (count : Nat) : extent width count bytes = 0 := by
  cases count with
  | zero => rfl
  | succ count => rw [extent, waiting]

theorem extent_of_some (found : frame? width bytes = some frame) (count : Nat) :
    extent width (count + 1) bytes = frame.length + extent width count (bytes.drop frame.length) := by
  rw [extent, found]

theorem extent_succ (width : TimestampWidth) (count : Nat) (bytes : List UInt8) :
    extent width (count + 1) bytes =
      extent width count bytes + extent width 1 (bytes.drop (extent width count bytes)) := by
  induction count generalizing bytes with
  | zero => exact (Nat.zero_add _).symm
  | succ count ih =>
    cases found : frame? width bytes with
    | none => rw [extent_of_none found, extent_of_none found, List.drop_zero, extent_of_none found]
    | some frame => rw [extent_of_some found, ih, extent_of_some found, List.drop_drop, Nat.add_assoc]

theorem drop_parse (width : TimestampWidth) (offset count : Nat) (bytes : List UInt8) :
    (parse width offset bytes).drop count =
      parse width (offset + extent width count bytes) (bytes.drop (extent width count bytes)) := by
  induction count generalizing offset bytes with
  | zero => rfl
  | succ count ih =>
    cases found : frame? width bytes with
    | none => rw [extent_of_none found, List.drop_zero, parse_of_none found, parse_of_none found, List.drop_nil]
    | some frame =>
      rw [parse_of_some found, List.drop_succ_cons, ih, extent_of_some found, List.drop_drop, Nat.add_assoc]

theorem leftover_drop (width : TimestampWidth) (count : Nat) (bytes : List UInt8) :
    leftover width (bytes.drop (extent width count bytes)) = leftover width bytes := by
  induction count generalizing bytes with
  | zero => rfl
  | succ count ih =>
    cases found : frame? width bytes with
    | none => rw [extent_of_none found, List.drop_zero]
    | some frame => rw [extent_of_some found, ← List.drop_drop, ih, leftover_of_some found]

theorem frame?_drop_extent (width : TimestampWidth) {count : Nat} {bytes : List UInt8} (enough : bytes.length ≤ count) :
    frame? width (bytes.drop (extent width count bytes)) = none := by
  induction count generalizing bytes with
  | zero =>
    cases List.eq_nil_of_length_eq_zero (Nat.le_zero.mp enough)
    rfl
  | succ count ih =>
    cases found : frame? width bytes with
    | none => rwa [extent_of_none found, List.drop_zero]
    | some frame =>
      have bound := length_frame? found
      rw [extent_of_some found, ← List.drop_drop]
      apply ih
      rw [List.length_drop]
      omega

theorem leftover_eq_drop_extent (width : TimestampWidth) (bytes : List UInt8) :
    leftover width bytes = bytes.drop (extent width bytes.length bytes) := by
  rw [← leftover_drop width bytes.length, leftover_of_none (frame?_drop_extent width (Nat.le_refl _))]

theorem frame_behind {count : Nat} (found : frame? width (bytes.drop (extent width count bytes)) = some frame) (offset : Nat) :
    (parse width offset bytes)[count]? =
      some (frame.item (offset + extent width count bytes) (bytes.drop (extent width count bytes))) ∧
    extent width (count + 1) bytes = extent width count bytes + frame.length := by
  refine ⟨?_, ?_⟩
  · rw [← List.head?_drop, drop_parse, parse_of_some found, List.head?_cons]
  · rw [extent_succ, extent_of_some found]
    rfl

theorem behind_overlong_narrow {count : Nat} (overlong : Overlong (bytes.drop (extent .bits48 count bytes))) (offset : Nat) :
    (∃ ticks, (parse .bits48 offset bytes)[count]? = some (.ok (.globalHigh ticks))) ∧
    extent .bits48 (count + 1) bytes = extent .bits48 count bytes + 5 := by
  obtain ⟨ticks, found⟩ := frame?_overlong_narrow overlong
  obtain ⟨item, next⟩ := frame_behind found offset
  exact ⟨⟨ticks, item⟩, next⟩

theorem behind_overlong_wide {count : Nat} (overlong : Overlong (bytes.drop (extent .bits64 count bytes))) (offset : Nat) :
    (parse .bits64 offset bytes).length ≤ count ∧ leftover .bits64 bytes = bytes.drop (extent .bits64 count bytes) ∨
    (∃ ticks, (parse .bits64 offset bytes)[count]? = some (.ok (.globalHigh ticks))) ∧
      extent .bits64 count bytes + 6 ≤ extent .bits64 (count + 1) bytes := by
  rcases frame?_overlong_wide overlong with waiting | ⟨ticks, length, found, least⟩
  · left
    have ended := drop_parse .bits64 offset count bytes
    rw [parse_of_none waiting, List.drop_eq_nil_iff] at ended
    refine ⟨ended, ?_⟩
    rw [← leftover_drop .bits64 count, leftover_of_none waiting]
  · right
    obtain ⟨item, next⟩ := frame_behind found offset
    refine ⟨⟨ticks, item⟩, ?_⟩
    rw [next]
    exact Nat.add_le_add_left least _

/-- Two parses of a stream, for a narrow counter and a wide one, that have the same first
frames but for the bits that a narrow counter does not keep. -/
structure Abreast (count offset : Nat) (bytes : List UInt8) : Prop where
  items : (parse .bits48 offset bytes).take count =
    ((parse .bits64 offset bytes).take count).map (Except.map Packet.narrowed)
  extents : ∀ earlier ≤ count, extent .bits48 earlier bytes = extent .bits64 earlier bytes

private theorem item_narrowed (frame : Frame) (offset : Nat) (bytes : List UInt8) :
    frame.narrowed.item offset bytes = (frame.item offset bytes).map Packet.narrowed := by
  rcases frame with ⟨cause | packet, length⟩
  · rfl
  · rfl

theorem abreast_of_fits (count offset : Nat) (bytes : List UInt8)
    (fits : ∀ earlier < count, ¬ Overlong (bytes.drop (extent .bits48 earlier bytes))) : Abreast count offset bytes := by
  induction count generalizing offset bytes with
  | zero =>
    refine ⟨by simp, ?_⟩
    intro earlier before
    cases Nat.le_zero.mp before
    rfl
  | succ count ih =>
    have same := frame?_narrowed (fits 0 (Nat.succ_pos count))
    rw [extent, List.drop_zero] at same
    cases found : frame? .bits64 bytes with
    | none =>
      rw [found] at same
      refine ⟨?_, ?_⟩
      · rw [parse_of_none same, parse_of_none found, List.take_nil, List.map_nil]
      · intro earlier _
        rw [extent_of_none same, extent_of_none found]
    | some frame =>
      rw [found] at same
      have later := ih (offset + frame.length) (bytes.drop frame.length) (by
        intro earlier before
        have fit := fits (earlier + 1) (Nat.succ_lt_succ before)
        rw [extent_of_some same, ← List.drop_drop] at fit
        exact fit)
      refine ⟨?_, ?_⟩
      · rw [parse_of_some same, parse_of_some found, List.take_succ_cons, List.take_succ_cons, List.map_cons, ← item_narrowed]
        exact congrArg _ later.items
      · intro earlier before
        cases earlier with
        | zero => rfl
        | succ earlier =>
          rw [extent_of_some same, extent_of_some found]
          exact congrArg _ (later.extents earlier (Nat.le_of_succ_le_succ before))

end Grammar

namespace Decoder
open Grammar

variable {σ : Type} [ByteSource σ] {decoder : Decoder σ}

theorem offset_take (unsupplied : decoder.Unsupplied) (coherent : decoder.Coherent) (count : Nat) :
    (decoder.take count).decoder.offset = decoder.offset + extent decoder.width count decoder.pending := by
  induction count generalizing decoder with
  | zero => rfl
  | succ count ih =>
    cases found : frame? decoder.width decoder.pending with
    | none =>
      obtain ⟨started, -, pulled⟩ := pull_of_unsupplied unsupplied coherent found
      simp only [take, pulled, extent_of_none found]
      rfl
    | some frame =>
      have quiet : (decoder.after frame).Unsupplied := unsupplied
      have later := ih quiet (Framer.coherent_after _ _)
      simp only [take, pull_of_some coherent found, extent_of_some found]
      rw [later, offset_after found, pending_after, Nat.add_assoc]
      rfl

theorem offset_take_feed (options : Options) (bytes : List UInt8) (count : Nat) :
    (((new options : Decoder σ).feed bytes).take count).decoder.offset = extent options.timestampWidth count bytes := by
  have coherent : ((new options : Decoder σ).feed bytes).Coherent := Framer.Coherent.feed (coherent_new options) bytes
  have front : ((new options : Decoder σ).feed bytes).pending = bytes := pending_feed _ bytes
  have moved := offset_take (.inr rfl) coherent count
  rw [front] at moved
  exact moved.trans (Nat.zero_add _)

private theorem delivered_narrowed (items : List (Except Fault Packet)) :
    (items.map (Except.map Packet.narrowed)).map delivered = (items.map delivered).map (Except.map Packet.narrowed) := by
  rw [List.map_map, List.map_map]
  apply List.map_congr_left
  intro item _
  cases item with
  | ok packet => rfl
  | error fault => rfl

/-- Decoders for a narrow counter and a wide one find the same in a stream, but for the bits that
a narrow counter does not keep, as long as no high half is overlong. Before the first such
half they do so in any stream; there the wide decoder goes on where the narrow one ends. -/
theorem singles_of_widths (bytes : List UInt8) :
    let start (width : TimestampWidth) : Decoder σ := (new { timestampWidth := width }).feed bytes
    let items (width : TimestampWidth) := (start width).singles.deliveries
    let left (width : TimestampWidth) := (start width).singles.decoder.pending
    let boundary (width : TimestampWidth) (count : Nat) := ((start width).take count).decoder.offset
    let overlong (count : Nat) := Overlong (bytes.drop (boundary .bits48 count))
    ((∀ count, ¬ overlong count) →
      items .bits48 = (items .bits64).map (Except.map Packet.narrowed) ∧
      (∀ count, boundary .bits48 count = boundary .bits64 count) ∧ left .bits48 = left .bits64) ∧
    ∀ count, overlong count → (∀ earlier < count, ¬ overlong earlier) →
      (items .bits48).take count = ((items .bits64).take count).map (Except.map Packet.narrowed) ∧
      (∀ earlier ≤ count, boundary .bits48 earlier = boundary .bits64 earlier) ∧
      (∃ ticks, (items .bits48)[count]? = some (.ok (.globalHigh ticks))) ∧
      boundary .bits48 (count + 1) = boundary .bits48 count + 5 ∧
      ((items .bits64).length = count ∧ left .bits64 = bytes.drop (boundary .bits64 count) ∨
        (∃ ticks, (items .bits64)[count]? = some (.ok (.globalHigh ticks))) ∧
          boundary .bits64 count + 6 ≤ boundary .bits64 (count + 1)) := by
  intro start items left boundary overlong
  have decoded (width : TimestampWidth) : Decoded { timestampWidth := width } bytes (start width).singles := decoded_feed _ bytes
  have boundary_eq (width : TimestampWidth) (count : Nat) : boundary width count = extent width count bytes :=
    offset_take_feed _ bytes count
  have items_eq (width : TimestampWidth) : items width = (parse width 0 bytes).map delivered := (decoded width).deliveries
  have left_eq (width : TimestampWidth) : left width = leftover width bytes := (decoded width).pending
  have abreast (count : Nat) (fits : ∀ earlier < count, ¬ overlong earlier) : Abreast count 0 bytes := by
    apply abreast_of_fits
    intro earlier before
    rw [← boundary_eq]
    exact fits earlier before
  refine ⟨?_, ?_⟩
  · intro fits
    have abreast (count : Nat) : Abreast count 0 bytes := abreast count fun earlier _ => fits earlier
    have extents (count : Nat) : extent .bits48 count bytes = extent .bits64 count bytes :=
      (abreast count).extents count (Nat.le_refl count)
    refine ⟨?_, ?_, ?_⟩
    · have same := (abreast ((parse .bits48 0 bytes).length + (parse .bits64 0 bytes).length)).items
      rw [List.take_of_length_le (Nat.le_add_right _ _), List.take_of_length_le (Nat.le_add_left _ _)] at same
      rw [items_eq, items_eq, same, delivered_narrowed]
    · intro count
      rw [boundary_eq, boundary_eq, extents]
    · rw [left_eq, left_eq, leftover_eq_drop_extent, leftover_eq_drop_extent, extents]
  · intro count long fits
    have abreast := abreast count fits
    have extents := abreast.extents count (Nat.le_refl count)
    have long : Overlong (bytes.drop (extent .bits48 count bytes)) := boundary_eq .bits48 count ▸ long
    obtain ⟨⟨ticks, item⟩, next⟩ := behind_overlong_narrow long 0
    refine ⟨?_, ?_, ⟨ticks, ?_⟩, ?_, ?_⟩
    · rw [items_eq, items_eq, ← List.map_take, ← List.map_take, abreast.items, delivered_narrowed]
    · intro earlier before
      rw [boundary_eq, boundary_eq, abreast.extents earlier before]
    · rw [items_eq, List.getElem?_map, item]
      rfl
    · rw [boundary_eq, boundary_eq, next]
    · rw [extents] at long
      rw [items_eq, left_eq, boundary_eq, boundary_eq, List.length_map]
      rcases behind_overlong_wide long 0 with ⟨ended, waiting⟩ | ⟨⟨ticks, item⟩, least⟩
      · left
        -- The narrow counter has found as many items before its own, and so has the wide one.
        have there := (List.getElem?_eq_some_iff.mp item).1
        have counts := congrArg List.length abreast.items
        rw [List.length_map, List.length_take, List.length_take] at counts
        exact ⟨by omega, waiting⟩
      · right
        refine ⟨⟨ticks, ?_⟩, least⟩
        rw [List.getElem?_map, item]
        rfl

/-- A whole packet, and a high half of five tail bytes. The narrow decoder takes four of them. -/
theorem singles_of_widths_overlong :
    let bytes : List UInt8 := [0x70, 0xB4, 0xFF, 0xFF, 0xFF, 0xFF, 0x05]
    let start (width : TimestampWidth) : Decoder Script := (new { timestampWidth := width }).feed bytes
    let items (width : TimestampWidth) := (start width).singles.deliveries
    let boundary (width : TimestampWidth) (count : Nat) := ((start width).take count).decoder.offset
    Overlong (bytes.drop (boundary .bits48 1)) ∧ (∀ earlier < 1, ¬ Overlong (bytes.drop (boundary .bits48 earlier))) ∧
    (items .bits48).take 1 = ((items .bits64).take 1).map (Except.map Packet.narrowed) ∧
    boundary .bits48 1 = boundary .bits64 1 ∧ boundary .bits48 2 = boundary .bits48 1 + 5 := by
  intro bytes start items boundary
  have boundary_eq (count : Nat) : boundary .bits48 count = extent .bits48 count bytes := offset_take_feed _ bytes count
  have whole : extent .bits48 1 bytes = 1 := rfl
  have long : Overlong (bytes.drop (boundary .bits48 1)) := by
    rw [boundary_eq, whole]
    decide
  have first : ∀ earlier < 1, ¬ Overlong (bytes.drop (boundary .bits48 earlier)) := by
    intro earlier before
    rw [boundary_eq, Nat.lt_one_iff.mp before]
    decide
  obtain ⟨same, boundaries, -, next, -⟩ := (@singles_of_widths Script _ bytes).2 1 long first
  exact ⟨long, first, same, boundaries 1 (Nat.le_refl 1), next⟩

end Decoder

end SingleWire
