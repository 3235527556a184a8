import SingleWire.Proofs.FrameSequence

/-! Bytes that hold no frame yet. They are zeros only, or a header that still awaits some of
its bytes. A packet can come of both, and no frame is found before its last byte. -/

namespace SingleWire.Grammar
open Continuation

variable {width : TimestampWidth} {bytes : List UInt8}

/-- A header and fewer bytes than it asks for. A tail is open as long as each of its bytes
promises another one. -/
inductive Unfinished (width : TimestampWidth) : List UInt8 → Prop where
  | payload {header : UInt8} {kind : SourceKind} {size : PayloadSize} {rest : List UInt8}
      (named : Header.ofByte? header = some (.payload kind size)) (short : rest.length < size.bytes) :
    Unfinished width (header :: rest)
  | tail {header : UInt8} {kind : TailKind} {rest : List UInt8} (named : Header.ofByte? header = some (.tail kind))
      (short : rest.length < (kind.cap width).toNat) (marked : ∀ byte ∈ rest, 128 ≤ byte.toNat) :
    Unfinished width (header :: rest)

theorem zeros_or_unfinished (waiting : frame? width bytes = none) :
    (∃ count, bytes = List.replicate count 0) ∨ Unfinished width bytes := by
  cases bytes with
  | nil => exact .inl ⟨0, rfl⟩
  | cons byte rest =>
    rw [frame?_cons] at waiting
    cases named : Header.ofByte? byte with
    | none =>
      rw [named] at waiting
      cases waiting
    | some header =>
      rw [named] at waiting
      cases header with
      | whole packet => cases waiting
      | zeroRun =>
        refine .inl ⟨rest.length + 1, ?_⟩
        rw [zero_of_zeroRun named, List.replicate_succ, ← zeros_of_waiting waiting]
      | payload kind size =>
        refine .inr (.payload named ?_)
        by_contra enough
        rw [frameOf, payload, if_neg enough] at waiting
        cases waiting
      | tail kind =>
        have unended : split? (kind.cap width).toNat rest = none := Option.map_eq_none_iff.mp waiting
        obtain ⟨-, short, marked⟩ := split?_eq_none unended
        exact .inr (.tail named (short (cap_pos width kind)) marked)

private theorem cap_le_highTailCap (width : TimestampWidth) (kind : TailKind) :
    (kind.cap width).toNat ≤ width.highTailCap := by
  have least : 4 ≤ width.highTailCap := by cases width <;> decide
  cases kind with
  | globalHigh => cases width <;> decide
  | localTimestamp | globalLow | extension => exact least

/-- The longest packet that can be open has the high half of a timestamp. -/
theorem Unfinished.length_le (unfinished : Unfinished width bytes) : bytes.length ≤ width.highTailCap := by
  cases unfinished with
  | @payload header kind size rest named short =>
    have most : size.bytes ≤ width.highTailCap := by cases width <;> cases size <;> decide
    rw [List.length_cons]
    omega
  | @tail header kind rest named short marked =>
    have most := cap_le_highTailCap width kind
    rw [List.length_cons]
    omega

private theorem payload_completed {size : PayloadSize} {rest : List UInt8} (short : rest.length < size.bytes)
    (packet : PayloadSize → List UInt8 → Packet) (more : List UInt8) :
    ∃ content, payload size (rest ++ List.replicate (size.bytes - rest.length) 0 ++ more) packet =
      some ⟨.ok content, 1 + rest.length + (size.bytes - rest.length)⟩ := by
  have filled : (rest ++ List.replicate (size.bytes - rest.length) 0).length = size.bytes := by
    rw [List.length_append, List.length_replicate]
    omega
  refine ⟨packet size (rest ++ List.replicate (size.bytes - rest.length) 0), ?_⟩
  rw [payload, if_neg (by rw [List.length_append, filled]; omega), List.take_left' filled]
  congr 2
  omega

private theorem tail_completed {cap : Nat} {rest : List UInt8} (short : rest.length < cap)
    (marked : ∀ byte ∈ rest, 128 ≤ byte.toNat) (packet : List UInt8 → Nat → Packet) (more : List UInt8) :
    ∃ content, tail cap (rest ++ [0] ++ more) packet = some ⟨.ok content, 1 + rest.length + 1⟩ := by
  have ended : split? (cap - rest.length) ([0] ++ more) = some ([0], more) := by
    rw [List.singleton_append, split?, if_pos (.inr (by decide))]
  refine ⟨packet (rest ++ [0]) (sum cap (rest ++ [0])), ?_⟩
  rw [List.append_assoc, tail, split?_of_marked marked short, ended]
  simp [Nat.add_assoc]

/-- One to four zeros make a packet of what a header has got. -/
theorem Unfinished.completed_by_zeros (unfinished : Unfinished width bytes) :
    ∃ needed, 1 ≤ needed ∧ needed ≤ 4 ∧ ∀ more, ∃ packet,
      frame? width (bytes ++ List.replicate needed 0 ++ more) = some ⟨.ok packet, bytes.length + needed⟩ := by
  cases unfinished with
  | @payload header kind size rest named short =>
    have most : size.bytes ≤ 4 := by cases size <;> decide
    refine ⟨size.bytes - rest.length, by omega, by omega, ?_⟩
    intro more
    obtain ⟨packet, completed⟩ := payload_completed short kind.packet more
    refine ⟨packet, ?_⟩
    rw [List.cons_append, List.cons_append, frame?_cons, named, frameOf, completed, List.length_cons, Nat.add_comm 1]
  | @tail header kind rest named short marked =>
    refine ⟨1, Nat.le_refl 1, by omega, ?_⟩
    intro more
    obtain ⟨packet, completed⟩ := tail_completed short marked (tailPacket width kind) more
    refine ⟨packet, ?_⟩
    rw [List.cons_append, List.cons_append, frame?_cons, named, frameOf, List.replicate_one, completed, List.length_cons,
      Nat.add_comm 1]

theorem completable_of_waiting (waiting : frame? width bytes = none) :
    ∃ more packet, more ≠ [] ∧ frame? width (bytes ++ more) = some ⟨.ok packet, (bytes ++ more).length⟩ := by
  rcases zeros_or_unfinished waiting with ⟨count, rfl⟩ | unfinished
  · -- Five zeros are enough for any run.
    refine ⟨List.replicate 5 0 ++ [0x80], .sync (count + 5), by simp, ?_⟩
    rw [← List.append_assoc, List.replicate_append_replicate, frame?_sync width (Nat.le_add_left 5 count), List.length_append,
      List.length_replicate, List.length_singleton]
  · obtain ⟨needed, least, -, completed⟩ := unfinished.completed_by_zeros
    obtain ⟨packet, found⟩ := completed []
    refine ⟨List.replicate needed 0, packet, ?_, ?_⟩
    · rw [Ne, List.replicate_eq_nil_iff]
      omega
    · rw [List.append_nil] at found
      rwa [List.length_append, List.length_replicate]

theorem frame?_of_short {frame : Frame} (found : frame? width bytes = some frame) {front : List UInt8} (starts : front <+: bytes)
    (short : front.length < frame.length) : frame? width front = none := by
  cases early : frame? width front with
  | none => rfl
  | some other =>
    obtain ⟨rest, rfl⟩ := starts
    rw [frame?_append early rest] at found
    cases found
    exact absurd (length_frame? early).2 (Nat.not_le.mpr short)

/-- Without the bytes behind the last frame a stream ends with a frame. -/
theorem exists_finished (width : TimestampWidth) (bytes : List UInt8) :
    ∃ front, front ++ leftover width bytes = bytes ∧ leftover width front = [] := by
  induction bytes using frame_induction width with
  | waiting bytes waiting =>
    refine ⟨[], ?_, rfl⟩
    rw [leftover_of_none waiting, List.nil_append]
  | found bytes frame found ih =>
    obtain ⟨front, whole, finished⟩ := ih
    have first : frame? width (bytes.take frame.length ++ front) = some frame := frame?_append (frame?_take found) front
    refine ⟨bytes.take frame.length ++ front, ?_, ?_⟩
    · rw [leftover_of_some found, List.append_assoc, whole, List.take_append_drop]
    · rw [leftover_of_some first, List.drop_left' (List.length_take_of_le (length_frame? found).2), finished]

theorem parse_finished {front : List UInt8} (finished : leftover width front = [])
    (waiting : frame? width bytes = none) : parse width 0 (front ++ bytes) = parse width 0 front := by
  rw [parse_append_of_settled finished, parse_of_none waiting, List.map_nil, List.append_nil]

end SingleWire.Grammar
