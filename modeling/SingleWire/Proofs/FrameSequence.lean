import SingleWire.Proofs.FrameExtent

/-! A stream is a sequence of frames and the bytes that complete no frame yet. What is
added to a stream is parsed from those bytes on. -/

namespace SingleWire

def Fault.shift (distance : Nat) (fault : Fault) : Fault := { fault with offset := fault.offset + distance }

namespace Grammar

private theorem framesWithin_eq {width : TimestampWidth} {first second : Nat} {bytes : List UInt8}
    (enough : bytes.length ≤ first) (plenty : bytes.length ≤ second) :
    framesWithin width first bytes = framesWithin width second bytes := by
  induction first generalizing second bytes with
  | zero =>
    have empty : bytes = [] := List.eq_nil_of_length_eq_zero (Nat.le_zero.mp enough)
    subst empty
    cases second with
    | zero => rfl
    | succ second => rfl
  | succ first ih =>
    cases second with
    | zero =>
      have empty : bytes = [] := List.eq_nil_of_length_eq_zero (Nat.le_zero.mp plenty)
      subst empty
      rfl
    | succ second =>
      cases found : frame? width bytes with
      | none => simp only [framesWithin, found]
      | some frame =>
        have bound := length_frame? found
        have same : framesWithin width first (bytes.drop frame.length) = framesWithin width second (bytes.drop frame.length) := by
          apply ih
          · rw [List.length_drop]; omega
          · rw [List.length_drop]; omega
        simp only [framesWithin, found, same]

/-- The packets and faults of a stream whose first byte is at position `offset`. -/
def parse (width : TimestampWidth) (offset : Nat) (bytes : List UInt8) : List (Except Fault Packet) :=
  items offset bytes (frames width bytes).1

/-- The bytes behind the last frame. -/
def leftover (width : TimestampWidth) (bytes : List UInt8) : List UInt8 := (frames width bytes).2

def Frame.item (frame : Frame) (offset : Nat) (bytes : List UInt8) : Except Fault Packet :=
  frame.content.mapError fun cause => { offset, bytes := bytes.take frame.length, cause }

variable {width : TimestampWidth} {bytes : List UInt8} {frame : Frame}

theorem frames_of_none (waiting : frame? width bytes = none) : frames width bytes = ([], bytes) := by
  cases bytes with
  | nil => rfl
  | cons byte rest => rw [frames, List.length_cons, framesWithin, waiting]

theorem frames_of_some (found : frame? width bytes = some frame) : frames width bytes =
    (frame :: (frames width (bytes.drop frame.length)).1, (frames width (bytes.drop frame.length)).2) := by
  have bound := length_frame? found
  obtain ⟨fuel, length⟩ : ∃ fuel, bytes.length = fuel + 1 := ⟨bytes.length - 1, by omega⟩
  have rest : framesWithin width fuel (bytes.drop frame.length) = frames width (bytes.drop frame.length) := by
    apply framesWithin_eq
    · rw [List.length_drop]; omega
    · exact Nat.le_refl _
  rw [frames, length, framesWithin, found]
  simp only [rest]

theorem parse_of_none (waiting : frame? width bytes = none) (offset : Nat) : parse width offset bytes = [] := by
  rw [parse, frames_of_none waiting]
  rfl

theorem parse_of_some (found : frame? width bytes = some frame) (offset : Nat) : parse width offset bytes =
    frame.item offset bytes :: parse width (offset + frame.length) (bytes.drop frame.length) := by
  rw [parse, frames_of_some found]
  rfl

theorem leftover_of_none (waiting : frame? width bytes = none) : leftover width bytes = bytes := by
  rw [leftover, frames_of_none waiting]

theorem leftover_of_some (found : frame? width bytes = some frame) :
    leftover width bytes = leftover width (bytes.drop frame.length) := by
  rw [leftover, frames_of_some found]
  rfl

/-- What holds of bytes without a frame, and of bytes if it holds of those behind their
first frame, holds of all. -/
theorem frame_induction {motive : List UInt8 → Prop} (width : TimestampWidth)
    (waiting : ∀ bytes, frame? width bytes = none → motive bytes)
    (found : ∀ bytes frame, frame? width bytes = some frame → motive (bytes.drop frame.length) → motive bytes)
    (bytes : List UInt8) : motive bytes := by
  induction size : bytes.length using Nat.strongRecOn generalizing bytes with
  | ind size ih =>
    cases first : frame? width bytes with
    | none => exact waiting bytes first
    | some frame =>
      have bound := length_frame? first
      apply found bytes frame first
      apply ih _ _ _ rfl
      rw [List.length_drop]
      omega

theorem leftover_suffix (width : TimestampWidth) (bytes : List UInt8) : leftover width bytes <:+ bytes := by
  induction bytes using frame_induction width with
  | waiting bytes waiting =>
    refine ⟨[], ?_⟩
    rw [leftover_of_none waiting, List.nil_append]
  | found bytes frame found ih =>
    rw [leftover_of_some found]
    exact ih.trans (List.drop_suffix _ _)

theorem frame?_leftover (width : TimestampWidth) (bytes : List UInt8) : frame? width (leftover width bytes) = none := by
  induction bytes using frame_induction width with
  | waiting bytes waiting => rwa [leftover_of_none waiting]
  | found bytes frame found ih => rwa [leftover_of_some found]

theorem parse_append_of_some (found : frame? width bytes = some frame) (offset : Nat) (more : List UInt8) :
    parse width offset (bytes ++ more) =
      frame.item offset bytes :: parse width (offset + frame.length) (bytes.drop frame.length ++ more) := by
  have bound := (length_frame? found).2
  have item : frame.item offset (bytes ++ more) = frame.item offset bytes := by
    rw [Frame.item, List.take_append_of_le_length bound]
    rfl
  rw [parse_of_some (frame?_append found more), item, List.drop_append_of_le_length bound]

/-- The frames of the first bytes stay as they are when more bytes come. -/
theorem parse_append (width : TimestampWidth) (offset : Nat) (bytes more : List UInt8) :
    parse width offset (bytes ++ more) = parse width offset bytes ++
      parse width (offset + (bytes.length - (leftover width bytes).length)) (leftover width bytes ++ more) := by
  induction bytes using frame_induction width generalizing offset with
  | waiting bytes waiting =>
    rw [leftover_of_none waiting, parse_of_none waiting, Nat.sub_self]
    rfl
  | found bytes frame found ih =>
    have bound := (length_frame? found).2
    have left := (leftover_suffix width (bytes.drop frame.length)).length_le
    rw [List.length_drop] at left
    rw [parse_append_of_some found, parse_of_some found, leftover_of_some found, ih, List.length_drop, List.cons_append]
    congr 3
    omega

theorem leftover_append (width : TimestampWidth) (bytes more : List UInt8) :
    leftover width (bytes ++ more) = leftover width (leftover width bytes ++ more) := by
  induction bytes using frame_induction width with
  | waiting bytes waiting => rw [leftover_of_none waiting]
  | found bytes frame found ih =>
    rw [leftover_of_some (frame?_append found more), leftover_of_some found,
      List.drop_append_of_le_length (length_frame? found).2, ih]

theorem parse_shift (width : TimestampWidth) (offset distance : Nat) (bytes : List UInt8) :
    parse width (offset + distance) bytes = (parse width offset bytes).map (Except.mapError (Fault.shift distance)) := by
  induction bytes using frame_induction width generalizing offset with
  | waiting bytes waiting =>
    rw [parse_of_none waiting, parse_of_none waiting]
    rfl
  | found bytes frame found ih =>
    have item : frame.item (offset + distance) bytes = (frame.item offset bytes).mapError (Fault.shift distance) := by
      unfold Frame.item
      cases frame.content with
      | ok packet => rfl
      | error cause => rfl
    rw [parse_of_some found, parse_of_some found, List.map_cons, item, Nat.add_right_comm, ih]

theorem parse_append_of_settled (settled : leftover width bytes = []) (more : List UInt8) :
    parse width 0 (bytes ++ more) =
      parse width 0 bytes ++ (parse width 0 more).map (Except.mapError (Fault.shift bytes.length)) := by
  rw [parse_append, settled, List.nil_append, List.length_nil, Nat.sub_zero, parse_shift]

end Grammar

end SingleWire
