import SingleWire.Proofs.HeaderGrammar
import Mathlib.Data.List.TakeWhile

/-! A frame is found as soon as its last byte is there, and later bytes do not change
it. The frames of a stream are therefore settled one after another. -/

namespace SingleWire.Grammar
open Continuation

theorem cap_pos (width : TimestampWidth) (kind : TailKind) : 0 < (kind.cap width).toNat := by
  cases kind with
  | globalHigh => cases width <;> exact Nat.succ_pos _
  | localTimestamp | globalLow | extension => exact Nat.succ_pos _

private theorem zeroRun_extent {zeros : Nat} {bytes : List UInt8} {frame : Frame} (found : zeroRun zeros bytes = some frame) :
    0 < bytes.length ∧ frame.length = zeros + 1 := by
  cases bytes with
  | nil => cases found
  | cons terminator rest =>
    simp only [zeroRun] at found
    split at found
    · cases found
      exact ⟨Nat.succ_pos _, rfl⟩
    · cases found
      exact ⟨Nat.succ_pos _, rfl⟩

theorem zeros_of_waiting {zeros : Nat} {rest : List UInt8} (waiting : zeroRun zeros (rest.dropWhile (· = 0)) = none) :
    rest = List.replicate rest.length 0 := by
  cases ending : rest.dropWhile (· = 0) with
  | nil =>
    apply List.eq_replicate_iff.mpr
    refine ⟨rfl, ?_⟩
    intro byte member
    exact of_decide_eq_true (List.dropWhile_eq_nil_iff.mp ending byte member)
  | cons terminator left =>
    rw [ending, zeroRun] at waiting
    split at waiting
    · cases waiting
    · cases waiting

theorem frame?_zeros (width : TimestampWidth) (zeros : Nat) {terminator : UInt8} (ending : terminator ≠ 0) (rest : List UInt8) :
    frame? width (List.replicate (zeros + 1) 0 ++ terminator :: rest) = zeroRun (zeros + 1) (terminator :: rest) := by
  have zero : ∀ byte ∈ List.replicate zeros (0 : UInt8), decide (byte = 0) = true := by
    intro byte member
    exact decide_eq_true (List.eq_of_mem_replicate member)
  have other : ¬ decide (terminator = 0) = true := by rwa [decide_eq_true_iff]
  have run : (terminator :: rest).takeWhile (· = 0) = [] := List.takeWhile_cons_of_neg other
  have left : (terminator :: rest).dropWhile (· = 0) = terminator :: rest := List.dropWhile_cons_of_neg other
  have named : Header.ofByte? 0 = some .zeroRun := rfl
  rw [List.replicate_succ, List.cons_append, frame?_cons, named, frameOf, List.takeWhile_append_of_pos zero,
    List.dropWhile_append_of_pos zero, run, left, List.append_nil, List.length_replicate, Nat.add_comm]

theorem frame?_sync (width : TimestampWidth) {zeros : Nat} (enough : 5 ≤ zeros) (rest : List UInt8) :
    frame? width (List.replicate zeros 0 ++ 0x80 :: rest) = some ⟨.ok (.sync zeros), zeros + 1⟩ := by
  obtain ⟨zeros, rfl⟩ := Nat.exists_eq_add_one_of_ne_zero (Nat.ne_zero_of_lt enough)
  have ending : (0x80 : UInt8) ≠ 0 := by decide
  rw [frame?_zeros width zeros ending, zeroRun, if_pos ⟨enough, rfl⟩]

private theorem zeroRun_append {zeros : Nat} {bytes : List UInt8} {frame : Frame} (found : zeroRun zeros bytes = some frame)
    (more : List UInt8) : zeroRun zeros (bytes ++ more) = some frame := by
  cases bytes with
  | nil => cases found
  | cons terminator rest => exact found

private theorem tail_extent {cap : Nat} {rest : List UInt8} {packet : List UInt8 → Nat → Packet} {frame : Frame}
    (positive : 0 < cap) (found : tail cap rest packet = some frame) :
    0 < frame.length ∧ frame.length ≤ 1 + rest.length := by
  obtain ⟨⟨field, left⟩, ended, rfl⟩ := Option.map_eq_some_iff.mp found
  have whole := congrArg List.length (split?_eq_some ended).1
  have bound := length_split? positive ended
  rw [List.length_append] at whole
  simp only
  omega

private theorem tail_append {cap : Nat} {rest : List UInt8} {packet : List UInt8 → Nat → Packet} {frame : Frame}
    (found : tail cap rest packet = some frame) (more : List UInt8) : tail cap (rest ++ more) packet = some frame := by
  obtain ⟨⟨field, left⟩, ended, rfl⟩ := Option.map_eq_some_iff.mp found
  rw [tail, split?_append ended]
  rfl

private theorem payload_extent {size : PayloadSize} {rest : List UInt8} {packet : PayloadSize → List UInt8 → Packet}
    {frame : Frame} (found : payload size rest packet = some frame) :
    0 < frame.length ∧ frame.length ≤ 1 + rest.length := by
  unfold payload at found
  split at found
  · cases found
  · cases found
    simp only
    omega

private theorem payload_append {size : PayloadSize} {rest : List UInt8} {packet : PayloadSize → List UInt8 → Packet}
    {frame : Frame} (found : payload size rest packet = some frame) (more : List UInt8) :
    payload size (rest ++ more) packet = some frame := by
  unfold payload at found ⊢
  split at found
  · cases found
  next there =>
    rw [if_neg (by rw [List.length_append]; omega), List.take_append_of_le_length (Nat.not_lt.mp there)]
    exact found

private theorem terminated_run {rest : List UInt8} (terminated : 0 < (rest.dropWhile (· = 0)).length) :
    (rest.takeWhile (· = 0)).length < rest.length := by
  have both := congrArg List.length (List.takeWhile_append_dropWhile (p := (· = (0 : UInt8))) (l := rest))
  rw [List.length_append] at both
  omega

private theorem frameOf_extent {width : TimestampWidth} {byte : UInt8} {rest : List UInt8} {header : Option Header}
    {frame : Frame} (found : frameOf width byte rest header = some frame) :
    0 < frame.length ∧ frame.length ≤ 1 + rest.length := by
  rcases header with _ | (_ | packet | ⟨kind, size⟩ | kind)
  · cases found
    exact ⟨Nat.zero_lt_one, Nat.le_add_right 1 _⟩
  · obtain ⟨terminated, length⟩ := zeroRun_extent found
    have inside := terminated_run terminated
    omega
  · cases found
    exact ⟨Nat.zero_lt_one, Nat.le_add_right 1 _⟩
  · exact payload_extent found
  · exact tail_extent (cap_pos width kind) found

private theorem frameOf_append {width : TimestampWidth} {byte : UInt8} {rest : List UInt8} {header : Option Header}
    {frame : Frame} (found : frameOf width byte rest header = some frame) (more : List UInt8) :
    frameOf width byte (rest ++ more) header = some frame := by
  rcases header with _ | (_ | packet | ⟨kind, size⟩ | kind)
  · exact found
  · have terminated := (zeroRun_extent found).1
    have inside := terminated_run terminated
    have same := zeroRun_append found more
    simp only [frameOf]
    rw [List.takeWhile_append, if_neg (by omega), List.dropWhile_append, if_neg]
    · exact same
    · rw [List.isEmpty_iff]
      exact List.ne_nil_of_length_pos terminated
  · exact found
  · exact payload_append found more
  · exact tail_append found more

theorem length_frame? {width : TimestampWidth} {bytes : List UInt8} {frame : Frame}
    (found : frame? width bytes = some frame) : 0 < frame.length ∧ frame.length ≤ bytes.length := by
  cases bytes with
  | nil => cases found
  | cons byte rest =>
    rw [frame?_cons] at found
    rw [List.length_cons, Nat.add_comm rest.length]
    exact frameOf_extent found

/-- Bytes that come later do not change a frame that is there. -/
theorem frame?_append {width : TimestampWidth} {bytes : List UInt8} {frame : Frame}
    (found : frame? width bytes = some frame) (more : List UInt8) : frame? width (bytes ++ more) = some frame := by
  cases bytes with
  | nil => cases found
  | cons byte rest =>
    rw [List.cons_append]
    rw [frame?_cons] at found ⊢
    exact frameOf_append found more

/-- A run of zeros that has ended has a byte behind it, which is the last of its frame. -/
theorem zeroRun_split {rest : List UInt8} {frame : Frame}
    (found : zeroRun (1 + (rest.takeWhile (· = 0)).length) (rest.dropWhile (· = 0)) = some frame) :
    ∃ zeros terminator left, terminator ≠ 0 ∧ rest = List.replicate zeros 0 ++ terminator :: left ∧
      (0 :: rest).take frame.length = List.replicate (zeros + 1) 0 ++ [terminator] := by
  have length := (zeroRun_extent found).2
  have run : rest.takeWhile (· = 0) = List.replicate (rest.takeWhile (· = 0)).length 0 := by
    apply List.eq_replicate_iff.mpr
    refine ⟨rfl, ?_⟩
    intro byte member
    exact of_decide_eq_true (List.mem_takeWhile_imp (p := (· = (0 : UInt8))) member)
  cases ending : rest.dropWhile (· = 0) with
  | nil =>
    rw [ending] at found
    cases found
  | cons terminator left =>
    have other := List.head?_dropWhile_not (· = (0 : UInt8)) rest
    rw [ending] at other
    have whole : rest = List.replicate (rest.takeWhile (· = 0)).length 0 ++ terminator :: left := by
      rw [← run, ← ending, List.takeWhile_append_dropWhile]
    refine ⟨(rest.takeWhile (· = 0)).length, terminator, left, of_decide_eq_false other, whole, ?_⟩
    generalize (rest.takeWhile (· = 0)).length = zeros at length whole ⊢
    rw [length, whole]
    simp [List.replicate_succ, List.take_append, Nat.add_comm 1]

private theorem zeroRun_take {width : TimestampWidth} {rest : List UInt8} {frame : Frame}
    (found : zeroRun (1 + (rest.takeWhile (· = 0)).length) (rest.dropWhile (· = 0)) = some frame) :
    frame? width ((0 :: rest).take frame.length) = some frame := by
  have named : Header.ofByte? 0 = some .zeroRun := rfl
  have whole : frame? width (0 :: rest) = some frame := by rw [frame?_cons, named, frameOf, found]
  obtain ⟨zeros, terminator, left, ending, rfl, front⟩ := zeroRun_split found
  rw [front, frame?_zeros width zeros ending]
  rw [← List.cons_append, ← List.replicate_succ, frame?_zeros width zeros ending] at whole
  exact whole

private theorem payload_take {size : PayloadSize} {rest : List UInt8} {packet : PayloadSize → List UInt8 → Packet}
    {frame : Frame} (found : payload size rest packet = some frame) :
    payload size (rest.take (frame.length - 1)) packet = some frame := by
  unfold payload at found
  split at found
  · cases found
  next there =>
    cases found
    rw [Nat.add_sub_cancel_left, payload, List.take_take, Nat.min_self, List.length_take, if_neg (by omega)]

private theorem tail_take {cap : Nat} {rest : List UInt8} {packet : List UInt8 → Nat → Packet} {frame : Frame}
    (found : tail cap rest packet = some frame) : tail cap (rest.take (frame.length - 1)) packet = some frame := by
  obtain ⟨⟨field, left⟩, ended, rfl⟩ := Option.map_eq_some_iff.mp found
  have front : rest.take (1 + field.length - 1) = field := by
    rw [Nat.add_sub_cancel_left, (split?_eq_some ended).1, List.take_left' rfl]
  rw [front, tail, split?_field ended]
  rfl

theorem frame?_take {width : TimestampWidth} {bytes : List UInt8} {frame : Frame}
    (found : frame? width bytes = some frame) : frame? width (bytes.take frame.length) = some frame := by
  have positive := (length_frame? found).1
  cases bytes with
  | nil => cases found
  | cons byte rest =>
    have front : (byte :: rest).take frame.length = byte :: rest.take (frame.length - 1) := by
      rw [← Nat.sub_add_cancel positive, List.take_succ_cons, Nat.add_sub_cancel]
    rw [frame?_cons] at found
    cases named : Header.ofByte? byte with
    | none =>
      rw [front, frame?_cons, named]
      rwa [named] at found
    | some header =>
      rw [named] at found
      cases header with
      | zeroRun =>
        cases zero_of_zeroRun named
        exact zeroRun_take found
      | whole packet =>
        rw [front, frame?_cons, named]
        exact found
      | payload kind size =>
        rw [front, frame?_cons, named]
        exact payload_take found
      | tail kind =>
        rw [front, frame?_cons, named]
        exact tail_take found

end SingleWire.Grammar
