import SingleWire.Script
import SingleWire.Proofs.DecoderGrammar
import SingleWire.Proofs.UnfinishedFrame

/-! A synchronization packet realigns a decoder that has lost the framing. Whatever the
bytes before it are, at most four of its zeros complete a packet that they have started,
and a run that the other zeros make ends at its last byte. -/

namespace SingleWire

def DecodeError.shift (distance : Nat) : DecodeError → DecodeError
  | .malformed fault => .malformed (fault.shift distance)
  | .source failure => .source failure

namespace Grammar
open Continuation

variable {width : TimestampWidth} {bytes : List UInt8}

private theorem run_ended (width : TimestampWidth) (zeros : Nat) :
    ∃ content, frame? width (List.replicate zeros 0 ++ [0x80]) = some ⟨content, zeros + 1⟩ ∧
      (5 ≤ zeros → content = .ok (.sync zeros)) := by
  cases zeros with
  | zero => exact ⟨.error (.reservedHeader 0x80), rfl, by omega⟩
  | succ zeros =>
    by_cases enough : 5 ≤ zeros + 1
    · exact ⟨_, frame?_sync width enough [], fun _ => rfl⟩
    · have ending : (0x80 : UInt8) ≠ 0 := by decide
      rw [frame?_zeros width zeros ending, zeroRun, if_neg (fun both => enough both.1)]
      exact ⟨_, rfl, fun impossible => absurd impossible enough⟩

private theorem run_settled (width : TimestampWidth) (zeros offset : Nat) :
    leftover width (List.replicate zeros 0 ++ [0x80]) = [] ∧
    (5 ≤ zeros → parse width offset (List.replicate zeros 0 ++ [0x80]) = [.ok (.sync zeros)]) := by
  obtain ⟨content, found, sync⟩ := run_ended width zeros
  have spent : (List.replicate zeros (0 : UInt8) ++ [0x80]).drop (zeros + 1) = [] := by
    apply List.drop_eq_nil_of_le
    rw [List.length_append, List.length_replicate, List.length_singleton]
  refine ⟨?_, ?_⟩
  · rw [leftover_of_some found, spent]
    rfl
  · intro enough
    rw [parse_of_some found, spent, sync enough]
    rfl

/-- What the zeros and `0x80` of a synchronization packet do to the bytes before them. -/
private structure Realigned (width : TimestampWidth) (offset zeros : Nat) (bytes : List UInt8) : Prop where
  settled : leftover width (bytes ++ (List.replicate zeros 0 ++ [0x80])) = []
  synchronized : 9 ≤ zeros → ∃ found,
    (parse width offset (bytes ++ (List.replicate zeros 0 ++ [0x80]))).getLast? = some (.ok (.sync found)) ∧
    zeros ≤ found + 4 ∧ found ≤ zeros + bytes.length

private theorem realigned_of_waiting {zeros : Nat} (waiting : frame? width bytes = none) (enough : 4 ≤ zeros) (offset : Nat) :
    Realigned width offset zeros bytes := by
  rcases zeros_or_unfinished waiting with ⟨count, rfl⟩ | unfinished
  · -- Both runs of zeros are one.
    obtain ⟨settled, parsed⟩ := run_settled width (count + zeros) offset
    rw [← List.replicate_append_replicate, List.append_assoc] at settled parsed
    refine ⟨settled, ?_⟩
    intro plenty
    refine ⟨count + zeros, ?_, by omega, ?_⟩
    · rw [parsed (by omega)]
      rfl
    · rw [List.length_replicate]
      omega
  · -- The first zeros complete the packet in progress, and the others are a run of their own.
    obtain ⟨needed, least, most, completed⟩ := unfinished.completed_by_zeros
    obtain ⟨others, rfl⟩ := Nat.exists_eq_add_of_le (Nat.le_trans most enough)
    obtain ⟨packet, found⟩ := completed (List.replicate others 0 ++ [0x80])
    have used : (bytes ++ List.replicate needed 0).length = bytes.length + needed := by
      rw [List.length_append, List.length_replicate]
    have rest := run_settled width others (offset + (bytes.length + needed))
    have whole : bytes ++ (List.replicate (needed + others) 0 ++ [0x80]) =
        bytes ++ List.replicate needed 0 ++ (List.replicate others 0 ++ [0x80]) := by
      rw [← List.replicate_append_replicate, List.append_assoc, List.append_assoc]
    refine ⟨?_, ?_⟩
    · rw [whole, leftover_of_some found, List.drop_left' used]
      exact rest.1
    · intro plenty
      refine ⟨others, ?_, by omega, by omega⟩
      rw [whole, parse_of_some found, List.drop_left' used, rest.2 (by omega)]
      rfl

private theorem realigned (width : TimestampWidth) {zeros : Nat} (enough : 4 ≤ zeros) (bytes : List UInt8) :
    Realigned width 0 zeros bytes := by
  have last := realigned_of_waiting (frame?_leftover width bytes) enough
    (0 + (bytes.length - (leftover width bytes).length))
  have bound := (leftover_suffix width bytes).length_le
  refine ⟨?_, ?_⟩
  · rw [leftover_append]
    exact last.settled
  · intro plenty
    obtain ⟨found, ending, most, least⟩ := last.synchronized plenty
    refine ⟨found, ?_, most, by omega⟩
    rw [parse_append, List.getLast?_append, ending]
    rfl

end Grammar

namespace Decoder
open Grammar

/-- Four zeros and `0x80` end every packet and run before them; nine also make a
synchronization packet, with at most four of its zeros lost. -/
theorem singles_realigned {σ : Type} [ByteSource σ] (options : Options) (garbage : List UInt8) {zeros : Nat}
    (enough : 4 ≤ zeros) (rest : List UInt8) :
    let decode (bytes : List UInt8) : Run σ := ((new options).feed bytes).singles
    let aligning := garbage ++ (List.replicate zeros 0 ++ [0x80])
    (decode aligning).decoder.buffered = 0 ∧ (decode aligning).decoder.framer.started = none ∧
    (decode (aligning ++ rest)).deliveries = (decode aligning).deliveries ++
      (decode rest).deliveries.map (Except.mapError (DecodeError.shift (garbage.length + zeros + 1))) ∧
    (9 ≤ zeros → ∃ found, (decode aligning).deliveries.getLast? = some (.ok (.sync found)) ∧
      zeros ≤ found + 4 ∧ found ≤ zeros + garbage.length) := by
  intro decode aligning
  have realigned := realigned options.timestampWidth enough garbage
  have decoded (bytes : List UInt8) : Decoded options bytes (decode bytes) := decoded_feed options bytes
  have empty : (decode aligning).decoder.pending = [] := (decoded aligning).pending.trans realigned.settled
  have length : aligning.length = garbage.length + zeros + 1 := by
    simp only [aligning, List.length_append, List.length_replicate, List.length_singleton, Nat.add_assoc]
  refine ⟨?_, ?_, ?_, ?_⟩
  · rw [← length_pending, empty]
    rfl
  · exact (decoded aligning).coherent.started_of_nil empty
  · rw [(decoded _).deliveries, (decoded _).deliveries, (decoded _).deliveries, parse_append_of_settled realigned.settled,
      List.map_append, List.map_map, List.map_map, length]
    congr 2
    funext item
    cases item with
    | ok packet => rfl
    | error fault => rfl
  · intro plenty
    obtain ⟨found, ending, bounds⟩ := realigned.synchronized plenty
    refine ⟨found, ?_, bounds⟩
    rw [(decoded _).deliveries, List.getLast?_map, ending]
    rfl

/-- The payload of the first packet swallows four zeros, and a fault follows the run. -/
theorem singles_realigned_after_payload :
    let decode (bytes : List UInt8) : Run Script := ((new {}).feed bytes).singles
    let aligning : List UInt8 := [0x03, 0, 0, 0, 0, 0, 0, 0, 0, 0, 0x80]
    4 ≤ 9 ∧ (decode aligning).decoder.buffered = 0 ∧ (decode aligning).decoder.framer.started = none ∧
    (decode (aligning ++ [0x04])).deliveries =
      (decode aligning).deliveries ++ (decode [0x04]).deliveries.map (Except.mapError (DecodeError.shift 11)) ∧
    ∃ found, (decode aligning).deliveries.getLast? = some (.ok (.sync found)) ∧ 9 ≤ found + 4 ∧ found ≤ 9 + 1 := by
  intro decode aligning
  have enough : 4 ≤ 9 := by decide
  obtain ⟨empty, idle, later, synchronized⟩ := @singles_realigned Script _ {} [0x03] 9 enough [0x04]
  exact ⟨enough, empty, idle, later, synchronized (Nat.le_refl 9)⟩

end Decoder

end SingleWire
