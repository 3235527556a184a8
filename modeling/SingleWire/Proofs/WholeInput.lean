import SingleWire.Proofs.BlockReading
import SingleWire.Proofs.SourceWalk
import SingleWire.Proofs.UnfinishedFrame

/-! A stream that is read block after block to its end. The packets and faults of a run over
it are those of all its bytes fed at once, and the run ends because the stream has. -/

namespace SingleWire

/-- The reads of a stream give the bytes in order, at least one at a time, and none at the end. -/
inductive Reads {ρ : Type} [Reader ρ] : ρ → List UInt8 → Prop where
  | finish {reader : ρ} (ended : (Reader.read reader BlockSource.blockSize).1 = .ok []) : Reads reader []
  | block {reader : ρ} {bytes rest : List UInt8} (answered : (Reader.read reader BlockSource.blockSize).1 = .ok bytes)
      (nonempty : bytes ≠ []) (later : Reads (Reader.read reader BlockSource.blockSize).2 rest) :
    Reads reader (bytes ++ rest)

/-- The answers of a source give the bytes in order and then say that it has ended. -/
inductive Streams {σ : Type} [ByteSource σ] : σ → List UInt8 → Prop where
  | finish {source : σ} (ended : (ByteSource.pull source).1 = .ok .exhausted) : Streams source []
  | block {source : σ} {bytes rest : List UInt8} (answered : (ByteSource.pull source).1 = .ok (.data bytes))
      (nonempty : bytes ≠ []) (later : Streams (ByteSource.pull source).2 rest) : Streams source (bytes ++ rest)

section Blocks
variable {ρ : Type} [Reader ρ]

theorem Reads.streams {reader : ρ} {bytes : List UInt8} (reads : Reads reader bytes) :
    Streams ({ reader } : BlockSource ρ) bytes := by
  induction reads with
  | finish ended =>
    refine .finish ?_
    show (BlockSource.pull _).1 = _
    rw [BlockSource.pull_of_bytes ended]
    rfl
  | @block reader bytes rest answered nonempty later ih =>
    have pulled : ({ reader } : BlockSource ρ).pull = _ := BlockSource.pull_of_bytes answered
    rw [if_neg nonempty] at pulled
    refine .block (congrArg Prod.fst pulled) nonempty ?_
    show Streams (BlockSource.pull _).2 _
    rw [pulled]
    exact ih

end Blocks

theorem reads_cursor (bytes : Array UInt8) (position : Nat) :
    Reads ({ bytes, position } : Cursor) (bytes.toList.drop position) := by
  -- Each block leaves fewer bytes.
  induction size : bytes.size - position using Nat.strongRecOn generalizing position with
  | ind size ih =>
    let block := (bytes.toList.drop position).take BlockSource.blockSize
    have extracted : (bytes.extract position (position + BlockSource.blockSize)).toList = block := by
      simp [block, List.take_drop]
    have read : Reader.read ({ bytes, position } : Cursor) BlockSource.blockSize =
        (.ok block, { bytes, position := position + block.length }) := by
      show Cursor.read _ _ = _
      rw [Cursor.read, extracted]
    by_cases ended : bytes.size ≤ position
    · have none : bytes.toList.drop position = [] := List.drop_eq_nil_of_le ended
      rw [none]
      refine .finish ?_
      rw [read]
      simp [block, none]
    · have length : block.length = min BlockSource.blockSize (bytes.size - position) := by
        rw [List.length_take, List.length_drop, Array.length_toList]
      have positive : 0 < block.length := by
        rw [length, BlockSource.blockSize]
        omega
      have split : block ++ bytes.toList.drop (position + block.length) = bytes.toList.drop position := by
        rw [← List.drop_drop]
        exact List.prefix_iff_eq_append.mp (List.take_prefix _ _)
      rw [← split]
      refine .block (congrArg Prod.fst read) (List.ne_nil_of_length_pos positive) ?_
      rw [read]
      exact ih _ (by omega) _ rfl

namespace Decoder
open Grammar

variable {σ : Type} [ByteSource σ] {decoder : Decoder σ} {source : σ} {rest : List UInt8}

structure Exhausts (decoder : Decoder σ) (rest : List UInt8) : Prop where
  deliveries : decoder.singles.deliveries = (parse decoder.width decoder.offset (decoder.pending ++ rest)).map delivered
  exhausted : decoder.singles.decoder.exhausted = true

private theorem Exhausts.after {frame : Frame} (coherent : decoder.Coherent)
    (found : frame? decoder.width decoder.pending = some frame) (later : (decoder.after frame).Exhausts rest) :
    decoder.Exhausts rest := by
  have pulled := pull_of_some coherent found
  have run := singles_of_some (congrArg Pull.delivery pulled)
  rw [pulled] at run
  refine ⟨?_, ?_⟩
  · rw [run, parse_append_of_some found, List.map_cons, later.deliveries, offset_after found, pending_after]
    rfl
  · rw [run]
    exact later.exhausted

/-- The items at hand come first, so a decoder that waits is the one to look at. -/
private theorem exhausts_of_waiting
    (waiting : ∀ decoder : Decoder σ, decoder.Coherent → decoder.exhausted = false → decoder.source = some source →
      frame? decoder.width decoder.pending = none → decoder.Exhausts rest)
    (coherent : decoder.Coherent) (going : decoder.exhausted = false) (present : decoder.source = some source) :
    decoder.Exhausts rest := by
  generalize front : decoder.pending = bytes
  generalize named : decoder.width = width
  induction bytes using frame_induction width generalizing decoder with
  | waiting bytes unfinished =>
    rw [← front, ← named] at unfinished
    exact waiting decoder coherent going present unfinished
  | found bytes frame found ih =>
    rw [← front, ← named] at found
    rw [← front] at ih
    have settled : (decoder.after frame).Coherent := Framer.coherent_after _ _
    have later : (decoder.after frame).Exhausts rest := ih settled going present (pending_after decoder frame) named
    exact later.after coherent found

private theorem singles_of_same_pull {first second : Decoder σ} (delivery : first.pull.delivery = second.pull.delivery)
    (same : first.pull.decoder = second.pull.decoder) :
    first.singles.deliveries = second.singles.deliveries ∧ first.singles.decoder = second.singles.decoder := by
  cases given : second.pull.delivery with
  | none =>
    rw [singles_of_none (delivery.trans given), singles_of_none given]
    exact ⟨rfl, same⟩
  | some item =>
    rw [singles_of_some (delivery.trans given), singles_of_some given, same]
    exact ⟨rfl, rfl⟩

theorem exhausts_of_streams (streams : Streams source rest) (coherent : decoder.Coherent) (going : decoder.exhausted = false)
    (present : decoder.source = some source) : decoder.Exhausts rest := by
  induction streams generalizing decoder with
  | finish ended =>
    refine exhausts_of_waiting ?_ coherent going present
    intro decoder coherent going present waiting
    obtain ⟨started, next, kept⟩ := Framer.next_of_none coherent waiting
    have pulled := pull_of_none next
    rw [fill_of_present (decoder.remember started) going present, ended] at pulled
    have run := singles_of_none (congrArg Pull.delivery pulled)
    rw [pulled] at run
    refine ⟨?_, ?_⟩
    · rw [run, List.append_nil, parse_of_none waiting]
      rfl
    · rw [run]
      rfl
  | @block source bytes rest answered nonempty later ih =>
    refine exhausts_of_waiting ?_ coherent going present
    intro decoder coherent going present waiting
    obtain ⟨started, next, kept⟩ := Framer.next_of_none coherent waiting
    have remembered : (decoder.remember started).Coherent := kept
    have pulled := pull_of_none next
    obtain ⟨first, others, rfl⟩ := List.exists_cons_of_ne_nil nonempty
    rw [fill_of_present (decoder.remember started) going present, answered] at pulled
    -- The pull goes on with the bytes that have come.
    let supplied := (decoder.remember started).told (ByteSource.pull source).2 (.ok (.data (first :: others)))
    have same : decoder.pull.delivery = supplied.pull.delivery ∧ decoder.pull.decoder = supplied.pull.decoder := by
      rw [pulled]
      exact ⟨rfl, rfl⟩
    obtain ⟨deliveries, last⟩ := singles_of_same_pull same.1 same.2
    have finished := ih (coherent_told remembered (ByteSource.pull source).2 (.ok (.data (first :: others)))) going rfl
    refine ⟨?_, ?_⟩
    · rw [deliveries, finished.deliveries, width_told, offset_told, pending_told, List.append_assoc]
      rfl
    · rw [last]
      exact finished.exhausted

/-- Nothing comes of the bytes that are still waiting for others in the end. -/
theorem atOnce_finished (options : Options) (bytes : List UInt8) :
    ∃ front, front ++ ((new options : Decoder Script).feed bytes).singles.decoder.pending = bytes ∧
      atOnce options front = atOnce options bytes := by
  have decoded (bytes : List UInt8) : Decoded options bytes ((new options : Decoder Script).feed bytes).singles :=
    decoded_feed options bytes
  obtain ⟨front, whole, finished⟩ := exists_finished options.timestampWidth bytes
  have same := parse_finished finished (frame?_leftover options.timestampWidth bytes)
  refine ⟨front, ?_, ?_⟩
  · rw [(decoded bytes).pending, whole]
  · rw [atOnce, atOnce, (decoded front).deliveries, (decoded bytes).deliveries, ← same, whole]

/-- What comes of a stream that is read is what comes of its bytes at once. -/
theorem singles_of_reads {ρ : Type} [Reader ρ] {reader : ρ} {bytes : List UInt8} (reads : Reads reader bytes)
    (options : Options) :
    let run := (withSource ({ reader } : BlockSource ρ) options).singles
    run.deliveries = atOnce options bytes ∧ run.decoder.exhausted = true := by
  have coherent : (new options : Decoder (BlockSource ρ)).Coherent := coherent_new options
  have fed : Decoded options bytes ((new options : Decoder Script).feed bytes).singles := decoded_feed options bytes
  obtain ⟨deliveries, exhausted⟩ : (withSource ({ reader } : BlockSource ρ) options).Exhausts bytes :=
    exhausts_of_streams reads.streams coherent rfl rfl
  exact ⟨deliveries.trans fed.deliveries.symm, exhausted⟩

end Decoder

end SingleWire
