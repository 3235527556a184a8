import SingleWire.Proofs.SourceDiscipline

/-! The bytes that a decoder keeps for later. It keeps them only while they can still become
a packet, and has returned each packet and fault as soon as it was there. -/

namespace SingleWire

namespace Grammar

variable {width : TimestampWidth}

theorem frame_of_mem_blocks {stream block : List UInt8} {offset : Nat}
    (member : block ∈ blocks width stream ((parse width offset stream).map Decoder.delivered)) :
    ∃ stretch frame, frame? width stretch = some frame ∧ block = stretch.take frame.length := by
  induction stream using frame_induction width generalizing offset with
  | waiting stream waiting =>
    rw [parse_of_none waiting] at member
    cases member
  | found stream frame found ih =>
    rw [parse_of_some found, List.map_cons, blocks, wireLength_frame found] at member
    rcases List.mem_cons.mp member with rfl | later
    · exact ⟨stream, frame, found, rfl⟩
    · exact ih later

end Grammar

namespace Decoder
open Grammar

variable {σ : Type} [ByteSource σ]

private theorem drained_of_completed {decoder : Decoder σ} {more : List UInt8} {packet : Packet} (unsupplied : decoder.Unsupplied)
    (coherent : decoder.Coherent)
    (found : frame? decoder.width (decoder.pending ++ more) = some ⟨.ok packet, (decoder.pending ++ more).length⟩) :
    (decoder.feed more).singles.deliveries = [.ok packet] ∧ (decoder.feed more).singles.decoder.pending = [] := by
  have fed : (decoder.feed more).Coherent := Framer.Coherent.feed coherent more
  have quiet : (decoder.feed more).Unsupplied := unsupplied
  have whole : frame? (decoder.feed more).width (decoder.feed more).pending = some ⟨.ok packet, (decoder.pending ++ more).length⟩ := by
    rw [pending_feed]
    exact found
  have drained := drained_singles quiet fed
  refine ⟨?_, ?_⟩
  · rw [drained.deliveries, parse_of_some whole, pending_feed, List.drop_length]
    rfl
  · rw [drained.pending, leftover_of_some whole, pending_feed, List.drop_length]
    rfl

/-- What a decoder keeps of a stream is the start of one packet, and except for zeros it is
short. No packet or fault of the stream is there before its last byte. -/
theorem residue_completable (options : Options) (bytes : List UInt8) :
    let decode (bytes : List UInt8) : Run σ := ((new options).feed bytes).singles
    let waiting := (decode bytes).decoder
    (waiting.pending ≠ [] → ∃ more packet, more ≠ [] ∧
      let completed := (waiting.feed more).singles
      completed.deliveries = [.ok packet] ∧ completed.decoder.pending = [] ∧
      blocks options.timestampWidth (waiting.pending ++ more) completed.deliveries = [waiting.pending ++ more]) ∧
    (∀ block ∈ blocks options.timestampWidth bytes (decode bytes).deliveries,
      ∀ front, front <+: block → front ≠ block → (decode front).deliveries = []) ∧
    ((∃ count, waiting.pending = List.replicate count 0) ∨
      Unfinished options.timestampWidth waiting.pending ∧
      waiting.buffered ≤ if options.timestampWidth = .bits48 then 4 else 6) := by
  intro decode waiting
  have decoded (bytes : List UInt8) : Decoded options bytes (decode bytes) := decoded_feed options bytes
  have unfinished : frame? options.timestampWidth waiting.pending = none := by
    rw [(decoded bytes).pending]
    exact frame?_leftover _ _
  refine ⟨?_, ?_, ?_⟩
  · intro _
    have width : waiting.width = options.timestampWidth := (tiled_history options none [.feed bytes, .singles]).placed.width
    have quiet : waiting.source = none :=
      ((course_history (new options : Decoder σ) [.feed bytes, .singles]).of_unsupplied (coherent_new options) (.inr rfl)).2.1
    obtain ⟨more, packet, some, found⟩ := completable_of_waiting unfinished
    have whole := wireLength_frame found 0 (waiting.pending ++ more)
    rw [← width] at found
    obtain ⟨deliveries, pending⟩ := drained_of_completed (.inr quiet) (decoded bytes).coherent found
    refine ⟨more, packet, some, deliveries, pending, ?_⟩
    rw [deliveries, blocks, blocks]
    have length : wireLength options.timestampWidth (waiting.pending ++ more) (.ok packet) = (waiting.pending ++ more).length := whole
    rw [length, List.take_length]
  · intro block member front starts proper
    rw [(decoded bytes).deliveries] at member
    obtain ⟨stretch, frame, found, rfl⟩ := frame_of_mem_blocks member
    have bound := List.length_take_of_le (length_frame? found).2
    have short : front.length < frame.length := by
      have most := starts.length_le
      rcases Nat.lt_or_ge front.length frame.length with less | same
      · exact less
      · exact absurd (starts.eq_of_length (by omega)) proper
    rw [(decoded front).deliveries, parse_of_none (frame?_of_short found (starts.trans (List.take_prefix _ _)) short)]
    rfl
  · rcases zeros_or_unfinished unfinished with zeros | unfinished
    · exact .inl zeros
    · have bound := unfinished.length_le
      have cap : options.timestampWidth.highTailCap = if options.timestampWidth = .bits48 then 4 else 6 := by
        cases options.timestampWidth <;> rfl
      rw [length_pending, cap] at bound
      exact .inr ⟨unfinished, bound⟩

end Decoder

end SingleWire
